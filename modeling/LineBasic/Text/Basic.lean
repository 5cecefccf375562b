/-!
# Text and sets of characters

Program text, string values and written output are lists of characters, so
that positions count code points. Lone surrogates are no characters here and
are not covered. A character class is a list of closed ranges of code points.
-/
namespace LineBasic

abbrev Text := List Char

namespace Text

abbrev Ranges := List (Nat × Nat)

def Ranges.has (ranges : Ranges) (c : Char) : Bool :=
  ranges.any fun range => range.1 ≤ c.toNat && c.toNat ≤ range.2

end Text

end LineBasic
