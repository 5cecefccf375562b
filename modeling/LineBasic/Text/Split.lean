import LineBasic.Text.Basic

/-!
# Splitting text

A text with `n` separators has `n + 1` pieces, some of them perhaps empty.
-/
namespace LineBasic.Text

def split (separator : Char) : Text → List Text
  | [] => [[]]
  | c :: rest =>
      match split separator rest with
      | piece :: pieces => if c = separator then [] :: piece :: pieces else (c :: piece) :: pieces
      | [] => [[c]]

/-- The lines of a text: its pieces between line ends, without an empty one at the end. -/
def lines (text : Text) : List Text :=
  let pieces := split '\n' text
  if pieces.getLast? = some [] then pieces.dropLast else pieces

end LineBasic.Text
