import LineBasic.Text.Basic

/-!
# Blanks

Two notions of blank are in use. Between tokens only the space, the tab and
the carriage return are passed over: these are *gaps*. Lines typed at the
editor and numerals in settings are trimmed of the wider class of Unicode
white space.
-/
namespace LineBasic.Text

/-- A character that only separates tokens. -/
def isGap (c : Char) : Bool := c == ' ' || c == '\t' || c == '\r'

/-- White space in the sense of the Unicode standard, with the four separator controls. -/
def blanks : Ranges :=
  [(0x9, 0xD), (0x1C, 0x20), (0x85, 0x85), (0xA0, 0xA0), (0x1680, 0x1680), (0x2000, 0x200A),
  (0x2028, 0x2029), (0x202F, 0x202F), (0x205F, 0x205F), (0x3000, 0x3000)]

def isBlank (c : Char) : Bool := blanks.has c

/-- Text without the characters of a class at its end. -/
def trimEnd (drop : Char → Bool) (text : Text) : Text := (text.reverse.dropWhile drop).reverse

/-- Text without the characters of a class at either end. -/
def trim (drop : Char → Bool) (text : Text) : Text := trimEnd drop (text.dropWhile drop)

end LineBasic.Text
