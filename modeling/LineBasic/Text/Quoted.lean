import LineBasic.Text.Unprintable

/-!
# Quoted text

Messages show a text between quotes with what cannot be printed written as an
escape. Apostrophes enclose it, unless it holds an apostrophe and no double
quote.
-/
namespace LineBasic.Text

def apostrophe : Char := Char.ofNat 0x27

/-- A number in hexadecimal, padded with zeros to a width. -/
def hex (width n : Nat) : Text := (Nat.toDigits 16 n).leftpad width '0'

/-- One character as it is written between the quotes `mark`. -/
def escaped (mark c : Char) : Text :=
  if c = mark || c = '\\' then ['\\', c]
  else if c = '\n' then ['\\', 'n']
  else if c = '\r' then ['\\', 'r']
  else if c = '\t' then ['\\', 't']
  else if !unprintable.has c then [c]
  else if c.toNat < 0x100 then '\\' :: 'x' :: hex 2 c.toNat
  else if c.toNat < 0x10000 then '\\' :: 'u' :: hex 4 c.toNat
  else '\\' :: 'U' :: hex 8 c.toNat

def quoteFor (text : Text) : Char :=
  if text.contains apostrophe && !text.contains '"' then '"' else apostrophe

def quoted (text : Text) : Text :=
  let mark := quoteFor text
  mark :: (text.flatMap (escaped mark) ++ [mark])

end LineBasic.Text
