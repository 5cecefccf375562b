import LineBasic.Lexeme

/-!
# Tokens and marks

A token is a lexeme with its place in the text. A mark is what an error
points at: it shows a token, or a bare place, and need not belong to any text,
so its numbers are integers of either sign.
-/
namespace LineBasic

/-- Columns count from one within the line; they are integers because a
cursor's idea of where the line starts may run ahead of a token. -/
structure Token where
  lexeme : Lexeme
  line : Nat
  column : Int
  start : Nat
  stop : Nat
  deriving DecidableEq

/-- The value shown with a mark. -/
inductive Payload where
  | none
  | number (value : Int)
  | text (value : Text)
  deriving DecidableEq

structure Mark where
  kind : Kind
  payload : Payload
  line : Int
  column : Int
  start : Int
  stop : Int
  deriving DecidableEq

namespace Lexeme

def payload : Lexeme → Payload
  | keyword word => .text word.spelling
  | symbol sign => .text sign.spelling
  | separator mark => .text [mark]
  | number value => .number value
  | letter name => .text [name]
  | string body => .text body
  | lineEnd => .text ['\n']
  | sourceEnd => .none

end Lexeme

namespace Token

def kind (t : Token) : Kind := t.lexeme.kind

def mark (t : Token) : Mark where
  kind := t.kind
  payload := t.lexeme.payload
  line := t.line
  column := t.column
  start := t.start
  stop := t.stop

end Token

def Payload.shown : Payload → Text
  | none => ['N', 'o', 'n', 'e']
  | number value => Numeral.decimal value
  | text value => value.quoted

namespace Mark

def place (line column pos : Int) : Mark where
  kind := .sourceEnd
  payload := .none
  line := line
  column := column
  start := pos
  stop := pos + 1

/-- A mark as text: kind, value, line and column. -/
def shown (m : Mark) : Text :=
  m.kind.tag.toList ++ '(' :: m.payload.shown ++ ") at ".toList ++ Numeral.decimal m.line ++
    ':' :: Numeral.decimal m.column

/-- The line under a quoted source line that points at the mark. -/
def pointer (m : Mark) : Text :=
  List.replicate (m.column - 1).toNat ' ' ++ List.replicate (max (m.stop - m.start) 1).toNat '^'

end Mark

end LineBasic
