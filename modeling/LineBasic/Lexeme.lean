import LineBasic.Numeral
import LineBasic.Text.Case

/-!
# Lexemes

What a program text is made of: keywords, symbols, separators, numbers,
letters, strings, line ends and the end of the source. `Lexeme.read` finds the
lexeme at the very start of a text, together with the number of characters it
takes. Passing over gaps and keeping positions is not its work.
-/
namespace LineBasic

inductive Keyword where
  | LET | IF | THEN | GOTO | PRINT | REM
  deriving DecidableEq

inductive Symbol where
  | plus | minus | times | slash
  | equal | less | greater | atMost | atLeast | unequal
  | openParen | closeParen
  deriving DecidableEq

/-- A lexeme up to the value it carries. -/
inductive Kind where
  | keyword (word : Keyword)
  | symbol (sign : Symbol)
  | separator | number | letter | string | lineEnd | sourceEnd
  deriving DecidableEq

inductive Lexeme where
  | keyword (word : Keyword)
  | symbol (sign : Symbol)
  | separator (mark : Char)
  | number (value : Nat)
  | letter (name : Char)
  | string (body : Text)
  | lineEnd
  | sourceEnd
  deriving DecidableEq

namespace Keyword

/-- The keywords in the order in which they are tried. -/
def all : List Keyword := [LET, IF, THEN, GOTO, PRINT, REM]

def spelling : Keyword → Text
  | LET => ['L', 'E', 'T']
  | IF => ['I', 'F']
  | THEN => ['T', 'H', 'E', 'N']
  | GOTO => ['G', 'O', 'T', 'O']
  | PRINT => ['P', 'R', 'I', 'N', 'T']
  | REM => ['R', 'E', 'M']

/-- Whether a text starts with the word, in any case. -/
def starts (word : Keyword) (text : Text) : Bool :=
  Text.upper (text.take word.spelling.length) == word.spelling

/-- The keyword a text starts with. Nothing need follow it: `GOTO10` starts with one. -/
def read? (text : Text) : Option Keyword := all.find? (·.starts text)

end Keyword

namespace Symbol

def spelling : Symbol → Text
  | plus => ['+']
  | minus => ['-']
  | times => ['*']
  | slash => ['/']
  | equal => ['=']
  | less => ['<']
  | greater => ['>']
  | atMost => ['<', '=']
  | atLeast => ['>', '=']
  | unequal => ['<', '>']
  | openParen => ['(']
  | closeParen => [')']

/-- The longest symbol a text starts with. -/
def read? : Text → Option Symbol
  | '+' :: _ => some plus
  | '-' :: _ => some minus
  | '*' :: _ => some times
  | '/' :: _ => some slash
  | '=' :: _ => some equal
  | '<' :: '=' :: _ => some atMost
  | '<' :: '>' :: _ => some unequal
  | '<' :: _ => some less
  | '>' :: '=' :: _ => some atLeast
  | '>' :: _ => some greater
  | '(' :: _ => some openParen
  | ')' :: _ => some closeParen
  | _ => none

/-- The comparison a symbol stands for. -/
def compares? : Symbol → Option (Int → Int → Bool)
  | equal => some fun a b => a == b
  | less => some fun a b => a < b
  | greater => some fun a b => b < a
  | atMost => some fun a b => a ≤ b
  | atLeast => some fun a b => b ≤ a
  | unequal => some fun a b => a != b
  | _ => none

/-- The symbol's name where a token is shown. -/
def tag : Symbol → String
  | plus => "PLUS"
  | minus => "MINUS"
  | times => "ASTERISK"
  | slash => "SLASH"
  | equal => "EQUAL"
  | less => "LT"
  | greater => "GT"
  | atMost => "LT_EQ"
  | atLeast => "GT_EQ"
  | unequal => "NOT_EQUAL"
  | openParen => "LEFT_PAREN"
  | closeParen => "RIGHT_PAREN"

end Symbol

namespace Kind

def name : Kind → String
  | keyword word => String.ofList word.spelling
  | symbol sign => String.ofList sign.spelling
  | separator => ","
  | number => "number"
  | letter => "letter"
  | string => "string"
  | lineEnd => "EOL"
  | sourceEnd => "EOF"

/-- The name of a kind where a token is shown. -/
def tag : Kind → String
  | keyword word => String.ofList word.spelling
  | symbol sign => sign.tag
  | separator => "SEPARATOR"
  | number => "NUMBER"
  | letter => "LETTER"
  | string => "STRING"
  | lineEnd => "EOL"
  | sourceEnd => "EOF"

def all : List Kind :=
  Keyword.all.map keyword ++
    [.plus, .minus, .times, .slash, .equal, .less, .greater, .atMost, .atLeast, .unequal,
      .openParen, .closeParen].map symbol ++
    [separator, number, letter, string, lineEnd, sourceEnd]

def ofTag? (tag : String) : Option Kind := all.find? (·.tag == tag)

end Kind

namespace Lexeme

def kind : Lexeme → Kind
  | keyword word => .keyword word
  | symbol sign => .symbol sign
  | separator _ => .separator
  | number _ => .number
  | letter _ => .letter
  | string _ => .string
  | lineEnd => .lineEnd
  | sourceEnd => .sourceEnd

/-- Why no lexeme starts a text. -/
inductive Fault where
  | unterminatedString
  | unexpectedCharacter (c : Char)
  | numeral (fault : Numeral.Fault)
  deriving DecidableEq

/-- A character of a string's body. -/
def inString (c : Char) : Bool := c != '"' && c != '\n'

def readString (rest : Text) : Except Fault (Lexeme × Nat) :=
  let body := rest.takeWhile inString
  match rest.drop body.length with
  | '"' :: _ => .ok (.string body, body.length + 2)
  | _ => .error .unterminatedString

/-- The number a text starts with: all the digits that stand there. -/
def readNumber (text : Text) : Except Fault (Lexeme × Nat) :=
  let digits := text.takeWhile Text.isDigit
  match Numeral.natural digits with
  | .ok value => .ok (.number value, digits.length)
  | .error fault => .error (.numeral fault)

/-- The keyword or letter a text starts with. Keywords win. -/
def readWord (first : Char) (text : Text) : Lexeme × Nat :=
  match Keyword.read? text with
  | some word => (.keyword word, word.spelling.length)
  | none => (.letter first, 1)

/-- The lexeme at the start of a text and its length. -/
def read : Text → Except Fault (Lexeme × Nat)
  | [] => .ok (.sourceEnd, 0)
  | c :: rest =>
      if c = '\n' then .ok (.lineEnd, 1)
      else if Text.isDigit c then readNumber (c :: rest)
      else if c = '"' then readString rest
      else match Symbol.read? (c :: rest) with
        | some sign => .ok (.symbol sign, sign.spelling.length)
        | none =>
            if c = ',' || c = ';' then .ok (.separator c, 1)
            else if c.isAlpha then .ok (readWord c (c :: rest))
            else .error (.unexpectedCharacter c)

/-- What is read from a text, by the way the text begins. -/
inductive Found : Text → Except Fault (Lexeme × Nat) → Prop
  | sourceEnd : Found [] (.ok (.sourceEnd, 0))
  | lineEnd {rest : Text} : Found ('\n' :: rest) (.ok (.lineEnd, 1))
  | number {c : Char} {rest : Text} {value : Nat} : Text.isDigit c = true →
      Numeral.natural ((c :: rest).takeWhile Text.isDigit) = .ok value →
      Found (c :: rest) (.ok (.number value, ((c :: rest).takeWhile Text.isDigit).length))
  | numeral {c : Char} {rest : Text} {fault : Numeral.Fault} : Text.isDigit c = true →
      Numeral.natural ((c :: rest).takeWhile Text.isDigit) = .error fault →
      Found (c :: rest) (.error (.numeral fault))
  | string {rest after : Text} : rest.drop (rest.takeWhile inString).length = '"' :: after →
      Found ('"' :: rest)
        (.ok (.string (rest.takeWhile inString), (rest.takeWhile inString).length + 2))
  | unterminated {rest : Text} : Found ('"' :: rest) (.error .unterminatedString)
  | symbol {c : Char} {rest : Text} {sign : Symbol} : Symbol.read? (c :: rest) = some sign →
      Found (c :: rest) (.ok (.symbol sign, sign.spelling.length))
  | separator {c : Char} {rest : Text} : c = ',' ∨ c = ';' →
      Found (c :: rest) (.ok (.separator c, 1))
  | keyword {c : Char} {rest : Text} {word : Keyword} : c.isAlpha = true →
      Keyword.read? (c :: rest) = some word →
      Found (c :: rest) (.ok (.keyword word, word.spelling.length))
  | letter {c : Char} {rest : Text} : c.isAlpha = true → Keyword.read? (c :: rest) = none →
      Found (c :: rest) (.ok (.letter c, 1))
  | unexpected {c : Char} {rest : Text} : c ≠ '\n' →
      Found (c :: rest) (.error (.unexpectedCharacter c))

theorem found_read (text : Text) : Found text (read text) := by
  cases text with
  | nil => exact .sourceEnd
  | cons c rest =>
      rw [read]
      split
      · rename_i hnewline
        subst hnewline
        exact .lineEnd
      rename_i hnewline
      split
      · rename_i hdigit
        simp only [readNumber]
        split
        · rename_i value hvalue
          exact .number hdigit hvalue
        · rename_i fault hfault
          exact .numeral hdigit hfault
      split
      · rename_i hquote
        subst hquote
        simp only [readString]
        split
        · rename_i after hclosed
          exact .string hclosed
        · exact .unterminated
      split
      · rename_i sign hsign
        exact .symbol hsign
      split
      · rename_i hmark
        exact .separator (by simpa using hmark)
      split
      · rename_i halpha
        unfold readWord
        cases hword : Keyword.read? (c :: rest) with
        | some word => exact .keyword halpha hword
        | none => exact .letter halpha hword
      · exact .unexpected hnewline

theorem found_of_read {text : Text} {result : Except Fault (Lexeme × Nat)}
    (h : read text = result) : Found text result := h ▸ found_read text

/-- Only the end of the source takes no character. -/
theorem read_length {text : Text} {lexeme : Lexeme} {length : Nat}
    (h : read text = .ok (lexeme, length)) :
    (text = [] ∧ lexeme = .sourceEnd ∧ length = 0) ∨ (0 < length ∧ lexeme ≠ .sourceEnd) := by
  cases found_of_read h with
  | sourceEnd => simp
  | lineEnd | string | separator | letter => simp
  | number hdigit _ => simp [hdigit]
  | symbol => rename_i sign _; cases sign <;> simp [Symbol.spelling]
  | keyword => rename_i word _ _; cases word <;> simp [Keyword.spelling]

end Lexeme

end LineBasic
