import LineBasic.Fault

/-!
# The cursor

A cursor stands on one token of a text and keeps the number and the start of
the line it believes to be on. It can move to the next token, past the rest of
the line, or back to the start. A move first settles the line and then reads
the token; when no token can be read the new line stays and so does the old
token.
-/
namespace LineBasic

/-- A program text with the name it is reported under. -/
structure Sheet where
  text : Text
  name : Text
  deriving DecidableEq

/-- A line's number, from one, and the offset of its first character. -/
structure Origin where
  line : Nat
  start : Nat
  deriving DecidableEq

def Origin.first : Origin := ⟨1, 0⟩

structure Cursor where
  sheet : Sheet
  origin : Origin
  token : Token
  deriving DecidableEq

namespace Sheet

/-- The line that starts at an offset, without its end and the carriage returns before it. -/
def lineAt (sheet : Sheet) (start : Nat) : Text :=
  Text.trimEnd (· == '\r') ((sheet.text.drop start).takeWhile (· != '\n'))

def errorAt (sheet : Sheet) (origin : Origin) (mark : Mark) (cause : ScanCause) : Error where
  cause := .scan cause sheet.name
  mark := some mark
  line := some (sheet.lineAt origin.start)

def column (origin : Origin) (pos : Int) : Int := pos - origin.start + 1

def errorAtOffset (sheet : Sheet) (origin : Origin) (pos : Int) (cause : ScanCause) : Error :=
  sheet.errorAt origin (.place origin.line (column origin pos) pos) cause

/-- The token that is found from an offset on, taken to be on a given line. -/
def tokenAt (sheet : Sheet) (origin : Origin) (pos : Nat) : Except Fault Token :=
  let rest := sheet.text.drop pos
  let start := pos + (rest.takeWhile Text.isGap).length
  match Lexeme.read (rest.dropWhile Text.isGap) with
  | .ok (lexeme, length) =>
      .ok ⟨lexeme, origin.line, column origin start, start, start + length⟩
  | .error .unterminatedString =>
      .error (.error (sheet.errorAtOffset origin start .unterminatedString))
  | .error (.unexpectedCharacter c) =>
      .error (.error (sheet.errorAtOffset origin start (.unexpectedCharacter c)))
  | .error (.numeral fault) => .error (.numeral fault)

/-- The offset of the first line end from an offset on. -/
def lineEnd? (sheet : Sheet) (pos : Nat) : Option Nat :=
  let rest := sheet.text.drop pos
  match rest.dropWhile (· != '\n') with
  | [] => none
  | _ :: _ => some (pos + (rest.takeWhile (· != '\n')).length)

end Sheet

namespace Cursor

def start (sheet : Sheet) : Except Fault Cursor :=
  (sheet.tokenAt .first 0).map fun token => ⟨sheet, .first, token⟩

/-- Take a line to be the current one and read the token found from an offset on. -/
def moveTo (origin : Origin) (pos : Nat) : EStateM Fault Cursor Unit := fun c =>
  match c.sheet.tokenAt origin pos with
  | .ok token => .ok () { c with origin := origin, token := token }
  | .error fault => .error fault { c with origin := origin }

def reset : EStateM Fault Cursor Unit := moveTo .first 0

/-- The token after the current one. The end of the source is never left. -/
def next : EStateM Fault Cursor Unit := do
  let c ← get
  match c.token.lexeme with
  | .sourceEnd => pure ()
  | .lineEnd => moveTo ⟨c.origin.line + 1, c.token.stop⟩ c.token.stop
  | _ => moveTo c.origin c.token.stop

/-- The first token after the next line end, seen from where the current token starts. -/
def skipLine : EStateM Fault Cursor Unit := do
  let c ← get
  match c.token.lexeme with
  | .sourceEnd => pure ()
  | _ =>
      match c.sheet.lineEnd? c.token.start with
      | some stop => moveTo ⟨c.origin.line + 1, stop + 1⟩ (stop + 1)
      | none => moveTo c.origin c.sheet.text.length

def kind (c : Cursor) : Kind := c.token.kind

def finished (c : Cursor) : Bool := c.kind == .sourceEnd

/-- The character right after the current token. -/
def peek? (c : Cursor) : Option Char := c.sheet.text[c.token.stop]?

/-- The line the cursor believes to be on. -/
def line (c : Cursor) : Text := c.sheet.lineAt c.origin.start

def fail {α : Type} (cause : ScanCause) : EStateM Fault Cursor α := do
  let c ← get
  throw (.error (c.sheet.errorAt c.origin c.token.mark cause))

def failAt {α : Type} (pos : Int) (cause : ScanCause) : EStateM Fault Cursor α := do
  let c ← get
  throw (.error (c.sheet.errorAtOffset c.origin pos cause))

def number : EStateM Fault Cursor Nat := do
  let c ← get
  match c.token.lexeme with
  | .number value => pure value
  | lexeme => fail (.expectedNumber lexeme.kind)

def string : EStateM Fault Cursor Text := do
  let c ← get
  match c.token.lexeme with
  | .string body => pure body
  | lexeme => fail (.expectedString lexeme.kind)

/-- The number or letter the cursor is on. -/
def data : EStateM Fault Cursor Payload := do
  let c ← get
  match c.token.lexeme with
  | .number value => pure (.number value)
  | .letter name => pure (.text [name])
  | lexeme => fail (.noData lexeme.kind)

/-- The cursor's places from here to the end of the source, within a number of
moves, and the fault that stops it short. -/
def placesWithin : Nat → Cursor → List Cursor × Option Fault
  | 0, c => ([c], none)
  | moves + 1, c =>
      if c.finished then ([c], none)
      else match next c with
        | .ok _ after =>
            let (places, fault) := placesWithin moves after
            (c :: places, fault)
        | .error fault _ => ([c], some fault)

/-- Every token takes a character, so the length of the text bounds the moves. -/
def places (c : Cursor) : List Cursor × Option Fault := placesWithin c.sheet.text.length c

/-- Whether a number reads as a line number: a positive multiple of ten. -/
def isLineNumber (value : Nat) : Bool := 10 ≤ value && value % 10 == 0

/-- Whether a character may stand right after a line number. -/
def mayFollow (c : Char) : Bool := c == ' ' || c == '\n' || c == '\r'

/-- Whether a line number may end where the current token ends. The end of the
source is such a place only if `atEnd`. -/
def closes (c : Cursor) (atEnd : Bool) : Bool :=
  match c.peek? with
  | some follower => mayFollow follower
  | none => atEnd

def lineNumber? (c : Cursor) (atEnd : Bool) : Option Nat :=
  match c.token.lexeme with
  | .number value => if isLineNumber value && c.closes atEnd then some value else none
  | _ => none

end Cursor

end LineBasic
