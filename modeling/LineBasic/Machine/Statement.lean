import LineBasic.Machine.Expression

/-!
# Statements

One statement is executed from the token the cursor is on. A jump goes back to
the start of the text and looks for the first line that begins with the target
number, so a target must occur as a line number (`missingLine`) and begin a
line (`unreachableLine`).

Statements that hold expressions are given how to evaluate them.
-/
namespace LineBasic.Machine

/-- Pass a line that does not begin with the number, or end the search. -/
def seekLine (number : Int) (_ : Unit) : Run (Round Unit Bool) := do
  match ← lexeme with
  | .sourceEnd => pure (.done false)
  | .number value =>
      if (value : Int) = number then do
        next
        pure (.done true)
      else do
        skipLine
        pure (.again ())
  | _ => do
      skipLine
      pure (.again ())

/-- Move to what follows the number at the beginning of a line, looking from the cursor on. -/
def findLine (number : Int) : Run Bool := do iterate (seekLine number) (← moves) ()

def land (number : Int) : Run Unit := do
  if !(← findLine number) then failLine number .unreachableLine

/-- A jump once there is an index. -/
def jumpIndexed (number : Int) : Run Unit := fun m =>
  if m.index.has number then (do onCursor Cursor.reset; land number : Run Unit) m
  else failLine number .missingLine m

/-- Continue at the line with a number. An empty index is built first. -/
def jump (number : Int) : Run Unit := do
  if (← get).index.isEmpty then buildIndex
  jumpIndexed number

def gotoStatement : Run Unit := do
  accept (.keyword .GOTO)
  let target ← lexeme
  accept .number
  accept .lineEnd
  match target with
  | .number value => jump value
  | _ => pure ()

def passLineEnd : Run Unit := do
  if (← lexeme) = .lineEnd then next

/-- The target is read whether or not the jump is made. -/
def ifStatementWith (evaluate : Run Int) : Run Unit := do
  accept (.keyword .IF)
  let condition ← relationWith evaluate
  accept (.keyword .THEN)
  match ← lexeme with
  | .number target => do
      next
      if condition ≠ 0 then do
        note (.jumped target)
        jump target
      else passLineEnd
  | _ => failHere .expectedTarget

/-- The register is set before the assignment is recorded. -/
def assignToWith (evaluate : Run Int) (name : Text) : Run Unit := do
  next
  accept (.symbol .equal)
  let value ← evaluate
  assign name value
  note (.assigned name value)

def letStatementWith (evaluate : Run Int) : Run Unit := do
  match ← lexeme with
  | .letter letter => assignToWith evaluate (Text.lower [letter])
  | _ => failHere .expectedVariable

/-- A line of output in the making: what has been written of it, and whether
the next item is set off by a space. -/
structure PrintLine where
  written : Text
  joined : Bool

def PrintLine.put (line : PrintLine) (piece : Text) (joined : Bool) : Run PrintLine := do
  write piece
  return ⟨line.written ++ piece, joined⟩

/-- Set the next item off from the one before it. -/
def PrintLine.setOff (line : PrintLine) : Run PrintLine :=
  if line.joined then line.put [' '] true else pure line

def printValueWith (evaluate : Run Int) (line : PrintLine) :
    Run (Round PrintLine PrintLine) := do
  let line ← line.setOff
  let value ← evaluate
  if Numeral.writable value then return .again (← line.put (Numeral.decimal value) true)
  else throw .unwritable

/-- A string, a separator or an expression, or the end of the line. -/
def printItemWith (evaluate : Run Int) (line : PrintLine) : Run (Round PrintLine PrintLine) := do
  match ← lexeme with
  | .sourceEnd | .lineEnd => pure (.done line)
  | .string body => do
      let line ← line.setOff
      let line ← line.put body true
      next
      pure (.again line)
  | .separator _ => do
      let line ← line.put [' '] false
      next
      pure (.again line)
  | .letter _ | .number _ | .symbol .openParen => printValueWith evaluate line
  | other => do
      note (.printStopped other.kind)
      pure (.done line)

/-- A line number is no element: it is left for the next statement. -/
def printElementWith (evaluate : Run Int) (line : PrintLine) :
    Run (Round PrintLine PrintLine) := do
  if (← lineNumber? false).isSome then return .done line
  printItemWith evaluate line

/-- Pass the line end behind a line that has been printed, if it is there. -/
def endPrint : Run Unit := do
  if (← lineNumber? false).isNone then
    match ← lexeme with
    | .sourceEnd => modify fun m => { m with finished := true }
    | .lineEnd => next
    | _ => pure ()

/-- A line ends at the end of the text line, at the end of the source, or
before a line number. -/
def printStatementWith (evaluate : Run Int) : Run Unit := do
  accept (.keyword .PRINT)
  let line ← iterate (printElementWith evaluate) (← moves) ⟨[], false⟩
  write ['\n']
  note (.printed line.written)
  endPrint

def statementWith (evaluate : Run Int) : Run Unit := do
  match ← lexeme with
  | .keyword .REM => skipLine
  | .keyword .PRINT => printStatementWith evaluate
  | .keyword .IF => ifStatementWith evaluate
  | .keyword .GOTO => gotoStatement
  | .keyword .LET => do
      accept (.keyword .LET)
      letStatementWith evaluate
  | .letter _ => letStatementWith evaluate
  | other => do
      note (.unrecognized other.kind)
      failHere .unrecognizedStatement

def ifStatement : Run Unit := ifStatementWith expression

def assignTo : Text → Run Unit := assignToWith expression

def letStatement : Run Unit := letStatementWith expression

def printValue : PrintLine → Run (Round PrintLine PrintLine) := printValueWith expression

def printItem : PrintLine → Run (Round PrintLine PrintLine) := printItemWith expression

def printElement : PrintLine → Run (Round PrintLine PrintLine) := printElementWith expression

def printStatement : Run Unit := printStatementWith expression

def statement : Run Unit := statementWith expression

end LineBasic.Machine
