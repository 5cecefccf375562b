import LineBasic.Machine.Statement

/-!
# Running a program

A step executes one line: empty lines are passed over, a leading number is
read as the line's own, and one statement follows. The first step builds the
line index. A run is a sequence of steps up to one that finishes or faults;
since a program may loop, it is bounded by a number of steps.
-/
namespace LineBasic.Machine

def passEmptyLine (_ : Unit) : Run (Round Unit Unit) := do
  match ← lexeme with
  | .lineEnd => do
      next
      pure (.again ())
  | _ => pure (.done ())

def skipEmptyLines : Run Unit := do iterate passEmptyLine (← moves) ()

/-- Execute one line, given how to evaluate expressions. -/
def lineStatementWith (evaluate : Run Int) : Run Unit := do
  skipEmptyLines
  match ← lexeme with
  | .sourceEnd => modify fun m => { m with finished := true }
  | .number value => do
      note (.lineReached value)
      next
      statementWith evaluate
  | _ => statementWith evaluate

/-- A step once there is an index. -/
def stepStartedWith (evaluate : Run Int) : Run Bool := do
  if (← get).finished then return false
  if (← get).cursor.finished then
    modify fun m => { m with finished := true }
    return false
  lineStatementWith evaluate
  return !(← get).finished

/-- What a step does, before its failures to scan are shown. -/
def stepBodyWith (evaluate : Run Int) : Run Bool := do
  if !(← get).started then
    buildIndex
    modify fun m => { m with started := true }
  stepStartedWith evaluate

def stepWith (evaluate : Run Int) : Run Bool := fun m =>
  match stepBodyWith evaluate m with
  | .ok more m => .ok more m
  | .error fault m =>
      (do onReports (Reports.reportScan fault); throw fault : Run Bool) m

def lineStatement : Run Unit := lineStatementWith expression

def stepStarted : Run Bool := stepStartedWith expression

def stepBody : Run Bool := stepBodyWith expression

/-- Execute one line and tell whether there is more to do. -/
def step : Run Bool := stepWith expression

/-- At most a number of steps; tells whether there is more to do. -/
def steps : Nat → Run Bool
  | 0 => pure true
  | count + 1 => do
      if ← step then steps count else pure false

def beginRun : Run Unit := note .runStarted

def endRun : Run Unit := note .runEnded

/-- Run to the end, within a number of steps. -/
def run (bound : Nat) : Run Unit := do
  beginRun
  if ← steps bound then throw .stalled
  endRun

end LineBasic.Machine
