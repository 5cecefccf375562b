import LineBasic.Command
import LineBasic.Machine.Fate
import LineBasic.Program

/-!
# The editor

An editor keeps a program, changes it line by line and runs it. It talks on a
console. At a terminal the console is the program's own output, and a prompt
is shown there before each line is read; otherwise the two are apart and no
prompt is shown. How a console lays out what it is given is left to it: an
editor comes with a function that does so.

An interrupt ends what is being done and the editor goes on. It may strike
anywhere in a run, at the prompt, and whenever the console is written to; then
the text is held back and goes out with the next. An interrupt of what is said
of an interrupt or at the end of the input ends the session.
-/
namespace LineBasic

/-- What a console is given to show. -/
inductive Saying where
  | line (text : String)
  | panel (title : String)
  | table (title : String) (columns : List String) (rows : List (List String))

structure Editor where
  size : WordSize
  terminal : Bool
  render : Saying → Text
  program : Program := .empty
  console : Output := {}
  held : Text := []
  output : Output := {}
  notices : Array Notice := #[]
  trace : Array Event := #[]

/-- What is read at the prompt. A run that a line asks for may be interrupted. -/
inductive Input where
  | line (text : Text) (strike : Option Strike)
  | interrupt
  | ended

/-- A line whose run, if it asks for one, is left alone. -/
def Input.typed (text : Text) : Input := .line text none

abbrev Edit (α : Type) := EStateM Fault Editor α

/-- An input is answered, or the program has to be run for the answer. -/
inductive Reply where
  | answered (result : EStateM.Result Fault Editor Bool)
  | runs (strike : Option Strike)

namespace Editor

/-- Write on the output the program writes on. -/
def onOutput (piece : Text) : Edit Unit := fun e =>
  match Output.write piece e.output with
  | .ok _ output => .ok () { e with output := output }
  | .error fault output => .error fault { e with output := output }

/-- Write on a console of the editor's own. -/
def onConsole (piece : Text) : Edit Unit := fun e =>
  match Output.write piece e.console with
  | .ok _ console => .ok () { e with console := console }
  | .error fault console => .error fault { e with console := console }

/-- Show something on the console, after what has been held back. -/
def say (saying : Saying) : Edit Unit := do
  let e ← get
  let piece := e.held ++ e.render saying
  modify fun e => { e with held := piece }
  if e.terminal then onOutput piece else onConsole piece
  modify fun e => { e with held := [] }

def sayThen (saying : Saying) (goesOn : Bool) : Edit Bool := do
  say saying
  pure goesOn

def ready : Saying := .line "Ready."

def noProgram : Saying := .line "No program in memory."

def editingNote : Saying :=
  .line "\nEnter numbered lines to add them; a bare line number deletes that line"

def commandTable : Saying := .table "Available Commands" ["Command", "Description"]
  [["RUN", "Execute the program"], ["LIST", "List all program lines"],
    ["NEW", "Clear current program"], ["QUIT", "Exit the interpreter"], ["HELP", "Show this help"]]

def greet : Edit Unit := do
  say (.panel "SUBARUU Interpreter")
  say (.line "Commands: RUN, LIST, NEW, HELP, QUIT")
  say ready

/-- After an interrupt the session goes on. -/
def resume : Edit Bool := sayThen (.line "\nInterrupted. Type QUIT to exit.") true

/-- An action whose interrupt does not end the session. -/
def guarded (action : Edit Bool) : Edit Bool := fun e =>
  match action e with
  | .error .interrupted e => resume e
  | result => result

def list (program : Program) : Edit Bool := do
  if program.isEmpty then say noProgram
  program.lines.forM fun line => say (.line (String.ofList (Program.listed line)))
  pure true

/-- Carry out a command and tell whether the session goes on. A run is one of no program. -/
def perform : Command → Edit Bool
  | .nothing => pure true
  | .enter number text typed => do
      modify fun e => { e with
        program := e.program.put number text
        trace := e.trace.push (.lineAdded typed) }
      pure true
  | .remove number => do
      modify fun e => { e with program := e.program.erase number }
      pure true
  | .quit => sayThen (.line "Goodbye!") false
  | .help => do
      say commandTable
      sayThen editingNote true
  | .run => sayThen noProgram true
  | .list => do list (← get).program
  | .new => do
      modify fun e => { e with program := .empty }
      sayThen (.line "Program cleared. Ready.") true
  | .unknown => sayThen (.line "Unknown command. Type HELP for available commands.") true

/-- The name the editor's program is reported under. -/
def sheetName : Text := "<input>".toList

def sheet (e : Editor) : Sheet := ⟨e.program.source, sheetName⟩

def fate (bound : Nat) (strike : Option Strike) (e : Editor) : Fate :=
  Machine.fateUnder bound strike e.sheet e.size e.output

/-- The editor with what a program has left. -/
def absorbed (e : Editor) (remains : Remains) : Editor :=
  { e with
    output := remains.output
    notices := e.notices ++ remains.notices
    trace := e.trace ++ remains.trace }

/-- The end of a run in the editor: errors have been shown, other faults go on. -/
def settle : Option Fault → Edit Unit
  | none | some (.error _) => pure ()
  | some fault => throw fault

/-- Answer the line that asked for a run. -/
def conclude (fate : Fate) : Edit Bool := guarded do
  modify (·.absorbed fate.toRemains)
  settle fate.fault
  sayThen ready true

/-- What there is to an input before a program is run. -/
def reply (input : Input) (e : Editor) : Reply :=
  match input with
  | .line text strike =>
      match Command.ofLine text, e.program.isEmpty with
      | .error fault, _ => .answered (.error (.numeral fault) e)
      | .ok .run, false => .runs strike
      | .ok command, _ => .answered (guarded (perform command) e)
  | .interrupt => .answered (resume e)
  | .ended => .answered (sayThen (.line "\nGoodbye!") false e)

/-- Answer what was read, and tell whether the session goes on. -/
def respond (bound : Nat) (input : Input) : Edit Bool := fun e =>
  match reply input e with
  | .answered result => result
  | .runs strike => conclude (e.fate bound strike) e

/-- Show the prompt. It may be interrupted as many times as given, and is shown again. -/
def promptWithin : Nat → Edit Unit
  | 0 => onOutput ['>', ' ']
  | left + 1 => do
      let again ← guarded do
        onOutput ['>', ' ']
        pure false
      if again then promptWithin left

def prompt : Edit Unit := do
  let e ← get
  if e.terminal then promptWithin e.output.alarms.length

/-- A session after the greeting. -/
def converse (bound : Nat) : List Input → Edit Unit
  | [] => do
      prompt
      let _ ← respond bound .ended
  | input :: rest => do
      prompt
      if ← respond bound input then converse bound rest

def session (bound : Nat) (inputs : List Input) : Edit Unit := do
  greet
  converse bound inputs

end Editor

end LineBasic
