import LineBasic.Arguments
import LineBasic.Editor
import LineBasic.LogBook

/-!
# The command line

A command reads its arguments, takes its settings from them and the
environment, sets up the log, and then runs the program file it is given or
starts the editor. It ends with an exit status, or with a failure that nothing
in it handles. What it says on the error stream is kept as it is given to the
console there, and how that is laid out is not covered.
-/
namespace LineBasic.CommandLine

/-- A failure that ends a command without a status. -/
inductive Escape where
  | fault (fault : Fault)
  | settings (refusal : Settings.Refusal)
  | decoding (fault : Source.Fault)
  | nulInPath
  | log (fault : Folder.Fault)

def Escape.message : Escape → String
  | fault f => f.message
  | settings refusal => refusal.message
  | decoding f => f.message
  | nulInPath => Folder.Fault.nul.message
  | log f => f.message

inductive Ending where
  | exit (status : Nat)
  | escaped (escape : Escape)

/-- One thing that is said on the error stream. -/
inductive Complaint where
  | notice (notice : Notice)
  | line (text : String)
  | usage (text : String)

/-- What a command has left behind when it ends. -/
structure Outcome where
  ending : Ending
  output : Output := {}
  errors : Array Complaint := #[]
  trace : Array Event := #[]

/-- The end of a program is one for an error, which has been shown, and 130 for an
interrupt. -/
def endingOf : Option Fault → Ending
  | none => .exit 0
  | some (.error _) => .exit 1
  | some .interrupted => .exit 130
  | some fault => .escaped (.fault fault)

def endOfFate (fate : Fate) : Outcome where
  ending := endingOf fate.fault
  output := fate.output
  errors := fate.notices.map .notice ++
    if fate.fault = some .interrupted then #[.line "\nInterrupted."] else #[]
  trace := fate.trace

def cannotRead (path : Text) (fault : Folder.Fault) : String :=
  "Cannot read " ++ String.ofList path ++ ": " ++ fault.message ++ ": " ++
    String.ofList (Path.ofText path).text.quoted

/-- The program in a file, given what reading it gave, or the end of the command. A file
that cannot be read ends it with two. -/
def openFile (path : Text) (contents : Except Folder.Fault Source.Bytes) (output : Output) :
    Except Outcome Sheet :=
  match contents with
  | .error .nul => .error { ending := .escaped .nulInPath, output := output }
  | .error fault =>
      .error { ending := .exit 2, output := output, errors := #[.line (cannotRead path fault)] }
  | .ok bytes =>
      match Source.load bytes with
      | .error fault => .error { ending := .escaped (.decoding fault), output := output }
      | .ok text => .ok ⟨text, path⟩

/-- Run a program file, given what reading it gave. The run may be interrupted. -/
def runFile (bound : Nat) (strike : Option Strike) (size : WordSize) (path : Text)
    (contents : Except Folder.Fault Source.Bytes) (output : Output) : Outcome :=
  match openFile path contents output with
  | .error outcome => outcome
  | .ok sheet => endOfFate (Machine.fateUnder bound strike sheet size output)

def openEditor (size : WordSize) (render : Saying → Text) (output : Output) : Editor :=
  { size := size, terminal := true, render := render, output := output }

def endOfSession : EStateM.Result Fault Editor Unit → Outcome
  | .ok _ e => ⟨.exit 0, e.output, e.notices.map .notice, e.trace⟩
  | .error fault e => ⟨.escaped (.fault fault), e.output, e.notices.map .notice, e.trace⟩

inductive Task where
  | file (path : Text)
  | session

/-- An empty path is none. -/
def Task.ofProgram : Option Text → Task
  | none | some [] => .session
  | some path => .file path

def printAndExit (text : String) (output : Output) : Outcome :=
  match Output.write text.toList output with
  | .ok _ output => { ending := .exit 0, output := output }
  | .error fault output => { ending := .escaped (.fault fault), output := output }

/-- The settings and the task of a command, or its end. -/
def plan (arguments : List Text) (environment : Environment) (output : Output) :
    Except Outcome (Settings × Task) :=
  match Arguments.parse arguments with
  | .help => .error (printAndExit Arguments.helpText output)
  | .misuse fault =>
      .error { ending := .exit 2, output := output, errors := #[.usage fault.text] }
  | .accepted accepted =>
      match Settings.ofEnvironment environment accepted.choices with
      | .error refusal => .error { ending := .escaped (.settings refusal), output := output }
      | .ok settings => .ok (settings, .ofProgram accepted.program)

structure Call where
  arguments : List Text
  environment : Environment
  folder : Folder
  inputs : List Input
  strike : Option Strike
  render : Saying → Text
  output : Output

/-- What a command gives back: its outcome, the log as it was set up, and the
folder with the log file in it. -/
structure Result where
  outcome : Outcome
  book : Option LogBook
  folder : Folder

/-- Do what a command is to do, its programs within a number of steps. -/
def carryOut (bound : Nat) (call : Call) (settings : Settings) (folder : Folder) : Task → Outcome
  | .file path =>
      runFile bound call.strike settings.size path (folder.read (.ofText path)) call.output
  | .session =>
      endOfSession (Editor.session bound call.inputs
        (openEditor settings.size call.render call.output))

def run (bound : Nat) (call : Call) : Result :=
  match plan call.arguments call.environment call.output with
  | .error outcome => ⟨outcome, none, call.folder⟩
  | .ok (settings, task) =>
      match LogBook.configure settings call.folder with
      | .error fault =>
          ⟨{ ending := .escaped (.log fault), output := call.output },
            some ⟨settings.level, none⟩, call.folder⟩
      | .ok (book, folder) =>
          let outcome := carryOut bound call settings folder task
          ⟨outcome, some book, book.write (outcome.trace.toList.map Event.record) folder⟩

end LineBasic.CommandLine
