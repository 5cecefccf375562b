import LineBasic.Console

/-!
# The program

The outer layer: it reads the arguments, the environment, the program file and
what is typed, and prints what the library answers. Programs are run a number
of steps at a time, so that their output appears as they go. An interrupt from
the keyboard ends the process as the system does it.
-/
namespace LineBasic.Main

/-- The streams a command prints on and the log it keeps. -/
structure Streams where
  out : IO.FS.Stream
  err : IO.FS.Stream
  book : LogBook
  log : Option IO.FS.Handle

def Streams.print (streams : Streams) (output : Output)
    (errors : Array CommandLine.Complaint) (trace : Array Event) : IO Unit := do
  streams.out.putStr (String.ofList output.text)
  streams.out.flush
  streams.err.putStr (Console.complaints errors)
  let lines := streams.book.lines (trace.toList.map Event.record)
  streams.err.putStr lines
  streams.err.flush
  if let some log := streams.log then log.putStr lines

/-- Print what a machine has put out, and leave it with nothing to print. -/
def Streams.flushMachine (streams : Streams) (m : Machine) : IO Machine := do
  streams.print m.output (m.reports.notices.map .notice) m.reports.trace
  return { m with
    output := { m.output with pieces := #[] }
    reports := { m.reports with notices := #[], trace := #[] } }

/-- Print what an editor has put out, and leave it with nothing to print. -/
def Streams.flushEditor (streams : Streams) (e : Editor) : IO Editor := do
  streams.print e.output (e.notices.map .notice) e.trace
  return { e with output := { e.output with pieces := #[] }, notices := #[], trace := #[] }

/-- End with a status, or with the message of a failure. -/
def Streams.close (streams : Streams) (outcome : CommandLine.Outcome) : IO UInt32 := do
  streams.print outcome.output outcome.errors outcome.trace
  match outcome.ending with
  | .exit status => return status.toUInt32
  | .escaped escape => do
      streams.err.putStrLn escape.message
      return 1

/-- The steps between two flushes. -/
def slice : Nat := 256

partial def Streams.drive (streams : Streams) (m : Machine) : IO Fate := do
  match Machine.advance slice m with
  | .ok m => streams.drive (← streams.flushMachine m)
  | .error fate => return fate

def Streams.run (streams : Streams) (sheet : Sheet) (size : WordSize) : IO Fate := do
  match Machine.launch sheet size {} with
  | .ok m => streams.drive m
  | .error fate => return fate

def readInput : IO Input := do
  let line ← (← IO.getStdin).getLine
  if line.isEmpty then return .ended
  else return .typed (Text.trimEnd (· == '\n') line.toList)

partial def Streams.converse (streams : Streams) (e : Editor) :
    IO (EStateM.Result Fault Editor Unit) := do
  match Editor.prompt e with
  | .error fault e => return .error fault e
  | .ok _ e => do
      let e ← streams.flushEditor e
      let result ← match Editor.reply (← readInput) e with
        | .answered result => pure result
        | .runs _ => do pure (Editor.conclude (← streams.run e.sheet e.size) e)
      match result with
      | .ok true e => streams.converse (← streams.flushEditor e)
      | .ok false e => return .ok () e
      | .error fault e => return .error fault e

/-- What the system says of a file that cannot be read. -/
def faultOf : IO.Error → Folder.Fault
  | .permissionDenied .. => .denied
  | .inappropriateType _ code _ => if code = 20 then .notFolder else .isFolder
  | .invalidArgument _ code _ => if code = 36 then .nameTooLong else .nul
  | _ => .missing

def readProgram (path : Text) : IO (Except Folder.Fault Source.Bytes) := do
  try
    let bytes ← IO.FS.readBinFile (String.ofList (Path.ofText path).text)
    return .ok bytes.toList
  catch error => return .error (faultOf error)

def Streams.carryOut (streams : Streams) (size : WordSize) :
    CommandLine.Task → IO CommandLine.Outcome
  | .file path => do
      match CommandLine.openFile path (← readProgram path) {} with
      | .error outcome => return outcome
      | .ok sheet => return CommandLine.endOfFate (← streams.run sheet size)
  | .session => do
      match Editor.greet (CommandLine.openEditor size Console.render {}) with
      | .error fault e => return CommandLine.endOfSession (.error fault e)
      | .ok _ e => return CommandLine.endOfSession (← streams.converse e)

def environment : IO Environment := do
  let mut found := []
  for name in Choices.variableNames do
    if let some value ← IO.getEnv (String.ofList name) then
      found := (name, value.toList) :: found
  return found

end LineBasic.Main

open LineBasic Main in
def main (arguments : List String) : IO UInt32 := do
  let streams : Streams := ⟨← IO.getStdout, ← IO.getStderr, ⟨.warning, none⟩, none⟩
  match CommandLine.plan (arguments.map String.toList) (← environment) {} with
  | .error outcome => streams.close outcome
  | .ok (settings, task) => do
      let log ← (LogBook.fileName? settings).mapM fun name =>
        IO.FS.Handle.mk (String.ofList name) .write
      let streams := { streams with book := ⟨settings.level, none⟩, log := log }
      streams.close (← streams.carryOut settings.size task)
