import LineBasic.LineIndex
import LineBasic.Output
import LineBasic.Reports
import LineBasic.Word

/-!
# The machine

A machine executes a program straight off its text: all it knows of where it
is, is the cursor. Its actions may fault, and a fault leaves the state as far
as the action had come. This module holds the state and the actions the
statements are made of.
-/
namespace LineBasic

structure Machine where
  listing : Listing
  store : Store
  size : WordSize
  output : Output
  reports : Reports
  started : Bool
  finished : Bool

abbrev Run (α : Type) := EStateM Fault Machine α

namespace Machine

def cursor (m : Machine) : Cursor := m.listing.cursor

def index (m : Machine) : LineIndex := m.listing.index

/-- A cursor at the start of a text. A text without a first token is recorded and shown. -/
def openSheet (sheet : Sheet) : EStateM Fault Reports Cursor := do
  match Cursor.start sheet with
  | .ok cursor => pure cursor
  | .error fault => do
      Reports.noteScan fault
      Reports.reportScan fault
      throw fault

/-- A machine at the start of a text, every register zero. -/
def load (sheet : Sheet) (size : WordSize) (output : Output) (reports : Reports) :
    Except (Fault × Reports) Machine :=
  match openSheet sheet reports with
  | .ok cursor reports =>
      .ok ⟨⟨cursor, .empty⟩, .zero, size, output, reports, false, false⟩
  | .error fault reports => .error (fault, reports)

def onReports {α : Type} (action : EStateM Fault Reports α) : Run α := fun m =>
  match action m.reports with
  | .ok a reports => .ok a { m with reports := reports }
  | .error fault reports => .error fault { m with reports := reports }

/-- An action of the listing. A failure to scan is recorded. -/
def onListing {α : Type} (action : EStateM Fault Listing α) : Run α := fun m =>
  match action m.listing with
  | .ok a listing => .ok a { m with listing := listing }
  | .error fault listing =>
      (do onReports (Reports.noteScan fault); throw fault : Run α) { m with listing := listing }

def onCursor {α : Type} (action : EStateM Fault Cursor α) : Run α :=
  onListing (Listing.onCursor action)

def write (piece : Text) : Run Unit := fun m =>
  match Output.write piece m.output with
  | .ok _ output => .ok () { m with output := output }
  | .error fault output => .error fault { m with output := output }

def note (event : Event) : Run Unit := onReports (Reports.note event)

/-- Show an error and raise it, pointing at the current token. -/
def failHere {α : Type} (cause : Cause) : Run α := do
  onReports (Reports.fail ⟨cause, some (← get).cursor.token.mark, none⟩)

/-- Show an error that concerns a line number and raise it. -/
def failLine {α : Type} (number : Int) (cause : Int → Cause) : Run α := do
  if Numeral.writable number then onReports (Reports.fail ⟨cause number, none, none⟩)
  else throw .unwritable

def lexeme : Run Lexeme := do return (← get).cursor.token.lexeme

def next : Run Unit := onCursor Cursor.next

def skipLine : Run Unit := onCursor Cursor.skipLine

def lineNumber? (atEnd : Bool) : Run (Option Nat) := do return (← get).cursor.lineNumber? atEnd

def moves : Run Nat := do return (← get).listing.moves

/-- Move past a token of the expected kind. -/
def accept (expected : Kind) : Run Unit := do
  let found := (← lexeme).kind
  if found = expected then next else failHere (.unexpectedToken found expected)

def register (name : Text) : Run Int := do lift .refused ((← get).store.read name)

def assign (name : Text) (value : Int) : Run Unit := do
  let store ← lift .refused ((← get).store.assign name value)
  modify fun m => { m with store := store }

def buildIndex : Run Unit := do
  note .indexing
  onListing Listing.build
  note (.indexed (← get).index.numbers)

end Machine

end LineBasic
