import LineBasic.Trace

/-!
# Reports

What a run tells its user and its log. Notices are shown: a warning is counted
and the run goes on, an error is counted and then raised. Events go to the
trace. With tracing off events are neither worded nor kept, and so never stop
a run.
-/
namespace LineBasic

/-- One thing shown to the user. -/
inductive Notice where
  | warning (message : String)
  | error (error : Error)
  deriving DecidableEq

namespace Notice

def text : Notice → String
  | warning message => "WARNING: " ++ message
  | error e => "ERROR: " ++ e.text

def colour : Notice → String
  | warning _ => "yellow"
  | error _ => "red"

end Notice

structure Reports where
  tracing : Bool := true
  notices : Array Notice := #[]
  warnings : Nat := 0
  errors : Nat := 0
  trace : Array Event := #[]

namespace Reports

def note (event : Event) : EStateM Fault Reports Unit := fun r =>
  if r.tracing then
    if event.writable then .ok () { r with trace := r.trace.push event }
    else .error .unwritable r
  else .ok () r

def warn (message : String) : EStateM Fault Reports Unit := do
  modify fun r => { r with warnings := r.warnings + 1 }
  note (.warned (← get).warnings message)
  modify fun r => { r with notices := r.notices.push (.warning message) }

def report (error : Error) : EStateM Fault Reports Unit :=
  modify fun r => { r with errors := r.errors + 1, notices := r.notices.push (.error error) }

def fail {α : Type} (error : Error) : EStateM Fault Reports α := do
  report error
  throw (.error error)

/-- Record the place of a fault, if it is one of scanning. -/
def noteScan (fault : Fault) : EStateM Fault Reports Unit :=
  match fault with
  | .error ⟨.scan cause file, some mark, _⟩ => note (.scanFailed file mark.line mark.column cause)
  | _ => pure ()

/-- Show a fault if it is an error of scanning; the other errors have been shown when raised. -/
def reportScan (fault : Fault) : EStateM Fault Reports Unit :=
  match fault with
  | .error error => if error.errorClass = .lexical then report error else pure ()
  | _ => pure ()

end Reports

end LineBasic
