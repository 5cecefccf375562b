import LineBasic.Machine.Step

/-!
# The fate of a program

A program is loaded and run, some steps at a time. It comes to its end or to a
fault, and one that goes on for longer than it may has stalled. All that
outlives it is what it has written, shown and recorded.

An interrupt may strike at any time before the end: while the program is
loaded, or anywhere in a step. It leaves what was there before the step and
some of what the step puts out. How much of the writing has been done when so
much has been shown or recorded is not covered: each is cut on its own, so
that more is allowed for than can happen.
-/
namespace LineBasic

/-- What outlives a program. -/
structure Remains where
  output : Output
  notices : Array Notice := #[]
  trace : Array Event := #[]

/-- How a program ends. Without a fault it has come to its end. -/
structure Fate extends Remains where
  fault : Option Fault

/-- Where an interrupt strikes: in which step, with zero for loading, and after how much of
what this step puts out. -/
structure Strike where
  step : Nat
  pieces : Nat := 0
  notices : Nat := 0
  events : Nat := 0

/-- What is left of a step that would have come from one state to another. -/
def Strike.cut (strike : Strike) (before after : Remains) : Remains where
  output := { before.output with
    pieces := after.output.pieces.take (before.output.pieces.size + strike.pieces) }
  notices := after.notices.take (before.notices.size + strike.notices)
  trace := after.trace.take (before.trace.size + strike.events)

namespace Machine

def remains (m : Machine) : Remains := ⟨m.output, m.reports.notices, m.reports.trace⟩

def fateOf : EStateM.Result Fault Machine Unit → Fate
  | .ok _ m => ⟨m.remains, none⟩
  | .error fault m => ⟨m.remains, some fault⟩

/-- A machine whose run has begun, or the fate of a program that cannot be loaded. -/
def launch (sheet : Sheet) (size : WordSize) (output : Output) : Except Fate Machine :=
  match load sheet size output {} with
  | .error (fault, reports) => .error ⟨⟨output, reports.notices, reports.trace⟩, some fault⟩
  | .ok m =>
      match beginRun m with
      | .ok _ m => .ok m
      | .error fault m => .error (fateOf (.error fault m))

/-- Some steps of a run: the machine if there is more to do, or else its fate. -/
def advance (count : Nat) (m : Machine) : Except Fate Machine :=
  match steps count m with
  | .ok true m => .ok m
  | .ok false m => .error (fateOf (endRun m))
  | .error fault m => .error (fateOf (.error fault m))

def progress (count : Nat) (sheet : Sheet) (size : WordSize) (output : Output) :
    Except Fate Machine :=
  match launch sheet size output with
  | .ok m => advance count m
  | .error fate => .error fate

/-- The fate of a program that is left alone, within a number of steps. -/
def fate (bound : Nat) (sheet : Sheet) (size : WordSize) (output : Output) : Fate :=
  match progress bound sheet size output with
  | .ok m => fateOf (.error .stalled m)
  | .error fate => fate

/-- What is there when a program comes to a step, if it does. -/
def reached (step : Nat) (sheet : Sheet) (size : WordSize) (output : Output) : Option Remains :=
  match step with
  | 0 => some { output := output }
  | count + 1 =>
      match progress count sheet size output with
      | .ok m => some m.remains
      | .error _ => none

/-- The fate of a program that may be interrupted. An interrupt after its end changes
nothing. -/
def fateUnder (bound : Nat) (strike : Option Strike) (sheet : Sheet) (size : WordSize)
    (output : Output) : Fate :=
  match strike with
  | none => fate bound sheet size output
  | some strike =>
      match reached strike.step sheet size output with
      | none => fate bound sheet size output
      | some before =>
          ⟨strike.cut before (fate strike.step sheet size output).toRemains, some .interrupted⟩

theorem steps_add (count more : Nat) (m : Machine) :
    steps (count + more) m = match steps count m with
      | .ok true m => steps more m
      | result => result := by
  induction count generalizing m with
  | zero => rw [Nat.zero_add]; rfl
  | succ count ih =>
      have hnext : ∀ left, steps (left + 1) m =
          (do if ← step then steps left else pure false : Run Bool) m := fun _ => rfl
      rw [Nat.succ_add, hnext, hnext]
      simp only [bind, EStateM.bind]
      cases step m with
      | error => rfl
      | ok goesOn m =>
          cases goesOn with
          | false => rfl
          | true => exact ih m

/-- A run may be made in parts. -/
theorem advance_add (count more : Nat) (m : Machine) :
    advance (count + more) m = match advance count m with
      | .ok m => advance more m
      | .error fate => .error fate := by
  simp only [advance, steps_add]
  cases steps count m with
  | error => rfl
  | ok goesOn m => cases goesOn <;> rfl

end Machine

end LineBasic
