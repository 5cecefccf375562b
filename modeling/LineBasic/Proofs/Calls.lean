import LineBasic.Proofs.Lockstep.Statement
import LineBasic.Proofs.Numeral

/-!
# Calls of a step

A machine may be stepped again after a step that faulted. `called` is the machine
after a number of calls, whatever came of each of them, and `call` is what came of
one. Machines that are coupled without slack stay coupled through all calls.
-/
namespace LineBasic

namespace Lexeme

/-- A number that is read can be written. -/
theorem writable_of_read {t : Text} {value n : Nat} (h : read t = .ok (.number value, n)) :
    Numeral.writable value = true := by
  cases found_of_read h with
  | number _ hvalue => exact Numeral.writable_of_natural hvalue

end Lexeme

namespace Machine

theorem buildIndex_of_failed {m : Machine} {f : Fault} {surveyed : Listing}
    (hfail : Listing.build m.listing = .error f surveyed) :
    buildIndex m = .error f { m with
      listing := surveyed
      reports := (m.reports.noted .indexing).scanNoted f } := by
  unfold buildIndex
  rw [bind_of_ok (note_of_writable rfl m)]
  apply bind_of_error
  simp only [onListing, hfail, bind_apply, onReports, Reports.noteScan_apply]
  rfl

/-- A survey that fails fails the step, before anything is executed. -/
theorem step_of_failed {m : Machine} {f : Fault} {surveyed : Listing} (h : m.started = false)
    (hfail : Listing.build m.listing = .error f surveyed) :
    step m = .error f { m with
      listing := surveyed
      reports := ((m.reports.noted .indexing).scanNoted f).scanReported f } := by
  have hbody : stepBody m = .error f { m with
      listing := surveyed
      reports := (m.reports.noted .indexing).scanNoted f } := by
    rw [stepBody_apply, if_neg (by simp [h])]
    exact bind_of_error (buildIndex_of_failed hfail)
  rw [step_apply, hbody]

theorem buildIndex_of_build {m : Machine} {l : Listing}
    (hbuild : Listing.build m.listing = .ok () l)
    (hwritable : (Event.indexed l.index.numbers).writable = true) :
    buildIndex m = .ok () { m with
      listing := l
      reports := (m.reports.noted .indexing).noted (.indexed l.index.numbers) } := by
  unfold buildIndex
  rw [bind_of_ok (note_of_writable rfl m)]
  have hlisting : onListing Listing.build { m with reports := m.reports.noted .indexing } =
      .ok () { m with listing := l, reports := m.reports.noted .indexing } := by
    simp only [onListing, hbuild]
  rw [bind_of_ok hlisting]
  exact note_of_writable hwritable _

def begun (m : Machine) (l : Listing) : Machine :=
  { m with
    listing := l
    reports := (m.reports.noted .indexing).noted (.indexed l.index.numbers)
    started := true }

/-- After its survey the first step is one like the others. -/
theorem step_of_survey {m : Machine} {l : Listing} (h : m.started = false)
    (hbuild : Listing.build m.listing = .ok () l)
    (hwritable : (Event.indexed l.index.numbers).writable = true) :
    step m = step (m.begun l) := by
  have hbody : stepBody m = stepBody (m.begun l) := by
    have hstarted : (m.begun l).started = true := rfl
    rw [stepBody_apply, if_neg (by simp [h]), bind_of_ok (buildIndex_of_build hbuild hwritable),
      stepBody_apply, if_pos hstarted]
    rfl
  rw [step_apply, step_apply, hbody]

/-- The index of a text that can be read can be recorded. -/
theorem survey_of_readable {l : Listing} {first : Cursor}
    (hstart : Cursor.start l.cursor.sheet = .ok first)
    (hreadable : l.cursor.sheet.text.Readable) :
    ∃ index, Listing.build l = .ok () ⟨first, index⟩ ∧
      (∀ k, k ∈ index.numbers ↔ l.cursor.sheet.text.Numbers k) ∧
      (Event.indexed index.numbers).writable = true := by
  rcases Listing.build_outcome hstart with
    ⟨index, hbuild, -, hindex⟩ | ⟨f, surveyed, -, -, -, hnot⟩
  · refine ⟨index, hbuild, hindex, List.all_eq_true.2 fun k hk => ?_⟩
    obtain ⟨u, n, -, hr, -⟩ := (hindex k).1 hk
    exact Lexeme.writable_of_read hr
  · exact absurd hreadable hnot

/-- What comes of one step: whether there is more to do, or a fault. -/
def outcome (m : Machine) : Except Fault Bool :=
  match step m with
  | .ok more _ => .ok more
  | .error f _ => .error f

def stepped (m : Machine) : Machine :=
  match step m with
  | .ok _ after => after
  | .error _ after => after

def called (m : Machine) : Nat → Machine
  | 0 => m
  | count + 1 => (m.called count).stepped

/-- What comes of the call after a number of calls. -/
def call (m : Machine) (count : Nat) : Except Fault Bool := (m.called count).outcome

/-- Machines that take their first step together go together. -/
theorem called_of_step_eq {m n : Machine} (h : step m = step n) (count : Nat) :
    m.call count = n.call count ∧ m.called (count + 1) = n.called (count + 1) := by
  have hcalled : ∀ count, m.called (count + 1) = n.called (count + 1) := by
    intro count
    induction count with
    | zero => simp only [called, stepped, h]
    | succ count ih => exact congrArg stepped ih
  refine ⟨?_, hcalled count⟩
  cases count with
  | zero => simp only [call, called, outcome, h]
  | succ count => exact congrArg outcome (hcalled count)

/-- What every step preserves holds after any number of calls. -/
theorem called_induction {P : Machine → Prop} (hstep : ∀ m, P m → P m.stepped) {m : Machine}
    (h : P m) (count : Nat) : P (m.called count) := by
  induction count with
  | zero => exact h
  | succ count ih => exact hstep _ ih

end Machine

/-- The same answer, or faults that are related. -/
inductive SameOutcome (R : Fault → Fault → Prop) : Except Fault Bool → Except Fault Bool → Prop
  | ok (more : Bool) : SameOutcome R (.ok more) (.ok more)
  | error {f g : Fault} : R f g → SameOutcome R (.error f) (.error g)

variable {k : Coupling} {E : Cursor → Cursor → Prop} {m n : Machine}

theorem stepped_agree (hs : ¬ k.slack) (h : Paired k E m n) :
    SameOutcome Fault.Alike m.outcome n.outcome ∧ Paired k Anywhere m.stepped n.stepped := by
  have hstep := step_agree h
  unfold Machine.outcome Machine.stepped
  generalize Machine.step m = r at hstep ⊢
  generalize Machine.step n = s at hstep ⊢
  cases hstep with
  | @ok a b m' n' hpost =>
      obtain ⟨ha, hb, hp | ht⟩ := hpost
      · have hab : b = a := by rw [ha, hb, hp.finished]
        subst hab
        exact ⟨.ok b, hp⟩
      · exact absurd ht.slack hs
  | error hf hp => exact ⟨.error hf, hp⟩
  | lost hl => exact absurd hl hs

/-- Coupled machines stay together through all calls. -/
theorem called_agree (hs : ¬ k.slack) (h : Paired k Anywhere m n) (count : Nat) :
    Paired k Anywhere (m.called count) (n.called count) := by
  induction count with
  | zero => exact h
  | succ count ih => exact (stepped_agree hs ih).2

theorem call_agree (hs : ¬ k.slack) (h : Paired k Anywhere m n) (count : Nat) :
    SameOutcome Fault.Alike (m.call count) (n.call count) :=
  (stepped_agree hs (called_agree hs h count)).1

/-- Machines that are loaded at coupled cursors are coupled from their surveys on. -/
theorem begun_agree {c d : Cursor} (hrel : k.Rel c d) (hc : Cursor.start c.sheet = .ok c)
    (hd : Cursor.start d.sheet = .ok d) (size : WordSize) (output : Output) (reports : Reports) :
    ∃ m n, Machine.step (.fresh c size output reports) = Machine.step m ∧
      Machine.step (.fresh d size output reports) = Machine.step n ∧ Paired k Anywhere m n := by
  obtain ⟨index, hbuild, -, hwritable⟩ :=
    Machine.survey_of_readable (l := ⟨c, .empty⟩) hc (k.left hrel).whole
  obtain ⟨index', hbuild', -, hwritable'⟩ :=
    Machine.survey_of_readable (l := ⟨d, .empty⟩) hd (k.right hrel).whole
  obtain ⟨c', d', both, hboth, hboth', -⟩ :=
    k.build_agree (l := ⟨c, .empty⟩) (r := ⟨d, .empty⟩) hrel
  cases hbuild.symm.trans hboth
  cases hbuild'.symm.trans hboth'
  refine ⟨_, _, Machine.step_of_survey rfl hbuild hwritable,
    Machine.step_of_survey rfl hbuild' hwritable', hrel, trivial, rfl, rfl, rfl, rfl, ?_,
    ⟨rfl, rfl⟩, rfl⟩
  have hreports : reports.Alike reports := ⟨rfl, rfl, rfl, rfl, rfl⟩
  exact (hreports.noted _).noted _

end LineBasic
