import LineBasic.Proofs.Effects.Statement

/-!
# Every error is shown once

A call that raises an error shows exactly this error, after all that it shows besides, and
no other call shows one. So the errors counted, the errors shown and the calls that raised
one are equally many, through any number of calls and whatever comes of them; and the
warnings counted, the warnings shown and the divisions by zero are equally many as well.

That it is so follows from the single effects of a step: only a division by zero warns, and
no effect shows an error.
-/
namespace LineBasic

namespace Notice

def zeroDivision : Notice := .warning "divide by zero"

def opens (opening : String) (n : Notice) : Bool := opening.toList.isPrefixOf n.text.toList

theorem opens_error (e : Error) :
    (error e).opens "ERROR: " = true ∧ (error e).opens "WARNING: " = false := by
  simp [opens, text, List.isPrefixOf]

theorem opens_zeroDivision :
    zeroDivision.opens "ERROR: " = false ∧ zeroDivision.opens "WARNING: " = true := by
  decide

end Notice

/-- The errors that a call raised: one or none. -/
def raisedBy : Except Fault Bool → List Error
  | .error (.error e) => [e]
  | _ => []

namespace Reports

/-- How many of the notices shown begin with a text. -/
def records (r : Reports) (opening : String) : Nat := r.notices.toList.countP (·.opens opening)

/-- How many divisions by zero the trace records. -/
def zeroDivisions (r : Reports) : Nat := r.trace.toList.count .dividedByZero

/-- Reports after a number of divisions by zero and nothing else of note. -/
structure Warned (zeros : Nat) (r s : Reports) : Prop where
  tracing : s.tracing = r.tracing
  notices : s.notices.toList = r.notices.toList ++ List.replicate zeros .zeroDivision
  warnings : s.warnings = r.warnings + zeros
  errors : s.errors = r.errors
  divisions : s.zeroDivisions = r.zeroDivisions + if r.tracing then zeros else 0

namespace Warned

variable {r s t : Reports}

theorem refl (r : Reports) : Warned 0 r r :=
  ⟨rfl, by simp, rfl, rfl, by simp⟩

theorem trans {i j : Nat} (h : Warned i r s) (h' : Warned j s t) : Warned (i + j) r t where
  tracing := h'.tracing.trans h.tracing
  notices := by
    rw [h'.notices, h.notices, List.append_assoc, List.replicate_append_replicate]
  warnings := by rw [h'.warnings, h.warnings, Nat.add_assoc]
  errors := h'.errors.trans h.errors
  divisions := by
    rw [h'.divisions, h.divisions, h.tracing]
    split <;> omega

theorem noted (r : Reports) {event : Event} (h : event.Plain) : Warned 0 r (r.noted event) := by
  have hevent : event ≠ .dividedByZero := by
    rintro rfl
    exact h
  unfold Reports.noted
  split
  · refine ⟨rfl, by simp, rfl, rfl, ?_⟩
    simp [zeroDivisions, List.count_append, hevent]
  · exact refl r

theorem scanNoted (r : Reports) (f : Fault) : Warned 0 r (r.scanNoted f) := by
  unfold Reports.scanNoted
  split
  · exact noted r trivial
  · exact refl r

end Warned

/-- Reports of a traced run in which a number of errors has been raised. -/
structure Balanced (raised : Nat) (r : Reports) : Prop where
  tracing : r.tracing = true
  errors : r.errors = raised
  errorRecords : r.records "ERROR: " = raised
  warnings : r.warnings = r.zeroDivisions
  warningRecords : r.records "WARNING: " = r.zeroDivisions

namespace Balanced

variable {raised zeros : Nat} {r s : Reports}

theorem empty : Balanced 0 {} := ⟨rfl, rfl, rfl, rfl, rfl⟩

theorem warned (h : Balanced raised r) (hw : Warned zeros r s) : Balanced raised s := by
  obtain ⟨herror, hwarning⟩ := Notice.opens_zeroDivision
  have hdivisions := hw.divisions
  rw [h.tracing, if_pos rfl] at hdivisions
  refine ⟨hw.tracing.trans h.tracing, hw.errors.trans h.errors, ?_, ?_, ?_⟩
  · have hrecords := h.errorRecords
    simpa [records, hw.notices, List.countP_append, List.countP_replicate, herror] using hrecords
  · rw [hw.warnings, hdivisions, h.warnings]
  · have hrecords := h.warningRecords
    rw [hdivisions, ← hrecords]
    simp [records, hw.notices, List.countP_append, List.countP_replicate, hwarning]

theorem reported (h : Balanced raised r) (e : Error) : Balanced (raised + 1) (r.reported e) := by
  obtain ⟨herror, hwarning⟩ := Notice.opens_error e
  refine ⟨h.tracing, congrArg (· + 1) h.errors, ?_, h.warnings, ?_⟩
  · simpa [records, Reports.reported, herror] using h.errorRecords
  · have hrecords := h.warningRecords
    have hsame : (r.reported e).zeroDivisions = r.zeroDivisions := rfl
    rw [hsame, ← hrecords]
    simp [records, Reports.reported, hwarning]

end Balanced

end Reports

namespace Machine

theorem warned_dividedByZero (m : Machine) :
    Reports.Warned 1 m.reports m.dividedByZero.reports := by
  obtain ⟨_, _, _, _, ⟨tracing, _, _, _, _⟩, _, _⟩ := m
  cases tracing <;> constructor <;>
    simp [dividedByZero, noted, Reports.noted, warned, Reports.zeroDivisions, Notice.zeroDivision]

/-- Only a division by zero warns, and nothing is shown besides. -/
theorem warned_of_effect {m n : Machine} (h : m.Effect n) :
    ∃ zeros, Reports.Warned zeros m.reports n.reports := by
  cases h with
  | noted hevent => exact ⟨0, .noted _ hevent⟩
  | divided => exact ⟨1, warned_dividedByZero m⟩
  | _ => exact ⟨0, .refl _⟩

theorem warned_of_effects {m n : Machine} (h : Effects m n) :
    ∃ zeros, Reports.Warned zeros m.reports n.reports := by
  induction h with
  | refl => exact ⟨0, .refl _⟩
  | tail _ heffect ih =>
      obtain ⟨zeros, hwarned⟩ := ih
      obtain ⟨more, hmore⟩ := warned_of_effect heffect
      exact ⟨zeros + more, hwarned.trans hmore⟩

/-- A step ends with showing the error it raises, if it raises one. -/
theorem shown_of_step (m : Machine) :
    ∃ zeros r, Reports.Warned zeros m.reports r ∧
      ((raisedBy m.outcome = [] ∧ m.stepped.reports = r) ∨
        ∃ e, raisedBy m.outcome = [e] ∧ m.stepped.reports = r.reported e) := by
  obtain ⟨n, heffects, hstepped⟩ := stepped_effects m
  obtain ⟨zeros, hwarned⟩ := warned_of_effects heffects
  refine ⟨zeros, n.reports, hwarned, ?_⟩
  rw [hstepped]
  cases m.outcome with
  | ok more => exact .inl ⟨rfl, rfl⟩
  | error f =>
      cases f with
      | error e => exact .inr ⟨e, rfl, rfl⟩
      | _ => exact .inl ⟨rfl, rfl⟩

/-- How many of the first calls raised an error. -/
def raised (m : Machine) (count : Nat) : Nat :=
  (List.range count).countP fun i => !(raisedBy (m.call i)).isEmpty

theorem raised_succ (m : Machine) (count : Nat) :
    m.raised (count + 1) = m.raised count + (raisedBy (m.call count)).length := by
  rw [raised, List.range_succ, List.countP_append, List.countP_singleton]
  unfold raisedBy
  split <;> rfl

/-- What the call after a number of calls shows: a warning for each division by zero, and
then the error that it raises. -/
def Displays (m : Machine) (count : Nat) : Prop :=
  ∃ zeros,
    (m.called (count + 1)).reports.zeroDivisions = (m.called count).reports.zeroDivisions + zeros ∧
    (m.called (count + 1)).reports.notices.toList = (m.called count).reports.notices.toList ++
      List.replicate zeros .zeroDivision ++ (raisedBy (m.call count)).map .error

theorem balanced_called {m : Machine} (h : m.reports.Balanced 0) (count : Nat) :
    (m.called count).reports.Balanced (m.raised count) := by
  induction count with
  | zero => exact h
  | succ count ih =>
      rw [raised_succ]
      obtain ⟨zeros, r, hwarned, ⟨hnone, hstep⟩ | ⟨e, hraised, hstep⟩⟩ :=
        shown_of_step (m.called count)
      · have hcall : raisedBy (m.call count) = [] := hnone
        rw [hcall, called, hstep]
        exact ih.warned hwarned
      · have hcall : raisedBy (m.call count) = [e] := hraised
        rw [hcall, called, hstep]
        exact (ih.warned hwarned).reported e

theorem displays_called {m : Machine} (h : m.reports.Balanced 0) (count : Nat) :
    m.Displays count := by
  have htracing := (balanced_called h count).tracing
  obtain ⟨zeros, r, hwarned, hstep⟩ := shown_of_step (m.called count)
  have hdivisions := hwarned.divisions
  rw [htracing, if_pos rfl] at hdivisions
  refine ⟨zeros, ?_⟩
  rw [← hdivisions, ← hwarned.notices, called]
  rcases hstep with ⟨hnone, hstep⟩ | ⟨e, hraised, hstep⟩
  · have hcall : raisedBy (m.call count) = [] := hnone
    rw [hcall, hstep]
    simp
  · have hcall : raisedBy (m.call count) = [e] := hraised
    rw [hcall, hstep]
    exact ⟨rfl, by simp [Reports.reported]⟩

/-- The account that is kept of a loading and of the calls after it. -/
inductive Accounts : Except (Fault × Reports) Machine → Prop
  | failed {f : Fault} {r : Reports} :
      r.notices.toList = (raisedBy (.error f)).map .error →
      r.Balanced (raisedBy (.error f)).length → Accounts (.error (f, r))
  | loaded {m : Machine} : (∀ count, m.Displays count) →
      (∀ count, (m.called count).reports.Balanced (m.raised count)) → Accounts (.ok m)

/-- A first token that cannot be read is shown if it is an error, and nothing else is. -/
theorem accounts_of_fault {sheet : Sheet} {f : Fault} (h : Cursor.start sheet = .error f)
    (size : WordSize) (output : Output) : Accounts (load sheet size output {}) := by
  have hunshown := Cursor.unshown_of_start h
  have hnoted := Reports.Warned.scanNoted {} f
  have hbalanced := Reports.Balanced.empty.warned hnoted
  have hnotices := hnoted.notices
  rw [load_of_fault h]
  cases f with
  | error e =>
      have hlexical : e.errorClass = .lexical := hunshown
      simp only [Reports.scanReported, hlexical, if_true]
      refine .failed ?_ (hbalanced.reported e)
      simp only [Reports.reported, Array.toList_push, hnotices]
      rfl
  | _ => exact .failed hnotices hbalanced

/-- A division is recorded as one by zero exactly if it is one. -/
theorem zeroDivisions_divide (numerator denominator : Int) (m : Machine) :
    ∃ value n, divide numerator denominator m = .ok value n ∧
      n.reports.zeroDivisions = m.reports.zeroDivisions +
        if denominator = 0 ∧ m.reports.tracing = true then 1 else 0 := by
  by_cases hzero : denominator = 0
  · subst hzero
    refine ⟨0, _, divide_zero numerator m, ?_⟩
    rw [(warned_dividedByZero m).divisions]
    simp
  · exact ⟨_, m, divide_nonzero hzero numerator m, by simp [hzero]⟩

/-- Every error is shown exactly once, by the call that raises it and last of all; every
warning is one of a division by zero. -/
theorem accounts_load (sheet : Sheet) (size : WordSize) (output : Output) :
    Accounts (load sheet size output {}) ∧
      ∀ numerator denominator m, ∃ value n, divide numerator denominator m = .ok value n ∧
        n.reports.zeroDivisions = m.reports.zeroDivisions +
          if denominator = 0 ∧ m.reports.tracing = true then 1 else 0 := by
  refine ⟨?_, zeroDivisions_divide⟩
  cases hstart : Cursor.start sheet with
  | error f => exact accounts_of_fault hstart size output
  | ok c =>
      rw [load_of_start hstart]
      exact .loaded (fun count => displays_called .empty count)
        (fun count => balanced_called .empty count)

end Machine

end LineBasic
