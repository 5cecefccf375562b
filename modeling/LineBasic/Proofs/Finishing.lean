import LineBasic.Proofs.FinalNewline
import LineBasic.Proofs.Tracing.Statement

/-!
# Finishing is final

A call tells that there is no more to do exactly if the machine has finished, and a machine
has finished only when it is at the end of its text. From then on it is left as it is. So
a run that comes to its end has gone through calls that went on, up to one at the end of
the text.
-/
namespace LineBasic

namespace Machine

/-- A machine as calls leave it: what has finished has been surveyed. -/
structure Poised (site : Site) (m : Machine) : Prop
    extends Settled site m where
  surveyed : m.finished = true → m.started = true

variable {site : Site} {m : Machine}

instance : DecidableEq (Except Fault Bool)
  | .ok more, .ok other => decidable_of_iff (more = other) (by simp)
  | .error f, .error g => decidable_of_iff (f = g) (by simp)
  | .ok _, .error _ => isFalse (by simp)
  | .error _, .ok _ => isFalse (by simp)

theorem started_of_effects {n : Machine} (h : Effects m n) (hstarted : m.started = true) :
    n.started = true := by
  induction h with
  | refl => exact hstarted
  | tail _ heffect ih =>
      cases heffect with
      | started => rfl
      | _ => exact ih

theorem started_of_stepStarted {more : Bool} {n : Machine} (hstarted : m.started = true)
    (h : stepStarted m = .ok more n) : n.started = true := by
  have hacts := stepStarted_acts m
  rw [h] at hacts
  cases hacts with
  | ok heffects => exact started_of_effects heffects hstarted

theorem stepBody_of_step {more : Bool} {n : Machine} (h : step m = .ok more n) :
    stepBody m = .ok more n := by
  rw [step_apply] at h
  split at h
  · cases h
    assumption
  · cases h

/-- A step that answers has made the survey. -/
theorem started_of_step {more : Bool} {n : Machine} (h : step m = .ok more n) :
    n.started = true := by
  have hbody := stepBody_of_step h
  rw [stepBody_apply] at hbody
  split at hbody
  · rename_i hstarted
    exact started_of_stepStarted hstarted hbody
  · obtain ⟨_, indexed, -, hrest⟩ := bind_eq_ok hbody
    rw [modify_bind_apply] at hrest
    exact started_of_stepStarted rfl hrest

/-- What one call answers, and what it leaves. -/
theorem Poised.onward (h : m.Poised site) :
    m.stepped.Poised site ∧ ∀ more, m.outcome = .ok more → more = !m.stepped.finished := by
  unfold outcome stepped
  cases hfinished : m.finished with
  | true =>
      rw [step_of_finished (h.surveyed hfinished) hfinished]
      refine ⟨h, ?_⟩
      intro more hmore
      cases hmore
      rw [hfinished]
      rfl
  | false =>
      rcases (step_muted ⟨h.toStanding, hfinished⟩).leaves with
        ⟨more, after, hstep, hsettled, hmore⟩ | ⟨f, after, hstep, -, hworking⟩
      · rw [hstep]
        refine ⟨⟨hsettled, fun _ => started_of_step hstep⟩, ?_⟩
        intro again hagain
        cases hagain
        exact hmore
      · rw [hstep]
        refine ⟨⟨hworking.settled, fun hdone => ?_⟩, fun more hmore => ?_⟩
        · exact absurd (hdone.symm.trans hworking.unfinished) (by decide)
        · cases hmore

theorem poised_fresh {c : Cursor} (h : Cursor.start c.sheet = .ok c) (size : WordSize)
    (output : Output) (reports : Reports) :
    (fresh c size output reports).Poised ⟨size, c.sheet, output.alarms = []⟩ :=
  ⟨(working_fresh h size output reports).settled, fun hfinished => by cases hfinished⟩

theorem Poised.called (h : m.Poised site) (count : Nat) :
    (m.called count).Poised site :=
  called_induction (fun _ hm => hm.onward.1) h count

/-- A call that answers tells whether the machine has not finished. -/
theorem Poised.tells (h : m.Poised site) {count : Nat} {more : Bool}
    (hcall : m.call count = .ok more) : more = !(m.called (count + 1)).finished :=
  (h.called count).onward.2 more hcall

/-- Nothing is left to do on a machine that has finished. -/
theorem Poised.rests (h : m.Poised site) (hfinished : m.finished = true) (count : Nat) :
    m.call count = .ok false ∧ m.called count = m := by
  have hstep := step_of_finished (h.surveyed hfinished) hfinished
  have hcalled : m.called count = m := by
    induction count with
    | zero => rfl
    | succ count ih =>
        rw [Machine.called, ih, stepped, hstep]
  rw [Machine.call, hcalled, outcome, hstep]
  exact ⟨rfl, rfl⟩

/-- A machine that has finished has nothing of its text ahead of it. -/
theorem Poised.atEnd (h : m.Poised site) (hfinished : m.finished = true) :
    m.cursor.finished = true ∧ m.cursor.token.start = site.sheet.text.length := by
  have hend := h.ending hfinished
  refine ⟨Cursor.finished_iff.2 hend, ?_⟩
  have hnil : m.cursor.ahead = [] := h.lies.spans.ending.1 hend
  rw [Cursor.ahead, List.drop_eq_nil_iff, h.lies.sheet_eq] at hnil
  exact Nat.le_antisymm h.lies.start_le hnil

/-- Calls after a first one. -/
theorem called_stepped (m : Machine) (count : Nat) :
    m.stepped.called count = m.called (count + 1) := by
  induction count with
  | zero => rfl
  | succ count ih => exact congrArg stepped ih

theorem call_stepped (m : Machine) (count : Nat) : m.stepped.call count = m.call (count + 1) :=
  congrArg outcome (called_stepped m count)

theorem called_add (m : Machine) (count more : Nat) :
    m.called (count + more) = (m.called count).called more := by
  induction more with
  | zero => rfl
  | succ more ih => exact congrArg stepped ih

/-- The calls of a run: all of them go on but the last, of which `answer` came. -/
structure Comes (m : Machine) (count : Nat) (answer : Except Fault Bool) : Prop where
  before : ∀ i < count, m.call i = .ok true
  last : m.call count = answer

/-- The result of a call with the machine that the call leaves. -/
def resultOf (m : Machine) : Except Fault Bool → EStateM.Result Fault Machine Bool
  | .ok more => .ok more m
  | .error f => .error f m

theorem step_eq_resultOf (m : Machine) : step m = m.stepped.resultOf m.outcome := by
  unfold stepped outcome
  cases step m <;> rfl

/-- Steps are calls up to the first that does not go on. -/
theorem steps_calls (bound : Nat) (m : Machine) :
    ((∀ i < bound, m.call i = .ok true) ∧ steps bound m = .ok true (m.called bound)) ∨
      ∃ count < bound, ∃ answer, answer ≠ .ok true ∧ m.Comes count answer ∧
        steps bound m = (m.called (count + 1)).resultOf answer := by
  induction bound generalizing m with
  | zero => exact .inl ⟨by simp, rfl⟩
  | succ bound ih =>
      -- Unless the first call is the last, the others are calls of the machine that it leaves.
      have hstep := step_eq_resultOf m
      cases houtcome : m.outcome with
      | ok more =>
          rw [houtcome] at hstep
          cases more with
          | false =>
              exact .inr ⟨0, by omega, .ok false, by simp, ⟨by simp, houtcome⟩,
                steps_of_last hstep bound⟩
          | true =>
              have hfirst : m.call 0 = .ok true := houtcome
              have hrest : ∀ k, (∀ i < k, m.stepped.call i = .ok true) →
                  ∀ i < k + 1, m.call i = .ok true := by
                intro k hk i hi
                cases i with
                | zero => exact hfirst
                | succ i =>
                    rw [← call_stepped]
                    exact hk i (by omega)
              rw [steps_of_more hstep bound]
              rcases ih m.stepped with ⟨hgoes, hsteps⟩ | ⟨count, hlt, answer, hne, hcomes, hsteps⟩
              · refine .inl ⟨hrest bound hgoes, ?_⟩
                rw [hsteps, called_stepped]
              · refine .inr ⟨count + 1, by omega, answer, hne,
                  ⟨hrest count hcomes.before, (call_stepped m count).symm.trans hcomes.last⟩, ?_⟩
                rw [hsteps, called_stepped]
      | error f =>
          rw [houtcome] at hstep
          refine .inr ⟨0, by omega, .error f, by simp, ⟨by simp, houtcome⟩, ?_⟩
          unfold steps
          exact bind_of_error hstep

/-- The machine that a run calls: the start of the run is noted. -/
def launched (m : Machine) : Machine := m.noted .runStarted

/-- A run goes on as long as it is allowed to, or its calls come to an end or to a fault. -/
theorem run_calls (bound : Nat) (m : Machine) :
    ((∀ i < bound, m.launched.call i = .ok true) ∧
        run bound m = .error .stalled (m.launched.called bound)) ∨
      (∃ count < bound, m.launched.Comes count (.ok false) ∧
        run bound m = .ok () ((m.launched.called (count + 1)).noted .runEnded)) ∨
      ∃ count < bound, ∃ f, m.launched.Comes count (.error f) ∧
        run bound m = .error f (m.launched.called (count + 1)) := by
  have hlaunched : { m with reports := m.reports.noted .runStarted } = m.launched := rfl
  have hrun := run_apply bound m
  rw [hlaunched] at hrun
  rcases steps_calls bound m.launched with
    ⟨hgoes, hsteps⟩ | ⟨count, hlt, answer, hne, hcomes, hsteps⟩
  · rw [hsteps] at hrun
    exact .inl ⟨hgoes, hrun⟩
  · rw [hsteps] at hrun
    cases answer with
    | error f => exact .inr (.inr ⟨count, hlt, f, hcomes, hrun⟩)
    | ok more =>
        cases more with
        | true => exact absurd rfl hne
        | false => exact .inr (.inl ⟨count, hlt, hcomes, hrun⟩)

theorem Poised.noted (h : m.Poised site) (event : Event) :
    (m.noted event).Poised site :=
  ⟨⟨⟨⟨h.sized, h.keys, h.fits⟩, h.lies, h.opens, h.quiet⟩, h.ending⟩, h.surveyed⟩

/-- Through any number of calls, faults among them: a call that answers tells that there is
no more to do exactly if the machine has finished, it has finished only at the end of its
text, and from then on every call gives the same answer and changes nothing. A run, at
whatever time it is made, comes to its end only there. -/
theorem finishing_final {sheet : Sheet} {size : WordSize} {output : Output}
    {reports : Reports} (h : load sheet size output reports = .ok m) :
    (∀ count more, m.call count = .ok more →
      (more = false ↔ (m.called (count + 1)).finished = true)) ∧
    (∀ count, (m.called count).finished = true →
      (m.called count).cursor.finished = true ∧
        (m.called count).cursor.token.start = sheet.text.length) ∧
    (∀ count, m.call count = .ok false → ∀ later,
      m.call (count + 1 + later) = .ok false ∧
        m.called (count + 1 + later) = m.called (count + 1)) ∧
    ∀ count bound after, run bound (m.called count) = .ok () after →
      (∃ last < bound, (m.called count).launched.Comes last (.ok false) ∧
        after = ((m.called count).launched.called (last + 1)).noted .runEnded) ∧
      after.finished = true ∧ after.cursor.finished = true ∧
        after.cursor.token.start = sheet.text.length := by
  obtain ⟨c, hc, rfl⟩ := start_of_load h
  obtain rfl := Cursor.sheet_of_start hc
  have hpoised := poised_fresh hc size output reports
  refine ⟨?_, fun count => (hpoised.called count).atEnd, ?_, ?_⟩
  · intro count more hcall
    rw [hpoised.tells hcall]
    simp
  · intro count hcall later
    have hfinished : ((fresh c size output reports).called (count + 1)).finished = true := by
      simpa using hpoised.tells hcall
    have hrests := (hpoised.called (count + 1)).rests hfinished later
    rw [← called_add] at hrests
    refine ⟨?_, hrests.2⟩
    rw [← hrests.1, Machine.call, Machine.call, called_add]
  · intro count bound after hrun
    obtain ⟨last, hlt, hcomes, hafter⟩ : ∃ last < bound,
        ((fresh c size output reports).called count).launched.Comes last (.ok false) ∧
          after = (((fresh c size output reports).called count).launched.called
            (last + 1)).noted .runEnded := by
      rcases run_calls bound ((fresh c size output reports).called count) with
        ⟨-, hstalled⟩ | ⟨last, hlt, hcomes, hends⟩ | ⟨last, -, f, -, hfails⟩
      · cases hstalled.symm.trans hrun
      · cases hends.symm.trans hrun
        exact ⟨last, hlt, hcomes, rfl⟩
      · cases hfails.symm.trans hrun
    have hlaunched : ((fresh c size output reports).called count).launched.Poised
        ⟨size, c.sheet, output.alarms = []⟩ :=
      (hpoised.called count).noted _
    have hend : (((fresh c size output reports).called count).launched.called
        (last + 1)).finished = true := by
      simpa using hlaunched.tells hcomes.last
    have hafter' : after.Poised ⟨size, c.sheet, output.alarms = []⟩ :=
      hafter ▸ (hlaunched.called (last + 1)).noted _
    have hdone : after.finished = true := hafter ▸ hend
    exact ⟨⟨last, hlt, hcomes, hafter⟩, hdone, hafter'.atEnd hdone⟩

/-- A jump to a line that is not there, after which the calls go on to the end. -/
theorem finishing_final_past_error :
    ∃ m, load ⟨"10 GOTO 7\n20 PRINT 1\n".toList, []⟩ ⟨16, by decide⟩ {} {} = .ok m ∧
      (m.call 0).toOption = none ∧ m.call 1 = .ok true ∧ m.call 2 = .ok false ∧
      (∀ later, m.call (3 + later) = .ok false ∧ m.called (3 + later) = m.called 3) ∧
      (m.called 3).cursor.token.start = 21 := by
  let m := fresh ⟨⟨"10 GOTO 7\n20 PRINT 1\n".toList, []⟩, .first, ⟨.number 10, 1, 1, 0, 2⟩⟩
    ⟨16, by decide⟩ {} {}
  have hload : load ⟨"10 GOTO 7\n20 PRINT 1\n".toList, []⟩ ⟨16, by decide⟩ {} {} = .ok m := rfl
  have hnext : m.call 1 = .ok true := by decide +kernel
  have hlast : m.call 2 = .ok false := by decide +kernel
  obtain ⟨hanswer, hend, hfinal, -⟩ := finishing_final hload
  have hfinished := (hanswer 2 false hlast).1 rfl
  exact ⟨m, hload, by decide +kernel, hnext, hlast, hfinal 2 hlast, (hend 3 hfinished).2⟩

end Machine

end LineBasic
