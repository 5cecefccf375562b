import LineBasic.Proofs.Editing
import LineBasic.Proofs.Endings

/-!
# Sessions that go on

An editor answers every input and reads the next, whatever the program does that it runs:
an error is shown and the program is kept. There are exactly these exceptions, which end
the session from outside: a line number with too many digits, and a run, with no interrupt
to end it before, of a program with a numeral that cannot be read, with a number too long
to be written, or without an end.
-/
namespace LineBasic

namespace Command

open Text

theorem natural_of_numeric {digits : Text} (h : digits.Numeric) :
    Numeral.natural digits =
      if Numeral.limit < digits.length then .error (.tooLong digits.length)
      else .ok (Numeral.value digits) := by
  have hall : digits.takeWhile isDecimal = digits := List.takeWhile_eq_self_iff.2 h.decimal
  simp only [Numeral.natural, hall]
  split
  · rfl
  · simp [h.nonempty]

/-- A line that is not read has a line number with too many digits. -/
theorem ofLine_error_iff {line : Text} :
    (∃ fault, ofLine line = .error fault) ↔
      ∃ digits gap text, Parts (line.trim isBlank) digits gap text ∧
        Numeral.limit < digits.length := by
  constructor
  · rintro ⟨fault, h⟩
    have hread := h
    simp only [ofLine] at hread
    split at hread
    · cases hread
    split at hread
    · rename_i digits text hedit
      obtain ⟨gap, hparts⟩ := exists_parts hedit
      refine ⟨digits, gap, text, hparts, ?_⟩
      apply Classical.byContradiction
      intro hshort
      rw [natural_of_numeric hparts.numeric, if_neg hshort] at hread
      cases hread
    · cases hread
  · rintro ⟨digits, gap, text, hparts, hlong⟩
    refine ⟨.tooLong digits.length, ?_⟩
    rw [hparts.ofLine_eq, natural_of_numeric hparts.numeric, if_pos hlong]
    rfl

end Command

namespace Editor

theorem speaks_sayThen (saying : Saying) (goesOn : Bool) :
    Speaks (sayThen saying goesOn) goesOn :=
  (speaks_say saying).bind (speaks_pure goesOn)

theorem speaks_greet : Speaks greet () :=
  (speaks_say _).bind ((speaks_say _).bind (speaks_say _))

theorem speaks_listing (lines : List (Int × Text)) :
    Speaks (lines.forM fun line => say (.line (String.ofList (Program.listed line)))) ⟨⟩ := by
  induction lines with
  | nil => exact speaks_pure _
  | cons line rest ih => exact (speaks_say _).bind ih

theorem speaks_list (program : Program) : Speaks (list program) true := by
  have hlisting : Speaks (do
      program.lines.forM fun line => say (.line (String.ofList (Program.listed line)))
      pure true) true :=
    (speaks_listing program.lines).bind (speaks_pure true)
  unfold list
  split
  · exact (speaks_say noProgram).bind hlisting
  · exact hlisting

theorem speaks_resume : Speaks resume true := speaks_sayThen _ true

/-- Every command succeeds. -/
theorem exists_perform {e : Editor} (h : e.Patient) (command : Command) :
    ∃ goesOn after, perform command e = .ok goesOn after ∧ after.Patient := by
  have hspeaks : ∀ {action : Edit Bool} {goesOn : Bool}, Speaks action goesOn →
      ∃ goesOn after, action e = .ok goesOn after ∧ after.Patient := by
    intro action goesOn haction
    obtain ⟨after, hok, hafter, -⟩ := haction e h
    exact ⟨goesOn, after, hok, hafter⟩
  cases command with
  | nothing => exact hspeaks (speaks_pure true)
  | enter | remove => exact ⟨true, _, rfl, h⟩
  | quit => exact hspeaks (speaks_sayThen _ false)
  | help => exact hspeaks ((speaks_say _).bind (speaks_sayThen _ true))
  | run => exact hspeaks (speaks_sayThen noProgram true)
  | list =>
      rw [perform, get_bind_apply]
      exact hspeaks (speaks_list e.program)
  | new =>
      obtain ⟨after, hok, hafter, -⟩ :=
        speaks_sayThen (.line "Program cleared. Ready.") true { e with program := .empty } h
      exact ⟨true, after, hok, hafter⟩
  | unknown => exact hspeaks (speaks_sayThen _ true)

theorem patient_absorbed {e : Editor} (h : e.Patient) (bound : Nat) (strike : Option Strike) :
    (e.absorbed (e.fate bound strike).toRemains).Patient := by
  have hsame : (e.absorbed (e.fate bound strike).toRemains).terminal = e.terminal := rfl
  unfold Patient at h ⊢
  rw [hsame]
  split at h
  · rename_i hterminal
    rw [if_pos hterminal]
    exact Machine.quiet_fateUnder h bound strike
  · rename_i hterminal
    rw [if_neg hterminal]
    exact h

def Struck (strike : Option Strike) (e : Editor) : Prop :=
  Machine.Struck strike e.sheet e.size e.output

/-- An input that ends the session from outside, if the editor reads it. -/
def Upsets (bound : Nat) (e : Editor) : Input → Prop
  | .line line strike =>
      (∃ digits gap text, Command.Parts (line.trim Text.isBlank) digits gap text ∧
        Numeral.limit < digits.length) ∨
      Command.ofLine line = .ok .run ∧ e.program.isEmpty = false ∧ ¬ e.Struck strike ∧
        ((∃ nf, e.program.source.Stops (.numeral nf)) ∨
          ((e.fate bound none).fault = some .unwritable ∧ 14285 < e.size.bits) ∨
          (e.fate bound none).fault = some .stalled)
  | _ => False

variable {bound : Nat} {e : Editor} {line : Text} {strike : Option Strike}

theorem upsets_line_iff :
    e.Upsets bound (.line line strike) ↔ (∃ fault, Command.ofLine line = .error fault) ∨
      Command.ofLine line = .ok .run ∧ e.program.isEmpty = false ∧
        ∃ f, (e.fate bound strike).fault = some f ∧ f.Unhandled := by
  rw [fate, Machine.unhandled_fateUnder_iff, Command.ofLine_error_iff]
  rfl

/-- A run is answered unless its program ends in a fault that nothing handles. -/
theorem respond_run (h : e.Patient) (hline : Command.ofLine line = .ok .run)
    (hprogram : e.program.isEmpty = false) :
    (∃ f, (e.fate bound strike).fault = some f ∧ f.Unhandled ∧
      ∃ after, respond bound (.line line strike) e = .error f after) ∨
    (¬ ∃ f, (e.fate bound strike).fault = some f ∧ f.Unhandled) ∧
      ∃ after, respond bound (.line line strike) e = .ok true after ∧ after.Patient ∧
        after.notices = e.notices ++ (e.fate bound strike).notices := by
  have habsorbed := patient_absorbed h bound strike
  obtain ⟨answered, hready, hpatient, hnotices⟩ := speaks_sayThen ready true _ habsorbed
  obtain ⟨resumed, hresume, hpatient', hnotices'⟩ := speaks_resume _ habsorbed
  rw [respond_of_run hline hprogram]
  -- The answer is a guarded action on the editor that has absorbed the run.
  have hconclude : conclude (e.fate bound strike) e =
      guarded (do settle (e.fate bound strike).fault; sayThen ready true)
        (e.absorbed (e.fate bound strike).toRemains) := rfl
  rw [hconclude]
  cases hfault : (e.fate bound strike).fault with
  | none => exact .inr ⟨by simp, answered, by simp only [guarded, settle, pure_bind, hready],
      hpatient, hnotices⟩
  | some f =>
      cases f with
      | error err =>
          exact .inr ⟨by simp [Fault.Unhandled], answered,
            by simp only [guarded, settle, pure_bind, hready], hpatient, hnotices⟩
      | interrupted =>
          exact .inr ⟨by simp [Fault.Unhandled], resumed, hresume, hpatient', hnotices'⟩
      | numeral | unwritable | refused | stalled => exact .inl ⟨_, rfl, trivial, _, rfl⟩

/-- Every input is answered unless it upsets the editor. -/
theorem respond_of_patient (h : e.Patient) (bound : Nat) (input : Input) :
    (e.Upsets bound input ∧ ∃ f after, respond bound input e = .error f after) ∨
      ¬ e.Upsets bound input ∧
        ∃ goesOn after, respond bound input e = .ok goesOn after ∧ after.Patient := by
  cases input with
  | interrupt =>
      obtain ⟨after, hanswer, hafter, -⟩ := speaks_resume e h
      exact .inr ⟨id, true, after, hanswer, hafter⟩
  | ended =>
      obtain ⟨after, hanswer, hafter, -⟩ := speaks_sayThen (.line "\nGoodbye!") false e h
      exact .inr ⟨id, false, after, hanswer, hafter⟩
  | line line strike =>
      rw [upsets_line_iff]
      cases hread : Command.ofLine line with
      | error fault =>
          exact .inl ⟨.inl ⟨fault, rfl⟩, .numeral fault, e, respond_of_unread hread⟩
      | ok command =>
          by_cases hrun : command = .run ∧ e.program.isEmpty = false
          · obtain ⟨rfl, hprogram⟩ := hrun
            rcases respond_run h hread hprogram with
              ⟨f, hfault, hunhandled, after, hanswer⟩ | ⟨hhandled, after, hanswer, hafter, -⟩
            · exact .inl ⟨.inr ⟨rfl, hprogram, f, hfault, hunhandled⟩, f, after, hanswer⟩
            · refine .inr ⟨?_, true, after, hanswer, hafter⟩
              rintro (⟨fault, hfault⟩ | ⟨-, -, hfault⟩)
              · cases hfault
              · exact hhandled hfault
          · obtain ⟨goesOn, after, hperform, hafter⟩ := exists_perform h command
            refine .inr ⟨?_, goesOn, after, ?_, hafter⟩
            · rintro (⟨fault, hfault⟩ | ⟨hcommand, hprogram, -⟩)
              · cases hfault
              · exact hrun ⟨Except.ok.inj hcommand, hprogram⟩
            · rw [respond_of_command hread hrun]
              simp only [guarded, hperform]

variable {start : Editor} {history : List Input} {goesOn : Bool}

theorem After.patient (hstart : start.Patient) (h : After bound start history goesOn e) :
    e.Patient := by
  induction h with
  | start => exact hstart
  | @read history input goesOn e asked answered before prompted answer ih =>
      obtain ⟨after, hprompt, hafter, -⟩ := speaks_prompt e ih
      cases hprompt.symm.trans prompted
      rcases respond_of_patient hafter bound input with
        ⟨-, f, stopped, hfault⟩ | ⟨-, again, replied, hanswer, hreplied⟩
      · cases hfault.symm.trans answer
      · cases hanswer.symm.trans answer
        exact hreplied

/-- A session comes to its end exactly if it reads no input that upsets the editor. -/
theorem converse_iff (hstart : start.Patient) (inputs : List Input) :
    (∃ left, converse bound inputs start = .ok () left) ↔
      ∀ history input rest e asked, inputs = history ++ input :: rest →
        After bound start history true e → prompt e = .ok () asked →
          ¬ asked.Upsets bound input := by
  constructor
  · rintro ⟨left, hleft⟩ history input rest e asked rfl hafter hprompt hupsets
    rw [hafter.converse_eq rfl, converse, bind_of_ok hprompt] at hleft
    obtain ⟨after, hpatient⟩ := speaks_prompt e (hafter.patient hstart)
    have hasked : asked.Patient := by
      cases hpatient.1.symm.trans hprompt
      exact hpatient.2.1
    rcases respond_of_patient hasked bound input with ⟨-, f, stopped, hfault⟩ | ⟨hnot, -⟩
    · rw [bind_of_error hfault] at hleft
      cases hleft
    · exact hnot hupsets
  · intro hnone
    -- What has been read is a history, and the rest is read from where it leaves the editor.
    suffices hrest : ∀ rest read e, inputs = read ++ rest → After bound start read true e →
        ∃ left, converse bound rest e = .ok () left by
      exact hrest inputs [] start rfl .start
    intro rest
    induction rest with
    | nil =>
        intro read e _ hread
        obtain ⟨asked, hprompt, hasked, -⟩ := speaks_prompt e (hread.patient hstart)
        obtain ⟨left, hanswer, -⟩ := speaks_sayThen (.line "\nGoodbye!") false asked hasked
        refine ⟨left, ?_⟩
        rw [converse, bind_of_ok hprompt]
        exact bind_of_ok hanswer
    | cons input rest ih =>
        intro read e hinputs hread
        obtain ⟨asked, hprompt, hasked, -⟩ := speaks_prompt e (hread.patient hstart)
        rcases respond_of_patient hasked bound input with
          ⟨hupsets, -⟩ | ⟨-, goesOn, answered, hanswer, -⟩
        · exact absurd hupsets (hnone read input rest e asked hinputs hread hprompt)
        rw [converse, bind_of_ok hprompt, bind_of_ok hanswer]
        cases goesOn with
        | true =>
            have hread' := hread.read hprompt hanswer
            exact ih (read ++ [input]) answered (by simpa using hinputs) hread'
        | false => exact ⟨answered, rfl⟩

/-- A run that ends in an error: the error is shown after the warnings and the program is
kept. -/
theorem after_failed_run (hstart : start.Patient) {asked : Editor} {err : Error}
    (h : After bound start history true e) (hprompt : prompt e = .ok () asked)
    (hline : Command.ofLine line = .ok .run) (hprogram : e.program.isEmpty = false)
    (hfault : (asked.fate bound strike).fault = some (.error err)) :
    ∃ answered zeros, After bound start (history ++ [.line line strike]) true answered ∧
      answered.program = e.program ∧
      answered.notices.toList =
        e.notices.toList ++ List.replicate zeros .zeroDivision ++ [.error err] := by
  obtain ⟨after, hshown, hasked, hkept⟩ := speaks_prompt e (h.patient hstart)
  cases hshown.symm.trans hprompt
  have hsame := spares_prompt.program_eq hprompt
  rcases respond_run hasked hline (hsame ▸ hprogram) with
    ⟨f, hf, hunhandled, -⟩ | ⟨-, answered, hanswer, -, hnotices⟩
  · cases hf.symm.trans hfault
    exact hunhandled.elim
  -- The run has ended in an error, so it was left alone.
  have hnot := ((Machine.fault_fateUnder_iff (by simp)).1 hfault).1
  obtain ⟨zeros, hzeros⟩ :=
    (Machine.fate_explained bound asked.sheet asked.size asked.output).shown
  rw [← Machine.fateUnder_of_not_struck hnot, Fate.raised, ← fate, hfault] at hzeros
  refine ⟨answered, zeros, h.read hprompt hanswer, ?_, ?_⟩
  · obtain ⟨command, hread, hanswered⟩ := respond_line hanswer
    cases hline.symm.trans hread
    rw [hanswered, ← hsame]
    rfl
  · rw [hnotices, Array.toList_append, hzeros, hkept, List.append_assoc]
    rfl

/-- A session of a patient editor comes to its end exactly if it reads no input that upsets
it. A run that ends in an error does not: the error is shown last, the program is kept and
the session goes on. -/
theorem session_survives (hstart : start.Patient) (bound : Nat) :
    ∃ greeted, greet start = .ok () greeted ∧
      (∀ inputs, (∃ left, session bound inputs start = .ok () left) ↔
        ∀ history input rest e asked, inputs = history ++ input :: rest →
          After bound greeted history true e → prompt e = .ok () asked →
            ¬ asked.Upsets bound input) ∧
      ∀ history e asked line strike err, After bound greeted history true e →
        prompt e = .ok () asked → Command.ofLine line = .ok .run →
          e.program.isEmpty = false → (asked.fate bound strike).fault = some (.error err) →
            ∃ answered zeros, After bound greeted (history ++ [.line line strike]) true answered ∧
              answered.program = e.program ∧
              answered.notices.toList =
                e.notices.toList ++ List.replicate zeros .zeroDivision ++ [.error err] := by
  obtain ⟨greeted, hgreet, hgreeted, -⟩ := speaks_greet start hstart
  refine ⟨greeted, hgreet, fun inputs => ?_, ?_⟩
  · rw [session, bind_of_ok hgreet]
    exact converse_iff hgreeted inputs
  · intro history e asked line strike err hafter hprompt hline hprogram hfault
    exact after_failed_run hgreeted hafter hprompt hline hprogram hfault

def stoppedBy {α : Type} (action : Edit α) (e : Editor) : Option Fault :=
  match action e with
  | .ok _ _ => none
  | .error f _ => some f

theorem exists_ok_of_stoppedBy {action : Edit Unit} (h : stoppedBy action e = none) :
    ∃ left, action e = .ok () left := by
  unfold stoppedBy at h
  cases hresult : action e with
  | ok _ left => exact ⟨left, rfl⟩
  | error f left =>
      rw [hresult] at h
      cases h

/-- A jump to a line that is not there, a run that is interrupted while it has no end, and
an interrupt. -/
theorem session_survives_jump :
    ∃ greeted,
      greet { size := ⟨32, by decide⟩, terminal := false, render := Console.render } =
        .ok () greeted ∧
      ∀ history input rest e asked,
        [.typed "10 GOTO 15".toList, .typed "RUN".toList, .typed "10 GOTO 10".toList,
            .line "RUN".toList (some { step := 2 }), .interrupt] = history ++ input :: rest →
          After 2 greeted history true e → prompt e = .ok () asked →
            ¬ asked.Upsets 2 input := by
  have hstart :
      Patient { size := ⟨32, by decide⟩, terminal := false, render := Console.render } := rfl
  obtain ⟨greeted, hgreet, hiff, -⟩ := session_survives hstart 2
  refine ⟨greeted, hgreet, (hiff _).1 (exists_ok_of_stoppedBy ?_)⟩
  decide +kernel

/-- A digit that is no decimal ends the session when the program is run. -/
theorem digit_ends_session :
    stoppedBy (session 2 [.typed "10 PRINT ²".toList, .typed "RUN".toList])
      { size := ⟨32, by decide⟩, terminal := false, render := Console.render } =
        some (.numeral (.malformed "²".toList)) := by
  decide +kernel

end Editor

end LineBasic
