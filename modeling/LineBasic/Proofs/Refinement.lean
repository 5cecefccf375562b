import LineBasic.Proofs.Execution

/-!
# Machines execute code

A machine that is loaded with the text of a program takes the steps of the program's
instructions: after every number of calls it has the registers, the output and the
count of warnings of the state after as many steps, up to and including the first
error.

The two go step by step. Between steps the machine `Represents` the state, and as long as
the program runs its cursor is before the lines from the state's place on.
-/
namespace LineBasic

/-- The machine has the registers, the output and the warnings of a state, and an index
of the program. It has warned a number of times before. -/
structure Represents (code : Code) (size : WordSize) (warned : Nat) (m : Machine) (s : State) :
    Prop where
  size : m.size = size
  tame : m.Tame s.registers
  output : m.output.text = s.output
  quiet : m.output.alarms = []
  warnings : m.reports.warnings = warned + s.warnings
  source : m.cursor.sheet.text = code.source
  indexed : m.Indexed
  started : m.started = true

/-- What comes of an instruction, in a machine and in a state. -/
inductive Executed (code : Code) (size : WordSize) (warned : Nat) :
    EStateM.Result Fault Machine Unit → State → Prop
  | running {m : Machine} {s : State} : Represents code size warned m s → s.status = .running →
      m.finished = false → m.cursor.Before (code.lines.drop s.place) →
      Executed code size warned (.ok () m) s
  | failed {m : Machine} {s : State} {cause : Cause} : Represents code size warned m s →
      s.status = .failed cause → m.finished = false →
      Executed code size warned (.error (.error ⟨cause, none, none⟩) m) s

variable {code : Code} {size : WordSize} {warned : Nat} {m m' : Machine} {s s' : State}

/-- Work is mirrored by what it adds to a state. -/
theorem Represents.worked {piece : Text} {w : Nat} (h : Represents code size warned m s)
    (hw : m.Worked m' piece w) (hregisters : s'.registers = s.registers)
    (houtput : s'.output = s.output ++ piece) (hwarnings : s'.warnings = s.warnings + w) :
    Represents code size warned m' s' where
  size := hw.size.trans h.size
  tame := by
    rw [hregisters]
    exact h.tame.worked hw
  output := by rw [hw.output, h.output, houtput]
  quiet := hw.alarms.trans h.quiet
  warnings := by rw [hw.warnings, h.warnings, hwarnings, Nat.add_assoc]
  source := by rw [hw.sheet, h.source]
  indexed := h.indexed.worked hw
  started := hw.started.trans h.started

theorem Represents.readable (h : Represents code size warned m s) : m.cursor.sheet.text.Readable := by
  rw [h.source]
  exact code.readable_source

/-- What only moves the cursor leaves the state as it is. -/
theorem Represents.moved (h : Represents code size warned m s) (hw : m.Worked m' [] 0) :
    Represents code size warned m' s :=
  h.worked hw rfl (List.append_nil _).symm rfl

theorem isLineNumber_iff (number : Nat) :
    Cursor.isLineNumber number = true ↔ 10 ≤ number ∧ number % 10 = 0 := by
  simp [Cursor.isLineNumber]

/-- Going back to the first line. -/
theorem Represents.reset (h : Represents code size warned m s) :
    ∃ m', Machine.onCursor Cursor.reset m = .ok () m' ∧ m.Worked m' [] 0 ∧
      m'.cursor.OnLine code.lines := by
  obtain ⟨first, hstart, hsteady, hsheet, hahead⟩ := Cursor.Steady.start _ h.readable
  refine ⟨_, Machine.onCursor_of_ok (Cursor.reset_of_start hstart),
    Machine.worked_movedTo m hsheet, hsteady, ?_⟩
  show first.ahead = _
  rw [hahead, h.source, code.source_eq, pastGap_linesText]

section
variable {target : Literal}

theorem failLine_executed (h : Represents code size warned m s) (hfinished : m.finished = false)
    (cause : Int → Cause) :
    Executed code size warned ((Machine.failLine target.value cause : Run Unit) m)
      (s.fail (cause target.value)) := by
  rw [Machine.failLine_apply, if_pos target.writable]
  have hreported := Machine.worked_reports m
    (r := m.reports.reported ⟨cause target.value, none, none⟩) (w := 0) rfl
  exact .failed (h.worked hreported rfl (List.append_nil _).symm rfl) rfl hfinished

/-- A jump looks for its target among the lines. -/
theorem land_executed (h : Represents code size warned m s) (hrunning : s.status = .running)
    (hfinished : m.finished = false) (hline : 10 ≤ target.value ∧ target.value % 10 = 0)
    (honLine : m.cursor.OnLine code.lines) :
    Executed code size warned (Machine.land target.value m) (code.jump target.value s) := by
  unfold Code.jump Machine.land
  rw [if_pos hline]
  cases hplace : code.lines.findIdx? (·.1.value = target.value) with
  | some place =>
      obtain ⟨m', hfound, hworked, hbefore⟩ := Machine.findLine_found honLine hplace
      rw [bind_of_ok hfound]
      exact .running (h.worked hworked rfl (List.append_nil _).symm rfl) hrunning
        (hworked.finished.trans hfinished) hbefore
  | none =>
      obtain ⟨m', hmissing, hworked⟩ := Machine.findLine_missing honLine hplace
      rw [bind_of_ok hmissing]
      simp only [Bool.not_false, if_true]
      exact failLine_executed (h.moved hworked)
        (hworked.finished.trans hfinished) .unreachableLine

theorem jump_executed (h : Represents code size warned m s) (hrunning : s.status = .running)
    (hfinished : m.finished = false)
    (hnumbers : Cursor.isLineNumber target.value = true →
      m.cursor.sheet.text.Numbers target.value) :
    Executed code size warned (Machine.jump target.value m) (code.jump target.value s) := by
  obtain ⟨m₁, hjump, hworked₁⟩ :=
    Machine.jump_prepared h.indexed h.readable (target.value : Int)
  have h₁ : Represents code size warned m₁ s := h.moved hworked₁
  have hfinished₁ := hworked₁.finished.trans hfinished
  have hhas : m₁.index.has target.value = true ↔ m.cursor.sheet.text.Numbers target.value := by
    rw [LineIndex.has_iff, h₁.indexed, hworked₁.sheet]
  rw [hjump]
  unfold Machine.jumpIndexed
  by_cases hline : Cursor.isLineNumber target.value = true
  · rw [if_pos (hhas.2 (hnumbers hline))]
    obtain ⟨m₂, hreset, hworked₂, honLine⟩ := h₁.reset
    rw [bind_of_ok hreset]
    exact land_executed (h₁.moved hworked₂) hrunning
      (hworked₂.finished.trans hfinished₁) ((isLineNumber_iff _).1 hline) honLine
  · have hnot : ¬ m₁.index.has target.value = true := by
      intro hmem
      obtain ⟨_, _, _, _, hnumber, _⟩ := hhas.1 hmem
      exact hline hnumber
    rw [if_neg hnot, Code.jump, if_neg (fun hten => hline ((isLineNumber_iff _).2 hten))]
    exact failLine_executed h₁ hfinished₁ .missingLine

end

theorem Represents.assigned (h : Represents code size warned m s) (register : Fin 26) {value : Int}
    (hfits : size.Fits value) :
    Represents code size warned (m.holding (s.registers.set register value))
      { s with registers := s.registers.set register value } where
  size := h.size
  tame := by
    refine ⟨rfl, ?_, h.tame.writable⟩
    intro other
    simp only [Registers.set]
    split
    · exact h.size ▸ hfits
    · exact h.tame.fits other
  output := h.output
  quiet := h.quiet
  warnings := h.warnings
  source := h.source
  indexed := h.indexed
  started := h.started

/-- A statement does what its instruction does. -/
theorem statement_executed {instruction : Instruction} (h : Represents code size warned m s)
    (hrunning : s.status = .running) (hfinished : m.finished = false)
    (hinstruction : m.cursor.OnInstruction instruction (code.lines.drop (s.place + 1))) :
    Executed code size warned (Machine.statement m) (code.execute size s instruction) := by
  cases instruction with
  | remark r =>
      obtain ⟨m', hstatement, hworked, hbefore⟩ := Machine.remark_executed hinstruction
      rw [hstatement]
      exact .running (h.worked hworked rfl (by simp [Code.execute, State.pass]) rfl) hrunning
        (hworked.finished.trans hfinished) hbefore
  | assign name formula =>
      obtain ⟨m', hstatement, hbefore, m₁, hworked₁, hworked⟩ :=
        Machine.assign_executed h.tame hinstruction
      have hfits : size.Fits (formula.value size s.registers) :=
        Formula.fits_value (h.size ▸ h.tame.fits) formula
      rw [h.size] at hworked₁ hworked
      have h₁ : Represents code size warned m₁ (s.warn (formula.warnings size s.registers)) :=
        h.worked hworked₁ rfl (by simp [State.warn]) rfl
      rw [hstatement]
      refine .running ((h₁.assigned name.register hfits).worked hworked rfl ?_ rfl) hrunning ?_
        hbefore
      · simp [Code.execute, State.pass]
      · exact (hworked.finished.trans hworked₁.finished).trans hfinished
  | branch condition target =>
      obtain ⟨m', hworked, hnumbers, htaken⟩ := Machine.branch_executed h.tame hinstruction
      rw [h.size] at hworked htaken
      rw [← hworked.sheet] at hnumbers
      have h' : Represents code size warned m' (s.warn (condition.warnings size s.registers)) :=
        h.worked hworked rfl (by simp [State.warn]) rfl
      have hfinished' := hworked.finished.trans hfinished
      simp only [Code.execute]
      cases hholds : condition.holds size s.registers with
      | true =>
          rw [hholds, if_pos rfl] at htaken
          rw [htaken, if_pos rfl]
          exact jump_executed h' hrunning hfinished' hnumbers
      | false =>
          rw [hholds, if_neg (by simp)] at htaken
          rw [htaken.1, if_neg (by simp)]
          exact .running (h'.worked (.refl m') rfl (by simp [State.pass]) rfl) hrunning hfinished'
            htaken.2
  | goto target =>
      obtain ⟨m', hjump, hworked, hnumbers⟩ := Machine.goto_executed hinstruction
      rw [← hworked.sheet] at hnumbers
      rw [hjump]
      exact jump_executed (h.moved hworked) hrunning
        (hworked.finished.trans hfinished) hnumbers
  | print elements =>
      obtain ⟨m', hstatement, hbefore, hworked⟩ :=
        Machine.print_executed h.tame h.quiet hinstruction
      rw [h.size] at hworked
      rw [hstatement]
      refine .running (h.worked hworked rfl ?_ rfl) hrunning (hworked.finished.trans hfinished)
        hbefore
      simp [Code.execute, State.pass]

/-- The machine mirrors the state and stands where the state's status says. -/
structure Simulates (code : Code) (size : WordSize) (warned : Nat) (m : Machine) (s : State) :
    Prop extends Represents code size warned m s where
  finished : m.finished = true ↔ s.status = .finished
  before : s.status = .running → m.cursor.Before (code.lines.drop s.place)

/-- The answer of a call for the status it leads to. -/
inductive Answers : Except Fault Bool → Status → Prop
  | running : Answers (.ok true) .running
  | finished : Answers (.ok false) .finished
  | failed (cause : Cause) : Answers (.error (.error ⟨cause, none, none⟩)) (.failed cause)

theorem Simulates.unfinished (h : Simulates code size warned m s)
    (hrunning : s.status = .running) : m.finished = false := by
  rw [Bool.eq_false_iff]
  intro hfinished
  rw [h.finished.1 hfinished] at hrunning
  cases hrunning

theorem worked_scanReported (m : Machine) (f : Fault) :
    m.Worked { m with reports := m.reports.scanReported f } [] 0 := by
  apply Machine.worked_reports
  cases f with
  | error e =>
      simp only [Reports.scanReported]
      split <;> rfl
  | _ => rfl

theorem step_of_unfinished (hstarted : m.started = true) (hfinished : m.finished = false) :
    Machine.step m = match Machine.lineStatement m with
      | .ok _ after => .ok (!after.finished) after
      | .error f after => .error f { after with reports := after.reports.scanReported f } := by
  have hbody : Machine.stepBody m = match Machine.lineStatement m with
      | .ok _ after => .ok (!after.finished) after
      | .error f after => .error f after := by
    rw [Machine.stepBody_apply, if_pos hstarted, Machine.stepStarted_apply,
      if_neg (by simp [hfinished]), bind_apply]
    cases Machine.lineStatement m <;> rfl
  rw [Machine.step_apply, hbody]
  cases Machine.lineStatement m <;> rfl

/-- A step that executes an instruction. -/
theorem step_of_executed (hstarted : m.started = true) (hfinished : m.finished = false)
    (h : Executed code size warned (Machine.lineStatement m) s) :
    Answers m.outcome s.status ∧ Simulates code size warned m.stepped s := by
  have hstep := step_of_unfinished hstarted hfinished
  unfold Machine.outcome Machine.stepped
  rw [hstep]
  generalize Machine.lineStatement m = result at h
  cases h with
  | running hrepresents hrunning hfinished hbefore =>
      simp only [hfinished, hrunning]
      exact ⟨.running, hrepresents, by simp [hfinished, hrunning], fun _ => hbefore⟩
  | failed hrepresents hfailed hfinished =>
      simp only [hfailed]
      refine ⟨.failed _, ?_, ?_, ?_⟩
      · exact hrepresents.moved (worked_scanReported _ _)
      · simp [hfinished, hfailed]
      · simp [hfailed]

/-- The machine takes the step of the state. -/
theorem Simulates.step (h : Simulates code size warned m s) (hfailed : s.status.isFailed = false) :
    Answers m.outcome (code.step size s).status ∧
      Simulates code size warned m.stepped (code.step size s) := by
  cases hstatus : s.status with
  | failed cause =>
      rw [hstatus] at hfailed
      cases hfailed
  | finished =>
      have hfinished := h.finished.2 hstatus
      have hstep : Machine.step m = .ok false m := by
        rw [Machine.step_apply, Machine.stepBody_apply, if_pos h.started,
          Machine.stepStarted_apply, if_pos hfinished]
      have hsame : code.step size s = s := by simp [Code.step, hstatus]
      unfold Machine.outcome Machine.stepped
      rw [hstep, hsame, hstatus]
      exact ⟨.finished, h⟩
  | running =>
      have hunfinished := h.unfinished hstatus
      have hbefore := h.before hstatus
      simp only [Code.step, hstatus]
      cases hline : code.lines[s.place]? with
      | none =>
          rw [List.drop_eq_nil_of_le (List.getElem?_eq_none_iff.1 hline)] at hbefore
          obtain ⟨m', hworked, hstatement⟩ := Machine.lineStatement_nil hbefore
          have hstep := step_of_unfinished h.started hunfinished
          rw [hstatement] at hstep
          unfold Machine.outcome Machine.stepped
          rw [hstep]
          have hrepresents : Represents code size warned m' { s with status := .finished } :=
            h.worked hworked rfl (List.append_nil _).symm rfl
          exact ⟨.finished, { hrepresents with
            tame := ⟨hrepresents.tame.store, hrepresents.tame.fits, hrepresents.tame.writable⟩
            finished := by simp
            before := by simp }⟩
      | some line =>
          obtain ⟨hlt, hget⟩ := List.getElem?_eq_some_iff.1 hline
          rw [List.drop_eq_getElem_cons hlt, hget] at hbefore
          obtain ⟨m', hworked, hinstruction, hstatement⟩ := Machine.lineStatement_cons hbefore
          have hrepresents := h.moved hworked
          apply step_of_executed h.started hunfinished
          rw [hstatement]
          exact statement_executed hrepresents hstatus (hworked.finished.trans hunfinished)
            hinstruction

theorem Simulates.called (h : Simulates code size warned m .start) (count : Nat)
    (hfailed : ∀ earlier < count, (code.after size earlier).status.isFailed = false) :
    Simulates code size warned (m.called count) (code.after size count) ∧
      ∀ earlier < count,
        Answers (m.call earlier) (code.after size (earlier + 1)).status := by
  induction count with
  | zero => exact ⟨h, by simp⟩
  | succ count ih =>
      obtain ⟨hsimulates, hanswers⟩ := ih fun earlier hlt => hfailed earlier (by omega)
      obtain ⟨hanswer, hstep⟩ := hsimulates.step (hfailed count (by omega))
      refine ⟨hstep, ?_⟩
      intro earlier hlt
      by_cases hlast : earlier = count
      · rw [hlast]
        exact hanswer
      · exact hanswers earlier (by omega)

/-- What is seen of a state in a machine that had warned before. -/
structure Shows (reports : Reports) (m : Machine) (s : State) : Prop where
  store : m.store = .holding s.registers
  output : m.output.text = s.output
  warnings : m.reports.warnings = reports.warnings + s.warnings
  finished : m.finished = true ↔ s.status = .finished

namespace Machine

theorem begun_simulates {c : Cursor} (reports : Reports)
    (hsize : ∀ v, size.Fits v → Numeral.writable v = true)
    (hstart : Cursor.start c.sheet = .ok c) (hsource : c.sheet.text = code.source) :
    ∃ m, step (fresh c size {} reports) = step m ∧
      Simulates code size reports.warnings m .start := by
  have hreadable : c.sheet.text.Readable := by
    rw [hsource]
    exact code.readable_source
  obtain ⟨index, hbuild, hnumbers, hwritable⟩ :=
    survey_of_readable (l := ⟨c, .empty⟩) hstart hreadable
  obtain ⟨first, hfirst, hsteady, -, hahead⟩ := Cursor.Steady.start c.sheet hreadable
  cases hstart.symm.trans hfirst
  refine ⟨_, step_of_survey rfl hbuild hwritable, ?_⟩
  refine { size := rfl, tame := ?_, output := rfl, quiet := rfl, warnings := ?_,
           source := hsource, indexed := hnumbers, started := rfl, finished := ?_, before := ?_ }
  · exact ⟨Store.zero_eq, fun _ => size.fits_zero, hsize⟩
  · simp [begun, fresh, State.start]
  · simp [begun, fresh, State.start]
  · intro _
    refine .line ⟨hsteady, ?_⟩
    show c.ahead = _
    rw [hahead, hsource, code.source_eq]
    exact pastGap_linesText _

/-- A machine executes the code its text is spelled from: it can be loaded, and after any
number of calls, up to and including the first that fails, it shows the state after as
many steps, and every call has answered as the state's status says. -/
theorem executes_code (code : Code) (size : WordSize)
    (hsize : ∀ v, size.Fits v → Numeral.writable v = true) (name : Text) (reports : Reports) :
    ∃ m, load ⟨code.source, name⟩ size {} reports = .ok m ∧
      ∀ count, (∀ earlier < count, (code.after size earlier).status.isFailed = false) →
        Shows reports (m.called count) (code.after size count) ∧
        ∀ earlier < count, Answers (m.call earlier) (code.after size (earlier + 1)).status := by
  obtain ⟨c, hstart, -⟩ := Cursor.start_of_readable ⟨code.source, name⟩ code.readable_source
  have hsheet := Cursor.sheet_of_start hstart
  refine ⟨_, load_of_start hstart size {} reports, ?_⟩
  obtain ⟨m, hm, hsimulates⟩ :=
    begun_simulates reports hsize (hsheet.symm ▸ hstart) (congrArg Sheet.text hsheet)
  intro count hfailed
  obtain ⟨hcalled, hanswers⟩ := hsimulates.called count hfailed
  constructor
  · cases count with
    | zero => exact ⟨Store.zero_eq, rfl, rfl, by simp [called, fresh, Code.after, State.start]⟩
    | succ count =>
        rw [(called_of_step_eq hm count).2]
        exact ⟨hcalled.tame.store, hcalled.output, hcalled.warnings, hcalled.finished⟩
  · intro earlier hlt
    rw [(called_of_step_eq hm earlier).1]
    exact hanswers earlier hlt

/-- Counts from three down, divides by what is left and jumps to a line that cannot be
jumped to. -/
def countdown : Code where
  lines :=
    let number (value : Nat) (h : Numeral.writable value = true) : Formula := .literal ⟨value, h⟩
    let n : Formula := .register ⟨13, false⟩
    [(⟨10, by decide +kernel⟩, .remark ⟨"counts \"down\"".toList, by decide⟩),
      (⟨20, by decide +kernel⟩, .assign ⟨13, false⟩ (.operation .times
        (.operation .plus (number 1 (by decide +kernel)) (number 2 (by decide +kernel)))
        (number 1 (by decide +kernel)))),
      (⟨30, by decide +kernel⟩, .print [.string ⟨['n'], by decide, by decide⟩, .value n]),
      (⟨40, by decide +kernel⟩, .assign ⟨13, true⟩
        (.operation .minus n (number 1 (by decide +kernel)))),
      (⟨50, by decide +kernel⟩, .branch (.compared n .greater (number 0 (by decide +kernel)))
        ⟨30, by decide +kernel⟩),
      (⟨60, by decide +kernel⟩, .print
        [.value (.operation .slash (number 7 (by decide +kernel)) n), .semicolon, .value n]),
      (⟨70, by decide +kernel⟩, .goto ⟨95, by decide +kernel⟩)]
  ascending := by decide

theorem executes_code_countdown :
    let size : WordSize := ⟨16, by decide⟩
    (∀ v, size.Fits v → Numeral.writable v = true) ∧
      (∀ earlier < 13, (countdown.after size earlier).status.isFailed = false) ∧
      ∃ m, load ⟨countdown.source, []⟩ size {} {} = .ok m ∧
        (m.called 13).output.text = "n 3\nn 2\nn 1\n0 0\n".toList ∧
        (m.called 13).reports.warnings = 1 ∧
        m.call 12 = .error (.error ⟨.missingLine 95, none, none⟩) := by
  intro size
  have hsize : ∀ v, size.Fits v → Numeral.writable v = true := by
    intro v hv
    have hbound : 100000 ≤ Numeral.bound :=
      Numeral.pow_le_bound (show 5 ≤ Numeral.limit by decide)
    have hhalf : size.half = 32768 := by decide
    obtain ⟨hlow, hhigh⟩ := hv
    rw [hhalf] at hlow hhigh
    rw [Numeral.writable_iff]
    omega
  have hrun : ∀ earlier < 13, (countdown.after size earlier).status.isFailed = false := by
    decide +kernel
  obtain ⟨m, hload, hcalls⟩ := executes_code countdown size hsize [] {}
  obtain ⟨hshows, hanswers⟩ := hcalls 13 hrun
  refine ⟨hsize, hrun, m, hload, ?_, ?_, ?_⟩
  · rw [hshows.output]
    decide +kernel
  · rw [hshows.warnings]
    decide +kernel
  · have hstatus : (countdown.after size (12 + 1)).status = .failed (.missingLine 95) := by
      decide +kernel
    have hanswer := hanswers 12 (by decide)
    generalize m.call 12 = answer at hanswer ⊢
    rw [hstatus] at hanswer
    cases hanswer
    rfl

end Machine

end LineBasic
