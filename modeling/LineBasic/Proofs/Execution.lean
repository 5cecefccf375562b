import LineBasic.Proofs.Calls
import LineBasic.Proofs.Evaluation
import LineBasic.Proofs.Layout

/-!
# Instructions are executed

A machine before a line executes its instruction: it works as the instruction says and
is then before the line below. Every instruction leaves the cursor in its own way: an
assignment on the line end, a remark, a printed line and a branch that is not taken
behind it. A taken branch and a goto end in a jump, which goes through the lines from
the first one on.
-/
namespace LineBasic.Machine

variable {m m' : Machine} {registers : Registers} {ls : List Lexeme} {below : Text}
  {line : Line} {rest lines : List Line}

theorem skipLine_works (h : m.cursor.OnLine (line :: rest)) :
    ∃ m', skipLine m = .ok () m' ∧ Worked m m' [] 0 ∧ m'.cursor.OnLine rest ∧
      m'.toGo < m.toGo := by
  obtain ⟨d, hd, hline, hsheet, hlength⟩ := h.skipLine
  exact ⟨_, onCursor_of_ok hd, worked_movedTo m hsheet, hline, hlength⟩

theorem nextLine_works (h : m.cursor.Sees [] (linesText lines)) :
    ∃ m', next m = .ok () m' ∧ Worked m m' [] 0 ∧ m'.cursor.OnLine lines := by
  obtain ⟨d, hd, hline, hsheet⟩ := h.onLine
  exact ⟨_, onCursor_of_ok hd, worked_movedTo m hsheet, hline⟩

theorem number_works (h : m.cursor.OnLine (line :: rest)) :
    ∃ m', next m = .ok () m' ∧ Worked m m' [] 0 ∧ m'.cursor.OnInstruction line.2 rest := by
  obtain ⟨d, hd, hline, hsheet⟩ := h.next
  exact ⟨_, onCursor_of_ok hd, worked_movedTo m hsheet, hline⟩

/-- The line end above is passed. -/
theorem skipEmptyLines_works (h : m.cursor.Before lines) :
    ∃ m', skipEmptyLines m = .ok () m' ∧ Worked m m' [] 0 ∧
      (m'.cursor.OnLine lines ∨ ∃ line rest, lines = line :: rest ∧
        m'.cursor.OnInstruction line.2 rest) := by
  have hstay : m.cursor.token.lexeme ≠ .lineEnd → skipEmptyLines m = .ok () m :=
    fun hne => iterate_of_done (passEmptyLine_of_ne hne)
  have hlineNe : ∀ {c : Cursor}, c.OnLine lines → c.token.lexeme ≠ .lineEnd := by
    intro c hc
    cases lines with
    | nil => simp [hc.lexeme_nil]
    | cons line rest => simp [hc.number.1]
  cases h with
  | line hline => exact ⟨m, hstay (hlineNe hline), .refl m, .inl hline⟩
  | lineEnd hsees =>
      obtain ⟨m₁, hnext, hworked, hline⟩ := nextLine_works hsees
      have hless : m₁.toGo < m.toGo := by
        have hend : m.cursor.token.lexeme = .lineEnd := hsees.here_nil.1
        have hlength := hsees.length_behind (by simp [hend])
        rwa [hsees.here_nil.2, ← hline.lines] at hlength
      have hrounds := Rounds.one (passEmptyLine_of_lineEnd hsees.here_nil.1 hnext) hless
      refine ⟨m₁, ?_, hworked, .inl hline⟩
      exact hrounds.iterate (passEmptyLine_of_ne (hlineNe hline)) m.toGo_lt_moves
  | @instruction line rest hinstruction =>
      obtain ⟨word, hword⟩ := hinstruction.keyword
      exact ⟨m, hstay (by simp [hword]), .refl m, .inr ⟨line, rest, rfl, hinstruction⟩⟩

/-- Below the last line the machine finishes. -/
theorem lineStatement_nil (h : m.cursor.Before []) :
    ∃ m', Worked m m' [] 0 ∧ lineStatement m = .ok () { m' with finished := true } := by
  obtain ⟨m', hskip, hworked, hline | ⟨line, rest, hnil, -⟩⟩ := skipEmptyLines_works h
  · refine ⟨m', hworked, ?_⟩
    unfold lineStatement lineStatementWith
    rw [bind_of_ok hskip, lexeme_bind_apply, hline.lexeme_nil]
    rfl
  · cases hnil

/-- At a line the machine goes on with the line's instruction. -/
theorem lineStatement_cons (h : m.cursor.Before (line :: rest)) :
    ∃ m', Worked m m' [] 0 ∧ m'.cursor.OnInstruction line.2 rest ∧
      lineStatement m = statement m' := by
  obtain ⟨m₁, hskip, hworked, hline | ⟨_, _, hcons, hinstruction⟩⟩ := skipEmptyLines_works h
  · have hwritable : (Event.lineReached line.1.value).writable = true := line.1.writable
    obtain ⟨m₂, hnote, hworked₂, hcursor⟩ := note_works hwritable m₁
    rw [← hcursor] at hline
    obtain ⟨m₃, hnext, hworked₃, hinstruction⟩ := number_works hline
    refine ⟨m₃, (hworked.trans hworked₂).trans hworked₃, hinstruction, ?_⟩
    unfold lineStatement lineStatementWith
    rw [bind_of_ok hskip, lexeme_bind_apply, ← hcursor, hline.number.1]
    simp only
    rw [bind_of_ok hnote, bind_of_ok hnext]
    rfl
  · cases hcons
    obtain ⟨word, hword⟩ := hinstruction.keyword
    refine ⟨m₁, hworked, hinstruction, ?_⟩
    unfold lineStatement lineStatementWith
    rw [bind_of_ok hskip, lexeme_bind_apply, hword]
    rfl

theorem remark_executed {r : Remark} (h : m.cursor.OnInstruction (.remark r) rest) :
    ∃ m', statement m = .ok () m' ∧ Worked m m' [] 0 ∧ m'.cursor.Before rest := by
  have hlexeme : m.cursor.token.lexeme = .keyword .REM := by
    have hread := h.here
    rw [h.line, Instruction.text_remark, List.append_assoc, Lexeme.read_keyword] at hread
    simp only [Except.ok.injEq, Prod.mk.injEq] at hread
    exact hread.1.symm
  obtain ⟨d, hd, hsteady, hsheet, hahead, -⟩ := h.toSteady.skipLine (by simp [hlexeme])
  have hline : d.OnLine rest := by
    refine ⟨hsteady, ?_⟩
    rw [hahead, h.line, Text.afterLine_append (Instruction.newline_notMem_text _)]
    exact pastGap_linesText rest
  refine ⟨_, ?_, worked_movedTo m hsheet, .line hline⟩
  unfold statement statementWith
  rw [lexeme_bind_apply, hlexeme]
  exact onCursor_of_ok hd

def holding (m : Machine) (registers : Registers) : Machine :=
  { m with store := .holding registers }

theorem assign_holding (h : Tame m registers) (name : Name) (value : Int) :
    assign (Text.lower [name.letter]) value m =
      .ok () (m.holding (registers.set name.register value)) := by
  have hset : m.store.assign (Text.lower [name.letter]) value =
      .ok (.holding (registers.set name.register value)) := by
    rw [h.store, name.lower_letter, Store.assign, Name.lower_key, Store.set_holding]
  unfold assign
  rw [get_bind_apply, hset]
  rfl

theorem assign_executed (htame : Tame m registers) {name : Name} {formula : Formula}
    (h : m.cursor.OnInstruction (.assign name formula) rest) :
    ∃ m', statement m = .ok () m' ∧ m'.cursor.Before rest ∧
      ∃ m₁, Worked m m₁ [] (formula.warnings m.size registers) ∧
        Worked (m₁.holding (registers.set name.register (formula.value m.size registers)))
          m' [] 0 := by
  have hsees := h.sees (by simp)
  obtain ⟨m₁, haccept, hworked₁, hsees₁⟩ := accept_works (.keyword .LET) hsees rfl
  obtain ⟨m₂, hnext, hworked₂, hsees₂⟩ := next_works hsees₁
  obtain ⟨m₃, hequal, hworked₃, hsees₃⟩ := accept_works (.symbol .equal) hsees₂ rfl
  have hworked := (hworked₁.trans hworked₂).trans hworked₃
  rw [← List.append_nil (formula.lexemes 0)] at hsees₃
  obtain ⟨m₄, hvalue, hworked₄, hsees₄⟩ := expression_gives (htame.worked hworked) hsees₃ rfl
  rw [hworked.size] at hvalue hworked₄
  have htame₄ := (htame.worked hworked).worked hworked₄
  have hwritable : (Event.assigned (Text.lower [name.letter])
      (formula.value m.size registers)).writable = true :=
    htame.writable _ (Formula.fits_value htame.fits formula)
  obtain ⟨m₅, hnote, hworked₅, hcursor⟩ := note_works hwritable
    (m₄.holding (registers.set name.register (formula.value m.size registers)))
  refine ⟨m₅, ?_, .lineEnd (by rw [hcursor]; exact hsees₄), m₄, ?_, hworked₅⟩
  · unfold statement statementWith
    rw [lexeme_bind_apply, hsees.here_cons.1]
    simp only
    rw [bind_of_ok haccept]
    unfold letStatementWith
    rw [lexeme_bind_apply, hsees₁.here_cons.1]
    simp only
    unfold assignToWith
    rw [bind_of_ok hnext, bind_of_ok hequal, bind_of_ok hvalue,
      bind_of_ok (assign_holding htame₄ name _), hnote]
  · simpa using hworked.trans hworked₄

theorem put_works (printed : PrintLine) (piece : Text) (joined : Bool)
    (h : m.output.alarms = []) :
    ∃ m', printed.put piece joined m = .ok ⟨printed.written ++ piece, joined⟩ m' ∧
      Worked m m' piece 0 ∧ m'.cursor = m.cursor := by
  obtain ⟨m', hwrite, hworked, hcursor⟩ := write_works piece h
  exact ⟨m', bind_of_ok hwrite, hworked, hcursor⟩

theorem setOff_works (printed : PrintLine) (h : m.output.alarms = []) :
    ∃ printed' m', printed.setOff m = .ok printed' m' ∧
      Worked m m' (if printed.joined then [' '] else []) 0 ∧ m'.cursor = m.cursor := by
  unfold PrintLine.setOff
  cases printed.joined with
  | true =>
      obtain ⟨m', hput, hworked, hcursor⟩ := put_works printed [' '] true h
      exact ⟨_, m', hput, hworked, hcursor⟩
  | false => exact ⟨printed, m, rfl, .refl m, rfl⟩

/-- No element starts with a number. -/
theorem printElement_of_ne (printed : PrintLine)
    (h : ∀ value, m.cursor.token.lexeme ≠ .number value) :
    printElement printed m = printItem printed m := by
  rw [printElement_apply, lineNumber?_of_ne h]
  rfl

theorem separator_works (hquiet : m.output.alarms = []) (printed : PrintLine)
    {mark : Char} (h : m.cursor.Sees (.separator mark :: ls) below) :
    ∃ m', printElement printed m = .ok (.again ⟨printed.written ++ [' '], false⟩) m' ∧
      Worked m m' [' '] 0 ∧ m'.cursor.Sees ls below := by
  have hlexeme : m.cursor.token.lexeme = .separator mark := h.here_cons.1
  obtain ⟨m₁, hput, hworked₁, hcursor⟩ := put_works printed [' '] false hquiet
  rw [← hcursor] at h
  obtain ⟨m₂, hnext, hworked₂, hsees⟩ := next_works h
  refine ⟨m₂, ?_, hworked₁.trans hworked₂, hsees⟩
  rw [printElement_of_ne printed (by simp [hlexeme])]
  unfold printItem printItemWith
  rw [lexeme_bind_apply, hlexeme]
  simp only
  rw [bind_of_ok hput, bind_of_ok hnext]
  rfl

/-- A round of printing writes one element. -/
theorem printElement_works (htame : Tame m registers) (hquiet : m.output.alarms = [])
    (printed : PrintLine) {element : Element} (h : m.cursor.Sees (element.lexemes ++ ls) below)
    (hend : (ls.headD .lineEnd).operates = false) :
    ∃ printed' m', printElement printed m = .ok (.again printed') m' ∧
      printed'.joined = element.joins ∧
      Worked m m' (element.piece m.size registers printed.joined)
        (element.warnings m.size registers) ∧ m'.cursor.Sees ls below := by
  cases element with
  | string quotation =>
      have hlexeme : m.cursor.token.lexeme = .string quotation.body := h.here_cons.1
      obtain ⟨printed₁, m₁, hsetOff, hworked₁, hcursor₁⟩ := setOff_works printed hquiet
      obtain ⟨m₂, hput, hworked₂, hcursor₂⟩ :=
        put_works printed₁ quotation.body true (hworked₁.alarms.trans hquiet)
      rw [← hcursor₁, ← hcursor₂] at h
      obtain ⟨m₃, hnext, hworked₃, hsees⟩ := next_works h
      refine ⟨⟨printed₁.written ++ quotation.body, true⟩, m₃, ?_, rfl, ?_, hsees⟩
      · rw [printElement_of_ne printed (by simp [hlexeme])]
        unfold printItem printItemWith
        rw [lexeme_bind_apply, hlexeme]
        simp only
        rw [bind_of_ok hsetOff, bind_of_ok hput, bind_of_ok hnext]
        rfl
      · simpa [Element.piece, Element.warnings] using (hworked₁.trans hworked₂).trans hworked₃
  | value formula =>
      have hlexeme : m.cursor.token.lexeme = .symbol .openParen := h.here_cons.1
      obtain ⟨printed₁, m₁, hsetOff, hworked₁, hcursor₁⟩ := setOff_works printed hquiet
      rw [← hcursor₁] at h
      obtain ⟨m₂, hvalue, hworked₂, hsees⟩ :=
        expression_gives_enclosed (htame.worked hworked₁) h hend
      rw [hworked₁.size] at hvalue hworked₂
      have hwritable := htame.writable _ (Formula.fits_value htame.fits formula)
      have hworked := hworked₁.trans hworked₂
      obtain ⟨m₃, hput, hworked₃, hcursor₃⟩ := put_works printed₁
        (Numeral.decimal (formula.value m.size registers)) true
        (hworked.alarms.trans hquiet)
      refine ⟨⟨printed₁.written ++ Numeral.decimal (formula.value m.size registers), true⟩, m₃,
        ?_, rfl, ?_, by rwa [hcursor₃]⟩
      · rw [printElement_of_ne printed (by simp [hlexeme])]
        unfold printItem printItemWith
        rw [lexeme_bind_apply, hlexeme]
        show printValue printed m = _
        unfold printValue printValueWith
        rw [bind_of_ok hsetOff, bind_of_ok hvalue, if_pos hwritable, bind_of_ok hput]
        rfl
      · simpa [Element.piece, Element.warnings] using hworked.trans hworked₃
  | comma =>
      obtain ⟨m', hround, hworked, hsees⟩ := separator_works hquiet printed h
      exact ⟨_, m', hround, rfl, hworked, hsees⟩
  | semicolon =>
      obtain ⟨m', hround, hworked, hsees⟩ := separator_works hquiet printed h
      exact ⟨_, m', hround, rfl, hworked, hsees⟩

theorem operates_elements (elements : List Element) :
    ((elements.flatMap Element.lexemes).headD .lineEnd).operates = false := by
  cases elements with
  | nil => rfl
  | cons element rest => cases element <;> rfl

theorem print_rounds (elements : List Element) (htame : Tame m registers)
    (hquiet : m.output.alarms = []) (printed : PrintLine)
    (h : m.cursor.Sees (elements.flatMap Element.lexemes) below) :
    ∃ printed' m', Rounds printElement printed m printed' m' ∧
      Worked m m' (Element.written m.size registers printed.joined elements)
        (Element.allWarnings m.size registers elements) ∧ m'.cursor.Sees [] below := by
  induction elements generalizing m printed with
  | nil => exact ⟨printed, m, .refl _ _, .refl m, h⟩
  | cons element rest ih =>
      rw [List.flatMap_cons] at h
      obtain ⟨printed₁, m₁, hround, hjoined, hworked₁, hsees₁⟩ :=
        printElement_works htame hquiet printed h (operates_elements rest)
      have hless : m₁.toGo < m.toGo := by
        cases element <;> exact Cursor.Sees.length_lt h hsees₁
      obtain ⟨printed₂, m₂, hrounds, hworked₂, hsees₂⟩ :=
        ih (htame.worked hworked₁) (hworked₁.alarms.trans hquiet) printed₁ hsees₁
      rw [hworked₁.size, hjoined] at hworked₂
      exact ⟨printed₂, m₂, .again hround hless hrounds, hworked₁.trans hworked₂, hsees₂⟩

theorem print_executed (htame : Tame m registers) (hquiet : m.output.alarms = [])
    {elements : List Element} (h : m.cursor.OnInstruction (.print elements) rest) :
    ∃ m', statement m = .ok () m' ∧ m'.cursor.Before rest ∧
      Worked m m' (Element.written m.size registers false elements ++ ['\n'])
        (Element.allWarnings m.size registers elements) := by
  have hsees := h.sees (by simp)
  obtain ⟨m₁, haccept, hworked₁, hsees₁⟩ := accept_works (.keyword .PRINT) hsees rfl
  obtain ⟨printed, m₂, hrounds, hworked₂, hsees₂⟩ := print_rounds elements
    (htame.worked hworked₁) (hworked₁.alarms.trans hquiet) ⟨[], false⟩ hsees₁
  rw [hworked₁.size] at hworked₂
  have hend₂ : m₂.cursor.token.lexeme = .lineEnd := hsees₂.here_nil.1
  have hdone : printElement printed m₂ = .ok (.done printed) m₂ := by
    rw [printElement_of_ne printed (by simp [hend₂])]
    unfold printItem printItemWith
    rw [lexeme_bind_apply, hend₂]
    rfl
  have hloop : (moves >>= fun n => iterate printElement n ⟨[], false⟩) m₁ = .ok printed m₂ := by
    rw [moves_bind_apply]
    exact hrounds.iterate hdone m₁.toGo_lt_moves
  have hworked := hworked₁.trans hworked₂
  obtain ⟨m₃, hwrite, hworked₃, hcursor₃⟩ :=
    write_works ['\n'] (hworked.alarms.trans hquiet)
  have hwritable : (Event.printed printed.written).writable = true := rfl
  obtain ⟨m₄, hnote, hworked₄, hcursor₄⟩ := note_works hwritable m₃
  rw [← hcursor₃, ← hcursor₄] at hsees₂ hend₂
  obtain ⟨m₅, hnext, hworked₅, hline⟩ := nextLine_works hsees₂
  have hpass : endPrint m₄ = .ok () m₅ := by
    unfold endPrint
    rw [lineNumber?_bind_apply, lineNumber?_of_ne (by simp [hend₂])]
    simp only [Option.isNone_none, if_true]
    rw [lexeme_bind_apply, hend₂]
    exact hnext
  refine ⟨m₅, ?_, .line hline, ?_⟩
  · unfold statement statementWith
    rw [lexeme_bind_apply, hsees.here_cons.1]
    show (accept (.keyword .PRINT) >>= fun _ =>
      (moves >>= fun n => iterate printElement n ⟨[], false⟩) >>= fun printed =>
        write ['\n'] >>= fun _ => note (.printed printed.written) >>= fun _ => endPrint) m = _
    rw [bind_of_ok haccept, bind_of_ok hloop, bind_of_ok hwrite, bind_of_ok hnote, hpass]
  · simpa using ((hworked.trans hworked₃).trans hworked₄).trans hworked₅

def Indexed (m : Machine) : Prop :=
  ∀ number, number ∈ m.index.numbers ↔ m.cursor.sheet.text.Numbers number

theorem Indexed.worked (h : Indexed m) {piece : Text} {w : Nat} (hw : Worked m m' piece w) :
    Indexed m' := by
  unfold Indexed
  rw [hw.index, hw.sheet]
  exact h

/-- An index that is empty is built again, which gives the same. -/
theorem jump_prepared (hindexed : Indexed m) (hreadable : m.cursor.sheet.text.Readable)
    (number : Int) : ∃ m', jump number m = jumpIndexed number m' ∧ Worked m m' [] 0 := by
  rw [jump_apply]
  split
  · rename_i hempty
    obtain ⟨first, hstart, -, hsheet, -⟩ := Cursor.Steady.start _ hreadable
    obtain ⟨index, hbuild, hnumbers, hwritable⟩ := survey_of_readable hstart hreadable
    have hsame : index = m.index := by
      have hold : m.index.numbers = [] := List.isEmpty_iff.1 hempty
      have hnew : index.numbers = [] := by
        rw [List.eq_nil_iff_forall_not_mem]
        intro k hk
        have hk' := (hindexed k).2 ((hnumbers k).1 hk)
        rw [hold] at hk'
        cases hk'
      generalize m.index = other at hold ⊢
      cases index
      cases other
      exact congrArg LineIndex.mk (hnew.trans hold.symm)
    refine ⟨_, bind_of_ok (buildIndex_of_build hbuild hwritable), ?_⟩
    exact ⟨rfl, rfl, hsame, rfl, rfl, hsheet, (List.append_nil _).symm, rfl, by simp⟩
  · exact ⟨m, rfl, .refl m⟩

/-- A line with another number is skipped. -/
theorem seekLine_past {target : Nat} (h : m.cursor.OnLine (line :: rest))
    (hne : line.1.value ≠ target) :
    ∃ m', seekLine target () m = .ok (.again ()) m' ∧ m'.toGo < m.toGo ∧ Worked m m' [] 0 ∧
      m'.cursor.OnLine rest := by
  obtain ⟨m', hskip, hworked, hline, hless⟩ := skipLine_works h
  refine ⟨m', ?_, hless, hworked, hline⟩
  have hvalue : ((line.1.value : Nat) : Int) ≠ target := by exact_mod_cast hne
  unfold seekLine
  rw [lexeme_bind_apply, h.number.1]
  simp only
  rw [if_neg hvalue, bind_of_ok hskip]
  rfl

/-- The lines are gone through up to one with the number. -/
theorem seekLine_rounds {target : Nat} (h : m.cursor.OnLine lines) :
    ∃ m', Rounds (seekLine target) () m () m' ∧ Worked m m' [] 0 ∧
      m'.cursor.OnLine (lines.drop (lines.findIdx (·.1.value = target))) := by
  induction lines generalizing m with
  | nil => exact ⟨m, .refl _ _, .refl m, h⟩
  | cons line rest ih =>
      by_cases hvalue : line.1.value = target
      · refine ⟨m, .refl _ _, .refl m, ?_⟩
        simpa [List.findIdx_cons, hvalue] using h
      · obtain ⟨m₁, hround, hless, hworked₁, hline⟩ := seekLine_past h hvalue
        obtain ⟨m₂, hrounds, hworked₂, hfound⟩ := ih hline
        refine ⟨m₂, .again hround hless hrounds, hworked₁.trans hworked₂, ?_⟩
        simpa [List.findIdx_cons, hvalue] using hfound

theorem findLine_apply (number : Int) (m : Machine) :
    findLine number m = iterate (seekLine number) (m.cursor.sheet.text.length + 1) () m := rfl

theorem findLine_found {target place : Nat} (h : m.cursor.OnLine lines)
    (hplace : lines.findIdx? (·.1.value = target) = some place) :
    ∃ m', findLine target m = .ok true m' ∧ Worked m m' [] 0 ∧
      m'.cursor.Before (lines.drop place) := by
  obtain ⟨hlt, hidx⟩ := List.findIdx?_eq_some_iff_findIdx_eq.1 hplace
  obtain ⟨m₁, hrounds, hworked₁, hline⟩ := seekLine_rounds h
  have hdrop := List.drop_eq_getElem_cons hlt
  have htarget : lines[place].1.value = target := by
    have hfound := List.findIdx_getElem (w := hidx ▸ hlt)
    simpa [hidx] using hfound
  rw [hidx, hdrop] at hline
  obtain ⟨m₂, hnext, hworked₂, hinstruction⟩ := number_works hline
  have hdone : seekLine target () m₁ = .ok (.done true) m₂ := by
    unfold seekLine
    rw [lexeme_bind_apply, hline.number.1]
    simp only
    rw [if_pos (by rw [htarget]), bind_of_ok hnext]
    rfl
  refine ⟨m₂, ?_, hworked₁.trans hworked₂, ?_⟩
  · rw [findLine_apply]
    exact hrounds.iterate hdone m.toGo_lt_moves
  · rw [hdrop]
    exact .instruction hinstruction

theorem findLine_missing {target : Nat} (h : m.cursor.OnLine lines)
    (hplace : lines.findIdx? (·.1.value = target) = none) :
    ∃ m', findLine target m = .ok false m' ∧ Worked m m' [] 0 := by
  have hidx := List.findIdx?_eq_none_iff_findIdx_eq.1 hplace
  obtain ⟨m', hrounds, hworked, hline⟩ := seekLine_rounds h
  rw [hidx, List.drop_length] at hline
  have hdone : seekLine target () m' = .ok (.done false) m' := by
    unfold seekLine
    rw [lexeme_bind_apply, hline.lexeme_nil]
    rfl
  refine ⟨m', ?_, hworked⟩
  rw [findLine_apply]
  exact hrounds.iterate hdone m.toGo_lt_moves

/-- A goto is a jump, and its target is a line number of the text if it reads as one. -/
theorem goto_executed {target : Literal} (h : m.cursor.OnInstruction (.goto target) rest) :
    ∃ m', statement m = jump target.value m' ∧ Worked m m' [] 0 ∧
      (Cursor.isLineNumber target.value = true → m.cursor.sheet.text.Numbers target.value) := by
  have hsees := h.sees (by simp)
  obtain ⟨m₁, haccept, hworked₁, hsees₁⟩ := accept_works (.keyword .GOTO) hsees rfl
  obtain ⟨m₂, hnumber, hworked₂, hsees₂⟩ := accept_works .number hsees₁ rfl
  obtain ⟨m₃, hnext, hworked₃, -⟩ := nextLine_works hsees₂
  have hend : accept .lineEnd m₂ = .ok () m₃ := by
    have hkind : m₂.cursor.token.lexeme.kind = .lineEnd := by
      rw [hsees₂.here_nil.1]
      rfl
    rw [accept_apply, if_pos hkind, hnext]
  refine ⟨m₃, ?_, (hworked₁.trans hworked₂).trans hworked₃, ?_⟩
  · unfold statement statementWith
    rw [lexeme_bind_apply, hsees.here_cons.1]
    simp only
    unfold gotoStatement
    rw [bind_of_ok haccept, lexeme_bind_apply, bind_of_ok hnumber, bind_of_ok hend,
      hsees₁.here_cons.1]
  · rw [← hworked₁.sheet]
    exact hsees₁.numbers

/-- A branch has read its target before it jumps or goes on. -/
theorem branch_executed (htame : Tame m registers) {condition : Condition} {target : Literal}
    (h : m.cursor.OnInstruction (.branch condition target) rest) :
    ∃ m', Worked m m' [] (condition.warnings m.size registers) ∧
      (Cursor.isLineNumber target.value = true → m.cursor.sheet.text.Numbers target.value) ∧
      (if condition.holds m.size registers then statement m = jump target.value m'
        else statement m = .ok () m' ∧ m'.cursor.Before rest) := by
  have hsees := h.sees (by simp)
  obtain ⟨m₁, haccept, hworked₁, hsees₁⟩ := accept_works (.keyword .IF) hsees rfl
  obtain ⟨m₂, hrelation, hworked₂, hsees₂⟩ := relation_gives (htame.worked hworked₁) hsees₁
  rw [hworked₁.size] at hrelation hworked₂
  obtain ⟨m₃, hthen, hworked₃, hsees₃⟩ := accept_works (.keyword .THEN) hsees₂ rfl
  obtain ⟨m₄, hnumber, hworked₄, hsees₄⟩ := next_works hsees₃
  have hworked := ((hworked₁.trans hworked₂).trans hworked₃).trans hworked₄
  have hnumbers : Cursor.isLineNumber target.value = true →
      m.cursor.sheet.text.Numbers target.value := by
    rw [← hworked₁.sheet, ← hworked₂.sheet, ← hworked₃.sheet]
    exact hsees₃.numbers
  have hstatement : statement m =
      (if (if condition.holds m.size registers then 1 else 0 : Int) ≠ 0 then
        note (.jumped target.value) >>= fun _ => jump target.value
      else passLineEnd) m₄ := by
    unfold statement statementWith
    rw [lexeme_bind_apply, hsees.here_cons.1]
    simp only
    unfold ifStatementWith
    have hrelation : relationWith expression m₁ = _ := hrelation
    rw [bind_of_ok haccept, bind_of_ok hrelation, bind_of_ok hthen, lexeme_bind_apply,
      hsees₃.here_cons.1]
    simp only
    rw [bind_of_ok hnumber]
  cases hholds : condition.holds m.size registers with
  | true =>
      have hwritable : (Event.jumped target.value).writable = true := target.writable
      obtain ⟨m₅, hnote, hworked₅, -⟩ := note_works hwritable m₄
      refine ⟨m₅, by simpa using hworked.trans hworked₅, hnumbers, ?_⟩
      rw [if_pos rfl, hstatement, hholds, if_pos (by simp), bind_of_ok hnote]
  | false =>
      obtain ⟨m₅, hnext, hworked₅, hline⟩ := nextLine_works hsees₄
      refine ⟨m₅, by simpa using hworked.trans hworked₅, hnumbers, ?_⟩
      have hpass : passLineEnd m₄ = .ok () m₅ := by
        unfold passLineEnd
        rw [lexeme_bind_apply, if_pos hsees₄.here_nil.1, hnext]
      rw [if_neg (by simp), hstatement, hholds, if_neg (by simp), hpass]
      exact ⟨rfl, .line hline⟩

end LineBasic.Machine
