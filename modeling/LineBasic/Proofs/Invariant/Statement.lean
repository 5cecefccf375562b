import LineBasic.Proofs.Calls
import LineBasic.Proofs.Invariant

/-!
# Invariants of statements and steps

Statements and steps may be given an evaluator of expressions in place of the machine's
own. If the evaluator does the same on the machines of an invariant, so does the step, and
it keeps the invariant; with the machine's own evaluator this is what a step keeps, and
hence any number of calls.
-/
namespace LineBasic.Machine

variable {I : Invariant}

section
variable {evaluate : Run Int}

theorem relation_keeps (h : Keeps I I.Value expression evaluate) :
    Keeps I Whatever relation (relationWith evaluate) := by
  apply h.bind
  intro left _
  apply lexeme_keeps.bind
  intro l _
  cases l with
  | symbol sign =>
      cases hsign : sign.compares? with
      | none =>
          simp only [hsign]
          exact .pure trivial
      | some compares =>
          simp only [hsign]
          apply next_keeps.andThen
          apply h.bind
          intro right _
          apply (note_keeps _).andThen
          exact .pure trivial
  | _ => exact .pure trivial

theorem findLine_keeps (number : Int) :
    Keeps I Whatever (findLine number) (findLine number) := by
  have hskip : Keeps I (Round.Meets Whatever Whatever)
      (skipLine >>= fun _ => pure (Round.again () : Round Unit Bool))
      (skipLine >>= fun _ => pure (Round.again ())) :=
    skipLine_keeps.andThen (.pure trivial)
  apply moves_keeps.bind
  intro rounds _
  refine Keeps.iterate (P := Whatever) ?_ rounds trivial
  intro _ _
  apply lexeme_keeps.bind
  intro l _
  cases l with
  | sourceEnd => exact .pure trivial
  | number value =>
      simp only
      split
      · apply next_keeps.andThen
        exact .pure trivial
      · exact hskip
  | _ => exact hskip

theorem jump_keeps (number : Int) : Keeps I Whatever (jump number) (jump number) := by
  have hindexed : Keeps I Whatever (jumpIndexed number) (jumpIndexed number) := by
    apply Keeps.of_leaves
    intro m hm
    unfold jumpIndexed
    split
    · refine Keeps.leaves (y := onCursor Cursor.reset >>= fun _ => land number) ?_ hm
      apply (onCursor_keeps I.reset).andThen
      apply (findLine_keeps number).bind
      intro found _
      cases found with
      | true => exact .pure trivial
      | false =>
          simp only [Bool.not_false, if_true]
          exact failLine_keeps _ _
    · exact (failLine_keeps _ _).leaves hm
  apply Keeps.of_leaves
  intro m hm
  rw [jump_apply]
  split
  · exact (buildIndex_keeps.andThen hindexed).leaves hm
  · exact hindexed.leaves hm

theorem goto_keeps : Keeps I Whatever gotoStatement gotoStatement := by
  apply (accept_keeps _).andThen
  apply lexeme_keeps.bind
  intro target _
  apply (accept_keeps _).andThen
  apply (accept_keeps _).andThen
  cases target with
  | number value => exact jump_keeps value
  | _ => exact .pure trivial

theorem passLineEnd_keeps : Keeps I Whatever passLineEnd passLineEnd := by
  apply lexeme_keeps.bind
  intro l _
  split
  · exact next_keeps
  · exact .pure trivial

theorem if_keeps (h : Keeps I I.Value expression evaluate) :
    Keeps I Whatever ifStatement (ifStatementWith evaluate) := by
  apply (accept_keeps _).andThen
  apply (relation_keeps h).bind
  intro condition _
  apply (accept_keeps _).andThen
  apply lexeme_keeps.bind
  intro l _
  cases l with
  | number target =>
      apply next_keeps.andThen
      split
      · apply (note_keeps _).andThen
        exact jump_keeps _
      · exact passLineEnd_keeps
  | _ => exact failHere_keeps _

theorem let_keeps (h : Keeps I I.Value expression evaluate) :
    Keeps I Whatever letStatement (letStatementWith evaluate) := by
  apply lexeme_keeps.bind
  intro l _
  cases l with
  | letter letter =>
      apply next_keeps.andThen
      apply (accept_keeps _).andThen
      apply h.bind
      intro value hvalue
      apply (assign_keeps _ hvalue).andThen
      exact note_keeps _
  | _ => exact failHere_keeps _

theorem put_keeps (line : PrintLine) (piece : Text) (joined : Bool) :
    Keeps I Whatever (line.put piece joined) (line.put piece joined) := by
  apply (write_keeps piece).andThen
  exact .pure trivial

theorem setOff_keeps (line : PrintLine) : Keeps I Whatever line.setOff line.setOff := by
  unfold PrintLine.setOff
  split
  · exact put_keeps line [' '] true
  · exact .pure trivial

theorem printValue_keeps (h : Keeps I I.Value expression evaluate) (line : PrintLine) :
    Keeps I (Round.Meets Whatever Whatever) (printValue line) (do
      let line ← line.setOff
      let value ← evaluate
      if Numeral.writable value then return .again (← line.put (Numeral.decimal value) true)
      else throw .unwritable) := by
  apply (setOff_keeps line).bind
  intro line _
  apply h.bind
  intro value _
  split
  · exact (put_keeps line _ true).bind fun _ _ => .pure trivial
  · exact .throw .unwritable

theorem printElement_keeps (h : Keeps I I.Value expression evaluate) (line : PrintLine) :
    Keeps I (Round.Meets Whatever Whatever) (printElement line)
      (printElementWith evaluate line) := by
  have hstop : ∀ kind, Keeps I (Round.Meets Whatever Whatever)
      (note (.printStopped kind) >>= fun _ => pure (Round.done line : Round PrintLine PrintLine))
      (note (.printStopped kind) >>= fun _ => pure (Round.done line)) :=
    fun kind => (note_keeps _).andThen (.pure trivial)
  apply (lineNumber?_keeps _).bind
  intro number _
  cases number with
  | some number => exact .pure trivial
  | none =>
      apply lexeme_keeps.bind
      intro l _
      cases l with
      | string body =>
          apply (setOff_keeps line).bind
          intro line _
          apply (put_keeps line body true).bind
          intro line _
          apply next_keeps.andThen
          exact .pure trivial
      | separator mark =>
          apply (put_keeps line [' '] false).bind
          intro line _
          apply next_keeps.andThen
          exact .pure trivial
      | letter letter => exact printValue_keeps h line
      | number value => exact printValue_keeps h line
      | symbol sign =>
          cases sign with
          | openParen => exact printValue_keeps h line
          | _ => exact hstop _
      | keyword word => exact hstop _
      | lineEnd => exact .pure trivial
      | sourceEnd => exact .pure trivial

theorem endPrint_keeps : Keeps I Whatever endPrint endPrint := by
  apply (lineNumber?_keeps _).bind
  intro number _
  cases number with
  | some number => exact .pure trivial
  | none =>
      apply lexeme_keeps.bind
      intro l _
      cases l with
      | sourceEnd => exact finish_keeps
      | lineEnd => exact next_keeps
      | _ => exact .pure trivial

theorem print_keeps (h : Keeps I I.Value expression evaluate) :
    Keeps I Whatever printStatement (printStatementWith evaluate) := by
  apply (accept_keeps _).andThen
  apply moves_keeps.bind
  intro rounds _
  refine (Keeps.iterate (P := Whatever) (Q := Whatever)
    (fun line _ => printElement_keeps h line) rounds trivial).bind ?_
  intro line _
  apply (write_keeps _).andThen
  apply (note_keeps _).andThen
  exact endPrint_keeps

theorem statement_keeps (h : Keeps I I.Value expression evaluate) :
    Keeps I Whatever statement (statementWith evaluate) := by
  have hother : ∀ kind, Keeps I Whatever
      (note (.unrecognized kind) >>= fun _ => failHere .unrecognizedStatement : Run Unit)
      (note (.unrecognized kind) >>= fun _ => failHere .unrecognizedStatement) :=
    fun kind => (note_keeps _).andThen (failHere_keeps _)
  apply lexeme_keeps.bind
  intro l _
  cases l with
  | keyword word =>
      cases word with
      | REM => exact skipLine_keeps
      | PRINT => exact print_keeps h
      | IF => exact if_keeps h
      | GOTO => exact goto_keeps
      | LET =>
          apply (accept_keeps _).andThen
          exact let_keeps h
      | THEN => exact hother _
  | letter letter => exact let_keeps h
  | _ => exact hother _

theorem skipEmptyLines_keeps : Keeps I Whatever skipEmptyLines skipEmptyLines := by
  apply moves_keeps.bind
  intro rounds _
  refine Keeps.iterate (P := Whatever) ?_ rounds trivial
  intro _ _
  apply lexeme_keeps.bind
  intro l _
  cases l with
  | lineEnd =>
      apply next_keeps.andThen
      exact .pure trivial
  | _ => exact .pure trivial

theorem lineStatement_keeps (h : Keeps I I.Value expression evaluate) :
    Keeps I Whatever lineStatement (lineStatementWith evaluate) := by
  apply skipEmptyLines_keeps.andThen
  apply lexeme_keeps.bind
  intro l _
  cases l with
  | sourceEnd => exact finish_keeps
  | number value =>
      apply (note_keeps _).andThen
      apply next_keeps.andThen
      exact statement_keeps h
  | _ => exact statement_keeps h

theorem stepStarted_keeps (h : Keeps I I.Value expression evaluate) :
    Keeps I Whatever stepStarted (stepStartedWith evaluate) := by
  apply get_keeps.bind
  intro m _
  split
  · exact .pure trivial
  · apply get_keeps.bind
    intro m _
    split
    · exact finish_keeps.andThen (.pure trivial)
    · apply (lineStatement_keeps h).andThen
      exact get_keeps.bind fun _ _ => .pure trivial

theorem stepBody_keeps (h : Keeps I I.Value expression evaluate) :
    Keeps I Whatever stepBody (stepBodyWith evaluate) := by
  apply get_keeps.bind
  intro m _
  split
  · exact buildIndex_keeps.andThen (start_keeps.andThen (stepStarted_keeps h))
  · exact stepStarted_keeps h

/-- A step keeps an invariant, with either evaluator. -/
theorem step_keeps (h : Keeps I I.Value expression evaluate) :
    Keeps I Whatever step (stepWith evaluate) := by
  have hbody : Keeps I Whatever (stepBodyWith expression) (stepBodyWith evaluate) :=
    stepBody_keeps h
  have hreport : ∀ fault, Keeps I Whatever
      (do onReports (Reports.reportScan fault); throw fault : Run Bool)
      (do onReports (Reports.reportScan fault); throw fault) := by
    intro fault
    apply Keeps.of_leaves
    intro m hm
    simp only [bind_apply, onReports, Reports.reportScan_apply]
    exact .error (I.reports hm _)
  constructor
  · intro m hm
    simp only [step, stepWith, hbody.same hm]
  · intro m hm
    have hleaves := hbody.leaves hm
    unfold step stepWith
    generalize stepBodyWith expression m = r at hleaves ⊢
    cases hleaves with
    | ok _ hm' => exact .ok trivial hm'
    | error hm' => exact (hreport _).leaves hm'

end

/-- Without a guard nothing is held back. -/
theorem passes_id : Passes I fun x => x := fun h => h

theorem stepped_eq_leftBy (m : Machine) : m.stepped = leftBy step m := by
  unfold stepped leftBy
  cases step m <;> rfl

theorem holds_stepped {m : Machine} (h : I.Holds m) : I.Holds m.stepped := by
  rw [stepped_eq_leftBy]
  exact ((step_keeps (expression_keeps passes_id)).leaves h).holds_leftBy

theorem holds_called {m : Machine} (h : I.Holds m) (count : Nat) : I.Holds (m.called count) :=
  called_induction (P := I.Holds) (fun _ => holds_stepped) h count

end LineBasic.Machine
