import LineBasic.Proofs.Effects

/-!
# What statements and steps can do

Statements are followed as expressions were. A step shows the failures to read a lexeme
that its body left unshown, so a step that raises an error shows exactly this error, at
its very end, and a step that does not shows no error.
-/
namespace LineBasic.Machine

theorem findLine_acts (number : Int) : Acts (findLine number) := by
  have hskip : Acts (skipLine >>= fun _ => pure (Round.again () : Round Unit Bool)) :=
    skipLine_acts.andThen (.pure _)
  apply moves_acts.bind
  intro rounds
  refine Acts.iterate ?_ rounds ()
  intro _
  apply lexeme_acts.bind
  intro l
  cases l with
  | sourceEnd => exact .pure _
  | number value =>
      simp only
      split
      · apply next_acts.andThen
        exact .pure _
      · exact hskip
  | _ => exact hskip

theorem land_acts (number : Int) : Acts (land number) := by
  apply (findLine_acts number).bind
  intro found
  cases found with
  | true => exact .pure _
  | false =>
      simp only [Bool.not_false, if_true]
      exact failLine_acts (by simp [Cause.errorClass])

theorem jumpIndexed_acts (number : Int) : Acts (jumpIndexed number) := by
  intro m
  unfold jumpIndexed
  split
  · exact (onCursor_acts (Cursor.moveTo_quiet _ _)).andThen (land_acts number) m
  · exact failLine_acts (by simp [Cause.errorClass]) m

theorem jump_acts (number : Int) : Acts (jump number) := by
  intro m
  rw [jump_apply]
  split
  · exact buildIndex_acts.andThen (jumpIndexed_acts number) m
  · exact jumpIndexed_acts number m

theorem goto_acts : Acts gotoStatement := by
  apply (accept_acts _).andThen
  apply lexeme_acts.bind
  intro target
  apply (accept_acts _).andThen
  apply (accept_acts _).andThen
  cases target with
  | number value => exact jump_acts value
  | _ => exact .pure _

theorem passLineEnd_acts : Acts passLineEnd := by
  apply lexeme_acts.bind
  intro l
  split
  · exact next_acts
  · exact .pure _

theorem if_acts : Acts ifStatement := by
  apply (accept_acts _).andThen
  apply relation_acts.bind
  intro condition
  apply (accept_acts _).andThen
  apply lexeme_acts.bind
  intro l
  cases l with
  | number target =>
      apply next_acts.andThen
      split
      · apply (note_acts (.jumped target) trivial).andThen
        exact jump_acts _
      · exact passLineEnd_acts
  | _ => exact failHere_acts (by simp [Cause.errorClass])

theorem let_acts : Acts letStatement := by
  apply lexeme_acts.bind
  intro l
  cases l with
  | letter letter =>
      apply next_acts.andThen
      apply (accept_acts _).andThen
      apply expression_acts.bind
      intro value
      apply (assign_acts _ value).andThen
      exact note_acts (.assigned _ value) trivial
  | _ => exact failHere_acts (by simp [Cause.errorClass])

theorem put_acts (line : PrintLine) (piece : Text) (joined : Bool) :
    Acts (line.put piece joined) := by
  apply (write_acts piece).andThen
  exact .pure _

theorem setOff_acts (line : PrintLine) : Acts line.setOff := by
  unfold PrintLine.setOff
  split
  · exact put_acts line [' '] true
  · exact .pure _

theorem printValue_acts (line : PrintLine) : Acts (printValue line) := by
  apply (setOff_acts line).bind
  intro line
  apply expression_acts.bind
  intro value
  split
  · exact (put_acts line _ true).bind fun _ => .pure _
  · exact .throw (f := .unwritable) trivial

theorem printItem_acts (line : PrintLine) : Acts (printItem line) := by
  have hstop : ∀ kind, Acts (note (.printStopped kind) >>= fun _ =>
      pure (Round.done line : Round PrintLine PrintLine)) :=
    fun kind => (note_acts (.printStopped kind) trivial).andThen (.pure _)
  apply lexeme_acts.bind
  intro l
  cases l with
  | string body =>
      apply (setOff_acts line).bind
      intro line
      apply (put_acts line body true).bind
      intro line
      apply next_acts.andThen
      exact .pure _
  | separator mark =>
      apply (put_acts line [' '] false).bind
      intro line
      apply next_acts.andThen
      exact .pure _
  | letter letter => exact printValue_acts line
  | number value => exact printValue_acts line
  | symbol sign =>
      cases sign with
      | openParen => exact printValue_acts line
      | _ => exact hstop _
  | keyword word => exact hstop _
  | lineEnd => exact .pure _
  | sourceEnd => exact .pure _

theorem printElement_acts (line : PrintLine) : Acts (printElement line) := by
  intro m
  rw [printElement_apply]
  split
  · exact .ok .refl
  · exact printItem_acts line m

theorem endPrint_acts : Acts endPrint := by
  apply (lineNumber?_acts false).bind
  intro number
  cases number with
  | some number => exact .pure _
  | none =>
      apply lexeme_acts.bind
      intro l
      cases l with
      | sourceEnd => exact finish_acts
      | lineEnd => exact next_acts
      | _ => exact .pure _

theorem print_acts : Acts printStatement := by
  apply (accept_acts _).andThen
  apply moves_acts.bind
  intro rounds
  apply (Acts.iterate printElement_acts rounds ⟨[], false⟩).bind
  intro line
  apply (write_acts _).andThen
  apply (note_acts (.printed line.written) trivial).andThen
  exact endPrint_acts

theorem statement_acts : Acts statement := by
  have hother : ∀ kind, Acts (note (.unrecognized kind) >>= fun _ =>
      failHere .unrecognizedStatement : Run Unit) :=
    fun kind => (note_acts (.unrecognized kind) trivial).andThen
      (failHere_acts (by simp [Cause.errorClass]))
  apply lexeme_acts.bind
  intro l
  cases l with
  | keyword word =>
      cases word with
      | REM => exact skipLine_acts
      | PRINT => exact print_acts
      | IF => exact if_acts
      | GOTO => exact goto_acts
      | LET =>
          apply (accept_acts _).andThen
          exact let_acts
      | THEN => exact hother _
  | letter letter => exact let_acts
  | _ => exact hother _

theorem skipEmptyLines_acts : Acts skipEmptyLines := by
  apply moves_acts.bind
  intro rounds
  refine Acts.iterate ?_ rounds ()
  intro _
  apply lexeme_acts.bind
  intro l
  cases l with
  | lineEnd =>
      apply next_acts.andThen
      exact .pure _
  | _ => exact .pure _

theorem lineStatement_acts : Acts lineStatement := by
  apply skipEmptyLines_acts.andThen
  apply lexeme_acts.bind
  intro l
  cases l with
  | sourceEnd => exact finish_acts
  | number value =>
      apply (note_acts (.lineReached value) trivial).andThen
      apply next_acts.andThen
      exact statement_acts
  | _ => exact statement_acts

theorem stepStarted_acts : Acts stepStarted := by
  intro m
  rw [stepStarted_apply]
  split
  · exact .ok .refl
  · exact lineStatement_acts.andThen (get_acts.bind fun _ => .pure _) m

theorem stepBody_acts : Acts stepBody := by
  intro m
  rw [stepBody_apply]
  split
  · exact stepStarted_acts m
  · exact buildIndex_acts.andThen (start_acts.andThen stepStarted_acts) m

/-- The machine after an error that a step has come to, if any, has been shown. -/
def raising (m : Machine) : Except Fault Bool → Machine
  | .error (.error e) => m.reported e
  | _ => m

/-- A step has effects, and an error it raises is shown at the very end. -/
theorem stepped_effects (m : Machine) :
    ∃ n, Effects m n ∧ m.stepped = n.raising m.outcome := by
  have hbody := stepBody_acts m
  unfold stepped outcome
  rw [step_apply]
  generalize stepBody m = r at hbody ⊢
  cases hbody with
  | ok hn => exact ⟨_, hn, rfl⟩
  | @error f n after hn hstop =>
      refine ⟨n, hn, ?_⟩
      cases hstop with
      | unshown hf =>
          cases f with
          | error e =>
              have hlexical : e.errorClass = .lexical := hf
              simp only [Reports.scanReported, hlexical, if_true]
              rfl
          | _ => rfl
      | @shown e hlexical =>
          simp only [Reports.scanReported, hlexical, if_false]
          rfl

end LineBasic.Machine
