import LineBasic.Proofs.Effects.Statement
import LineBasic.Proofs.Tracing

/-!
# Statements with and without a trace

Statements and steps are followed as expressions are. Only the end of a printed line and
the start of a line may finish the machine, and both do so at the end of the text alone.
A machine that has finished is left as it is by every further step.
-/
namespace LineBasic

namespace Machine

variable {site : Site} {m : Machine}

theorem findLine_muted (h : m.Working site) (number : Int) :
    Muted site (fun _ m' => m'.Working site) (findLine number) m := by
  have hskip : ∀ {m : Machine}, m.Working site → Muted site
      (fun round m' => round.Meets (fun _ => m'.Working site)
        (fun _ => m'.Working site))
      (skipLine >>= fun _ => pure (Round.again () : Round Unit Bool)) m := by
    intro m h
    apply (skipLine_muted h).bind
    intro _ m₁ h₁
    exact .pure h₁
  apply Muted.get_bind rfl
  refine Muted.iterate (P := fun _ m' => m'.Working site) ?_ (fun _ _ hm => hm) _ h
  intro _ m₁ h₁
  apply Muted.get_bind rfl
  cases m₁.cursor.token.lexeme with
  | sourceEnd => exact .pure h₁
  | number value =>
      simp only
      split
      · apply (next_muted h₁).bind
        intro _ m₂ h₂
        exact .pure h₂
      · exact hskip h₁
  | _ => exact hskip h₁

theorem jumpIndexed_muted (h : m.Working site) {number : Nat}
    (hnumber : Numeral.writable number = true) :
    Muted site (fun _ m' => m'.Working site) (jumpIndexed number) m := by
  have hindex : m.hushed.index = m.index := rfl
  have hland : Muted site (fun _ m' => m'.Working site)
      (onCursor Cursor.reset >>= fun _ => land number) m := by
    apply (reset_muted h).bind
    intro _ m₁ h₁
    apply (findLine_muted h₁ number).bind
    intro found m₂ h₂
    cases found with
    | true => exact .pure h₂
    | false =>
        simp only [Bool.not_false, if_true]
        exact failLine_muted h₂ hnumber _
  have hmissing : Muted site (fun _ m' => m'.Working site)
      (failLine number .missingLine : Run Unit) m :=
    failLine_muted h hnumber _
  unfold Muted at hland hmissing ⊢
  unfold jumpIndexed
  rw [hindex]
  split
  · exact hland
  · exact hmissing

theorem jump_muted (h : m.Working site) {number : Nat}
    (hnumber : Numeral.writable number = true) :
    Muted site (fun _ m' => m'.Working site) (jump number) m := by
  have hindex : m.hushed.index = m.index := rfl
  have hbuild : Muted site (fun _ m' => m'.Working site)
      (buildIndex >>= fun _ => jumpIndexed number) m := by
    apply (buildIndex_muted h).bind
    intro _ m₁ h₁
    exact jumpIndexed_muted h₁ hnumber
  have hjump := jumpIndexed_muted h hnumber
  unfold Muted at hbuild hjump ⊢
  rw [jump_apply, jump_apply, hindex]
  split
  · exact hbuild
  · exact hjump

theorem goto_muted (h : m.Working site) :
    Muted site (fun _ m' => m'.Working site) gotoStatement m := by
  apply (accept_muted h _).bind
  intro _ m₁ h₁
  apply Muted.get_bind rfl
  apply (accept_muted h₁ _).bind
  intro _ m₂ h₂
  apply (accept_muted h₂ _).bind
  intro _ m₃ h₃
  cases hl : m₁.cursor.token.lexeme with
  | number value => exact jump_muted h₃ (h₁.lies.writable hl)
  | _ => exact .pure h₃

theorem if_muted (h : m.Working site) :
    Muted site (fun _ m' => m'.Working site) ifStatement m := by
  apply (accept_muted h _).bind
  intro _ m₁ h₁
  apply (relation_muted h₁).bind
  intro condition m₂ h₂
  apply (accept_muted h₂ _).bind
  intro _ m₃ h₃
  apply Muted.get_bind rfl
  cases hl : m₃.cursor.token.lexeme with
  | number target =>
      have htarget := h₃.lies.writable hl
      apply (next_muted h₃).bind
      intro _ m₄ h₄
      split
      · apply (note_muted h₄ (.jumped target) fun _ => htarget).bind
        intro _ m₅ h₅
        exact jump_muted h₅ htarget
      · apply Muted.get_bind rfl
        split
        · exact next_muted h₄
        · exact .pure h₄
  | _ => exact failHere_muted h₃ _

theorem let_muted (h : m.Working site) :
    Muted site (fun _ m' => m'.Working site) letStatement m := by
  apply Muted.get_bind rfl
  cases hl : m.cursor.token.lexeme with
  | letter letter =>
      have hhere := h.lies.here
      rw [hl] at hhere
      have hletter := Lexeme.isAlpha_of_read hhere
      apply (next_muted h).bind
      intro _ m₁ h₁
      apply (accept_muted h₁ _).bind
      intro _ m₂ h₂
      apply (expression_muted h₂).bind
      rintro value m₃ ⟨hvalue, h₃⟩
      apply (assign_muted h₃ hletter hvalue).bind
      intro _ m₄ h₄
      exact note_muted h₄ (.assigned _ value) fun hw => hw _ hvalue
  | _ => exact failHere_muted h _

theorem put_muted (h : m.Working site) (line : PrintLine) (piece : Text) (joined : Bool) :
    Muted site (fun _ m' => m'.Working site) (line.put piece joined) m := by
  apply (write_muted h piece).bind
  intro _ m₁ h₁
  exact .pure h₁

theorem setOff_muted (h : m.Working site) (line : PrintLine) :
    Muted site (fun _ m' => m'.Working site) line.setOff m := by
  unfold PrintLine.setOff
  split
  · exact put_muted h line [' '] true
  · exact .pure h

/-- Whatever a round of printing comes to, the machine is at work. -/
def PrintsOn (site : Site) (round : Round PrintLine PrintLine)
    (m : Machine) : Prop :=
  round.Meets (fun _ => m.Working site) (fun _ => m.Working site)

/-- Only what is too long to be written is not printed. -/
theorem printValue_muted (h : m.Working site) (line : PrintLine) :
    Muted site (PrintsOn site) (printValue line) m := by
  apply (setOff_muted h line).bind
  intro line m₁ h₁
  apply (expression_muted h₁).bind
  rintro value m₂ ⟨hvalue, h₂⟩
  split
  · apply (put_muted h₂ line _ true).bind
    intro line m₃ h₃
    exact .pure h₃
  · rename_i hnot
    exact .throw (fun hw => hnot (hw value hvalue)) h₂

theorem printItem_muted (h : m.Working site) (line : PrintLine) :
    Muted site (PrintsOn site) (printItem line) m := by
  have hstop : ∀ kind, Muted site (PrintsOn site)
      (note (.printStopped kind) >>= fun _ => pure (Round.done line)) m := by
    intro kind
    apply (note_muted h _ fun _ => rfl).bind
    intro _ m₁ h₁
    exact .pure h₁
  have hpass : ∀ {m₁ : Machine} {line : PrintLine}, m₁.Working site →
      Muted site (PrintsOn site) (next >>= fun _ => pure (Round.again line)) m₁ := by
    intro m₁ line h₁
    apply (next_muted h₁).bind
    intro _ m₂ h₂
    exact .pure h₂
  apply Muted.get_bind rfl
  cases m.cursor.token.lexeme with
  | string body =>
      apply (setOff_muted h line).bind
      intro line m₁ h₁
      apply (put_muted h₁ line body true).bind
      intro line m₂ h₂
      exact hpass h₂
  | separator mark =>
      apply (put_muted h line [' '] false).bind
      intro line m₁ h₁
      exact hpass h₁
  | letter letter => exact printValue_muted h line
  | number value => exact printValue_muted h line
  | symbol sign =>
      cases sign with
      | openParen => exact printValue_muted h line
      | _ => exact hstop _
  | keyword word => exact hstop _
  | lineEnd => exact .pure h
  | sourceEnd => exact .pure h

theorem printElement_muted (h : m.Working site) (line : PrintLine) :
    Muted site (PrintsOn site) (printElement line) m := by
  have hcursor : m.hushed.cursor = m.cursor := rfl
  have hitem := printItem_muted h line
  unfold Muted at hitem ⊢
  rw [printElement_apply, printElement_apply, hcursor]
  split
  · exact .ok h
  · exact hitem

/-- The end of a printed line finishes the machine at the end of the text. -/
theorem endPrint_muted (h : m.Working site) :
    Muted site (fun _ m' => m'.Settled site) endPrint m := by
  apply Muted.get_bind rfl
  cases m.cursor.lineNumber? false with
  | some number => exact .pure h.settled
  | none =>
      apply Muted.get_bind rfl
      cases hl : m.cursor.token.lexeme with
      | sourceEnd => exact .ok (h.withFinished hl)
      | lineEnd => exact (next_muted h).mono fun _ _ hm => hm.settled
      | _ => exact .pure h.settled

theorem print_muted (h : m.Working site) :
    Muted site (fun _ m' => m'.Settled site) printStatement m := by
  apply (accept_muted h _).bind
  intro _ m₁ h₁
  apply Muted.get_bind rfl
  refine (Muted.iterate (P := fun _ m' => m'.Working site)
    (fun line _ h' => printElement_muted h' line) (fun _ _ hm => hm) _ h₁).bind ?_
  intro line m₂ h₂
  apply (write_muted h₂ _).bind
  intro _ m₃ h₃
  apply (note_muted h₃ (.printed line.written) fun _ => rfl).bind
  intro _ m₄ h₄
  exact endPrint_muted h₄

theorem statement_muted (h : m.Working site) :
    Muted site (fun _ m' => m'.Settled site) statement m := by
  have hother : ∀ kind, Muted site (fun _ m' => m'.Settled site)
      (note (.unrecognized kind) >>= fun _ => failHere .unrecognizedStatement : Run Unit) m := by
    intro kind
    apply (note_muted h _ fun _ => rfl).bind
    intro _ m₁ h₁
    exact failHere_muted h₁ _
  apply Muted.get_bind rfl
  cases m.cursor.token.lexeme with
  | keyword word =>
      cases word with
      | REM => exact (skipLine_muted h).mono fun _ _ hm => hm.settled
      | PRINT => exact print_muted h
      | IF => exact (if_muted h).mono fun _ _ hm => hm.settled
      | GOTO => exact (goto_muted h).mono fun _ _ hm => hm.settled
      | LET =>
          apply (accept_muted h _).bind
          intro _ m₁ h₁
          exact (let_muted h₁).mono fun _ _ hm => hm.settled
      | THEN => exact hother _
  | letter letter => exact (let_muted h).mono fun _ _ hm => hm.settled
  | _ => exact hother _

theorem skipEmptyLines_muted (h : m.Working site) :
    Muted site (fun _ m' => m'.Working site) skipEmptyLines m := by
  apply Muted.get_bind rfl
  refine Muted.iterate (P := fun _ m' => m'.Working site) ?_ (fun _ _ hm => hm) _ h
  intro _ m₁ h₁
  apply Muted.get_bind rfl
  cases m₁.cursor.token.lexeme with
  | lineEnd =>
      apply (next_muted h₁).bind
      intro _ m₂ h₂
      exact .pure h₂
  | _ => exact .pure h₁

theorem lineStatement_muted (h : m.Working site) :
    Muted site (fun _ m' => m'.Settled site) lineStatement m := by
  apply (skipEmptyLines_muted h).bind
  intro _ m₁ h₁
  apply Muted.get_bind rfl
  cases hl : m₁.cursor.token.lexeme with
  | sourceEnd => exact .ok (h₁.withFinished hl)
  | number value =>
      apply (note_muted h₁ (.lineReached value) fun _ => h₁.lies.writable hl).bind
      intro _ m₂ h₂
      apply (next_muted h₂).bind
      intro _ m₃ h₃
      exact statement_muted h₃
  | _ => exact statement_muted h₁

/-- What a step tells is whether the machine has not finished. -/
def Told (site : Site) (more : Bool) (m : Machine) : Prop :=
  m.Settled site ∧ more = !m.finished

theorem stepStarted_muted (h : m.Working site) :
    Muted site (Told site) stepStarted m := by
  have hfinished : m.hushed.finished = m.finished := rfl
  have hline : Muted site (Told site)
      (lineStatement >>= fun _ => get >>= fun m => pure !m.finished) m := by
    apply (lineStatement_muted h).bind
    intro _ m₁ h₁
    exact .get_bind rfl (.pure ⟨h₁, rfl⟩)
  unfold Muted at hline ⊢
  rw [stepStarted_apply, stepStarted_apply, hfinished, if_neg (by simp [h.unfinished]),
    if_neg (by simp [h.unfinished])]
  exact hline

theorem stepBody_muted (h : m.Working site) :
    Muted site (Told site) stepBody m := by
  have hstarted : m.hushed.started = m.started := rfl
  have hfirst : Muted site (Told site)
      (buildIndex >>= fun _ => (modify fun m => { m with started := true }) >>= fun _ =>
        stepStarted) m := by
    apply (buildIndex_muted h).bind
    intro _ m₁ h₁
    exact stepStarted_muted h₁.withStarted
  have hlater := stepStarted_muted h
  unfold Muted at hfirst hlater ⊢
  rw [stepBody_apply, stepBody_apply, hstarted]
  split
  · exact hlater
  · exact hfirst

theorem step_muted (h : m.Working site) : Muted site (Told site) step m := by
  have hbody := stepBody_muted h
  unfold Muted at hbody ⊢
  rw [step_apply, step_apply]
  generalize stepBody m = r at hbody ⊢
  generalize stepBody m.hushed = s at hbody ⊢
  cases hbody with
  | ok hpost => exact .ok hpost
  | @error f after hf hafter =>
      have hmuted : Mutes site (Told site) _ _ :=
        .error hf (hafter.withReports (after.reports.scanReported f))
      simp only [hushed, Reports.hushed_scanReported] at hmuted ⊢
      exact hmuted
  | unwritten hw hafter => exact .unwritten hw hafter

/-- A machine that has finished is left as it is. -/
theorem step_of_finished (hstarted : m.started = true) (hfinished : m.finished = true) :
    step m = .ok false m := by
  rw [step_apply, stepBody_apply, if_pos hstarted, stepStarted_apply, if_pos hfinished]

end Machine

end LineBasic
