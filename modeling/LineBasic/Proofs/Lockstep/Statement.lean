import LineBasic.Proofs.Lockstep.Expression

/-!
# Statements and steps in lockstep

Coupled machines execute a line together. With slack there are two ways for the
right machine to be a line end behind: it passes the line end on its own, or the
left machine has finished at the end of a printed line and the right one is left
to find out in its next step (`Trailing`).
-/
namespace LineBasic
open Machine

variable {k : Coupling} {E : Cursor → Cursor → Prop} {m n m' n' : Machine}

/-- The left machine has finished, and the right one is at the end of its text and
need not have finished yet. -/
structure Trailing (k : Coupling) (m n : Machine) : Prop where
  slack : k.slack
  left : m.finished = true
  paired : Paired k (fun _ d => d.token.lexeme = .sourceEnd) m { n with finished := true }

/-- Together, or the right machine trailing. -/
def Abreast (k : Coupling) (m n : Machine) : Prop := Paired k Anywhere m n ∨ Trailing k m n

/-- A line end that only the right machine is at is passed by it alone. -/
theorem finish_agree (h : Paired k E m n) (hm : m.cursor.token.lexeme = .sourceEnd)
    (hn : n.cursor.token.lexeme = .lineEnd) :
    ∃ n', next n = .ok () n' ∧ skipLine n = .ok () n' ∧ n'.cursor.token.lexeme = .sourceEnd ∧
      n'.toGo < n.toGo ∧ Paired k Anywhere m n' := by
  obtain ⟨d, hd, -, -, -, hless⟩ := (k.right h.cursor).next (by simp [hn]) (by simp [hn])
  obtain ⟨hrel, hlast⟩ := k.finish h.cursor hm hn hd
  have hskip : Cursor.skipLine n.cursor = .ok () d :=
    (Cursor.skipLine_of_lineEnd (k.right h.cursor).toPlaced hn).trans hd
  exact ⟨n.movedTo d, onCursor_of_ok hd, onCursor_of_ok hskip, hlast, hless,
    { h with cursor := hrel, extra := trivial }⟩

theorem seekLine_agree (h : Paired k Anywhere m n) (number : Int) :
    Agree k (RoundAgrees (seekLine number) (fun _ _ => Paired k Anywhere)
      (fun a b m n => b = a ∧ Paired k Anywhere m n) m n) (seekLine number () m)
      (seekLine number () n) := by
  have hskip : m.cursor.token.lexeme ≠ .sourceEnd →
      Agree k (RoundAgrees (seekLine number) (fun _ _ => Paired k Anywhere)
        (fun a b m n => b = a ∧ Paired k Anywhere m n) m n)
        ((skipLine >>= fun _ => pure (Round.again ())) m)
        ((skipLine >>= fun _ => pure (Round.again ())) n) := by
    intro hend
    apply (skipLine_agree h hend).bind
    intro _ _ m₁ n₁ h₁
    exact .ok ⟨h₁.anywhere, h₁.extra.1, h₁.extra.2⟩
  unfold seekLine
  rw [lexeme_bind_apply, lexeme_bind_apply]
  rcases k.alike h.cursor with hl | ⟨a, b, hl, hl', -⟩ | ⟨-, hl, hl'⟩
  · rw [hl]
    cases hm : m.cursor.token.lexeme with
    | sourceEnd => exact .ok ⟨rfl, h⟩
    | number value =>
        simp only
        split
        · apply (next_agree h (by simp [hm]) (by simp [hm])).bind
          intro _ _ m₁ n₁ h₁
          exact .ok ⟨rfl, h₁.anywhere⟩
        · exact hskip (by simp [hm])
    | _ => exact hskip (by simp [hm])
  · rw [hl, hl']
    exact hskip (by simp [hl])
  · -- Only the right machine has a line end left, and finds nothing behind it.
    obtain ⟨n', -, hn', hlast, hless, hp⟩ := finish_agree h hl hl'
    rw [hl, hl']
    simp only [bind_of_ok hn']
    have hdone : seekLine number () n' = .ok (.done false) n' := by
      unfold seekLine
      rw [lexeme_bind_apply, hlast]
      rfl
    exact .ok ⟨hless, false, n', hdone, rfl, hp⟩

theorem findLine_agree (h : Paired k Anywhere m n) (number : Int) :
    Agree k (fun a b m n => b = a ∧ Paired k Anywhere m n) (findLine number m)
      (findLine number n) :=
  Agree.iterate (fun _ _ _ _ h => seekLine_agree h number) h m.toGo_lt_moves n.toGo_lt_moves

theorem jumpIndexed_agree (h : Paired k E m n) (number : Int) :
    Agree k (fun _ _ => Paired k Anywhere) (jumpIndexed number m) (jumpIndexed number n) := by
  unfold jumpIndexed
  rw [← h.index]
  split
  · apply (reset_agree h).bind
    intro _ _ m₁ n₁ h₁
    apply (findLine_agree h₁ number).bind
    rintro _ found m₂ n₂ ⟨rfl, h₂⟩
    cases found with
    | true => exact .ok h₂
    | false =>
        simp only [Bool.not_false, if_true]
        exact failLine_agree h₂ (by simp [Cause.errorClass])
  · exact failLine_agree h (by simp [Cause.errorClass])

theorem jump_agree (h : Paired k E m n) (number : Int) :
    Agree k (fun _ _ => Paired k Anywhere) (jump number m) (jump number n) := by
  rw [jump_apply, jump_apply, ← h.index]
  split
  · apply (buildIndex_agree h).bind
    intro _ _ m₁ n₁ h₁
    exact jumpIndexed_agree h₁ number
  · exact jumpIndexed_agree h number

theorem goto_agree (h : Paired k E m n) :
    Agree k (fun _ _ => Paired k Anywhere) (gotoStatement m) (gotoStatement n) := by
  unfold gotoStatement
  apply (accept_agree h (by simp) (by simp)).bind
  intro _ _ m₁ n₁ h₁
  rw [lexeme_bind_apply, lexeme_bind_apply]
  rcases k.alike h₁.cursor with hl | ⟨a, b, hl, hl', -⟩ | ⟨hs, hl, -⟩
  · rw [hl]
    apply (accept_agree h₁ (by simp) (by simp)).bind
    intro _ _ m₂ n₂ h₂
    apply (accept_agree h₂ (by simp) (by simp)).bind
    intro _ _ m₃ n₃ h₃
    cases m₁.cursor.token.lexeme with
    | number target => exact jump_agree h₃ target
    | _ => exact .ok h₃.anywhere
  · rw [hl, hl']
    apply (accept_agree h₁ (by simp) (by simp)).bind
    intro _ _ m₂ n₂ h₂
    apply (accept_agree h₂ (by simp) (by simp)).bind
    intro _ _ m₃ n₃ h₃
    exact .ok h₃.anywhere
  · rw [bind_apply, accept_apply, hl, if_neg (by simp [Lexeme.kind]), failHere_apply]
    exact .lost hs

/-- A line end behind a jump that is not made is passed. -/
theorem passLineEnd_agree (h : Paired k E m n) :
    Agree k (fun _ _ => Paired k Anywhere) (passLineEnd m) (passLineEnd n) := by
  unfold passLineEnd
  rw [lexeme_bind_apply, lexeme_bind_apply]
  rcases k.alike h.cursor with hl | ⟨a, b, hl, hl', -⟩ | ⟨-, hl, hl'⟩
  · rw [hl]
    split
    · rename_i hm
      apply (next_agree h (by simp [hm]) (by simp [hm])).mono
      intro _ _ m₁ n₁ h₁
      exact h₁.anywhere
    · exact .ok h.anywhere
  · rw [hl, hl', if_neg (by simp), if_neg (by simp)]
    exact .ok h.anywhere
  · rw [hl, hl', if_neg (by simp), if_pos rfl]
    obtain ⟨n', hn', -, -, -, hp⟩ := finish_agree h hl hl'
    rw [hn']
    exact .ok hp

theorem if_agree (h : Paired k E m n) :
    Agree k (fun _ _ => Paired k Anywhere) (ifStatement m) (ifStatement n) := by
  unfold ifStatement ifStatementWith
  apply (accept_agree h (by simp) (by simp)).bind
  intro _ _ m₁ n₁ h₁
  apply (relation_agree h₁).bind
  rintro _ condition m₂ n₂ ⟨rfl, h₂⟩
  apply (accept_agree h₂ (by simp) (by simp)).bind
  intro _ _ m₃ n₃ h₃
  rw [lexeme_bind_apply, lexeme_bind_apply]
  rcases k.alike h₃.cursor with hl | ⟨a, b, hl, hl', -⟩ | ⟨hs, hl, -⟩
  · rw [hl]
    cases hm : m₃.cursor.token.lexeme with
    | number target =>
        simp only
        apply (next_agree h₃ (by simp [hm]) (by simp [hm])).bind
        intro _ _ m₄ n₄ h₄
        split
        · apply (note_agree h₄ _).bind
          intro _ _ m₅ n₅ h₅
          exact jump_agree h₅ _
        · exact passLineEnd_agree h₄
    | _ => exact failHere_agree h₃ (by simp [Cause.errorClass])
  · rw [hl, hl']
    exact failHere_agree h₃ (by simp [Cause.errorClass])
  · rw [hl]
    exact .lost hs

/-- Letters that are alike name the same register. -/
theorem assignTo_agree (h : Paired k E m n) (hend : m.cursor.token.lexeme ≠ .sourceEnd)
    (hrem : m.cursor.token.lexeme ≠ .keyword .REM) (name : Text) :
    Agree k (fun _ _ => Paired k Anywhere) (assignTo name m) (assignTo name n) := by
  apply (next_agree h hend hrem).bind
  intro _ _ m₁ n₁ h₁
  apply (accept_agree h₁ (by simp) (by simp)).bind
  intro _ _ m₂ n₂ h₂
  apply (expression_agree h₂).bind
  rintro _ value m₃ n₃ ⟨rfl, h₃⟩
  apply (assign_agree h₃ name value).bind
  intro _ _ m₄ n₄ h₄
  exact note_agree h₄.anywhere _

theorem let_agree (h : Paired k E m n) :
    Agree k (fun _ _ => Paired k Anywhere) (letStatement m) (letStatement n) := by
  unfold letStatement letStatementWith
  rw [lexeme_bind_apply, lexeme_bind_apply]
  rcases k.alike h.cursor with hl | ⟨a, b, hl, hl', hab⟩ | ⟨hs, hl, -⟩
  · rw [hl]
    cases hm : m.cursor.token.lexeme with
    | letter a => exact assignTo_agree h (by simp [hm]) (by simp [hm]) _
    | _ => exact failHere_agree h (by simp [Cause.errorClass])
  · rw [hl, hl']
    simp only [hab]
    exact assignTo_agree h (by simp [hl]) (by simp [hl]) _
  · rw [hl]
    exact .lost hs

/-- A loop of printed elements is between two of them. -/
abbrev Printing (k : Coupling) (a b : PrintLine) (m n : Machine) : Prop :=
  b = a ∧ Paired k k.Edge m n

theorem put_agree (h : Paired k E m n) (line : PrintLine) (piece : Text) (joined : Bool) :
    Agree k (fun a b m n => b = a ∧ Paired k E m n) (line.put piece joined m)
      (line.put piece joined n) := by
  apply (write_agree h piece).bind
  intro _ _ m₁ n₁ h₁
  exact .ok ⟨rfl, h₁⟩

theorem setOff_agree (h : Paired k E m n) (line : PrintLine) :
    Agree k (fun a b m n => b = a ∧ Paired k E m n) (line.setOff m) (line.setOff n) := by
  unfold PrintLine.setOff
  split
  · exact put_agree h line [' '] true
  · exact .ok ⟨rfl, h⟩

/-- The token of an element is passed once the element has been written. -/
theorem passElement_agree (h : Paired k (fun c d => c = m.cursor ∧ d = n.cursor) m' n')
    (hitem : m.cursor.token.kind.endsItem = true) (line : PrintLine) :
    Agree k (RoundAgrees printElement (Printing k) (Printing k) m n)
      ((next >>= fun _ => pure (Round.again line)) m')
      ((next >>= fun _ => pure (Round.again line)) n') := by
  apply (next_item h hitem).bind
  intro _ _ m₁ n₁ h₁
  exact .ok ⟨⟨rfl, h₁.mono And.right⟩, h₁.extra.1.1, h₁.extra.1.2⟩

/-- An element that is an expression. -/
theorem printValue_agree (h : Paired k E m n) (line : PrintLine) :
    Agree k (RoundAgrees printElement (Printing k) (Printing k) m n) (printValue line m)
      (printValue line n) := by
  apply (setOff_agree h.here line).bind
  rintro _ line' m₁ n₁ ⟨rfl, h₁⟩
  obtain ⟨hc, hd⟩ := h₁.extra
  apply (expression_agree h₁).bind
  rintro _ value m₂ n₂ ⟨rfl, h₂⟩
  split
  · apply (put_agree h₂ line' _ true).bind
    rintro _ after m₃ n₃ ⟨rfl, h₃⟩
    obtain ⟨⟨hless, hless'⟩, hedge⟩ := h₃.extra
    simp only [toGo, hc, hd] at hless hless'
    exact .ok ⟨⟨rfl, h₃.mono And.right⟩, hless, hless'⟩
  · exact .error .unwritable h₂.anywhere

theorem printItem_agree (h : Paired k k.Edge m n) (line : PrintLine) :
    Agree k (RoundAgrees printElement (Printing k) (Printing k) m n) (printItem line m)
      (printItem line n) := by
  unfold printItem printItemWith
  rw [lexeme_bind_apply, lexeme_bind_apply]
  rcases k.alike h.cursor with hl | ⟨a, b, hl, hl', -⟩ | ⟨-, hl, hl'⟩
  · rw [hl]
    cases hm : m.cursor.token.lexeme with
    | string body =>
        apply (setOff_agree h.here line).bind
        rintro _ line₁ m₁ n₁ ⟨rfl, h₁⟩
        apply (put_agree h₁ line₁ body true).bind
        rintro _ line₂ m₂ n₂ ⟨rfl, h₂⟩
        exact passElement_agree h₂ (by rw [Token.kind, hm]; rfl) line₂
    | separator mark =>
        apply (put_agree h.here line [' '] false).bind
        rintro _ line₁ m₁ n₁ ⟨rfl, h₁⟩
        exact passElement_agree h₁ (by rw [Token.kind, hm]; rfl) line₁
    | letter a => exact printValue_agree h line
    | number value => exact printValue_agree h line
    | symbol sign =>
        cases sign with
        | openParen => exact printValue_agree h line
        | _ =>
            apply (note_agree h _).bind
            intro _ _ m₁ n₁ h₁
            exact .ok ⟨rfl, h₁⟩
    | keyword word =>
        apply (note_agree h _).bind
        intro _ _ m₁ n₁ h₁
        exact .ok ⟨rfl, h₁⟩
    | lineEnd => exact .ok ⟨rfl, h⟩
    | sourceEnd => exact .ok ⟨rfl, h⟩
  · rw [hl, hl']
    exact printValue_agree h line
  · rw [hl, hl']
    exact .ok ⟨rfl, h⟩

theorem printElement_agree (h : Paired k k.Edge m n) (line : PrintLine) :
    Agree k (RoundAgrees printElement (Printing k) (Printing k) m n) (printElement line m)
      (printElement line n) := by
  rw [printElement_apply, printElement_apply, k.edge h.extra]
  split
  · exact .ok ⟨rfl, h⟩
  · exact printItem_agree h line

/-- What a printed line does once it is written: it passes the end it stopped at. -/
theorem endPrint_agree (h : Paired k k.Edge m n) :
    Agree k (fun _ _ => Abreast k) (endPrint m) (endPrint n) := by
  unfold endPrint
  rw [lineNumber?_bind_apply, lineNumber?_bind_apply, k.edge h.extra]
  cases n.cursor.lineNumber? false with
  | some number => exact .ok (.inl h.anywhere)
  | none =>
      simp only [Option.isNone_none, if_true]
      rw [lexeme_bind_apply, lexeme_bind_apply]
      rcases k.alike h.cursor with hl | ⟨a, b, hl, hl', -⟩ | ⟨hs, hl, hl'⟩
      · rw [hl]
        cases hm : m.cursor.token.lexeme with
        | sourceEnd => exact .ok (.inl { h.anywhere with finished := rfl })
        | lineEnd =>
            apply (next_agree h (by simp [hm]) (by simp [hm])).mono
            intro _ _ m₁ n₁ h₁
            exact .inl h₁.anywhere
        | _ => exact .ok (.inl h.anywhere)
      · rw [hl, hl']
        exact .ok (.inl h.anywhere)
      · rw [hl, hl']
        obtain ⟨n', hn', -, hlast, -, hp⟩ := finish_agree h hl hl'
        simp only [modify_apply, hn']
        exact .ok (.inr ⟨hs, rfl, { hp with extra := hlast, finished := rfl }⟩)

theorem print_agree (h : Paired k E m n) :
    Agree k (fun _ _ => Abreast k) (printStatement m) (printStatement n) := by
  unfold printStatement printStatementWith
  apply (accept_agree h (by simp) (by simp)).bind
  intro _ _ m₁ n₁ h₁
  rw [moves_bind_apply, moves_bind_apply]
  have hedge : Paired k k.Edge m₁ n₁ := h₁.mono fun hx => hx.2 rfl
  refine (Agree.iterate (P := Printing k) (Q := Printing k) ?_ ⟨rfl, hedge⟩ m₁.toGo_lt_moves
    n₁.toGo_lt_moves).bind ?_
  · rintro _ line m n ⟨rfl, h⟩
    exact printElement_agree h line
  rintro _ line m₂ n₂ ⟨rfl, h₂⟩
  apply (write_agree h₂ _).bind
  intro _ _ m₃ n₃ h₃
  apply (note_agree h₃ _).bind
  intro _ _ m₄ n₄ h₄
  exact endPrint_agree h₄

theorem statement_agree (h : Paired k E m n) :
    Agree k (fun _ _ => Abreast k) (statement m) (statement n) := by
  have hlet : ∀ {m n : Machine} {E}, Paired k E m n →
      Agree k (fun _ _ => Abreast k) (letStatement m) (letStatement n) :=
    fun h => (let_agree h).mono fun _ _ _ _ => Or.inl
  unfold statement statementWith
  rw [lexeme_bind_apply, lexeme_bind_apply]
  rcases k.alike h.cursor with hl | ⟨a, b, hl, hl', -⟩ | ⟨hs, hl, -⟩
  · rw [hl]
    cases hm : m.cursor.token.lexeme with
    | letter a => exact hlet h
    | keyword word =>
        cases word with
        | REM =>
            apply (skipLine_agree h (by simp [hm])).mono
            intro _ _ m₁ n₁ h₁
            exact .inl h₁.anywhere
        | PRINT => exact print_agree h
        | IF => exact (if_agree h).mono fun _ _ _ _ => Or.inl
        | GOTO => exact (goto_agree h).mono fun _ _ _ _ => Or.inl
        | LET =>
            apply (accept_agree h (by simp) (by simp)).bind
            intro _ _ m₁ n₁ h₁
            exact hlet h₁
        | THEN =>
            apply (note_agree h _).bind
            intro _ _ m₁ n₁ h₁
            exact failHere_agree h₁ (by simp [Cause.errorClass])
    | _ =>
        apply (note_agree h _).bind
        intro _ _ m₁ n₁ h₁
        exact failHere_agree h₁ (by simp [Cause.errorClass])
  · rw [hl, hl']
    exact hlet h
  · rw [hl]
    simp only [bind_apply]
    split
    · exact .lost hs
    · exact .lost hs

/-- Empty lines are passed together, a last one perhaps by the right machine alone. -/
theorem passEmptyLine_agree (h : Paired k Anywhere m n) :
    Agree k (RoundAgrees passEmptyLine (fun _ _ => Paired k Anywhere)
      (fun _ _ => Paired k Cursor.Aligned) m n) (passEmptyLine () m) (passEmptyLine () n) := by
  by_cases hline : m.cursor.token.lexeme = .lineEnd
  · have hline' : n.cursor.token.lexeme = .lineEnd :=
      ((k.alike h.cursor).eq_of_ne (by simp [hline]) (by simp [hline])).trans hline
    unfold passEmptyLine
    rw [lexeme_bind_apply, lexeme_bind_apply, hline, hline']
    apply (next_agree h (by simp [hline]) (by simp [hline])).bind
    intro _ _ m₁ n₁ h₁
    exact .ok ⟨h₁.anywhere, h₁.extra.1.1, h₁.extra.1.2⟩
  · rw [passEmptyLine_of_ne hline]
    by_cases hline' : n.cursor.token.lexeme = .lineEnd
    · have hend : m.cursor.token.lexeme = .sourceEnd := by
        rcases k.alike h.cursor with hl | ⟨a, b, -, hl, -⟩ | ⟨-, hl, -⟩
        · exact absurd (hl.symm.trans hline') hline
        · exact absurd (hl.symm.trans hline') (by simp)
        · exact hl
      obtain ⟨n', hn', -, hlast, hless, hp⟩ := finish_agree h hend hline'
      rw [passEmptyLine_of_lineEnd hline' hn']
      exact .ok ⟨hless, (), n', passEmptyLine_of_ne (by simp [hlast]), hp.mono fun _ _ => hlast⟩
    · rw [passEmptyLine_of_ne hline']
      refine .ok (h.mono ?_)
      intro _ hend
      rcases k.alike h.cursor with hl | ⟨a, b, hl, -, -⟩ | ⟨-, -, hl⟩
      · exact hl.trans hend
      · exact absurd (hl.symm.trans hend) (by simp)
      · exact absurd hl hline'

theorem skipEmptyLines_agree (h : Paired k E m n) :
    Agree k (fun _ _ => Paired k Cursor.Aligned) (skipEmptyLines m) (skipEmptyLines n) :=
  Agree.iterate (fun _ _ _ _ h => passEmptyLine_agree h) h.anywhere m.toGo_lt_moves
    n.toGo_lt_moves

theorem lineStatement_agree (h : Paired k E m n) :
    Agree k (fun _ _ => Abreast k) (lineStatement m) (lineStatement n) := by
  unfold lineStatement lineStatementWith
  apply (skipEmptyLines_agree h).bind
  intro _ _ m₁ n₁ h₁
  rw [lexeme_bind_apply, lexeme_bind_apply]
  rcases k.alike h₁.cursor with hl | ⟨a, b, hl, hl', -⟩ | ⟨-, hl, hl'⟩
  · rw [hl]
    cases hm : m₁.cursor.token.lexeme with
    | sourceEnd => exact .ok (.inl { h₁.anywhere with finished := rfl })
    | number value =>
        apply (note_agree h₁.here _).bind
        intro _ _ m₂ n₂ h₂
        have hm₂ : m₂.cursor.token.lexeme = .number value := by rw [h₂.extra.1, hm]
        apply (next_agree h₂ (by simp [hm₂]) (by simp [hm₂])).bind
        intro _ _ m₃ n₃ h₃
        exact statement_agree h₃
    | _ => exact statement_agree h₁
  · rw [hl, hl']
    exact statement_agree h₁
  · exact absurd (h₁.extra hl) (by simp [hl'])

/-- Two machines after a step that told whether there is more to do. -/
def Stepped (k : Coupling) (a b : Bool) (m n : Machine) : Prop :=
  a = !m.finished ∧ b = !n.finished ∧ Abreast k m n

theorem stepStarted_agree (h : Paired k E m n) :
    Agree k (Stepped k) (stepStarted m) (stepStarted n) := by
  rw [stepStarted_apply, stepStarted_apply, ← h.finished]
  split
  · rename_i hf
    exact .ok ⟨by rw [hf]; rfl, by rw [← h.finished, hf]; rfl, .inl h.anywhere⟩
  · apply (lineStatement_agree h).bind
    intro _ _ m₁ n₁ h₁
    exact .ok ⟨rfl, rfl, h₁⟩

theorem stepBody_agree (h : Paired k E m n) :
    Agree k (Stepped k) (stepBody m) (stepBody n) := by
  rw [stepBody_apply, stepBody_apply, if_pos h.started.1, if_pos h.started.2]
  exact stepStarted_agree h

theorem scanReported_of_alike {f g : Fault} (h : f.Alike g) (r : Reports) :
    r.scanReported f = r ∧ r.scanReported g = r := by
  cases h with
  | error hc => exact ⟨if_neg hc, if_neg hc⟩
  | _ => exact ⟨rfl, rfl⟩

/-- Coupled machines take a step together. -/
theorem step_agree (h : Paired k E m n) : Agree k (Stepped k) (step m) (step n) := by
  have hbody := stepBody_agree h
  rw [step_apply, step_apply]
  generalize stepBody m = r at hbody ⊢
  generalize stepBody n = s at hbody ⊢
  cases hbody with
  | ok hpost => exact .ok hpost
  | @error f g m₁ n₁ hf hp =>
      simp only [(scanReported_of_alike hf m₁.reports).1, (scanReported_of_alike hf n₁.reports).2]
      exact .error hf hp
  | lost hs => exact .lost hs

end LineBasic
