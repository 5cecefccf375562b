import LineBasic.Machine.Expression
import LineBasic.Proofs.Lockstep

/-!
# Expressions in lockstep

Coupled machines evaluate an expression to the same value. Both get further on,
and come to an edge, since an expression ends with a number, a letter or a closing
parenthesis. Nesting is bounded by the text ahead, so the two bounds on it never
take effect.
-/
namespace LineBasic
open Machine

variable {k : Coupling} {E : Cursor → Cursor → Prop} {m n m' n' : Machine}

/-- The same value, found further on and up to an edge. -/
def Valued (k : Coupling) (m n : Machine) (a b : Int) (m' n' : Machine) : Prop :=
  b = a ∧ Paired k (fun c d => Past m n c d ∧ k.Edge c d) m' n'

/-- Actions that give the same value wherever less than some text lies ahead. -/
def EvaluatesWithin (k : Coupling) (i j : Nat) (x y : Run Int) : Prop :=
  ∀ {m n : Machine}, Paired k Anywhere m n → m.toGo < i → n.toGo < j →
    Agree k (Valued k m n) (x m) (y n)

theorem divide_agree (h : Paired k E m n) (numerator denominator : Int) :
    Agree k (fun a b m n => b = a ∧ Paired k E m n) (divide numerator denominator m)
      (divide numerator denominator n) := by
  unfold divide
  split
  · apply (warn_agree h _).bind
    intro _ _ m n h
    apply (note_agree h _).bind
    intro _ _ m n h
    exact .ok ⟨rfl, h⟩
  · rw [get_bind_apply, get_bind_apply]
    exact .ok ⟨by rw [h.size], h⟩

/-- What is needed of the operators of one level. -/
structure Operators (k : Coupling) (operator? : Lexeme → Option (Int → Int → Run Int)) :
    Prop where
  alike : ∀ {l l' : Lexeme}, Lexeme.Alike k.slack l l' → operator? l' = operator? l
  ends : operator? .sourceEnd = none
  remark : operator? (.keyword .REM) = none
  agree : ∀ {l operator}, operator? l = some operator → ∀ {E m n}, Paired k E m n → ∀ a b : Int,
    Agree k (fun r s m n => s = r ∧ Paired k E m n) (operator a b m) (operator a b n)

theorem multiply_operators : Operators k multiply? where
  alike := by
    rintro l l' (rfl | ⟨a, b, rfl, rfl, -⟩ | ⟨-, rfl, rfl⟩) <;> rfl
  ends := rfl
  remark := rfl
  agree := by
    intro l operator hl E m n h a b
    unfold multiply? at hl
    split at hl
    · cases hl
      change Agree k _ (.ok (m.size.wrap (a * b)) m) (.ok (n.size.wrap (a * b)) n)
      exact .ok ⟨by rw [h.size], h⟩
    · cases hl
      exact divide_agree h a b
    · cases hl

theorem add_operators : Operators k add? where
  alike := by
    rintro l l' (rfl | ⟨a, b, rfl, rfl, -⟩ | ⟨-, rfl, rfl⟩) <;> rfl
  ends := rfl
  remark := rfl
  agree := by
    intro l operator hl E m n h a b
    unfold add? at hl
    split at hl
    · cases hl
      change Agree k _ (.ok (m.size.wrap (a + b)) m) (.ok (n.size.wrap (a + b)) n)
      exact .ok ⟨by rw [h.size], h⟩
    · cases hl
      change Agree k _ (.ok (m.size.wrap (a - b)) m) (.ok (n.size.wrap (a - b)) n)
      exact .ok ⟨by rw [h.size], h⟩
    · cases hl

/-- A chain of operands stays together if its operands do. -/
theorem chain_agree {i j : Nat} {x y : Run Int}
    {operator? : Lexeme → Option (Int → Int → Run Int)} (hops : Operators k operator?)
    (hoperand : EvaluatesWithin k i j x y) (h : Paired k k.Edge m n)
    (hi : m.toGo < i) (hj : n.toGo < j) (first : Int) :
    Agree k (fun a b m' n' => b = a ∧
        Paired k (fun c d => Cursor.Near (m.toGo + 1) (n.toGo + 1) c d ∧ k.Edge c d) m' n')
      (chain x operator? first m) (chain y operator? first n) := by
  unfold chain
  rw [moves_bind_apply, moves_bind_apply]
  refine Agree.iterate (P := fun a b m' n' => b = a ∧
    Paired k (fun c d => Cursor.Near (m.toGo + 1) (n.toGo + 1) c d ∧ k.Edge c d) m' n')
    ?_ ⟨rfl, h.mono fun he => ⟨⟨Nat.lt_succ_self _, Nat.lt_succ_self _⟩, he⟩⟩
    m.toGo_lt_moves n.toGo_lt_moves
  rintro _ value m' n' ⟨rfl, h'⟩
  unfold chainRound
  rw [lexeme_bind_apply, lexeme_bind_apply, hops.alike (k.alike h'.cursor)]
  cases ho : operator? m'.cursor.token.lexeme with
  | none => exact .ok ⟨rfl, h'⟩
  | some operator =>
      have hend : m'.cursor.token.lexeme ≠ .sourceEnd := by
        intro hl
        rw [hl, hops.ends] at ho
        cases ho
      have hrem : m'.cursor.token.lexeme ≠ .keyword .REM := by
        intro hl
        rw [hl, hops.remark] at ho
        cases ho
      obtain ⟨hnear, hnear'⟩ := h'.extra.1
      apply (next_agree h' hend hrem).bind
      intro _ _ m₁ n₁ h₁
      obtain ⟨hpast, hpast'⟩ := h₁.extra.1
      have hleft : m₁.toGo < m'.toGo := hpast
      have hright : n₁.toGo < n'.toGo := hpast'
      have hm' : m'.toGo < m.toGo + 1 := hnear
      have hn' : n'.toGo < n.toGo + 1 := hnear'
      apply (hoperand h₁.anywhere (by omega) (by omega)).bind
      rintro _ other m₂ n₂ ⟨rfl, h₂⟩
      obtain ⟨⟨hfar, hfar'⟩, hedge⟩ := h₂.extra
      apply (hops.agree ho h₂ value other).bind
      rintro _ result m₃ n₃ ⟨rfl, h₃⟩
      obtain ⟨⟨hm₃, hn₃⟩, hedge₃⟩ := h₃.extra
      refine .ok ⟨⟨rfl, h₃.mono fun _ => ⟨⟨?_, ?_⟩, hedge₃⟩⟩, ?_, ?_⟩
      · exact Nat.lt_trans hm₃ (by omega)
      · exact Nat.lt_trans hn₃ (by omega)
      · exact Nat.lt_trans hm₃ hleft
      · exact Nat.lt_trans hn₃ hright

/-- Behind a token that ends an item both machines are further on and at an edge. -/
theorem next_item (h : Paired k (fun c d => c = m.cursor ∧ d = n.cursor) m' n')
    (hitem : m.cursor.token.kind.endsItem = true) :
    Agree k (fun _ _ => Paired k fun c d => Past m n c d ∧ k.Edge c d) (next m') (next n') := by
  obtain ⟨hc, hd⟩ := h.extra
  have hend : m'.cursor.token.lexeme ≠ .sourceEnd := by
    rw [hc]
    intro hl
    rw [Token.kind, hl] at hitem
    cases hitem
  have hrem : m'.cursor.token.lexeme ≠ .keyword .REM := by
    rw [hc]
    intro hl
    rw [Token.kind, hl] at hitem
    cases hitem
  apply (next_agree h hend hrem).mono
  intro _ _ m₁ n₁ h₁
  apply h₁.mono
  rintro ⟨⟨hless, hless'⟩, hedge⟩
  simp only [toGo, hc, hd] at hless hless'
  exact ⟨⟨hless, hless'⟩, hedge (hc ▸ hitem)⟩

theorem next_valued (h : Paired k (fun c d => c = m.cursor ∧ d = n.cursor) m' n')
    (hitem : m.cursor.token.kind.endsItem = true) (value : Int) :
    Agree k (Valued k m n) ((next >>= fun _ => pure value) m')
      ((next >>= fun _ => pure value) n') := by
  apply (next_item h hitem).bind
  intro _ _ m₁ n₁ h₁
  exact .ok ⟨rfl, h₁⟩

/-- A letter gives the value of its register to both. -/
theorem letter_agree (h : Paired k E m n) {a b : Char} (hm : m.cursor.token.lexeme = .letter a)
    (hn : n.cursor.token.lexeme = .letter b) (hab : Text.lower [b] = Text.lower [a])
    (x y : Run Int) : Agree k (Valued k m n) (factorWith x m) (factorWith y n) := by
  rw [factorWith_letter hm, factorWith_letter hn, hab]
  apply (register_agree h.here _).bind
  rintro _ value m₁ n₁ ⟨rfl, h₁⟩
  apply (note_agree h₁ _).bind
  intro _ _ m₂ n₂ h₂
  exact next_valued h₂ (by rw [Token.kind, hm]; rfl) value

/-- What stands in parentheses is evaluated with less text ahead. -/
theorem paren_agree {i j : Nat} {x y : Run Int} (hinner : EvaluatesWithin k i j x y)
    (h : Paired k E m n) (hi : m.toGo < i + 1) (hj : n.toGo < j + 1)
    (hm : m.cursor.token.lexeme = .symbol .openParen)
    (hn : n.cursor.token.lexeme = .symbol .openParen) :
    Agree k (Valued k m n) (factorWith x m) (factorWith y n) := by
  rw [factorWith_paren hm, factorWith_paren hn]
  apply (next_agree h (by simp [hm]) (by simp [hm])).bind
  intro _ _ m₁ n₁ h₁
  have hless : m₁.toGo < m.toGo := h₁.extra.1.1
  have hless' : n₁.toGo < n.toGo := h₁.extra.1.2
  apply (hinner h₁.anywhere (by omega) (by omega)).bind
  rintro _ value m₂ n₂ ⟨rfl, h₂⟩
  have hpast : m₂.toGo < m₁.toGo := h₂.extra.1.1
  have hpast' : n₂.toGo < n₁.toGo := h₂.extra.1.2
  apply (accept_agree h₂ (by simp) (by simp)).bind
  intro _ _ m₃ n₃ h₃
  refine .ok ⟨rfl, h₃.mono ?_⟩
  rintro ⟨⟨hfar, hfar'⟩, hedge⟩
  exact ⟨⟨Nat.lt_trans hfar (by omega), Nat.lt_trans hfar' (by omega)⟩, hedge rfl⟩

theorem factor_agree {i j : Nat} {x y : Run Int} (hinner : EvaluatesWithin k i j x y) :
    EvaluatesWithin k (i + 1) (j + 1) (factorWith x) (factorWith y) := by
  intro m n h hi hj
  rcases k.alike h.cursor with hl | ⟨a, b, hl, hl', hab⟩ | ⟨hs, hl, -⟩
  · by_cases hbegins : beginsFactor m.cursor.token.lexeme = true
    · cases hm : m.cursor.token.lexeme with
      | number value =>
          rw [factorWith_number hm, factorWith_number (hl.trans hm), ← h.size]
          apply (note_agree h.here _).bind
          intro _ _ m₁ n₁ h₁
          exact next_valued h₁ (by rw [Token.kind, hm]; rfl) _
      | letter a => exact letter_agree h hm (hl.trans hm) rfl x y
      | symbol sign =>
          rw [hm] at hbegins
          cases sign with
          | openParen => exact paren_agree hinner h hi hj hm (hl.trans hm)
          | _ => cases hbegins
      | _ =>
          rw [hm] at hbegins
          cases hbegins
    · have hother : beginsFactor m.cursor.token.lexeme = false := by simpa using hbegins
      rw [factorWith_other hother, factorWith_other (hl ▸ hother), hl]
      exact failHere_agree h (by simp [Cause.errorClass])
  · exact letter_agree h hl hl' hab x y
  · rw [factorWith_other (by rw [hl]; rfl), failHere_apply]
    exact .lost hs

/-- A first operand and the chain behind it. -/
theorem chain_valued {i j : Nat} {x y : Run Int}
    {operator? : Lexeme → Option (Int → Int → Run Int)} (hops : Operators k operator?)
    (hoperand : EvaluatesWithin k i j x y) (hi : m.toGo < i) (hj : n.toGo < j) {first : Int}
    (h : Paired k (fun c d => Past m n c d ∧ k.Edge c d) m' n') :
    Agree k (Valued k m n) (chain x operator? first m') (chain y operator? first n') := by
  have hpast : m'.toGo < m.toGo := h.extra.1.1
  have hpast' : n'.toGo < n.toGo := h.extra.1.2
  apply (chain_agree hops hoperand (h.mono And.right) (by omega) (by omega) first).mono
  rintro a b m₁ n₁ ⟨hab, h₁⟩
  refine ⟨hab, h₁.mono ?_⟩
  rintro ⟨⟨hnear, hnear'⟩, hedge⟩
  exact ⟨⟨Nat.lt_of_lt_of_le hnear hpast, Nat.lt_of_lt_of_le hnear' hpast'⟩, hedge⟩

theorem term_agree {i j : Nat} {x y : Run Int} (hinner : EvaluatesWithin k i j x y) :
    EvaluatesWithin k (i + 1) (j + 1) (termWith x) (termWith y) := by
  intro m n h hi hj
  apply (factor_agree hinner h hi hj).bind
  rintro _ first m₁ n₁ ⟨rfl, h₁⟩
  exact chain_valued multiply_operators (factor_agree hinner) hi hj h₁

theorem expressionWith_agree {i j : Nat} {x y : Run Int} (hinner : EvaluatesWithin k i j x y) :
    EvaluatesWithin k (i + 1) (j + 1) (expressionWith x) (expressionWith y) := by
  intro m n h hi hj
  apply (term_agree hinner h hi hj).bind
  rintro _ first m₁ n₁ ⟨rfl, h₁⟩
  rw [lineNumber?_bind_apply, lineNumber?_bind_apply, k.line h₁.cursor]
  cases n₁.cursor.lineNumber? true with
  | some number =>
      apply (note_agree h₁ _).bind
      intro _ _ m₂ n₂ h₂
      exact .ok ⟨rfl, h₂⟩
  | none => exact chain_valued add_operators (term_agree hinner) hi hj h₁

theorem expressionWithin_agree (i j : Nat) :
    EvaluatesWithin k i j (expressionWithin i) (expressionWithin j) := by
  induction i generalizing j with
  | zero =>
      intro m n h hi
      omega
  | succ i ih =>
      cases j with
      | zero =>
          intro m n h hi hj
          omega
      | succ j => exact expressionWith_agree (ih j)

theorem expression_agree (h : Paired k E m n) :
    Agree k (Valued k m n) (expression m) (expression n) := by
  unfold expression
  rw [moves_bind_apply, moves_bind_apply]
  exact expressionWithin_agree _ _ h.anywhere m.toGo_lt_moves n.toGo_lt_moves

theorem relation_agree (h : Paired k E m n) :
    Agree k (Valued k m n) (relation m) (relation n) := by
  unfold relation relationWith
  apply (expression_agree h).bind
  rintro _ left m₁ n₁ ⟨rfl, h₁⟩
  have hpast : m₁.toGo < m.toGo := h₁.extra.1.1
  have hpast' : n₁.toGo < n.toGo := h₁.extra.1.2
  unfold relationFrom
  rw [lexeme_bind_apply, lexeme_bind_apply]
  rcases k.alike h₁.cursor with hl | ⟨a, b, hl, hl', -⟩ | ⟨-, hl, hl'⟩
  · rw [hl]
    cases hm : m₁.cursor.token.lexeme with
    | symbol sign =>
        simp only
        cases hc : sign.compares? with
        | none => exact .ok ⟨rfl, h₁⟩
        | some compares =>
            apply (next_agree h₁ (by simp [hm]) (by simp [hm])).bind
            intro _ _ m₂ n₂ h₂
            have hless : m₂.toGo < m₁.toGo := h₂.extra.1.1
            have hless' : n₂.toGo < n₁.toGo := h₂.extra.1.2
            apply (expression_agree h₂).bind
            rintro _ right m₃ n₃ ⟨rfl, h₃⟩
            apply (note_agree h₃ _).bind
            intro _ _ m₄ n₄ h₄
            refine .ok ⟨rfl, h₄.mono ?_⟩
            rintro ⟨⟨hfar, hfar'⟩, hedge⟩
            exact ⟨⟨Nat.lt_trans hfar (by omega), Nat.lt_trans hfar' (by omega)⟩, hedge⟩
    | _ => exact .ok ⟨rfl, h₁⟩
  · rw [hl, hl']
    exact .ok ⟨rfl, h₁⟩
  · rw [hl, hl']
    exact .ok ⟨rfl, h₁⟩

end LineBasic
