import LineBasic.Proofs.Inertness

/-!
# What expressions accept

Evaluating an expression accepts exactly the grammar. If the lexemes to come begin with
a derivation that no operator goes on with, the value is the one of that derivation and
the cursor has passed it, no more and no less; if they do not, the evaluation stops with
an error of grammar. The same holds of a comparison. In both cases the store is left
alone.

That a derivation is evaluated is known already. Here the converse is shown: wherever
the evaluation gets to, there is a derivation of what it has passed. A chain of operands
has at each of its rounds a derivation of the part before it, and the operand behind the
next operator either extends it or refuses.
-/
namespace LineBasic

/-- A letter that is read names a register. -/
theorem Name.exists_of_read {t : Text} {letter : Char} {n : Nat}
    (h : Lexeme.read t = .ok (.letter letter, n)) : ∃ name : Name, name.letter = letter := by
  obtain ⟨first, hfirst, i, hi, rfl⟩ := Text.exists_ofNat_of_isAlpha (Lexeme.isAlpha_of_read h)
  simp only [List.mem_cons, List.not_mem_nil, or_false] at hfirst
  rcases hfirst with rfl | rfl
  · exact ⟨⟨⟨i, hi⟩, true⟩, rfl⟩
  · exact ⟨⟨⟨i, hi⟩, false⟩, rfl⟩

namespace Machine

variable {α β : Type} {m m' : Machine} {registers : Registers} {c d : Cursor} {w : Nat}

/-- The action stops with an error of grammar, and the store is as before. -/
def Refuses (action : Run α) (m : Machine) : Prop :=
  ∃ e m', action m = .error (.error e) m' ∧ e.errorClass = .grammatical ∧ m'.store = m.store

theorem refuses_failHere {cause : Cause} (h : cause.errorClass = .grammatical) (m : Machine) :
    Refuses (failHere cause : Run α) m :=
  ⟨_, _, failHere_apply cause m, h, rfl⟩

namespace Refuses

variable {x : Run α} {f : α → Run β}

theorem bind (h : Refuses x m) : Refuses (x >>= f) m := by
  obtain ⟨e, m', hx, hclass, hstore⟩ := h
  exact ⟨e, m', bind_of_error hx, hclass, hstore⟩

theorem of_eq {y : Run α} (h : x m = y m) (hy : Refuses y m) : Refuses x m := by
  obtain ⟨e, m', hm', hrest⟩ := hy
  exact ⟨e, m', h.trans hm', hrest⟩

theorem after {a : α} {piece : Text} (hx : x m = .ok a m') (hworked : Worked m m' piece w)
    (h : Refuses (f a) m') : Refuses (x >>= f) m := by
  obtain ⟨e, m'', hf, hclass, hstore⟩ := h
  exact ⟨e, m'', (bind_of_ok hx).trans hf, hclass, hstore.trans hworked.store⟩

end Refuses

theorem refuses_accept {expected : Kind} (h : m.cursor.token.lexeme.kind ≠ expected) :
    Refuses (accept expected) m := by
  unfold Refuses
  rw [accept_apply, if_neg h]
  exact refuses_failHere rfl m

/-- The action evaluates a formula at a level, up to a lexeme that stops it, or refuses. -/
inductive Reads (registers : Registers) (level : Nat) (stops : Lexeme → Prop) (action : Run Int)
    (m : Machine) : Prop
  | evaluated {formula : Formula} {us : List Lexeme} {d : Cursor} : formula.Derives level us →
      m.cursor.Passes us d → stops d.token.lexeme →
      Delivers action m (formula.value m.size registers) (formula.warnings m.size registers) d →
      Reads registers level stops action m
  | refused : Refuses action m → Reads registers level stops action m

def StopsSum (l : Lexeme) : Prop := l.operates = false

def StopsTerm (l : Lexeme) : Prop := multiply? l = none

/-- What is in parentheses must be closed. -/
theorem factor_reads_enclosed {deeper : Nat} (htame : Tame m registers) (hdrains : m.cursor.Drains)
    (hdepth : m.toGo ≤ deeper + 1) (hopen : m.cursor.token.lexeme = .symbol .openParen)
    (hnext : Cursor.next m.cursor = .ok () c) (hc : c.Drains)
    (hinner : Reads registers 0 StopsSum (expressionWithin (deeper + 1)) (m.movedTo c)) :
    Reads registers 2 (fun _ => True) (factorWith (expressionWithin (deeper + 1))) m := by
  obtain ⟨hmoved, hworked⟩ := next_moves hdrains.toPlaced hnext
  have hfactor := @factorWith_paren (expressionWithin (deeper + 1)) m hopen
  cases hinner with
  | refused hrefuses => exact .refused (.of_eq hfactor (.after hmoved hworked hrefuses.bind))
  | @evaluated formula us d₁ hformula hus _ hdelivers =>
      obtain ⟨m₁, hvalue, hworked₁, rfl⟩ := hdelivers
      have hd₁ : m₁.cursor.Drains := (hus.upcoming hc).1
      by_cases hclose : m₁.cursor.token.lexeme = .symbol .closeParen
      · obtain ⟨d, hd, -⟩ := hd₁.next (by simp [hclose])
        have hpasses : m.cursor.Passes (enclosed us) d := by
          refine Cursor.Passes.cons_iff.2 ⟨hopen, by simp, c, hnext, hus.append ?_⟩
          exact Cursor.Passes.cons_iff.2 ⟨hclose, by simp, d, hd, .nil d⟩
        have hplace : AtFactor formula (enclosed us) := AtSum.enclosed (atLevel_of_derives hformula)
        exact .evaluated hformula.enclosed hpasses trivial
          (hplace htame hdrains.toPlaced hdepth hpasses)
      · have hkind : m₁.cursor.token.lexeme.kind ≠ .symbol .closeParen := by
          generalize m₁.cursor.token.lexeme = l at hclose
          cases l <;> simp_all [Lexeme.kind]
        exact .refused (.of_eq hfactor
          (.after hmoved hworked (.after hvalue hworked₁ (refuses_accept hkind).bind)))

/-- A factor is read, given that what stands in parentheses is. -/
theorem factor_reads {depth : Nat} (htame : Tame m registers) (hdrains : m.cursor.Drains)
    (hdepth : m.toGo ≤ depth)
    (hinner : ∀ m' : Machine, Tame m' registers → m'.cursor.Drains → m'.toGo < depth →
      Reads registers 0 StopsSum (expressionWithin depth) m') :
    Reads registers 2 (fun _ => True) (factorWith (expressionWithin depth)) m := by
  have hread := hdrains.here
  have hother (h : beginsFactor m.cursor.token.lexeme = false) :
      Reads registers 2 (fun _ => True) (factorWith (expressionWithin depth)) m :=
    .refused (.of_eq (factorWith_other h) (refuses_failHere rfl m))
  cases hl : m.cursor.token.lexeme with
  | number value =>
      obtain ⟨d, hd, -⟩ := hdrains.next (by simp [hl])
      rw [hl] at hread
      obtain ⟨number, rfl⟩ : ∃ number : Literal, number.value = value :=
        ⟨⟨value, Lexeme.writable_of_read hread⟩, rfl⟩
      have hpasses : m.cursor.Passes [.number number.value] d := hl ▸ .one (by simp [hl]) hd
      exact .evaluated (.literal number) hpasses trivial
        (literal_atFactor number htame hdrains.toPlaced hdepth hpasses)
  | letter letter =>
      obtain ⟨d, hd, -⟩ := hdrains.next (by simp [hl])
      rw [hl] at hread
      obtain ⟨name, rfl⟩ := Name.exists_of_read hread
      have hpasses : m.cursor.Passes [.letter name.letter] d := hl ▸ .one (by simp [hl]) hd
      exact .evaluated (.register name) hpasses trivial
        (register_atFactor name htame hdrains.toPlaced hdepth hpasses)
  | symbol sign =>
      by_cases hopen : sign = .openParen
      · subst hopen
        obtain ⟨c, hc, hcdrains, -⟩ := hdrains.next (by simp [hl])
        have hless : (m.movedTo c).toGo < m.toGo :=
          hdrains.length_next (by simp [hl]) hc
        obtain ⟨deeper, rfl⟩ : ∃ deeper, depth = deeper + 1 := ⟨depth - 1, by omega⟩
        have htame' := htame.worked (next_moves hdrains.toPlaced hc).2
        have hnested := hinner (m.movedTo c) htame' hcdrains (by omega)
        exact factor_reads_enclosed htame hdrains hdepth hl hc hcdrains hnested
      · apply hother
        rw [hl]
        cases sign with
        | openParen => exact absurd rfl hopen
        | _ => rfl
  | _ => exact hother (by rw [hl]; rfl)

section
variable {operand : Run Int} {operator? : Lexeme → Option (Int → Int → Run Int)} {level : Nat}
  {stops : Lexeme → Prop} {formula : Formula} {us : List Lexeme} {first value : Int} {m₁ : Machine}

/-- From a derivation of what the chain has passed on, it comes to the longest one or
an operand refuses. The induction is on what is ahead. -/
theorem Chains.reads (htame : Tame m registers)
    (htakes : ∀ l, operator? l ≠ none →
      ∃ operator : Operator, operator.level = level ∧ l = .symbol operator.sign ∧
        Applies operator? operator)
    (hoperand : ∀ m' : Machine, Tame m' registers → m'.cursor.Drains → m'.toGo ≤ m.toGo →
      Reads registers (level + 1) stops operand m')
    (hplaced : m.cursor.Placed) (hformula : formula.Derives level us)
    (hpasses : m.cursor.Passes us c) (hc : c.Drains) (hstops : stops c.token.lexeme)
    (h : Chains operand operator? m (formula.value m.size registers)
      (formula.warnings m.size registers) c) :
    (∃ (formula : Formula) (us : List Lexeme) (d : Cursor), formula.Derives level us ∧
      m.cursor.Passes us d ∧ stops d.token.lexeme ∧ operator? d.token.lexeme = none ∧
      Chains operand operator? m (formula.value m.size registers)
        (formula.warnings m.size registers) d) ∨
    ∃ first m₁ e m', operand m = .ok first m₁ ∧
      chain operand operator? first m₁ = .error (.error e) m' ∧
      e.errorClass = .grammatical ∧ m'.store = m.store := by
  generalize hlength : c.ahead.length = length
  induction length using Nat.strongRecOn generalizing formula us c with
  | _ length ih =>
  by_cases hend : operator? c.token.lexeme = none
  · exact .inl ⟨formula, us, c, hformula, hpasses, hstops, hend, h⟩
  obtain ⟨operator, rfl, hsign, happlies⟩ := htakes _ hend
  have hsource : c.token.lexeme ≠ .sourceEnd := by simp [hsign]
  obtain ⟨c', hc', hdrains', -⟩ := hc.next hsource
  have hshorter := hc.length_next hsource hc'
  have hwhole := hpasses.length_le hplaced
  obtain ⟨first, m₁, m₂, hfirst, hrounds, hworked, rfl⟩ := h
  obtain ⟨hmoved, hworked'⟩ := next_moves hc.toPlaced hc'
  have htame' := htame.worked (hworked.trans hworked')
  have htoGo : (m₂.movedTo c').toGo ≤ m.toGo := Nat.le_trans (Nat.le_of_lt hshorter) hwhole
  cases hoperand (m₂.movedTo c') htame' hdrains' htoGo with
  | @evaluated right behind d hright hbehind hstop hdelivers =>
      have hrest : m₂.cursor.Passes (.symbol operator.sign :: behind) d :=
        Cursor.Passes.cons_iff.2 ⟨hsign, by simp, c', hc', hbehind⟩
      have hless := hrest.length_lt hc.toPlaced
      rw [hworked'.size, hworked.size] at hdelivers
      have hchains := Chains.round happlies hfirst hrounds hworked hc.toPlaced hsign hc' hless
        hdelivers
      exact ih _ (by omega) (hformula.operation hright) (hpasses.append hrest)
        (hrest.upcoming hc).1 hstop hchains rfl
  | refused hrefuses =>
      obtain ⟨apply, happly, -⟩ := happlies
      rw [← hsign] at happly
      have hround : Refuses (chainRound operand operator? (formula.value m.size registers)) m₂ :=
        .of_eq (chainRound_eq happly) (.after hmoved hworked' hrefuses.bind)
      obtain ⟨e, m', hround, hclass, hstore⟩ := hround
      refine .inr ⟨first, m₁, e, m', hfirst, ?_, hclass, hstore.trans hworked.store⟩
      rw [chain_apply]
      exact hrounds.iterate_fails hround m₁.toGo_lt_moves

end

theorem multiply?_takes (l : Lexeme) (h : multiply? l ≠ none) :
    ∃ operator : Operator, operator.level = 1 ∧ l = .symbol operator.sign ∧
      Applies multiply? operator := by
  unfold multiply? at h
  split at h
  · exact ⟨.times, rfl, rfl, applies_multiply? rfl⟩
  · exact ⟨.slash, rfl, rfl, applies_multiply? rfl⟩
  · exact absurd rfl h

theorem add?_takes (l : Lexeme) (h : add? l ≠ none) :
    ∃ operator : Operator, operator.level = 0 ∧ l = .symbol operator.sign ∧
      Applies add? operator := by
  unfold add? at h
  split at h
  · exact ⟨.plus, rfl, rfl, applies_add? rfl⟩
  · exact ⟨.minus, rfl, rfl, applies_add? rfl⟩
  · exact absurd rfl h

section
variable {depth : Nat}

/-- A product is read if factors are. -/
theorem term_reads (htame : Tame m registers) (hdrains : m.cursor.Drains) (hdepth : m.toGo ≤ depth)
    (hfactor : ∀ m' : Machine, Tame m' registers → m'.cursor.Drains → m'.toGo ≤ depth →
      Reads registers 2 (fun _ => True) (factorWith (expressionWithin depth)) m') :
    Reads registers 1 StopsTerm (termWith (expressionWithin depth)) m := by
  cases hfactor m htame hdrains hdepth with
  | refused hrefuses => exact .refused hrefuses.bind
  | evaluated hformula hpasses hstop hdelivers =>
      have hchain := hdelivers.chains.reads htame multiply?_takes
        (fun m' htame' hdrains' hless => hfactor m' htame' hdrains' (Nat.le_trans hless hdepth))
        hdrains.toPlaced hformula.raise hpasses (hpasses.upcoming hdrains).1 hstop
      rcases hchain with ⟨formula, us, d, hderives, hus, -, hend, hchains⟩ |
        ⟨first, m₁, e, m', hfirst, herror, hrest⟩
      · exact .evaluated hderives hus hend (hchains.delivers hend)
      · exact .refused ⟨e, m', (bind_of_ok hfirst).trans herror, hrest⟩

/-- A sum is read if products are. A line number behind the first term, where the sum
stops early, is no operator that the chain could refuse at. -/
theorem sum_reads (htame : Tame m registers) (hdrains : m.cursor.Drains) (hdepth : m.toGo ≤ depth)
    (hterm : ∀ m' : Machine, Tame m' registers → m'.cursor.Drains → m'.toGo ≤ depth →
      Reads registers 1 StopsTerm (termWith (expressionWithin depth)) m') :
    Reads registers 0 StopsSum (expressionWithin (depth + 1)) m := by
  cases hterm m htame hdrains hdepth with
  | refused hrefuses => exact .refused hrefuses.bind
  | evaluated hformula hpasses hstop hdelivers =>
      have hchain := hdelivers.chains.reads htame add?_takes
        (fun m' htame' hdrains' hless => hterm m' htame' hdrains' (Nat.le_trans hless hdepth))
        hdrains.toPlaced hformula.raise hpasses (hpasses.upcoming hdrains).1 hstop
      rcases hchain with ⟨formula, us, d, hderives, hus, hstop, hend, hchains⟩ |
        ⟨first, m₁, e, m', hfirst, herror, hrest⟩
      · exact .evaluated hderives hus (operates_eq_false.2 ⟨hstop, hend⟩)
          (hchains.sum_delivers (hus.placed hdrains.toPlaced) hend)
      · refine .refused ⟨e, m', ?_, hrest⟩
        have hnumber : ∀ k, m₁.cursor.token.lexeme ≠ .number k := by
          intro k hk
          rw [chain_apply, iterate_of_done (chainRound_of_none (by rw [hk]; rfl))] at herror
          cases herror
        unfold expressionWithin expressionWith sumOf
        rw [bind_of_ok hfirst, lineNumber?_bind_apply, lineNumber?_of_ne hnumber]
        exact herror

/-- Expressions are read, however deep their parentheses. -/
theorem expressionWithin_reads (depth : Nat) (m : Machine) (htame : Tame m registers)
    (hdrains : m.cursor.Drains) (hdepth : m.toGo ≤ depth) :
    Reads registers 0 StopsSum (expressionWithin (depth + 1)) m := by
  induction depth generalizing m with
  | zero =>
      apply sum_reads htame hdrains hdepth
      intro m₁ htame₁ hdrains₁ hdepth₁
      apply term_reads htame₁ hdrains₁ hdepth₁
      intro m₂ htame₂ hdrains₂ hdepth₂
      exact factor_reads htame₂ hdrains₂ hdepth₂ fun _ _ _ hless => absurd hless (Nat.not_lt_zero _)
  | succ depth ih =>
      apply sum_reads htame hdrains hdepth
      intro m₁ htame₁ hdrains₁ hdepth₁
      apply term_reads htame₁ hdrains₁ hdepth₁
      intro m₂ htame₂ hdrains₂ hdepth₂
      exact factor_reads htame₂ hdrains₂ hdepth₂ fun m₃ htame₃ hdrains₃ hless =>
        ih m₃ htame₃ hdrains₃ (Nat.le_of_lt_succ hless)

end

theorem expression_reads (htame : Tame m registers) (hdrains : m.cursor.Drains) :
    Reads registers 0 StopsSum expression m := by
  have hdepth : m.toGo ≤ m.cursor.sheet.text.length := Nat.le_of_lt_succ m.toGo_lt_moves
  cases expressionWithin_reads _ m htame hdrains hdepth with
  | evaluated hderives hpasses hstops hdelivers =>
      obtain ⟨m', hm', hrest⟩ := hdelivers
      exact .evaluated hderives hpasses hstops ⟨m', (expression_apply m).trans hm', hrest⟩
  | refused hrefuses => exact .refused (.of_eq (expression_apply m) hrefuses)

theorem Comparison.exists_of_compares {l : Lexeme} (h : l.compares = true) :
    ∃ comparison : Comparison, l = .symbol comparison.sign := by
  cases l with
  | symbol sign =>
      cases sign with
      | equal => exact ⟨.equal, rfl⟩
      | less => exact ⟨.less, rfl⟩
      | greater => exact ⟨.greater, rfl⟩
      | atMost => exact ⟨.atMost, rfl⟩
      | atLeast => exact ⟨.atLeast, rfl⟩
      | unequal => exact ⟨.unequal, rfl⟩
      | _ => cases h
  | _ => cases h

/-- A comparison is read if there is one behind the first expression. -/
theorem relation_reads (htame : Tame m registers) (hdrains : m.cursor.Drains) :
    (∃ (condition : Condition) (us : List Lexeme) (d : Cursor), condition.Derives us ∧
      m.cursor.Passes us d ∧ condition.endsBefore d.token.lexeme = true) ∨
    Refuses relation m := by
  rw [relation_eq]
  cases expression_reads htame hdrains with
  | refused hrefuses => exact .inr hrefuses.bind
  | @evaluated left before d₁ hleft hbefore hstop hdelivers =>
      unfold StopsSum at hstop
      obtain ⟨m₁, hvalue, hworked₁, rfl⟩ := hdelivers
      have hdrains₁ := (hbefore.upcoming hdrains).1
      cases hcompares : m₁.cursor.token.lexeme.compares with
      | false =>
          refine .inl ⟨.nonzero left, before, _, .nonzero hleft, hbefore, ?_⟩
          simp [Condition.endsBefore, hstop, hcompares]
      | true =>
          obtain ⟨comparison, hsign⟩ := Comparison.exists_of_compares hcompares
          obtain ⟨compares, hsome, -⟩ := compares?_sign comparison
          obtain ⟨c, hc, hcdrains, -⟩ := hdrains₁.next (by simp [hsign])
          obtain ⟨hnext, hworked₂⟩ := next_moves hdrains₁.toPlaced hc
          have htame₂ : Tame (m₁.movedTo c) registers := (htame.worked hworked₁).worked hworked₂
          cases expression_reads htame₂ hcdrains with
          | refused hrefuses =>
              exact .inr (.after hvalue hworked₁ (.of_eq (relationFrom_of_sign hsign hsome)
                (.after hnext hworked₂ hrefuses.bind)))
          | @evaluated right behind d hright hbehind hstop' _ =>
              refine .inl ⟨.compared left comparison right, _, d, .compared comparison hleft hright,
                hbefore.append (Cursor.Passes.cons_iff.2 ⟨hsign, by simp, c, hc, hbehind⟩), ?_⟩
              unfold StopsSum at hstop'
              simp [Condition.endsBefore, hstop']

/-- Of lexemes `us` and others `vs` behind them: the former derive a formula with a value
and warnings, and the latter begin with no operator. -/
def FormulaFirst (size : WordSize) (registers : Registers) (us vs : List Lexeme) (value : Int)
    (warnings : Nat) : Prop :=
  ∃ formula : Formula, formula.Derives 0 us ∧ (∀ l ∈ vs.head?, l.operates = false) ∧
    value = formula.value size registers ∧ warnings = formula.warnings size registers

/-- The same of a condition, with one for a true and zero for a false one. What is behind
begins with no operator and, where nothing has been compared, with no comparison either. -/
def ConditionFirst (size : WordSize) (registers : Registers) (us vs : List Lexeme) (value : Int)
    (warnings : Nat) : Prop :=
  ∃ condition : Condition, condition.Derives us ∧
    (∀ l ∈ vs.head?, condition.endsBefore l = true) ∧
    value = (if condition.holds size registers then 1 else 0) ∧
    warnings = condition.warnings size registers

/-- An action accepts what is to come exactly if it begins with a phrase. It then gives the
phrase's value with its warnings and has passed the phrase, with the store, the output and
all else as before; and if there is none, it refuses. -/
structure Recognizes (action : Run Int) (m : Machine)
    (First : List Lexeme → List Lexeme → Int → Nat → Prop) : Prop where
  returns_iff : (∃ value m', action m = .ok value m') ↔
    ∃ us vs value warnings, m.cursor.upcoming = us ++ vs ∧ First us vs value warnings
  returned : ∀ us vs value warnings, m.cursor.upcoming = us ++ vs → First us vs value warnings →
    ∃ m', action m = .ok value m' ∧ m.cursor.Passes us m'.cursor ∧ m'.cursor.upcoming = vs ∧
      Worked m m' [] warnings
  refused : (¬ ∃ us vs value warnings, m.cursor.upcoming = us ++ vs ∧ First us vs value warnings) →
    Refuses action m

theorem recognizes {action : Run Int} {First : List Lexeme → List Lexeme → Int → Nat → Prop}
    (hdelivers : ∀ us vs value warnings, m.cursor.upcoming = us ++ vs →
      First us vs value warnings →
      ∃ d, m.cursor.Passes us d ∧ d.upcoming = vs ∧ Delivers action m value warnings d)
    (hreads : (∃ us vs value warnings, m.cursor.upcoming = us ++ vs ∧ First us vs value warnings) ∨
      Refuses action m) : Recognizes action m First where
  returns_iff := by
    constructor
    · rintro ⟨value, m', hm'⟩
      rcases hreads with hfirst | ⟨e, m'', hm'', -⟩
      · exact hfirst
      · cases hm'.symm.trans hm''
    · rintro ⟨us, vs, value, warnings, hsplit, hfirst⟩
      obtain ⟨d, -, -, m', hm', -⟩ := hdelivers us vs value warnings hsplit hfirst
      exact ⟨value, m', hm'⟩
  returned := by
    intro us vs value warnings hsplit hfirst
    obtain ⟨d, hpasses, hupcoming, m', hm', hworked, rfl⟩ :=
      hdelivers us vs value warnings hsplit hfirst
    exact ⟨m', hm', hpasses, hupcoming, hworked⟩
  refused := fun hnone => hreads.resolve_left hnone

/-- What is behind a cursor begins with the lexeme that the cursor is on. -/
theorem forall_head_upcoming {p : Lexeme → Prop} :
    (∀ l ∈ c.upcoming.head?, p l) ↔ p c.token.lexeme := by
  simp [Cursor.head?_upcoming]

theorem expression_recognizes (htame : Tame m registers) (hdrains : m.cursor.Drains) :
    Recognizes expression m (FormulaFirst m.size registers) := by
  apply recognizes
  · rintro us vs _ _ hsplit ⟨formula, hderives, hbehind, rfl, rfl⟩
    obtain ⟨d, hpasses, -, rfl⟩ := hdrains.passes hsplit hderives.sourceEnd_notMem
    rw [forall_head_upcoming] at hbehind
    exact ⟨d, hpasses, rfl, expression_delivers hderives htame hdrains.toPlaced hpasses hbehind⟩
  · cases expression_reads htame hdrains with
    | refused hrefuses => exact .inr hrefuses
    | @evaluated formula us d hderives hpasses hstop _ =>
        exact .inl ⟨us, d.upcoming, _, _, (hpasses.upcoming hdrains).2, formula, hderives,
          forall_head_upcoming.2 hstop, rfl, rfl⟩

theorem relation_recognizes (htame : Tame m registers) (hdrains : m.cursor.Drains) :
    Recognizes relation m (ConditionFirst m.size registers) := by
  apply recognizes
  · rintro us vs _ _ hsplit ⟨condition, hderives, hbehind, rfl, rfl⟩
    obtain ⟨d, hpasses, -, rfl⟩ := hdrains.passes hsplit hderives.sourceEnd_notMem
    rw [forall_head_upcoming] at hbehind
    exact ⟨d, hpasses, rfl, relation_delivers hderives htame hdrains.toPlaced hpasses hbehind⟩
  · rcases relation_reads htame hdrains with ⟨condition, us, d, hderives, hpasses, hend⟩ | hrefuses
    · exact .inl ⟨us, d.upcoming, _, _, (hpasses.upcoming hdrains).2, condition, hderives,
        forall_head_upcoming.2 hend, rfl, rfl⟩
    · exact .inr hrefuses

/-- Expressions and comparisons accept exactly their grammar, with the value that it
gives them, from every place whose lexemes can be read to the end. -/
theorem grammar_accepted (m : Machine) (registers : Registers) (htame : Tame m registers)
    (hdrains : m.cursor.Drains) :
    Recognizes expression m (FormulaFirst m.size registers) ∧
      Recognizes relation m (ConditionFirst m.size registers) :=
  ⟨expression_recognizes htame hdrains, relation_recognizes htame hdrains⟩

/-- A product in parentheses is divided by zero, and the sum ends before a comparison, which
is true. -/
theorem grammar_accepted_quotient :
    let m := fresh ⟨⟨"2*(3-x)/0+9<=9 10".toList, []⟩, .first, ⟨.number 2, 1, 1, 0, 1⟩⟩
      ⟨16, by decide⟩ {} {}
    Tame m (fun _ => 0) ∧ m.cursor.Drains ∧
      (∃ m', expression m = .ok 9 m' ∧ m'.reports.warnings = 1 ∧
        m'.cursor.upcoming = [.symbol .atMost, .number 9, .number 10, .sourceEnd]) ∧
      ∃ m', relation m = .ok 1 m' ∧ m'.cursor.upcoming = [.number 10, .sourceEnd] := by
  intro m
  have htame : Tame m fun _ => 0 :=
    ⟨Store.zero_eq, fun _ => m.size.fits_zero, m.size.writable_iff_bits_le.2 (by decide)⟩
  have hdrains : m.cursor.Drains :=
    ⟨Cursor.placed_of_start rfl, by decide +kernel⟩
  let number (value : Nat) (h : Numeral.writable value = true) : Formula := .literal ⟨value, h⟩
  let sum : Formula := .operation .plus
    (.operation .slash
      (.operation .times (number 2 (by decide +kernel))
        (.operation .minus (number 3 (by decide +kernel)) (.register ⟨23, false⟩)))
      (number 0 (by decide +kernel)))
    (number 9 (by decide +kernel))
  let condition : Condition := .compared sum .atMost (number 9 (by decide +kernel))
  obtain ⟨hexpression, hrelation⟩ := grammar_accepted m (fun _ => 0) htame hdrains
  obtain ⟨m₁, hsum, -, hbehind₁, hworked₁⟩ := hexpression.returned (sum.lexemes 0)
    [.symbol .atMost, .number 9, .number 10, .sourceEnd] 9 1 (by decide +kernel)
    ⟨sum, sum.derives_lexemes (Nat.zero_le 2), by simp [Lexeme.operates], by decide, by decide⟩
  obtain ⟨m₂, hcompared, -, hbehind₂, -⟩ := hrelation.returned condition.lexemes
    [.number 10, .sourceEnd] 1 1 (by decide +kernel)
    ⟨condition, condition.derives_lexemes, by simp [Condition.endsBefore, Lexeme.operates, condition],
      by decide, by decide⟩
  exact ⟨htame, hdrains, ⟨m₁, hsum, hworked₁.warnings, hbehind₁⟩, m₂, hcompared, hbehind₂⟩

end Machine

end LineBasic
