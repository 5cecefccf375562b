import LineBasic.Proofs.Calls
import LineBasic.Proofs.Derivation

/-!
# Formulas are evaluated

A machine on lexemes that derive a formula evaluates it to the formula's value, warns
as often as the formula does, and comes to what stands behind it.

A formula is found at three places: as a factor, at the start of a product and at the
start of a sum. The latter two go on as long as operators follow, so at these the
lexemes of a formula take a first operand and some rounds of the chain behind it,
and the formula's value is what the chain then carries. It is the result only if
what follows is no further operator. A line number right behind the first term ends
the sum early, but it is no operator either and would have ended it all the same.
-/
namespace LineBasic

theorem WordSize.divide_eq (w : WordSize) (a b : Int) : w.divide a b = w.wrap (a.tdiv b) := by
  unfold divide
  cases a with
  | ofNat a =>
      cases b with
      | ofNat b =>
          have ha : ¬ (a : Int) < 0 := by omega
          have hb : ¬ (b : Int) < 0 := by omega
          simp [ha, hb]
      | negSucc b => simp [Int.tdiv]
  | negSucc a =>
      cases b with
      | ofNat b => simp [Int.tdiv]
      | negSucc b => simp [Int.tdiv]

theorem WordSize.fits_zero (w : WordSize) : w.Fits 0 := by
  have hpos := w.half_pos
  exact ⟨by omega, hpos⟩

namespace Store

def key (register : Fin 26) : Text := [Char.ofNat ('a'.toNat + register)]

def holding (registers : Registers) : Store :=
  ⟨(List.finRange 26).map fun register => (key register, registers register)⟩

theorem key_injective {i j : Fin 26} (h : key i = key j) : i = j := by
  revert i j
  decide +kernel

theorem zero_eq : zero = holding fun _ => 0 := by
  decide +kernel

theorem lookup_holding (registers : Registers) (register : Fin 26) (listed : List (Fin 26))
    (h : register ∈ listed) :
    (listed.map fun other => (key other, registers other)).lookup (key register) =
      some (registers register) := by
  induction listed with
  | nil => cases h
  | cons first rest ih =>
      by_cases hfirst : register = first
      · subst hfirst
        simp
      · have hkey : key register ≠ key first := fun hk => hfirst (key_injective hk)
        have hrest : register ∈ rest := by simpa [hfirst] using h
        simp [List.lookup_cons, beq_eq_false_iff_ne.2 hkey, ih hrest]

theorem get_holding (registers : Registers) (register : Fin 26) :
    (holding registers).get (key register) = .ok (registers register) := by
  have hlookup := lookup_holding registers register _ (List.mem_finRange register)
  simp only [get, get?, holding, hlookup]

theorem set_holding (registers : Registers) (register : Fin 26) (value : Int) :
    (holding registers).set (key register) value = .ok (holding (registers.set register value)) := by
  have hhas : (holding registers).has (key register) = true := by
    simp [has, holding]
  rw [set, if_pos hhas]
  simp only [holding, List.map_map]
  congr 2
  apply List.map_congr_left
  intro other _
  simp only [Function.comp_apply, Registers.set]
  by_cases hother : other = register
  · simp [hother]
  · have hkey : key other ≠ key register := fun hk => hother (key_injective hk)
    simp [hother, hkey]

end Store

namespace Name

theorem lower_letter (name : Name) : Text.lower [name.letter] = Store.key name.register := by
  obtain ⟨register, capital⟩ := name
  revert register capital
  decide +kernel

theorem lower_key (register : Fin 26) : Text.lower (Store.key register) = Store.key register := by
  revert register
  decide +kernel

end Name

theorem Operator.fits_result (size : WordSize) (operator : Operator) (a b : Int) :
    size.Fits (operator.result size a b) := by
  cases operator with
  | slash =>
      simp only [result]
      split
      · exact size.fits_zero
      · exact size.fits_wrap _
  | _ => exact size.fits_wrap _

theorem Formula.fits_value {size : WordSize} {registers : Registers}
    (h : ∀ register, size.Fits (registers register)) (formula : Formula) :
    size.Fits (formula.value size registers) := by
  cases formula with
  | literal number => exact size.fits_wrap _
  | register name => exact h _
  | operation operator left right => exact operator.fits_result size _ _

namespace Machine

variable {m m' : Machine} {registers : Registers} {ls : List Lexeme} {below : Text}
  {value : Int} {w : Nat}

/-- A machine whose store holds given words, all of which can be written. -/
structure Tame (m : Machine) (registers : Registers) : Prop where
  store : m.store = .holding registers
  fits : ∀ register, m.size.Fits (registers register)
  writable : ∀ v, m.size.Fits v → Numeral.writable v = true

theorem Tame.worked (h : Tame m registers) {piece : Text} (hw : Worked m m' piece w) :
    Tame m' registers where
  store := hw.store.trans h.store
  fits := by
    rw [hw.size]
    exact h.fits
  writable := by
    rw [hw.size]
    exact h.writable

/-- The action gives a value with some warnings and comes to a cursor. -/
def Delivers (action : Run Int) (m : Machine) (value : Int) (warnings : Nat) (d : Cursor) : Prop :=
  ∃ m', action m = .ok value m' ∧ Worked m m' [] warnings ∧ m'.cursor = d

/-- The action gives a value with some warnings and comes to what the machine then sees. -/
def Gives (action : Run Int) (m : Machine) (value : Int) (warnings : Nat) (ls : List Lexeme)
    (below : Text) : Prop :=
  ∃ m', action m = .ok value m' ∧ Worked m m' [] warnings ∧ m'.cursor.Sees ls below

theorem next_moves (hplaced : m.cursor.Placed) (hd : Cursor.next m.cursor = .ok () d) :
    next m = .ok () (m.movedTo d) ∧ Worked m (m.movedTo d) [] 0 :=
  ⟨onCursor_of_ok hd, worked_movedTo m (hplaced.next hd).2⟩

theorem accept_moves (expected : Kind) (hplaced : m.cursor.Placed)
    (hkind : m.cursor.token.lexeme.kind = expected) (hd : Cursor.next m.cursor = .ok () d) :
    accept expected m = .ok () (m.movedTo d) ∧ Worked m (m.movedTo d) [] 0 := by
  rw [accept_apply, if_pos hkind]
  exact next_moves hplaced hd

section
variable {operand : Run Int} {operator? : Lexeme → Option (Int → Int → Run Int)}

theorem chain_apply (first : Int) (m : Machine) :
    chain operand operator? first m =
      iterate (chainRound operand operator?) (m.cursor.sheet.text.length + 1) first m := rfl

theorem chainRound_of_none (h : operator? m.cursor.token.lexeme = none) :
    chainRound operand operator? value m = .ok (.done value) m := by
  unfold chainRound
  rw [lexeme_bind_apply, h]
  rfl

theorem chainRound_eq {operator : Int → Int → Run Int}
    (h : operator? m.cursor.token.lexeme = some operator) :
    chainRound operand operator? value m =
      (next >>= fun _ => operand >>= fun other => operator value other >>= fun result =>
        pure (.again result)) m := by
  unfold chainRound
  rw [lexeme_bind_apply, h]

theorem chainRound_of_some {operator : Int → Int → Run Int} {m₁ m₂ m₃ : Machine}
    {other result : Int} (h : operator? m.cursor.token.lexeme = some operator)
    (hnext : next m = .ok () m₁) (hoperand : operand m₁ = .ok other m₂)
    (hresult : operator value other m₂ = .ok result m₃) :
    chainRound operand operator? value m = .ok (.again result) m₃ := by
  rw [chainRound_eq h, bind_of_ok hnext, bind_of_ok hoperand, bind_of_ok hresult]
  rfl

/-- A first operand and rounds of the chain behind it carry a value up to a cursor. -/
def Chains (operand : Run Int) (operator? : Lexeme → Option (Int → Int → Run Int))
    (m : Machine) (value : Int) (warnings : Nat) (d : Cursor) : Prop :=
  ∃ first m₁ m₂, operand m = .ok first m₁ ∧
    Rounds (chainRound operand operator?) first m₁ value m₂ ∧ Worked m m₂ [] warnings ∧
    m₂.cursor = d

theorem Delivers.chains (h : Delivers operand m value w d) :
    Chains operand operator? m value w d := by
  obtain ⟨m', hm', hworked, hcursor⟩ := h
  exact ⟨value, m', m', hm', .refl _ _, hworked, hcursor⟩

/-- The chain ends where no operator follows. -/
theorem Chains.delivers (h : Chains operand operator? m value w d)
    (hend : operator? d.token.lexeme = none) :
    Delivers (operand >>= chain operand operator?) m value w d := by
  obtain ⟨first, m₁, m₂, hfirst, hrounds, hworked, rfl⟩ := h
  refine ⟨m₂, ?_, hworked, rfl⟩
  rw [bind_of_ok hfirst, chain_apply]
  exact hrounds.iterate (chainRound_of_none hend) m₁.toGo_lt_moves

def Applies (operator? : Lexeme → Option (Int → Int → Run Int)) (operator : Operator) : Prop :=
  ∃ apply, operator? (.symbol operator.sign) = some apply ∧ ∀ (a b : Int) (m : Machine),
    ∃ m', apply a b m = .ok (operator.result m.size a b) m' ∧
      Worked m m' [] (operator.warnings b) ∧ m'.cursor = m.cursor

/-- A further round of the chain: an operator and the operand behind it. -/
theorem Chains.round {operator : Operator} {first other : Int} {m₁ m₂ : Machine} {w' : Nat}
    (happlies : Applies operator? operator) (hfirst : operand m = .ok first m₁)
    (hrounds : Rounds (chainRound operand operator?) first m₁ value m₂)
    (hworked : Worked m m₂ [] w) (hplaced : m₂.cursor.Placed)
    (hsign : m₂.cursor.token.lexeme = .symbol operator.sign)
    (hc : Cursor.next m₂.cursor = .ok () c) (hless : d.ahead.length < m₂.cursor.ahead.length)
    (hother : Delivers operand (m₂.movedTo c) other w' d) :
    Chains operand operator? m (operator.result m.size value other)
      (w + w' + operator.warnings other) d := by
  obtain ⟨apply, happly, hresult⟩ := happlies
  obtain ⟨hnext, hworked₃⟩ := next_moves hplaced hc
  obtain ⟨m₄, hoperand, hworked₄, hcursor₄⟩ := hother
  obtain ⟨m₅, hresult, hworked₅, hcursor₅⟩ := hresult value other m₄
  have hworked' := (hworked.trans hworked₃).trans hworked₄
  have hlast : m₅.cursor = d := hcursor₅.trans hcursor₄
  rw [hworked'.size] at hresult
  refine ⟨first, m₁, m₅, hfirst, hrounds.trans (.one ?_ ?_), hworked'.trans hworked₅, hlast⟩
  · exact chainRound_of_some (by rw [hsign, happly]) hnext hoperand hresult
  · rwa [toGo, toGo, hlast]

/-- The same with the operand given wherever it is read, from less text than the chain. -/
theorem Chains.operate {operator : Operator} {others : List Lexeme} {other : Int} {w' : Nat}
    (h : Chains operand operator? m value w c) (hplaced : c.Placed)
    (hpasses : c.Passes (.symbol operator.sign :: others) d)
    (happlies : Applies operator? operator)
    (hother : ∀ m', Worked m m' [] w → m'.cursor.Placed →
      m'.cursor.ahead.length ≤ c.ahead.length → m'.cursor.Passes others d →
      Delivers operand m' other w' d) :
    Chains operand operator? m (operator.result m.size value other)
      (w + w' + operator.warnings other) d := by
  obtain ⟨first, m₁, m₂, hfirst, hrounds, hworked, rfl⟩ := h
  obtain ⟨hsign, hend, c₃, hc₃, hrest⟩ := Cursor.Passes.cons_iff.1 hpasses
  have hworked₃ := (next_moves hplaced hc₃).2
  have hshorter := Nat.le_of_lt (hplaced.length_next (hsign ▸ hend) hc₃)
  have hoperand := hother _ (hworked.trans hworked₃) (hplaced.next hc₃).1 hshorter hrest
  exact .round happlies hfirst hrounds hworked hplaced hsign hc₃ (hpasses.length_lt hplaced)
    hoperand

end

theorem divide_applies (a b : Int) (m : Machine) :
    ∃ m', divide a b m = .ok (Operator.slash.result m.size a b) m' ∧
      Worked m m' [] (Operator.slash.warnings b) ∧ m'.cursor = m.cursor := by
  by_cases hb : b = 0
  · have hworked : Worked m (m.warned "divide by zero") [] 1 := worked_reports m rfl
    have hwritable : Event.dividedByZero.writable = true := rfl
    obtain ⟨m', hnote, hworked', hcursor⟩ := note_works hwritable (m.warned "divide by zero")
    refine ⟨m', ?_, ?_, hcursor⟩
    · unfold divide
      rw [if_pos hb, bind_of_ok (warn_apply _ m), bind_of_ok hnote]
      simp [Operator.result, hb]
    · simpa [Operator.warnings, hb] using hworked.trans hworked'
  · refine ⟨m, ?_, ?_, rfl⟩
    · unfold divide
      rw [if_neg hb, get_bind_apply, WordSize.divide_eq]
      simp [Operator.result, hb]
    · simpa [Operator.warnings, hb] using Worked.refl m

theorem applies_multiply? {operator : Operator} (h : operator.level = 1) :
    Applies multiply? operator := by
  cases operator with
  | plus => cases h
  | minus => cases h
  | times => exact ⟨_, rfl, fun a b m => ⟨m, rfl, .refl m, rfl⟩⟩
  | slash => exact ⟨_, rfl, divide_applies⟩

theorem applies_add? {operator : Operator} (h : operator.level = 0) :
    Applies add? operator := by
  cases operator with
  | plus => exact ⟨_, rfl, fun a b m => ⟨m, rfl, .refl m, rfl⟩⟩
  | minus => exact ⟨_, rfl, fun a b m => ⟨m, rfl, .refl m, rfl⟩⟩
  | times => cases h
  | slash => cases h

/-- The two chains take the four operators and nothing else. -/
theorem operates_eq_false {l : Lexeme} :
    l.operates = false ↔ multiply? l = none ∧ add? l = none := by
  cases l with
  | symbol sign => cases sign <;> simp [Lexeme.operates, multiply?, add?]
  | _ => simp [Lexeme.operates, multiply?, add?]

theorem lineNumber?_of_ne {c : Cursor} (h : ∀ value, c.token.lexeme ≠ .number value)
    (atEnd : Bool) : c.lineNumber? atEnd = none := by
  rw [Option.eq_none_iff_forall_ne_some]
  intro value hsome
  exact h value (Cursor.lineNumber?_eq_some.1 hsome).1

/-- Behind the first term stands an operator, a line number or whatever else ends the sum. -/
theorem Chains.sum_delivers {inner : Run Int} (h : Chains (termWith inner) add? m value w d)
    (hplaced : d.Placed) (hend : add? d.token.lexeme = none) :
    Delivers (expressionWith inner) m value w d := by
  obtain ⟨first, m₁, m₂, hfirst, hrounds, hworked, rfl⟩ := h
  unfold Delivers expressionWith sumOf
  rw [bind_of_ok hfirst, lineNumber?_bind_apply]
  cases hnumber : m₁.cursor.lineNumber? true with
  | none =>
      refine ⟨m₂, ?_, hworked, rfl⟩
      show chain (termWith inner) add? first m₁ = _
      rw [chain_apply]
      exact hrounds.iterate (chainRound_of_none hend) m₁.toGo_lt_moves
  | some number =>
      have hlexeme := (Cursor.lineNumber?_eq_some.1 hnumber).1
      cases hrounds with
      | again hround _ _ =>
          rw [chainRound_of_none (by rw [hlexeme]; rfl)] at hround
          cases hround
      | refl =>
          have hread := hplaced.here
          rw [hlexeme] at hread
          have hwritable : (Event.expressionStopped number).writable = true :=
            Lexeme.writable_of_read hread
          obtain ⟨m₃, hnote, hworked₃, hcursor⟩ := note_works hwritable m₁
          exact ⟨m₃, bind_of_ok hnote, hworked.trans hworked₃, hcursor⟩

-- The three places of a formula, each with the lexemes that derive it there.

def AtFactor (formula : Formula) (us : List Lexeme) : Prop :=
  ∀ ⦃depth : Nat⦄ ⦃m : Machine⦄ ⦃registers : Registers⦄ ⦃d : Cursor⦄,
    Tame m registers → m.cursor.Placed → m.toGo ≤ depth → m.cursor.Passes us d →
    Delivers (factorWith (expressionWithin depth)) m (formula.value m.size registers)
      (formula.warnings m.size registers) d

def AtTerm (formula : Formula) (us : List Lexeme) : Prop :=
  ∀ ⦃depth : Nat⦄ ⦃m : Machine⦄ ⦃registers : Registers⦄ ⦃d : Cursor⦄,
    Tame m registers → m.cursor.Placed → m.toGo ≤ depth → m.cursor.Passes us d →
    Chains (factorWith (expressionWithin depth)) multiply? m (formula.value m.size registers)
      (formula.warnings m.size registers) d

def AtSum (formula : Formula) (us : List Lexeme) : Prop :=
  ∀ ⦃depth : Nat⦄ ⦃m : Machine⦄ ⦃registers : Registers⦄ ⦃d : Cursor⦄,
    Tame m registers → m.cursor.Placed → m.toGo ≤ depth → m.cursor.Passes us d →
    multiply? d.token.lexeme = none →
    Chains (termWith (expressionWithin depth)) add? m (formula.value m.size registers)
      (formula.warnings m.size registers) d

/-- There is no place above that of a factor. -/
def AtLevel : Nat → Formula → List Lexeme → Prop
  | 0 => AtSum
  | 1 => AtTerm
  | 2 => AtFactor
  | _ + 3 => fun _ _ => False

section
variable {formula : Formula} {us : List Lexeme}

theorem AtFactor.atTerm (h : AtFactor formula us) : AtTerm formula us := by
  intro depth m registers d htame hplaced hdepth hpasses
  exact (h htame hplaced hdepth hpasses).chains

theorem AtTerm.atSum (h : AtTerm formula us) : AtSum formula us := by
  intro depth m registers d htame hplaced hdepth hpasses hend
  exact ((h htame hplaced hdepth hpasses).delivers hend).chains

theorem AtLevel.raise {level : Nat} (h : AtLevel (level + 1) formula us) :
    AtLevel level formula us :=
  match level with
  | 0 => AtTerm.atSum h
  | 1 => AtFactor.atTerm h
  | _ + 2 => h.elim

/-- Each parenthesis leaves less to go, so the nesting never gets too deep. -/
theorem AtSum.enclosed (h : AtSum formula us) : AtFactor formula (LineBasic.enclosed us) := by
  intro depth m registers d htame hplaced hdepth hpasses
  obtain ⟨hopen, hend, c₁, hc₁, hinside⟩ := Cursor.Passes.cons_iff.1 hpasses
  obtain ⟨c₂, hus, hclose⟩ := hinside.split
  obtain ⟨hlexeme, -, c₃, hc₃, hnil⟩ := Cursor.Passes.cons_iff.1 hclose
  cases hnil
  obtain ⟨hnext, hworked₁⟩ := next_moves hplaced hc₁
  have hplaced₁ := (hplaced.next hc₁).1
  have hless : (m.movedTo c₁).toGo < m.toGo := hplaced.length_next (hopen ▸ hend) hc₁
  obtain ⟨deeper, rfl⟩ : ∃ deeper, depth = deeper + 1 := ⟨depth - 1, by omega⟩
  have hnested : (m.movedTo c₁).toGo ≤ deeper := by omega
  have hchains := h (htame.worked hworked₁) hplaced₁ hnested hus (by rw [hlexeme]; rfl)
  have hplaced₂ := hus.placed hplaced₁
  obtain ⟨m₂, hinner, hworked₂, rfl⟩ := hchains.sum_delivers hplaced₂ (by rw [hlexeme]; rfl)
  obtain ⟨haccept, hworked₃⟩ :=
    accept_moves (.symbol .closeParen) hplaced₂ (by rw [hlexeme]; rfl) hc₃
  rw [hworked₁.size] at hinner hworked₂
  refine ⟨m₂.movedTo d, ?_, ?_, rfl⟩
  · have hdeeper : expressionWithin (deeper + 1) (m.movedTo c₁) = .ok _ m₂ := hinner
    rw [factorWith_paren hopen, bind_of_ok hnext, bind_of_ok hdeeper]
    exact bind_of_ok haccept
  · simpa using (hworked₁.trans hworked₂).trans hworked₃

end

/-- An item that is recorded and passed. -/
theorem item_delivers {l : Lexeme} (hplaced : m.cursor.Placed) (hpasses : m.cursor.Passes [l] d)
    {event : Event} (hwritable : event.writable = true) (value : Int) :
    Delivers (note event >>= fun _ => next >>= fun _ => pure value) m value 0 d := by
  obtain ⟨-, -, c₁, hc₁, hnil⟩ := Cursor.Passes.cons_iff.1 hpasses
  cases hnil
  obtain ⟨m₁, hnote, hworked₁, hcursor⟩ := note_works hwritable m
  rw [← hcursor] at hplaced hc₁
  obtain ⟨hnext, hworked₂⟩ := next_moves hplaced hc₁
  refine ⟨m₁.movedTo d, ?_, hworked₁.trans hworked₂, rfl⟩
  rw [bind_of_ok hnote, bind_of_ok hnext]
  rfl

theorem literal_atFactor (number : Literal) :
    AtFactor (.literal number) [.number number.value] := by
  intro depth m registers d htame hplaced _ hpasses
  have hwritable : (Event.literal (m.size.wrap number.value)).writable = true :=
    htame.writable _ (m.size.fits_wrap _)
  unfold Delivers
  rw [factorWith_number (Cursor.Passes.cons_iff.1 hpasses).1]
  exact item_delivers hplaced hpasses hwritable _

theorem register_of_tame (h : Tame m registers) (name : Name) :
    register (Text.lower [name.letter]) m = .ok (registers name.register) m := by
  have hread : m.store.read (Text.lower [name.letter]) = .ok (registers name.register) := by
    rw [h.store, name.lower_letter, Store.read, Name.lower_key, Store.get_holding]
  unfold register
  rw [get_bind_apply, hread]
  rfl

theorem register_atFactor (name : Name) : AtFactor (.register name) [.letter name.letter] := by
  intro depth m registers d htame hplaced _ hpasses
  have hwritable :
      (Event.variableRead (Text.lower [name.letter]) (registers name.register)).writable = true :=
    htame.writable _ (htame.fits _)
  unfold Delivers
  rw [factorWith_letter (Cursor.Passes.cons_iff.1 hpasses).1,
    bind_of_ok (register_of_tame htame name)]
  exact item_delivers hplaced hpasses hwritable _

section
variable {operator : Operator} {left right : Formula} {before behind : List Lexeme}

/-- A product goes on with a factor. -/
theorem AtTerm.times (hlevel : operator.level = 1) (hleft : AtTerm left before)
    (hright : AtFactor right behind) :
    AtTerm (.operation operator left right) (before ++ .symbol operator.sign :: behind) := by
  intro depth m registers d htame hplaced hdepth hpasses
  obtain ⟨c, hbefore, hbehind⟩ := hpasses.split
  have hchains := hleft htame hplaced hdepth hbefore
  apply hchains.operate (hbefore.placed hplaced) hbehind (applies_multiply? hlevel)
  intro m' hworked hplaced' hshorter hrest
  have hdepth' : m'.toGo ≤ depth :=
    Nat.le_trans (Nat.le_trans hshorter (hbefore.length_le hplaced)) hdepth
  rw [← hworked.size]
  exact hright (htame.worked hworked) hplaced' hdepth' hrest

/-- A sum goes on with a product. -/
theorem AtSum.plus (hlevel : operator.level = 0) (hleft : AtSum left before)
    (hright : AtTerm right behind) :
    AtSum (.operation operator left right) (before ++ .symbol operator.sign :: behind) := by
  intro depth m registers d htame hplaced hdepth hpasses hend
  obtain ⟨c, hbefore, hbehind⟩ := hpasses.split
  have hsign : multiply? c.token.lexeme = none := by
    rw [(Cursor.Passes.cons_iff.1 hbehind).1]
    cases operator with
    | plus => rfl
    | minus => rfl
    | times => cases hlevel
    | slash => cases hlevel
  have hchains := hleft htame hplaced hdepth hbefore hsign
  apply hchains.operate (hbefore.placed hplaced) hbehind (applies_add? hlevel)
  intro m' hworked hplaced' hshorter hrest
  have hdepth' : m'.toGo ≤ depth :=
    Nat.le_trans (Nat.le_trans hshorter (hbefore.length_le hplaced)) hdepth
  rw [← hworked.size]
  exact (hright (htame.worked hworked) hplaced' hdepth' hrest).delivers hend

end

/-- Every derivation is evaluated at its level. -/
theorem atLevel_of_derives {formula : Formula} {us : List Lexeme} {level : Nat}
    (h : formula.Derives level us) : AtLevel level formula us := by
  induction h with
  | literal number => exact literal_atFactor number
  | register name => exact register_atFactor name
  | enclosed _ ih => exact AtSum.enclosed ih
  | @operation operator left right before behind _ _ ihleft ihright =>
      have hlevel : operator.level = 0 ∨ operator.level = 1 := by
        cases operator <;> simp [Operator.level]
      rcases hlevel with hlevel | hlevel
      · rw [hlevel] at ihleft ihright ⊢
        exact AtSum.plus hlevel ihleft ihright
      · rw [hlevel] at ihleft ihright ⊢
        exact AtTerm.times hlevel ihleft ihright
  | raise _ ih => exact ih.raise

theorem expression_apply (m : Machine) :
    expression m = expressionWithin (m.cursor.sheet.text.length + 1) m := rfl

section
variable {formula : Formula} {us : List Lexeme}

/-- A derivation with no operator behind it is evaluated. -/
theorem expression_delivers (h : formula.Derives 0 us) (htame : Tame m registers)
    (hplaced : m.cursor.Placed) (hpasses : m.cursor.Passes us d)
    (hend : d.token.lexeme.operates = false) :
    Delivers expression m (formula.value m.size registers) (formula.warnings m.size registers) d := by
  obtain ⟨hmultiply, hadd⟩ := operates_eq_false.1 hend
  have hdepth : m.toGo ≤ m.cursor.sheet.text.length := Nat.le_of_lt_succ m.toGo_lt_moves
  have hsum : AtSum formula us := atLevel_of_derives h
  have hchains := hsum htame hplaced hdepth hpasses hmultiply
  obtain ⟨m', hm', hrest⟩ := hchains.sum_delivers (hpasses.placed hplaced) hadd
  exact ⟨m', (expression_apply m).trans hm', hrest⟩

/-- The same of a line that is spelled out. -/
theorem expression_gives_of_derives (h : formula.Derives 0 us) (htame : Tame m registers)
    (hsees : m.cursor.Sees (us ++ ls) below) (hend : (ls.headD .lineEnd).operates = false) :
    Gives expression m (formula.value m.size registers) (formula.warnings m.size registers)
      ls below := by
  obtain ⟨d, hpasses, hrest⟩ := hsees.passes
  rw [← hrest.lexeme] at hend
  obtain ⟨m', hm', hworked, rfl⟩ :=
    expression_delivers h htame hsees.toPlaced hpasses hend
  exact ⟨m', hm', hworked, hrest⟩

theorem expression_gives (htame : Tame m registers)
    (hsees : m.cursor.Sees (formula.lexemes 0 ++ ls) below)
    (hend : (ls.headD .lineEnd).operates = false) :
    Gives expression m (formula.value m.size registers) (formula.warnings m.size registers)
      ls below :=
  expression_gives_of_derives (formula.derives_lexemes (Nat.zero_le 2)) htame hsees hend

theorem expression_gives_enclosed (htame : Tame m registers)
    (hsees : m.cursor.Sees (enclosed (formula.lexemes 0) ++ ls) below)
    (hend : (ls.headD .lineEnd).operates = false) :
    Gives expression m (formula.value m.size registers) (formula.warnings m.size registers)
      ls below :=
  expression_gives_of_derives
    ((Formula.Derives.enclosed (formula.derives_lexemes (Nat.zero_le 2))).lower (Nat.zero_le 2))
    htame hsees hend

end

theorem compares?_sign (comparison : Comparison) :
    ∃ compares, comparison.sign.compares? = some compares ∧
      ∀ a b, compares a b = comparison.holds a b := by
  cases comparison <;> exact ⟨_, rfl, fun a b => by rw [Bool.eq_iff_iff]; simp [Comparison.holds]⟩

theorem relation_eq : relation = expression >>= relationFrom expression := rfl

theorem relationFrom_of_other {left : Int} (h : m.cursor.token.lexeme.compares = false) :
    relationFrom expression left m = .ok (truth (left != 0)) m := by
  unfold relationFrom
  rw [lexeme_bind_apply]
  generalize m.cursor.token.lexeme = l at h ⊢
  cases l with
  | symbol sign =>
      simp only [Lexeme.compares, Option.isSome_eq_false_iff, Option.isNone_iff_eq_none] at h
      simp only [h]
      rfl
  | _ => rfl

theorem relationFrom_of_sign {left : Int} {sign : Symbol} {compares : Int → Int → Bool}
    (h : m.cursor.token.lexeme = .symbol sign) (hcompares : sign.compares? = some compares) :
    relationFrom expression left m =
      (next >>= fun _ => expression >>= fun right => note (.compared left sign right) >>= fun _ =>
        pure (truth (compares left right))) m := by
  unfold relationFrom
  rw [lexeme_bind_apply, h]
  simp only [hcompares]

/-- A derivation of a condition is evaluated if nothing behind it would go on with it. -/
theorem relation_delivers {condition : Condition} {us : List Lexeme} (h : condition.Derives us)
    (htame : Tame m registers) (hplaced : m.cursor.Placed) (hpasses : m.cursor.Passes us d)
    (hend : condition.endsBefore d.token.lexeme = true) :
    Delivers relation m (if condition.holds m.size registers then 1 else 0)
      (condition.warnings m.size registers) d := by
  cases h with
  | @nonzero formula _ hformula =>
      simp only [Condition.endsBefore, Bool.and_eq_true, Bool.not_eq_true'] at hend
      obtain ⟨m₁, hvalue, hworked, rfl⟩ := expression_delivers hformula htame hplaced hpasses hend.1
      refine ⟨m₁, ?_, hworked, rfl⟩
      have hholds : (formula.value m.size registers != 0) =
          (Condition.nonzero formula).holds m.size registers := by
        rw [Bool.eq_iff_iff]
        simp [Condition.holds]
      rw [relation_eq, bind_of_ok hvalue, ← hholds]
      exact relationFrom_of_other hend.2
  | @compared left right before behind comparison hleft hright =>
      simp only [Condition.endsBefore, Bool.not_eq_true'] at hend
      obtain ⟨compares, hcompares, hholds⟩ := compares?_sign comparison
      obtain ⟨c₁, hbefore, hrest⟩ := hpasses.split
      obtain ⟨hsign, -, c₂, hc₂, hbehind⟩ := Cursor.Passes.cons_iff.1 hrest
      have hstop : c₁.token.lexeme.operates = false := by rw [hsign]; cases comparison <;> rfl
      obtain ⟨m₁, hleft, hworked₁, rfl⟩ := expression_delivers hleft htame hplaced hbefore hstop
      have hplaced₁ := hbefore.placed hplaced
      obtain ⟨hnext, hworked₂⟩ := next_moves hplaced₁ hc₂
      have htame₂ := (htame.worked hworked₁).worked hworked₂
      obtain ⟨m₃, hright, hworked₃, hcursor₃⟩ :=
        expression_delivers hright htame₂ (hplaced₁.next hc₂).1 hbehind hend
      rw [hworked₂.size, hworked₁.size] at hright hworked₃
      have hwritable : (Event.compared (left.value m.size registers) comparison.sign
          (right.value m.size registers)).writable = true := by
        simp only [Event.writable, htame.writable _ (Formula.fits_value htame.fits _),
          Bool.and_self]
      obtain ⟨m₄, hnote, hworked₄, hcursor₄⟩ := note_works hwritable m₃
      refine ⟨m₄, ?_, ((hworked₁.trans hworked₂).trans hworked₃).trans hworked₄,
        hcursor₄.trans hcursor₃⟩
      rw [relation_eq, bind_of_ok hleft, relationFrom_of_sign hsign hcompares, bind_of_ok hnext,
        bind_of_ok hright, bind_of_ok hnote, hholds]
      rfl

theorem relation_gives (htame : Tame m registers) {condition : Condition}
    (hsees : m.cursor.Sees (condition.lexemes ++ .keyword .THEN :: ls) below) :
    Gives relation m (if condition.holds m.size registers then 1 else 0)
      (condition.warnings m.size registers) (.keyword .THEN :: ls) below := by
  obtain ⟨d, hpasses, hrest⟩ := hsees.passes
  have hend : condition.endsBefore d.token.lexeme = true := by
    rw [hrest.here_cons.1]
    cases condition <;> rfl
  obtain ⟨m', hm', hworked, rfl⟩ :=
    relation_delivers condition.derives_lexemes htame hsees.toPlaced hpasses hend
  exact ⟨m', hm', hworked, hrest⟩

end Machine

end LineBasic
