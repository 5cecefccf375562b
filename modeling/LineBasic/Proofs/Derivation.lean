import LineBasic.Proofs.Code
import LineBasic.Proofs.Walk

/-!
# The grammar of formulas

Which lexemes stand for a formula or a condition, told without any machine. A sum is
made of products, a product of factors, and a factor is a number, a letter or a sum in
parentheses. `Formula.Derives` has these three as levels: at the level of an operator
its left operand is again of that level and its right operand one level higher, so
that operators of a level associate to the left.

A cursor `Passes` lexemes when moving on takes it over exactly these. What it has
still to pass, up to the end of the source, is `Cursor.upcoming`; the cursor `Drains`
if nothing on the way fails to be read.
-/
namespace LineBasic

/-- Lexemes that stand for a formula, as a sum at level 0, a product at level 1 and a
factor at level 2. -/
inductive Formula.Derives : Nat → Formula → List Lexeme → Prop
  | literal (number : Literal) : Derives 2 (.literal number) [.number number.value]
  | register (name : Name) : Derives 2 (.register name) [.letter name.letter]
  | enclosed {formula : Formula} {ls : List Lexeme} : Derives 0 formula ls →
      Derives 2 formula (LineBasic.enclosed ls)
  | operation {operator : Operator} {left right : Formula} {before behind : List Lexeme} :
      Derives operator.level left before → Derives (operator.level + 1) right behind →
      Derives operator.level (.operation operator left right)
        (before ++ .symbol operator.sign :: behind)
  | raise {level : Nat} {formula : Formula} {ls : List Lexeme} :
      Derives (level + 1) formula ls → Derives level formula ls

/-- Lexemes that stand for a condition: a sum, or two with a comparison between them. -/
inductive Condition.Derives : Condition → List Lexeme → Prop
  | nonzero {formula : Formula} {ls : List Lexeme} : formula.Derives 0 ls →
      Derives (.nonzero formula) ls
  | compared {left right : Formula} {before behind : List Lexeme} (comparison : Comparison) :
      left.Derives 0 before → right.Derives 0 behind →
      Derives (.compared left comparison right) (before ++ .symbol comparison.sign :: behind)

def Lexeme.operates : Lexeme → Bool
  | .symbol .plus | .symbol .minus | .symbol .times | .symbol .slash => true
  | _ => false

def Lexeme.compares : Lexeme → Bool
  | .symbol sign => sign.compares?.isSome
  | _ => false

/-- Whether a condition ends before a lexeme: nothing there would go on with it. -/
def Condition.endsBefore : Condition → Lexeme → Bool
  | .nonzero _, l => !l.operates && !l.compares
  | .compared .., l => !l.operates

/-- A derivation at a level is one at every lower level. -/
theorem Formula.Derives.lower {formula : Formula} {ls : List Lexeme} {level lower : Nat}
    (h : formula.Derives level ls) (hle : lower ≤ level) : formula.Derives lower ls := by
  obtain ⟨gap, rfl⟩ := Nat.exists_eq_add_of_le hle
  induction gap with
  | zero => exact h
  | succ gap ih => exact ih h.raise (Nat.le_add_right _ _)

/-- How a formula is written is one of its derivations. -/
theorem Formula.derives_lexemes (formula : Formula) {level : Nat} (hlevel : level ≤ 2) :
    formula.Derives level (formula.lexemes level) := by
  induction formula generalizing level with
  | literal number => exact (Derives.literal number).lower hlevel
  | register name => exact (Derives.register name).lower hlevel
  | operation operator left right ihleft ihright =>
      have hsmall : operator.level + 1 ≤ 2 := by cases operator <;> simp [Operator.level]
      have hplain := Derives.operation (ihleft (Nat.le_of_succ_le hsmall)) (ihright hsmall)
      simp only [lexemes]
      split
      · exact (Derives.enclosed (hplain.lower (Nat.zero_le _))).lower hlevel
      · rename_i hlow
        exact hplain.lower (Nat.not_lt.1 hlow)

theorem Condition.derives_lexemes (condition : Condition) :
    condition.Derives condition.lexemes := by
  cases condition with
  | nonzero formula => exact .nonzero (formula.derives_lexemes (Nat.zero_le 2))
  | compared left comparison right =>
      exact .compared comparison (left.derives_lexemes (Nat.zero_le 2))
        (right.derives_lexemes (Nat.zero_le 2))

/-- No derivation takes in the end of the source. -/
theorem Formula.Derives.sourceEnd_notMem {formula : Formula} {ls : List Lexeme} {level : Nat}
    (h : formula.Derives level ls) : .sourceEnd ∉ ls := by
  induction h with
  | literal number => simp
  | register name => simp
  | enclosed _ ih => simp [LineBasic.enclosed, ih]
  | operation _ _ ihleft ihright => simp [ihleft, ihright]
  | raise _ ih => exact ih

theorem Condition.Derives.sourceEnd_notMem {condition : Condition} {ls : List Lexeme}
    (h : condition.Derives ls) : .sourceEnd ∉ ls := by
  cases h with
  | nonzero hformula => exact hformula.sourceEnd_notMem
  | compared _ hleft hright => simp [hleft.sourceEnd_notMem, hright.sourceEnd_notMem]

namespace Cursor

/-- Moving on takes the cursor over lexemes, none of them the end of the source. -/
inductive Passes : Cursor → List Lexeme → Cursor → Prop
  | nil (c : Cursor) : Passes c [] c
  | cons {c d e : Cursor} {ls : List Lexeme} : c.token.lexeme ≠ .sourceEnd →
      next c = .ok () d → Passes d ls e → Passes c (c.token.lexeme :: ls) e

/-- A cursor that is moved on is placed again and in the same text. -/
theorem Placed.next {c d : Cursor} (h : c.Placed) (hd : Cursor.next c = .ok () d) :
    d.Placed ∧ d.sheet = c.sheet := by
  by_cases hend : c.token.lexeme = .sourceEnd
  · have hsame : Cursor.next c = .ok () c := by
      unfold Cursor.next
      rw [get_bind_apply, hend]
      rfl
    cases hsame.symm.trans hd
    exact ⟨h, rfl⟩
  · rw [next_eq_moveTo hend] at hd
    obtain ⟨l, n, hread, rfl⟩ := landed_of_moveTo hd
    exact ⟨placed_landed _ hread, rfl⟩

namespace Passes

variable {c d e : Cursor} {l : Lexeme} {us vs : List Lexeme}

theorem one (hend : c.token.lexeme ≠ .sourceEnd) (hnext : Cursor.next c = .ok () d) :
    c.Passes [c.token.lexeme] d :=
  .cons hend hnext (.nil d)

theorem cons_iff : c.Passes (l :: us) e ↔
    c.token.lexeme = l ∧ l ≠ .sourceEnd ∧ ∃ d, next c = .ok () d ∧ d.Passes us e := by
  constructor
  · intro h
    cases h with
    | cons hend hnext hrest => exact ⟨rfl, hend, _, hnext, hrest⟩
  · rintro ⟨rfl, hend, d, hnext, hrest⟩
    exact .cons hend hnext hrest

theorem append (h : c.Passes us d) (h' : d.Passes vs e) : c.Passes (us ++ vs) e := by
  induction h with
  | nil => exact h'
  | cons hend hnext _ ih => exact .cons hend hnext (ih h')

theorem split (h : c.Passes (us ++ vs) e) : ∃ d, c.Passes us d ∧ d.Passes vs e := by
  induction us generalizing c with
  | nil => exact ⟨c, .nil c, h⟩
  | cons l us ih =>
      obtain ⟨rfl, hend, d, hnext, hrest⟩ := cons_iff.1 h
      obtain ⟨middle, hus, hvs⟩ := ih hrest
      exact ⟨middle, .cons hend hnext hus, hvs⟩

theorem placed (h : c.Passes us d) (hc : c.Placed) : d.Placed := by
  induction h with
  | nil => exact hc
  | cons _ hnext _ ih => exact ih (hc.next hnext).1

theorem length_le (h : c.Passes us d) (hc : c.Placed) : d.ahead.length ≤ c.ahead.length := by
  induction h with
  | nil => exact Nat.le_refl _
  | cons hend hnext _ ih =>
      exact Nat.le_trans (ih (hc.next hnext).1) (Nat.le_of_lt (hc.length_next hend hnext))

theorem length_lt (h : c.Passes (l :: us) d) (hc : c.Placed) :
    d.ahead.length < c.ahead.length := by
  obtain ⟨rfl, hend, middle, hnext, hrest⟩ := cons_iff.1 h
  exact Nat.lt_of_le_of_lt (hrest.length_le (hc.next hnext).1) (hc.length_next hend hnext)

end Passes

/-- A cursor passes what it sees. -/
theorem Sees.passes {c : Cursor} {us ls : List Lexeme} {below : Text}
    (h : c.Sees (us ++ ls) below) : ∃ d, c.Passes us d ∧ d.Sees ls below := by
  induction us generalizing c with
  | nil => exact ⟨c, .nil c, h⟩
  | cons l us ih =>
      have hend : l ≠ .sourceEnd := by
        rintro rfl
        exact h.proper .sourceEnd (by simp)
      obtain ⟨d, hnext, hsees, -⟩ := h.next
      obtain ⟨e, hpasses, hrest⟩ := ih hsees
      exact ⟨e, Passes.cons_iff.2 ⟨h.here_cons.1, hend, d, hnext, hpasses⟩, hrest⟩

/-- The lexemes from the cursor on, with the end of the source as the last. -/
def upcoming (c : Cursor) : List Lexeme := c.places.1.map (·.token.lexeme)

/-- A placed cursor that can be moved on to the end of the source. -/
structure Drains (c : Cursor) : Prop extends Placed c where
  drained : c.places.2 = none

/-- As many moves as there are characters ahead are enough. -/
theorem placesWithin_eq {c : Cursor} (h : c.Placed) {moves more : Nat}
    (hmoves : c.ahead.length ≤ moves) (hmore : c.ahead.length ≤ more) :
    placesWithin moves c = placesWithin more c := by
  induction moves generalizing c more with
  | zero =>
      have hnil : c.ahead = [] := List.length_eq_zero_iff.1 (Nat.le_zero.1 hmoves)
      have hend := finished_iff.2 (h.spans.ending.2 hnil)
      cases more with
      | zero => rfl
      | succ more => rw [placesWithin, placesWithin, if_pos hend]
  | succ moves ih =>
      by_cases hend : c.token.lexeme = .sourceEnd
      · have hfinished := finished_iff.2 hend
        cases more with
        | zero => rw [placesWithin, placesWithin, if_pos hfinished]
        | succ more => rw [placesWithin, placesWithin, if_pos hfinished, if_pos hfinished]
      · have hne : c.ahead ≠ [] := fun he => hend (h.spans.ending.2 he)
        have hpos := List.length_pos_iff.2 hne
        obtain ⟨fewer, rfl⟩ : ∃ fewer, more = fewer + 1 := ⟨more - 1, by omega⟩
        have hunfinished := mt finished_iff.1 hend
        rw [placesWithin, placesWithin, if_neg hunfinished, if_neg hunfinished]
        cases hd : next c with
        | error f d => rfl
        | ok u d =>
            have hless := h.length_next hend hd
            simp only [ih (h.next hd).1 (Nat.le_of_lt_succ (Nat.lt_of_lt_of_le hless hmoves))
              (Nat.le_of_lt_succ (Nat.lt_of_lt_of_le hless hmore))]

theorem length_ahead_le (c : Cursor) : c.ahead.length ≤ c.sheet.text.length := by
  rw [ahead, List.length_drop]
  exact Nat.sub_le _ _

/-- The places from a cursor are its own and those from the next token on. -/
theorem places_of_next {c d : Cursor} (h : c.Placed) (hend : c.token.lexeme ≠ .sourceEnd)
    (hd : next c = .ok () d) : c.places = (c :: d.places.1, d.places.2) := by
  obtain ⟨hplaced, hsheet⟩ := h.next hd
  have hlength := h.length_next hend hd
  have hpos : 0 < c.sheet.text.length := by have := c.length_ahead_le; omega
  obtain ⟨moves, hmoves⟩ : ∃ moves, c.sheet.text.length = moves + 1 :=
    ⟨c.sheet.text.length - 1, by omega⟩
  have hfew : d.ahead.length ≤ moves := by have := c.length_ahead_le; omega
  have hrest : placesWithin moves d = d.places :=
    placesWithin_eq hplaced hfew d.length_ahead_le
  rw [places, hmoves, placesWithin, if_neg (mt finished_iff.1 hend), hd]
  simp only [hrest]

theorem head?_upcoming (c : Cursor) : c.upcoming.head? = some c.token.lexeme := by
  unfold upcoming places
  cases c.sheet.text.length with
  | zero => rfl
  | succ moves =>
      rw [placesWithin]
      split
      · rfl
      · split <;> rfl

theorem Drains.next {c : Cursor} (h : c.Drains) (hend : c.token.lexeme ≠ .sourceEnd) :
    ∃ d, Cursor.next c = .ok () d ∧ d.Drains ∧ c.upcoming = c.token.lexeme :: d.upcoming := by
  cases hd : Cursor.next c with
  | error f d =>
      have hne : c.ahead ≠ [] := fun he => hend (h.spans.ending.2 he)
      have hpos := List.length_pos_iff.2 hne
      obtain ⟨moves, hmoves⟩ : ∃ moves, c.sheet.text.length = moves + 1 :=
        ⟨c.sheet.text.length - 1, by have := c.length_ahead_le; omega⟩
      have hdrained := h.drained
      rw [places, hmoves, placesWithin, if_neg (mt finished_iff.1 hend), hd] at hdrained
      cases hdrained
  | ok u d =>
      have hplaces := places_of_next h.toPlaced hend hd
      have hdrained := h.drained
      rw [hplaces] at hdrained
      refine ⟨d, rfl, ⟨(h.toPlaced.next hd).1, hdrained⟩, ?_⟩
      rw [upcoming, hplaces]
      rfl

/-- What has been passed is taken off what was to come. -/
theorem Passes.upcoming {c d : Cursor} {us : List Lexeme} (h : c.Passes us d) (hc : c.Drains) :
    d.Drains ∧ c.upcoming = us ++ d.upcoming := by
  induction h with
  | nil => exact ⟨hc, rfl⟩
  | cons hend hnext _ ih =>
      obtain ⟨middle, hmiddle, hdrains, hupcoming⟩ := hc.next hend
      cases hnext.symm.trans hmiddle
      obtain ⟨hlast, hrest⟩ := ih hdrains
      exact ⟨hlast, by rw [hupcoming, hrest, List.cons_append]⟩

/-- Lexemes that are to come are passed, up to the end of the source. -/
theorem Drains.passes {c : Cursor} {us vs : List Lexeme} (h : c.Drains)
    (hsplit : c.upcoming = us ++ vs) (hus : .sourceEnd ∉ us) :
    ∃ d, c.Passes us d ∧ d.Drains ∧ d.upcoming = vs := by
  induction us generalizing c with
  | nil => exact ⟨c, .nil c, h, hsplit⟩
  | cons l us ih =>
      have hhead := c.head?_upcoming
      rw [hsplit] at hhead
      have hl : l = c.token.lexeme := Option.some.inj hhead
      have hend : c.token.lexeme ≠ .sourceEnd := fun he => hus (by simp [hl, he])
      obtain ⟨d, hnext, hdrains, hupcoming⟩ := h.next hend
      rw [hupcoming, hl] at hsplit
      obtain ⟨e, hpasses, hrest⟩ := ih hdrains (List.cons.inj hsplit).2
        (fun hmem => hus (List.mem_cons_of_mem _ hmem))
      exact ⟨e, Passes.cons_iff.2 ⟨hl.symm, hl ▸ hend, d, hnext, hpasses⟩, hrest⟩

end Cursor

end LineBasic
