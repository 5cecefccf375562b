import Mathlib.Data.Int.ModEq
import LineBasic.Proofs.Effects
import LineBasic.Proofs.Evaluation

/-!
# Words near their limits

The words of `n` bits are the integers from `-2 ^ (n - 1)` on and below `2 ^ (n - 1)`,
one for each residue modulo `2 ^ n`. Wrapping takes an integer to the word of its
residue, so that a word is known by the residue alone.

A quotient is found from magnitudes and then given its sign. That is the quotient with
its fraction dropped, and of two words it is a word again but for a single pair: the
least word divided by minus one is the least positive integer that does not fit, and
wraps back to the least word.
-/
namespace LineBasic

/-- A quotient with its fraction dropped: what is left over is smaller than the divisor
and, unless it is nothing, has the sign of the dividend. -/
def Truncates (a b q : Int) : Prop :=
  ∃ r : Int, a = q * b + r ∧ r.natAbs < b.natAbs ∧ (r = 0 ∨ r.sign = a.sign)

section
variable {a b q : Int}

theorem truncates_tdiv (hb : b ≠ 0) : Truncates a b (a.tdiv b) := by
  refine ⟨a.tmod b, (Int.tdiv_mul_add_tmod a b).symm, ?_, ?_⟩
  · rw [Int.natAbs_tmod]
    exact Nat.mod_lt _ (Int.natAbs_pos.2 hb)
  · rw [Int.sign_tmod, ← Int.sign_eq_zero_iff_zero, Int.sign_tmod]
    split
    · exact .inl rfl
    · exact .inr rfl

/-- There is only one such quotient. -/
theorem Truncates.eq_tdiv (h : Truncates a b q) (hb : b ≠ 0) : q = a.tdiv b := by
  obtain ⟨r, ha, hless, hsign⟩ := h
  have hsum : r + b * q = a := by rw [ha, Int.mul_comm]; omega
  rcases Int.le_total 0 a with hpos | hneg
  · have hr : 0 ≤ r := by
      rcases hsign with rfl | hsign
      · exact Int.le_refl 0
      · exact Int.sign_nonneg_iff.1 (hsign ▸ Int.sign_nonneg_iff.2 hpos)
    exact ((Int.tdiv_tmod_unique hpos hb).2 ⟨hsum, hr, by omega⟩).1.symm
  · have hr : r ≤ 0 := by
      rcases hsign with rfl | hsign
      · exact Int.le_refl 0
      · exact Int.sign_nonpos_iff.1 (hsign ▸ Int.sign_nonpos_iff.2 hneg)
    exact ((Int.tdiv_tmod_unique' hneg hb).2 ⟨hsum, by omega, hr⟩).1.symm

end

namespace WordSize

variable {w : WordSize} {a b u v : Int}

theorem half_eq_pow (w : WordSize) : w.half = 2 ^ (w.bits - 1) := by
  simp [half]

theorem modulus_eq_pow (w : WordSize) : w.modulus = 2 ^ w.bits := by
  simp [modulus]

theorem wrap_modEq (w : WordSize) (v : Int) : w.wrap v ≡ v [ZMOD w.modulus] := w.wrap_emod v

theorem wrap_congr (h : u ≡ v [ZMOD w.modulus]) : w.wrap u = w.wrap v := by
  unfold wrap
  rw [h]

/-- No other word has the same residue. -/
theorem eq_wrap_of_modEq (hu : w.Fits u) (h : u ≡ v [ZMOD w.modulus]) : u = w.wrap v := by
  rw [← wrap_congr h, wrap_of_fits hu]

theorem wrap_half (w : WordSize) : w.wrap w.half = -w.half := by
  have hpos := w.half_pos
  have hleast : w.Fits (-w.half) := ⟨Int.le_refl _, by omega⟩
  have hsame : -w.half ≡ w.half [ZMOD w.modulus] := by
    rw [Int.modEq_iff_dvd, w.modulus_eq]
    exact ⟨1, by omega⟩
  exact (eq_wrap_of_modEq hleast hsame).symm

/-- Only the least word has a magnitude that does not fit, and only minus one turns it over. -/
theorem fits_tdiv (ha : w.Fits a) (hb : b ≠ 0) (hpair : ¬ (a = -w.half ∧ b = -1)) :
    w.Fits (a.tdiv b) := by
  have hpos := w.half_pos
  unfold Fits at ha ⊢
  by_cases hone : b = 1
  · rw [hone, Int.tdiv_one]
    exact ha
  by_cases hminus : b = -1
  · rw [hminus, Int.tdiv_neg, Int.tdiv_one]
    omega
  have hhalved : (a.tdiv b).natAbs ≤ a.natAbs / 2 := by
    rw [Int.natAbs_tdiv]
    exact Nat.div_le_div_left (by omega) (by decide)
  omega

/-- The quotient of two words is the exact one unless that is not a word. -/
theorem wrap_tdiv_iff (ha : w.Fits a) (hb : b ≠ 0) :
    w.wrap (a.tdiv b) = a.tdiv b ↔ ¬ (a = -w.half ∧ b = -1) := by
  constructor
  · rintro hexact ⟨rfl, rfl⟩
    have hpos := w.half_pos
    rw [Int.tdiv_neg, Int.tdiv_one, Int.neg_neg, w.wrap_half] at hexact
    omega
  · intro hpair
    exact wrap_of_fits (fits_tdiv ha hb hpair)

end WordSize

namespace Machine

/-- Wrapping gives the one word of an integer's residue; a division gives the wrapped
quotient, without its fraction, and warns of nothing; of words this is the quotient
itself but for the least word and minus one. A division by zero gives zero and one warning. -/
theorem words_near_limits (m : Machine) :
    (∀ v : Int, -2 ^ (m.size.bits - 1) ≤ m.size.wrap v ∧ m.size.wrap v < 2 ^ (m.size.bits - 1) ∧
      m.size.wrap v ≡ v [ZMOD 2 ^ m.size.bits] ∧
      ∀ u : Int, -2 ^ (m.size.bits - 1) ≤ u → u < 2 ^ (m.size.bits - 1) →
        u ≡ v [ZMOD 2 ^ m.size.bits] → u = m.size.wrap v) ∧
    (∀ a b : Int, b ≠ 0 → ∃ q, Truncates a b q ∧ (∀ other, Truncates a b other → other = q) ∧
      divide a b m = .ok (m.size.wrap q) m ∧
      (m.size.Fits a → m.size.Fits b →
        (m.size.wrap q = q ↔ ¬ (a = -2 ^ (m.size.bits - 1) ∧ b = -1)) ∧
        (a = -2 ^ (m.size.bits - 1) → b = -1 → m.size.wrap q = -2 ^ (m.size.bits - 1)))) ∧
    ∀ a : Int, ∃ m', divide a 0 m = .ok 0 m' ∧
      m'.reports.warnings = m.reports.warnings + 1 ∧
      m'.reports.notices = m.reports.notices.push (.warning "divide by zero") ∧
      m'.reports.errors = m.reports.errors ∧ { m' with reports := m.reports } = m := by
  simp only [← m.size.half_eq_pow, ← m.size.modulus_eq_pow]
  refine ⟨?_, ?_, ?_⟩
  · intro v
    obtain ⟨hlow, hhigh⟩ := m.size.fits_wrap v
    refine ⟨hlow, hhigh, m.size.wrap_modEq v, ?_⟩
    intro u hlow hhigh hsame
    exact WordSize.eq_wrap_of_modEq ⟨hlow, hhigh⟩ hsame
  · intro a b hb
    have hdone := divide_nonzero hb a m
    rw [WordSize.divide_eq] at hdone
    refine ⟨a.tdiv b, truncates_tdiv hb, fun _ h => h.eq_tdiv hb, hdone, ?_⟩
    intro ha _
    refine ⟨WordSize.wrap_tdiv_iff ha hb, ?_⟩
    rintro rfl rfl
    rw [Int.tdiv_neg, Int.tdiv_one, Int.neg_neg, m.size.wrap_half]
  · intro a
    refine ⟨_, divide_zero a m, ?_⟩
    unfold dividedByZero noted Reports.noted warned
    cases m.reports.tracing <;> exact ⟨rfl, rfl, rfl, rfl⟩

/-- In words of eight bits: the word of 200, the pair that wraps, and a quotient of two signs. -/
theorem words_near_limits_byte :
    let m := fresh ⟨⟨[], []⟩, .first, ⟨.sourceEnd, 1, 1, 0, 0⟩⟩ ⟨8, by decide⟩ {} {}
    m.size.wrap 200 = -56 ∧ m.size.Fits (-128) ∧ m.size.Fits (-1) ∧
      divide (-128) (-1) m = .ok (-128) m ∧ m.size.Fits (-7) ∧ m.size.Fits 2 ∧
      Truncates (-7) 2 (-3) ∧ divide (-7) 2 m = .ok (-3) m := by
  intro m
  have hleast : m.size.Fits (-128) := by decide
  have hminus : m.size.Fits (-1) := by decide
  have hseven : m.size.Fits (-7) := by decide
  have htwo : m.size.Fits 2 := by decide
  have hthree : Truncates (-7) 2 (-3) := ⟨-1, by decide, by decide, .inr (by decide)⟩
  obtain ⟨hwrap, hdivide, -⟩ := words_near_limits m
  have hword : -56 = m.size.wrap 200 :=
    (hwrap 200).2.2.2 (-56) (by decide) (by decide) (by decide)
  obtain ⟨q, -, -, hturned, hpair⟩ := hdivide (-128) (-1) (by decide)
  rw [(hpair hleast hminus).2 (by decide) rfl] at hturned
  obtain ⟨p, -, hunique, hdropped, hexact⟩ := hdivide (-7) 2 (by decide)
  rw [(hexact hseven htwo).1.2 (by decide), ← hunique (-3) hthree] at hdropped
  exact ⟨hword.symm, hleast, hminus, hturned, hseven, htwo, hthree, hdropped⟩

end Machine

end LineBasic
