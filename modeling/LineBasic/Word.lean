/-!
# Words

Arithmetic in signed words of a chosen width. A result that does not fit wraps
around in two's complement; a quotient drops its fraction.
-/
namespace LineBasic

/-- The width of a signed word. One bit would leave no positive value. -/
structure WordSize where
  bits : Nat
  two_le_bits : 2 ≤ bits
  deriving DecidableEq, Repr

namespace WordSize

/-- The number of distinct words. -/
def modulus (w : WordSize) : Int := Nat.pow 2 w.bits

/-- The number of words that are not negative. -/
def half (w : WordSize) : Int := Nat.pow 2 (w.bits - 1)

/-- Whether an integer is a word. -/
def Fits (w : WordSize) (v : Int) : Prop := -w.half ≤ v ∧ v < w.half

instance (w : WordSize) (v : Int) : Decidable (w.Fits v) := inferInstanceAs (Decidable (_ ∧ _))

theorem modulus_eq (w : WordSize) : w.modulus = 2 * w.half := by
  obtain ⟨bits, h⟩ := w
  obtain ⟨n, rfl⟩ : ∃ n, bits = n + 1 := ⟨bits - 1, by omega⟩
  simp only [modulus, half, Nat.pow_eq, Nat.add_sub_cancel, Nat.pow_succ]
  omega

/-- The word that stands for an integer. -/
def wrap (w : WordSize) (v : Int) : Int :=
  let residue := v % w.modulus
  if w.half ≤ residue then residue - w.modulus else residue

/-- The quotient of two integers as a word, by magnitudes and then signs. -/
def divide (w : WordSize) (numerator denominator : Int) : Int :=
  let magnitude : Int := numerator.natAbs / denominator.natAbs
  w.wrap (if (numerator < 0) != (denominator < 0) then -magnitude else magnitude)

theorem half_pos (w : WordSize) : 0 < w.half := by
  simp only [half, Nat.pow_eq]
  exact_mod_cast Nat.two_pow_pos _

theorem fits_wrap (w : WordSize) (v : Int) : w.Fits (w.wrap v) := by
  have hm := w.modulus_eq
  have hp := w.half_pos
  have h0 : 0 ≤ v % w.modulus := Int.emod_nonneg _ (by omega)
  have h1 : v % w.modulus < w.modulus := Int.emod_lt_of_pos _ (by omega)
  simp only [wrap, Fits]
  split <;> omega

theorem wrap_emod (w : WordSize) (v : Int) : w.wrap v % w.modulus = v % w.modulus := by
  simp only [wrap]
  split
  · rw [Int.sub_emod_right, Int.emod_emod]
  · exact Int.emod_emod ..

theorem wrap_of_fits {w : WordSize} {v : Int} (h : w.Fits v) : w.wrap v = v := by
  have hm := w.modulus_eq
  have hp := w.half_pos
  obtain ⟨lo, hi⟩ := h
  simp only [wrap]
  by_cases hv : 0 ≤ v
  · rw [Int.emod_eq_of_lt hv (by omega)]
    split <;> omega
  · have hr : v % w.modulus = v + w.modulus := by
      rw [← Int.add_emod_right, Int.emod_eq_of_lt (by omega) (by omega)]
    rw [hr]
    split <;> omega

end WordSize

end LineBasic
