import LineBasic.Numeral

/-!
# Numerals that are read

A run of digits that is read spells a number that can be written again: reading
and writing have the same limit. What is written of a natural number is read as
that number.
-/
namespace LineBasic

theorem Text.decimalValue?_lt {c : Char} {d : Nat} (h : decimalValue? c = some d) : d < 10 := by
  unfold decimalValue? at h
  split at h
  · split at h
    · rename_i hc
      cases h
      have hle := (Char.isDigit_iff_toNat.1 hc).2
      simp only [Char.reduceToNat] at hle
      omega
    · cases h
  · obtain ⟨start, hs, rfl⟩ := Option.map_eq_some_iff.1 h
    have hrange := List.find?_some hs
    simp only [Bool.and_eq_true, decide_eq_true_eq] at hrange
    omega

namespace Numeral

theorem value_lt (decimals : Text) : value decimals < Nat.pow 10 decimals.length := by
  -- A decimal appended to a prefix of value `n` keeps it below the next power of ten.
  suffices h : ∀ n, decimals.foldl (fun n c => 10 * n + (Text.decimalValue? c).getD 0) n <
      (n + 1) * 10 ^ decimals.length by
    simpa [value] using h 0
  induction decimals with
  | nil => simp
  | cons c rest ih =>
      intro n
      have hd : (Text.decimalValue? c).getD 0 < 10 := by
        cases hv : Text.decimalValue? c with
        | none => simp
        | some d => exact Text.decimalValue?_lt hv
      calc
        _ < (10 * n + (Text.decimalValue? c).getD 0 + 1) * 10 ^ rest.length := ih _
        _ ≤ ((n + 1) * 10) * 10 ^ rest.length := Nat.mul_le_mul_right _ (by omega)
        _ = (n + 1) * 10 ^ (c :: rest).length := by
            rw [List.length_cons, Nat.pow_succ, Nat.mul_assoc, Nat.mul_comm 10]

theorem writable_iff {v : Int} : writable v = true ↔ v.natAbs < bound := decide_eq_true_iff

theorem pow_le_bound {length : Nat} (h : length ≤ limit) : Nat.pow 10 length ≤ bound := by
  unfold bound
  generalize limit = most at h ⊢
  exact Nat.pow_le_pow_right (by decide) h

theorem writable_of_natural {digits : Text} {n : Nat} (h : natural digits = .ok n) :
    writable n = true := by
  unfold natural at h
  simp only at h
  split at h
  · cases h
  · split at h
    · cases h
    · rename_i hlimit _
      cases h
      rw [writable_iff, Int.natAbs_natCast]
      exact Nat.lt_of_lt_of_le (value_lt _) (pow_le_bound (Nat.le_of_not_lt hlimit))

end Numeral

namespace Text

theorem decimalValue?_of_isDigit {c : Char} (h : c.isDigit = true) :
    decimalValue? c = some (c.toNat - '0'.toNat) := by
  have hle := (Char.isDigit_iff_toNat.1 h).2
  simp only [Char.reduceToNat] at hle
  have hascii : c.toNat < 128 := by omega
  simp [decimalValue?, hascii, h]

theorem isDecimal_of_isDigit {c : Char} (h : c.isDigit = true) : isDecimal c = true := by
  rw [isDecimal, decimalValue?_of_isDigit h]
  rfl

end Text

namespace Numeral

theorem isDecimal_of_mem_toDigits {n : Nat} {c : Char} (h : c ∈ Nat.toDigits 10 n) :
    Text.isDecimal c = true :=
  Text.isDecimal_of_isDigit (Nat.isDigit_of_mem_toDigits (by decide) (by decide) h)

theorem value_toDigits (n : Nat) : value (Nat.toDigits 10 n) = n := by
  have hfold : ∀ (digits : Text) (start : Nat), (∀ c ∈ digits, c.isDigit = true) →
      digits.foldl (fun n c => 10 * n + (Text.decimalValue? c).getD 0) start =
        Nat.ofDigitChars 10 digits start := by
    intro digits
    induction digits with
    | nil => simp
    | cons c rest ih =>
        intro start hdigits
        obtain ⟨hc, hrest⟩ := List.forall_mem_cons.1 hdigits
        rw [List.foldl_cons, Nat.ofDigitChars_cons, Text.decimalValue?_of_isDigit hc]
        exact ih _ hrest
  have hdigits : ∀ c ∈ Nat.toDigits 10 n, c.isDigit = true :=
    fun c hc => Nat.isDigit_of_mem_toDigits (by decide) (by decide) hc
  rw [value, hfold _ 0 hdigits, Nat.ofDigitChars_ten_toDigits]

theorem length_toDigits_le {n : Nat} (h : writable n = true) :
    (Nat.toDigits 10 n).length ≤ limit := by
  rw [writable_iff, Int.natAbs_natCast] at h
  unfold bound at h
  have hpos : 0 < limit := by decide
  generalize limit = most at h hpos ⊢
  exact (Nat.length_toDigits_le_iff (by decide) hpos).2 h

theorem natural_toDigits {n : Nat} (h : writable n = true) :
    natural (Nat.toDigits 10 n) = .ok n := by
  have hall : (Nat.toDigits 10 n ++ []).takeWhile Text.isDecimal =
      Nat.toDigits 10 n ++ [].takeWhile Text.isDecimal :=
    List.takeWhile_append_of_pos fun c hc => isDecimal_of_mem_toDigits hc
  rw [List.takeWhile_nil, List.append_nil] at hall
  have hlimit := Nat.not_lt.2 (length_toDigits_le h)
  unfold natural
  simp only [hall]
  rw [if_neg hlimit, if_neg (by simp [Nat.toDigits_ne_nil]), value_toDigits]

end Numeral

end LineBasic
