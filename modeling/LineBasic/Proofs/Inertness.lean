import LineBasic.Proofs.Finishing

/-!
# The trace is inert

A machine that keeps no trace gives the same answers and comes to the same states, call by
call, as one that does, up to the first event that cannot be written. In words of up to
14285 bits there is none, since every word is shorter than the longest numeral. In wider
words there may be one, and then it is the trace that fails: an assignment that prints
nothing fails although, without a trace, it does not.
-/
namespace LineBasic

namespace WordSize

theorem writable_iff_half_lt (w : WordSize) :
    w.Writable ↔ Nat.pow 2 (w.bits - 1) < Numeral.bound := by
  have hhalf : w.half = ((Nat.pow 2 (w.bits - 1) : Nat) : Int) := rfl
  have hpos := w.half_pos
  unfold Writable Fits
  generalize Nat.pow 2 (w.bits - 1) = most at hhalf ⊢
  constructor
  · intro h
    have hleast := Numeral.writable_iff.1 (h (-w.half) ⟨by omega, by omega⟩)
    rwa [hhalf, Int.natAbs_neg, Int.natAbs_natCast] at hleast
  · rintro h v ⟨hlow, hhigh⟩
    rw [Numeral.writable_iff]
    generalize Numeral.bound = bound at h ⊢
    omega

/-- The widest words that can all be written have 14285 bits. -/
theorem writable_iff_bits_le (w : WordSize) : w.Writable ↔ w.bits ≤ 14285 := by
  -- The least word has the greatest magnitude, a power of two: 4300 digits, then 4301.
  have hwide : Nat.pow 2 14284 < Numeral.bound := by decide +kernel
  have htoo : Numeral.bound ≤ Nat.pow 2 14285 := by decide +kernel
  have hmono : ∀ {a b : Nat}, a ≤ b → Nat.pow 2 a ≤ Nat.pow 2 b :=
    fun h => Nat.pow_le_pow_right (by decide) h
  rw [writable_iff_half_lt]
  constructor
  · intro h
    apply Nat.le_of_not_lt
    intro hbits
    exact Nat.not_lt.2 (hmono (by omega)) (Nat.lt_of_lt_of_le h htoo)
  · intro h
    exact Nat.lt_of_le_of_lt (hmono (by omega)) hwide

end WordSize

namespace Machine

variable {site : Site} {m : Machine}

/-- One call with and without a trace. -/
theorem Poised.step_hushed (h : m.Poised site) (hwritten : m.outcome ≠ .error .unwritable) :
    m.hushed.outcome = m.outcome ∧ m.hushed.stepped = m.stepped.hushed := by
  unfold outcome at hwritten
  unfold outcome stepped
  cases hfinished : m.finished with
  | true =>
      have hstarted := h.surveyed hfinished
      rw [step_of_finished hstarted hfinished]
      have hstep : step m.hushed = .ok false m.hushed := step_of_finished hstarted hfinished
      rw [hstep]
      exact ⟨rfl, rfl⟩
  | false =>
      have hmuted : Muted site (Told site) step m :=
        step_muted ⟨h.toStanding, hfinished⟩
      unfold Muted at hmuted
      generalize step m = r at hmuted hwritten ⊢
      generalize step m.hushed = s at hmuted ⊢
      cases hmuted with
      | ok _ => exact ⟨rfl, rfl⟩
      | error _ _ => exact ⟨rfl, rfl⟩
      | unwritten _ _ => exact absurd rfl hwritten

/-- Machines with and without a trace go together as long as every event is written. -/
theorem Poised.called_hushed (h : m.Poised site) {count : Nat}
    (hwritten : ∀ i < count, m.call i ≠ .error .unwritable) :
    m.hushed.called count = (m.called count).hushed := by
  induction count with
  | zero => rfl
  | succ count ih =>
      have hbefore := ih fun i hi => hwritten i (by omega)
      have hstep := (h.called count).step_hushed (hwritten count (by omega))
      rw [Machine.called, hbefore, hstep.2]
      rfl

theorem Poised.call_hushed (h : m.Poised site) {count : Nat}
    (hwritten : ∀ i ≤ count, m.call i ≠ .error .unwritable) :
    m.hushed.call count = m.call count := by
  have hbefore := h.called_hushed fun i hi => hwritten i (Nat.le_of_lt hi)
  rw [Machine.call, hbefore]
  exact ((h.called count).step_hushed (hwritten count (Nat.le_refl _))).1

/-- Faults that calls can come to. -/
theorem Poised.occurs (h : m.Poised site) {count : Nat} {f : Fault}
    (hcall : m.call count = .error f) : f.Occurs site := by
  have hpoised := h.called count
  change (m.called count).outcome = .error f at hcall
  unfold outcome at hcall
  cases hfinished : (m.called count).finished with
  | true =>
      rw [step_of_finished (hpoised.surveyed hfinished) hfinished] at hcall
      cases hcall
  | false =>
      rcases (step_muted ⟨hpoised.toStanding, hfinished⟩).leaves with
        ⟨more, after, hstep, -⟩ | ⟨g, after, hstep, hoccurs, -⟩
      · rw [hstep] at hcall
        cases hcall
      · rw [hstep] at hcall
        cases hcall
        exact hoccurs

/-- Without a trace a program is loaded alike, and as long as no event is too long to be
written every call has the same answer and leaves the same machine but for the trace. In
words of up to 14285 bits no event is. -/
theorem trace_inert (sheet : Sheet) (size : WordSize) (output : Output) (reports : Reports) :
    (∀ f r, load sheet size output reports = .error (f, r) →
      load sheet size output reports.hushed = .error (f, r.hushed)) ∧
    ∀ m, load sheet size output reports = .ok m →
      load sheet size output reports.hushed = .ok m.hushed ∧
      (∀ count, (∀ i < count, m.call i ≠ .error .unwritable) →
        m.hushed.called count = (m.called count).hushed) ∧
      (∀ count, (∀ i ≤ count, m.call i ≠ .error .unwritable) →
        m.hushed.call count = m.call count) ∧
      (size.bits ≤ 14285 → ∀ count, m.call count ≠ .error .unwritable) := by
  cases hstart : Cursor.start sheet with
  | error f =>
      rw [load_of_fault hstart, load_of_fault hstart]
      constructor
      · rintro g r hload
        cases hload
        rw [Reports.hushed_scanReported, Reports.hushed_scanNoted, Reports.scanNoted_hushed]
      · intro m hload
        cases hload
  | ok c =>
      obtain rfl := Cursor.sheet_of_start hstart
      rw [load_of_start hstart, load_of_start hstart]
      constructor
      · intro f r hload
        cases hload
      intro m hload
      cases hload
      have hpoised := poised_fresh hstart size output reports
      refine ⟨rfl, fun count => hpoised.called_hushed, fun count => hpoised.call_hushed, ?_⟩
      intro hbits count hcall
      have hnot : ¬ size.Writable := hpoised.occurs hcall
      exact hnot (size.writable_iff_bits_le.2 hbits)

/-- The third of these assignments gives the letter a value of 5120 digits. The value is
there, but the trace has no words for it. -/
theorem traced_assignment_fails :
    ∃ m, load ⟨"A=9999999999\nA=A*A*A*A*A*A*A*A\nA=A*A*A*A*A*A*A*A\nA=A*A*A*A*A*A*A*A\n".toList, []⟩
        ⟨30000, by decide⟩ {} {} = .ok m ∧
      m.call 3 = .error .unwritable ∧ m.hushed.call 3 = .ok true ∧
      (m.called 4).store.get? ['a'] = some (Int.pow 9999999999 512) := by
  let m := fresh ⟨⟨"A=9999999999\nA=A*A*A*A*A*A*A*A\nA=A*A*A*A*A*A*A*A\nA=A*A*A*A*A*A*A*A\n".toList,
    []⟩, .first, ⟨.letter 'A', 1, 1, 0, 1⟩⟩ ⟨30000, by decide⟩ {} {}
  exact ⟨m, rfl, by decide +kernel, by decide +kernel, by decide +kernel⟩

end Machine

end LineBasic
