import LineBasic.Proofs.Invariant.Statement

/-!
# Registers hold words

Whatever is executed, and however it fails, the store has its twenty-six registers and
each of them holds a word. A register is read without wrapping, so this rests on every
value of an expression being a word. The latter is said of the values within a step
too: a step that refuses any other value of an expression, a term or a factor, wherever
one occurs in it, is no different from a step.
-/
namespace LineBasic

namespace Store

theorem mem_of_read {s : Store} {name : Text} {v : Int} (h : s.read name = .ok v) :
    ∃ entry ∈ s.entries, entry.2 = v := by
  unfold read get at h
  cases hv : s.get? name.lower with
  | none =>
      rw [hv] at h
      cases h
  | some value =>
      rw [hv] at h
      cases h
      obtain ⟨before, after, hentries, -⟩ := List.lookup_eq_some_iff.1 hv
      exact ⟨(name.lower, v), by simp [hentries], rfl⟩

/-- An assignment leaves only values that were there, and the new one. -/
theorem mem_of_assign {s t : Store} {name : Text} {v : Int} (h : s.assign name v = .ok t) :
    ∀ entry ∈ t.entries, entry.2 = v ∨ entry ∈ s.entries := by
  unfold assign set at h
  split at h
  · cases h
    intro entry hentry
    obtain ⟨old, hold, rfl⟩ := List.mem_map.1 hentry
    split
    · exact .inl rfl
    · exact .inr hold
  · cases h

end Store

namespace Machine

/-- The registers of a machine are those of a fresh one, and all hold words. -/
structure InRange (size : WordSize) (m : Machine) : Prop where
  sized : m.size = size
  keys : m.store.keys = Store.names
  fits : ∀ entry ∈ m.store.entries, size.Fits entry.2

theorem inRange_fresh (c : Cursor) (size : WordSize) (output : Output) (reports : Reports) :
    (fresh c size output reports).InRange size := by
  refine ⟨rfl, Store.keys_zero, ?_⟩
  intro entry hentry
  obtain ⟨name, -, rfl⟩ := List.mem_map.1 hentry
  have hpos := size.half_pos
  exact ⟨by simp only; omega, hpos⟩

/-- Registers that hold words, as an invariant: the values of expressions are words. -/
def holdingWords (size : WordSize) : Invariant where
  Holds := InRange size
  Value := size.Fits
  reports h _ := ⟨h.sized, h.keys, h.fits⟩
  output h _ := ⟨h.sized, h.keys, h.fits⟩
  started h := ⟨h.sized, h.keys, h.fits⟩
  finished h := ⟨h.sized, h.keys, h.fits⟩
  next h := ⟨h.sized, h.keys, h.fits⟩
  skipLine h := ⟨h.sized, h.keys, h.fits⟩
  reset h := ⟨h.sized, h.keys, h.fits⟩
  build h := ⟨h.sized, h.keys, h.fits⟩
  zero := by
    have hpos := size.half_pos
    exact ⟨by omega, hpos⟩
  wrap h v := h.sized ▸ WordSize.fits_wrap _ v
  read h _ _ hread := by
    obtain ⟨entry, hentry, rfl⟩ := Store.mem_of_read hread
    exact h.fits entry hentry
  assign h _ _ _ hv hassign := by
    refine ⟨h.sized, (Store.keys_set hassign).trans h.keys, ?_⟩
    intro entry hentry
    rcases Store.mem_of_assign hassign entry hentry with hnew | hold
    · exact hnew ▸ hv
    · exact h.fits entry hold

/-- The error that stands for a value that is no word. No machine raises it by itself. -/
def notAWord : Fault := .error ⟨.stated .internal "not a word", none, none⟩

/-- Refuse a value that is no word. -/
def checked (x : Run Int) : Run Int := do
  let value ← x
  if (← get).size.Fits value then pure value else throw notAWord

/-- A step that refuses every value of an expression, a term or a factor that is no
word. -/
def checkedStep : Run Bool := stepWith (guarded checked)

theorem checked_passes (size : WordSize) : Passes (holdingWords size) checked := by
  intro x y h
  refine ⟨?_, h.leaves⟩
  intro m hm
  have hleaves := h.leaves hm
  unfold checked
  rw [bind_apply, h.same hm]
  generalize x m = r at hleaves ⊢
  cases hleaves with
  | @ok value m' hvalue hm' =>
      have hfits : m'.size.Fits value := hm'.sized ▸ hvalue
      simp only [get_bind_apply]
      rw [if_pos hfits]
      rfl
  | error _ => rfl

theorem fits_of_keeps {size : WordSize} {x y : Run Int} {m after : Machine} {value : Int}
    (hx : Keeps (holdingWords size) size.Fits x y) (h : m.InRange size)
    (hvalue : x m = .ok value after) : size.Fits value := by
  have hleaves := hx.leaves h
  rw [hvalue] at hleaves
  cases hleaves with
  | ok hfits _ => exact hfits

/-- After any number of calls, faults among them, the registers are the twenty-six and
hold words; so are the values of an expression, a term or a factor from there, and those
that the next step comes by. -/
theorem registers_hold_words {sheet : Sheet} {size : WordSize} {output : Output}
    {reports : Reports} {m : Machine} (h : load sheet size output reports = .ok m) (count : Nat) :
    (m.called count).store.keys = Store.names ∧
      (∀ entry ∈ (m.called count).store.entries, size.Fits entry.2) ∧
      checkedStep (m.called count) = step (m.called count) ∧
      ∀ evaluate ∈ [expression, term, factor], ∀ value after,
        evaluate (m.called count) = .ok value after → size.Fits value := by
  obtain ⟨c, -, rfl⟩ := start_of_load h
  have hrange : ((fresh c size output reports).called count).InRange size :=
    holds_called (I := holdingWords size) (inRange_fresh c size output reports) count
  have hexpression : Keeps (holdingWords size) size.Fits expression expression :=
    .of_leaves (expression_keeps passes_id).leaves
  have hfactor : Keeps (holdingWords size) size.Fits factor factor := factorWith_keeps hexpression
  have hterm : Keeps (holdingWords size) size.Fits term term := termOf_keeps hfactor
  refine ⟨hrange.keys, hrange.fits, ?_, ?_⟩
  · exact (step_keeps (expression_keeps (checked_passes size))).same hrange
  · intro evaluate hmem value after hvalue
    simp only [List.mem_cons, List.not_mem_nil, or_false] at hmem
    rcases hmem with rfl | rfl | rfl
    · exact fits_of_keeps hexpression hrange hvalue
    · exact fits_of_keeps hterm hrange hvalue
    · exact fits_of_keeps hfactor hrange hvalue

/-- In words of two bits the literal two is the least word, and its quotient by minus
one, which does not fit, is the least word again. -/
theorem registers_hold_words_least :
    ∃ m, load ⟨"A=2/(1-2)".toList, []⟩ ⟨2, by decide⟩ {} {} = .ok m ∧
      (m.called 1).store.get? ['a'] = some (-2) ∧
      (m.called 1).store.keys = Store.names ∧
      (∀ entry ∈ (m.called 1).store.entries, -2 ≤ entry.2 ∧ entry.2 < 2) ∧
      checkedStep m = step m := by
  let m := fresh ⟨⟨"A=2/(1-2)".toList, []⟩, .first, ⟨.letter 'A', 1, 1, 0, 1⟩⟩ ⟨2, by decide⟩ {} {}
  have hload : load ⟨"A=2/(1-2)".toList, []⟩ ⟨2, by decide⟩ {} {} = .ok m := by rfl
  have hvalue : (m.called 1).store.get? ['a'] = some (-2) := by decide +kernel
  obtain ⟨hkeys, hfits, -, -⟩ := registers_hold_words hload 1
  obtain ⟨-, -, hchecked, -⟩ := registers_hold_words hload 0
  exact ⟨m, hload, hvalue, hkeys, hfits, hchecked⟩

end Machine

end LineBasic
