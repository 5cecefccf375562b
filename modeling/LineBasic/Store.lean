import LineBasic.Text.Case
import LineBasic.Text.Quoted

/-!
# The register store

Twenty-six registers named `a` to `z`. The set of names is fixed: a value can
be replaced, but no entry can be added or removed. `read` and `assign` take a
name in any case; `get` and `set` take it as it is.
-/
namespace LineBasic

/-- Register names with their values, in order. -/
structure Store where
  entries : List (Text × Int)
  deriving DecidableEq

namespace Store

/-- Why an operation on the store is refused. -/
inductive Refusal where
  | noSuchKey (key : Text)
  | cannotAdd (key : Text)
  | cannotDelete
  | fixedKeys
  deriving DecidableEq

def Refusal.message : Refusal → String
  | .noSuchKey key => String.ofList key.quoted
  | .cannotAdd key =>
      "'VariableStore' object does not support adding key " ++ String.ofList key.quoted
  | .cannotDelete => "'VariableStore' object does not support item deletion"
  | .fixedKeys => "'VariableStore' object has a fixed set of keys"

def names : List Text := (List.range 26).map fun i => [Char.ofNat ('a'.toNat + i)]

def zero : Store := ⟨names.map (·, 0)⟩

def keys (s : Store) : List Text := s.entries.map (·.1)

def has (s : Store) (key : Text) : Bool := s.entries.any (·.1 == key)

def get? (s : Store) (key : Text) : Option Int := s.entries.lookup key

def get (s : Store) (key : Text) : Except Refusal Int :=
  match s.get? key with
  | some value => .ok value
  | none => .error (.noSuchKey key)

def set (s : Store) (key : Text) (value : Int) : Except Refusal Store :=
  if s.has key then
    .ok ⟨s.entries.map fun entry => if entry.1 = key then (entry.1, value) else entry⟩
  else .error (.cannotAdd key)

def read (s : Store) (name : Text) : Except Refusal Int := s.get name.lower

def assign (s : Store) (name : Text) (value : Int) : Except Refusal Store :=
  s.set name.lower value

def reset (s : Store) : Store := ⟨s.entries.map fun entry => (entry.1, 0)⟩

/-- A key is never deleted. -/
def delete (_ : Store) (_ : Text) : Except Refusal Store := .error .cannotDelete

/-- Entries are never added or removed wholesale, whatever is asked for. -/
def reshape (_ : Store) : Except Refusal Store := .error .fixedKeys

def nonzero (s : Store) : List (Text × Int) := s.entries.filter (·.2 != 0)

theorem keys_zero : zero.keys = names := by
  simp [keys, zero, Function.comp_def]

theorem keys_set {s t : Store} {key : Text} {value : Int} (h : s.set key value = .ok t) :
    t.keys = s.keys := by
  simp only [set] at h
  split at h
  · cases h
    simp only [keys, List.map_map]
    apply List.map_congr_left
    intro entry _
    simp only [Function.comp_apply]
    split <;> rfl
  · cases h

theorem lookup_replace (entries : List (Text × Int)) {key k : Text} (value : Int) (h : k ≠ key) :
    (entries.map fun entry => if entry.1 = key then (entry.1, value) else entry).lookup k =
      entries.lookup k := by
  induction entries with
  | nil => rfl
  | cons entry rest ih =>
      obtain ⟨name, old⟩ := entry
      by_cases hn : name = key
      · simp [List.lookup_cons, hn, beq_eq_false_iff_ne.2 h, ih]
      · simp [List.lookup_cons, hn, ih]

theorem lookup_replaced (entries : List (Text × Int)) {key : Text} (value : Int)
    (h : (entries.any (·.1 == key)) = true) :
    (entries.map fun entry => if entry.1 = key then (entry.1, value) else entry).lookup key =
      some value := by
  induction entries with
  | nil => simp at h
  | cons entry rest ih =>
      obtain ⟨name, old⟩ := entry
      by_cases hn : name = key
      · simp [hn]
      · have hr : (rest.any (·.1 == key)) = true := by simpa [hn] using h
        simp [List.lookup_cons, hn, beq_eq_false_iff_ne.2 (Ne.symm hn), ih hr]

/-- The last write to a register is what it holds; the other registers are left alone. -/
theorem get?_set {s t : Store} {key : Text} {value : Int} (h : s.set key value = .ok t)
    (k : Text) : t.get? k = if k = key then some value else s.get? k := by
  simp only [set] at h
  split at h
  · rename_i hk
    cases h
    by_cases hkey : k = key
    · subst hkey
      simp only [get?, if_true]
      exact lookup_replaced s.entries value hk
    · simp only [get?, if_neg hkey]
      exact lookup_replace s.entries value hkey
  · cases h

theorem keys_reset (s : Store) : s.reset.keys = s.keys := by
  simp [keys, reset, Function.comp_def]

theorem get?_reset (s : Store) (key : Text) : s.reset.get? key = (s.get? key).map fun _ => 0 := by
  obtain ⟨entries⟩ := s
  simp only [get?, reset]
  induction entries with
  | nil => rfl
  | cons entry rest ih =>
      obtain ⟨name, value⟩ := entry
      by_cases hname : key = name
      · simp [hname]
      · simp [List.lookup_cons, beq_eq_false_iff_ne.2 hname, ih]

theorem has_iff {s : Store} {key : Text} : s.has key = true ↔ key ∈ s.keys := by
  simp [has, keys]

theorem get?_eq_none_iff {s : Store} {key : Text} : s.get? key = none ↔ key ∉ s.keys := by
  simp only [get?, List.lookup_eq_none_iff, keys, List.mem_map, not_exists, not_and, bne_iff_ne]
  constructor
  · exact fun h entry hentry hkey => h entry hentry hkey.symm
  · exact fun h entry hentry hkey => h entry hentry hkey.symm

end Store

end LineBasic
