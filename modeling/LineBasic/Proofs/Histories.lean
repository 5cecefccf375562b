import LineBasic.Proofs.Invariant

/-!
# Histories of a store

A store may be called in any order, with any names and values. Most calls can be refused:
a look-up of a name that is no register, a write to one, and everything that would add or
remove an entry. Whatever is called, the store keeps its twenty-six registers in their
order, and each of them holds what was last written to it since the last reset. Whether a
call is refused does not depend on what was called before.
-/
namespace LineBasic.Store

/-- Ways to ask that entries be added or removed. -/
inductive Reshaping where
  | pop (key : Text)
  | popItem
  | clear
  | setDefault (key : Text) (value : Int)
  | update (entries : List (Text × Int))
  | merge (entries : List (Text × Int))
  deriving DecidableEq

inductive Call where
  | read (name : Text)
  | get (key : Text)
  | assign (name : Text) (value : Int)
  | set (key : Text) (value : Int)
  | delete (key : Text)
  | reset
  | reshape (how : Reshaping)
  deriving DecidableEq

def lookUp (find : Store → Except Refusal Int) : EStateM Refusal Store (Option Int) := fun s =>
  match find s with
  | .ok value => .ok (some value) s
  | .error refusal => .error refusal s

/-- Put another store in the place of this one. -/
def replace (change : Store → Except Refusal Store) : EStateM Refusal Store (Option Int) := fun s =>
  match change s with
  | .ok t => .ok none t
  | .error refusal => .error refusal s

namespace Call

/-- What a call does to a store; a look-up answers with a value. -/
def perform : Call → EStateM Refusal Store (Option Int)
  | read name => lookUp (·.read name)
  | get key => lookUp (·.get key)
  | assign name value => replace (·.assign name value)
  | set key value => replace (·.set key value)
  | delete key => replace (·.delete key)
  | reset => replace fun s => .ok s.reset
  | reshape _ => replace (·.reshape)

/-- Why a call is refused, told by the names of the registers alone. -/
def refusal? : Call → Option Refusal
  | read name => if name.lower ∈ names then none else some (.noSuchKey name.lower)
  | get key => if key ∈ names then none else some (.noSuchKey key)
  | assign name _ => if name.lower ∈ names then none else some (.cannotAdd name.lower)
  | set key _ => if key ∈ names then none else some (.cannotAdd key)
  | delete _ => some .cannotDelete
  | reset => none
  | reshape _ => some .fixedKeys

/-- The value that a call writes to a register: under a name in any case by `assign`, under
the very name by `set`. -/
def writes? (key : Text) : Call → Option Int
  | assign name value => if name.lower = key then some value else none
  | set name value => if name = key then some value else none
  | _ => none

end Call

/-- The value of the last write to a register since the last reset, or zero. -/
def lastWrite (history : List Call) (key : Text) : Int :=
  ((history.reverse.takeWhile (· ≠ .reset)).findSome? (·.writes? key)).getD 0

/-- The value with which a call answers after a history. -/
def Call.answer? (history : List Call) : Call → Option Int
  | read name => some (lastWrite history name.lower)
  | get key => some (lastWrite history key)
  | _ => none

def after (s : Store) (history : List Call) : Store :=
  history.foldl (fun s call => leftBy call.perform s) s

section
variable {s : Store} {history : List Call} {call : Call} {key : Text}

theorem after_concat (s : Store) (history : List Call) (call : Call) :
    s.after (history ++ [call]) = leftBy call.perform (s.after history) := by
  simp [after]

theorem lastWrite_reset (history : List Call) (key : Text) :
    lastWrite (history ++ [.reset]) key = 0 := by
  simp [lastWrite]

theorem lastWrite_of_ne (h : call ≠ .reset) :
    lastWrite (history ++ [call]) key = (call.writes? key).getD (lastWrite history key) := by
  unfold lastWrite
  cases hwrites : call.writes? key with
  | none => simp [h, hwrites]
  | some value => simp [h, hwrites]

end

/-- The registers of a store are the twenty-six, and hold what a history has written. -/
structure Recalls (history : List Call) (s : Store) : Prop where
  keys : s.keys = names
  values : ∀ key ∈ names, s.get? key = some (lastWrite history key)

theorem recalls_zero : zero.Recalls [] := by
  refine ⟨keys_zero, ?_⟩
  decide +kernel

namespace Recalls

variable {s t : Store} {history : List Call} {call : Call} {key : Text}

theorem get_of_mem (h : s.Recalls history) (hkey : key ∈ names) :
    s.get key = .ok (lastWrite history key) := by
  rw [get, h.values key hkey]

theorem get_of_notMem (h : s.Recalls history) (hkey : key ∉ names) :
    s.get key = .error (.noSuchKey key) := by
  have hnone : s.get? key = none := get?_eq_none_iff.2 (h.keys ▸ hkey)
  rw [get, hnone]

theorem set_of_mem (h : s.Recalls history) (hkey : key ∈ names) (value : Int) :
    ∃ t, s.set key value = .ok t := by
  rw [set, if_pos (has_iff.2 (h.keys ▸ hkey))]
  exact ⟨_, rfl⟩

theorem set_of_notMem (h : s.Recalls history) (hkey : key ∉ names) (value : Int) :
    s.set key value = .error (.cannotAdd key) := by
  rw [set, if_neg (mt has_iff.1 (h.keys ▸ hkey))]

/-- A call that writes to no register leaves every one of them with its last write. -/
theorem concat_of_idle (h : s.Recalls history) (hreset : call ≠ .reset)
    (hwrites : ∀ key ∈ names, call.writes? key = none) : s.Recalls (history ++ [call]) := by
  refine ⟨h.keys, ?_⟩
  intro key hkey
  rw [h.values key hkey, lastWrite_of_ne hreset, hwrites key hkey]
  rfl

/-- A write changes the register that it names. -/
theorem concat_of_set {value : Int} (h : s.Recalls history) (hset : s.set key value = .ok t)
    (hreset : call ≠ .reset)
    (hwrites : ∀ other, call.writes? other = if key = other then some value else none) :
    t.Recalls (history ++ [call]) := by
  refine ⟨(keys_set hset).trans h.keys, ?_⟩
  intro other hother
  rw [get?_set hset, lastWrite_of_ne hreset, hwrites]
  by_cases hsame : other = key
  · simp [hsame]
  · rw [if_neg hsame, if_neg (Ne.symm hsame), h.values other hother]
    rfl

theorem concat_reset (h : s.Recalls history) : s.reset.Recalls (history ++ [.reset]) := by
  refine ⟨(keys_reset s).trans h.keys, ?_⟩
  intro key hkey
  rw [get?_reset, h.values key hkey, lastWrite_reset]
  rfl

end Recalls

/-- What comes of a call after a history. If it is refused the store is left as it was. -/
inductive Performed (history : List Call) (s : Store) (call : Call) :
    EStateM.Result Refusal Store (Option Int) → Prop
  | refused {refusal : Refusal} : call.refusal? = some refusal → s.Recalls (history ++ [call]) →
      Performed history s call (.error refusal s)
  | answered {t : Store} : call.refusal? = none → t.Recalls (history ++ [call]) →
      Performed history s call (.ok (call.answer? history) t)

section
variable {s : Store} {history : List Call}

theorem Recalls.lookUp_performed (h : s.Recalls history) (call : Call) {key : Text}
    (hperform : call.perform s = lookUp (·.get key) s) (hreset : call ≠ .reset)
    (hwrites : ∀ other, call.writes? other = none)
    (hrefusal : call.refusal? = if key ∈ names then none else some (.noSuchKey key))
    (hanswer : call.answer? history = some (lastWrite history key)) :
    Performed history s call (call.perform s) := by
  have hidle : s.Recalls (history ++ [call]) := h.concat_of_idle hreset fun other _ => hwrites other
  rw [hperform, lookUp]
  by_cases hkey : key ∈ names
  · rw [if_pos hkey] at hrefusal
    rw [h.get_of_mem hkey]
    simp only [← hanswer]
    exact .answered hrefusal hidle
  · rw [if_neg hkey] at hrefusal
    rw [h.get_of_notMem hkey]
    exact .refused hrefusal hidle

theorem Recalls.write_performed (h : s.Recalls history) (call : Call) {key : Text} {value : Int}
    (hperform : call.perform s = replace (·.set key value) s) (hreset : call ≠ .reset)
    (hwrites : ∀ other, call.writes? other = if key = other then some value else none)
    (hrefusal : call.refusal? = if key ∈ names then none else some (.cannotAdd key))
    (hanswer : call.answer? history = none) :
    Performed history s call (call.perform s) := by
  rw [hperform, replace]
  by_cases hkey : key ∈ names
  · rw [if_pos hkey] at hrefusal
    obtain ⟨t, hset⟩ := h.set_of_mem hkey value
    rw [hset, ← hanswer]
    exact .answered hrefusal (h.concat_of_set hset hreset hwrites)
  · rw [if_neg hkey] at hrefusal
    rw [h.set_of_notMem hkey]
    refine .refused hrefusal (h.concat_of_idle hreset ?_)
    intro other hother
    have hother : key ≠ other := fun hsame => hkey (hsame ▸ hother)
    rw [hwrites, if_neg hother]

/-- One call, of whatever kind. -/
theorem Recalls.performed (h : s.Recalls history) (call : Call) :
    Performed history s call (call.perform s) := by
  cases call with
  | read name => exact h.lookUp_performed (.read name) rfl (by simp) (fun _ => rfl) rfl rfl
  | get key => exact h.lookUp_performed (.get key) rfl (by simp) (fun _ => rfl) rfl rfl
  | assign name value =>
      exact h.write_performed (.assign name value) rfl (by simp) (fun _ => rfl) rfl rfl
  | set key value => exact h.write_performed (.set key value) rfl (by simp) (fun _ => rfl) rfl rfl
  | delete key => exact .refused rfl (h.concat_of_idle (by simp) fun _ _ => rfl)
  | reset => exact .answered rfl h.concat_reset
  | reshape how => exact .refused rfl (h.concat_of_idle (by simp) fun _ _ => rfl)

theorem Recalls.leftBy_perform (h : s.Recalls history) (call : Call) :
    (leftBy call.perform s).Recalls (history ++ [call]) := by
  have hperformed := h.performed call
  unfold leftBy
  generalize call.perform s = r at hperformed ⊢
  cases hperformed with
  | refused _ hrecalls => exact hrecalls
  | answered _ hrecalls => exact hrecalls

/-- Any number of calls. -/
theorem Recalls.after (h : s.Recalls history) (calls : List Call) :
    (s.after calls).Recalls (history ++ calls) := by
  induction calls generalizing s history with
  | nil => simpa [Store.after] using h
  | cons call rest ih =>
      have hrest := ih (h.leftBy_perform call)
      rwa [List.append_assoc] at hrest

end

/-- After any calls the registers are the twenty-six in their order, and each of them holds
what was last written to it since the last reset. A further call is refused for the reason
that its names give and for no other, and then the store is left as it was; a call that is
not refused answers by the last write. -/
theorem registers_recalled (history : List Call) :
    (zero.after history).keys = names ∧
      (∀ key ∈ names, (zero.after history).get? key = some (lastWrite history key)) ∧
      ∀ call : Call,
        (∀ refusal t, call.perform (zero.after history) = .error refusal t ↔
          call.refusal? = some refusal ∧ t = zero.after history) ∧
        ∀ answer t, call.perform (zero.after history) = .ok answer t ↔
          call.refusal? = none ∧ answer = call.answer? history ∧
            t = zero.after (history ++ [call]) := by
  have hrecalls : (zero.after history).Recalls history := recalls_zero.after history
  refine ⟨hrecalls.keys, hrecalls.values, ?_⟩
  intro call
  have hperformed := hrecalls.performed call
  rw [after_concat, leftBy]
  generalize call.perform (zero.after history) = r at hperformed ⊢
  cases hperformed with
  | refused hrefusal _ => simp [hrefusal, eq_comm]
  | answered hrefusal _ => simp [hrefusal, eq_comm]

/-- The sign for kelvin is another spelling of a register; a capital letter as such is none. -/
example : (zero.after [.assign [Char.ofNat 0x212A] 9, .set ['K'] 4, .reshape (.pop ['k'])]).get?
    ['k'] = some 9 := by
  decide +kernel

end LineBasic.Store
