import LineBasic.Fault

/-!
# Actions at a state

What an action does at one state, by the way it is put together. An action that
is followed by another either gives a value, with which the other goes on, or
faults; the lemmas below let a proof walk through an action in this way.
-/
namespace LineBasic

section
variable {ε σ α β : Type}

theorem bind_apply (x : EStateM ε σ α) (f : α → EStateM ε σ β) (s : σ) :
    (x >>= f) s = match x s with
      | .ok a t => f a t
      | .error e t => .error e t := rfl

theorem bind_of_ok {x : EStateM ε σ α} {f : α → EStateM ε σ β} {s t : σ} {a : α}
    (h : x s = .ok a t) : (x >>= f) s = f a t := by
  rw [bind_apply, h]

theorem bind_of_error {x : EStateM ε σ α} {f : α → EStateM ε σ β} {s t : σ} {e : ε}
    (h : x s = .error e t) : (x >>= f) s = .error e t := by
  rw [bind_apply, h]

/-- An action that gives a value has come by each of its parts. -/
theorem bind_eq_ok {x : EStateM ε σ α} {f : α → EStateM ε σ β} {s t : σ} {b : β}
    (h : (x >>= f) s = .ok b t) : ∃ a u, x s = .ok a u ∧ f a u = .ok b t := by
  rw [bind_apply] at h
  cases hx : x s with
  | ok a u =>
      rw [hx] at h
      exact ⟨a, u, rfl, h⟩
  | error e u =>
      rw [hx] at h
      cases h

@[simp] theorem pure_apply (a : α) (s : σ) : (pure a : EStateM ε σ α) s = .ok a s := rfl

@[simp] theorem get_bind_apply (f : σ → EStateM ε σ β) (s : σ) : (get >>= f) s = f s s := rfl

@[simp] theorem modify_bind_apply (g : σ → σ) (f : PUnit → EStateM ε σ β) (s : σ) :
    (modify g >>= f) s = f ⟨⟩ (g s) := rfl

@[simp] theorem modify_apply (g : σ → σ) (s : σ) :
    (modify g : EStateM ε σ PUnit) s = .ok ⟨⟩ (g s) := rfl

end

section
variable {σ α β : Type} {body : α → EStateM Fault σ (Round α β)} {n : Nat} {a b : α} {s t : σ}

theorem iterate_of_again (h : body a s = .ok (.again b) t) :
    iterate body (n + 1) a s = iterate body n b t :=
  bind_of_ok h

theorem iterate_of_done {r : β} (h : body a s = .ok (.done r) t) :
    iterate body (n + 1) a s = .ok r t :=
  bind_of_ok h

theorem iterate_of_error {f : Fault} (h : body a s = .error f t) :
    iterate body (n + 1) a s = .error f t :=
  bind_of_error h

end

end LineBasic
