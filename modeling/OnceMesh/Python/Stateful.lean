import OnceMesh.Python.Error

/-!
# Stateful computations

A Python function that has effects runs over a state and may raise. What it has done to the state
before it raises stays done.
-/

namespace Python

/-- A computation over a state that may raise. -/
def Stateful (ε σ α : Type) : Type := σ → Except ε α × σ

namespace Stateful

variable {ε σ α β : Type}

instance : Monad (Stateful ε σ) where
  pure a := fun s => (.ok a, s)
  bind x f := fun s =>
    match x s with
    | (.ok a, t) => f a t
    | (.error e, t) => (.error e, t)

/-- A computation without effects. -/
def ofExcept (x : Except ε α) : Stateful ε σ α := fun s => (x, s)

instance : MonadLift (Except ε) (Stateful ε σ) := ⟨ofExcept⟩

/-- An assignment to the state. -/
def modify (f : σ → σ) : Stateful ε σ Unit := fun s => (.ok (), f s)

/-- `try: x except …: handler`, where the handler rethrows what it does not handle. -/
def handling (x : Stateful ε σ α) (handler : ε → Stateful ε σ α) : Stateful ε σ α := fun s =>
  match x s with
  | (.ok a, t) => (.ok a, t)
  | (.error e, t) => handler e t

@[simp]
theorem pure_apply (a : α) (s : σ) : (pure a : Stateful ε σ α) s = (.ok a, s) := rfl

@[simp]
theorem modify_apply (f : σ → σ) (s : σ) : (modify f : Stateful ε σ Unit) s = (.ok (), f s) := rfl

@[simp]
theorem ofExcept_apply (x : Except ε α) (s : σ) : (ofExcept x : Stateful ε σ α) s = (x, s) := rfl

@[simp]
theorem monadLift_apply (x : Except ε α) (s : σ) :
    (MonadLift.monadLift x : Stateful ε σ α) s = (x, s) := rfl

/-- A sequence, by the result of its first part. -/
theorem bind_apply (x : Stateful ε σ α) (f : α → Stateful ε σ β) (s : σ) :
    (x >>= f) s =
      match (x s).1 with
      | .ok a => f a (x s).2
      | .error e => (.error e, (x s).2) := by
  show (match x s with
    | (.ok a, t) => f a t
    | (.error e, t) => (.error e, t)) = _
  cases x s with
  | mk r t => cases r <;> rfl

/-- A sequenced computation returns only through a returning first part. -/
theorem bind_eq_ok {x : Stateful ε σ α} {f : α → Stateful ε σ β} {s t : σ} {b : β} :
    (x >>= f) s = (.ok b, t) ↔ ∃ a u, x s = (.ok a, u) ∧ f a u = (.ok b, t) := by
  show (match x s with
    | (.ok a, t) => f a t
    | (.error e, t) => (.error e, t)) = _ ↔ _
  cases x s with
  | mk r u => cases r <;> simp

/-- A sequenced computation raises in its first part, or in the rest. -/
theorem bind_eq_error {x : Stateful ε σ α} {f : α → Stateful ε σ β} {s t : σ} {e : ε} :
    (x >>= f) s = (.error e, t) ↔
      x s = (.error e, t) ∨ ∃ a u, x s = (.ok a, u) ∧ f a u = (.error e, t) := by
  show (match x s with
    | (.ok a, t) => f a t
    | (.error e, t) => (.error e, t)) = _ ↔ _
  cases x s with
  | mk r u => cases r <;> simp

/-- A sequenced computation, when the first part returns. -/
theorem bind_apply_of_ok {x : Stateful ε σ α} {f : α → Stateful ε σ β} {s u : σ} {a : α}
    (h : x s = (.ok a, u)) : (x >>= f) s = f a u := by
  show (match x s with
    | (.ok a, t) => f a t
    | (.error e, t) => (.error e, t)) = _
  rw [h]

/-- A sequenced computation, when the first part raises. -/
theorem bind_apply_of_error {x : Stateful ε σ α} {f : α → Stateful ε σ β} {s u : σ} {e : ε}
    (h : x s = (.error e, u)) : (x >>= f) s = (.error e, u) := by
  show (match x s with
    | (.ok a, t) => f a t
    | (.error e, t) => (.error e, t)) = _
  rw [h]

/-- A check and then an assignment: the state is the old one, or the assigned one. -/
theorem check_modify_induction (p : σ → Prop) {x : Except ε α} {f : α → σ → σ} {s : σ} (hs : p s)
    (hf : ∀ a, x = .ok a → p (f a s)) :
    p ((MonadLift.monadLift x >>= fun a => modify (f a) : Stateful ε σ Unit) s).2 := by
  cases x with
  | error e => exact hs
  | ok a => exact hf a rfl

end Stateful

end Python
