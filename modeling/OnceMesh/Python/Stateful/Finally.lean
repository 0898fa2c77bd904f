import OnceMesh.Python.Stateful

/-!
# Cleaning up

`tryFinally x y` runs `y` after `x`, whether `x` has returned or raised.
-/

namespace Python.Stateful

variable {ε σ α : Type}

/-- The state. -/
def get : Stateful ε σ σ := fun s => (.ok s, s)

/-- `try: x finally: y`, where what `y` raises takes the place of what `x` does. -/
def tryFinally (x : Stateful ε σ α) (y : Stateful ε σ Unit) : Stateful ε σ α := fun s =>
  match y (x s).2 with
  | (.ok _, t) => ((x s).1, t)
  | (.error e, t) => (.error e, t)

@[simp]
theorem get_apply (s : σ) : (get : Stateful ε σ σ) s = (.ok s, s) := rfl

/-- A clean-up that returns does not change the result. -/
theorem tryFinally_apply_of_ok {x : Stateful ε σ α} {y : Stateful ε σ Unit} {s t : σ} {u : Unit}
    (h : y (x s).2 = (.ok u, t)) : tryFinally x y s = ((x s).1, t) := by
  rw [tryFinally, h]

variable {β : Type}

/-- A part without effects, and then the rest. -/
theorem bind_liftM_apply (x : Except ε α) (f : α → Stateful ε σ β) (s : σ) :
    ((liftM x : Stateful ε σ α) >>= f) s =
      match x with
      | .ok a => f a s
      | .error e => (.error e, s) :=
  bind_apply _ _ _

end Python.Stateful
