import Mathlib.Order.Defs.Unbundled
import OnceMesh.Python.Stateful

/-!
# What a stateful computation does to the state

`Within R x` says that the state after `x` is related to the one before, whether `x` returns or
raises. If the relation is a preorder, what holds of the parts of a program holds of the program.
-/

namespace Python.Stateful

variable {ε σ α β : Type}

/-- Whatever the computation does to the state stays within the relation. -/
def Within (R : σ → σ → Prop) (x : Stateful ε σ α) : Prop :=
  ∀ s, R s (x s).2

variable {R : σ → σ → Prop}

/-- A choice does what one of its branches does. -/
theorem Within.ite {c : Prop} [Decidable c] {x y : Stateful ε σ α} (hx : Within R x)
    (hy : Within R y) : Within R (if c then x else y) := by
  split_ifs
  · exact hx
  · exact hy

/-- A handler runs in the state that the exception has left. -/
theorem Within.handling [IsTrans σ R] {x : Stateful ε σ α} {handler : ε → Stateful ε σ α}
    (hx : Within R x) (hhandler : ∀ e, Within R (handler e)) : Within R (x.handling handler) := by
  intro s
  have hs := hx s
  unfold Stateful.handling
  cases h : x s with
  | mk result t =>
    rw [h] at hs
    cases result with
    | ok a => exact hs
    | error e => exact trans_of R hs (hhandler e t)

/-- A sequence does what its first part does, and then what the rest does. -/
theorem Within.bind [IsTrans σ R] {x : Stateful ε σ α} {f : α → Stateful ε σ β} (hx : Within R x)
    (hf : ∀ a, Within R (f a)) : Within R (x >>= f) := by
  intro s
  have hs := hx s
  rw [bind_apply]
  cases (x s).1 with
  | ok a => exact trans_of R hs (hf a _)
  | error e => exact hs

variable [Std.Refl R]

/-- What has no effects stays within every preorder. -/
theorem within_ofExcept (x : Except ε α) : Within R (ofExcept x : Stateful ε σ α) :=
  fun s => refl_of R s

/-- A value has no effects. -/
theorem within_pure (a : α) : Within R (pure a : Stateful ε σ α) :=
  within_ofExcept (.ok a)

/-- After a part without effects, the rest matters only where that part returns. -/
theorem within_liftM_bind {x : Except ε α} {f : α → Stateful ε σ β}
    (hf : ∀ a, x = .ok a → Within R (f a)) : Within R ((liftM x : Stateful ε σ α) >>= f) := by
  intro s
  cases x with
  | ok a => exact hf a rfl s
  | error e => exact refl_of R s

end Python.Stateful
