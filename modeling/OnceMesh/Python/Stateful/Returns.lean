import OnceMesh.Python.Stateful

/-!
# What a stateful computation returns

`Returns x s post` says that `x`, started in `s`, does not raise, and that its result and the state
it leaves satisfy `post`. The rules push it through sequencing, checks, assignments and handlers, so
that a program is taken apart without being run.
-/

namespace Python.Stateful

variable {ε σ τ α β : Type}

/-- The computation returns, and the result and the state after it satisfy a condition. -/
def Returns (x : Stateful ε σ α) (s : σ) (post : α → σ → Prop) : Prop :=
  ∃ a t, x s = (.ok a, t) ∧ post a t

theorem Returns.mono {x : Stateful ε σ α} {s : σ} {p q : α → σ → Prop} (h : Returns x s p)
    (hpq : ∀ a t, p a t → q a t) : Returns x s q := by
  obtain ⟨a, t, hx, hp⟩ := h
  exact ⟨a, t, hx, hpq a t hp⟩

/-- A run that has returned is one that returns just that. -/
theorem eq_ok_iff_returns {x : Stateful ε σ α} {s t : σ} {a : α} :
    x s = (.ok a, t) ↔ Returns x s fun b u => b = a ∧ u = t := by
  constructor
  · intro h
    exact ⟨a, t, h, rfl, rfl⟩
  · rintro ⟨b, u, h, rfl, rfl⟩
    exact h

/-- There is only one run to look at. -/
theorem returns_of_apply {x : Stateful ε σ α} {s t : σ} {a : α} (h : x s = (.ok a, t))
    {post : α → σ → Prop} : Returns x s post ↔ post a t := by
  constructor
  · rintro ⟨b, u, hx, hp⟩
    rw [h] at hx
    cases hx
    exact hp
  · intro hp
    exact ⟨a, t, h, hp⟩

theorem not_returns_of_apply {x : Stateful ε σ α} {s t : σ} {e : ε} (h : x s = (.error e, t))
    {post : α → σ → Prop} : ¬Returns x s post := by
  rintro ⟨a, u, hx, -⟩
  rw [h] at hx
  cases hx

@[simp]
theorem returns_pure {a : α} {s : σ} {post : α → σ → Prop} :
    Returns (pure a : Stateful ε σ α) s post ↔ post a s :=
  returns_of_apply rfl

theorem returns_bind {x : Stateful ε σ α} {f : α → Stateful ε σ β} {s : σ} {post : β → σ → Prop} :
    Returns (x >>= f) s post ↔ Returns x s fun a t => Returns (f a) t post := by
  constructor
  · rintro ⟨b, u, h, hp⟩
    obtain ⟨a, t, hx, hf⟩ := bind_eq_ok.mp h
    exact ⟨a, t, hx, b, u, hf, hp⟩
  · rintro ⟨a, t, hx, b, u, hf, hp⟩
    exact ⟨b, u, bind_eq_ok.mpr ⟨a, t, hx, hf⟩, hp⟩

/-- A check of the arguments. -/
@[simp]
theorem returns_ofExcept {x : Except ε α} {s : σ} {post : α → σ → Prop} :
    Returns (ofExcept x) s post ↔ ∃ a, x = .ok a ∧ post a s := by
  constructor
  · rintro ⟨a, t, hx, hp⟩
    cases hx
    exact ⟨a, rfl, hp⟩
  · rintro ⟨a, rfl, hp⟩
    exact ⟨a, s, rfl, hp⟩

@[simp]
theorem returns_liftM {x : Except ε α} {s : σ} {post : α → σ → Prop} :
    Returns (liftM x : Stateful ε σ α) s post ↔ ∃ a, x = .ok a ∧ post a s :=
  returns_ofExcept

@[simp]
theorem returns_modify {f : σ → σ} {s : σ} {post : Unit → σ → Prop} :
    Returns (modify f : Stateful ε σ Unit) s post ↔ post () (f s) :=
  returns_of_apply rfl

theorem returns_map {g : α → β} {x : Stateful ε σ α} {s : σ} {post : β → σ → Prop} :
    Returns (g <$> x) s post ↔ Returns x s fun a t => post (g a) t := by
  have hmap : g <$> x = x >>= fun a => pure (g a) := rfl
  simp only [hmap, returns_bind, returns_pure]

/-- A handler that replaces every exception by a value. -/
theorem returns_handling_pure {x : Stateful ε σ α} {a : α} {s : σ} {post : α → σ → Prop} :
    Returns (x.handling fun _ => pure a) s post ↔
      Returns x s post ∨ ∃ e t, x s = (.error e, t) ∧ post a t := by
  cases h : x s with
  | mk result t =>
    cases result with
    | ok b =>
      have hrun : x.handling (fun _ => pure a) s = (.ok b, t) := by rw [handling, h]
      simp [returns_of_apply h, returns_of_apply hrun]
    | error e =>
      have hrun : x.handling (fun _ => pure a) s = (.ok a, t) := by
        rw [handling, h]
        rfl
      simp [not_returns_of_apply h, returns_of_apply hrun]

end Python.Stateful
