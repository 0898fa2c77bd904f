import Mathlib.Order.Lattice
import OnceMesh.Python.Dict

/-!
# Replay caches

A replay cache remembers keys until they expire. `offer` forgets the expired keys, then accepts
the offered key if it is new and there is room, and remembers it. As long as a key has not
expired it stays remembered, whatever else is offered, and offering it again is refused.
-/

namespace ReplayCache

open Python

variable {κ τ ε : Type} [DecidableEq κ] [LinearOrder τ]

/-- Forget the keys that have expired. -/
def prune (cache : Dict κ τ) (now : τ) : Dict κ τ :=
  cache.filter fun _ expires => decide (now < expires)

/-- Offer a key: whether it is accepted, and the cache after. The expiry is computed only for an
accepted key, and its computation can fail. -/
def offer (capacity : ℕ) (now : τ) (expires : Except ε τ) (k : κ) (cache : Dict κ τ) :
    Except ε Bool × Dict κ τ :=
  let kept := prune cache now
  if kept.contains k ∨ capacity ≤ kept.size then (.ok false, kept)
  else match expires with
    | .error e => (.error e, kept)
    | .ok t => (.ok true, kept.set k t)

variable {capacity : ℕ} {now e : τ} {expires : Except ε τ} {k k' : κ} {cache : Dict κ τ}

theorem get?_prune_eq_some : (prune cache now).get? k = some e ↔
    cache.get? k = some e ∧ now < e := by
  rw [prune, Dict.get?_filter_eq_some, decide_eq_true_iff]

/-- A key that has not expired stays remembered, whatever is offered. -/
theorem get?_offer (hk : cache.get? k = some e) (hnow : now < e) :
    (offer capacity now expires k' cache).2.get? k = some e := by
  have hkept : (prune cache now).get? k = some e := get?_prune_eq_some.mpr ⟨hk, hnow⟩
  simp only [offer]
  split_ifs with hrefused
  · exact hkept
  · cases expires with
    | error err => exact hkept
    | ok t =>
      have hne : k ≠ k' := by
        rintro rfl
        exact hrefused (Or.inl (by rw [Dict.contains, hkept]; rfl))
      show ((prune cache now).set k' t).get? k = some e
      rw [Dict.get?_set, if_neg hne, hkept]

/-- A key that has not expired is refused. -/
theorem offer_remembered (hk : cache.get? k = some e) (hnow : now < e) :
    (offer capacity now expires k cache).1 = .ok false := by
  have hkept : (prune cache now).get? k = some e := get?_prune_eq_some.mpr ⟨hk, hnow⟩
  have hcontains : (prune cache now).contains k = true := by
    rw [Dict.contains, hkept]
    rfl
  simp only [offer]
  rw [if_pos (Or.inl hcontains)]

/-- An accepted key is remembered until it expires. -/
theorem get?_of_accepted (h : (offer capacity now expires k cache).1 = .ok true) :
    ∃ t, expires = .ok t ∧ (offer capacity now expires k cache).2.get? k = some t := by
  simp only [offer] at h ⊢
  split_ifs at h ⊢ with hrefused
  · cases h
  · cases expires with
    | error err => cases h
    | ok t =>
      refine ⟨t, rfl, ?_⟩
      show ((prune cache now).set k t).get? k = some t
      rw [Dict.get?_set, if_pos rfl]

/-- An empty cache remembers nothing but the key it accepts. -/
theorem offer_empty_accepted (h : (offer capacity now expires k .empty).1 = .ok true) :
    ∃ t, expires = .ok t ∧
      (offer capacity now expires k .empty).2 = (Dict.empty : Dict κ τ).set k t := by
  simp only [offer] at h ⊢
  split_ifs at h ⊢ with hrefused
  · cases h
  · cases expires with
    | error err => cases h
    | ok t => exact ⟨t, rfl, rfl⟩

/-- A cache whose only key has expired accepts every key. -/
theorem offer_singleton_expired {t : τ} (ht : expires = .ok t) (he : e ≤ now)
    (hcapacity : 0 < capacity) :
    (offer capacity now expires k' ((Dict.empty : Dict κ τ).set k e)).1 = .ok true := by
  subst ht
  have hpruned : (prune ((Dict.empty : Dict κ τ).set k e) now).entries = [] := by
    simp [prune, Dict.filter, Dict.set, Dict.empty, setItem, he]
  simp only [offer]
  rw [if_neg]
  rintro (hcontains | hfull)
  · simp [Dict.contains, Dict.get?, hpruned] at hcontains
  · rw [Dict.size, hpruned] at hfull
    exact absurd hfull (Nat.not_le.mpr hcapacity)

end ReplayCache
