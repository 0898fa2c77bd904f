import Mathlib.Data.List.Count
import OnceMesh.Documents.Stored
import OnceMesh.Python.Stateful

/-!
# Clear epochs

A registry counts how often everything, and how often each namespace, has been cleared.
`EpochRegistry` is what the bridge relies on: a state stands for a pair of epochs for every
namespace, and a rotation moves the epochs of the namespaces it names, or, when it raises, of some
of them. `memoryEpochRegistry` is the registry in memory.

`epochsAfter` gives the epochs after a history of clears: they tell two points of a history apart
exactly when a clear that covers the namespace lies between them.
-/

namespace OnceMesh

open Python

/-- The clear epochs of a namespace: of everything, and of the namespace. -/
abbrev Epochs := ℕ × ℕ

/-- `_validate_namespace`. -/
def validateNamespace (ns : List Str) : Except PyError Unit :=
  raiseIf (ns.any (· = [])) "namespace must be a tuple of non-empty strings"

theorem validateNamespace_eq_ok {ns : List Str} :
    validateNamespace ns = .ok () ↔ ∀ part ∈ ns, part ≠ [] := by
  rw [validateNamespace, raiseIf_eq_ok, List.any_eq_false]
  simp

/-- The namespace at the root. -/
theorem validateNamespace_nil : validateNamespace [] = .ok () := rfl

/-- The epochs after everything is cleared. -/
def Epochs.rotateAll (before : List Str → Epochs) (ns : List Str) : Epochs :=
  ((before ns).1 + 1, (before ns).2)

/-- The epochs after some namespaces are cleared, each as often as it is listed. -/
def Epochs.rotate (moved : List (List Str)) (before : List Str → Epochs) (ns : List Str) : Epochs :=
  ((before ns).1, (before ns).2 + moved.count ns)

/-- An `EpochRegistry` over states of type `β`, through the epochs that a state stands for. -/
structure EpochRegistry (β : Type) where
  init : β
  epochs : β → List Str → Except PyError Epochs
  rotateAll : Stateful PyError β Unit
  rotateNamespaces : List (List Str) → Stateful PyError β Unit
  StandsFor : β → (List Str → Epochs) → Prop
  /-- The namespaces that a rotation moves, by whether it returns. -/
  moved : List (List Str) → Bool → List (List Str)
  moved_subset : ∀ named returned, moved named returned ⊆ named
  moved_true : ∀ named, moved named true = named
  init_standsFor : StandsFor init fun _ => (0, 0)
  epochs_eq : ∀ {b before}, StandsFor b before → ∀ ns, validateNamespace ns = .ok () →
    epochs b ns = .ok (before ns)
  rotateAll_standsFor : ∀ {b before}, StandsFor b before →
    StandsFor (rotateAll b).2 (if (rotateAll b).1.isOk then Epochs.rotateAll before else before)
  rotateNamespaces_standsFor : ∀ {b before}, StandsFor b before → ∀ named,
    StandsFor (rotateNamespaces named b).2
      (Epochs.rotate (moved named (rotateNamespaces named b).1.isOk) before)

/-- `clear`. -/
def EpochRegistry.clear {β : Type} (registry : EpochRegistry β)
    (namespaces : Option (List (List Str))) : Stateful PyError β Unit :=
  match namespaces with
  | none => registry.rotateAll
  | some named => registry.rotateNamespaces named

/-! ### Histories of clears -/

/-- What a clear has cleared: everything, or the namespaces it moved. -/
inductive Cleared where
  | all
  | some (moved : List (List Str))

/-- A clear covers a namespace. -/
def Cleared.Covers (ns : List Str) : Cleared → Prop
  | all => True
  | some moved => ns ∈ moved

/-- The epochs after a clear. -/
def Cleared.apply : Cleared → (List Str → Epochs) → List Str → Epochs
  | all => Epochs.rotateAll
  | some moved => Epochs.rotate moved

/-- The epochs after some clears, the last one first. -/
def epochsAfter (clears : List Cleared) : List Str → Epochs :=
  clears.foldr Cleared.apply fun _ => (0, 0)

/-- A clear that does not cover a namespace leaves its epochs alone; one that does moves them. -/
theorem Cleared.apply_cases (c : Cleared) (before : List Str → Epochs) (ns : List Str) :
    (¬c.Covers ns ∧ c.apply before ns = before ns) ∨
      c.Covers ns ∧
      (before ns).1 + (before ns).2 < (c.apply before ns).1 + (c.apply before ns).2 := by
  cases c with
  | all =>
    refine .inr ⟨trivial, ?_⟩
    simp only [apply, Epochs.rotateAll]
    omega
  | some moved =>
    simp only [apply, Epochs.rotate, Covers]
    by_cases h : ns ∈ moved
    · have hpos : 0 < moved.count ns := List.count_pos_iff.mpr h
      exact .inr ⟨h, by omega⟩
    · rw [List.count_eq_zero_of_not_mem h]
      exact .inl ⟨h, rfl⟩

/-- Epochs do not come back: when they are the same after more clears, none of these covers the
namespace. -/
theorem epochsAfter_append_eq {later earlier : List Cleared} {ns : List Str} :
    epochsAfter (later ++ earlier) ns = epochsAfter earlier ns ↔ ∀ c ∈ later, ¬c.Covers ns := by
  have hsum : ∀ later, (∀ c ∈ later, ¬c.Covers ns) ∧
      epochsAfter (later ++ earlier) ns = epochsAfter earlier ns ∨
      (∃ c ∈ later, c.Covers ns) ∧ (epochsAfter earlier ns).1 + (epochsAfter earlier ns).2 <
        (epochsAfter (later ++ earlier) ns).1 + (epochsAfter (later ++ earlier) ns).2 := by
    intro later
    induction later with
    | nil => exact .inl ⟨by simp, rfl⟩
    | cons c later ih =>
      have hstep : epochsAfter (c :: later ++ earlier) ns =
          c.apply (epochsAfter (later ++ earlier)) ns := rfl
      rw [hstep, List.forall_mem_cons]
      rcases c.apply_cases (epochsAfter (later ++ earlier)) ns with ⟨hcovers, heq⟩ | ⟨hcovers, hlt⟩
      · rw [heq]
        rcases ih with ⟨hall, hsame⟩ | ⟨⟨c', hc', hcovers'⟩, hlt⟩
        · exact .inl ⟨⟨hcovers, hall⟩, hsame⟩
        · exact .inr ⟨⟨c', List.mem_cons_of_mem _ hc', hcovers'⟩, hlt⟩
      · refine .inr ⟨⟨c, List.mem_cons_self, hcovers⟩, lt_of_le_of_lt ?_ hlt⟩
        rcases ih with ⟨-, hsame⟩ | ⟨-, hlt⟩
        · rw [hsame]
        · exact hlt.le
  rcases hsum later with ⟨hall, hsame⟩ | ⟨⟨c, hc, hcovers⟩, hlt⟩
  · exact iff_of_true hsame hall
  · refine iff_of_false (fun heq => ?_) fun hall => hall c hc hcovers
    rw [heq] at hlt
    exact lt_irrefl _ hlt

namespace EpochRegistry

variable {β : Type} (registry : EpochRegistry β)

/-- What a call of `clear` has cleared, if anything, by whether it returns. -/
def cleared (namespaces : Option (List (List Str))) (returned : Bool) : List Cleared :=
  match namespaces with
  | none => if returned then [.all] else []
  | some named => [.some (registry.moved named returned)]

/-- A call of `clear` moves the epochs it has cleared. -/
theorem clear_standsFor {b : β} {clears : List Cleared}
    (h : registry.StandsFor b (epochsAfter clears)) (namespaces : Option (List (List Str))) :
    registry.StandsFor (registry.clear namespaces b).2
      (epochsAfter
        (registry.cleared namespaces (registry.clear namespaces b).1.isOk ++ clears)) := by
  cases namespaces with
  | none =>
    have hrotated := registry.rotateAll_standsFor h
    rw [clear, cleared]
    by_cases hok : (registry.rotateAll b).1.isOk = true
    · rw [if_pos hok] at hrotated ⊢
      exact hrotated
    · rw [if_neg hok] at hrotated ⊢
      exact hrotated
  | some named => exact registry.rotateNamespaces_standsFor h named

end EpochRegistry

/-! ### In memory -/

/-- `MemoryEpochRegistry`. -/
structure MemoryEpochRegistry where
  globalEpoch : ℕ
  namespaces : Dict (List Str) ℕ

namespace MemoryEpochRegistry

/-- `MemoryEpochRegistry()`. -/
def empty : MemoryEpochRegistry := ⟨0, .empty⟩

/-- `MemoryEpochRegistry.epochs`. -/
def epochs (registry : MemoryEpochRegistry) (ns : List Str) : Epochs :=
  (registry.globalEpoch, (registry.namespaces.get? ns).getD 0)

/-- `MemoryEpochRegistry.rotate_all`. -/
def rotateAll : Stateful PyError MemoryEpochRegistry Unit :=
  Stateful.modify fun registry => { registry with globalEpoch := registry.globalEpoch + 1 }

/-- The namespace is cleared. -/
def bump (ns : List Str) (registry : MemoryEpochRegistry) : MemoryEpochRegistry :=
  { registry with
    namespaces := registry.namespaces.set ns ((registry.namespaces.get? ns).getD 0 + 1) }

/-- `MemoryEpochRegistry.rotate_namespaces`; what is rotated before an invalid namespace stays
rotated. -/
def rotateNamespaces : List (List Str) → Stateful PyError MemoryEpochRegistry Unit
  | [] => pure ()
  | ns :: rest => do
    validateNamespace ns
    Stateful.modify (bump ns)
    rotateNamespaces rest

theorem epochs_bump (registry : MemoryEpochRegistry) (ns ns' : List Str) :
    (registry.bump ns).epochs ns' =
      if ns' = ns then ((registry.epochs ns').1, (registry.epochs ns').2 + 1)
      else registry.epochs ns' := by
  simp only [epochs, bump, Dict.get?_set]
  split_ifs with h
  · rw [h]
    rfl
  · rfl

/-- One namespace after the other. -/
theorem rotateNamespaces_cons (ns : List Str) (rest : List (List Str))
    (registry : MemoryEpochRegistry) :
    ((validateNamespace ns).isOk = false ∧
        ∃ e, rotateNamespaces (ns :: rest) registry = (.error e, registry)) ∨
      (validateNamespace ns).isOk = true ∧
        rotateNamespaces (ns :: rest) registry = rotateNamespaces rest (registry.bump ns) := by
  rw [rotateNamespaces]
  cases h : validateNamespace ns with
  | error e => exact .inl ⟨rfl, e, Stateful.bind_apply_of_error rfl⟩
  | ok u => exact .inr ⟨rfl, rfl⟩

/-- A rotation stops at the first invalid namespace. -/
theorem rotateNamespaces_apply (named : List (List Str)) (registry : MemoryEpochRegistry) :
    (rotateNamespaces named registry).2.epochs = Epochs.rotate
        (if (rotateNamespaces named registry).1.isOk then named
          else named.takeWhile fun ns => (validateNamespace ns).isOk) registry.epochs := by
  induction named generalizing registry with
  | nil => rfl
  | cons ns rest ih =>
    rcases rotateNamespaces_cons ns rest registry with ⟨hinvalid, e, herror⟩ | ⟨hvalid, hrest⟩
    · rw [herror, List.takeWhile_cons, hinvalid]
      rfl
    · have htail : (if (rotateNamespaces rest (registry.bump ns)).1.isOk then ns :: rest
          else (ns :: rest).takeWhile fun ns => (validateNamespace ns).isOk) =
          ns :: if (rotateNamespaces rest (registry.bump ns)).1.isOk then rest
            else rest.takeWhile fun ns => (validateNamespace ns).isOk := by
        rw [List.takeWhile_cons, if_pos hvalid]
        split_ifs <;> rfl
      rw [hrest, ih, htail]
      funext ns'
      simp only [Epochs.rotate, epochs_bump]
      by_cases heq : ns' = ns
      · rw [if_pos heq, heq, List.count_cons_self]
        exact Prod.ext rfl (by omega)
      · rw [if_neg heq, List.count_cons_of_ne (Ne.symm heq)]

end MemoryEpochRegistry

/-- The registry in memory. -/
def memoryEpochRegistry : EpochRegistry MemoryEpochRegistry where
  init := .empty
  epochs registry ns := .ok (registry.epochs ns)
  rotateAll := MemoryEpochRegistry.rotateAll
  rotateNamespaces := MemoryEpochRegistry.rotateNamespaces
  StandsFor registry epochs := registry.epochs = epochs
  moved named returned :=
    if returned then named else named.takeWhile fun ns => (validateNamespace ns).isOk
  moved_subset named returned := by
    split_ifs
    · exact List.Subset.refl _
    · exact (List.takeWhile_sublist _).subset
  moved_true _ := rfl
  init_standsFor := rfl
  epochs_eq := by
    rintro registry _ rfl ns -
    rfl
  rotateAll_standsFor := by
    rintro registry _ rfl
    rfl
  rotateNamespaces_standsFor := by
    rintro registry _ rfl named
    exact MemoryEpochRegistry.rotateNamespaces_apply named registry

end OnceMesh
