import OnceMesh.Python.Json

/-!
# Equality of JSON values

`Value.Same` is equality of JSON values: the order of object members does not matter, and a
boolean is not an integer. `Value.sortKeys` picks one representative, with the members of every
object sorted by key, and `same_iff_sortKeys_eq` says that it does.
-/

namespace Python

open Json

namespace Value

mutual

/-- Equality of JSON values, up to the order of object members. -/
def Same : Value → Value → Prop
  | list xs, list ys => SameList xs ys
  | dict xs, dict ys => xs.length = ys.length ∧ SameItems xs ys
  | v, w => v = w

/-- `Same`, element by element. -/
def SameList : List Value → List Value → Prop
  | [], [] => True
  | x :: xs, y :: ys => Same x y ∧ SameList xs ys
  | _, _ => False

/-- Every member of the first object has its like in the second. -/
def SameItems : List (Str × Value) → List (Str × Value) → Prop
  | [], _ => True
  | (k, v) :: rest, ys => (∃ w, (k, w) ∈ ys ∧ Same v w) ∧ SameItems rest ys

end

mutual

/-- The value with the members of every object sorted by key. -/
def sortKeys : Value → Value
  | list items => list (sortKeysList items)
  | dict items => dict ((sortKeysItems items).insertionSort keyLE)
  | v => v

/-- `sortKeys` of every element. -/
def sortKeysList : List Value → List Value
  | [] => []
  | v :: vs => sortKeys v :: sortKeysList vs

/-- `sortKeys` of every member's value. -/
def sortKeysItems : List (Str × Value) → List (Str × Value)
  | [] => []
  | (k, v) :: rest => (k, sortKeys v) :: sortKeysItems rest

end

theorem sameList_iff {xs ys : List Value} : SameList xs ys ↔ List.Forall₂ Same xs ys := by
  induction xs generalizing ys with
  | nil => cases ys <;> simp [SameList]
  | cons x xs ih => cases ys <;> simp [SameList, ih]

theorem sameItems_iff {xs ys : List (Str × Value)} :
    SameItems xs ys ↔ ∀ i ∈ xs, ∃ w, (i.1, w) ∈ ys ∧ Same i.2 w := by
  induction xs with
  | nil => simp [SameItems]
  | cons i is ih => simp [SameItems, ih]

theorem sortKeysList_eq (items : List Value) : sortKeysList items = items.map sortKeys := by
  induction items with
  | nil => rfl
  | cons v vs ih => rw [sortKeysList, ih, List.map_cons]

theorem sortKeysItems_eq (items : List (Str × Value)) :
    sortKeysItems items = items.map fun i => (i.1, sortKeys i.2) := by
  induction items with
  | nil => rfl
  | cons i is ih => rw [sortKeysItems, ih, List.map_cons]

end Value

/-- Sorting by key orders the keys. -/
theorem pairwise_insertionSort_keyLE {α : Type} (items : List (Str × α)) :
    (items.insertionSort keyLE).Pairwise keyLE := by
  have : Std.Total (keyLE (α := α)) := ⟨fun a b => le_total a.1 b.1⟩
  have : IsTrans (Str × α) keyLE := ⟨fun _ _ _ hab hbc => le_trans hab hbc⟩
  exact List.pairwise_insertionSort keyLE items

/-- Items with distinct keys sort to the same list exactly when they are permutations of each
other. -/
theorem insertionSort_eq_iff_perm {α : Type} {xs ys : List (Str × α)}
    (hxs : (xs.map Prod.fst).Nodup) :
    xs.insertionSort keyLE = ys.insertionSort keyLE ↔ xs.Perm ys := by
  have hperm := List.perm_insertionSort keyLE xs
  have hperm' := List.perm_insertionSort keyLE ys
  constructor
  · intro h
    exact hperm.symm.trans ((List.Perm.of_eq h).trans hperm')
  · intro h
    refine List.Perm.eq_of_pairwise ?_ (pairwise_insertionSort_keyLE xs)
      (pairwise_insertionSort_keyLE ys) (hperm.trans (h.trans hperm'.symm))
    intro a b ha hb hab hba
    have hkey : a.1 = b.1 := le_antisymm hab hba
    have hmem : a ∈ xs := hperm.mem_iff.mp ha
    have hmem' : b ∈ xs := h.mem_iff.mpr (hperm'.mem_iff.mp hb)
    exact List.inj_on_of_nodup_map hxs hmem hmem' hkey

namespace Value

/-- Two objects with distinct keys are the same exactly when their members, up to order, have
the same values. -/
theorem same_dict_iff_perm {xs ys : List (Str × Value)} (f : Value → Value)
    (hxs : (xs.map Prod.fst).Nodup)
    (hf : ∀ i ∈ xs, ∀ j ∈ ys, Same i.2 j.2 ↔ f i.2 = f j.2) :
    Same (dict xs) (dict ys) ↔
      (xs.map fun i => (i.1, f i.2)).Perm (ys.map fun i => (i.1, f i.2)) := by
  rw [Same, sameItems_iff]
  have hnodup : (xs.map fun i => (i.1, f i.2)).Nodup := by
    apply List.Nodup.of_map Prod.fst
    simpa [Function.comp_def] using hxs
  constructor
  · rintro ⟨hlen, hitems⟩
    refine (List.subperm_of_subset hnodup ?_).perm_of_length_le (by simp [hlen])
    intro e he
    obtain ⟨i, hi, rfl⟩ := List.mem_map.mp he
    obtain ⟨w, hw, hsame⟩ := hitems i hi
    rw [(hf i hi (i.1, w) hw).mp hsame]
    exact List.mem_map.mpr ⟨(i.1, w), hw, rfl⟩
  · intro hperm
    refine ⟨by simpa using hperm.length_eq, ?_⟩
    intro i hi
    have hmem : (i.1, f i.2) ∈ ys.map fun j => (j.1, f j.2) :=
      hperm.mem_iff.mp (List.mem_map.mpr ⟨i, hi, rfl⟩)
    obtain ⟨j, hj, hij⟩ := List.mem_map.mp hmem
    rw [Prod.mk.injEq] at hij
    obtain ⟨hkey, hval⟩ := hij
    exact ⟨j.2, by rw [← hkey]; exact hj, (hf i hi j hj).mpr hval.symm⟩

/-- `sortKeys` picks one representative of each JSON value. -/
theorem same_iff_sortKeys_eq {v w : Value} (hv : v.WellFormed) (hw : w.WellFormed) :
    Same v w ↔ sortKeys v = sortKeys w := by
  induction v using Value.induction generalizing w with
  | list xs ih =>
    cases w with
    | list ys =>
      rw [wellFormed_list] at hv hw
      rw [Same, sameList_iff, sortKeys, sortKeys, list.injEq, sortKeysList_eq, sortKeysList_eq]
      induction xs generalizing ys with
      | nil => cases ys <;> simp
      | cons x xs ihxs =>
        cases ys with
        | nil => simp
        | cons y ys =>
          simp only [List.mem_cons, forall_eq_or_imp] at hv hw ih
          rw [List.forall₂_cons, List.map_cons, List.map_cons, List.cons.injEq,
            ih.1 hv.1 hw.1, ihxs ih.2 hv.2 ys hw.2]
    | _ => simp [Same, sortKeys]
  | dict xs ih =>
    cases w with
    | dict ys =>
      rw [wellFormed_dict] at hv hw
      have hf : ∀ i ∈ xs, ∀ j ∈ ys, Same i.2 j.2 ↔ sortKeys i.2 = sortKeys j.2 :=
        fun i hi j hj => ih i hi (hv.2 i hi) (hw.2 j hj)
      have hkeys : ((xs.map fun i => (i.1, sortKeys i.2)).map Prod.fst).Nodup := by
        simpa [Function.comp_def] using hv.1
      rw [same_dict_iff_perm sortKeys hv.1 hf, sortKeys, sortKeys, dict.injEq, sortKeysItems_eq,
        sortKeysItems_eq, insertionSort_eq_iff_perm hkeys]
    | _ => simp [Same, sortKeys]
  | none | bool _ | int _ | float _ | str _ | mixedDict _ _ | other _ _ =>
    cases w <;> simp [Same, sortKeys]

/-- Sorting the members keeps every key. -/
theorem map_fst_sortKeysItems (items : List (Str × Value)) :
    ((sortKeysItems items).map Prod.fst) = items.map Prod.fst := by
  simp [sortKeysItems_eq, Function.comp_def]

/-- Sorting the members keeps keys distinct. -/
theorem wellFormed_sortKeys {v : Value} (hv : v.WellFormed) : (sortKeys v).WellFormed := by
  induction v using Value.induction with
  | list items ih =>
    rw [wellFormed_list] at hv
    rw [sortKeys, sortKeysList_eq, wellFormed_list]
    intro w hw
    obtain ⟨u, hu, rfl⟩ := List.mem_map.mp hw
    exact ih u hu (hv u hu)
  | dict items ih =>
    rw [wellFormed_dict] at hv
    rw [sortKeys, wellFormed_dict]
    have hperm := List.perm_insertionSort keyLE (sortKeysItems items)
    refine ⟨?_, ?_⟩
    · rw [(hperm.map Prod.fst).nodup_iff, map_fst_sortKeysItems]
      exact hv.1
    · intro i hi
      rw [hperm.mem_iff, sortKeysItems_eq] at hi
      obtain ⟨j, hj, rfl⟩ := List.mem_map.mp hi
      exact ih j hj (hv.2 j hj)
  | none | bool _ | int _ | float _ | str _ | mixedDict _ _ | other _ _ => exact hv

/-- Sorting twice is sorting once. -/
@[simp]
theorem sortKeys_sortKeys (v : Value) : sortKeys (sortKeys v) = sortKeys v := by
  induction v using Value.induction with
  | list items ih =>
    simp only [sortKeys, sortKeysList_eq, List.map_map, list.injEq, List.map_inj_left,
      Function.comp_apply]
    exact ih
  | dict items ih =>
    -- the sorted members are already sorted inside, and already in order
    have hinner : sortKeysItems ((sortKeysItems items).insertionSort keyLE) =
        (sortKeysItems items).insertionSort keyLE := by
      rw [sortKeysItems_eq ((sortKeysItems items).insertionSort keyLE)]
      refine (List.map_congr_left ?_).trans (List.map_id _)
      intro i hi
      rw [(List.perm_insertionSort keyLE _).mem_iff, sortKeysItems_eq] at hi
      obtain ⟨j, hj, rfl⟩ := List.mem_map.mp hi
      simp [ih j hj]
    rw [sortKeys, sortKeys, hinner,
      (pairwise_insertionSort_keyLE (sortKeysItems items)).insertionSort_eq]
  | none | bool _ | int _ | float _ | str _ | mixedDict _ _ | other _ _ => rfl

/-- A value is the same as its representative. -/
theorem same_sortKeys {v : Value} (hv : v.WellFormed) : Same (sortKeys v) v := by
  rw [same_iff_sortKeys_eq (wellFormed_sortKeys hv) hv, sortKeys_sortKeys]

end Value

end Python
