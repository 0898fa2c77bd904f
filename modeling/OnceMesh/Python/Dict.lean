import Mathlib.Data.List.Nodup

/-!
# Python dictionaries

A dictionary is an association list in insertion order whose keys are distinct. `setItem` is
`d[k] = v`: it replaces the value of a present key in place and appends a new one.

`Dict` carries the distinctness of its keys, and is compared through `Dict.get?`
(`Dict.mem_entries_iff`).
-/

namespace Python

variable {κ α β : Type} [DecidableEq κ]

/-- `d[k] = v` on the items of a dictionary. -/
def setItem : List (κ × α) → κ → α → List (κ × α)
  | [], k, v => [(k, v)]
  | (k', v') :: rest, k, v =>
    if k' = k then (k, v) :: rest else (k', v') :: setItem rest k v

/-- A new key is appended. -/
theorem setItem_of_notMem {items : List (κ × α)} {k : κ} (v : α)
    (h : k ∉ items.map Prod.fst) : setItem items k v = items ++ [(k, v)] := by
  induction items with
  | nil => rfl
  | cons e rest ih =>
    simp only [List.map_cons, List.mem_cons, not_or] at h
    have hne : ¬e.1 = k := fun heq => h.1 heq.symm
    rw [setItem, if_neg hne, ih h.2, List.cons_append]

/-- Setting a key leaves the key list alone, or appends the key. -/
theorem keys_setItem (items : List (κ × α)) (k : κ) (v : α) :
    (setItem items k v).map Prod.fst =
      if k ∈ items.map Prod.fst then items.map Prod.fst else items.map Prod.fst ++ [k] := by
  induction items with
  | nil => simp [setItem]
  | cons e rest ih =>
    by_cases heq : e.1 = k
    · simp [setItem, heq]
    · have hne : ¬k = e.1 := fun h => heq h.symm
      simp only [setItem, heq, ↓reduceIte, List.map_cons, ih, List.mem_cons, hne, false_or]
      split <;> simp

/-- Setting a key keeps keys distinct. -/
theorem nodup_keys_setItem {items : List (κ × α)} (h : (items.map Prod.fst).Nodup) (k : κ)
    (v : α) : ((setItem items k v).map Prod.fst).Nodup := by
  rw [keys_setItem]
  split
  · exact h
  · next hk => exact List.Nodup.append h (List.nodup_singleton k) (by simpa using hk)

/-- The items after setting a key are old items, or the new one. -/
theorem mem_setItem {items : List (κ × α)} {k : κ} {v : α} {i : κ × α}
    (h : i ∈ setItem items k v) : i ∈ items ∨ i = (k, v) := by
  induction items with
  | nil => simpa [setItem] using h
  | cons e rest ih =>
    rw [setItem] at h
    split at h
    · rcases List.mem_cons.mp h with rfl | hrest
      · exact Or.inr rfl
      · exact Or.inl (List.mem_cons_of_mem _ hrest)
    · rcases List.mem_cons.mp h with rfl | hrest
      · exact Or.inl List.mem_cons_self
      · rcases ih hrest with hmem | heq
        · exact Or.inl (List.mem_cons_of_mem _ hmem)
        · exact Or.inr heq

/-- A lookup after setting a key. -/
theorem lookup_setItem (items : List (κ × α)) (k k' : κ) (v : α) :
    (setItem items k v).lookup k' = if k' = k then some v else items.lookup k' := by
  induction items with
  | nil =>
    by_cases h : k' = k
    · simp [setItem, h]
    · have hne : (k' == k) = false := by simpa using h
      simp [setItem, List.lookup_cons, h, hne]
  | cons e rest ih =>
    obtain ⟨ke, ve⟩ := e
    by_cases hke : ke = k
    · subst hke
      by_cases h : k' = ke
      · simp [setItem, h]
      · have hne : (k' == ke) = false := by simpa using h
        simp [setItem, List.lookup_cons, h, hne]
    · simp only [setItem, hke, ↓reduceIte, List.lookup_cons]
      by_cases h : k' = ke
      · subst h
        simp [hke]
      · have hne : (k' == ke) = false := by simpa using h
        simp only [hne, ih]

/-- With distinct keys, the items of a dictionary are what it looks up. -/
theorem lookup_eq_some_iff_mem {items : List (κ × α)} (h : (items.map Prod.fst).Nodup) {k : κ}
    {v : α} : items.lookup k = some v ↔ (k, v) ∈ items := by
  induction items with
  | nil => simp
  | cons e rest ih =>
    obtain ⟨ke, ve⟩ := e
    rw [List.map_cons, List.nodup_cons] at h
    by_cases hk : k = ke
    · subst hk
      have hnot : (k, v) ∉ rest := fun hmem => h.1 (List.mem_map.mpr ⟨_, hmem, rfl⟩)
      simp [hnot, eq_comm]
    · have hne : (k == ke) = false := by simpa using hk
      simp [List.lookup_cons, hne, ih h.2, hk]

/-- Setting a key that a filter drops. -/
theorem filter_setItem_of_not {items : List (κ × α)} {keep : κ → Bool} {k : κ} (v : α)
    (h : keep k = false) :
    (setItem items k v).filter (fun e => keep e.1) = items.filter fun e => keep e.1 := by
  induction items with
  | nil => simp [setItem, h]
  | cons e rest ih =>
    by_cases hkey : e.1 = k
    · simp [setItem, hkey, h]
    · simp [setItem, hkey, List.filter_cons, ih]

/-- Setting a key that a filter keeps. -/
theorem filter_setItem_of_keep {items : List (κ × α)} {keep : κ → Bool} {k : κ} (v : α)
    (h : keep k = true) : (setItem items k v).filter (fun e => keep e.1) =
      setItem (items.filter fun e => keep e.1) k v := by
  induction items with
  | nil => simp [setItem, h]
  | cons e rest ih =>
    by_cases hkey : e.1 = k
    · simp [setItem, hkey, h]
    · by_cases hkeep : keep e.1 = true
      · simp [setItem, hkey, hkeep, ih]
      · simp [setItem, hkey, hkeep, ih]

/-- A dictionary: items in insertion order, with distinct keys. -/
structure Dict (κ α : Type) where
  /-- The items, in insertion order. -/
  entries : List (κ × α)
  /-- No key occurs twice. -/
  nodup : (entries.map Prod.fst).Nodup

namespace Dict

/-- `{}`. -/
def empty : Dict κ α := ⟨[], by simp⟩

/-- `d.get(k)`. -/
def get? (d : Dict κ α) (k : κ) : Option α := d.entries.lookup k

/-- `d[k] = v`. -/
def set (d : Dict κ α) (k : κ) (v : α) : Dict κ α :=
  ⟨setItem d.entries k v, nodup_keys_setItem d.nodup k v⟩

/-- `dict(pairs)`. -/
def ofPairs (pairs : List (κ × α)) : Dict κ α := pairs.foldl (fun d i => d.set i.1 i.2) empty

/-- `{k: v for k, v in d.items() if keep(k, v)}`. -/
def filter (d : Dict κ α) (keep : κ → α → Bool) : Dict κ α :=
  ⟨d.entries.filter fun e => keep e.1 e.2,
    d.nodup.sublist (List.filter_sublist.map Prod.fst)⟩

/-- `{k: change(k, v) for k, v in d.items()}`. -/
def mapValues (d : Dict κ α) (change : κ → α → β) : Dict κ β :=
  ⟨d.entries.map fun e => (e.1, change e.1 e.2), by simpa [Function.comp_def] using d.nodup⟩

/-- `len(d)`. -/
def size (d : Dict κ α) : ℕ := d.entries.length

/-- `k in d`. -/
def contains (d : Dict κ α) (k : κ) : Bool := (d.get? k).isSome

@[simp]
theorem get?_empty (k : κ) : (empty : Dict κ α).get? k = none := rfl

@[simp]
theorem get?_set (d : Dict κ α) (k k' : κ) (v : α) :
    (d.set k v).get? k' = if k' = k then some v else d.get? k' :=
  lookup_setItem d.entries k k' v

/-- The items of a dictionary are what it looks up. -/
theorem mem_entries_iff {d : Dict κ α} {k : κ} {v : α} :
    (k, v) ∈ d.entries ↔ d.get? k = some v :=
  (lookup_eq_some_iff_mem d.nodup).symm

/-- What a dictionary made of pairs looks up is one of them. -/
theorem mem_of_get?_ofPairs {pairs : List (κ × α)} {k : κ} {v : α}
    (h : (ofPairs pairs).get? k = some v) : (k, v) ∈ pairs := by
  have hfold : ∀ (pairs : List (κ × α)) (d : Dict κ α),
      (pairs.foldl (fun d i => d.set i.1 i.2) d).get? k = some v →
      (k, v) ∈ pairs ∨ d.get? k = some v := by
    intro pairs
    induction pairs with
    | nil => exact fun d h => .inr h
    | cons i pairs ih =>
      intro d hget
      rcases ih _ hget with hmem | hget
      · exact .inl (List.mem_cons_of_mem _ hmem)
      · rw [get?_set] at hget
        split_ifs at hget with hk
        · rw [hk, ← Option.some.inj hget]
          exact .inl List.mem_cons_self
        · exact .inr hget
  rcases hfold pairs empty h with hmem | hget
  · exact hmem
  · cases hget

/-- A dictionary made of pairs with distinct keys has them as its items. -/
theorem entries_ofPairs {pairs : List (κ × α)} (h : (pairs.map Prod.fst).Nodup) :
    (ofPairs pairs).entries = pairs := by
  have hfold : ∀ (pairs : List (κ × α)) (d : Dict κ α), ((d.entries ++ pairs).map Prod.fst).Nodup →
      (pairs.foldl (fun d i => d.set i.1 i.2) d).entries = d.entries ++ pairs := by
    intro pairs
    induction pairs with
    | nil => exact fun d _ => (List.append_nil _).symm
    | cons i pairs ih =>
      intro d hnodup
      have hnew : i.1 ∉ d.entries.map Prod.fst := by
        intro hmem
        rw [List.map_append, List.nodup_append] at hnodup
        exact hnodup.2.2 _ hmem _ (by simp) rfl
      have hset : (d.set i.1 i.2).entries = d.entries ++ [i] := setItem_of_notMem i.2 hnew
      rw [List.foldl_cons, ih _ (by rwa [hset, List.append_assoc]), hset, List.append_assoc]
      rfl
  exact hfold pairs empty h

/-- Setting other keys. -/
theorem get?_foldl_set_of_notMem {pairs : List (κ × α)} {k : κ} (h : k ∉ pairs.map Prod.fst)
    (d : Dict κ α) : (pairs.foldl (fun d i => d.set i.1 i.2) d).get? k = d.get? k := by
  induction pairs generalizing d with
  | nil => rfl
  | cons i pairs ih =>
    rw [List.map_cons, List.mem_cons, not_or] at h
    rw [List.foldl_cons, ih h.2, get?_set, if_neg h.1]

/-- A dictionary made of pairs with distinct keys holds all of them. -/
theorem get?_ofPairs_of_mem {pairs : List (κ × α)} (h : (pairs.map Prod.fst).Nodup) {k : κ}
    {v : α} (hmem : (k, v) ∈ pairs) : (ofPairs pairs).get? k = some v := by
  obtain ⟨before, after, rfl⟩ := List.append_of_mem hmem
  rw [List.map_append, List.map_cons] at h
  have hafter : k ∉ after.map Prod.fst :=
    (List.nodup_cons.mp (List.nodup_append.mp h).2.1).1
  rw [ofPairs, List.foldl_append, List.foldl_cons, get?_foldl_set_of_notMem hafter, get?_set,
    if_pos rfl]

/-- The items of a dictionary make the dictionary, in any order. -/
theorem get?_ofPairs_of_perm {d : Dict κ α} {pairs : List (κ × α)} (h : pairs.Perm d.entries)
    (k : κ) : (ofPairs pairs).get? k = d.get? k := by
  have hnodup : (pairs.map Prod.fst).Nodup := (h.map Prod.fst).nodup_iff.mpr d.nodup
  apply Option.ext
  intro v
  rw [← @mem_entries_iff _ _ _ d, ← h.mem_iff]
  exact ⟨mem_of_get?_ofPairs, get?_ofPairs_of_mem hnodup⟩

/-- A filtered dictionary looks up the kept items. -/
theorem get?_filter_eq_some {d : Dict κ α} {keep : κ → α → Bool} {k : κ} {v : α} :
    (d.filter keep).get? k = some v ↔ d.get? k = some v ∧ keep k v = true := by
  rw [← mem_entries_iff, ← mem_entries_iff]
  simp [filter]

/-- A filter of the keys drops what is set under a key it drops. -/
theorem filter_set_of_not (d : Dict κ α) {keep : κ → Bool} {k : κ} (v : α) (h : keep k = false) :
    (d.set k v).filter (fun key _ => keep key) = d.filter fun key _ => keep key := by
  simp only [filter, set, filter_setItem_of_not v h]

/-- A filter of the keys keeps what is set under a key it keeps. -/
theorem filter_set_of_keep (d : Dict κ α) {keep : κ → Bool} {k : κ} (v : α) (h : keep k = true) :
    (d.set k v).filter (fun key _ => keep key) = (d.filter fun key _ => keep key).set k v := by
  simp only [filter, set, filter_setItem_of_keep v h]

/-- Changing the values keeps the keys. -/
theorem get?_mapValues (d : Dict κ α) (change : κ → α → β) (k : κ) :
    (d.mapValues change).get? k = (d.get? k).map (change k) := by
  apply Option.ext
  intro w
  rw [← mem_entries_iff, Option.map_eq_some_iff]
  simp only [mapValues, List.mem_map, Prod.mk.injEq, Prod.exists]
  constructor
  · rintro ⟨k', v, hmem, rfl, rfl⟩
    exact ⟨v, mem_entries_iff.mp hmem, rfl⟩
  · rintro ⟨v, hget, rfl⟩
    exact ⟨k, v, mem_entries_iff.mpr hget, rfl, rfl⟩

end Dict

end Python
