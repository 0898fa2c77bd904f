import OnceMesh.Canonical
import OnceMesh.Python.Dict

/-!
# Active-key indexes

An active-key index maps a native key to a generation, a flag that says whether the key is
active, and the publication identifier of its active value. `ActiveKeyIndex` is what the
adapter relies on: how each mutation changes the entry of each key. `memoryActiveKeyIndex` is
`MemoryActiveKeyIndex`, and the proof fields of the structure show that it keeps those laws.
-/

namespace OnceMesh

open Python

/-- `NativeKey`: a namespace and a key. -/
abbrev NativeKey := List Str × Str

/-- `_validate_native`. -/
def validateNative (k : NativeKey) : Except PyError Unit := do
  raiseIf (k.1.any (· = [])) "namespace must be a tuple of non-empty strings"
  raiseIf (k.2 = []) "native key must be a non-empty string"

/-- A native key is valid just if no part of it is empty. -/
theorem validateNative_eq_ok {k : NativeKey} :
    validateNative k = .ok () ↔ (∀ part ∈ k.1, part ≠ []) ∧ k.2 ≠ [] := by
  rw [validateNative, Except.check_eq_ok, raiseIf_eq_ok, raiseIf_eq_ok, List.any_eq_false]
  simp

/-- `IndexEntry`. -/
structure IndexEntry where
  generation : ℕ
  active : Bool
  publicationId : Option Str
  deriving DecidableEq

namespace IndexEntry

/-- The entry of a key the index does not hold. -/
def absent : IndexEntry := ⟨0, false, none⟩

/-- The entry after a deletion: inactive, one generation on. -/
def deleted (entry : IndexEntry) : IndexEntry :=
  if entry.active then ⟨entry.generation + 1, false, none⟩ else entry

/-- `generation += int(active)`: the generation a put publishes under. -/
def nextGeneration (entry : IndexEntry) : ℕ :=
  entry.generation + if entry.active then 1 else 0

/-- `active_revision`: the generation and publication identifier of an active entry. -/
def revision (entry : IndexEntry) : Option (ℕ × Option Str) :=
  if entry.active then some (entry.generation, entry.publicationId) else none

end IndexEntry

/-- An active-key index over states of type `β`, through the entry of each key. A mutation returns
the new state, or raises and changes nothing; `commit` is the last step of
`publish_and_activate`. -/
structure ActiveKeyIndex (β : Type) where
  empty : β
  entry : β → NativeKey → IndexEntry
  commit : β → NativeKey → ℕ → Str → Option β
  delete : β → NativeKey → Option β
  clearNamespace : β → List Str → Option β
  clearAll : β → Option β
  entry_empty : ∀ k, entry empty k = .absent
  entry_commit : ∀ {b k g p b'}, commit b k g p = some b' → ∀ k',
    entry b' k' = if k' = k then ⟨g, true, some p⟩ else entry b k'
  entry_delete : ∀ {b k b'}, delete b k = some b' → ∀ k',
    entry b' k' = if k' = k then (entry b k).deleted else entry b k'
  entry_clearNamespace : ∀ {b ns b'}, clearNamespace b ns = some b' → ∀ k,
    entry b' k = if k.1 = ns then (entry b k).deleted else entry b k
  entry_clearAll : ∀ {b b'}, clearAll b = some b' → ∀ k, entry b' k = (entry b k).deleted

/-- A clear of one namespace, or of all. -/
def ActiveKeyIndex.clear {β : Type} (index : ActiveKeyIndex β) (b : β) :
    Option (List Str) → Option β
  | none => index.clearAll b
  | some ns => index.clearNamespace b ns

/-! ### The index in memory -/

/-- The entries of `MemoryActiveKeyIndex`. -/
abbrev MemoryEntries := Dict NativeKey IndexEntry

namespace MemoryEntries

/-- `self._entries.get((namespace, key), (0, False, None))`. -/
def entry (entries : MemoryEntries) (k : NativeKey) : IndexEntry := (entries.get? k).getD .absent

/-- `MemoryActiveKeyIndex.delete`: whether the key was active, and the entries after. -/
def delete (entries : MemoryEntries) (k : NativeKey) : Bool × MemoryEntries :=
  let e := entries.entry k
  if e.active then (true, entries.set k ⟨e.generation + 1, false, none⟩) else (false, entries)

/-- The loop of `clear_namespace` and `clear_all` over the keys `selected`: how many entries
were active, and the entries after. -/
def clear (entries : MemoryEntries) (selected : NativeKey → Bool) : ℕ × MemoryEntries :=
  ((entries.filter fun k e => selected k && e.active).size,
    entries.mapValues fun k e =>
      if selected k && e.active then ⟨e.generation + 1, false, none⟩ else e)

/-- A new index has no entries. -/
theorem entry_empty (k : NativeKey) : entry Dict.empty k = .absent := rfl

/-- Only the entry of the key is replaced. -/
theorem entry_set (entries : MemoryEntries) (k k' : NativeKey) (e : IndexEntry) :
    MemoryEntries.entry (entries.set k e) k' = if k' = k then e else entries.entry k' := by
  rw [entry, Dict.get?_set]
  split_ifs <;> rfl

/-- The entry of every key after a deletion. -/
theorem entry_delete (entries : MemoryEntries) (k k' : NativeKey) :
    (entries.delete k).2.entry k' =
      if k' = k then (entries.entry k).deleted else entries.entry k' := by
  by_cases hactive : (entries.entry k).active = true
  · simp only [delete, IndexEntry.deleted, hactive, ↓reduceIte]
    exact entry_set entries k k' _
  · have hsame : (entries.delete k).2 = entries := by
      rw [delete]
      exact congrArg Prod.snd (if_neg hactive)
    rw [hsame, IndexEntry.deleted, if_neg hactive]
    split_ifs with h
    · rw [h]
    · rfl

/-- The entry of every key after clearing. -/
theorem entry_clear (entries : MemoryEntries) (selected : NativeKey → Bool) (k : NativeKey) :
    (entries.clear selected).2.entry k =
      if selected k then (entries.entry k).deleted else entries.entry k := by
  simp only [clear, entry, Dict.get?_mapValues]
  cases entries.get? k with
  | none => simp [IndexEntry.deleted, IndexEntry.absent]
  | some e =>
    cases selected k <;> simp [IndexEntry.deleted]

end MemoryEntries

/-- `MemoryActiveKeyIndex`. -/
def memoryActiveKeyIndex : ActiveKeyIndex MemoryEntries where
  empty := Dict.empty
  entry := MemoryEntries.entry
  commit entries k g p := some (entries.set k ⟨g, true, some p⟩)
  delete entries k := some (entries.delete k).2
  clearNamespace entries ns := some (entries.clear fun k => k.1 = ns).2
  clearAll entries := some (entries.clear fun _ => true).2
  entry_empty := MemoryEntries.entry_empty
  entry_commit := by
    rintro entries k g p _ ⟨⟩ k'
    exact MemoryEntries.entry_set entries k k' _
  entry_delete := by
    rintro entries k _ ⟨⟩ k'
    exact MemoryEntries.entry_delete entries k k'
  entry_clearNamespace := by
    rintro entries ns _ ⟨⟩ k
    rw [MemoryEntries.entry_clear]
    simp
  entry_clearAll := by
    rintro entries _ ⟨⟩ k
    rw [MemoryEntries.entry_clear]
    simp

end OnceMesh
