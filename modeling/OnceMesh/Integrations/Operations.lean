import OnceMesh.Integrations.Index
import OnceMesh.Python.Stateful

/-!
# The operations of an active-key index

`IndexCall` is a call of one of the ten methods of an active-key index. What it does is said once,
for the entries of all keys as a function: `IndexCall.apply` is the entries after a call that
returns, and `IndexCall.Answers` what such a call returns. An index is an `IndexImplementation` if
each of its calls does that, or raises and changes nothing.

`memoryIndex` is `MemoryActiveKeyIndex`. The index in a file and the index in a database are
implementations over other states.
-/

namespace OnceMesh

open Python

/-- `uuid4().hex`: 32 lowercase hexadecimal digits. -/
def isPublicationId (s : Str) : Bool := s.length = 32 && s.all isLowerHex

/-- A publication identifier. -/
structure PublicationId where
  hex : Str
  valid : isPublicationId hex = true

/-! ### Calls -/

/-- A call of an active-key index. A publisher gets the generation and the publication
identifier. -/
inductive IndexCall where
  | generation (k : NativeKey)
  | isActive (k : NativeKey)
  | activeRevision (k : NativeKey)
  | preparePut (k : NativeKey)
  | activate (k : NativeKey)
  | publishAndActivate (k : NativeKey) (publicationId : PublicationId)
      (publisher : ℕ → Str → Except PyError Unit)
  | delete (k : NativeKey)
  | activeKeys (ns : List Str)
  | clearNamespace (ns : List Str)
  | clearAll

/-- What a call returns. -/
inductive IndexAnswer where
  | generation (n : ℕ)
  | flag (b : Bool)
  | revision (r : Option (ℕ × Option Str))
  | none
  | keys (keys : List Str)
  | count (n : ℕ)
  deriving DecidableEq

namespace IndexEntry

/-- The entry after `prepare_put`. -/
def prepared (entry : IndexEntry) : IndexEntry := ⟨entry.nextGeneration, false, none⟩

/-- The entry after `activate`. -/
def activated (entry : IndexEntry) : IndexEntry := ⟨entry.generation, true, entry.publicationId⟩

/-- The entry after `publish_and_activate`. -/
def published (entry : IndexEntry) (publicationId : PublicationId) : IndexEntry :=
  ⟨entry.nextGeneration, true, some publicationId.hex⟩

end IndexEntry

namespace IndexCall

/-- The entries after a call that returns. -/
def apply (call : IndexCall) (entry : NativeKey → IndexEntry) (k : NativeKey) : IndexEntry :=
  match call with
  | generation _ | isActive _ | activeRevision _ | activeKeys _ => entry k
  | preparePut k' => if k = k' then (entry k).prepared else entry k
  | activate k' => if k = k' then (entry k).activated else entry k
  | publishAndActivate k' publicationId _ =>
    if k = k' then (entry k).published publicationId else entry k
  | delete k' => if k = k' then (entry k).deleted else entry k
  | clearNamespace ns => if k.1 = ns then (entry k).deleted else entry k
  | clearAll => (entry k).deleted

/-- The call clears the key. -/
def clears (call : IndexCall) (k : NativeKey) : Bool :=
  match call with
  | clearNamespace ns => k.1 = ns
  | clearAll => true
  | _ => false

/-- What a call that returns has returned, given the entries before it. -/
def Answers (call : IndexCall) (entry : NativeKey → IndexEntry) (answer : IndexAnswer) : Prop :=
  match call with
  | generation k => answer = .generation (entry k).generation
  | isActive k => answer = .flag (entry k).active
  | activeRevision k => answer = .revision (entry k).revision
  | preparePut k => answer = .generation (entry k).nextGeneration
  | activate _ => answer = .none
  | publishAndActivate k publicationId publisher =>
    publisher (entry k).nextGeneration publicationId.hex = .ok () ∧
      answer = .generation (entry k).nextGeneration
  | delete k => answer = .flag (entry k).active
  | activeKeys ns => ∃ keys : List Str, answer = .keys keys ∧ keys.Pairwise (· < ·) ∧
      ∀ key, key ∈ keys ↔ (entry (ns, key)).active = true
  | clearNamespace _ | clearAll => ∃ keys : List NativeKey, answer = .count keys.length ∧
      keys.Nodup ∧ ∀ k, k ∈ keys ↔ call.clears k = true ∧ (entry k).active = true

end IndexCall

/-- An active-key index over states of type `β`, through the entry of each key. -/
structure IndexImplementation (β : Type) where
  empty : β
  call : IndexCall → Stateful PyError β IndexAnswer
  entry : β → NativeKey → IndexEntry
  Valid : β → Prop
  valid_empty : Valid empty
  entry_empty : ∀ k, entry empty k = .absent
  /-- A call answers from the entries and changes them, or raises and changes nothing. -/
  call_cases : ∀ {b} (c : IndexCall), Valid b →
    (∃ answer b', call c b = (.ok answer, b') ∧ Valid b' ∧ c.Answers (entry b) answer ∧
      entry b' = c.apply (entry b)) ∨ ∃ e, call c b = (.error e, b)

/-! ### The index in memory -/

/-- Sorting distinct values. -/
theorem pairwise_lt_insertionSort {α : Type} [LinearOrder α] {l : List α} (h : l.Nodup) :
    (l.insertionSort (· ≤ ·)).Pairwise (· < ·) := by
  have hnodup : (l.insertionSort (· ≤ ·)).Nodup := (List.perm_insertionSort _ l).nodup_iff.mpr h
  apply (List.pairwise_insertionSort (· ≤ ·) l).imp₂ _ hnodup
  intro a b hle hne
  exact lt_of_le_of_ne hle hne

namespace MemoryEntries

/-- `prepare_put`. -/
def preparePut (entries : MemoryEntries) (k : NativeKey) : ℕ × MemoryEntries :=
  let generation := (entries.entry k).nextGeneration
  (generation, entries.set k ⟨generation, false, none⟩)

/-- `activate`. -/
def activate (entries : MemoryEntries) (k : NativeKey) : MemoryEntries :=
  let e := entries.entry k
  entries.set k ⟨e.generation, true, e.publicationId⟩

/-- `publish_and_activate`. -/
def publishAndActivate (entries : MemoryEntries) (k : NativeKey) (publicationId : PublicationId)
    (publisher : ℕ → Str → Except PyError Unit) : Except PyError (ℕ × MemoryEntries) := do
  let generation := (entries.entry k).nextGeneration
  publisher generation publicationId.hex
  pure (generation, entries.set k ⟨generation, true, some publicationId.hex⟩)

/-- `active_keys`: `sorted` of the active keys of the namespace. -/
def activeKeys (entries : MemoryEntries) (ns : List Str) : List Str :=
  let active := (entries.filter fun k e => k.1 = ns && e.active).entries.map Prod.fst
  (active.map Prod.snd).insertionSort (· ≤ ·)

/-- A key is active when the entries hold it and say so. -/
theorem active_iff {entries : MemoryEntries} {k : NativeKey} :
    (entries.entry k).active = true ↔ ∃ e, entries.get? k = some e ∧ e.active = true := by
  rw [entry]
  cases entries.get? k with
  | none => simp [IndexEntry.absent]
  | some e => simp

/-- The active keys that a predicate selects. -/
theorem mem_filter_iff {entries : MemoryEntries} {selected : NativeKey → Bool} {k : NativeKey} :
    k ∈ (entries.filter fun k e => selected k && e.active).entries.map Prod.fst ↔
      selected k = true ∧ (entries.entry k).active = true := by
  rw [active_iff, List.mem_map]
  constructor
  · rintro ⟨⟨k, e⟩, hmem, rfl⟩
    obtain ⟨hget, hkeep⟩ := Dict.get?_filter_eq_some.mp (Dict.mem_entries_iff.mp hmem)
    rw [Bool.and_eq_true] at hkeep
    exact ⟨hkeep.1, e, hget, hkeep.2⟩
  · rintro ⟨hselected, e, hget, hactive⟩
    refine ⟨(k, e), Dict.mem_entries_iff.mpr (Dict.get?_filter_eq_some.mpr ⟨hget, ?_⟩), rfl⟩
    rw [hselected, hactive]
    rfl

/-- The keys of a namespace that are active, in order. -/
theorem activeKeys_spec (entries : MemoryEntries) (ns : List Str) :
    (entries.activeKeys ns).Pairwise (· < ·) ∧
      ∀ key, key ∈ entries.activeKeys ns ↔ (entries.entry (ns, key)).active = true := by
  have hmem : ∀ k, k ∈ (entries.filter fun k e => k.1 = ns && e.active).entries.map Prod.fst ↔
      k.1 = ns ∧ (entries.entry k).active = true := by
    intro k
    simpa using @mem_filter_iff entries (fun k => k.1 = ns) k
  constructor
  · apply pairwise_lt_insertionSort
    -- the keys of one namespace differ in their second part
    have hkeys := Dict.nodup (entries.filter fun k e => k.1 = ns && e.active)
    apply List.Nodup.map_on _ hkeys
    rintro k hk k' hk' heq
    exact Prod.ext (((hmem k).mp hk).1.trans ((hmem k').mp hk').1.symm) heq
  · intro key
    rw [activeKeys, List.mem_insertionSort, List.mem_map]
    constructor
    · rintro ⟨k, hk, rfl⟩
      obtain ⟨rfl, hactive⟩ := (hmem k).mp hk
      exact hactive
    · intro hactive
      exact ⟨(ns, key), (hmem _).mpr ⟨rfl, hactive⟩, rfl⟩

/-- The entries that a clear counts are those of the active keys it clears. -/
theorem clear_count (entries : MemoryEntries) (selected : NativeKey → Bool) :
    ∃ keys : List NativeKey, (entries.clear selected).1 = keys.length ∧ keys.Nodup ∧
      ∀ k, k ∈ keys ↔ selected k = true ∧ (entries.entry k).active = true := by
  refine ⟨_, ?_, (entries.filter fun k e => selected k && e.active).nodup, fun k => mem_filter_iff⟩
  rw [List.length_map]
  rfl

/-- A call on the entries: what it returns, and the entries after. -/
def call (entries : MemoryEntries) : IndexCall → Except PyError (IndexAnswer × MemoryEntries)
  | .generation k => .ok (.generation (entries.entry k).generation, entries)
  | .isActive k => .ok (.flag (entries.entry k).active, entries)
  | .activeRevision k => .ok (.revision (entries.entry k).revision, entries)
  | .preparePut k => .ok (.generation (entries.preparePut k).1, (entries.preparePut k).2)
  | .activate k => .ok (.none, entries.activate k)
  | .publishAndActivate k publicationId publisher => do
    let (generation, after) ← entries.publishAndActivate k publicationId publisher
    pure (.generation generation, after)
  | .delete k => .ok (.flag (entries.delete k).1, (entries.delete k).2)
  | .activeKeys ns => .ok (.keys (entries.activeKeys ns), entries)
  | .clearNamespace ns =>
    .ok (.count (entries.clear fun k => k.1 = ns).1, (entries.clear fun k => k.1 = ns).2)
  | .clearAll => .ok (.count (entries.clear fun _ => true).1, (entries.clear fun _ => true).2)

/-- A call answers from the entries and changes them as it should. -/
theorem call_spec {entries after : MemoryEntries} {c : IndexCall} {answer : IndexAnswer}
    (h : entries.call c = .ok (answer, after)) :
    c.Answers entries.entry answer ∧ after.entry = c.apply entries.entry := by
  cases c with
  | generation k | isActive k | activeRevision k =>
    obtain ⟨rfl, rfl⟩ := Prod.mk.inj (Except.ok.inj h)
    exact ⟨rfl, rfl⟩
  | preparePut k =>
    obtain ⟨rfl, rfl⟩ := Prod.mk.inj (Except.ok.inj h)
    refine ⟨rfl, funext fun k' => ?_⟩
    simp only [preparePut, entry_set, IndexCall.apply, IndexEntry.prepared]
    split_ifs with hk
    · rw [hk]
    · rfl
  | activate k =>
    obtain ⟨rfl, rfl⟩ := Prod.mk.inj (Except.ok.inj h)
    refine ⟨rfl, funext fun k' => ?_⟩
    simp only [activate, entry_set, IndexCall.apply, IndexEntry.activated]
    split_ifs with hk
    · rw [hk]
    · rfl
  | publishAndActivate k publicationId publisher =>
    obtain ⟨⟨generation, after'⟩, hpublish, hreturn⟩ := Except.bind_eq_ok.mp h
    obtain ⟨hreturned, hpure⟩ := Except.check_eq_ok.mp hpublish
    obtain ⟨rfl, rfl⟩ := Prod.mk.inj (Except.ok.inj hpure)
    obtain ⟨rfl, rfl⟩ := Prod.mk.inj (Except.ok.inj hreturn)
    refine ⟨⟨hreturned, rfl⟩, funext fun k' => ?_⟩
    simp only [entry_set, IndexCall.apply, IndexEntry.published]
    split_ifs with hk
    · rw [hk]
    · rfl
  | delete k =>
    obtain ⟨rfl, rfl⟩ := Prod.mk.inj (Except.ok.inj h)
    refine ⟨?_, funext fun k' => ?_⟩
    · cases hactive : (entries.entry k).active <;> simp [IndexCall.Answers, delete, hactive]
    · refine (entry_delete entries k k').trans ?_
      simp only [IndexCall.apply]
      split_ifs with hk
      · rw [hk]
      · rfl
  | activeKeys ns =>
    obtain ⟨rfl, rfl⟩ := Prod.mk.inj (Except.ok.inj h)
    exact ⟨⟨_, rfl, entries.activeKeys_spec ns⟩, rfl⟩
  | clearNamespace ns =>
    obtain ⟨rfl, rfl⟩ := Prod.mk.inj (Except.ok.inj h)
    obtain ⟨keys, hcount, hnodup, hkeys⟩ := entries.clear_count fun k => k.1 = ns
    refine ⟨⟨keys, congrArg _ hcount, hnodup, hkeys⟩, funext fun k => ?_⟩
    rw [entry_clear]
    simp [IndexCall.apply]
  | clearAll =>
    obtain ⟨rfl, rfl⟩ := Prod.mk.inj (Except.ok.inj h)
    obtain ⟨keys, hcount, hnodup, hkeys⟩ := entries.clear_count fun _ => true
    refine ⟨⟨keys, congrArg _ hcount, hnodup, hkeys⟩, funext fun k => ?_⟩
    rw [entry_clear]
    simp [IndexCall.apply]

end MemoryEntries

/-- `_validate_native` for the methods that take a key. -/
def IndexCall.validate : IndexCall → Except PyError Unit
  | generation k | isActive k | activeRevision k | preparePut k | activate k
  | publishAndActivate k _ _ | delete k => validateNative k
  | activeKeys _ | clearNamespace _ | clearAll => .ok ()

/-- `MemoryActiveKeyIndex`. -/
def memoryIndex : IndexImplementation MemoryEntries where
  empty := Dict.empty
  call c entries :=
    match c.validate >>= fun _ => entries.call c with
    | .ok (answer, after) => (.ok answer, after)
    | .error e => (.error e, entries)
  entry := MemoryEntries.entry
  Valid _ := True
  valid_empty := trivial
  entry_empty := MemoryEntries.entry_empty
  call_cases := by
    intro entries c _
    split
    · next answer after h =>
      obtain ⟨-, hcall⟩ := Except.check_eq_ok.mp h
      obtain ⟨hanswer, hafter⟩ := MemoryEntries.call_spec hcall
      exact .inl ⟨answer, after, rfl, trivial, hanswer, hafter⟩
    · next e _ => exact .inr ⟨e, rfl⟩

end OnceMesh
