import OnceMesh.ExecutionCache.FilesystemEpochs
import OnceMesh.Integrations.Operations

/-!
# The active-key index in a file

`FilesystemActiveKeyIndex` keeps the entries in one JSON document. Every call reads and checks the
document; a call that changes the entries writes a new document, in canonical JSON, with the entries
sorted by key. What is written reads back (`readIndex_of_writeIndex`), so that `filesystemIndex` is
an implementation over the states of the file.

Documents of version 1, which have no publication identifiers, are read as well.
-/

namespace OnceMesh

open Python

/-! ### Reading -/

/-- `_validate_native(tuple(items), key)`. -/
def readNativeKey (items : List Value) (key : Value) : Except PyError NativeKey := do
  let ns ← readNamespace items
  match key with
  | .str s => do
    raiseIf (s = []) "native key must be a non-empty string"
    pure (ns, s)
  | _ => raiseValueError "native key must be a non-empty string"

/-- The check of `publication_id`. -/
def readPublicationId : Value → Except PyError (Option Str)
  | .none => .ok none
  | .str s => do
    raiseIf (!isPublicationId s) "active-key index publication id is invalid"
    pure (some s)
  | _ => raiseValueError "active-key index publication id is invalid"

/-- The keys of an entry; the second version adds the publication identifier. -/
def indexEntryKeys (second : Bool) : List Str :=
  [lit "namespace", lit "key", lit "generation", lit "active"] ++
    if second then [lit "publication_id"] else []

/-- One entry of the document. -/
def readIndexEntry (second : Bool) (item : Value) : Except PyError (NativeKey × IndexEntry) := do
  raiseIf (!item.hasExactKeys (indexEntryKeys second)) "active-key index entry is invalid"
  match item.get (lit "namespace") with
  | .list items => do
    let native ← readNativeKey items (item.get (lit "key"))
    match epoch? (item.get (lit "generation")), item.get (lit "active") with
    | some generation, .bool active => do
      let publicationId ← readPublicationId (item.get (lit "publication_id"))
      pure (native, { generation, active, publicationId })
    | _, _ => raiseValueError "active-key index entry state is invalid"
  | _ => raiseValueError "active-key index namespace is invalid"

/-- The loop over the entries. -/
def readIndexEntries (second : Bool) : List Value → MemoryEntries → Except PyError MemoryEntries
  | [], entries => .ok entries
  | item :: rest, entries => do
    let i ← readIndexEntry second item
    raiseIf (entries.contains i.1) "active-key index contains a duplicate key"
    readIndexEntries second rest (entries.set i.1 i.2)

/-- The checks of `_read`. -/
def checkIndexDocument (value : Value) : Except PyError MemoryEntries :=
  if !(value.hasExactKeys [lit "version", lit "entries"] &&
      ((value.get (lit "version")).eqInt 1 || (value.get (lit "version")).eqInt 2)) then
    raiseValueError "active-key index is invalid"
  else
    match value.get (lit "entries") with
    | .list items => readIndexEntries ((value.get (lit "version")).eqInt 2) items Dict.empty
    | _ => raiseValueError "active-key index is invalid"

/-- `_read`: a missing file holds no entries. -/
def readIndex (file : File) : Except PyError MemoryEntries :=
  match file with
  | none => .ok Dict.empty
  | some data =>
    match File.loadJson (some data) with
    | .ok value => checkIndexDocument value
    | .error .osError | .error .unicodeError | .error .jsonDecodeError =>
      raiseValueError "active-key index is unreadable"
    | .error e => .error e

/-! ### Writing -/

/-- The order of `sorted` on native keys. -/
def nativeLE (a b : NativeKey) : Prop := a.1 < b.1 ∨ a.1 = b.1 ∧ a.2 ≤ b.2

instance : DecidableRel nativeLE := fun _ _ => inferInstanceAs (Decidable (_ ∨ _))

/-- One entry as it is written. -/
def indexEntryValue (i : NativeKey × IndexEntry) : Value :=
  .dict [(lit "namespace", .list (i.1.1.map .str)), (lit "key", .str i.1.2),
    (lit "generation", .int i.2.generation), (lit "active", .bool i.2.active),
    (lit "publication_id", i.2.publicationId.elim .none .str)]

/-- The items of the entries, in the order of their keys. -/
def sortedEntries (entries : MemoryEntries) : List (NativeKey × IndexEntry) :=
  entries.entries.insertionSort fun a b => nativeLE a.1 b.1

/-- The document as it is written. -/
def indexValue (entries : MemoryEntries) : Value :=
  .dict [(lit "version", .int 2),
    (lit "entries", .list ((sortedEntries entries).map indexEntryValue))]

/-- `_write`, up to the bytes. -/
def writeIndex (entries : MemoryEntries) : Except PyError Bytes :=
  canonicalJson (indexValue entries)

/-- The keys are valid, and so are the publication identifiers. -/
structure ItemValid (i : NativeKey × IndexEntry) : Prop where
  native : validateNative i.1 = .ok ()
  publicationId : ∀ p, i.2.publicationId = some p → isPublicationId p = true

/-- Every entry has a valid key and a valid publication identifier. -/
def EntriesValid (entries : MemoryEntries) : Prop := ∀ i ∈ entries.entries, ItemValid i

/-! ### Reading back -/

theorem sortKeys_indexEntryValue (i : NativeKey × IndexEntry) :
    (indexEntryValue i).sortKeys =
      .dict [(lit "active", .bool i.2.active), (lit "generation", .int i.2.generation),
        (lit "key", .str i.1.2), (lit "namespace", .list (i.1.1.map .str)),
        (lit "publication_id", i.2.publicationId.elim .none .str)] := by
  have hparts : Value.sortKeysList (i.1.1.map .str) = i.1.1.map .str := by
    rw [Value.sortKeysList_eq, List.map_map]
    rfl
  have hid : (i.2.publicationId.elim Value.none .str).sortKeys =
      i.2.publicationId.elim .none .str := by
    cases i.2.publicationId <;> rfl
  have hactive : lit "active" ≤ lit "publication_id" ∧ ¬lit "generation" ≤ lit "active" ∧
      lit "generation" ≤ lit "publication_id" := by decide
  have hkey : ¬lit "key" ≤ lit "active" ∧ ¬lit "key" ≤ lit "generation" ∧
      lit "key" ≤ lit "publication_id" := by decide
  have hnamespace : ¬lit "namespace" ≤ lit "active" ∧ ¬lit "namespace" ≤ lit "generation" ∧
      ¬lit "namespace" ≤ lit "key" ∧ lit "namespace" ≤ lit "publication_id" := by decide
  rw [indexEntryValue, Json.sortKeys_dict]
  simp [List.insertionSort, List.orderedInsert, Json.keyLE, hactive, hkey, hnamespace,
    Value.sortKeys, hparts, hid]

theorem readIndexEntry_sortKeys {i : NativeKey × IndexEntry} (h : ItemValid i) :
    readIndexEntry true (indexEntryValue i).sortKeys = .ok i := by
  obtain ⟨hns, hkey⟩ := validateNative_eq_ok.mp h.native
  have hid : readPublicationId (i.2.publicationId.elim .none .str) = .ok i.2.publicationId := by
    cases hp : i.2.publicationId with
    | none => rfl
    | some p => simp [readPublicationId, h.publicationId p hp, raiseIf]
  rw [sortKeys_indexEntryValue]
  simp [readIndexEntry, readNativeKey, Value.hasExactKeys, indexEntryKeys, epoch?, raiseIf,
    readNamespace_map_str hns, hkey, hid]

/-- The entries that are read are valid. -/
theorem itemValid_of_readIndexEntry {second : Bool} {item : Value} {i : NativeKey × IndexEntry}
    (h : readIndexEntry second item = .ok i) : ItemValid i := by
  obtain ⟨-, h⟩ := Except.check_eq_ok.mp h
  split at h
  · next items _ =>
    obtain ⟨native, hnative, h⟩ := Except.bind_eq_ok.mp h
    split at h
    · obtain ⟨publicationId, hid, ⟨⟩⟩ := Except.bind_eq_ok.mp h
      refine ⟨?_, ?_⟩
      · obtain ⟨ns, hns, hnative⟩ := Except.bind_eq_ok.mp hnative
        split at hnative
        · obtain ⟨hkey, ⟨⟩⟩ := Except.check_eq_ok.mp hnative
          rw [raiseIf_eq_ok, decide_eq_false_iff_not] at hkey
          exact validateNative_eq_ok.mpr ⟨ne_nil_of_readNamespace hns, hkey⟩
        · cases hnative
      · rintro p rfl
        unfold readPublicationId at hid
        split at hid
        · cases hid
        · obtain ⟨hvalid, hp⟩ := Except.check_eq_ok.mp hid
          cases hp
          simpa [raiseIf_eq_ok] using hvalid
        · cases hid
    · cases h
  · cases h

theorem EntriesValid.set {entries : MemoryEntries} (h : EntriesValid entries) {k : NativeKey}
    {e : IndexEntry} (hk : ItemValid (k, e)) : EntriesValid (Dict.set entries k e) := by
  intro i hi
  have hget := Dict.mem_entries_iff.mp hi
  rw [Dict.get?_set] at hget
  split_ifs at hget with hsame
  · obtain ⟨k', e'⟩ := i
    cases hget
    cases hsame
    exact hk
  · exact h i (Dict.mem_entries_iff.mpr hget)

theorem entriesValid_of_readIndexEntries {second : Bool} {items : List Value} :
    ∀ {entries after : MemoryEntries}, EntriesValid entries →
      readIndexEntries second items entries = .ok after → EntriesValid after := by
  induction items with
  | nil =>
    rintro entries after h ⟨⟩
    exact h
  | cons item items ih =>
    intro entries after h hread
    obtain ⟨i, hi, hread⟩ := Except.bind_eq_ok.mp hread
    obtain ⟨-, hread⟩ := Except.check_eq_ok.mp hread
    exact ih (h.set (itemValid_of_readIndexEntry hi)) hread

theorem entriesValid_empty : EntriesValid Dict.empty := by
  rintro i ⟨⟩

theorem entriesValid_of_readIndex {file : File} {entries : MemoryEntries}
    (h : readIndex file = .ok entries) : EntriesValid entries := by
  unfold readIndex at h
  split at h
  · cases h
    exact entriesValid_empty
  · split at h
    · unfold checkIndexDocument at h
      split_ifs at h
      · cases h
      · split at h
        · exact entriesValid_of_readIndexEntries entriesValid_empty h
        · cases h
    all_goals cases h

/-- Entries with new keys are read one after the other. -/
theorem readIndexEntries_map {items : List (NativeKey × IndexEntry)}
    (hvalid : ∀ i ∈ items, ItemValid i) : ∀ {entries : MemoryEntries},
    ((entries.entries ++ items).map Prod.fst).Nodup →
    ∃ after, readIndexEntries true (items.map fun i => (indexEntryValue i).sortKeys) entries =
      .ok after ∧ after.entries = entries.entries ++ items := by
  induction items with
  | nil =>
    intro entries _
    exact ⟨entries, rfl, (List.append_nil _).symm⟩
  | cons i items ih =>
    intro entries hnodup
    rw [List.forall_mem_cons] at hvalid
    have hnew : i.1 ∉ entries.entries.map Prod.fst := by
      intro hmem
      rw [List.map_append, List.nodup_append] at hnodup
      exact hnodup.2.2 _ hmem _ (by simp) rfl
    have hcontains : entries.contains i.1 = false := by
      rw [Dict.contains, Option.isSome_eq_false_iff, Option.isNone_iff_eq_none]
      apply Option.eq_none_iff_forall_ne_some.mpr
      intro e he
      exact hnew (List.mem_map.mpr ⟨(i.1, e), Dict.mem_entries_iff.mpr he, rfl⟩)
    have hset : (Dict.set entries i.1 i.2).entries = entries.entries ++ [i] :=
      setItem_of_notMem i.2 hnew
    obtain ⟨after, hread, hafter⟩ := @ih hvalid.2 (Dict.set entries i.1 i.2)
      (by rwa [hset, List.append_assoc])
    refine ⟨after, ?_, by rw [hafter, hset, List.append_assoc]; rfl⟩
    rw [List.map_cons, readIndexEntries, readIndexEntry_sortKeys hvalid.1, Except.ok_bind,
      hcontains]
    exact hread

theorem wellFormed_indexValue (entries : MemoryEntries) : (indexValue entries).WellFormed := by
  have hitems : ∀ v ∈ (sortedEntries entries).map indexEntryValue, v.WellFormed := by
    intro v hv
    obtain ⟨i, -, rfl⟩ := List.mem_map.mp hv
    cases hp : i.2.publicationId <;>
      simp [indexEntryValue, Value.WellFormed, Value.wellFormedList_iff, hp]
  simpa [indexValue, Value.WellFormed, Value.wellFormedList_iff] using hitems

/-- Entries in another order are the same entries. -/
theorem MemoryEntries.entry_of_perm {a b : MemoryEntries} (h : a.entries.Perm b.entries)
    (k : NativeKey) : a.entry k = b.entry k := by
  have hget : a.get? k = b.get? k := by
    apply Option.ext
    intro e
    rw [← Dict.mem_entries_iff, ← Dict.mem_entries_iff]
    exact h.mem_iff
  rw [MemoryEntries.entry, MemoryEntries.entry, hget]

/-- The entries that are written are those that are read. -/
theorem readIndex_of_writeIndex {entries : MemoryEntries} (h : EntriesValid entries) {data : Bytes}
    (hdata : writeIndex entries = .ok data) :
    ∃ after, readIndex (some data) = .ok after ∧ after.entries.Perm entries.entries := by
  obtain ⟨hprofile, rfl⟩ := canonicalJson_eq_ok.mp hdata
  have hperm : (sortedEntries entries).Perm entries.entries := List.perm_insertionSort _ _
  have hsorted : (indexValue entries).sortKeys =
      .dict [(lit "entries", .list ((sortedEntries entries).map
        fun i => (indexEntryValue i).sortKeys)), (lit "version", .int 2)] := by
    have hversion : ¬lit "version" ≤ lit "entries" := by decide
    rw [indexValue, Json.sortKeys_dict]
    simp [List.insertionSort, List.orderedInsert, Json.keyLE, hversion, Value.sortKeys,
      Value.sortKeysList_eq]
  obtain ⟨after, hread, hafter⟩ := @readIndexEntries_map (sortedEntries entries)
    (fun i hi => h i (hperm.mem_iff.mp hi)) Dict.empty ((hperm.map _).nodup_iff.mpr entries.nodup)
  refine ⟨after, ?_, hafter ▸ hperm⟩
  rw [readIndex, File.loadJson_canonicalBytes hprofile (wellFormed_indexValue entries)]
  show checkIndexDocument _ = _
  rw [hsorted]
  simpa [checkIndexDocument, Value.hasExactKeys, Value.eqInt] using hread

/-! ### Calls -/

/-- The calls that write the document. -/
def IndexCall.writes : IndexCall → Bool
  | generation _ | isActive _ | activeRevision _ | activeKeys _ => false
  | _ => true

/-- A call on the file: what it returns, and the file after. -/
def callIndexFile (c : IndexCall) (file : File) : Except PyError (IndexAnswer × File) := do
  c.validate
  let entries ← readIndex file
  let (answer, after) ← entries.call c
  if c.writes then do
    let data ← writeIndex after
    pure (answer, some data)
  else pure (answer, file)

/-- The entry of a key in the file; a file that is not read has none. -/
def fileEntry (file : File) (k : NativeKey) : IndexEntry :=
  match readIndex file with
  | .ok entries => entries.entry k
  | .error _ => .absent

theorem EntriesValid.publicationId {entries : MemoryEntries} (h : EntriesValid entries)
    {k : NativeKey} {p : Str} (hp : (entries.entry k).publicationId = some p) :
    isPublicationId p = true := by
  rw [MemoryEntries.entry] at hp
  cases hget : entries.get? k with
  | none =>
    rw [hget] at hp
    cases hp
  | some e =>
    rw [hget] at hp
    exact (h (k, e) (Dict.mem_entries_iff.mpr hget)).publicationId p hp

theorem EntriesValid.clear {entries : MemoryEntries} (h : EntriesValid entries)
    (selected : NativeKey → Bool) : EntriesValid (entries.clear selected).2 := by
  intro i hi
  obtain ⟨i', hi', rfl⟩ := List.mem_map.mp hi
  have hold := h i' hi'
  refine ⟨hold.native, ?_⟩
  dsimp only
  split_ifs
  · rintro p ⟨⟩
  · exact hold.publicationId

/-- A call keeps the entries valid. -/
theorem EntriesValid.call {entries after : MemoryEntries} {c : IndexCall} {answer : IndexAnswer}
    (h : EntriesValid entries) (hc : c.validate = .ok ())
    (hcall : entries.call c = .ok (answer, after)) : EntriesValid after := by
  cases c with
  | generation k | isActive k | activeRevision k | activeKeys ns =>
    obtain ⟨-, rfl⟩ := Prod.mk.inj (Except.ok.inj hcall)
    exact h
  | preparePut k =>
    obtain ⟨-, rfl⟩ := Prod.mk.inj (Except.ok.inj hcall)
    exact h.set ⟨hc, by rintro p ⟨⟩⟩
  | activate k =>
    obtain ⟨-, rfl⟩ := Prod.mk.inj (Except.ok.inj hcall)
    exact h.set ⟨hc, fun p hp => h.publicationId hp⟩
  | publishAndActivate k publicationId publisher =>
    obtain ⟨⟨generation, after'⟩, hpublish, hreturn⟩ := Except.bind_eq_ok.mp hcall
    obtain ⟨-, hpure⟩ := Except.check_eq_ok.mp hpublish
    obtain ⟨rfl, rfl⟩ := Prod.mk.inj (Except.ok.inj hpure)
    obtain ⟨-, rfl⟩ := Prod.mk.inj (Except.ok.inj hreturn)
    refine h.set ⟨hc, ?_⟩
    rintro p ⟨⟩
    exact publicationId.valid
  | delete k =>
    obtain ⟨-, rfl⟩ := Prod.mk.inj (Except.ok.inj hcall)
    unfold MemoryEntries.delete
    dsimp only
    split_ifs
    · exact h.set ⟨hc, by rintro p ⟨⟩⟩
    · exact h
  | clearNamespace ns | clearAll =>
    obtain ⟨-, rfl⟩ := Prod.mk.inj (Except.ok.inj hcall)
    exact h.clear _

/-- A call on the file, when it returns. -/
theorem callIndexFile_eq_ok {c : IndexCall} {file file' : File} {answer : IndexAnswer}
    (h : callIndexFile c file = .ok (answer, file')) :
    c.Answers (fileEntry file) answer ∧ fileEntry file' = c.apply (fileEntry file) := by
  obtain ⟨hvalidate, h⟩ := Except.check_eq_ok.mp h
  obtain ⟨entries, hread, h⟩ := Except.bind_eq_ok.mp h
  obtain ⟨⟨answer', after⟩, hcall, h⟩ := Except.bind_eq_ok.mp h
  obtain ⟨hanswer, hafter⟩ := MemoryEntries.call_spec hcall
  have hentry : fileEntry file = entries.entry := by
    funext k
    rw [fileEntry, hread]
  rw [hentry, ← hafter]
  dsimp only at h
  split_ifs at h with hwrites
  · obtain ⟨data, hdata, hreturn⟩ := Except.bind_eq_ok.mp h
    obtain ⟨rfl, rfl⟩ := Prod.mk.inj (Except.ok.inj hreturn)
    have hvalid := (entriesValid_of_readIndex hread).call hvalidate hcall
    obtain ⟨written, hwritten, hsame⟩ := readIndex_of_writeIndex hvalid hdata
    refine ⟨hanswer, funext fun k => ?_⟩
    rw [fileEntry, hwritten]
    exact MemoryEntries.entry_of_perm hsame k
  · obtain ⟨rfl, rfl⟩ := Prod.mk.inj (Except.ok.inj h)
    refine ⟨hanswer, hentry.trans ?_⟩
    -- a call that writes nothing leaves the entries as they are
    cases c <;> first | cases hwrites rfl | rw [hafter]; rfl

/-- `FilesystemActiveKeyIndex`, over the states of its file. -/
def filesystemIndex : IndexImplementation File where
  empty := none
  call c file :=
    match callIndexFile c file with
    | .ok (answer, after) => (.ok answer, after)
    | .error e => (.error e, file)
  entry := fileEntry
  Valid _ := True
  valid_empty := trivial
  entry_empty _ := rfl
  call_cases := by
    intro file c _
    split
    · next answer after h =>
      obtain ⟨hanswer, hafter⟩ := callIndexFile_eq_ok h
      exact .inl ⟨answer, after, rfl, trivial, hanswer, hafter⟩
    · next e _ => exact .inr ⟨e, rfl⟩

end OnceMesh
