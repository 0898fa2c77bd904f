import OnceMesh.Documents.Stored
import OnceMesh.Integrations.Agreement

/-!
# The codec of the index file

`_write` and `_read` are inverse to each other on the entries that canonical JSON can express
(`exists_readIndex_of_writable`). `_read` accepts more: generations beyond the safe integers, and
keys with lone surrogates. Such entries are refused when they are written, and no others
(`writeIndex_isOk_iff`).
-/

namespace OnceMesh

open Python

/-- Canonical JSON can express the entry. -/
def Writable (i : NativeKey × IndexEntry) : Prop := KeyClean i.1 ∧ i.2.generation ≤ 2 ^ 53 - 1

/-- Two dictionaries of entries are the same map. -/
def SameMap (entries entries' : MemoryEntries) : Prop := ∀ k, entries.get? k = entries'.get? k

theorem SameMap.of_perm {entries entries' : MemoryEntries}
    (h : entries.entries.Perm entries'.entries) : SameMap entries entries' := by
  intro k
  apply Option.ext
  intro e
  rw [← Dict.mem_entries_iff, ← Dict.mem_entries_iff]
  exact h.mem_iff

/-- An entry that is stored can be expressed. -/
theorem writable_of_storable {i : NativeKey × IndexEntry} (h : Storable (indexEntryValue i)) :
    Writable i := by
  have hns : InProfile (.list (i.1.1.map .str)) := (h.get (lit "namespace")).inProfile
  have hkey : InProfile (.str i.1.2) := (h.get (lit "key")).inProfile
  have hgeneration : InProfile (.int i.2.generation) := (h.get (lit "generation")).inProfile
  cases hkey with
  | str hclean =>
    cases hgeneration with
    | int low high => exact ⟨⟨inProfile_namespace.mp hns, hclean⟩, by omega⟩

/-- The entries are written just if canonical JSON can express each of them. -/
theorem writeIndex_isOk_iff {entries : MemoryEntries} (hvalid : EntriesValid entries) :
    (∃ data, writeIndex entries = .ok data) ↔ ∀ i ∈ entries.entries, Writable i := by
  constructor
  · rintro ⟨data, hdata⟩ i hi
    obtain ⟨hprofile, -⟩ := canonicalJson_eq_ok.mp hdata
    have hstorable : Storable (indexValue entries) := ⟨hprofile, wellFormed_indexValue entries⟩
    have hitems := storable_list.mp (hstorable.get (lit "entries"))
    have hsorted : i ∈ sortedEntries entries := (List.perm_insertionSort _ _).mem_iff.mpr hi
    exact writable_of_storable (hitems _ (List.mem_map_of_mem hsorted))
  · intro h
    exact exists_writeIndex hvalid (fun i hi => (h i hi).1) fun i hi => (h i hi).2

/-- Entries that can be expressed are written, and read back as the same map. -/
theorem exists_readIndex_of_writable {entries : MemoryEntries} (hvalid : EntriesValid entries)
    (h : ∀ i ∈ entries.entries, Writable i) :
    ∃ data after, writeIndex entries = .ok data ∧ readIndex (some data) = .ok after ∧
      SameMap after entries := by
  obtain ⟨data, hdata⟩ := (writeIndex_isOk_iff hvalid).mpr h
  obtain ⟨after, hread, hperm⟩ := readIndex_of_writeIndex hvalid hdata
  exact ⟨data, after, hdata, hread, .of_perm hperm⟩

/-- Every map of valid keys to entries that canonical JSON can express survives a write and a read.
A document that is read, of either version, is written and read as the same map, or, where one of
its entries cannot be expressed, refused. -/
theorem index_codec :
    (∀ entries : MemoryEntries, EntriesValid entries → (∀ i ∈ entries.entries, Writable i) →
      ∃ data after, writeIndex entries = .ok data ∧ readIndex (some data) = .ok after ∧
        SameMap after entries) ∧
      ∀ raw entries, readIndex (some raw) = .ok entries →
        ((∀ i ∈ entries.entries, Writable i) →
          ∃ data after, writeIndex entries = .ok data ∧ readIndex (some data) = .ok after ∧
            SameMap after entries) ∧
        ((∃ i ∈ entries.entries, ¬Writable i) → ∃ e, writeIndex entries = .error e) := by
  refine ⟨fun entries => exists_readIndex_of_writable, fun raw entries hread => ⟨?_, ?_⟩⟩
  · exact exists_readIndex_of_writable (entriesValid_of_readIndex hread)
  · rintro ⟨i, hi, hwritable⟩
    cases hwrite : writeIndex entries with
    | error e => exact ⟨e, rfl⟩
    | ok data =>
      have hall := (writeIndex_isOk_iff (entriesValid_of_readIndex hread)).mp ⟨data, hwrite⟩
      exact absurd (hall i hi) hwritable

/-! ### What cannot be expressed -/

/-- The map of one key with a lone surrogate. -/
def surrogateEntries : MemoryEntries := .ofPairs [(([], [0xD800]), ⟨0, true, none⟩)]

/-- A document of the first version with a generation beyond the safe integers. -/
def unsafeDocument : Bytes :=
  ascii "\x7b\"version\":1,\"entries\":[\x7b\"namespace\":[],\"key\":\"k\"," ++
    ascii "\"generation\":9007199254740992,\"active\":true\x7d]\x7d"

/-- A valid map is refused, and so is one that has been read. -/
theorem index_codec_refuses :
    (EntriesValid surrogateEntries ∧ (∀ i ∈ surrogateEntries.entries, i.2.generation ≤ 2 ^ 53 - 1) ∧
        ¬∃ data, writeIndex surrogateEntries = .ok data) ∧
      ∃ entries, readIndex (some unsafeDocument) = .ok entries ∧
        ¬∃ data, writeIndex entries = .ok data := by
  have hentries : surrogateEntries.entries = [(([], [0xD800]), ⟨0, true, none⟩)] := rfl
  have hvalid : EntriesValid surrogateEntries := by
    intro i hi
    rw [hentries, List.mem_singleton] at hi
    rw [hi]
    exact ⟨rfl, by rintro p ⟨⟩⟩
  refine ⟨⟨hvalid, ?_, ?_⟩, ?_⟩
  · intro i hi
    rw [hentries, List.mem_singleton] at hi
    rw [hi]
    exact Nat.zero_le _
  · rw [writeIndex_isOk_iff hvalid, hentries]
    intro h
    have hclean := (h _ (List.mem_singleton_self _)).1.2
    exact absurd (hclean 0xD800 (List.mem_singleton_self _)) (by decide)
  · have hread : (readIndex (some unsafeDocument)).toOption.map Dict.entries =
        some [(([], lit "k"), ⟨9007199254740992, true, none⟩)] := by decide +kernel
    obtain ⟨entries, hentries, hitems⟩ := Option.map_eq_some_iff.mp hread
    have hok := Except.toOption_eq_some.mp hentries
    refine ⟨entries, hok, ?_⟩
    rw [writeIndex_isOk_iff (entriesValid_of_readIndex hok), hitems]
    intro h
    exact absurd (h _ (List.mem_singleton_self _)).2 (by decide)

end OnceMesh
