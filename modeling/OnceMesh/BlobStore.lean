import OnceMesh.FilesystemStore

/-!
# Stores of blobs

What those who put blobs into a store rely on: what is found is what has been put under its digest,
and a digest under which something is found keeps it. The store in memory replaces a blob that has
the digest of another; the store on a filesystem keeps the first one.
-/

namespace OnceMesh

open Python

variable [Sha256]

/-- A store over states of type `σ`, through its writers and what it answers. -/
class BlobStore (σ : Type) where
  /-- The store with a name, before anything is put. -/
  empty : Str → σ
  /-- Its writers. -/
  puts : StorePuts σ
  /-- What it answers. -/
  view : σ → Store
  /-- Nothing is found before anything is put. -/
  getBlob_empty : ∀ name digest data, (view (empty name)).getBlob digest ≠ .ok (some data)
  /-- What is found has just been put, or was found before. -/
  getBlob_putBlob : ∀ {store data digest found},
    (view (puts.putBlob store data)).getBlob digest = .ok (some found) →
      digest = digestBytes data ∧ found = data ∨
        (view store).getBlob digest = .ok (some found)
  /-- Something is found under the digest of a blob that has been put. -/
  exists_getBlob_self : ∀ store data, ∃ found,
    (view (puts.putBlob store data)).getBlob (digestBytes data) = .ok (some found)
  /-- Something is still found when another blob has been put. -/
  exists_getBlob : ∀ {store digest found}, (view store).getBlob digest = .ok (some found) →
    ∀ data, ∃ found', (view (puts.putBlob store data)).getBlob digest = .ok (some found')

/-! ### The store in memory -/

/-- The store in memory replaces a blob by another with its digest. -/
instance : BlobStore MemoryStore where
  empty := MemoryStore.empty
  puts := MemoryStore.puts
  view := MemoryStore.view
  getBlob_empty := by
    intro name digest data h
    cases h
  getBlob_putBlob := by
    intro store data digest found h
    have hget : (store.blobs.set (digestBytes data) data).get? digest = some found :=
      Except.ok.inj h
    rw [Dict.get?_set] at hget
    split_ifs at hget with hsame
    · exact .inl ⟨hsame, (Option.some.inj hget).symm⟩
    · exact .inr (congrArg Except.ok hget)
  exists_getBlob_self := by
    intro store data
    have hget : (store.blobs.set (digestBytes data) data).get? (digestBytes data) = some data := by
      rw [Dict.get?_set, if_pos rfl]
    exact ⟨data, congrArg Except.ok hget⟩
  exists_getBlob := by
    intro store digest found h data
    have hget : store.blobs.get? digest = some found := Except.ok.inj h
    have hset : (store.blobs.set (digestBytes data) data).get? digest =
        if digest = digestBytes data then some data else some found := by
      rw [Dict.get?_set, hget]
    split_ifs at hset
    · exact ⟨data, congrArg Except.ok hset⟩
    · exact ⟨found, congrArg Except.ok hset⟩

/-! ### The store on a filesystem -/

namespace FilesystemStore

omit [Sha256] in
/-- A blob is read from the file of its digest. -/
theorem getBlob_eq_ok {store : FilesystemStore} {digest : Str} {found : Bytes} :
    store.getBlob digest = .ok (some found) ↔
      isDigest digest = true ∧ store.blobs.get? (fanOut digest "") = some found := by
  rw [getBlob, hexDigest?]
  split_ifs with hdigest
  · simp [hdigest]
  · simp [hdigest, raiseValueError]

/-- What is found in a file has just been written, or was found before. -/
theorem getBlob_putBlob {store : FilesystemStore} {data found : Bytes} {digest : Str}
    (h : (store.putBlob data).getBlob digest = .ok (some found)) :
    digest = digestBytes data ∧ found = data ∨ store.getBlob digest = .ok (some found) := by
  obtain ⟨hdigest, hget⟩ := getBlob_eq_ok.mp h
  rw [putBlob, writeOnce] at hget
  split_ifs at hget
  · exact .inr (getBlob_eq_ok.mpr ⟨hdigest, hget⟩)
  · rw [Dict.get?_set] at hget
    split_ifs at hget with hsame
    · exact .inl ⟨(fanOut_inj hdigest (isDigest_digestBytes data)).mp hsame,
        (Option.some.inj hget).symm⟩
    · exact .inr (getBlob_eq_ok.mpr ⟨hdigest, hget⟩)

/-- The file of a blob is there once the blob has been put. -/
theorem exists_getBlob_self (store : FilesystemStore) (data : Bytes) :
    ∃ found, (store.putBlob data).getBlob (digestBytes data) = .ok (some found) := by
  have hfile : ∃ found,
      (store.putBlob data).blobs.get? (fanOut (digestBytes data) "") = some found := by
    rw [putBlob, writeOnce]
    split_ifs with hcontains
    · exact Option.isSome_iff_exists.mp hcontains
    · rw [Dict.get?_set, if_pos rfl]
      exact ⟨data, rfl⟩
  obtain ⟨found, hfound⟩ := hfile
  exact ⟨found, getBlob_eq_ok.mpr ⟨isDigest_digestBytes data, hfound⟩⟩

/-- A file that is there stays as it is. -/
theorem getBlob_putBlob_of_found {store : FilesystemStore} {found : Bytes} {digest : Str}
    (h : store.getBlob digest = .ok (some found)) (data : Bytes) :
    (store.putBlob data).getBlob digest = .ok (some found) := by
  obtain ⟨hdigest, hget⟩ := getBlob_eq_ok.mp h
  refine getBlob_eq_ok.mpr ⟨hdigest, ?_⟩
  rw [putBlob, writeOnce]
  split_ifs with hcontains
  · exact hget
  · rw [Dict.get?_set]
    split_ifs with hsame
    · rw [Dict.contains, ← hsame, hget] at hcontains
      exact absurd rfl hcontains
    · exact hget

end FilesystemStore

/-- A store on a filesystem whose directories are listed in some order. -/
structure ListedStore (listing : Listing) where
  /-- The files of the store. -/
  files : FilesystemStore

/-- The writers of a store, applied to its files. -/
def ListedStore.puts (listing : Listing) : StorePuts (ListedStore listing) where
  putBlob store data := ⟨store.files.putBlob data⟩
  putResult store manifest := ⟨store.files.putResult manifest⟩
  putValidation store record := ⟨store.files.putValidation record⟩
  putInvalidation store record := ⟨store.files.putInvalidation record⟩
  putReceipt store resultDigest receipt := ⟨store.files.putReceipt resultDigest receipt⟩

/-- The store on a filesystem keeps the blob that was put first. -/
instance (listing : Listing) : BlobStore (ListedStore listing) where
  empty name := ⟨.empty name⟩
  puts := ListedStore.puts listing
  view store := store.files.view listing
  getBlob_empty := by
    intro name digest data h
    obtain ⟨-, hget⟩ :=
      FilesystemStore.getBlob_eq_ok.mp (FilesystemStore.asReader_eq_ok.mp h)
    cases hget
  getBlob_putBlob := by
    intro store data digest found h
    exact (FilesystemStore.getBlob_putBlob (FilesystemStore.asReader_eq_ok.mp h)).imp_right
      FilesystemStore.asReader_eq_ok.mpr
  exists_getBlob_self := by
    intro store data
    obtain ⟨found, hfound⟩ := store.files.exists_getBlob_self data
    exact ⟨found, FilesystemStore.asReader_eq_ok.mpr hfound⟩
  exists_getBlob := by
    intro store digest found h data
    exact ⟨found, FilesystemStore.asReader_eq_ok.mpr
      (FilesystemStore.getBlob_putBlob_of_found (FilesystemStore.asReader_eq_ok.mp h) data)⟩

end OnceMesh
