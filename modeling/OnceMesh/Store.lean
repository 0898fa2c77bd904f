import OnceMesh.Receipt

/-!
# Stores

`Store` is what the readers of a store answer, at one moment. A reader raises `StoreReadError` or
returns; the records it returns have been validated, when they were put or when they were read.
`MemoryStore` is the reference store: its writers, and its readers as a `Store`.
-/

namespace OnceMesh

open Python

/-- The message of a `StoreReadError`. -/
abbrev StoreReadError := Str

/-- A `StoreReadError`. -/
def readError (message : StoreReadError) : PyError := .other (lit "StoreReadError") message

/-- The readers of a store. Two of them are optional in the protocol. -/
structure Store where
  name : Str
  getBlob : Str → Except StoreReadError (Option Bytes)
  candidates : Str → Except StoreReadError (List Value)
  result : Option (Str → Except StoreReadError (Option Value))
  validations : Str → Except StoreReadError (List SourceValidation)
  invalidations : Option (Str → Except StoreReadError (List Invalidation))
  receipts : Str → Except StoreReadError (List Value)

/-- No reader raises. -/
structure Store.ReadsSucceed (store : Store) : Prop where
  getBlob : ∀ digest, ∃ blob, store.getBlob digest = .ok blob
  candidates : ∀ digest, ∃ values, store.candidates digest = .ok values
  result : ∀ reader ∈ store.result, ∀ digest, ∃ value, reader digest = .ok value
  validations : ∀ digest, ∃ records, store.validations digest = .ok records
  invalidations : ∀ reader ∈ store.invalidations, ∀ digest, ∃ records, reader digest = .ok records
  receipts : ∀ digest, ∃ values, store.receipts digest = .ok values

/-! ### The store in memory -/

/-- `MemoryStore`. Lists are in the order of the puts. -/
structure MemoryStore where
  name : Str
  blobs : Dict Str Bytes
  results : Dict Str (List Manifest)
  resultsByDigest : Dict Str Manifest
  validations : Dict Str (List SourceValidation)
  invalidations : Dict Str (List Invalidation)
  receipts : Dict Str (List Value)

namespace MemoryStore

/-- `MemoryStore(name)`. -/
def empty (name : Str) : MemoryStore := ⟨name, .empty, .empty, .empty, .empty, .empty, .empty⟩

/-- `defaultdict(list)[key].append(value)`. -/
def append {α : Type} (d : Dict Str (List α)) (key : Str) (value : α) : Dict Str (List α) :=
  d.set key ((d.get? key).getD [] ++ [value])

/-- The values under a key, newest first. -/
def newestFirst {α : Type} (d : Dict Str (List α)) (key : Str) : List α :=
  ((d.get? key).getD []).reverse

/-- An appended value is the newest under its key. -/
@[simp]
theorem newestFirst_append {α : Type} (d : Dict Str (List α)) (key key' : Str) (value : α) :
    newestFirst (append d key value) key' =
      if key' = key then value :: newestFirst d key' else newestFirst d key' := by
  unfold newestFirst append
  rw [Dict.get?_set]
  split_ifs with h
  · simp [h]
  · rfl

variable [Sha256] (store : MemoryStore)

/-- `put_blob`; the digest it returns is `digestBytes data`. -/
def putBlob (data : Bytes) : MemoryStore :=
  { store with blobs := store.blobs.set (digestBytes data) data }

/-- `put_result` of a valid manifest. -/
def putResult (manifest : Manifest) : MemoryStore :=
  { store with
    resultsByDigest := store.resultsByDigest.set manifest.digest manifest
    results := append store.results manifest.fields.actionDigest manifest }

/-- `put_validation` of a valid record. -/
def putValidation (record : SourceValidation) : MemoryStore :=
  { store with validations := append store.validations record.fields.resultDigest record }

/-- `put_invalidation` of a valid record. -/
def putInvalidation (record : Invalidation) : MemoryStore :=
  { store with invalidations := append store.invalidations record.fields.resultDigest record }

/-- `put_receipt` of a valid receipt for a result. -/
def putReceipt (resultDigest : Str) (receipt : Value) : MemoryStore :=
  { store with receipts := append store.receipts resultDigest receipt }

omit [Sha256] in
/-- The readers of the store. -/
def view : Store where
  name := store.name
  getBlob digest := .ok (store.blobs.get? digest)
  candidates digest := .ok ((newestFirst store.results digest).map Manifest.document)
  result := some fun digest => .ok ((store.resultsByDigest.get? digest).map Manifest.document)
  validations digest := .ok (newestFirst store.validations digest)
  invalidations := some fun digest => .ok (newestFirst store.invalidations digest)
  receipts digest := .ok (newestFirst store.receipts digest)

end MemoryStore

/-- Reading from memory does not fail. -/
theorem MemoryStore.readsSucceed_view (store : MemoryStore) : store.view.ReadsSucceed where
  getBlob _ := ⟨_, rfl⟩
  candidates _ := ⟨_, rfl⟩
  result := by
    rintro _ ⟨⟩ digest
    exact ⟨_, rfl⟩
  validations _ := ⟨_, rfl⟩
  invalidations := by
    rintro _ ⟨⟩ digest
    exact ⟨_, rfl⟩
  receipts _ := ⟨_, rfl⟩

end OnceMesh
