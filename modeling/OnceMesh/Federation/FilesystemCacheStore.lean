import OnceMesh.FilesystemStore
import OnceMesh.Federation.Import

/-!
# The federation cache on a filesystem

`FilesystemFederationCacheStore` keeps a file for each result, with its manifest, its receipt and
its lease, and one for each blob. A result that is imported again replaces its file. Every read
prunes first: the files of results whose lease has ended are removed, and those of blobs that no
other result names.
-/

namespace OnceMesh.Federation

open Python

/-- `FilesystemFederationCacheStore`: the files of `entries`, by name, and those of `blobs/sha256`,
by directory and name. -/
structure FilesystemFederationCacheStore where
  entries : Dict Str Bytes
  blobs : Files

/-- A federation cache entry that has been read. -/
structure CacheEntry where
  manifest : Manifest
  receipt : Value
  /-- `_parse_time(record["imported_at"])`. -/
  importedAt : DateTime
  /-- `_parse_time(record["retain_until"])`. -/
  retainUntil : DateTime

/-- The document of a federation cache entry. -/
def entryRecord (resultDigest : Str) (manifest receipt : Value)
    (importedAt retainUntil : DateTime) :
    Value :=
  .dict [(lit "spec_version", .str (lit "oncemesh.federation-cache-entry/v0")),
    (lit "result_digest", .str resultDigest), (lit "imported_at", .str (formatTime importedAt)),
    (lit "retain_until", .str (formatTime retainUntil)), (lit "manifest", manifest),
    (lit "receipt", receipt)]

namespace FilesystemFederationCacheStore

/-- A cache in an empty directory. -/
def empty : FilesystemFederationCacheStore := ⟨.empty, .empty⟩

/-! ### Paths -/

/-- `_hex_digest`. -/
def hexDigest (value : Str) : Except PyError Str :=
  if isDigest value then .ok (digestHex value)
  else raiseValueError "invalid federation cache digest"

/-- `_entry_path`: the name of a file of `entries`. -/
def entryPath (resultDigest : Str) : Except PyError Str := do
  let hex ← hexDigest resultDigest
  pure (hex ++ lit ".json")

/-- `_blob_path`. -/
def blobPath (blobDigest : Str) : Except PyError (Str × Str) := do
  let value ← hexDigest blobDigest
  pure (value.take 2, value.drop 2)

/-! ### Entries -/

/-- `except (OSError, UnicodeError, json.JSONDecodeError)`. -/
def entryUnreadable : PyError → PyError
  | .osError | .unicodeError | .jsonDecodeError =>
    .valueError (lit "federation cache entry cannot be read") []
  | e => e

variable [Sha256] [LocalZone]

/-- The checks of an entry in the file of a name. -/
def checkEntry (name : Str) (record : Value) : Except PyError CacheEntry := do
  exactKeys record [lit "spec_version", lit "result_digest", lit "imported_at", lit "retain_until",
    lit "manifest", lit "receipt"] "federation cache entry"
  raiseIf (!(record.get (lit "spec_version")).eqStr (lit "oncemesh.federation-cache-entry/v0"))
    "unsupported federation cache entry"
  let manifest ← validateFederationResult (record.get (lit "manifest"))
  let fields ← validateReceipt (record.get (lit "receipt")) true
  raiseIf (!(record.get (lit "result_digest")).eqStr manifest.digest)
    "federation cache result digest mismatch"
  -- from here on, `record["result_digest"]` is the digest of the manifest
  raiseIf (fields.resultDigest ≠ manifest.digest) "federation cache receipt binding mismatch"
  let path ← entryPath manifest.digest
  raiseIf (name ≠ path) "federation cache entry path mismatch"
  let importedAt ← parseTimeValue (record.get (lit "imported_at"))
  let retainUntil ← parseTimeValue (record.get (lit "retain_until"))
  pure ⟨manifest, record.get (lit "receipt"), importedAt, retainUntil⟩

/-- The body of the loop of `_read_entries`. -/
def readEntry (file : Str × Bytes) : Except PyError CacheEntry := do
  let record ← (File.loadJson (some file.2)).mapError entryUnreadable
  checkEntry file.1 record

variable (store : FilesystemFederationCacheStore)

omit [Sha256] [LocalZone] in
/-- `sorted(self.entry_root.glob("*.json"))`. -/
def entryFiles : List (Str × Bytes) :=
  (store.entries.entries.filter fun file => endsWith file.1 (lit ".json")).insertionSort
    fun a b => a.1 ≤ b.1

/-- `_read_entries`. -/
def readEntries : Except PyError (List CacheEntry) := store.entryFiles.mapM readEntry

/-! ### Import -/

omit [Sha256] [LocalZone] in
/-- The file of a blob: `self._write_atomic(path, blob, replace=False)`. -/
def writeBlob (path : Str × Str) (blob : Bytes) : FilesystemFederationCacheStore :=
  { store with blobs := writeOnce store.blobs path blob }

omit [Sha256] [LocalZone] in
/-- The file of an entry: `self._write_atomic(path, data, replace=True)`. -/
def writeEntry (name : Str) (data : Bytes) : FilesystemFederationCacheStore :=
  { store with entries := store.entries.set name data }

omit store

omit [LocalZone] in
/-- The body of the loop of `import_bundle` over the descriptors. -/
def storeBlob (artifacts : Dict Str Bytes) (descriptor : ArtifactDescriptor) :
    Stateful PyError FilesystemFederationCacheStore Unit := fun store =>
  match artifacts.get? descriptor.name with
  | none => (.error (.keyError descriptor.name), store)
  | some blob =>
    if blob.length ≠ descriptor.size ∨ digestBytes blob ≠ descriptor.digest then
      (raiseValueError "federation bundle artifact integrity failure", store)
    else
      match blobPath descriptor.digest with
      | .error e => (.error e, store)
      | .ok path =>
        match store.blobs.get? path with
        | some existing => (raiseIf (digestBytes existing ≠ descriptor.digest)
            "federation cache existing blob is corrupt", store)
        | none => (.ok (), store.writeBlob path blob)

omit [LocalZone] in
/-- The loop of `import_bundle` over the descriptors. -/
def storeBlobs (artifacts : Dict Str Bytes) :
    List ArtifactDescriptor → Stateful PyError FilesystemFederationCacheStore Unit
  | [] => pure ()
  | descriptor :: rest => do
    storeBlob artifacts descriptor
    storeBlobs artifacts rest

omit [LocalZone] in
/-- The checks of `import_bundle`, when the clock reads `now`. -/
def checkImport (now : DateTime) (bundle : FederationBundle) (retainUntil : DateTime) :
    Except PyError Manifest := do
  let manifest ← validateFederationResult bundle.manifest
  let fields ← validateReceipt bundle.receipt true
  raiseIf (fields.resultDigest ≠ manifest.digest) "federation bundle receipt binding mismatch"
  raiseIf (!sameNames bundle.artifacts manifest.fields.artifacts)
    "federation bundle artifact names mismatch"
  raiseIf (retainUntil ≤ now) "federation cache lease must end after import"
  pure manifest

/-- `import_bundle`, when the clock reads `now`. -/
def importBundle (now : DateTime) (bundle : FederationBundle) (retainUntil : DateTime) :
    Stateful PyError FilesystemFederationCacheStore Unit := do
  let manifest ← Stateful.ofExcept (checkImport now bundle retainUntil)
  storeBlobs bundle.artifacts manifest.fields.artifacts
  let data ← Stateful.ofExcept (canonicalJson
    (entryRecord manifest.digest bundle.manifest bundle.receipt now retainUntil))
  let name ← Stateful.ofExcept (entryPath manifest.digest)
  Stateful.modify fun store => store.writeEntry name (data ++ [0x0A])

/-! ### Pruning and reads -/

omit [LocalZone] in
/-- The files that `prune` leaves, by the entries it has read. An entry that is not among the
expired ones is one whose lease has not ended, since equal entries have the same lease. -/
def remove (store : FilesystemFederationCacheStore) (now : DateTime) (records : List CacheEntry) :
    FilesystemFederationCacheStore :=
  let expired := records.filter fun record => record.retainUntil ≤ now
  let retained := records.filter fun record => now < record.retainUntil
  let live := retained.flatMap fun record =>
    record.manifest.fields.artifacts.map ArtifactDescriptor.digest
  { entries := store.entries.filter fun name _ =>
      name ∉ expired.map fun record => digestHex record.manifest.digest ++ lit ".json"
    blobs := store.blobs.filter fun path _ => lit "sha256:" ++ path.1 ++ path.2 ∈ live }

/-- `prune`: the number of entries whose lease has ended. -/
def prune (now : DateTime) : Stateful PyError FilesystemFederationCacheStore ℕ := fun store =>
  match store.readEntries with
  | .error e => (.error e, store)
  | .ok records =>
    (.ok (records.filter fun record => record.retainUntil ≤ now).length, store.remove now records)

omit [LocalZone] in
/-- The file of a blob is read and hashed. -/
def readBlob (path : Str × Str) (digest : Str) :
    Stateful PyError FilesystemFederationCacheStore (Option Bytes) := fun store =>
  match store.blobs.get? path with
  | none => (.ok none, store)
  | some value => ((raiseIf (digestBytes value ≠ digest)
      "federation cache blob integrity failure").map fun _ => some value, store)

/-- `get_blob`, when the clock reads `now`. -/
def getBlob (now : DateTime) (digest : Str) :
    Stateful PyError FilesystemFederationCacheStore (Option Bytes) := do
  let _ ← prune now
  let path ← Stateful.ofExcept (blobPath digest)
  readBlob path digest

/-- The entries as they are stored. -/
def readStored : Stateful PyError FilesystemFederationCacheStore (List CacheEntry) := fun store =>
  (store.readEntries, store)

/-- `_read_entries` after `prune`. -/
def readLive (now : DateTime) :
    Stateful PyError FilesystemFederationCacheStore (List CacheEntry) := do
  let _ ← prune now
  readStored

/-- `candidates`, when the clock reads `now`. -/
def candidates (now : DateTime) (actionDigest : Str) :
    Stateful PyError FilesystemFederationCacheStore (List Manifest) := do
  let records ← readLive now
  let selected := records.filter fun record => record.manifest.fields.actionDigest = actionDigest
  pure ((selected.insertionSort fun a b => b.importedAt ≤ a.importedAt).map CacheEntry.manifest)

/-- `receipts`, when the clock reads `now`. -/
def receipts (now : DateTime) (resultDigest : Str) :
    Stateful PyError FilesystemFederationCacheStore (List Value) := do
  let records ← readLive now
  pure ((records.filter fun record => record.manifest.digest = resultDigest).map CacheEntry.receipt)

/-- `lease_until`, when the clock reads `now`. -/
def leaseUntil (now : DateTime) (resultDigest : Str) :
    Stateful PyError FilesystemFederationCacheStore (Option DateTime) := do
  let records ← readLive now
  pure ((records.find? fun record => record.manifest.digest = resultDigest).map
    CacheEntry.retainUntil)

omit [Sha256] [LocalZone] in
/-- The number of the files of blobs. -/
def countBlobs : Stateful PyError FilesystemFederationCacheStore ℕ := fun store =>
  (.ok store.blobs.size, store)

/-- `summary`, when the clock reads `now`: the numbers of entries and blobs. -/
def summary (now : DateTime) : Stateful PyError FilesystemFederationCacheStore (ℕ × ℕ) := do
  let records ← readLive now
  let blobs ← countBlobs
  pure (records.length, blobs)

/-- `import_from_peer` into this store, when its clock reads `now`. -/
def importFromPeer [Ed25519] (action : Value) (peer : FederationPeer)
    (config : FederationPeerConfig)
    (observedAt now : DateTime) : Stateful PyError FilesystemFederationCacheStore ImportOutcome :=
  match admission action peer config observedAt with
  | .error (.miss reason) => pure (.miss reason)
  | .error (.raised e) => Stateful.ofExcept (.error e)
  | .ok (entry, bundle, total) => do
    let retainUntil ← Stateful.ofExcept (observedAt.addSeconds config.retentionSeconds)
    importBundle now bundle retainUntil
    pure ⟨true, "imported", some entry.resultDigest, total⟩

/-- The cache when `import_from_peer` is interrupted after some blobs are stored. -/
def interrupt [Ed25519] (action : Value) (peer : FederationPeer) (config : FederationPeerConfig)
    (observedAt now : DateTime) (written : ℕ) (store : FilesystemFederationCacheStore) :
    FilesystemFederationCacheStore :=
  let stored : Except ImportStop FilesystemFederationCacheStore := do
    let (_, bundle, _) ← admission action peer config observedAt
    let retainUntil ← raising (observedAt.addSeconds config.retentionSeconds)
    let manifest ← raising (checkImport now bundle retainUntil)
    pure (storeBlobs bundle.artifacts (manifest.fields.artifacts.take written) store).2
  (stored.toOption).getD store

end FilesystemFederationCacheStore

end OnceMesh.Federation
