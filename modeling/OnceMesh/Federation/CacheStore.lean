import OnceMesh.Python.Stateful
import OnceMesh.Store

/-!
# The federation cache

`FederationCacheStore` keeps what has been imported from peers: manifests, receipts and blobs, and
for each result until when it is retained. It is written by imports only, and every read prunes it
first.
-/

namespace OnceMesh.Federation

open Python

/-- `FederationBundle`. -/
structure FederationBundle where
  manifest : Value
  receipt : Value
  artifacts : Dict Str Bytes

/-- `FederationCacheStore`. Nothing is ever put among its validations. -/
structure FederationCacheStore where
  blobs : Dict Str Bytes
  results : Dict Str (List Manifest)
  receipts : Dict Str (List Value)
  leases : Dict Str DateTime

namespace FederationCacheStore

/-- A new cache. -/
def empty : FederationCacheStore := ⟨.empty, .empty, .empty, .empty⟩

/-! ### Import -/

/-- `self._blobs[digest] = blob`. -/
def putBlob (digest : Str) (blob : Bytes) (store : FederationCacheStore) : FederationCacheStore :=
  { store with blobs := store.blobs.set digest blob }

/-- The loop of `import_bundle` over the descriptors. -/
def putBlobs (artifacts : Dict Str Bytes) :
    List ArtifactDescriptor → Stateful PyError FederationCacheStore Unit
  | [] => pure ()
  | descriptor :: rest =>
    match artifacts.get? descriptor.name with
    | none => Stateful.ofExcept (.error (.keyError descriptor.name))
    | some blob => do
      Stateful.modify (putBlob descriptor.digest blob)
      putBlobs artifacts rest

/-- The blobs of descriptors whose names are all among the artifacts. -/
theorem putBlobs_apply {artifacts : Dict Str Bytes} {descriptors : List ArtifactDescriptor}
    (h : ∀ descriptor ∈ descriptors, ∃ blob, artifacts.get? descriptor.name = some blob)
    (store : FederationCacheStore) :
    putBlobs artifacts descriptors store = (.ok (), descriptors.foldl
      (fun store descriptor =>
        putBlob descriptor.digest ((artifacts.get? descriptor.name).getD []) store) store) := by
  induction descriptors generalizing store with
  | nil => rfl
  | cons descriptor rest ih =>
    obtain ⟨⟨blob, hblob⟩, hrest⟩ := List.forall_mem_cons.mp h
    rw [putBlobs, hblob]
    dsimp only
    rw [Stateful.bind_apply_of_ok (Stateful.modify_apply _ _), ih hrest, List.foldl_cons, hblob,
      Option.getD_some]

variable [Sha256]

/-- The manifest, the receipt and the lease of an import. -/
def putResult (manifest : Manifest) (receipt : Value) (retainUntil : DateTime)
    (store : FederationCacheStore) : FederationCacheStore :=
  { store with
    results := MemoryStore.append store.results manifest.fields.actionDigest manifest
    receipts := MemoryStore.append store.receipts manifest.digest receipt
    leases := store.leases.set manifest.digest retainUntil }

/-- `import_bundle`. -/
def importBundle (bundle : FederationBundle) (retainUntil : DateTime) :
    Stateful PyError FederationCacheStore Unit := do
  let manifest ← Stateful.ofExcept (Manifest.ofValue bundle.manifest)
  putBlobs bundle.artifacts manifest.fields.artifacts
  Stateful.modify (putResult manifest bundle.receipt retainUntil)

/-- The store after the import of a complete bundle. -/
def imported (bundle : FederationBundle) (manifest : Manifest) (retainUntil : DateTime)
    (store : FederationCacheStore) : FederationCacheStore :=
  putResult manifest bundle.receipt retainUntil (manifest.fields.artifacts.foldl
    (fun store descriptor =>
      putBlob descriptor.digest ((bundle.artifacts.get? descriptor.name).getD []) store) store)

theorem importBundle_apply {bundle : FederationBundle} {manifest : Manifest}
    (hdocument : manifest.document = bundle.manifest)
    (h : ∀ descriptor ∈ manifest.fields.artifacts,
      ∃ blob, bundle.artifacts.get? descriptor.name = some blob)
    (retainUntil : DateTime) (store : FederationCacheStore) :
    importBundle bundle retainUntil store =
      (.ok (), imported bundle manifest retainUntil store) := by
  have hvalid : (Stateful.ofExcept (Manifest.ofValue bundle.manifest) :
      Stateful PyError FederationCacheStore Manifest) store = (.ok manifest, store) := by
    rw [Stateful.ofExcept_apply, Manifest.ofValue_eq_ok.mpr hdocument]
  rw [importBundle, Stateful.bind_apply_of_ok hvalid,
    Stateful.bind_apply_of_ok (putBlobs_apply h store), Stateful.modify_apply, imported]

/-! ### Pruning and reads -/

variable (store : FederationCacheStore)

/-- Whether the lease of a result has ended. -/
def expired (now : DateTime) (digest : Str) : Bool :=
  match store.leases.get? digest with
  | some retainUntil => retainUntil ≤ now
  | none => false

/-- The manifests of each action that are retained; an action without any is dropped. -/
def retainedResults (now : DateTime) : Dict Str (List Manifest) :=
  (store.results.mapValues fun _ manifests =>
    manifests.filter fun manifest => !store.expired now manifest.digest).filter
    fun _ manifests => manifests ≠ []

/-- The digests of the blobs that manifests name. -/
def liveBlobs (results : Dict Str (List Manifest)) : List Str :=
  results.entries.flatMap fun e =>
    e.2.flatMap fun manifest => manifest.fields.artifacts.map ArtifactDescriptor.digest

/-- `prune`: the number of leases that have ended, and the store after. -/
def prune (now : DateTime) : ℕ × FederationCacheStore :=
  let ended := store.leases.filter fun digest _ => store.expired now digest
  if ended.entries = [] then (0, store)
  else
    let results := store.retainedResults now
    (ended.size,
      { blobs := store.blobs.filter fun digest _ => digest ∈ liveBlobs results
        results := results
        receipts := store.receipts.filter fun digest _ => !store.expired now digest
        leases := store.leases.filter fun digest _ => !store.expired now digest })

/-- `get_blob`, when the clock reads `now`. -/
def getBlob (now : DateTime) (digest : Str) : Option Bytes × FederationCacheStore :=
  let pruned := (store.prune now).2
  (pruned.blobs.get? digest, pruned)

/-- `candidates`, when the clock reads `now`. -/
def candidates (now : DateTime) (actionDigest : Str) : List Manifest × FederationCacheStore :=
  let pruned := (store.prune now).2
  (MemoryStore.newestFirst pruned.results actionDigest, pruned)

/-- `receipts`, when the clock reads `now`. -/
def receiptsOf (now : DateTime) (resultDigest : Str) : List Value × FederationCacheStore :=
  let pruned := (store.prune now).2
  ((pruned.receipts.get? resultDigest).getD [], pruned)

end FederationCacheStore

end OnceMesh.Federation
