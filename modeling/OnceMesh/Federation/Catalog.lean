import OnceMesh.Federation.ReadBack
import OnceMesh.StoreWriter

/-!
# The catalog of a peer

A peer publishes results of its store to others. `publish` checks the result, its receipt and its
artifacts, and what has been published is advertised and served until it is withdrawn. The blobs are
read from the store whenever a bundle is fetched.
-/

namespace OnceMesh.Federation

open Python

variable [Sha256]

/-- A published result: the action it is for, its manifest and its receipt, as `publish` leaves
them. -/
structure Published where
  action : Value
  manifest : Manifest
  receipt : Value
  requested : actionDigest action = .ok manifest.fields.actionDigest
  federated : IsFederated manifest
  signed : ∃ fields, validateReceipt receipt true = .ok fields

/-- `PublicPeerCatalog`, as its constructor leaves it; its store is given to what reads it. -/
structure PublicPeerCatalog where
  peerId : Str
  seed : Bytes
  receiptKeys : Dict Str Bytes
  published : Dict Str Published
  peer : peerId ≠ []
  seedLength : seed.length = 32

namespace PublicPeerCatalog

variable (catalog : PublicPeerCatalog)

/-- `self.store.get_blob(digest)`. -/
def readBlob (store : Store) (digest : Str) : Except PyError (Option Bytes) :=
  (store.getBlob digest).mapError readError

/-- The loop of `publish` over the descriptors. -/
def checkBlobs (store : Store) : List ArtifactDescriptor → Except PyError Unit
  | [] => .ok ()
  | descriptor :: rest => do
    let blob ← readBlob store descriptor.digest
    raiseIf (blob.all fun data =>
        data.length ≠ descriptor.size || digestBytes data ≠ descriptor.digest)
      "published artifact is missing or corrupt"
    checkBlobs store rest

section

variable [Ed25519]

/-- The checks of `publish`: the result that is published. -/
def checkPublication (store : Store) (action manifest receipt : Value) (classification : Str) :
    Except PyError Published := do
  raiseIf (classification ≠ lit "public")
    "federation catalog accepts explicitly public results only"
  validateAction action
  match hmanifest : validateFederationResult manifest with
  | .error e => .error e
  | .ok result =>
    match hreceipt : validateReceipt receipt true with
    | .error e => .error e
    | .ok fields =>
      match hdigest : actionDigest action with
      | .error e => .error e
      | .ok requested =>
        if hsame : result.fields.actionDigest = requested then do
          let keyId ← requireKeyId fields
          match catalog.receiptKeys.get? keyId with
          | none => raiseValueError "result receipt is not trusted by origin catalog"
          | some publicKey =>
            let verified ← verifyReceiptForManifest receipt result publicKey
            raiseIf (!verified) "result receipt is not trusted by origin catalog"
            checkBlobs store result.fields.artifacts
            pure ⟨action, result, receipt, hsame ▸ hdigest,
              (validateFederationResult_eq_ok.mp hmanifest).2, ⟨fields, hreceipt⟩⟩
        else raiseValueError "result does not match published action"

/-- `self._published[result_digest] = …`. -/
def setPublished (result : Published) : PublicPeerCatalog :=
  { catalog with published := catalog.published.set result.manifest.digest result }

/-- `publish`. -/
def publish (store : Store) (action manifest receipt : Value) (classification : Str) :
    Stateful PyError PublicPeerCatalog Str := fun catalog =>
  match catalog.checkPublication store action manifest receipt classification with
  | .error e => (.error e, catalog)
  | .ok result => (.ok result.manifest.digest, catalog.setPublished result)

end

/-- `withdraw`: whether the result had been published, and the catalog without it. -/
def withdraw (resultDigest : Str) : Bool × PublicPeerCatalog :=
  (catalog.published.contains resultDigest,
    { catalog with published := catalog.published.filter fun digest _ => digest ≠ resultDigest })

/-! ### What it answers -/

/-- An entry of the availability manifest, under the key it is sorted by. -/
def availabilityEntry (resultDigest : Str) (result : Published) :
    Except PyError ((Str × Str) × Value) := do
  let requested ← actionDigest result.action
  pure ((requested, resultDigest), .dict [(lit "action_digest", .str requested),
    (lit "result_digest", .str resultDigest),
    (lit "operation", result.action.get (lit "operation")),
    (lit "artifact_bytes", .int (totalSize result.manifest.fields.artifacts))])

/-- `availability`. -/
def availability [LocalZone] [Ed25519Signing] (now : DateTime) : Except PyError Value := do
  let entries ← catalog.published.entries.mapM fun e => availabilityEntry e.1 e.2
  let sorted := entries.insertionSort fun a b => identityLE a.1 b.1
  signAvailability (.dict [(lit "spec_version", .str (lit "oncemesh.availability/v0")),
    (lit "peer_id", .str catalog.peerId), (lit "generated_at", .str (formatTime now)),
    (lit "entries", .list (sorted.map Prod.snd)), (lit "signature", .none)]) catalog.seed

/-- `fetch_bundle`. -/
def fetchBundle (store : Store) (resultDigest : Str) :
    Except PyError (Option FederationBundle) :=
  match catalog.published.get? resultDigest with
  | none => .ok none
  | some result => do
    let blobs ← result.manifest.fields.artifacts.mapM fun descriptor => do
      let blob ← readBlob store descriptor.digest
      pure (blob.map fun data => (descriptor.name, data))
    -- a missing blob withholds the bundle
    pure ((blobs.mapM id).map fun artifacts =>
      ⟨result.manifest.document, result.receipt, .ofPairs artifacts⟩)

/-! ### Runs -/

end PublicPeerCatalog

/-- A call that changes the catalog. -/
inductive CatalogCall where
  | publish (store : Store) (action manifest receipt : Value) (classification : Str)
  | withdraw (resultDigest : Str)

/-- The documents of the call are Python values. -/
def CatalogCall.WellFormed : CatalogCall → Prop
  | .publish _ action manifest receipt _ =>
    action.WellFormed ∧ manifest.WellFormed ∧ receipt.WellFormed
  | .withdraw _ => True

namespace PublicPeerCatalog

variable [Ed25519]

/-- The catalog after a call, whether it returned or raised. -/
def perform (catalog : PublicPeerCatalog) : CatalogCall → PublicPeerCatalog
  | .publish store action manifest receipt classification =>
    (publish store action manifest receipt classification catalog).2
  | .withdraw resultDigest => (catalog.withdraw resultDigest).2

/-- The catalog after some calls. -/
def performAll (catalog : PublicPeerCatalog) (calls : List CatalogCall) : PublicPeerCatalog :=
  calls.foldl perform catalog

/-- What is published consists of Python values, each result under its digest. -/
structure Consistent (catalog : PublicPeerCatalog) : Prop where
  action : ∀ e ∈ catalog.published.entries, e.2.action.WellFormed
  manifest : ∀ e ∈ catalog.published.entries, e.2.manifest.document.WellFormed
  receipt : ∀ e ∈ catalog.published.entries, e.2.receipt.WellFormed
  digest : ∀ e ∈ catalog.published.entries, e.1 = e.2.manifest.digest

/-- A result is accepted: it is for the action, with a receipt the catalog trusts, and its blobs are
in the store. -/
structure PublicationAccepted (catalog : PublicPeerCatalog) (store : Store)
    (action manifest receipt : Value) (result : Published) : Prop where
  valid : validateAction action = .ok ()
  sameAction : result.action = action
  sameManifest : result.manifest.document = manifest
  sameReceipt : result.receipt = receipt
  trusted : ∃ fields keyId publicKey, validateReceipt receipt true = .ok fields ∧
    requireKeyId fields = .ok keyId ∧ catalog.receiptKeys.get? keyId = some publicKey ∧
    verifyReceiptForManifest receipt result.manifest publicKey = .ok true
  blobs : checkBlobs store result.manifest.fields.artifacts = .ok ()

/-- What passes the checks of `publish`. -/
theorem checkPublication_eq_ok {catalog : PublicPeerCatalog} {store : Store}
    {action manifest receipt : Value} {classification : Str} {result : Published} :
    catalog.checkPublication store action manifest receipt classification = .ok result ↔
      classification = lit "public" ∧
        PublicationAccepted catalog store action manifest receipt result := by
  constructor
  · intro h
    obtain ⟨hpublic, h⟩ := Except.check_eq_ok.mp h
    obtain ⟨hvalid, h⟩ := Except.check_eq_ok.mp h
    rw [raiseIf_eq_ok, decide_eq_false_iff_not, ne_eq, not_not] at hpublic
    refine ⟨hpublic, ?_⟩
    split at h
    · cases h
    next checked hmanifest =>
      split at h
      · cases h
      next fields hreceipt =>
        split at h
        · cases h
        · split_ifs at h
          · obtain ⟨keyId, hkeyId, h⟩ := Except.bind_eq_ok.mp h
            split at h
            · cases h
            next publicKey hkey =>
              obtain ⟨verified, hverified, h⟩ := Except.bind_eq_ok.mp h
              obtain ⟨htrue, h⟩ := Except.check_eq_ok.mp h
              obtain ⟨hblobs, h⟩ := Except.check_eq_ok.mp h
              rw [raiseIf_eq_ok, Bool.not_eq_false'] at htrue
              subst htrue
              rw [hblobs, Except.ok_bind] at h
              cases h
              exact ⟨hvalid, rfl, (validateFederationResult_eq_ok.mp hmanifest).1, rfl,
                ⟨fields, keyId, publicKey, hreceipt, hkeyId, hkey, hverified⟩, hblobs⟩
          · cases h
  · rintro ⟨rfl, h⟩
    obtain ⟨hvalid, rfl, rfl, rfl, ⟨fields, keyId, publicKey, hreceipt, hkeyId, hkey, hverified⟩,
      hblobs⟩ := h
    have hresult : validateFederationResult result.manifest.document = .ok result.manifest :=
      validateFederationResult_eq_ok.mpr ⟨rfl, result.federated⟩
    rw [checkPublication, Except.check_eq_ok]
    refine ⟨by simp, ?_⟩
    rw [hvalid, Except.ok_bind]
    split
    next e herror => cases hresult.symm.trans herror
    next checked hchecked =>
      obtain rfl := Except.ok.inj (hresult.symm.trans hchecked)
      split
      next e herror => cases hreceipt.symm.trans herror
      next fields' hfields =>
        obtain rfl := Except.ok.inj (hreceipt.symm.trans hfields)
        split
        next e herror => cases result.requested.symm.trans herror
        next requested hrequested =>
          have hsame := Except.ok.inj (result.requested.symm.trans hrequested)
          rw [dif_pos hsame, hkeyId, Except.ok_bind, hkey]
          dsimp only
          rw [hverified, Except.ok_bind]
          simp [raiseIf, hblobs, pure, Except.pure]

/-- What passes the checks of `publish` are the documents that were given. -/
theorem documents_of_checkPublication {catalog : PublicPeerCatalog} {store : Store}
    {action manifest receipt : Value} {classification : Str} {result : Published}
    (h : catalog.checkPublication store action manifest receipt classification = .ok result) :
    result.action = action ∧ result.manifest.document = manifest ∧ result.receipt = receipt := by
  obtain ⟨-, h⟩ := checkPublication_eq_ok.mp h
  exact ⟨h.sameAction, h.sameManifest, h.sameReceipt⟩

omit [Ed25519] in
/-- A result that is published is consistent with the others. -/
theorem Consistent.setPublished {catalog : PublicPeerCatalog} (h : catalog.Consistent)
    {result : Published} (haction : result.action.WellFormed)
    (hmanifest : result.manifest.document.WellFormed) (hreceipt : result.receipt.WellFormed) :
    (catalog.setPublished result).Consistent where
  action e he := by
    rcases mem_setItem he with hmem | rfl
    · exact h.action e hmem
    · exact haction
  manifest e he := by
    rcases mem_setItem he with hmem | rfl
    · exact h.manifest e hmem
    · exact hmanifest
  receipt e he := by
    rcases mem_setItem he with hmem | rfl
    · exact h.receipt e hmem
    · exact hreceipt
  digest e he := by
    rcases mem_setItem he with hmem | rfl
    · exact h.digest e hmem
    · rfl

/-- A call keeps the catalog consistent. -/
theorem Consistent.perform {catalog : PublicPeerCatalog} (h : catalog.Consistent)
    {call : CatalogCall} (hcall : call.WellFormed) : (catalog.perform call).Consistent := by
  cases call with
  | publish store action manifest receipt classification =>
    obtain ⟨haction, hmanifest, hreceipt⟩ := hcall
    simp only [PublicPeerCatalog.perform, publish]
    cases hcheck : catalog.checkPublication store action manifest receipt classification with
    | error e => exact h
    | ok result =>
      obtain ⟨rfl, rfl, rfl⟩ := documents_of_checkPublication hcheck
      exact h.setPublished haction hmanifest hreceipt
  | withdraw resultDigest =>
    have hmem : ∀ e ∈ (catalog.withdraw resultDigest).2.published.entries,
        e ∈ catalog.published.entries := fun e he => (List.mem_filter.mp he).1
    exact ⟨fun e he => h.action e (hmem e he), fun e he => h.manifest e (hmem e he),
      fun e he => h.receipt e (hmem e he), fun e he => h.digest e (hmem e he)⟩

/-- So does a run of calls. -/
theorem Consistent.performAll {catalog : PublicPeerCatalog} (h : catalog.Consistent)
    {calls : List CatalogCall} (hcalls : ∀ call ∈ calls, call.WellFormed) :
    (catalog.performAll calls).Consistent := by
  induction calls generalizing catalog with
  | nil => exact h
  | cons call rest ih =>
    rw [List.forall_mem_cons] at hcalls
    exact ih (h.perform hcalls.1) hcalls.2

omit [Ed25519] in
/-- A new catalog is consistent. -/
theorem consistent_of_published_eq_empty {catalog : PublicPeerCatalog}
    (h : catalog.published = .empty) : catalog.Consistent := by
  constructor
  all_goals
    rw [h]
    intro e he
    cases he

/-! ### Bundles -/

omit [Sha256] [Ed25519] in
/-- All values are there just if there is one for each. -/
theorem mapM_id_eq_some {α : Type} {values : List (Option α)} {found : List α} :
    values.mapM id = some found ↔ values = found.map some := by
  induction values generalizing found with
  | nil =>
    cases found with
    | nil => simp
    | cons a rest => simp
  | cons value rest ih =>
    rw [List.mapM_cons, id_eq]
    cases value with
    | none => cases found <;> simp
    | some a =>
      cases found with
      | nil =>
        cases rest.mapM id <;> simp
      | cons b found =>
        simp only [Option.bind_eq_bind, Option.bind_some, Option.pure_def, Option.bind_eq_some_iff,
          Option.some.injEq, List.cons.injEq, List.map_cons, ← ih]
        constructor
        · rintro ⟨more, hmore, rfl, rfl⟩
          exact ⟨rfl, hmore⟩
        · rintro ⟨rfl, hmore⟩
          exact ⟨found, hmore, rfl, rfl⟩

omit [Ed25519] in
/-- A bundle is of a published result, with all of its artifacts. -/
theorem exists_published_of_fetchBundle {catalog : PublicPeerCatalog} {store : Store}
    {resultDigest : Str} {bundle : FederationBundle}
    (h : catalog.fetchBundle store resultDigest = .ok (some bundle)) :
    ∃ result, catalog.published.get? resultDigest = some result ∧
      bundle.manifest = result.manifest.document ∧ bundle.receipt = result.receipt ∧
      List.Forall₂ (fun descriptor artifact => descriptor.name = artifact.1 ∧
          store.getBlob descriptor.digest = .ok (some artifact.2))
        result.manifest.fields.artifacts bundle.artifacts.entries := by
  unfold fetchBundle at h
  split at h
  · cases h
  next result hresult =>
    obtain ⟨blobs, hblobs, h⟩ := Except.bind_eq_ok.mp h
    have hsome := Except.ok.inj h
    obtain ⟨artifacts, hartifacts, rfl⟩ := Option.map_eq_some_iff.mp hsome
    have hrelated : List.Forall₂ (fun descriptor artifact => descriptor.name = artifact.1 ∧
        store.getBlob descriptor.digest = .ok (some artifact.2))
        result.manifest.fields.artifacts artifacts := by
      have hpairs := Except.mapM_eq_ok.mp hblobs
      rw [mapM_id_eq_some.mp hartifacts, List.forall₂_map_right_iff] at hpairs
      refine hpairs.imp fun descriptor artifact h => ?_
      obtain ⟨blob, hblob, h⟩ := Except.bind_eq_ok.mp h
      obtain ⟨data, rfl, hdata⟩ := Option.map_eq_some_iff.mp (Except.ok.inj h)
      subst hdata
      exact ⟨rfl, mapError_eq_ok.mp hblob⟩
    refine ⟨result, hresult, rfl, rfl, ?_⟩
    have hnames : result.manifest.fields.artifacts.map ArtifactDescriptor.name =
        artifacts.map Prod.fst := by
      rw [← List.forall₂_eq_eq_eq, List.forall₂_map_left_iff, List.forall₂_map_right_iff]
      exact hrelated.imp fun _ _ h => h.1
    rw [Dict.entries_ofPairs (hnames ▸ result.manifest.nodup_names)]
    exact hrelated

omit [Ed25519] in
/-- The names of the artifacts are those of the descriptors. -/
theorem names_of_fetchBundle {result : Published} {store : Store} {artifacts : Dict Str Bytes}
    (h : List.Forall₂ (fun descriptor artifact => descriptor.name = artifact.1 ∧
      store.getBlob descriptor.digest = .ok (some artifact.2))
      result.manifest.fields.artifacts artifacts.entries) :
    artifacts.entries.map Prod.fst =
      result.manifest.fields.artifacts.map ArtifactDescriptor.name := by
  symm
  rw [← List.forall₂_eq_eq_eq, List.forall₂_map_left_iff, List.forall₂_map_right_iff]
  exact h.imp fun _ _ hrelated => hrelated.1

end PublicPeerCatalog

/-! ### Names of artifacts -/

omit [Sha256] in
/-- A name that passes is not empty, and canonical JSON stores it. -/
theorem name_of_validateArtifact {names : List Str} {artifact : Value}
    {descriptor : ArtifactDescriptor} (hstorable : Storable artifact)
    (h : validateArtifact names artifact = .ok descriptor) :
    descriptor.name ≠ [] ∧ Clean descriptor.name := by
  obtain ⟨-, h⟩ := Except.check_eq_ok.mp h
  obtain ⟨name, hname, h⟩ := Except.bind_eq_ok.mp h
  obtain ⟨mediaType, -, h⟩ := Except.bind_eq_ok.mp h
  obtain ⟨-, h⟩ := Except.check_eq_ok.mp h
  obtain ⟨digest, -, h⟩ := Except.bind_eq_ok.mp h
  have hdescriptor : descriptor.name = name := by
    split at h
    · split_ifs at h
      · cases h
        rfl
      · cases h
    · cases h
  rw [hdescriptor]
  have hstored := (hstorable.get (lit "name")).inProfile
  unfold requireNonemptyString at hname
  split at hname
  next text htext =>
    split_ifs at hname with hempty
    · cases hname
    · cases hname
      rw [htext] at hstored
      cases hstored with
      | str hclean => exact ⟨hempty, hclean⟩
  next => cases hname

omit [Sha256] in
theorem names_of_validateArtifacts {items : List Value} (hstorable : ∀ v ∈ items, Storable v) :
    ∀ {names : List Str} {descriptors : List ArtifactDescriptor},
      validateArtifacts names items = .ok descriptors →
      ∀ descriptor ∈ descriptors, descriptor.name ≠ [] ∧ Clean descriptor.name := by
  induction items with
  | nil =>
    rintro names _ ⟨⟩
    simp
  | cons artifact rest ih =>
    rw [List.forall_mem_cons] at hstorable
    intro names _ h
    obtain ⟨descriptor, hfirst, h⟩ := Except.bind_eq_ok.mp h
    obtain ⟨descriptors, hrest, ⟨⟩⟩ := Except.bind_eq_ok.mp h
    exact List.forall_mem_cons.mpr
      ⟨name_of_validateArtifact hstorable.1 hfirst, ih hstorable.2 hrest⟩

omit [Sha256] in
/-- The names of the artifacts of a manifest are not empty, and canonical JSON stores them. -/
theorem name_of_manifest {manifest : Manifest} (hwf : manifest.document.WellFormed) :
    ∀ descriptor ∈ manifest.fields.artifacts, descriptor.name ≠ [] ∧ Clean descriptor.name := by
  have hchecks := validateManifest_checks manifest.valid
  have hstorable : Storable manifest.document := ⟨hchecks.inProfile, hwf⟩
  obtain ⟨items, hitems, hartifacts⟩ := Except.bind_eq_ok.mp hchecks.artifacts
  refine names_of_validateArtifacts (fun v hv => ?_) hartifacts
  have hlisted := hstorable.get (lit "artifacts")
  unfold requireList at hitems
  split at hitems
  next listed hlist =>
    cases hitems
    rw [hlist] at hlisted
    exact storable_list.mp hlisted v hv
  next => cases hitems

end OnceMesh.Federation
