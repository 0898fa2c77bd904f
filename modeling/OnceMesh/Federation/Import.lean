import OnceMesh.Federation.Availability
import OnceMesh.Federation.CacheStore

/-!
# Import from a peer

`importFromPeer` verifies what a peer advertises, selects the first entry with the digest of the
action, fetches its bundle, and checks the bundle before it enters the cache. An import that is
refused is a miss with a reason. `AvailabilityAccepted`, `EntryAccepted` and `BundleAccepted` say
what is asked of each (`admission_eq_ok`).
-/

namespace OnceMesh.Federation

open Python

/-! ### Configuration -/

/-- `FederationPeerConfig`, as its constructor leaves it; the constructor also refuses a receipt key
that is not listed under its digest. -/
structure FederationPeerConfig where
  peerId : Str
  availabilityPublicKey : Bytes
  receiptPublicKeys : Dict Str Bytes
  trustedProducers : List Str
  allowedOperations : List Str
  maxEntries : ℕ
  maxArtifactBytes : ℕ
  maxTransferBytes : ℕ
  maxAvailabilityAgeSeconds : ℕ
  maxFutureClockSkewSeconds : ℕ
  retentionSeconds : ℕ
  peer : peerId ≠ [] ∧ availabilityPublicKey.length = 32
  entriesRange : 1 ≤ maxEntries ∧ maxEntries ≤ 100000
  artifactRange : 1 ≤ maxArtifactBytes ∧ maxArtifactBytes ≤ 1000000000
  transferRange : 1 ≤ maxTransferBytes ∧ maxTransferBytes ≤ 1000000000
  ageRange : 1 ≤ maxAvailabilityAgeSeconds ∧ maxAvailabilityAgeSeconds ≤ 86400
  skewRange : maxFutureClockSkewSeconds ≤ 3600
  retentionRange : 1 ≤ retentionSeconds ∧ retentionSeconds ≤ 31536000
  nonempty : trustedProducers ≠ [] ∧ allowedOperations ≠ []
  producers : ∀ producer ∈ trustedProducers, producer ≠ []
  operations : ∀ operation ∈ allowedOperations,
    0x2F ∈ operation ∧ operation.head? ≠ some 0x2F ∧ operation.getLast? ≠ some 0x2F

/-- `FederationPeer`. -/
structure FederationPeer where
  availability : DateTime → Except PyError Value
  fetchBundle : Str → Except PyError (Option FederationBundle)

/-- `FederationImportOutcome`. -/
structure ImportOutcome where
  hit : Bool
  reason : String
  resultDigest : Option Str
  bytesImported : ℕ
  deriving DecidableEq

/-- `FederationImportOutcome(False, reason)`. -/
def ImportOutcome.miss (reason : String) : ImportOutcome := ⟨false, reason, none, 0⟩

/-! ### Checks -/

/-- Why an import stops before it writes. -/
inductive ImportStop where
  | miss (reason : String)
  | raised (error : PyError)

/-- A call whose exceptions are not handled here. -/
def raising {α : Type} (x : Except PyError α) : Except ImportStop α := x.mapError .raised

/-- `if condition: return FederationImportOutcome(False, reason)`. -/
def missIf (condition : Bool) (reason : String) : Except ImportStop Unit :=
  if condition then .error (.miss reason) else .ok ()

/-- `name/version`. -/
def AvailabilityEntry.operationKey (entry : AvailabilityEntry) : Str :=
  entry.operationName ++ lit "/" ++ entry.operationVersion

/-- `entry["operation"] == action["operation"]`. -/
def AvailabilityEntry.isOperationOf (entry : AvailabilityEntry) (action : Value) : Bool :=
  (action.get (lit "operation")).eqStrDict
    [(lit "name", entry.operationName), (lit "version", entry.operationVersion)]

/-- `except (ValueError, TypeError)` of the first `try`. -/
def availabilityInvalid : PyError → ImportStop
  | .typeError _ => .miss "availability_invalid"
  | e => if e.isValueError then .miss "availability_invalid" else .raised e

/-- `except (ValueError, TypeError, KeyError)` of the second `try`. -/
def bundleInvalid : ImportStop → ImportStop
  | .raised e => if isVerificationError e then .miss "bundle_invalid" else .raised e
  | stop => stop

/-- `set(artifacts) == {item["name"] for item in descriptors}`. -/
def sameNames (artifacts : Dict Str Bytes) (descriptors : List ArtifactDescriptor) : Bool :=
  artifacts.entries.all (fun e => e.1 ∈ descriptors.map ArtifactDescriptor.name) &&
    descriptors.all fun descriptor => descriptor.name ∈ artifacts.entries.map Prod.fst

/-- `_validate_federation_result`. -/
def validateFederationResult (manifest : Value) : Except PyError Manifest := do
  let validated ← Manifest.ofValue manifest
  raiseIf ((manifest.get (lit "spec_version")).eqStr (lit "oncemesh.result/v1"))
    "federation v0 does not support result v1 lineage"
  pure validated

section

variable [Sha256] [LocalZone] [Ed25519]

/-- The body of the first `try`. -/
def fetchAvailability (peer : FederationPeer) (observedAt : DateTime) :
    Except PyError (Value × AvailabilityFields) := do
  let availability ← peer.availability observedAt
  let fields ← validateAvailability availability true
  pure (availability, fields)

/-- What the peer advertises, when it is valid, verified, not too long and in time. -/
def readAvailability (peer : FederationPeer) (config : FederationPeerConfig)
    (observedAt : DateTime) : Except ImportStop AvailabilityFields := do
  let (availability, fields) ← (fetchAvailability peer observedAt).mapError availabilityInvalid
  missIf (config.maxEntries < fields.entries.length) "availability_limit_exceeded"
  let verified ← raising
    (verifyAvailability availability config.peerId config.availabilityPublicKey)
  missIf (!verified) "availability_untrusted"
  let oldest ← raising (observedAt.addSeconds (-config.maxAvailabilityAgeSeconds))
  missIf (fields.generatedAt < oldest) "availability_expired"
  let newest ← raising (observedAt.addSeconds config.maxFutureClockSkewSeconds)
  missIf (newest < fields.generatedAt) "availability_from_future"
  pure fields

/-- The entry whose bundle is fetched: the first one with the digest of the action. -/
def selectEntry (action : Value) (config : FederationPeerConfig) (requestedDigest : Str)
    (entries : List AvailabilityEntry) : Except ImportStop AvailabilityEntry :=
  match entries.find? fun entry => entry.actionDigest = requestedDigest with
  | none => .error (.miss "not_available")
  | some entry => do
    missIf (!entry.isOperationOf action || entry.operationKey ∉ config.allowedOperations)
      "operation_denied"
    missIf (config.maxTransferBytes < entry.artifactBytes) "transfer_limit_exceeded"
    pure entry

/-- The loop over the descriptors; `total` is the number of octets so far. -/
def checkArtifacts (config : FederationPeerConfig) (artifacts : Dict Str Bytes) (total : ℕ) :
    List ArtifactDescriptor → Except ImportStop ℕ
  | [] => .ok total
  | descriptor :: rest =>
    match artifacts.get? descriptor.name with
    | none => .error (.raised (.keyError descriptor.name))
    | some blob => do
      missIf (config.maxArtifactBytes < blob.length) "artifact_limit_exceeded"
      raising (raiseIf (blob.length ≠ descriptor.size || digestBytes blob ≠ descriptor.digest)
        "artifact integrity failure")
      missIf (config.maxTransferBytes < total + blob.length) "transfer_limit_exceeded"
      checkArtifacts config artifacts (total + blob.length) rest

/-- The key identifier of a receipt that must be signed. -/
def requireKeyId (fields : ReceiptFields) : Except PyError Str :=
  match fields.signature with
  | some (keyId, _) => .ok keyId
  | none => .error (.typeError (lit "'NoneType' object is not subscriptable"))

/-- The body of the second `try`: the number of octets of a bundle that passes. -/
def checkBundle (config : FederationPeerConfig) (requestedDigest : Str) (entry : AvailabilityEntry)
    (bundle : FederationBundle) : Except ImportStop ℕ := do
  let manifest ← raising (validateFederationResult bundle.manifest)
  let receipt ← raising (validateReceipt bundle.receipt true)
  raising (raiseIf (manifest.digest ≠ entry.resultDigest) "result digest mismatch")
  raising (raiseIf (manifest.fields.actionDigest ≠ requestedDigest) "action digest mismatch")
  missIf (manifest.fields.producer ∉ config.trustedProducers) "producer_untrusted"
  let keyId ← raising (requireKeyId receipt)
  match config.receiptPublicKeys.get? keyId with
  | none => .error (.miss "receipt_key_untrusted")
  | some receiptKey =>
    let verified ← raising (verifyReceiptForManifest bundle.receipt manifest receiptKey)
    missIf (!verified) "receipt_invalid"
    raising (raiseIf (!sameNames bundle.artifacts manifest.fields.artifacts)
      "artifact names mismatch")
    let total ← checkArtifacts config bundle.artifacts 0 manifest.fields.artifacts
    raising (raiseIf (total ≠ entry.artifactBytes) "advertised byte count mismatch")
    pure total

/-- `import_from_peer` up to the import: the entry, its bundle, and how many octets it has. -/
def admission (action : Value) (peer : FederationPeer) (config : FederationPeerConfig)
    (observedAt : DateTime) :
    Except ImportStop (AvailabilityEntry × FederationBundle × ℕ) := do
  raising (validateAction action)
  let fields ← readAvailability peer config observedAt
  let requestedDigest ← raising (actionDigest action)
  let entry ← selectEntry action config requestedDigest fields.entries
  match ← raising (peer.fetchBundle entry.resultDigest) with
  | none => .error (.miss "bundle_unavailable")
  | some bundle =>
    let total ← (checkBundle config requestedDigest entry bundle).mapError bundleInvalid
    pure (entry, bundle, total)

/-- What an import that stops returns. -/
def ImportStop.outcome : ImportStop → Stateful PyError FederationCacheStore ImportOutcome
  | .miss reason => pure (.miss reason)
  | .raised e => Stateful.ofExcept (.error e)

/-- The end of `import_from_peer`: an admitted bundle enters the cache. -/
def importAdmitted (config : FederationPeerConfig) (observedAt : DateTime)
    (entry : AvailabilityEntry) (bundle : FederationBundle) (total : ℕ) :
    Stateful PyError FederationCacheStore ImportOutcome := do
  let retainUntil ← Stateful.ofExcept (observedAt.addSeconds config.retentionSeconds)
  FederationCacheStore.importBundle bundle retainUntil
  pure ⟨true, "imported", some entry.resultDigest, total⟩

/-- `import_from_peer`. -/
def importFromPeer (action : Value) (peer : FederationPeer) (config : FederationPeerConfig)
    (observedAt : DateTime) : Stateful PyError FederationCacheStore ImportOutcome :=
  match admission action peer config observedAt with
  | .error stop => stop.outcome
  | .ok (entry, bundle, total) => importAdmitted config observedAt entry bundle total

end

/-! ### What is accepted -/

@[simp]
theorem raising_eq_ok {α : Type} {x : Except PyError α} {a : α} :
    raising x = .ok a ↔ x = .ok a := by
  cases x <;> simp [raising, Except.mapError]

@[simp]
theorem missIf_eq_ok {condition : Bool} {reason : String} {u : Unit} :
    missIf condition reason = .ok u ↔ condition = false := by
  cases condition <;> simp [missIf]

theorem mapError_eq_ok {ε ε' α : Type} {x : Except ε α} {f : ε → ε'} {a : α} :
    x.mapError f = .ok a ↔ x = .ok a := by
  cases x <;> simp [Except.mapError]

/-- The result is not of a version that has lineage. -/
def IsFederated (manifest : Manifest) : Prop :=
  manifest.document.get (lit "spec_version") ≠ .str (lit "oncemesh.result/v1")

theorem validateFederationResult_eq_ok {value : Value} {manifest : Manifest} :
    validateFederationResult value = .ok manifest ↔
      manifest.document = value ∧ IsFederated manifest := by
  rw [validateFederationResult, Except.bind_eq_ok]
  constructor
  · rintro ⟨validated, hvalid, h⟩
    obtain ⟨hversion, h⟩ := Except.check_eq_ok.mp h
    cases h
    have hdocument := Manifest.ofValue_eq_ok.mp hvalid
    refine ⟨hdocument, ?_⟩
    rw [IsFederated, hdocument, ne_eq, ← Value.eqStr_eq_true, Bool.not_eq_true]
    exact raiseIf_eq_ok.mp hversion
  · rintro ⟨rfl, hversion⟩
    refine ⟨manifest, Manifest.ofValue_eq_ok.mpr rfl, Except.check_eq_ok.mpr ⟨?_, rfl⟩⟩
    rw [raiseIf_eq_ok, ← Bool.not_eq_true, Value.eqStr_eq_true]
    exact hversion

theorem requireKeyId_eq_ok {fields : ReceiptFields} {keyId : Str} :
    requireKeyId fields = .ok keyId ↔ ∃ signature, fields.signature = some (keyId, signature) := by
  rw [requireKeyId]
  cases fields.signature with
  | none => simp
  | some signature => simp [Prod.ext_iff]

theorem sameNames_eq_true {artifacts : Dict Str Bytes} {descriptors : List ArtifactDescriptor} :
    sameNames artifacts descriptors = true ↔ ∀ name,
      name ∈ artifacts.entries.map Prod.fst ↔ name ∈ descriptors.map ArtifactDescriptor.name := by
  simp only [sameNames, Bool.and_eq_true, List.all_eq_true, decide_eq_true_eq]
  constructor
  · rintro ⟨hleft, hright⟩ name
    constructor
    · intro hname
      obtain ⟨e, he, rfl⟩ := List.mem_map.mp hname
      exact hleft e he
    · intro hname
      obtain ⟨descriptor, hdescriptor, rfl⟩ := List.mem_map.mp hname
      exact hright descriptor hdescriptor
  · intro h
    exact ⟨fun e he => (h e.1).mp (List.mem_map_of_mem he),
      fun descriptor hdescriptor => (h descriptor.name).mpr (List.mem_map_of_mem hdescriptor)⟩

/-- The entry is for the operation of the action, and the configuration admits it. -/
structure EntryAccepted (config : FederationPeerConfig) (action : Value)
    (entry : AvailabilityEntry) : Prop where
  operation : entry.isOperationOf action = true
  allowed : entry.operationKey ∈ config.allowedOperations
  size : entry.artifactBytes ≤ config.maxTransferBytes

theorem selectEntry_eq_ok {action : Value} {config : FederationPeerConfig} {requestedDigest : Str}
    {entries : List AvailabilityEntry} {entry : AvailabilityEntry} :
    selectEntry action config requestedDigest entries = .ok entry ↔
      (entries.find? fun entry => entry.actionDigest = requestedDigest) = some entry ∧
        EntryAccepted config action entry := by
  rw [selectEntry]
  cases entries.find? fun entry => entry.actionDigest = requestedDigest with
  | none => simp
  | some first =>
    simp only [Except.check_eq_ok, missIf_eq_ok, Bool.or_eq_false_iff, Bool.not_eq_false',
      decide_eq_false_iff_not, not_not, not_lt, Option.some.injEq]
    constructor
    · rintro ⟨⟨hoperation, hallowed⟩, hsize, h⟩
      cases h
      exact ⟨rfl, hoperation, hallowed, hsize⟩
    · rintro ⟨rfl, hoperation, hallowed, hsize⟩
      exact ⟨⟨hoperation, hallowed⟩, hsize, rfl⟩

section

variable [Sha256]

/-- The blob of a descriptor is there and is what the descriptor says. -/
def ArtifactAccepted (config : FederationPeerConfig) (artifacts : Dict Str Bytes)
    (descriptor : ArtifactDescriptor) : Prop :=
  ∃ blob, artifacts.get? descriptor.name = some blob ∧ blob.length ≤ config.maxArtifactBytes ∧
    blob.length = descriptor.size ∧ digestBytes blob = descriptor.digest

/-- The sum of the sizes of descriptors. -/
def totalSize (descriptors : List ArtifactDescriptor) : ℕ :=
  (descriptors.map ArtifactDescriptor.size).sum

/-- The loop passes when every artifact does; its limit is one on the sum, since sums grow. -/
theorem checkArtifacts_eq_ok {config : FederationPeerConfig} {artifacts : Dict Str Bytes}
    {descriptors : List ArtifactDescriptor} {total result : ℕ}
    (hlimit : result ≤ config.maxTransferBytes) :
    checkArtifacts config artifacts total descriptors = .ok result ↔
      (∀ descriptor ∈ descriptors, ArtifactAccepted config artifacts descriptor) ∧
        result = total + totalSize descriptors := by
  induction descriptors generalizing total with
  | nil => simp [checkArtifacts, totalSize, eq_comm]
  | cons descriptor rest ih =>
    rw [checkArtifacts, List.forall_mem_cons, totalSize, List.map_cons, List.sum_cons,
      ← totalSize, ← Nat.add_assoc]
    constructor
    · intro h
      split at h
      · cases h
      · next blob hblob =>
        simp only [Except.check_eq_ok, missIf_eq_ok, raising_eq_ok, raiseIf_eq_ok,
          decide_eq_false_iff_not, not_lt, Bool.or_eq_false_iff, ne_eq, not_not] at h
        obtain ⟨hmax, ⟨hsize, hdigest⟩, -, h⟩ := h
        obtain ⟨hrest, hresult⟩ := ih.mp h
        rw [hsize] at hresult
        exact ⟨⟨⟨blob, hblob, hmax, hsize, hdigest⟩, hrest⟩, hresult⟩
    · rintro ⟨⟨⟨blob, hblob, hmax, hsize, hdigest⟩, hrest⟩, hresult⟩
      rw [hblob]
      simp only [Except.check_eq_ok, missIf_eq_ok, raising_eq_ok, raiseIf_eq_ok,
        decide_eq_false_iff_not, not_lt, Bool.or_eq_false_iff, ne_eq, not_not]
      refine ⟨hmax, ⟨hsize, hdigest⟩, by omega, ih.mpr ⟨hrest, by omega⟩⟩

section

variable [Ed25519]

/-- The bundle is the advertised one, from a trusted producer, with a receipt under a configured
key, and complete. -/
structure BundleAccepted (config : FederationPeerConfig) (requestedDigest : Str)
    (entry : AvailabilityEntry) (bundle : FederationBundle) (manifest : Manifest) : Prop where
  document : manifest.document = bundle.manifest
  version : IsFederated manifest
  digest : manifest.digest = entry.resultDigest
  actionDigest : manifest.fields.actionDigest = requestedDigest
  producer : manifest.fields.producer ∈ config.trustedProducers
  receipt : ∃ fields keyId signature receiptKey, validateReceipt bundle.receipt true = .ok fields ∧
    fields.signature = some (keyId, signature) ∧
    config.receiptPublicKeys.get? keyId = some receiptKey ∧
    verifyReceiptForManifest bundle.receipt manifest receiptKey = .ok true
  names : ∀ name, name ∈ bundle.artifacts.entries.map Prod.fst ↔
    name ∈ manifest.fields.artifacts.map ArtifactDescriptor.name
  artifacts : ∀ descriptor ∈ manifest.fields.artifacts,
    ArtifactAccepted config bundle.artifacts descriptor
  total : totalSize manifest.fields.artifacts = entry.artifactBytes

/-- The bundle passes exactly when it is accepted. -/
theorem checkBundle_eq_ok {config : FederationPeerConfig} {requestedDigest : Str}
    {entry : AvailabilityEntry} {bundle : FederationBundle} {total : ℕ}
    (hlimit : entry.artifactBytes ≤ config.maxTransferBytes) :
    checkBundle config requestedDigest entry bundle = .ok total ↔
      total = entry.artifactBytes ∧
        ∃ manifest, BundleAccepted config requestedDigest entry bundle manifest := by
  simp only [checkBundle, Except.bind_eq_ok, raising_eq_ok, validateFederationResult_eq_ok,
    requireKeyId_eq_ok, raiseIf_eq_ok, missIf_eq_ok, decide_eq_false_iff_not, not_not, ne_eq]
  constructor
  · rintro ⟨manifest, ⟨hdocument, hversion⟩, receipt, hreceipt, ⟨⟩, hdigest, ⟨⟩, haction, ⟨⟩,
      hproducer, keyId, ⟨signature, hsignature⟩, h⟩
    split at h
    · cases h
    · next receiptKey hreceiptKey =>
      simp only [Except.bind_eq_ok, raising_eq_ok, missIf_eq_ok, raiseIf_eq_ok,
        Bool.not_eq_false', sameNames_eq_true, decide_eq_false_iff_not, not_not] at h
      obtain ⟨verified, hverified, ⟨⟩, rfl, ⟨⟩, hnames, total', htotal, ⟨⟩, rfl, h⟩ := h
      cases h
      obtain ⟨hartifacts, hsum⟩ := (checkArtifacts_eq_ok hlimit).mp htotal
      refine ⟨rfl, manifest, hdocument, hversion, hdigest, haction, hproducer,
        ⟨receipt, keyId, signature, receiptKey, hreceipt, hsignature, hreceiptKey, hverified⟩,
        hnames, hartifacts, ?_⟩
      rw [hsum, Nat.zero_add]
  · rintro ⟨rfl, manifest, hdocument, hversion, hdigest, haction, hproducer,
      ⟨receipt, keyId, signature, receiptKey, hreceipt, hsignature, hreceiptKey, hverified⟩,
      hnames, hartifacts, hsum⟩
    refine ⟨manifest, ⟨hdocument, hversion⟩, receipt, hreceipt, (), hdigest, (), haction, (),
      hproducer, keyId, ⟨signature, hsignature⟩, ?_⟩
    simp only [hreceiptKey, Except.bind_eq_ok, raising_eq_ok, missIf_eq_ok, raiseIf_eq_ok,
      Bool.not_eq_false', sameNames_eq_true, decide_eq_false_iff_not, not_not]
    exact ⟨true, hverified, (), rfl, (), hnames, entry.artifactBytes,
      (checkArtifacts_eq_ok hlimit).mpr ⟨hartifacts, by rw [hsum, Nat.zero_add]⟩, (), rfl, rfl⟩

end

end

section

variable [Sha256] [LocalZone] [Ed25519]

/-- The availability manifest is valid, verified, not too long and in time. -/
structure AvailabilityAccepted (config : FederationPeerConfig) (observedAt : DateTime)
    (availability : Value) (fields : AvailabilityFields) : Prop where
  valid : validateAvailability availability true = .ok fields
  limit : fields.entries.length ≤ config.maxEntries
  verified : verifyAvailability availability config.peerId config.availabilityPublicKey = .ok true
  recent : ∃ oldest, observedAt.addSeconds (-config.maxAvailabilityAgeSeconds) = .ok oldest ∧
    oldest ≤ fields.generatedAt
  notAhead : ∃ newest, observedAt.addSeconds config.maxFutureClockSkewSeconds = .ok newest ∧
    fields.generatedAt ≤ newest

theorem readAvailability_eq_ok {peer : FederationPeer} {config : FederationPeerConfig}
    {observedAt : DateTime} {fields : AvailabilityFields} :
    readAvailability peer config observedAt = .ok fields ↔ ∃ availability,
      peer.availability observedAt = .ok availability ∧
        AvailabilityAccepted config observedAt availability fields := by
  rw [readAvailability, Except.bind_eq_ok]
  constructor
  · rintro ⟨⟨availability, read⟩, hread, h⟩
    simp only [Except.bind_eq_ok, missIf_eq_ok, raising_eq_ok, decide_eq_false_iff_not, not_lt,
      Bool.not_eq_false'] at h
    obtain ⟨-, hlimit, verified, hverified, -, rfl, oldest, holdest, -, hrecent, newest, hnewest,
      -, hahead, h⟩ := h
    cases h
    obtain ⟨availability', hpeer, hread⟩ := Except.bind_eq_ok.mp (mapError_eq_ok.mp hread)
    obtain ⟨fields', hvalid, hread⟩ := Except.bind_eq_ok.mp hread
    cases hread
    exact ⟨availability, hpeer, hvalid, hlimit, hverified, ⟨oldest, holdest, hrecent⟩, newest,
      hnewest, hahead⟩
  · rintro ⟨availability, hpeer, hvalid, hlimit, hverified, ⟨oldest, holdest, hrecent⟩, newest,
      hnewest, hahead⟩
    refine ⟨(availability, fields), ?_, ?_⟩
    · rw [mapError_eq_ok, fetchAvailability, hpeer, Except.ok_bind, hvalid]
      rfl
    · simp only [Except.bind_eq_ok, missIf_eq_ok, raising_eq_ok, decide_eq_false_iff_not, not_lt,
        Bool.not_eq_false']
      exact ⟨(), hlimit, true, hverified, (), rfl, oldest, holdest, (), hrecent, newest, hnewest,
        (), hahead, rfl⟩

/-- What has passed when there is something to import. -/
theorem admission_eq_ok {action : Value} {peer : FederationPeer} {config : FederationPeerConfig}
    {observedAt : DateTime} {entry : AvailabilityEntry} {bundle : FederationBundle} {total : ℕ} :
    admission action peer config observedAt = .ok (entry, bundle, total) ↔
      ∃ availability fields requestedDigest manifest,
        peer.availability observedAt = .ok availability ∧
        AvailabilityAccepted config observedAt availability fields ∧
        actionDigest action = .ok requestedDigest ∧
        (fields.entries.find? fun entry => entry.actionDigest = requestedDigest) = some entry ∧
        EntryAccepted config action entry ∧
        peer.fetchBundle entry.resultDigest = .ok (some bundle) ∧
        BundleAccepted config requestedDigest entry bundle manifest ∧
        total = entry.artifactBytes := by
  simp only [admission, Except.bind_eq_ok, raising_eq_ok, readAvailability_eq_ok, selectEntry_eq_ok]
  constructor
  · rintro ⟨⟨⟩, -, fields, ⟨availability, hpeer, haccepted⟩, requestedDigest, hdigest, entry',
      ⟨hfirst, hentry⟩, fetched, hfetch, h⟩
    cases fetched with
    | none => cases h
    | some bundle' =>
      obtain ⟨total', hcheck, h⟩ := Except.bind_eq_ok.mp h
      cases h
      obtain ⟨htotal, manifest, hbundle⟩ :=
        (checkBundle_eq_ok hentry.size).mp (mapError_eq_ok.mp hcheck)
      exact ⟨availability, fields, requestedDigest, manifest, hpeer, haccepted, hdigest, hfirst,
        hentry, hfetch, hbundle, htotal⟩
  · rintro ⟨availability, fields, requestedDigest, manifest, hpeer, haccepted, hdigest, hfirst,
      hentry, hfetch, hbundle, htotal⟩
    obtain ⟨haction, -⟩ := Except.check_eq_ok.mp hdigest
    refine ⟨(), haction, fields, ⟨availability, hpeer, haccepted⟩, requestedDigest, hdigest, entry,
      ⟨hfirst, hentry⟩, some bundle, hfetch, ?_⟩
    have hcheck := (checkBundle_eq_ok hentry.size).mpr ⟨htotal, manifest, hbundle⟩
    exact Except.bind_eq_ok.mpr ⟨total, mapError_eq_ok.mpr hcheck, rfl⟩

omit [LocalZone] [Ed25519] in
/-- A complete bundle enters the cache when the end of its lease is a time. -/
theorem importAdmitted_apply {config : FederationPeerConfig} {observedAt retainUntil : DateTime}
    {entry : AvailabilityEntry} {bundle : FederationBundle} {manifest : Manifest}
    (hdocument : manifest.document = bundle.manifest)
    (hcomplete : ∀ descriptor ∈ manifest.fields.artifacts,
      ∃ blob, bundle.artifacts.get? descriptor.name = some blob)
    (hlease : observedAt.addSeconds config.retentionSeconds = .ok retainUntil) (total : ℕ)
    (store : FederationCacheStore) :
    importAdmitted config observedAt entry bundle total store =
      (.ok ⟨true, "imported", some entry.resultDigest, total⟩,
        FederationCacheStore.imported bundle manifest retainUntil store) := by
  rw [importAdmitted, hlease, Stateful.bind_apply_of_ok (Stateful.ofExcept_apply _ _),
    Stateful.bind_apply_of_ok
      (FederationCacheStore.importBundle_apply hdocument hcomplete retainUntil store),
    Stateful.pure_apply]

/-- An admitted bundle is imported when the end of its lease is a time. -/
theorem importFromPeer_of_admission {action : Value} {peer : FederationPeer}
    {config : FederationPeerConfig} {observedAt retainUntil : DateTime} {entry : AvailabilityEntry}
    {bundle : FederationBundle} {total : ℕ}
    (hadmission : admission action peer config observedAt = .ok (entry, bundle, total))
    (hlease : observedAt.addSeconds config.retentionSeconds = .ok retainUntil)
    (store : FederationCacheStore) :
    ∃ manifest : Manifest, manifest.document = bundle.manifest ∧
      importFromPeer action peer config observedAt store =
        (.ok ⟨true, "imported", some entry.resultDigest, total⟩,
          FederationCacheStore.imported bundle manifest retainUntil store) := by
  obtain ⟨_, _, _, manifest, -, -, -, -, -, -, hbundle, -⟩ := admission_eq_ok.mp hadmission
  refine ⟨manifest, hbundle.document, ?_⟩
  have hcomplete : ∀ descriptor ∈ manifest.fields.artifacts,
      ∃ blob, bundle.artifacts.get? descriptor.name = some blob := by
    intro descriptor hdescriptor
    obtain ⟨blob, hblob, -⟩ := hbundle.artifacts descriptor hdescriptor
    exact ⟨blob, hblob⟩
  rw [importFromPeer, hadmission]
  exact importAdmitted_apply hbundle.document hcomplete hlease total store

/-- There is a hit only for an admitted bundle. -/
theorem exists_admission_of_hit {action : Value} {peer : FederationPeer}
    {config : FederationPeerConfig}
    {observedAt : DateTime} {store store' : FederationCacheStore} {outcome : ImportOutcome}
    (h : importFromPeer action peer config observedAt store = (.ok outcome, store'))
    (hhit : outcome.hit = true) :
    ∃ entry bundle total retainUntil,
      admission action peer config observedAt = .ok (entry, bundle, total) ∧
      observedAt.addSeconds config.retentionSeconds = .ok retainUntil ∧
      outcome = ⟨true, "imported", some entry.resultDigest, total⟩ := by
  rw [importFromPeer] at h
  cases hadmission : admission action peer config observedAt with
  | error stop =>
    rw [hadmission] at h
    cases stop with
    | miss reason =>
      cases h
      cases hhit
    | raised e => cases h
  | ok admitted =>
    obtain ⟨entry, bundle, total⟩ := admitted
    rw [hadmission] at h
    change importAdmitted config observedAt entry bundle total store = _ at h
    rw [importAdmitted] at h
    obtain ⟨retainUntil, _, hlease, h⟩ := Stateful.bind_eq_ok.mp h
    obtain ⟨_, _, -, h⟩ := Stateful.bind_eq_ok.mp h
    cases h
    exact ⟨entry, bundle, total, retainUntil, rfl, (Prod.mk.inj hlease).1, rfl⟩

end

end OnceMesh.Federation
