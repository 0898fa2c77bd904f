import OnceMesh.Federation.Import

/-!
# The first entry decides

Several results of an action may be advertised at once. An import looks at the first of them and at
no other: it succeeds exactly when the first entry is good (`imports_iff_of_first`), so one that is
not masks the good ones after it.
-/

namespace OnceMesh.Federation

open Python

section

variable [Sha256] [LocalZone] [Ed25519]

/-- The entry is for the action, and the peer serves a bundle for it that passes every check. -/
structure GoodEntry (action : Value) (peer : FederationPeer) (config : FederationPeerConfig)
    (requestedDigest : Str) (entry : AvailabilityEntry) : Prop where
  actionDigest : entry.actionDigest = requestedDigest
  accepted : EntryAccepted config action entry
  served : ∃ bundle manifest, peer.fetchBundle entry.resultDigest = .ok (some bundle) ∧
    BundleAccepted config requestedDigest entry bundle manifest

/-- The import of the action succeeds, with a result. -/
def Imports (action : Value) (peer : FederationPeer) (config : FederationPeerConfig)
    (observedAt : DateTime) (store : FederationCacheStore) (resultDigest : Str) : Prop :=
  ∃ outcome store', importFromPeer action peer config observedAt store = (.ok outcome, store') ∧
    outcome.hit = true ∧ outcome.resultDigest = some resultDigest

/-- The selected entry is the first one for the action, and it is good. -/
theorem imports_iff {action availability : Value} {peer : FederationPeer}
    {config : FederationPeerConfig} {observedAt retainUntil : DateTime}
    {fields : AvailabilityFields}
    {requestedDigest resultDigest : Str} {store : FederationCacheStore}
    (hdigest : actionDigest action = .ok requestedDigest)
    (hpeer : peer.availability observedAt = .ok availability)
    (haccepted : AvailabilityAccepted config observedAt availability fields)
    (hlease : observedAt.addSeconds config.retentionSeconds = .ok retainUntil) :
    Imports action peer config observedAt store resultDigest ↔ ∃ entry,
      (fields.entries.find? fun entry => entry.actionDigest = requestedDigest) = some entry ∧
        entry.resultDigest = resultDigest ∧
        GoodEntry action peer config requestedDigest entry := by
  constructor
  · rintro ⟨outcome, store', himport, hhit, hresult⟩
    obtain ⟨entry, bundle, total, -, hadmission, -, rfl⟩ := exists_admission_of_hit himport hhit
    obtain ⟨availability', fields', requestedDigest', manifest, hpeer', haccepted', hdigest',
      hfirst, hentry, hfetch, hbundle, -⟩ := admission_eq_ok.mp hadmission
    -- the peer and the action are asked once each
    obtain rfl := Except.ok.inj (hpeer.symm.trans hpeer')
    obtain rfl := Except.ok.inj (hdigest.symm.trans hdigest')
    obtain rfl := Except.ok.inj (haccepted.valid.symm.trans haccepted'.valid)
    have hfor : entry.actionDigest = requestedDigest := by
      simpa using List.find?_some hfirst
    exact ⟨entry, hfirst, Option.some.inj hresult, hfor, hentry, bundle, manifest, hfetch, hbundle⟩
  · rintro ⟨entry, hfirst, rfl, -, hentry, bundle, manifest, hfetch, hbundle⟩
    have hadmission := admission_eq_ok.mpr ⟨availability, fields, requestedDigest, manifest, hpeer,
      haccepted, hdigest, hfirst, hentry, hfetch, hbundle, rfl⟩
    obtain ⟨_, -, himport⟩ := importFromPeer_of_admission hadmission hlease store
    exact ⟨_, _, himport, rfl, rfl⟩

/-- With a first entry for the action, the import succeeds exactly when that entry is good, with the
result of that entry; a good entry after it is of no consequence. -/
theorem imports_iff_of_first {action availability : Value} {peer : FederationPeer}
    {config : FederationPeerConfig} {observedAt retainUntil : DateTime}
    {fields : AvailabilityFields}
    {requestedDigest : Str} {entry : AvailabilityEntry} {store : FederationCacheStore}
    (hdigest : actionDigest action = .ok requestedDigest)
    (hpeer : peer.availability observedAt = .ok availability)
    (haccepted : AvailabilityAccepted config observedAt availability fields)
    (hlease : observedAt.addSeconds config.retentionSeconds = .ok retainUntil)
    (hfirst : (fields.entries.find? fun entry => entry.actionDigest = requestedDigest) = some entry)
    (resultDigest : Str) :
    Imports action peer config observedAt store resultDigest ↔
      entry.resultDigest = resultDigest ∧ GoodEntry action peer config requestedDigest entry := by
  rw [imports_iff hdigest hpeer haccepted hlease, hfirst]
  simp

end

/-! ### Two results of one action -/

namespace Example

/-- The digest with the hexadecimal digits of a number. -/
def digestText (n : ℕ) : Str :=
  lit "sha256:" ++ (List.range 64).map fun i => hexDigit (n / 16 ^ (63 - i))

/-- The digest of the action. -/
def requestedDigest : Str :=
  digestText 0x8b7ec04e4517cdad6d9ff6772aebbbc7493fe73190364f5401df22e2d6c78a4d

/-- The digest of the result that the peer serves. -/
def servedDigest : Str :=
  digestText 0x707fcdbabf5934894e0d1e07e44c5763a92c587e8e1b975800043986b7ef6d70

/-- The artifact of the result, and its digest. -/
def blob : Bytes := [97, 98, 99]

/-- The digest of the artifact. -/
def blobDigest : Str :=
  digestText 0xba7816bf8f01cfea414140de5dae2223b00361a396177a9cb410ff61f20015ad

/-- The public key of the peer. -/
def availabilityKey : Bytes :=
  [138, 136, 227, 221, 116, 9, 241, 149, 253, 82, 219, 45, 60, 186, 93, 114, 202, 103, 9, 191, 29,
   148, 18, 27, 243, 116, 136, 1, 180, 15, 111, 92]

/-- The public key of the producer. -/
def receiptKey : Bytes :=
  [129, 57, 119, 14, 168, 125, 23, 95, 86, 163, 84, 102, 195, 76, 126, 204, 203, 141, 138, 145,
   180, 238, 55, 162, 93, 246, 15, 91, 143, 201, 179, 148]

/-- The identifiers of the two keys. -/
def availabilityKeyId : Str :=
  digestText 0x34750f98bd59fcfc946da45aaabe933be154a4b5094e1c4abf42866505f3c97e

/-- The name of the key of the receipts. -/
def receiptKeyId : Str :=
  digestText 0x6a3803d5f059902a1c6dafbc9ba4729212f7caac08634cc3ae76b27529f03827

/-- An action without inputs. -/
def action : Value :=
  .dict [(lit "spec_version", .str (lit "oncemesh.action/v0")),
    (lit "operation", .dict [(lit "name", .str (lit "o")), (lit "version", .str (lit "1"))]),
    (lit "inputs", .dict []),
    (lit "executor", .dict [(lit "name", .str (lit "e")), (lit "version", .str (lit "1")),
      (lit "config", .dict [])]),
    (lit "output_schema", .str (lit "s")), (lit "vary", .dict [])]

/-- A result with one artifact. -/
def manifest : Value :=
  .dict [(lit "spec_version", .str (lit "oncemesh.result/v0")),
    (lit "action_digest", .str requestedDigest),
    (lit "artifacts", .list [.dict
      [(lit "name", .str (lit "body")), (lit "digest", .str blobDigest), (lit "size", .int 3),
        (lit "media_type", .str (lit "text/plain"))]]),
    (lit "produced_at", .str (lit "2026-08-24T22:00:00Z")), (lit "fresh_until", .none),
    (lit "producer", .str (lit "p"))]

/-- A signature document. -/
def signature (keyId value : Str) : Value :=
  .dict [(lit "profile", .str signatureProfile), (lit "key_id", .str keyId),
    (lit "value", .str value)]

/-- The signature of the receipt under the key of the producer. -/
def receiptSignature : Str :=
  lit "qC9UpKCyhuk25tVeRTUvQU2vDV6e1NAgNG6sLSkviNYRNkXwteUesBq-hk9wnzLqr8DjOxp7HRqZJBK1tHNwCg"

/-- The receipt of the result. -/
def receipt : Value :=
  .dict [(lit "spec_version", .str (lit "oncemesh.receipt/v0")),
    (lit "result_digest", .str servedDigest), (lit "producer", .str (lit "p")),
    (lit "executor_environment", .dict []),
    (lit "signature", signature receiptKeyId receiptSignature)]

/-- What the peer serves. -/
def bundle : FederationBundle := ⟨manifest, receipt, .ofPairs [(lit "body", blob)]⟩

/-- An entry for the action. -/
def entry (resultDigest : Str) : Value :=
  .dict [(lit "action_digest", .str requestedDigest), (lit "result_digest", .str resultDigest),
    (lit "operation", .dict [(lit "name", .str (lit "o")), (lit "version", .str (lit "1"))]),
    (lit "artifact_bytes", .int 3)]

/-- A manifest that advertises two results. -/
def availability (first second value : Str) : Value :=
  .dict [(lit "spec_version", .str (lit "oncemesh.availability/v0")),
    (lit "peer_id", .str (lit "m")), (lit "generated_at", .str (lit "2026-08-24T22:00:00Z")),
    (lit "entries", .list [entry first, entry second]),
    (lit "signature", signature availabilityKeyId value)]

/-- The digest of a result that has been withdrawn. -/
def withdrawnDigest : Str := digestText 0

/-- The served result is advertised after the withdrawn one. -/
def signedAvailability : Value :=
  availability withdrawnDigest servedDigest
    (lit "DnFG5SmcRVTkdXGSbO7twxmrTAe8UzXgnjapfBVWCtlj12U0owYRIBTpioA1X97TuC8LizbC8jsWwpzyD2DsDg")

/-- A system that runs in UTC. -/
@[reducible]
def zone : LocalZone := ⟨fun micros => utcOf micros 0⟩

attribute [local instance] zone Sha256.standard

/-- Ed25519 where the example needs it: the two signatures verify. -/
@[reducible]
def ed25519 : Ed25519 where
  verify key signature message :=
    let signs (document : Value) (input : Value → Except PyError Bytes) : Bool :=
      match (document.get (lit "signature")).get (lit "value") with
      | .str text => Base64.urlsafeDecode text = some signature &&
          (input document).toOption = some message
      | _ => false
    key = receiptKey && signs receipt receiptSigningInput ||
      key = availabilityKey && signs signedAvailability availabilitySigningInput

/-- The peer: it advertises two results and serves one. -/
def peer : FederationPeer where
  availability _ := .ok signedAvailability
  fetchBundle digest := .ok (if digest = servedDigest then some bundle else none)

/-- The configuration of the peer. -/
def config : FederationPeerConfig where
  peerId := lit "m"
  availabilityPublicKey := availabilityKey
  receiptPublicKeys := ⟨[(receiptKeyId, receiptKey)], by simp⟩
  trustedProducers := [lit "p"]
  allowedOperations := [lit "o/1"]
  maxEntries := 1000
  maxArtifactBytes := 10000000
  maxTransferBytes := 50000000
  maxAvailabilityAgeSeconds := 300
  maxFutureClockSkewSeconds := 30
  retentionSeconds := 86400
  peer := by decide
  entriesRange := by decide
  artifactRange := by decide
  transferRange := by decide
  ageRange := by decide
  skewRange := by decide
  retentionRange := by decide
  nonempty := by decide
  producers := by decide
  operations := by decide

/-- The moment the manifest was signed. -/
def observedAt : DateTime :=
  (parseTime (lit "2026-08-24T22:00:00Z")).toOption.getD ⟨0, DateTime.zero_inRange⟩

attribute [local instance] ed25519

/-- An entry for the action, as it is read. -/
def readEntry (resultDigest : Str) : AvailabilityEntry where
  actionDigest := requestedDigest
  resultDigest := resultDigest
  operationName := lit "o"
  operationVersion := lit "1"
  artifactBytes := 3

/-- The action has this digest. -/
theorem actionDigest_action : actionDigest action = .ok requestedDigest := by
  apply Except.toOption_eq_some.mp
  decide +kernel

/-- The bundle passes the checks of the receiver, and has three octets. -/
theorem checkBundle_bundle :
    checkBundle config requestedDigest (readEntry servedDigest) bundle = .ok 3 := by
  have h : (checkBundle config requestedDigest (readEntry servedDigest) bundle).toOption =
      some 3 := by decide +kernel
  exact Except.toOption_eq_some.mp h

/-- The receiver accepts an entry for the action, whatever the digest of its result. -/
theorem entryAccepted (resultDigest : Str) :
    EntryAccepted config action (readEntry resultDigest) where
  operation := by
    simp [readEntry, AvailabilityEntry.isOperationOf, action, Value.eqStrDict,
      Value.hasExactKeys, Value.eqStr]
  allowed := by
    show lit "o" ++ lit "/" ++ lit "1" ∈ [lit "o/1"]
    decide
  size := by
    show 3 ≤ 50000000
    decide

/-- The served entry can be imported. -/
theorem goodEntry :
    GoodEntry action peer config requestedDigest (readEntry servedDigest) where
  actionDigest := rfl
  accepted := entryAccepted servedDigest
  served := by
    obtain ⟨-, accepted, haccepted⟩ :=
      (checkBundle_eq_ok (entryAccepted servedDigest).size).mp checkBundle_bundle
    exact ⟨bundle, accepted, congrArg Except.ok (if_pos rfl), haccepted⟩

/-- The moment is in the window of the receiver for what is made then. -/
theorem inWindow :
    (∃ oldest, observedAt.addSeconds (-config.maxAvailabilityAgeSeconds) = .ok oldest ∧
      oldest ≤ observedAt) ∧
    ∃ newest, observedAt.addSeconds config.maxFutureClockSkewSeconds = .ok newest ∧
      observedAt ≤ newest := by
  have h : (observedAt.addSeconds (-300)).toOption.any (· ≤ observedAt) = true ∧
      (observedAt.addSeconds 30).toOption.any (observedAt ≤ ·) = true := by decide +kernel
  simp only [Option.any_eq_true, decide_eq_true_eq, Except.toOption_eq_some] at h
  exact h

/-- The manifest is accepted at the moment it was signed. -/
theorem availabilityAccepted :
    ∃ fields, AvailabilityAccepted config observedAt signedAvailability fields ∧
      fields.entries = [readEntry withdrawnDigest, readEntry servedDigest] := by
  have hread : (validateAvailability signedAvailability true).toOption.map
      (fun fields => (fields.entries, fields.generatedAt)) =
        some ([readEntry withdrawnDigest, readEntry servedDigest], observedAt) := by decide +kernel
  have hverified : (verifyAvailability signedAvailability (lit "m") availabilityKey).toOption =
      some true := by decide +kernel
  obtain ⟨fields, hvalid, hfields⟩ := Option.map_eq_some_iff.mp hread
  obtain ⟨hentries, hgenerated⟩ := Prod.mk.inj hfields
  refine ⟨fields, ⟨Except.toOption_eq_some.mp hvalid, ?_, Except.toOption_eq_some.mp hverified,
    ?_, ?_⟩, hentries⟩
  · rw [hentries]
    show 2 ≤ 1000
    decide
  · rw [hgenerated]
    exact inWindow.1
  · rw [hgenerated]
    exact inWindow.2

/-- Both entries are for the action. -/
theorem find?_readEntry (first second : Str) :
    ([readEntry first, readEntry second].find? fun entry => entry.actionDigest = requestedDigest) =
      some (readEntry first) := by
  simp [readEntry]

/-- The end of a lease can be computed. -/
theorem exists_lease :
    ∃ retainUntil, observedAt.addSeconds config.retentionSeconds = .ok retainUntil := by
  have h : (observedAt.addSeconds config.retentionSeconds).toOption.isSome = true := by
    decide +kernel
  obtain ⟨retainUntil, hlease⟩ := Option.isSome_iff_exists.mp h
  exact ⟨retainUntil, Except.toOption_eq_some.mp hlease⟩

end Example

open Example

attribute [local instance] zone Sha256.standard ed25519

/-- The withdrawn result is advertised first, and the one that is served is not imported. -/
theorem imports_iff_of_first_withdrawn :
    ¬Imports action peer config observedAt .empty servedDigest := by
  obtain ⟨fields, haccepted, hentries⟩ := availabilityAccepted
  obtain ⟨retainUntil, hlease⟩ := exists_lease
  have hfirst : (fields.entries.find? fun entry => entry.actionDigest = requestedDigest) =
      some (readEntry withdrawnDigest) := by
    rw [hentries, find?_readEntry]
  rw [imports_iff_of_first actionDigest_action rfl haccepted hlease hfirst servedDigest]
  rintro ⟨hsame, -⟩
  exact absurd hsame (by decide +kernel)

/-- A good entry after the withdrawn one is not imported. -/
theorem not_imports_of_goodEntry :
    ¬∀ (_ : Sha256) (_ : LocalZone) (_ : Ed25519) (action availability : Value)
      (peer : FederationPeer) (config : FederationPeerConfig) (observedAt retainUntil : DateTime)
      (fields : AvailabilityFields) (requestedDigest : Str) (entry : AvailabilityEntry)
      (store : FederationCacheStore),
      actionDigest action = .ok requestedDigest →
      peer.availability observedAt = .ok availability →
      AvailabilityAccepted config observedAt availability fields →
      observedAt.addSeconds config.retentionSeconds = .ok retainUntil →
      entry ∈ fields.entries → GoodEntry action peer config requestedDigest entry →
      ∃ resultDigest, Imports action peer config observedAt store resultDigest := by
  intro h
  obtain ⟨fields, haccepted, hentries⟩ := availabilityAccepted
  obtain ⟨retainUntil, hlease⟩ := exists_lease
  obtain ⟨resultDigest, himports⟩ := h _ _ _ action signedAvailability peer config observedAt
    retainUntil fields requestedDigest (readEntry servedDigest) .empty actionDigest_action rfl
    haccepted hlease (by simp [hentries]) goodEntry
  obtain ⟨entry, hfirst, -, hgood⟩ :=
    (imports_iff actionDigest_action rfl haccepted hlease).mp himports
  -- the first entry has no bundle
  rw [hentries, find?_readEntry] at hfirst
  cases hfirst
  obtain ⟨_, _, hfetch, -⟩ := hgood.served
  have hnone : peer.fetchBundle withdrawnDigest = .ok none :=
    congrArg Except.ok (if_neg (by decide +kernel))
  cases hnone.symm.trans hfetch

end OnceMesh.Federation
