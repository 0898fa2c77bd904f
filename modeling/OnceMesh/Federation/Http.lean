import OnceMesh.Federation.Catalog
import OnceMesh.Python.Json.RoundTrip

/-!
# Federation over HTTP

A server sends the bundles of a catalog as canonical JSON, with the artifacts in base64url, and
`HttpFederationPeer` reads them back. What is decoded is the bundle that was encoded
(`decodeBundle_readBack`).

The server is modelled from the moment a request has arrived; whether it admits the request is given
with the exchange.
-/

namespace OnceMesh.Federation

open Python

/-! ### Documents -/

/-- `_bundle_document`. -/
def bundleDocument (bundle : FederationBundle) : Value :=
  .dict [(lit "spec_version", .str (lit "oncemesh.federation-bundle/v0")),
    (lit "manifest", bundle.manifest), (lit "receipt", bundle.receipt),
    (lit "artifacts", .dict (bundle.artifacts.entries.map fun e =>
      (e.1, .str (Base64.urlsafeEncode e.2))))]

/-- `_strict_json`. -/
def strictJson (raw : Bytes) : Except PyError Value :=
  match decodeUtf8 raw with
  | none => .error .unicodeError
  | some text => Json.loadsWith .strict text

/-- `_decode_blob`. -/
def decodeBlob (value : Value) : Except PyError Bytes :=
  match value with
  | .str s =>
    if !s.all Base64.isUrlsafe then raiseValueError "artifact is not base64url"
    else if s.length % 4 = 1 then raiseValueError "artifact base64url length is invalid"
    else
      match Base64.urlsafeDecode s with
      | none => raiseValueError "invalid base64"
      | some decoded =>
        if Base64.urlsafeEncode decoded ≠ s then
          raiseValueError "artifact base64url is not canonical"
        else .ok decoded
  | _ => raiseValueError "artifact is not base64url"

/-- The guarded part of `fetch_bundle` after the request. -/
def decodeBundle (value : Value) : Except PyError FederationBundle := do
  exactKeys value [lit "spec_version", lit "manifest", lit "receipt", lit "artifacts"]
    "federation bundle"
  raiseIf (!(value.get (lit "spec_version")).eqStr (lit "oncemesh.federation-bundle/v0"))
    "unsupported federation bundle version"
  let manifest := value.get (lit "manifest")
  let receipt := value.get (lit "receipt")
  match manifest.isDict && receipt.isDict, value.get (lit "artifacts") with
  | true, .dict items =>
    let artifacts ← items.mapM fun i => do
      let data ← decodeBlob i.2
      pure (i.1, data)
    raiseIf (artifacts.any fun artifact => artifact.1 = []) "federation artifact names are invalid"
    pure ⟨manifest, receipt, .ofPairs artifacts⟩
  | _, _ => raiseValueError "federation bundle members are invalid"

/-! ### The server -/

section

variable [Sha256]

/-- What comes back for a request. -/
inductive Response where
  | status (code : ℕ)
  | json (body : Bytes)

/-- How a request fares before it is answered: whether a slot is free, its sender is authenticated,
and the rate limiter allows it. -/
structure Admission where
  slot : Bool
  authenticated : Bool
  allowed : Bool

/-- `FederationHTTPServer`, and the store of its catalog as the requests find it. -/
structure FederationHTTPServer where
  catalog : PublicPeerCatalog
  store : Store
  maxResponseBytes : ℕ

/-- `BUNDLE_PATH_PATTERN.fullmatch(path)`: the digest. -/
def bundlePath? (path : Str) : Option Str :=
  if startsWith path (lit "/v0/bundles/") && isDigest (path.drop 12) then
    some (path.drop 12)
  else none

namespace FederationHTTPServer

variable (server : FederationHTTPServer)

omit [Sha256] in
/-- `_json`. -/
def respondJson (maxResponseBytes : ℕ) (value : Value) : Except PyError Response := do
  let encoded ← canonicalJson value
  if maxResponseBytes < encoded.length then pure (.status 413) else pure (.json encoded)

/-- `do_GET`, when the clock reads `now`. -/
def handle [LocalZone] [Ed25519Signing] (now : DateTime) (admission : Admission) (path : Str) :
    Except PyError Response :=
  if !admission.slot then .ok (.status 503)
  else if !admission.authenticated then .ok (.status 401)
  else if !admission.allowed then .ok (.status 429)
  else if path = lit "/v0/availability" then do
    respondJson server.maxResponseBytes (← server.catalog.availability now)
  else
    match bundlePath? path with
    | none => .ok (.status 404)
    | some digest => do
      match ← server.catalog.fetchBundle server.store digest with
      | none => pure (.status 404)
      | some bundle => respondJson server.maxResponseBytes (bundleDocument bundle)

end FederationHTTPServer

/-! ### The client -/

/-- An `HttpFederationPeer` and the server it talks to. -/
structure HttpFederationPeer where
  server : FederationHTTPServer
  /-- What the clock of the server reads. -/
  clock : DateTime
  admission : Str → Admission
  maxAvailabilityResponseBytes : ℕ
  maxBundleResponseBytes : ℕ

namespace HttpFederationPeer

variable [LocalZone] [Ed25519Signing] (peer : HttpFederationPeer)

/-- What the server makes of a request. -/
def respond (path : Str) : Except PyError Response :=
  peer.server.handle peer.clock (peer.admission path) path

/-- `_get`. A status other than 200 is an `HTTPError`, and a handler that raises closes the
connection; both are an `OSError`. -/
def get (path : Str) (maximum : ℕ) : Except PyError Value :=
  match peer.respond path with
  | .error _ => .error .osError
  | .ok (.status _) => .error .osError
  | .ok (.json body) =>
    if maximum < body.length then raiseValueError "federation response exceeds byte limit"
    else strictJson body

/-- `availability`. -/
def availability : Except PyError Value :=
  match peer.get (lit "/v0/availability") peer.maxAvailabilityResponseBytes with
  | .ok value =>
    if value.isDict then .ok value
    else raiseValueError "availability response must be an object"
  | .error e =>
    match e with
    | .osError | .unicodeError | .jsonDecodeError =>
      raiseValueError "federation availability request failed"
    | e => .error e

/-- `fetch_bundle`. -/
def fetchBundle (resultDigest : Str) : Except PyError (Option FederationBundle) :=
  if !isDigest resultDigest then .ok none
  else
    match peer.get (lit "/v0/bundles/" ++
      resultDigest) peer.maxBundleResponseBytes >>= decodeBundle with
    | .ok bundle => .ok (some bundle)
    | .error e =>
      match e with
      | .osError | .typeError _ => .ok none
      | e => if e.isValueError then .ok none else .error e

/-- The peer, as an import sees it. -/
def toPeer : FederationPeer where
  availability _ := peer.availability
  fetchBundle := peer.fetchBundle

end HttpFederationPeer

/-- The catalog itself, as an import sees it. -/
def PublicPeerCatalog.toPeer [LocalZone] [Ed25519Signing] (catalog : PublicPeerCatalog)
    (store : Store) : FederationPeer where
  availability now := catalog.availability now
  fetchBundle := catalog.fetchBundle store

/-! ### What is accepted -/

omit [Sha256] in
/-- A document that is accepted repeats no key, at any depth. -/
theorem distinctKeys_of_strictJson {raw : Bytes} {value : Value} (h : strictJson raw = .ok value) :
    ∃ text tree, decodeUtf8 raw = some text ∧ Json.loadsWith Json.Tree.hooks text = .ok tree ∧
      tree.DistinctKeys := by
  unfold strictJson at h
  split at h
  · cases h
  next text htext =>
    obtain ⟨tree, htree, hfold⟩ := Json.loadsWith_eq_ok.mp h
    exact ⟨text, tree, htext, htree, Json.Tree.distinctKeys_of_fold hfold⟩

omit [Sha256] in
/-- Canonical JSON is accepted, and gives the document with the members of its objects sorted. -/
theorem strictJson_canonicalBytes {v : Value} (h : Storable v) :
    strictJson (canonicalBytes v) = .ok v.sortKeys := by
  have htext : decodeUtf8 (canonicalBytes v) = some (Json.dumps v) :=
    decodeUtf8_of_encodeUtf8 (encodeUtf8_dumps h.inProfile)
  rw [strictJson, htext]
  exact Json.loadsWith_dumps (fun _ => rfl) rfl (fun _ => Json.object_strict)
    h.inProfile.serializable h.wellFormed

omit [Sha256] in
/-- Octets of any number are decoded from their encoding. -/
theorem decodeBlob_urlsafeEncode (data : Bytes) :
    decodeBlob (.str (Base64.urlsafeEncode data)) = .ok data := by
  rw [decodeBlob, Base64.all_isUrlsafe_urlsafeEncode, if_neg (by decide),
    if_neg (Base64.length_urlsafeEncode_mod data), Base64.urlsafeDecode_urlsafeEncode]
  exact if_neg (not_not.mpr rfl)

/-! ### Bundles arrive as they are sent -/

omit [Sha256] in
/-- A bundle that can be sent: its documents are objects that canonical JSON stores, and so are the
names of its artifacts, none of which is empty. -/
structure FederationBundle.Sendable (bundle : FederationBundle) : Prop where
  manifest : Storable bundle.manifest
  receipt : Storable bundle.receipt
  objects : bundle.manifest.isDict = true ∧ bundle.receipt.isDict = true
  names : ∀ artifact ∈ bundle.artifacts.entries, artifact.1 ≠ [] ∧ Clean artifact.1

omit [Sha256] in
/-- The bundle as it arrives: the members of objects are sorted, and so are the artifacts. -/
def FederationBundle.readBack (bundle : FederationBundle) : FederationBundle where
  manifest := bundle.manifest.sortKeys
  receipt := bundle.receipt.sortKeys
  artifacts := .ofPairs (bundle.artifacts.entries.insertionSort Json.keyLE)

omit [Sha256] in
/-- Equality of bundles: the order of the members of objects and of the artifacts does not
matter. -/
structure FederationBundle.Same (bundle bundle' : FederationBundle) : Prop where
  manifest : bundle.manifest.Same bundle'.manifest
  receipt : bundle.receipt.Same bundle'.receipt
  artifacts : bundle.artifacts.entries.Perm bundle'.artifacts.entries

section

omit [Sha256]

variable {bundle : FederationBundle}

/-- The artifacts of a bundle that arrives. -/
theorem entries_readBack :
    bundle.readBack.artifacts.entries = bundle.artifacts.entries.insertionSort Json.keyLE := by
  have hperm := List.perm_insertionSort Json.keyLE bundle.artifacts.entries
  exact Dict.entries_ofPairs ((hperm.map Prod.fst).nodup_iff.mpr bundle.artifacts.nodup)

/-- A bundle is read back up to the order of members. -/
theorem FederationBundle.Sendable.same_readBack (h : bundle.Sendable) :
    bundle.readBack.Same bundle where
  manifest := Value.same_sortKeys h.manifest.wellFormed
  receipt := Value.same_sortKeys h.receipt.wellFormed
  artifacts := by
    rw [entries_readBack]
    exact List.perm_insertionSort _ _

/-- The members of the document that hold the artifacts. -/
def artifactItems (artifacts : List (Str × Bytes)) : List (Str × Value) :=
  artifacts.map fun e => (e.1, .str (Base64.urlsafeEncode e.2))

/-- Sorting the members and encoding the octets commute. -/
theorem sortKeys_artifactItems (artifacts : List (Str × Bytes)) :
    (Value.dict (artifactItems artifacts)).sortKeys =
      .dict (artifactItems (artifacts.insertionSort Json.keyLE)) := by
  have hsort : (artifactItems artifacts).insertionSort Json.keyLE =
      artifactItems (artifacts.insertionSort Json.keyLE) :=
    (List.map_insertionSort Json.keyLE Json.keyLE
      (fun e : Str × Bytes => (e.1, Value.str (Base64.urlsafeEncode e.2))) artifacts
      fun _ _ _ _ => Iff.rfl).symm
  rw [Json.sortKeys_dict, hsort, artifactItems, List.map_map]
  rfl

/-- The encoding is clean text. -/
theorem clean_urlsafeEncode (data : Bytes) : Clean (Base64.urlsafeEncode data) := by
  intro c hc
  have hsafe := List.all_eq_true.mp (Base64.all_isUrlsafe_urlsafeEncode data) c hc
  -- the alphabet is ASCII
  have hlt : c.val < 0x80 := by
    unfold Base64.isUrlsafe Base64.toSextet? at hsafe
    split_ifs at hsafe with _ _ _ hminus hunderscore
    · omega
    · omega
    · omega
    · rw [hminus]
      decide
    · rw [hunderscore]
      decide
    · cases hsafe
  rw [isSurrogate, decide_eq_false_iff_not]
  omega

/-- A bundle that can be sent is stored by canonical JSON. -/
theorem FederationBundle.Sendable.storable (h : bundle.Sendable) :
    Storable (bundleDocument bundle) := by
  have hartifacts : Storable (.dict (artifactItems bundle.artifacts.entries)) := by
    refine ⟨.dict (fun i hi => ?_) fun i hi => ?_, Value.wellFormed_dict.mpr ⟨?_, fun i hi => ?_⟩⟩
    · obtain ⟨e, he, rfl⟩ := List.mem_map.mp hi
      exact (h.names e he).2
    · obtain ⟨e, he, rfl⟩ := List.mem_map.mp hi
      exact .str (clean_urlsafeEncode e.2)
    · rw [artifactItems, List.map_map]
      exact bundle.artifacts.nodup
    · obtain ⟨e, he, rfl⟩ := List.mem_map.mp hi
      trivial
  refine ⟨.dict ?_ ?_, Value.wellFormed_dict.mpr ⟨by simp only [List.map_cons]; decide, ?_⟩⟩
  · simp [clean_lit]
  · simp only [List.forall_mem_cons]
    exact ⟨.str (clean_lit _), h.manifest.inProfile, h.receipt.inProfile,
      hartifacts.inProfile, by simp⟩
  · simp only [List.forall_mem_cons]
    exact ⟨trivial, h.manifest.wellFormed, h.receipt.wellFormed, hartifacts.wellFormed, by simp⟩

/-- A bundle that can be sent is read back. -/
theorem decodeBundle_readBack (h : bundle.Sendable) :
    decodeBundle (bundleDocument bundle).sortKeys = .ok bundle.readBack := by
  have hstorable := h.storable
  have hget : ∀ key, (bundleDocument bundle).sortKeys.get key =
      ((bundleDocument bundle).get key).sortKeys := get_sortKeys hstorable
  have hmanifest : (bundleDocument bundle).get (lit "manifest") = bundle.manifest := rfl
  have hreceipt : (bundleDocument bundle).get (lit "receipt") = bundle.receipt := rfl
  have hversion : (bundleDocument bundle).get (lit "spec_version") =
      .str (lit "oncemesh.federation-bundle/v0") := rfl
  have hartifacts : (bundleDocument bundle).get (lit "artifacts") =
      .dict (artifactItems bundle.artifacts.entries) := rfl
  have hkeys : (bundleDocument bundle).hasExactKeys
      [lit "spec_version", lit "manifest", lit "receipt", lit "artifacts"] = true := by
    simp [bundleDocument, Value.hasExactKeys]
  have hdecode :
    (artifactItems (bundle.artifacts.entries.insertionSort Json.keyLE)).mapM (fun i => do
      let data ← decodeBlob i.2
      pure (i.1, data)) = Except.ok (bundle.artifacts.entries.insertionSort Json.keyLE) := by
    rw [Except.mapM_eq_ok, artifactItems, List.forall₂_map_left_iff, List.forall₂_same]
    intro e _
    rw [decodeBlob_urlsafeEncode]
    rfl
  have hnames : ((bundle.artifacts.entries.insertionSort Json.keyLE).any
      fun artifact => artifact.1 = []) = false := by
    rw [List.any_eq_false]
    intro artifact hartifact
    have hmem := (List.perm_insertionSort Json.keyLE _).mem_iff.mp hartifact
    simpa using (h.names artifact hmem).1
  unfold decodeBundle
  simp only [exactKeys, hasExactKeys_sortKeys, hkeys, hget, hmanifest, hreceipt, hversion,
    hartifacts, isDict_sortKeys, h.objects, sortKeys_artifactItems]
  rw [Except.check_eq_ok, raiseIf_eq_ok, Except.check_eq_ok, raiseIf_eq_ok]
  refine ⟨rfl, ?_, ?_⟩
  · simp [Value.sortKeys, Value.eqStr]
  · rw [Bool.and_self]
    dsimp only
    rw [hdecode, Except.ok_bind, hnames]
    rfl

end

/-- The bundles of a catalog can be sent. -/
theorem PublicPeerCatalog.Consistent.sendable {catalog : PublicPeerCatalog}
    (h : catalog.Consistent) {store : Store} {resultDigest : Str} {bundle : FederationBundle}
    (hfetch : catalog.fetchBundle store resultDigest = .ok (some bundle)) :
    bundle.Sendable ∧ ∃ manifest : Manifest, manifest.document = bundle.manifest ∧
      IsFederated manifest := by
  obtain ⟨result, hresult, hmanifest, hreceipt, hartifacts⟩ :=
    PublicPeerCatalog.exists_published_of_fetchBundle hfetch
  have hmem : (resultDigest, result) ∈ catalog.published.entries := Dict.mem_entries_iff.mpr hresult
  have hwf : result.manifest.document.WellFormed := h.manifest _ hmem
  have hchecks := validateManifest_checks result.manifest.valid
  obtain ⟨fields, hsigned⟩ := result.signed
  refine ⟨⟨?_, ?_, ⟨?_, ?_⟩, fun artifact hartifact => ?_⟩,
    result.manifest, hmanifest.symm, result.federated⟩
  · rw [hmanifest]
    exact ⟨hchecks.inProfile, hwf⟩
  · rw [hreceipt]
    exact ⟨inProfile_of_validateReceipt hsigned, h.receipt _ hmem⟩
  · rw [hmanifest]
    exact isDict_of_hasExactKeys
      (requireExactKeys_eq_ok.mp (Except.check_eq_ok.mp result.manifest.valid).1)
  · rw [hreceipt]
    exact isDict_of_hasExactKeys (hasExactKeys_of_validateReceipt hsigned)
  · obtain ⟨descriptor, hdescriptor, hname, -⟩ := exists_of_forall₂_right hartifacts hartifact
    rw [← hname]
    exact name_of_manifest hwf descriptor hdescriptor

end

end OnceMesh.Federation
