import OnceMesh.Federation.Advertised
import OnceMesh.Federation.FirstEntry

/-!
# Transport

What arrives over HTTP is the bundle that was sent (`fetchBundle_of_fits`), and an import does not
notice the way it came (`importFromPeer_http`).
-/

namespace OnceMesh.Federation

open Python

section

variable [Sha256]

/-! ### An import does not notice -/

section

variable {bundle : FederationBundle}

omit [Sha256] in
/-- The artifacts that are read back have their names. -/
theorem get?_readBack (name : Str) :
    bundle.readBack.artifacts.get? name = bundle.artifacts.get? name :=
  Dict.get?_ofPairs_of_perm (List.perm_insertionSort Json.keyLE _) name

omit [Sha256] in
/-- The names of the artifacts are compared as sets. -/
theorem sameNames_readBack (descriptors : List ArtifactDescriptor) :
    sameNames bundle.readBack.artifacts descriptors = sameNames bundle.artifacts descriptors := by
  have hperm : bundle.readBack.artifacts.entries.Perm bundle.artifacts.entries := by
    rw [entries_readBack]
    exact List.perm_insertionSort _ _
  rw [Bool.eq_iff_iff, sameNames_eq_true, sameNames_eq_true]
  simp only [(hperm.map Prod.fst).mem_iff]

/-- The artifacts that are read back pass the checks that they passed. -/
theorem checkArtifacts_readBack (config : FederationPeerConfig)
    (descriptors : List ArtifactDescriptor)
    (total : ℕ) : checkArtifacts config bundle.readBack.artifacts total descriptors =
      checkArtifacts config bundle.artifacts total descriptors := by
  induction descriptors generalizing total with
  | nil => rfl
  | cons descriptor rest ih => simp only [checkArtifacts, get?_readBack, ih]

variable [Ed25519]

/-- The checks of a bundle that has arrived are those of the bundle. -/
theorem checkBundle_readBack {manifest : Manifest} (hdocument : manifest.document = bundle.manifest)
    (hfederated : IsFederated manifest) (h : bundle.Sendable) (config : FederationPeerConfig)
    (requestedDigest : Str) (entry : AvailabilityEntry) :
    checkBundle config requestedDigest entry bundle.readBack =
      checkBundle config requestedDigest entry bundle := by
  have hstorable : Storable manifest.document := hdocument ▸ h.manifest
  let arrived : Manifest :=
    ⟨manifest.document.sortKeys, manifest.fields,
      (validateManifest_sortKeys hstorable).trans manifest.valid⟩
  have hdigest : arrived.digest = manifest.digest := hstorable.digestOf_sortKeys
  have hvalid : validateFederationResult bundle.manifest = .ok manifest :=
    validateFederationResult_eq_ok.mpr ⟨hdocument, hfederated⟩
  have hvalid' : validateFederationResult bundle.readBack.manifest = .ok arrived := by
    refine validateFederationResult_eq_ok.mpr ⟨congrArg Value.sortKeys hdocument, ?_⟩
    rw [IsFederated, ne_eq, ← Value.eqStr_eq_true] at hfederated ⊢
    rwa [get_sortKeys hstorable, eqStr_sortKeys]
  have hreceipt : validateReceipt bundle.readBack.receipt true =
    validateReceipt bundle.receipt true :=
    validateReceipt_sortKeys h.receipt true
  have hverify : ∀ key, verifyReceiptForManifest bundle.readBack.receipt arrived key =
      verifyReceiptForManifest bundle.receipt manifest key :=
    verifyReceiptForManifest_sortKeys h.receipt hdigest rfl
  rw [checkBundle, checkBundle, hvalid, hvalid', hreceipt]
  simp only [raising, Except.mapError, Except.ok_bind, hdigest, hverify, sameNames_readBack,
    checkArtifacts_readBack]
  rfl

end

/-! ### Exchanges -/

section

variable [LocalZone] [Ed25519Signing]

/-- What a consistent catalog advertises is storable, and valid. -/
theorem PublicPeerCatalog.Consistent.storable_availability {catalog : PublicPeerCatalog}
    (h : catalog.Consistent) {now : DateTime} {document : Value}
    (hdocument : catalog.availability now = .ok document) :
    Storable document ∧ ∃ fields, validateAvailability document true = .ok fields := by
  obtain ⟨entries, hentries, hsign⟩ := Except.bind_eq_ok.mp hdocument
  have hrelated := Except.mapM_eq_ok.mp hentries
  -- the entries are Python values
  have hwf : ∀ e ∈ entries, e.2.WellFormed := by
    intro e he
    obtain ⟨published, hpublished, hentry⟩ := exists_of_forall₂_right hrelated he
    obtain ⟨requested, -, hentry⟩ := Except.bind_eq_ok.mp hentry
    cases hentry
    have haction : Storable published.2.action :=
      ⟨(objectDigest_eq_ok.mp (Except.check_eq_ok.mp published.2.requested).2).1,
        h.action _ hpublished⟩
    have hoperation := (haction.get (lit "operation")).wellFormed
    rw [Value.wellFormed_dict]
    refine ⟨by simp only [List.map_cons]; decide, ?_⟩
    simp only [List.forall_mem_cons]
    exact ⟨trivial, trivial, hoperation, trivial, by simp⟩
  have hwfUnsigned : ∀ items, (∀ v ∈ items, v.WellFormed) →
      (Value.dict [(lit "spec_version", .str (lit "oncemesh.availability/v0")),
        (lit "peer_id", .str catalog.peerId), (lit "generated_at", .str (formatTime now)),
        (lit "entries", .list items), (lit "signature", .none)]).WellFormed := by
    intro items hitems
    rw [Value.wellFormed_dict]
    refine ⟨by simp only [List.map_cons]; decide, ?_⟩
    simp only [List.forall_mem_cons]
    exact ⟨trivial, trivial, trivial, Value.wellFormed_list.mpr hitems, trivial, by simp⟩
  obtain ⟨_, -, hsign⟩ := Except.bind_eq_ok.mp hsign
  dsimp only at hsign
  obtain ⟨input, -, hsign⟩ := Except.bind_eq_ok.mp hsign
  obtain ⟨fields, hvalid, hsign⟩ := Except.bind_eq_ok.mp hsign
  cases hsign
  refine ⟨⟨(inProfile_of_validateAvailability hvalid).1, ?_⟩, fields, hvalid⟩
  refine Value.wellFormed_setItem (hwfUnsigned _ fun v hv => ?_) ?_
  · obtain ⟨e, he, rfl⟩ := List.mem_map.mp hv
    exact hwf e ((List.perm_insertionSort _ _).mem_iff.mp he)
  · rw [Value.wellFormed_dict]
    refine ⟨by simp only [List.map_cons]; decide, ?_⟩
    simp only [List.forall_mem_cons]
    exact ⟨trivial, trivial, trivial, by simp⟩

/-- The response is what was asked for, or says that there is no such thing, and it fits the
limit. -/
def Response.Fits (limit : ℕ) : Response → Prop
  | .json body => body.length ≤ limit
  | .status code => code = 404

omit [Sha256] [LocalZone] [Ed25519Signing] in
/-- A response that fits to a request for a document comes from the catalog. -/
theorem exists_document_of_fits {maxResponseBytes limit : ℕ} {v : Value} {response : Response}
    (h : FederationHTTPServer.respondJson maxResponseBytes v = .ok response)
    (hfits : response.Fits limit) : response = .json (canonicalBytes v) ∧ InProfile v ∧
      (canonicalBytes v).length ≤ limit := by
  obtain ⟨encoded, hencoded, h⟩ := Except.bind_eq_ok.mp h
  obtain ⟨hprofile, rfl⟩ := canonicalJson_eq_ok.mp hencoded
  split_ifs at h
  · cases h
    cases hfits
  · cases h
    exact ⟨rfl, hprofile, hfits⟩

variable {peer : HttpFederationPeer}

/-- A response that fits is the one of a request that is admitted. -/
theorem respond_of_fits {path : Str} {response : Response} {limit : ℕ}
    (h : peer.respond path = .ok response) (hfits : response.Fits limit) :
    peer.server.handle peer.clock ⟨true, true, true⟩ path = .ok response := by
  rw [HttpFederationPeer.respond] at h
  generalize peer.admission path = admission at h
  obtain ⟨slot, authenticated, allowed⟩ := admission
  -- what is not admitted is answered with another status than 404
  have hrefused : ∀ code : ℕ, code ≠ 404 →
    (Except.ok (Response.status code) : Except PyError Response) ≠
      .ok response := by
    intro code hcode heq
    cases heq
    exact hcode hfits
  cases slot with
  | false => exact absurd h (hrefused 503 (by decide))
  | true =>
    cases authenticated with
    | false => exact absurd h (hrefused 401 (by decide))
    | true =>
      cases allowed with
      | false => exact absurd h (hrefused 429 (by decide))
      | true => exact h

/-- A request for the availability manifest, answered within the limit. -/
theorem exists_availability_of_fits {response : Response} {limit : ℕ}
    (h : peer.respond (lit "/v0/availability") = .ok response) (hfits : response.Fits limit) :
    ∃ document, peer.server.catalog.availability peer.clock = .ok document ∧
      response = .json (canonicalBytes document) ∧ (canonicalBytes document).length ≤ limit := by
  have hanswer := respond_of_fits h hfits
  simp only [FederationHTTPServer.handle, Bool.not_true, Bool.false_eq_true, if_false, if_true]
    at hanswer
  obtain ⟨document, hdocument, hrespond⟩ := Except.bind_eq_ok.mp hanswer
  obtain ⟨hresponse, -, hlength⟩ := exists_document_of_fits hrespond hfits
  exact ⟨document, hdocument, hresponse, hlength⟩

omit [Sha256] [LocalZone] [Ed25519Signing] in
/-- The path of a bundle names its digest. -/
theorem bundlePath?_append {resultDigest : Str} (h : isDigest resultDigest = true) :
    bundlePath? (lit "/v0/bundles/" ++ resultDigest) = some resultDigest := by
  have hdrop : (lit "/v0/bundles/" ++ resultDigest).drop 12 = resultDigest :=
    List.drop_left' (by decide)
  have hstarts : startsWith (lit "/v0/bundles/" ++ resultDigest) (lit "/v0/bundles/") = true := by
    rw [startsWith, List.isPrefixOf_iff_prefix]
    exact List.prefix_append _ _
  rw [bundlePath?, hdrop, hstarts, h]
  rfl

/-- A request for a bundle, answered within the limit. -/
theorem bundle_of_fits {resultDigest : Str} (hdigest : isDigest resultDigest = true)
    {response : Response} {limit : ℕ}
    (h : peer.respond (lit "/v0/bundles/" ++ resultDigest) = .ok response)
    (hfits : response.Fits limit) :
    (peer.server.catalog.fetchBundle peer.server.store resultDigest = .ok none ∧
        response = .status 404) ∨
      ∃ bundle, peer.server.catalog.fetchBundle peer.server.store resultDigest = .ok (some bundle) ∧
        response = .json (canonicalBytes (bundleDocument bundle)) ∧
        (canonicalBytes (bundleDocument bundle)).length ≤ limit := by
  have hpath : lit "/v0/bundles/" ++ resultDigest ≠ lit "/v0/availability" := by
    intro heq
    have htake := congrArg (List.take 7) heq
    rw [List.take_append_of_le_length (by decide)] at htake
    exact absurd htake (by decide)
  have hanswer := respond_of_fits h hfits
  simp only [FederationHTTPServer.handle, Bool.not_true, Bool.false_eq_true, if_false, hpath,
    bundlePath?_append hdigest] at hanswer
  obtain ⟨fetched, hfetched, hanswer⟩ := Except.bind_eq_ok.mp hanswer
  cases fetched with
  | none =>
    cases hanswer
    exact .inl ⟨hfetched, rfl⟩
  | some bundle =>
    obtain ⟨hresponse, -, hlength⟩ := exists_document_of_fits hanswer hfits
    exact .inr ⟨bundle, hfetched, hresponse, hlength⟩

/-- The availability manifest arrives with the members of its objects sorted. -/
theorem availability_of_fits (hcatalog : peer.server.catalog.Consistent) {response : Response}
    (h : peer.respond (lit "/v0/availability") = .ok response)
    (hfits : response.Fits peer.maxAvailabilityResponseBytes) :
    ∃ document, peer.server.catalog.availability peer.clock = .ok document ∧ Storable document ∧
      peer.availability = .ok document.sortKeys := by
  obtain ⟨document, hdocument, rfl, hlength⟩ := exists_availability_of_fits h hfits
  obtain ⟨hstorable, fields, hvalid⟩ := hcatalog.storable_availability hdocument
  have hdict : document.isDict = true := by
    have hexact := (Except.check_eq_ok.mp hvalid).1
    rw [exactKeys, raiseIf_eq_ok, Bool.not_eq_false'] at hexact
    exact isDict_of_hasExactKeys hexact
  have hget : peer.get (lit "/v0/availability") peer.maxAvailabilityResponseBytes =
      .ok document.sortKeys := by
    rw [HttpFederationPeer.get, h]
    dsimp only
    rw [if_neg (not_lt.mpr hlength), strictJson_canonicalBytes hstorable]
  refine ⟨document, hdocument, hstorable, ?_⟩
  rw [HttpFederationPeer.availability, hget]
  dsimp only
  rw [isDict_sortKeys, hdict, if_pos rfl]

/-- A bundle that is fetched arrives as it was sent. -/
theorem fetchBundle_of_fits (hcatalog : peer.server.catalog.Consistent) {resultDigest : Str}
    (hdigest : isDigest resultDigest = true) {response : Response}
    (h : peer.respond (lit "/v0/bundles/" ++ resultDigest) = .ok response)
    (hfits : response.Fits peer.maxBundleResponseBytes) :
    ∃ fetched, peer.server.catalog.fetchBundle peer.server.store resultDigest = .ok fetched ∧
      peer.fetchBundle resultDigest = .ok (fetched.map FederationBundle.readBack) := by
  rw [HttpFederationPeer.fetchBundle, hdigest, if_neg (by decide), HttpFederationPeer.get, h]
  obtain ⟨hfetch, rfl⟩ | ⟨bundle, hfetch, rfl, hlength⟩ := bundle_of_fits hdigest h hfits
  · exact ⟨none, hfetch, rfl⟩
  · obtain ⟨hsendable, -⟩ := hcatalog.sendable hfetch
    refine ⟨some bundle, hfetch, ?_⟩
    dsimp only
    rw [if_neg (not_lt.mpr hlength), strictJson_canonicalBytes hsendable.storable, Except.ok_bind,
      decodeBundle_readBack hsendable]
    rfl

/-! ### Imports over HTTP -/

/-- The server answers the request, within the limit of the client. -/
def HttpFederationPeer.Answers (peer : HttpFederationPeer) (path : Str) (limit : ℕ) : Prop :=
  ∃ response, peer.respond path = .ok response ∧ response.Fits limit

/-- An import from `source` comes to fetch the bundle of a result. -/
def Fetches (action : Value) (source : FederationPeer) (config : FederationPeerConfig)
    (observedAt : DateTime) (resultDigest : Str) : Prop :=
  ∃ fields requestedDigest entry, readAvailability source config observedAt = .ok fields ∧
    actionDigest action = .ok requestedDigest ∧
    selectEntry action config requestedDigest fields.entries = .ok entry ∧
    entry.resultDigest = resultDigest

/-- The catalog in the process of an import, asked when its clock reads `now`. -/
def PublicPeerCatalog.toPeerAt (catalog : PublicPeerCatalog) (store : Store) (now : DateTime) :
    FederationPeer :=
  { catalog.toPeer store with availability := fun _ => catalog.availability now }

/-- An import asks for the availability manifest at the time it observes. -/
theorem importFromPeer_toPeerAt (catalog : PublicPeerCatalog) (store : Store) (action : Value)
    (config : FederationPeerConfig) (observedAt : DateTime) :
    importFromPeer action (catalog.toPeerAt store observedAt) config observedAt =
      importFromPeer action (catalog.toPeer store) config observedAt := by
  simp only [importFromPeer, admission, readAvailability, fetchAvailability,
    PublicPeerCatalog.toPeerAt, PublicPeerCatalog.toPeer]

omit [Sha256] [LocalZone] [Ed25519Signing] in
/-- What is read does not depend on the order of the members. -/
theorem readAvailability_of_sortKeys [Sha256] [LocalZone] [Ed25519]
    {source source' : FederationPeer}
    {config : FederationPeerConfig} {observedAt : DateTime} {document : Value}
    (hstorable : Storable document) (h : source.availability observedAt = .ok document)
    (h' : source'.availability observedAt = .ok document.sortKeys) :
    readAvailability source' config observedAt = readAvailability source config observedAt := by
  rw [readAvailability, readAvailability, fetchAvailability, fetchAvailability, h, h',
    Except.ok_bind, Except.ok_bind, validateAvailability_sortKeys hstorable]
  cases validateAvailability document true with
  | error e => rfl
  | ok fields =>
    simp only [Except.ok_bind, pure, Except.pure, Except.mapError,
      verifyAvailability_sortKeys hstorable]

/-- The checks of an import are those of the catalog in the process. -/
theorem admission_http (hcatalog : peer.server.catalog.Consistent) {action : Value}
    {config : FederationPeerConfig} {observedAt : DateTime}
    (havailability : peer.Answers (lit "/v0/availability") peer.maxAvailabilityResponseBytes)
    (hbundle : ∀ resultDigest,
      Fetches action (peer.server.catalog.toPeerAt peer.server.store peer.clock)
      config observedAt resultDigest →
      peer.Answers (lit "/v0/bundles/" ++ resultDigest) peer.maxBundleResponseBytes) :
    admission action peer.toPeer config observedAt =
      (admission action (peer.server.catalog.toPeerAt peer.server.store peer.clock)
        config observedAt).map
        fun admitted => (admitted.1, admitted.2.1.readBack, admitted.2.2) := by
  obtain ⟨response, hresponse, hfits⟩ := havailability
  obtain ⟨document, hdocument, hstorable, harrived⟩ := availability_of_fits hcatalog hresponse hfits
  set inProcess := peer.server.catalog.toPeerAt peer.server.store peer.clock with hinProcess
  have hread : readAvailability peer.toPeer config observedAt =
      readAvailability inProcess config observedAt :=
    readAvailability_of_sortKeys hstorable hdocument harrived
  rw [admission, admission, hread]
  cases raising (validateAction action) with
  | error stop => rfl
  | ok =>
    cases hfields : readAvailability inProcess config observedAt with
    | error stop => rfl
    | ok fields =>
      cases hrequested : actionDigest action with
      | error e => rfl
      | ok requestedDigest =>
        simp only [Except.ok_bind, raising, Except.mapError]
        cases hentry : selectEntry action config requestedDigest fields.entries with
        | error stop => rfl
        | ok entry =>
          obtain ⟨response', hresponse', hfits'⟩ :=
            hbundle entry.resultDigest
              ⟨fields, requestedDigest, entry, hfields, hrequested, hentry, rfl⟩
          have hdigest : isDigest entry.resultDigest = true := by
            obtain ⟨availability, -, haccepted⟩ := readAvailability_eq_ok.mp hfields
            exact isDigest_of_validateAvailability haccepted.valid entry
              (List.mem_of_find?_eq_some (selectEntry_eq_ok.mp hentry).1)
          obtain ⟨fetched, hfetched, harrived⟩ :=
            fetchBundle_of_fits hcatalog hdigest hresponse' hfits'
          have hleft : peer.toPeer.fetchBundle entry.resultDigest =
            .ok (fetched.map FederationBundle.readBack) := harrived
          have hright : inProcess.fetchBundle entry.resultDigest = .ok fetched := hfetched
          simp only [Except.ok_bind, hleft, hright]
          cases fetched with
          | none => rfl
          | some bundle =>
            obtain ⟨hsendable, manifest, hmanifest, hfederated⟩ := hcatalog.sendable hfetched
            simp only [Option.map_some, checkBundle_readBack hmanifest hfederated hsendable]
            cases checkBundle config requestedDigest entry bundle with
            | error stop => rfl
            | ok total => rfl

/-- An import over HTTP has the outcome of one from the catalog in the process. -/
theorem importFromPeer_http (hcatalog : peer.server.catalog.Consistent) {action : Value}
    {config : FederationPeerConfig} {observedAt : DateTime}
    (havailability : peer.Answers (lit "/v0/availability") peer.maxAvailabilityResponseBytes)
    (hbundle : ∀ resultDigest,
      Fetches action (peer.server.catalog.toPeerAt peer.server.store peer.clock)
      config observedAt resultDigest →
      peer.Answers (lit "/v0/bundles/" ++ resultDigest) peer.maxBundleResponseBytes)
    (cache : FederationCacheStore) :
    (importFromPeer action peer.toPeer config observedAt cache).1 =
      (importFromPeer action (peer.server.catalog.toPeerAt peer.server.store peer.clock) config
        observedAt cache).1 := by
  have hadmission := admission_http hcatalog havailability hbundle
  cases hinProcess : admission action (peer.server.catalog.toPeerAt peer.server.store peer.clock)
      config observedAt with
  | error stop =>
    rw [hinProcess] at hadmission
    have hhttp : admission action peer.toPeer config observedAt = .error stop := hadmission
    rw [importFromPeer, importFromPeer, hhttp, hinProcess]
  | ok admitted =>
    obtain ⟨entry, bundle, total⟩ := admitted
    rw [hinProcess] at hadmission
    have hhttp : admission action peer.toPeer config observedAt =
      .ok (entry, bundle.readBack, total) :=
      hadmission
    cases hlease : observedAt.addSeconds config.retentionSeconds with
    | ok retainUntil =>
      obtain ⟨_, -, hleft⟩ := importFromPeer_of_admission hhttp hlease cache
      obtain ⟨_, -, hright⟩ := importFromPeer_of_admission hinProcess hlease cache
      rw [hleft, hright]
    | error e =>
      rw [importFromPeer, importFromPeer, hhttp, hinProcess]
      show (importAdmitted config observedAt entry bundle.readBack total cache).1 =
        (importAdmitted config observedAt entry bundle total cache).1
      rw [importAdmitted, importAdmitted, hlease]
      rfl

/-- Bundles are transported without loss: what a catalog serves is read back from the octets that
are sent, an import does not notice the transport, and what is accepted repeats no key. -/
theorem transport_lossless {catalog : PublicPeerCatalog} (hnew : catalog.published = .empty)
    {calls : List CatalogCall} (hcalls : ∀ call ∈ calls, call.WellFormed) :
    (∀ store resultDigest bundle,
        (catalog.performAll calls).fetchBundle store resultDigest = .ok (some bundle) →
        ∃ body received, canonicalJson (bundleDocument bundle) = .ok body ∧
          strictJson body >>= decodeBundle = .ok received ∧ received.Same bundle) ∧
      (∀ (peer : HttpFederationPeer) action config observedAt cache,
        peer.server.catalog = catalog.performAll calls →
        peer.Answers (lit "/v0/availability") peer.maxAvailabilityResponseBytes →
        (∀ resultDigest, Fetches action (peer.server.catalog.toPeerAt peer.server.store peer.clock)
          config observedAt resultDigest →
          peer.Answers (lit "/v0/bundles/" ++ resultDigest) peer.maxBundleResponseBytes) →
        (importFromPeer action peer.toPeer config observedAt cache).1 =
            (importFromPeer action (peer.server.catalog.toPeerAt peer.server.store peer.clock)
              config observedAt cache).1 ∧
          (peer.clock = observedAt →
            (importFromPeer action peer.toPeer config observedAt cache).1 =
              (importFromPeer action (peer.server.catalog.toPeer peer.server.store) config
                observedAt cache).1)) ∧
      ∀ raw value, strictJson raw = .ok value →
        ∃ text tree, decodeUtf8 raw = some text ∧
          Json.loadsWith Json.Tree.hooks text = .ok tree ∧ tree.DistinctKeys := by
  have hconsistent : (catalog.performAll calls).Consistent :=
    (PublicPeerCatalog.consistent_of_published_eq_empty hnew).performAll hcalls
  refine ⟨fun store resultDigest bundle hfetch => ?_,
    fun peer action config observedAt cache hcatalog havailability hbundle => ?_,
    fun raw value h => distinctKeys_of_strictJson h⟩
  · obtain ⟨hsendable, -⟩ := hconsistent.sendable hfetch
    refine ⟨canonicalBytes (bundleDocument bundle), bundle.readBack, ?_, ?_,
      hsendable.same_readBack⟩
    · exact canonicalJson_eq_ok.mpr ⟨hsendable.storable.inProfile, rfl⟩
    · rw [strictJson_canonicalBytes hsendable.storable, Except.ok_bind,
        decodeBundle_readBack hsendable]
  · have himport := importFromPeer_http (hcatalog ▸ hconsistent) havailability hbundle cache
    refine ⟨himport, fun hclock => ?_⟩
    -- the manifest is asked for at the time of the import only
    rw [himport, hclock, importFromPeer_toPeerAt]

end

end

/-! ### A published result -/

namespace Example

attribute [local instance] zone Sha256.standard

/-- The manifest that advertises the served result. -/
def servedAvailability : Value :=
  .dict [(lit "spec_version", .str (lit "oncemesh.availability/v0")),
    (lit "peer_id", .str (lit "m")), (lit "generated_at", .str (lit "2026-08-24T22:00:00Z")),
    (lit "entries", .list [entry servedDigest]), (lit "signature", .none)]

/-- Its signature. -/
def servedSignature : Bytes :=
  [145, 211, 2, 82, 17, 116, 189, 153, 28, 8, 118, 1, 155, 226, 198, 107, 222, 90, 225, 186, 178,
   180, 34, 207, 157, 197, 111, 208, 55, 129, 70, 86, 109, 196, 145, 36, 108, 168, 151, 98, 167,
   133, 15, 254, 190, 135, 74, 19, 72, 33, 114, 16, 72, 57, 81, 110, 129, 145, 228, 203, 134, 117,
   227, 4]

/-- What the peer signs a message with. -/
def signatureOf (message : Bytes) : Bytes :=
  if (availabilitySigningInput servedAvailability).toOption = some message then servedSignature
  else List.replicate 64 0

/-- Ed25519 where the example needs it: the peer signs the manifest above. -/
@[reducible]
def ed25519Signing : Ed25519Signing where
  verify key signature message := ed25519.verify key signature message ||
    decide (key = availabilityKey ∧ signature = signatureOf message)
  publicKey _ := availabilityKey
  sign _ message := signatureOf message
  length_publicKey _ := by decide
  length_sign _ message := by
    rw [signatureOf]
    split_ifs <;> decide
  verify_sign _ message _ := by simp

attribute [local instance] ed25519Signing

/-- A catalog in which nothing is published yet. -/
def catalog : PublicPeerCatalog where
  peerId := lit "m"
  seed := List.replicate 32 1
  receiptKeys := config.receiptPublicKeys
  published := .empty
  peer := by decide
  seedLength := by decide

/-- The store of the peer, with the artifact of the result. -/
def peerStore : Store := ((MemoryStore.empty (lit "m")).putBlob blob).view

/-- The served result is published. -/
def publications : List CatalogCall :=
  [.publish peerStore action manifest receipt (lit "public")]

/-- A peer whose requests are admitted. -/
def httpPeer : HttpFederationPeer where
  server := ⟨catalog.performAll publications, peerStore, 50000000⟩
  clock := observedAt
  admission _ := ⟨true, true, true⟩
  maxAvailabilityResponseBytes := 1000000
  maxBundleResponseBytes := 50000000

/-- The documents that are published have distinct keys. -/
theorem wellFormed_publications : ∀ call ∈ publications, call.WellFormed := by
  simp [publications, CatalogCall.WellFormed, action, manifest, receipt, signature,
    Value.WellFormed, Value.WellFormedItems, Value.WellFormedList]

/-- The fields of the manifest. -/
theorem fields_manifest : (validateManifest manifest).toOption.map (fun fields =>
    (fields.actionDigest, fields.producer, fields.artifacts)) =
      some (requestedDigest, lit "p", [⟨lit "body", blobDigest, 3, lit "text/plain"⟩]) := by
  decide +kernel

/-- A manifest with this document has these fields. -/
theorem fields_of_document {m : Manifest} (h : m.document = manifest) :
    m.fields.actionDigest = requestedDigest ∧ m.fields.producer = lit "p" ∧
      m.fields.artifacts = [⟨lit "body", blobDigest, 3, lit "text/plain"⟩] := by
  have hfields := fields_manifest
  rw [← h, m.valid, Except.toOption, Option.map_some, Option.some.injEq, Prod.mk.injEq,
    Prod.mk.injEq] at hfields
  exact hfields

/-- The served result passes the checks of the catalog. -/
theorem exists_checkPublication : ∃ result,
    catalog.checkPublication peerStore action manifest receipt (lit "public") = .ok result ∧
      result.manifest.digest = servedDigest := by
  have h : (catalog.checkPublication peerStore action manifest receipt
      (lit "public")).toOption.map (fun result => result.manifest.digest) = some servedDigest := by
    decide +kernel
  obtain ⟨result, hresult, hdigest⟩ := Option.map_eq_some_iff.mp h
  exact ⟨result, Except.toOption_eq_some.mp hresult, hdigest⟩

/-- The served result is set in the catalog. -/
theorem exists_published : ∃ result : Published,
    catalog.performAll publications = catalog.setPublished result ∧
      (catalog.setPublished result).published.entries = [(servedDigest, result)] ∧
      PublicPeerCatalog.PublicationAccepted catalog peerStore action manifest receipt result := by
  obtain ⟨result, hresult, hdigest⟩ := exists_checkPublication
  refine ⟨result, ?_, ?_, (PublicPeerCatalog.checkPublication_eq_ok.mp hresult).2⟩
  · rw [publications, PublicPeerCatalog.performAll, List.foldl_cons, List.foldl_nil,
      PublicPeerCatalog.perform, PublicPeerCatalog.publish, hresult]
  · rw [← hdigest]
    rfl

/-- The catalog is consistent with what it has published. -/
theorem consistent_publications : (catalog.performAll publications).Consistent :=
  (PublicPeerCatalog.consistent_of_published_eq_empty rfl).performAll wellFormed_publications

/-- The digest of the blob. -/
theorem digestBytes_blob : digestBytes blob = blobDigest := by
  decide +kernel

/-- The blob is found under its digest. -/
theorem getBlob_blobDigest : peerStore.getBlob blobDigest = .ok (some blob) := by
  show Except.ok ((Dict.empty.set (digestBytes blob) blob).get? blobDigest) = _
  rw [Dict.get?_set, if_pos digestBytes_blob.symm]

/-- The result can be fetched, with its artifact. -/
theorem fetchBundle_served :
    (catalog.performAll publications).fetchBundle peerStore servedDigest = .ok (some bundle) := by
  obtain ⟨result, hperform, hentries, haccepted⟩ := exists_published
  have hget : (catalog.performAll publications).published.get? servedDigest = some result := by
    rw [hperform]
    exact Dict.mem_entries_iff.mp (hentries ▸ List.mem_singleton_self _)
  have hread : PublicPeerCatalog.readBlob peerStore blobDigest = .ok (some blob) :=
    mapError_eq_ok.mpr getBlob_blobDigest
  rw [PublicPeerCatalog.fetchBundle, hget]
  dsimp only
  rw [(fields_of_document haccepted.sameManifest).2.2, haccepted.sameManifest,
    haccepted.sameReceipt, List.mapM_cons, hread]
  rfl

/-- The served result is advertised alone. -/
theorem exists_listed : ∃ e, (catalog.performAll publications).listed = [e] ∧
    PublicPeerCatalog.entryDocument e = entry servedDigest ∧
    PublicPeerCatalog.entryOf e = readEntry servedDigest ∧
    totalSize e.2.manifest.fields.artifacts = 3 := by
  obtain ⟨result, hperform, hentries, haccepted⟩ := exists_published
  obtain ⟨hrequested, -, hartifacts⟩ := fields_of_document haccepted.sameManifest
  have hsize : totalSize result.manifest.fields.artifacts = 3 := by
    rw [hartifacts]
    rfl
  refine ⟨(servedDigest, result), ?_, ?_, ?_, hsize⟩
  · rw [hperform, PublicPeerCatalog.listed, hentries]
    rfl
  · rw [PublicPeerCatalog.entryDocument, hrequested, haccepted.sameAction, hsize]
    rfl
  · rw [PublicPeerCatalog.entryOf, hrequested, haccepted.sameAction, hsize]
    rfl

/-- The catalog keeps its name. -/
theorem peerId_publications : (catalog.performAll publications).peerId = lit "m" := by
  obtain ⟨result, hperform, -⟩ := exists_published
  rw [hperform]
  rfl

/-- The manifest above, with a signature. -/
def servedWith (signature : Value) : Value :=
  .dict [(lit "spec_version", .str (lit "oncemesh.availability/v0")),
    (lit "peer_id", .str (lit "m")), (lit "generated_at", .str (lit "2026-08-24T22:00:00Z")),
    (lit "entries", .list [entry servedDigest]), (lit "signature", signature)]

/-- It is what the catalog advertises. -/
theorem availabilityDocument_served (signature : Value) :
    (catalog.performAll publications).availabilityDocument observedAt signature =
      servedWith signature := by
  obtain ⟨e, hlisted, hentry, -, -⟩ := exists_listed
  have htime : formatTime observedAt = lit "2026-08-24T22:00:00Z" := by decide +kernel
  rw [PublicPeerCatalog.availabilityDocument, peerId_publications, hlisted, List.map_singleton,
    hentry, htime, servedWith]

/-- Canonical JSON stores it. -/
theorem inProfile_served {signature : Value} (hsignature : InProfile signature) :
    InProfile ((catalog.performAll publications).availabilityDocument observedAt signature) := by
  obtain ⟨e, hlisted, -, -, hsize⟩ := exists_listed
  have hdigest := consistent_publications.digest
  refine (PublicPeerCatalog.inProfile_availabilityDocument hdigest observedAt hsignature).mpr
    ⟨peerId_publications ▸ clean_lit "m", fun f hf => ?_⟩
  rw [← PublicPeerCatalog.mem_listed, hlisted, List.mem_singleton] at hf
  rw [hf, hsize]
  decide

/-- The peer signs it with the signature above. -/
theorem signatureBytes_served :
    (catalog.performAll publications).signatureBytes observedAt = servedSignature := by
  have hunsigned : (catalog.performAll publications).availabilityDocument observedAt .none =
    servedAvailability := availabilityDocument_served .none
  have hinput : availabilitySigningInput servedAvailability =
      .ok ((catalog.performAll publications).signedMessage observedAt) := by
    rw [← hunsigned, PublicPeerCatalog.availabilitySigningInput_availabilityDocument
      consistent_publications.digest, canonicalJson_of_inProfile (inProfile_served .none)]
    rfl
  rw [PublicPeerCatalog.signatureBytes]
  change signatureOf ((catalog.performAll publications).signedMessage observedAt) = _
  rw [signatureOf, hinput, Except.toOption, if_pos rfl]

/-- The manifest is signed, and the signed one fits its limit. -/
theorem exists_signed : ∃ signed body,
    (catalog.performAll publications).availability observedAt = .ok signed ∧
      canonicalJson signed = .ok body ∧ body.length ≤ 1000000 := by
  have hdigest := consistent_publications.digest
  have hsignature := PublicPeerCatalog.inProfile_signatureDocument
    (catalog.performAll publications) observedAt
  have hstored := (PublicPeerCatalog.inProfile_availabilityDocument hdigest observedAt
    hsignature).mp (inProfile_served hsignature)
  refine ⟨_, _, (PublicPeerCatalog.availability_eq_ok hdigest).mpr ⟨hstored, rfl⟩,
    canonicalJson_of_inProfile (inProfile_served hsignature), ?_⟩
  rw [availabilityDocument_served, PublicPeerCatalog.signatureDocument, signatureBytes_served]
  change (canonicalBytes (servedWith (signature (digestBytes availabilityKey)
    (Base64.urlsafeEncode servedSignature)))).length ≤ _
  decide +kernel

/-- The manifest of the example fits its limit. -/
theorem answers_availability :
    httpPeer.Answers (lit "/v0/availability") httpPeer.maxAvailabilityResponseBytes := by
  obtain ⟨signed, body, hsigned, hbody, hlength⟩ := exists_signed
  refine ⟨.json body, ?_, hlength⟩
  have hlimit : ¬50000000 < body.length := by omega
  rw [HttpFederationPeer.respond, FederationHTTPServer.handle, httpPeer]
  simp only [Bool.not_true, Bool.false_eq_true, if_false, if_true]
  rw [hsigned, Except.ok_bind, FederationHTTPServer.respondJson, hbody, Except.ok_bind,
    if_neg hlimit]
  rfl

/-- The bundle of the example fits its limit. -/
theorem answers_bundle :
    httpPeer.Answers (lit "/v0/bundles/" ++ servedDigest) httpPeer.maxBundleResponseBytes := by
  have hdocument : (canonicalJson (bundleDocument bundle)).toOption.any (fun body =>
      body.length ≤ 50000000) = true := by decide +kernel
  simp only [Option.any_eq_true, decide_eq_true_eq, Except.toOption_eq_some] at hdocument
  obtain ⟨body, hbody, hlength⟩ := hdocument
  refine ⟨.json body, ?_, hlength⟩
  have hpath : bundlePath? (lit "/v0/bundles/" ++ servedDigest) = some servedDigest := by
    decide +kernel
  have hother : lit "/v0/bundles/" ++ servedDigest ≠ lit "/v0/availability" := by decide +kernel
  rw [HttpFederationPeer.respond, FederationHTTPServer.handle, httpPeer]
  simp only [Bool.not_true, Bool.false_eq_true, if_false]
  rw [if_neg hother, hpath]
  dsimp only
  rw [fetchBundle_served, Except.ok_bind]
  dsimp only
  rw [FederationHTTPServer.respondJson, hbody, Except.ok_bind, if_neg (not_lt.mpr hlength)]
  rfl

/-- Only the served result is advertised. -/
theorem eq_of_fetches {resultDigest : Str}
    (h : Fetches action (httpPeer.server.catalog.toPeerAt httpPeer.server.store httpPeer.clock)
      config observedAt resultDigest) : resultDigest = servedDigest := by
  obtain ⟨fields, requested, entry, hread, -, hentry, rfl⟩ := h
  obtain ⟨availability, havailability, haccepted⟩ := readAvailability_eq_ok.mp hread
  have hcatalog : httpPeer.server.catalog = catalog.performAll publications := by rw [httpPeer]
  have hclock : httpPeer.clock = observedAt := by rw [httpPeer]
  rw [PublicPeerCatalog.toPeerAt] at havailability
  dsimp only at havailability
  rw [hcatalog, hclock] at havailability
  obtain ⟨hvalid, -, -⟩ := PublicPeerCatalog.advertised_of_availability
    consistent_publications.digest havailability
  obtain rfl := Except.ok.inj (hvalid.symm.trans haccepted.valid)
  obtain ⟨e, hlisted, -, hread, -⟩ := exists_listed
  have hmem := List.mem_of_find?_eq_some (selectEntry_eq_ok.mp hentry).1
  rw [PublicPeerCatalog.advertised, hlisted, List.map_singleton, hread, List.mem_singleton] at hmem
  rw [hmem]
  rfl

end Example

open Example

attribute [local instance] zone Sha256.standard ed25519Signing

/-- The published result is read back, and imported over HTTP as from the catalog. -/
theorem transport_lossless_example :
    (∃ bundle body received,
      (catalog.performAll publications).fetchBundle peerStore servedDigest = .ok (some bundle) ∧
        canonicalJson (bundleDocument bundle) = .ok body ∧
        strictJson body >>= decodeBundle = .ok received ∧ received.Same bundle ∧
        received.artifacts.entries = [(lit "body", blob)]) ∧
      (importFromPeer action httpPeer.toPeer config observedAt .empty).1 =
        (importFromPeer action ((catalog.performAll publications).toPeer peerStore) config
          observedAt .empty).1 := by
  obtain ⟨hread, himport, -⟩ :=
    transport_lossless (show catalog.published = .empty from rfl) wellFormed_publications
  obtain ⟨body, received, hbody, hreceived, hsame⟩ :=
    hread peerStore servedDigest bundle fetchBundle_served
  have hsent : received.artifacts.entries = [(lit "body", blob)] :=
    List.perm_singleton.mp hsame.artifacts
  refine ⟨⟨bundle, body, received, fetchBundle_served, hbody, hreceived, hsame, hsent⟩, ?_⟩
  have hbundles : ∀ resultDigest, Fetches action
      (httpPeer.server.catalog.toPeerAt httpPeer.server.store httpPeer.clock) config observedAt
        resultDigest →
      httpPeer.Answers (lit "/v0/bundles/" ++ resultDigest) httpPeer.maxBundleResponseBytes := by
    intro resultDigest hfetches
    rw [eq_of_fetches hfetches]
    exact answers_bundle
  have hcatalog : httpPeer.server.catalog = catalog.performAll publications := by rw [httpPeer]
  have hstore : httpPeer.server.store = peerStore := by rw [httpPeer]
  have hclock : httpPeer.clock = observedAt := by rw [httpPeer]
  obtain ⟨-, hsame⟩ := himport httpPeer action config observedAt .empty hcatalog
    answers_availability hbundles
  have hequal := hsame hclock
  rw [hcatalog, hstore] at hequal
  exact hequal

end OnceMesh.Federation
