import OnceMesh.Cache.Admissible
import OnceMesh.Cache.Lookup
import OnceMesh.ExecutionCache

/-!
# Looking up what has been published

A `CacheWrite` is a value that a bridge has published. In a store that lists some writes and holds
nothing else (`HoldsWrites`), a lookup returns the value of the first write that is listed for the
digest of its action, was published by a trusted producer and has not expired
(`lookUp_of_holdsWrites`). Without collisions these are the writes for the same key, under the same
epochs, by a bridge with the same identity (`lookUp_eq_find?`).
-/

namespace OnceMesh

open Python

variable [Sha256]

/-- A value that a bridge has published. -/
structure CacheWrite where
  bridge : ExecutionCacheBridge
  epochs : Epochs
  key : ExecutionCacheKey
  value : EncodedExecutionValue
  now : DateTime
  freshUntil : Option DateTime
  envelope : Bytes
  manifest : Manifest
  packed : packExecutionValue value = .ok envelope
  published : (bridge.resultData now envelope freshUntil).toManifest
    (bridge.actionFor epochs key) = .ok manifest

namespace CacheWrite

/-- The action the value is a result of. -/
def action (w : CacheWrite) : Value := w.bridge.actionFor w.epochs w.key

/-- The digest the value is published under. -/
def digest (w : CacheWrite) : Str := w.manifest.fields.actionDigest

/-- A bridge accepts the value: the producer is its own, and the value has not expired. -/
def accepted (w : CacheWrite) (bridge : ExecutionCacheBridge) (now : DateTime) : Bool :=
  w.bridge.producer = bridge.producer && w.freshUntil.all fun boundary => now ≤ boundary

/-- What a lookup finds, when the store has read a manifest. -/
def hit (w : CacheWrite) (tier : Str) (manifest : Manifest) : Hit :=
  ⟨tier, manifest, [(lit "value", w.envelope)], none⟩

variable (w : CacheWrite)

theorem actionDigest_action : actionDigest w.action = .ok w.digest ∧
    PublishedAs w.manifest w.digest (w.bridge.resultData w.now w.envelope w.freshUntil) := by
  obtain ⟨requested, haction, hpublished⟩ := publishedAs_of_toManifest w.published
  have hdigest : w.digest = requested := hpublished.actionDigest
  rw [hdigest]
  exact ⟨haction, hpublished⟩

theorem digest_eq : InProfile w.action ∧ w.digest = digestOf w.action := by
  obtain ⟨-, hobject⟩ := Except.check_eq_ok.mp w.actionDigest_action.1
  exact objectDigest_eq_ok.mp hobject

/-- The one artifact of the result. -/
theorem artifacts_eq : w.manifest.fields.artifacts =
    [⟨lit "value", digestBytes w.envelope, w.envelope.length, valueMediaType⟩] :=
  artifacts_of_toManifest w.published

theorem dependencies_eq : w.manifest.fields.dependencies = none :=
  dependencies_of_toManifest w.published rfl

/-- The value is unpacked from what a lookup finds. -/
theorem readHit_hit (tier : Str) {manifest : Manifest}
    (hmanifest : manifest.fields = w.manifest.fields) :
    readHit (w.hit tier manifest) = .ok (some w.value) := by
  simp [readHit, hit, hmanifest, w.artifacts_eq, unpackExecutionValue_of_pack w.packed]

end CacheWrite

/-! ### Lookups in a store that holds writes -/

/-- A store lists some writes for each digest and holds no other record. What it lists has the
fields of what has been published; the members of a document may be in another order. -/
structure HoldsWrites (store : Store) (listed : Str → List CacheWrite) : Prop where
  digest : ∀ digest, ∀ w ∈ listed digest, w.digest = digest
  candidates : ∀ digest, isDigest digest = true → ∃ read : List Manifest,
    store.candidates digest = .ok (read.map Manifest.document) ∧
      read.map Manifest.fields = (listed digest).map fun w => w.manifest.fields
  getBlob : ∀ digest, ∀ w ∈ listed digest,
    store.getBlob (digestBytes w.envelope) = .ok (some w.envelope)
  validations : ∀ digest, isDigest digest = true → store.validations digest = .ok []
  invalidations : ∀ reader ∈ store.invalidations, ∀ digest, isDigest digest = true →
    reader digest = .ok []

variable {store : Store} {listed : Str → List CacheWrite} (bridge : ExecutionCacheBridge)
  (now : DateTime)

/-- A write is trusted by the bridges with its producer. -/
theorem trusts_producer (w : CacheWrite) :
    trusts (bridge.policy now).trustedProducers w.manifest.fields.producer =
      decide (w.bridge.producer = bridge.producer) := by
  rw [w.actionDigest_action.2.producer]
  simp [trusts, ExecutionCacheBridge.policy, ExecutionCacheBridge.resultData]

/-- A write is fresh until it expires. -/
theorem checkFreshness_write (h : HoldsWrites store listed) {w : CacheWrite} {manifest : Manifest}
    (hmanifest : manifest.fields = w.manifest.fields) :
    checkFreshness manifest store (bridge.policy now) =
      if w.freshUntil.all fun boundary => now ≤ boundary then .ok none else reject "expired" := by
  have hnone : store.validations manifest.digest = .ok [] :=
    h.validations _ (isDigest_digestBytes _)
  have hfresh := w.actionDigest_action.2.freshUntil
  rw [checkFreshness, hnone, hmanifest]
  cases hread : w.manifest.fields.freshUntil with
  | none =>
    rw [hread] at hfresh
    have hnever : w.freshUntil = none := hfresh.symm
    rw [hnever]
    rfl
  | some boundary =>
    rw [hread] at hfresh
    have hboundary : w.freshUntil = some boundary.instant := hfresh.symm
    rw [hboundary]
    by_cases hnow : now ≤ boundary.instant
    · simp [ExecutionCacheBridge.policy, hnow]
    · simp [ExecutionCacheBridge.policy, hnow]

/-- The checks of a write pass exactly when a bridge accepts it. -/
theorem checkResult_write (h : HoldsWrites store listed) {digest : Str} {w : CacheWrite}
    (hw : w ∈ listed digest) {manifest : Manifest}
    (hmanifest : manifest.fields = w.manifest.fields) :
    (w.accepted bridge now = true ∧ checkResult (bridge.policy now) manifest store false false =
        .ok ([(lit "value", w.envelope)], none)) ∨
      w.accepted bridge now = false ∧ ∃ reason,
        checkResult (bridge.policy now) manifest store false false =
          .error (.rejected reason) := by
  have hinvalidations : effectiveInvalidated manifest store (bridge.policy now) false =
      .ok () := by
    unfold effectiveInvalidated
    cases hreader : store.invalidations with
    | none => rfl
    | some reader =>
      have hread := h.invalidations reader hreader manifest.digest (isDigest_digestBytes _)
      simp only [hread]
      rfl
  have hartifacts : readArtifacts store [] w.manifest.fields.artifacts =
      .ok [(lit "value", w.envelope)] := by
    rw [w.artifacts_eq, readArtifacts, h.getBlob digest w hw]
    simp [readArtifacts, rejectIf]
  rw [checkResult, hmanifest, trusts_producer, w.dependencies_eq, Option.isSome_none,
    Bool.or_false, hinvalidations]
  unfold CacheWrite.accepted
  by_cases htrusted : w.bridge.producer = bridge.producer
  · by_cases hfresh : (w.freshUntil.all fun boundary => now ≤ boundary) = true
    · left
      simp [htrusted, hfresh, checkFreshness_write bridge now h hmanifest, hartifacts, rejectIf]
    · right
      simp only [htrusted, hfresh, checkFreshness_write bridge now h hmanifest]
      exact ⟨rfl, _, rfl⟩
  · right
    simp only [htrusted]
    exact ⟨rfl, _, rfl⟩

/-- A write is a hit for its action exactly when a bridge accepts it. -/
theorem evaluate_write (h : HoldsWrites store listed) {digest : Str} {w : CacheWrite}
    (hw : w ∈ listed digest) {manifest : Manifest}
    (hmanifest : manifest.fields = w.manifest.fields) (stores : List Store) :
    (w.accepted bridge now = true ∧
      evaluate stores (bridge.policy now) ((bridge.policy now).maxDependencyDepth + 1) [] digest
        manifest.document store 0 false =
        .ok ⟨manifest, [(lit "value", w.envelope)], none, 0⟩) ∨
      w.accepted bridge now = false ∧ ∃ reason,
        evaluate stores (bridge.policy now) ((bridge.policy now).maxDependencyDepth + 1) [] digest
          manifest.document store 0 false = .error (.rejected reason) := by
  have hdigest : manifest.fields.actionDigest = digest := by
    rw [hmanifest]
    exact h.digest digest w hw
  have hheader : checkHeader (bridge.policy now) digest manifest.document = .ok manifest :=
    checkHeader_eq_ok.mpr ⟨rfl, hdigest, by rintro ⟨⟩⟩
  have hroot : decide ((bridge.policy now).maxDependencyDepth <
      (bridge.policy now).maxDependencyDepth) = false := decide_eq_false (lt_irrefl _)
  rw [evaluate, hheader, Except.ok_bind, hroot]
  rcases checkResult_write bridge now h hw hmanifest with
    ⟨haccepted, hcheck⟩ | ⟨haccepted, reason, hcheck⟩
  · refine .inl ⟨haccepted, ?_⟩
    rw [hcheck, hmanifest, w.dependencies_eq]
    rfl
  · refine .inr ⟨haccepted, reason, ?_⟩
    rw [hcheck]
    rfl

/-- A search among writes for one digest finds the first that is accepted. -/
theorem searchStore_writes (h : HoldsWrites store listed) (stores : List Store) {digest : Str}
    {read : List Manifest} {writes : List CacheWrite}
    (hread : List.Forall₂ (fun manifest w => manifest.fields = w.manifest.fields) read writes)
    (hwrites : ∀ w ∈ writes, w ∈ listed digest) (rejections : List Str) :
    ∃ found rejections', searchStore stores (bridge.policy now) digest false store
        (read.map Manifest.document) rejections = .ok (found, rejections') ∧
      Option.Rel (fun hit w => readHit hit = .ok (some w.value)) found
        (writes.find? fun w => w.accepted bridge now) := by
  induction hread generalizing rejections with
  | nil => exact ⟨none, rejections, rfl, .none⟩
  | @cons manifest w read writes hmanifest _ ih =>
    rw [List.forall_mem_cons] at hwrites
    rw [List.map_cons, searchStore, List.find?_cons]
    rcases evaluate_write bridge now h hwrites.1 hmanifest stores with
      ⟨haccepted, heval⟩ | ⟨haccepted, reason, heval⟩
    · rw [heval, haccepted]
      exact ⟨_, rejections, rfl, .some (w.readHit_hit store.name hmanifest)⟩
    · rw [heval, haccepted]
      exact ih hwrites.2 _

/-- A lookup returns the value of the first write that is listed for the digest of the action and
that the bridge accepts. -/
theorem lookUp_of_holdsWrites (h : HoldsWrites store listed) {action : Value} {digest : Str}
    (haction : actionDigest action = .ok digest) :
    bridge.lookUp [store] now action =
      .ok (((listed digest).find? fun w => w.accepted bridge now).map CacheWrite.value) := by
  have hdigest : isDigest digest = true := by
    obtain ⟨-, hobject⟩ := Except.check_eq_ok.mp haction
    rw [(objectDigest_eq_ok.mp hobject).2]
    exact isDigest_digestBytes _
  obtain ⟨read, hcandidates, hfields⟩ := h.candidates digest hdigest
  have hread : List.Forall₂ (fun (manifest : Manifest) (w : CacheWrite) =>
      manifest.fields = w.manifest.fields) read (listed digest) := by
    rw [← List.forall₂_eq_eq_eq, List.forall₂_map_left_iff, List.forall₂_map_right_iff] at hfields
    exact hfields
  obtain ⟨found, rejections, hsearch, hfound⟩ :=
    searchStore_writes bridge now h [store] hread (fun w hw => hw) []
  have hreuse : reuse action [store] (bridge.policy now) = .ok ⟨found, rejections⟩ := by
    rw [reuse, haction, Except.ok_bind, searchStores, hcandidates]
    dsimp only
    rw [hsearch]
    cases found <;> rfl
  rw [ExecutionCacheBridge.lookUp, hreuse]
  generalize ((listed digest).find? fun w => w.accepted bridge now) = first at hfound ⊢
  cases hfound with
  | none => rfl
  | some hvalue => exact hvalue

/-- A lookup raises for an action without a digest. -/
theorem lookUp_of_actionDigest_error {action : Value} {e : PyError}
    (haction : actionDigest action = .error e) (stores : List Store) :
    bridge.lookUp stores now action = .error e := by
  have hreuse : reuse action stores (bridge.policy now) = .error e := by
    rw [reuse, haction]
    rfl
  -- it is not an error of a store
  have hvalue : e.isValueError = true := raisesOnly_actionDigest action e haction
  have hstore : isStoreReadError e = false := by
    cases e <;> first | rfl | cases hvalue
  rw [ExecutionCacheBridge.lookUp, hreuse]
  dsimp only
  rw [hstore]
  rfl

/-! ### The identity of a value -/

omit [Sha256] in
/-- What a bridge puts into its actions. -/
def ExecutionCacheBridge.identity (bridge : ExecutionCacheBridge) : Str × Str × Str :=
  (bridge.runtime, bridge.serializer, bridge.authorizationPartition)

omit [Sha256] in
theorem wellFormed_actionFor (bridge : ExecutionCacheBridge) (epochs : Epochs)
    (key : ExecutionCacheKey) : (bridge.actionFor epochs key).WellFormed := by
  simp [ExecutionCacheBridge.actionFor, Value.WellFormed, Value.WellFormedItems,
    Value.wellFormedList_iff]

omit [Sha256] in
/-- The canonical form of an action determines the identity of the bridge, the epochs and the
key. -/
theorem identity_eq_of_canonicalBytes {bridge bridge' : ExecutionCacheBridge}
    {epochs epochs' : Epochs} {key key' : ExecutionCacheKey}
    (h : InProfile (bridge.actionFor epochs key)) (h' : InProfile (bridge'.actionFor epochs' key'))
    (hbytes : canonicalBytes (bridge.actionFor epochs key) =
      canonicalBytes (bridge'.actionFor epochs' key')) :
    bridge.identity = bridge'.identity ∧ epochs = epochs' ∧ key = key' := by
  have hs : Storable (bridge.actionFor epochs key) := ⟨h, wellFormed_actionFor _ _ _⟩
  have hs' : Storable (bridge'.actionFor epochs' key') := ⟨h', wellFormed_actionFor _ _ _⟩
  have hsorted : (bridge.actionFor epochs key).sortKeys =
      (bridge'.actionFor epochs' key').sortKeys := by
    have hloaded := hs.loadJson
    rw [hbytes, hs'.loadJson] at hloaded
    exact (Except.ok.inj hloaded).symm
  -- the members of the two actions have the same canonical forms, however deep
  have htwo : ∀ p q, (((bridge.actionFor epochs key).get p).get q).sortKeys =
      (((bridge'.actionFor epochs' key').get p).get q).sortKeys := by
    intro p q
    rw [← get_sortKeys (hs.get p), ← get_sortKeys hs, hsorted, get_sortKeys hs',
      get_sortKeys (hs'.get p)]
  have hthree : ∀ p q r, ((((bridge.actionFor epochs key).get p).get q).get r).sortKeys =
      ((((bridge'.actionFor epochs' key').get p).get q).get r).sortKeys := by
    intro p q r
    rw [← get_sortKeys ((hs.get p).get q), htwo, get_sortKeys ((hs'.get p).get q)]
  have hruntime := htwo (lit "inputs") (lit "runtime")
  have hns := htwo (lit "inputs") (lit "namespace")
  have hkey := htwo (lit "inputs") (lit "key")
  have hpartition := htwo (lit "vary") (lit "authorization_partition")
  have hserializer := hthree (lit "executor") (lit "config") (lit "serializer")
  have hglobal := hthree (lit "executor") (lit "config") (lit "global_epoch")
  have hepoch := hthree (lit "executor") (lit "config") (lit "namespace_epoch")
  simp only [ExecutionCacheBridge.actionFor, Value.get_dict_cons, lit_inj, String.reduceEq,
    ↓reduceIte, Value.sortKeys, Value.str.injEq, Value.int.injEq, Nat.cast_inj, Value.list.injEq,
    Value.sortKeysList_eq, List.map_map]
    at hruntime hns hkey hpartition hserializer hglobal hepoch
  have hparts : key.ns = key'.ns := by
    have hstr : Function.Injective (Value.sortKeys ∘ Value.str) := fun a b hab =>
      Value.str.inj hab
    exact List.map_injective_iff.mpr hstr hns
  refine ⟨?_, Prod.ext hglobal hepoch, ?_⟩
  · rw [ExecutionCacheBridge.identity, hruntime, hserializer, hpartition]
    rfl
  · obtain ⟨ns, k, _, _⟩ := key
    obtain ⟨ns', k', _, _⟩ := key'
    cases hparts
    cases hkey
    rfl

/-! ### Lookups without collisions -/

/-- SHA-256 is collision free on some data. -/
def CollisionFreeOn (data : Set Bytes) : Prop := Set.InjOn Sha256.hash data

namespace CacheWrite

/-- The value was published for the key, under the epochs, by a bridge with the same identity. -/
def isFor (w : CacheWrite) (bridge : ExecutionCacheBridge) (epochs : Epochs)
    (key : ExecutionCacheKey) : Bool :=
  w.bridge.identity = bridge.identity && w.epochs = epochs && w.key = key

theorem isFor_eq_true {w : CacheWrite} {bridge : ExecutionCacheBridge} {epochs : Epochs}
    {key : ExecutionCacheKey} : w.isFor bridge epochs key = true ↔
      w.bridge.identity = bridge.identity ∧ w.epochs = epochs ∧ w.key = key := by
  simp [isFor, and_assoc]

/-- Bridges with the same identity have the same actions. -/
theorem action_of_isFor {w : CacheWrite} {bridge : ExecutionCacheBridge} {epochs : Epochs}
    {key : ExecutionCacheKey} (h : w.isFor bridge epochs key = true) :
    w.action = bridge.actionFor epochs key := by
  obtain ⟨hidentity, rfl, rfl⟩ := isFor_eq_true.mp h
  simp only [ExecutionCacheBridge.identity, Prod.mk.injEq] at hidentity
  obtain ⟨hruntime, hserializer, hpartition⟩ := hidentity
  rw [action, ExecutionCacheBridge.actionFor, ExecutionCacheBridge.actionFor, hruntime, hserializer,
    hpartition]

/-- Without collisions, a digest belongs to one key of one bridge under one pair of epochs. -/
theorem digest_eq_iff_isFor {data : Set Bytes} (hfree : CollisionFreeOn data) (w : CacheWrite)
    (hw : canonicalBytes w.action ∈ data) {bridge : ExecutionCacheBridge} {epochs : Epochs}
    {key : ExecutionCacheKey} (hkey : canonicalBytes (bridge.actionFor epochs key) ∈ data)
    {digest : Str} (haction : actionDigest (bridge.actionFor epochs key) = .ok digest) :
    w.digest = digest ↔ w.isFor bridge epochs key = true := by
  constructor
  · intro h
    obtain ⟨-, hobject⟩ := Except.check_eq_ok.mp haction
    obtain ⟨hprofile, hdigest⟩ := objectDigest_eq_ok.mp hobject
    obtain ⟨hprofile', hdigest'⟩ := w.digest_eq
    rw [hdigest, hdigest'] at h
    exact isFor_eq_true.mpr (identity_eq_of_canonicalBytes hprofile' hprofile
      (hfree hw hkey (digestBytes_inj.mp h)))
  · intro h
    have hsame := w.actionDigest_action.1
    rw [action_of_isFor h, haction] at hsame
    exact (Except.ok.inj hsame).symm

end CacheWrite

/-- Without collisions, a lookup returns the value of the first write that is listed of those for
the key, under the epochs and the identity of the bridge, and that the bridge accepts. -/
theorem lookUp_eq_find? {order : List CacheWrite → List CacheWrite} {writes : List CacheWrite}
    (h : HoldsWrites store fun digest => order (writes.filter fun w => w.digest = digest))
    {data : Set Bytes} (hfree : CollisionFreeOn data)
    (hwrites : ∀ w ∈ writes, canonicalBytes w.action ∈ data)
    {epochs : Epochs} {key : ExecutionCacheKey}
    (hkey : canonicalBytes (bridge.actionFor epochs key) ∈ data) {digest : Str}
    (haction : actionDigest (bridge.actionFor epochs key) = .ok digest) :
    bridge.lookUp [store] now (bridge.actionFor epochs key) =
      .ok (((order (writes.filter fun w => w.isFor bridge epochs key)).find? fun w =>
        w.accepted bridge now).map CacheWrite.value) := by
  have hsame : (writes.filter fun w => w.digest = digest) =
      writes.filter fun w => w.isFor bridge epochs key := by
    refine List.filter_congr fun w hw => ?_
    rw [Bool.eq_iff_iff, decide_eq_true_eq]
    exact w.digest_eq_iff_isFor hfree (hwrites w hw) hkey haction
  rw [lookUp_of_holdsWrites bridge now h haction, hsame]

end OnceMesh
