import OnceMesh.ExecutionCache.LastWrite
import OnceMesh.Integrations.Interleaving

/-!
# Exact cache identity

The action of a bridge is made of seven components, and the opaque key of an indexed adapter of a
native key and a revision. `actionFor_identity_iff` says that the canonical encodings of both tell
the components apart, and so do the digests when SHA-256 does not collide.
-/

namespace OnceMesh

open Python

/-- The seven components of a cache identity. -/
structure SameIdentity (bridge bridge' : ExecutionCacheBridge) (epochs epochs' : Epochs)
    (key key' : ExecutionCacheKey) : Prop where
  runtime : bridge.runtime = bridge'.runtime
  serializer : bridge.serializer = bridge'.serializer
  authorizationPartition : bridge.authorizationPartition = bridge'.authorizationPartition
  ns : key.ns = key'.ns
  key : key.key = key'.key
  globalEpoch : epochs.1 = epochs'.1
  namespaceEpoch : epochs.2 = epochs'.2

/-- A revision of a native key. -/
structure SameRevision (k k' : NativeKey) (generation generation' : ℕ)
    (publicationId publicationId' : Option Str) : Prop where
  key : k.2 = k'.2
  generation : generation = generation'
  publicationId : publicationId = publicationId'

section

variable {bridge bridge' : ExecutionCacheBridge} {epochs epochs' : Epochs}
  {key key' : ExecutionCacheKey}

theorem SameIdentity.actionFor_eq (h : SameIdentity bridge bridge' epochs epochs' key key') :
    bridge.actionFor epochs key = bridge'.actionFor epochs' key' := by
  simp only [ExecutionCacheBridge.actionFor, h.runtime, h.serializer, h.authorizationPartition,
    h.ns, h.key, h.globalEpoch, h.namespaceEpoch]

/-- The canonical encoding of an action determines the identity. -/
theorem canonicalJson_actionFor_iff {data : Bytes}
    (h : canonicalJson (bridge.actionFor epochs key) = .ok data) :
    canonicalJson (bridge'.actionFor epochs' key') = .ok data ↔
      SameIdentity bridge bridge' epochs epochs' key key' := by
  constructor
  · intro h'
    obtain ⟨hprofile, hdata⟩ := canonicalJson_eq_ok.mp h
    obtain ⟨hprofile', hdata'⟩ := canonicalJson_eq_ok.mp h'
    obtain ⟨hidentity, hepochs, hkey⟩ := identity_eq_of_canonicalBytes hprofile hprofile'
      (hdata.symm.trans hdata')
    simp only [ExecutionCacheBridge.identity, Prod.mk.injEq] at hidentity
    exact
      { runtime := hidentity.1
        serializer := hidentity.2.1
        authorizationPartition := hidentity.2.2
        ns := congrArg ExecutionCacheKey.ns hkey
        key := congrArg ExecutionCacheKey.key hkey
        globalEpoch := congrArg Prod.fst hepochs
        namespaceEpoch := congrArg Prod.snd hepochs }
  · intro hsame
    rw [← hsame.actionFor_eq]
    exact h

/-- The canonical encoding of an identity document determines the revision. -/
theorem canonicalJson_identity_iff {k k' : NativeKey} {generation generation' : ℕ}
    {publicationId publicationId' : Option Str} {data : Bytes}
    (h : canonicalJson (identity k.2 generation publicationId) = .ok data) :
    canonicalJson (identity k'.2 generation' publicationId') = .ok data ↔
      SameRevision k k' generation generation' publicationId publicationId' := by
  constructor
  · intro h'
    obtain ⟨hprofile, hdata⟩ := canonicalJson_eq_ok.mp h
    obtain ⟨hprofile', hdata'⟩ := canonicalJson_eq_ok.mp h'
    have hsame := (canonicalBytes_eq_iff hprofile hprofile' (identity_wellFormed _ _ _)
      (identity_wellFormed _ _ _)).mp (hdata.symm.trans hdata')
    obtain ⟨hkey, hgeneration, hid⟩ := identity_eq_of_same hsame
    exact ⟨hkey, hgeneration, hid⟩
  · rintro ⟨hkey, rfl, rfl⟩
    rw [← hkey]
    exact h

variable [Sha256]

/-- Without a collision, two documents have the same digest exactly when they have the same
canonical encoding. -/
theorem objectDigest_eq_iff {v w : Value}
    (hfree : CollisionFreeOn {canonicalBytes v, canonicalBytes w})
    {digest : Str} (h : objectDigest v = .ok digest) :
    objectDigest w = .ok digest ↔ canonicalJson w = .ok (canonicalBytes v) := by
  obtain ⟨-, rfl⟩ := objectDigest_eq_ok.mp h
  rw [objectDigest_eq_ok, canonicalJson_eq_ok]
  refine and_congr_right fun hprofile => ?_
  rw [digestOf, digestOf, digestBytes_inj]
  refine ⟨fun hhash => ?_, fun hbytes => by rw [hbytes]⟩
  exact hfree (by simp) (by simp) hhash

/-- Without a collision, the digest of an action determines the identity. -/
theorem actionDigest_actionFor_iff
    (hfree : CollisionFreeOn {canonicalBytes (bridge.actionFor epochs key),
      canonicalBytes (bridge'.actionFor epochs' key')}) {digest : Str}
    (h : actionDigest (bridge.actionFor epochs key) = .ok digest) :
    actionDigest (bridge'.actionFor epochs' key') = .ok digest ↔
      SameIdentity bridge bridge' epochs epochs' key key' := by
  constructor
  · intro h'
    obtain ⟨-, hobject⟩ := Except.check_eq_ok.mp h
    obtain ⟨-, hobject'⟩ := Except.check_eq_ok.mp h'
    have hprofile := (objectDigest_eq_ok.mp hobject).1
    exact (canonicalJson_actionFor_iff (canonicalJson_of_inProfile hprofile)).mp
      ((objectDigest_eq_iff hfree hobject).mp hobject')
  · intro hsame
    rw [← hsame.actionFor_eq]
    exact h

/-- Without a collision, a core key determines the namespace and the revision. -/
theorem coreKey_eq_iff {k k' : NativeKey} {generation generation' : ℕ}
    {publicationId publicationId' : Option Str}
    (hfree : CollisionFreeOn {canonicalBytes (identity k.2 generation publicationId),
      canonicalBytes (identity k'.2 generation' publicationId')}) {core : List Str × Str}
    (h : coreKey k generation publicationId = .ok core) :
    coreKey k' generation' publicationId' = .ok core ↔
      k.1 = k'.1 ∧ SameRevision k k' generation generation' publicationId publicationId' := by
  constructor
  · intro h'
    rw [coreKey, Except.check_eq_ok, Except.bind_eq_ok] at h h'
    obtain ⟨-, digest, hdigest, hkey⟩ := h
    obtain ⟨-, digest', hdigest', hkey'⟩ := h'
    obtain ⟨hns, hsame⟩ := Prod.mk.inj (Except.ok.inj (hkey.trans hkey'.symm))
    have hprofile := (objectDigest_eq_ok.mp hdigest).1
    rw [← hsame] at hdigest'
    exact ⟨hns, (canonicalJson_identity_iff (canonicalJson_of_inProfile hprofile)).mp
      ((objectDigest_eq_iff hfree hdigest).mp hdigest')⟩
  · rintro ⟨hns, hkey, rfl, rfl⟩
    rw [← Prod.ext hns hkey]
    exact h

end

/-- The canonical encoding of the action of a bridge tells the seven components of the identity
apart, and without a collision so does its digest; the same holds of the identity documents and the
core keys of an indexed adapter. -/
theorem actionFor_identity_iff [Sha256] :
    (∀ bridge bridge' epochs epochs' key key',
      (∀ data, canonicalJson (bridge.actionFor epochs key) = .ok data →
        (canonicalJson (bridge'.actionFor epochs' key') = .ok data ↔
          SameIdentity bridge bridge' epochs epochs' key key')) ∧
      (CollisionFreeOn {canonicalBytes (bridge.actionFor epochs key),
          canonicalBytes (bridge'.actionFor epochs' key')} →
        ∀ digest, actionDigest (bridge.actionFor epochs key) = .ok digest →
          (actionDigest (bridge'.actionFor epochs' key') = .ok digest ↔
            SameIdentity bridge bridge' epochs epochs' key key'))) ∧
    ∀ k k' generation generation' publicationId publicationId',
      (∀ data, canonicalJson (identity k.2 generation publicationId) = .ok data →
        (canonicalJson (identity k'.2 generation' publicationId') = .ok data ↔
          SameRevision k k' generation generation' publicationId publicationId')) ∧
      (CollisionFreeOn {canonicalBytes (identity k.2 generation publicationId),
          canonicalBytes (identity k'.2 generation' publicationId')} →
        ∀ core, coreKey k generation publicationId = .ok core →
          (coreKey k' generation' publicationId' = .ok core ↔
            k.1 = k'.1 ∧ SameRevision k k' generation generation' publicationId publicationId')) :=
  ⟨fun _ _ _ _ _ _ => ⟨fun _ h => canonicalJson_actionFor_iff h,
    fun hfree _ h => actionDigest_actionFor_iff hfree h⟩,
    fun _ _ _ _ _ _ => ⟨fun _ h => canonicalJson_identity_iff h, fun hfree _ h =>
      coreKey_eq_iff hfree h⟩⟩

theorem isOk_actionDigest_exampleBridge :
    (@actionDigest Sha256.standard (exampleBridge.actionFor (1, 0) exampleKey)).isOk = true := by
  decide +kernel

theorem isOk_coreKey_examplePublication :
    (@coreKey Sha256.standard ([], lit "k") 1 none).isOk = true := by
  decide +kernel

theorem collisionFreeOn_exampleActions :
    @CollisionFreeOn Sha256.standard {canonicalBytes (exampleBridge.actionFor (1, 0) exampleKey),
      canonicalBytes (exampleBridge.actionFor (0, 1) exampleKey)} := by
  have hne :
    @Sha256.hash Sha256.standard (canonicalBytes (exampleBridge.actionFor (1, 0) exampleKey)) ≠
      @Sha256.hash Sha256.standard
        (canonicalBytes (exampleBridge.actionFor (0, 1) exampleKey)) := by
    decide +kernel
  exact Set.injOn_pair.mpr fun h => absurd h hne

theorem collisionFreeOn_exampleRevisions :
    @CollisionFreeOn Sha256.standard {canonicalBytes (identity (lit "k") 1 none),
      canonicalBytes (identity (lit "k") 1 (some []))} := by
  have hne : @Sha256.hash Sha256.standard (canonicalBytes (identity (lit "k") 1 none)) ≠
      @Sha256.hash Sha256.standard (canonicalBytes (identity (lit "k") 1 (some []))) := by
    decide +kernel
  exact Set.injOn_pair.mpr fun h => absurd h hne

/-- The two epochs are not exchanged, and no publication is not an empty publication id. -/
theorem actionFor_identity_iff_epochs :
    ∃ digest core,
      @actionDigest Sha256.standard (exampleBridge.actionFor (1, 0) exampleKey) = .ok digest ∧
      @actionDigest Sha256.standard (exampleBridge.actionFor (0, 1) exampleKey) ≠ .ok digest ∧
      @coreKey Sha256.standard ([], lit "k") 1 none = .ok core ∧
      @coreKey Sha256.standard ([], lit "k") 1 (some []) ≠ .ok core := by
  obtain ⟨digest, hdigest⟩ := Except.exists_of_isOk isOk_actionDigest_exampleBridge
  obtain ⟨core, hcore⟩ := Except.exists_of_isOk isOk_coreKey_examplePublication
  refine ⟨digest, core, hdigest, fun h => ?_, hcore, fun h => ?_⟩
  · have hsame := (((@actionFor_identity_iff Sha256.standard).1 exampleBridge exampleBridge (1, 0)
      (0, 1) exampleKey exampleKey).2 collisionFreeOn_exampleActions digest hdigest).mp h
    exact absurd hsame.globalEpoch (by decide)
  · have hsame := (((@actionFor_identity_iff Sha256.standard).2 ([], lit "k") ([], lit "k") 1 1 none
      (some [])).2 collisionFreeOn_exampleRevisions core hcore).mp h
    exact absurd hsame.2.publicationId (by simp)

end OnceMesh
