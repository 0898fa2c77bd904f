import OnceMesh.ExecutionCache.Stores

/-!
# Publishing values

What a bridge publishes for a pair is determined by the pair, the epochs and the time
(`CacheWrite.make`); the store only takes it. `Recorded` says that a store has taken exactly some
writes, together with the data that has been hashed on the way.
-/

namespace OnceMesh

open Python

variable [Sha256] {σ : Type}

/-- What is published for a pair. -/
def CacheWrite.make (bridge : ExecutionCacheBridge) (epochs : Epochs) (key : ExecutionCacheKey)
    (value : EncodedExecutionValue) (now : DateTime) (ttl : Option ℤ) : Except PyError CacheWrite :=
  match hpacked : packExecutionValue value with
  | .error e => .error e
  | .ok envelope =>
    match ttlBoundary now ttl with
    | .error e => .error e
    | .ok boundary =>
      match hpublished : (bridge.resultData now envelope boundary).toManifest
          (bridge.actionFor epochs key) with
      | .error e => .error e
      | .ok manifest => .ok
        { bridge, epochs, key, value, now, freshUntil := boundary, envelope, manifest
          packed := hpacked
          published := hpublished }

/-- A write is what it was made of. -/
structure CacheWrite.MadeOf (w : CacheWrite) (bridge : ExecutionCacheBridge) (epochs : Epochs)
    (key : ExecutionCacheKey) (value : EncodedExecutionValue) (now : DateTime) (ttl : Option ℤ) :
    Prop where
  bridge_eq : w.bridge = bridge
  epochs_eq : w.epochs = epochs
  key_eq : w.key = key
  value_eq : w.value = value
  now_eq : w.now = now
  freshUntil_eq : ttlBoundary now ttl = .ok w.freshUntil

variable {bridge : ExecutionCacheBridge} {epochs : Epochs} {key : ExecutionCacheKey}
  {value : EncodedExecutionValue} {now : DateTime} {ttl : Option ℤ}

theorem CacheWrite.madeOf_of_make {w : CacheWrite}
    (h : CacheWrite.make bridge epochs key value now ttl = .ok w) :
    w.MadeOf bridge epochs key value now ttl := by
  unfold make at h
  split at h
  · cases h
  next envelope hpacked =>
    split at h
    · cases h
    next boundary hboundary =>
      split at h
      · cases h
      · cases h
        exact ⟨rfl, rfl, rfl, rfl, rfl, hboundary⟩

/-- What publishing a value gives to SHA-256: its envelope and its action. -/
def hashedFor (bridge : ExecutionCacheBridge) (epochs : Epochs) (key : ExecutionCacheKey)
    (value : EncodedExecutionValue) : List Bytes :=
  (packExecutionValue value).toOption.toList ++ [canonicalBytes (bridge.actionFor epochs key)]

/-- A write is put into a store: its envelope, and then its manifest. -/
def StorePuts.putWrite (puts : StorePuts σ) (store : σ) (w : CacheWrite) : σ :=
  puts.putResult (puts.putBlob store w.envelope) w.manifest

/-- A bridge publishes a write, or raises after it has put the envelope, or before. -/
theorem publishValue_cases (puts : StorePuts σ) (store : σ) :
    (∃ w, CacheWrite.make bridge epochs key value now ttl = .ok w ∧
      bridge.publishValue puts.writer now (bridge.actionFor epochs key) value ttl store =
        (.ok (), puts.putWrite store w)) ∨
    ∃ e, CacheWrite.make bridge epochs key value now ttl = .error e ∧
      (bridge.publishValue puts.writer now (bridge.actionFor epochs key) value ttl store =
          (.error e, store) ∨
        ∃ envelope, packExecutionValue value = .ok envelope ∧
          bridge.publishValue puts.writer now (bridge.actionFor epochs key) value ttl store =
            (.error e, puts.putBlob store envelope)) := by
  unfold CacheWrite.make
  split
  next e hpacked =>
    refine .inr ⟨e, rfl, .inl ?_⟩
    rw [ExecutionCacheBridge.publishValue, hpacked]
    rfl
  next envelope hpacked =>
    have hpack : (liftM (packExecutionValue value) : Stateful PyError σ Bytes) store =
        (.ok envelope, store) := by
      rw [hpacked]
      rfl
    rw [ExecutionCacheBridge.publishValue, Stateful.bind_apply_of_ok hpack]
    split
    next e hboundary =>
      refine .inr ⟨e, rfl, .inl ?_⟩
      rw [hboundary]
      rfl
    next boundary hboundary =>
      have hfresh : (liftM (ttlBoundary now ttl) : Stateful PyError σ (Option DateTime)) store =
          (.ok boundary, store) := by
        rw [hboundary]
        rfl
      rw [Stateful.bind_apply_of_ok hfresh]
      split
      next e hpublished =>
        refine .inr ⟨e, rfl, .inr ⟨envelope, hpacked, ?_⟩⟩
        exact Stateful.bind_apply_of_error (publishResult_of_error hpublished store)
      next manifest hpublished =>
        refine .inl ⟨_, rfl, ?_⟩
        exact Stateful.bind_apply_of_ok (publishResult_of_ok hpublished store)

/-! ### What a store has taken -/

section

variable [BridgeStore σ]

/-- A store has taken exactly some writes, the first of them the newest. What has been hashed
includes the envelopes and the actions. -/
structure Recorded (store : σ) (writes : List CacheWrite) (hashed : List Bytes) : Prop where
  took : BridgeStore.Took store writes
  blobs : ∀ digest data, (BlobStore.view store).getBlob digest = .ok (some data) →
    digest = digestBytes data ∧ data ∈ hashed
  stored : ∀ w ∈ writes, ∃ data,
    (BlobStore.view store).getBlob (digestBytes w.envelope) = .ok (some data)
  hashed : ∀ w ∈ writes, w.envelope ∈ hashed ∧ canonicalBytes w.action ∈ hashed

namespace Recorded

variable {store : σ} {writes : List CacheWrite} {hashed : List Bytes}

/-- A new store has taken nothing. -/
theorem empty (name : Str) : Recorded (BlobStore.empty name : σ) [] [] where
  took := BridgeStore.took_empty name
  blobs digest data h := absurd h (BlobStore.getBlob_empty name digest data)
  stored := by simp
  hashed := by simp

/-- Hashing more. -/
theorem mono (h : Recorded store writes hashed) {hashed' : List Bytes}
    (hsubset : hashed ⊆ hashed') :
    Recorded store writes hashed' where
  took := h.took
  blobs digest data hget := ⟨(h.blobs digest data hget).1, hsubset (h.blobs digest data hget).2⟩
  stored := h.stored
  hashed w hw := ⟨hsubset (h.hashed w hw).1, hsubset (h.hashed w hw).2⟩

/-- An envelope is put. -/
theorem putBlob (h : Recorded store writes hashed) {envelope : Bytes} (hmem : envelope ∈ hashed) :
    Recorded (BlobStore.puts.putBlob store envelope) writes hashed where
  took := BridgeStore.took_putBlob h.took envelope
  blobs digest data hget := by
    rcases BlobStore.getBlob_putBlob hget with ⟨hdigest, hsame⟩ | hget
    · exact ⟨hsame ▸ hdigest, hsame ▸ hmem⟩
    · exact h.blobs digest data hget
  stored w hw := by
    obtain ⟨data, hdata⟩ := h.stored w hw
    exact BlobStore.exists_getBlob hdata envelope
  hashed := h.hashed

/-- A write is put. -/
theorem putWrite (h : Recorded store writes hashed) {w : CacheWrite}
    (hmem : w.envelope ∈ hashed ∧ canonicalBytes w.action ∈ hashed) :
    Recorded (BlobStore.puts.putWrite store w) (w :: writes) hashed := by
  have hblob := h.putBlob hmem.1
  have hstored := BlobStore.exists_getBlob_self store w.envelope
  refine ⟨BridgeStore.took_putResult hblob.took w, ?_, ?_, List.forall_mem_cons.mpr
    ⟨hmem, h.hashed⟩⟩
  all_goals
    rw [StorePuts.putWrite, BridgeStore.getBlob_putResult]
  · exact hblob.blobs
  · exact List.forall_mem_cons.mpr ⟨hstored, hblob.stored⟩

/-- A bridge publishes a value, or fails to. -/
theorem publishValue (h : Recorded store writes hashed) (bridge : ExecutionCacheBridge)
    (epochs : Epochs) (key : ExecutionCacheKey) (value : EncodedExecutionValue) (now : DateTime)
    (ttl : Option ℤ) :
    Recorded (bridge.publishValue BlobStore.puts.writer now (bridge.actionFor epochs key) value
      ttl store).2
      ((CacheWrite.make bridge epochs key value now ttl).toOption.toList ++ writes)
      (hashedFor bridge epochs key value ++ hashed) := by
  have hmore : Recorded store writes (hashedFor bridge epochs key value ++ hashed) :=
    h.mono (List.subset_append_right _ _)
  rcases @publishValue_cases _ _ bridge epochs key value now ttl BlobStore.puts store with
    ⟨w, hmake, hpublish⟩ | ⟨e, hmake, hpublish | ⟨envelope, hpacked, hpublish⟩⟩
  · have hmade := CacheWrite.madeOf_of_make hmake
    have hpacked := w.packed
    rw [hmade.value_eq] at hpacked
    rw [hpublish, hmake]
    refine hmore.putWrite ?_
    rw [CacheWrite.action, hmade.bridge_eq, hmade.epochs_eq, hmade.key_eq, hashedFor, hpacked]
    simp [Except.toOption]
  · rw [hpublish, hmake]
    exact hmore
  · rw [hpublish, hmake]
    refine hmore.putBlob ?_
    rw [hashedFor, hpacked]
    simp [Except.toOption]

/-- Without collisions, the store answers for the writes that it lists. -/
theorem holdsWrites (h : Recorded store writes hashed)
    (hfree : CollisionFreeOn {data | data ∈ hashed}) :
    HoldsWrites (BlobStore.view store) fun digest =>
      listedBy σ (writes.filter fun w => w.digest = digest) := by
  have hlisted : ∀ digest, ∀ w ∈ listedBy σ (writes.filter fun w => w.digest = digest),
      w ∈ writes ∧ w.digest = digest := fun digest w hw =>
    (List.mem_filter.mp (BridgeStore.order_subset _ hw)).imp_right of_decide_eq_true
  refine ⟨fun digest w hw => (hlisted digest w hw).2, BridgeStore.candidates_eq h.took,
    fun digest w hw => ?_, BridgeStore.validations_eq h.took, BridgeStore.invalidations_eq h.took⟩
  have hw := (hlisted digest w hw).1
  obtain ⟨data, hdata⟩ := h.stored w hw
  obtain ⟨hdigest, hmem⟩ := h.blobs _ _ hdata
  -- the data under the digest is the envelope
  have hsame : w.envelope = data := hfree (h.hashed w hw).1 hmem (digestBytes_inj.mp hdigest)
  rw [hdata, ← hsame]

end Recorded

end

end OnceMesh
