import OnceMesh.Federation.DurableRetention
import OnceMesh.Federation.Transport

/-!
# Runs of the federation cache on a filesystem

After every run of imports, interrupted or not, prunings and reads, the files hold the results that
the run has admitted, the last of each digest, as long as their leases last (`holds_performAll`).
What the cache answers is read off them (`durableCache_exact`). The leases are those of the cache in
memory after the same run (`leaseUntil_iff_retainedUntil`): that it keeps one record for a digest,
in a file, and reads it back for every answer, makes no difference to how long a result is there.
-/

namespace OnceMesh.Federation

open Python FilesystemFederationCacheStore

/-- A call on the cache, when its clock reads `now`. -/
inductive DurableCall where
  | importFromPeer (action : Value) (peer : FederationPeer) (config : FederationPeerConfig)
      (observedAt now : DateTime)
  /-- An import that is interrupted after some blobs are written. -/
  | interrupted (action : Value) (peer : FederationPeer) (config : FederationPeerConfig)
      (observedAt now : DateTime) (written : ℕ)
  | prune (now : DateTime)
  | getBlob (now : DateTime) (digest : Str)
  | candidates (now : DateTime) (actionDigest : Str)
  | receipts (now : DateTime) (resultDigest : Str)
  | leaseUntil (now : DateTime) (resultDigest : Str)
  | summary (now : DateTime)

/-- What the peer of an import serves are Python values. -/
def DurableCall.Serves : DurableCall → Prop
  | .importFromPeer _ peer _ _ _ | .interrupted _ peer _ _ _ _ =>
    FilesystemFederationCacheStore.Serves peer
  | _ => True

section

variable [Sha256] [LocalZone] [Ed25519]

namespace FilesystemFederationCacheStore

/-- The files after a call. -/
def perform (store : FilesystemFederationCacheStore) : DurableCall → FilesystemFederationCacheStore
  | .importFromPeer action peer config observedAt now =>
    (importFromPeer action peer config observedAt now store).2
  | .interrupted action peer config observedAt now written =>
    interrupt action peer config observedAt now written store
  | .prune now => (prune now store).2
  | .getBlob now digest => (getBlob now digest store).2
  | .candidates now actionDigest => (candidates now actionDigest store).2
  | .receipts now resultDigest => (receipts now resultDigest store).2
  | .leaseUntil now resultDigest => (leaseUntil now resultDigest store).2
  | .summary now => (summary now store).2

/-- The files after a run of calls. -/
def performAll (store : FilesystemFederationCacheStore) (calls : List DurableCall) :
    FilesystemFederationCacheStore :=
  calls.foldl perform store

end FilesystemFederationCacheStore

/-- What a call is for the leases. An interrupted import is nothing. -/
def DurableCall.event : DurableCall → Option (LeaseEvent Str (Manifest × Value × DateTime) DateTime)
  | .importFromPeer action peer config observedAt now =>
    (durablyAdmitted action peer config observedAt now).map .grant
  | .interrupted _ _ _ _ _ _ => none
  | .prune now | .getBlob now _ | .candidates now _ | .receipts now _ | .leaseUntil now _
  | .summary now => some (.prune now)

/-- The results that a run of calls leaves: the last of each digest. -/
def durableAfter (calls : List DurableCall) : List DurableResult :=
  Leased.runNewest (calls.filterMap DurableCall.event) []

/-! ### Reads -/

namespace FilesystemFederationCacheStore

variable {store : FilesystemFederationCacheStore} {items : List DurableResult}

omit [Ed25519] in
/-- What is read after pruning are the results whose lease has not ended. -/
theorem Holds.readLive (h : Holds store items) (now : DateTime) :
    readLive now store = (.ok ((listed (Leased.live now items)).map DurableResult.record),
      (prune now store).2) := by
  have hpruned : prune now store = (.ok _, _) := h.prune_apply now
  rw [FilesystemFederationCacheStore.readLive, Stateful.bind_apply_of_ok hpruned, hpruned]
  exact Prod.ext (h.remove now).1.readEntries rfl

omit [Ed25519] in
/-- Reads leave what pruning leaves. -/
theorem Holds.bind_readLive (h : Holds store items) (now : DateTime) {α : Type}
    (f : List CacheEntry → Stateful PyError FilesystemFederationCacheStore α) :
    (FilesystemFederationCacheStore.readLive now >>= f) store =
      f ((listed (Leased.live now items)).map DurableResult.record) (prune now store).2 :=
  Stateful.bind_apply_of_ok (h.readLive now)

omit [Ed25519] in
/-- Reading a blob leaves what pruning leaves. -/
theorem Holds.getBlob_snd (h : Holds store items) (now : DateTime) (digest : Str) :
    (getBlob now digest store).2 = (prune now store).2 := by
  have hpruned : prune now store = (.ok _, _) := h.prune_apply now
  rw [getBlob, Stateful.bind_apply_of_ok hpruned, hpruned]
  cases hpath : blobPath digest with
  | error e => rw [Stateful.bind_apply_of_error (Stateful.ofExcept_apply _ _)]
  | ok path =>
    rw [Stateful.bind_apply_of_ok (Stateful.ofExcept_apply _ _)]
    show (readBlob path digest _).2 = _
    rw [readBlob]
    split <;> rfl

/-! ### Runs -/

omit [Ed25519] in
/-- Pruning drops the results whose lease has ended. -/
theorem Holds.prune (h : Holds store items) (now : DateTime) :
    Holds (prune now store).2 (Leased.live now items) := by
  rw [h.prune_apply now]
  exact (h.remove now).1

/-- A call is its event. -/
theorem Holds.perform (h : Holds store items) {call : DurableCall} (hcall : call.Serves) :
    Holds (store.perform call) (Leased.runNewest call.event.toList items) := by
  cases call with
  | importFromPeer action peer config observedAt now =>
    rcases h.importFromPeer action config observedAt now hcall with
      ⟨hnone, hsame, -⟩ | ⟨x, total, stored, hsome, himport, hstored⟩
    · rw [DurableCall.event, hnone, FilesystemFederationCacheStore.perform, hsame]
      exact h
    · rw [DurableCall.event, hsome, FilesystemFederationCacheStore.perform, himport]
      exact hstored
  | interrupted action peer config observedAt now written =>
    exact h.interrupt observedAt now written hcall
  | prune now => exact h.prune now
  | getBlob now digest =>
    rw [FilesystemFederationCacheStore.perform, h.getBlob_snd]
    exact h.prune now
  | candidates now _ =>
    rw [FilesystemFederationCacheStore.perform, candidates, h.bind_readLive]
    exact h.prune now
  | receipts now _ =>
    rw [FilesystemFederationCacheStore.perform, receipts, h.bind_readLive]
    exact h.prune now
  | leaseUntil now _ =>
    rw [FilesystemFederationCacheStore.perform, leaseUntil, h.bind_readLive]
    exact h.prune now
  | summary now =>
    rw [FilesystemFederationCacheStore.perform, summary, h.bind_readLive]
    exact h.prune now

/-- A run of calls is a run of events. -/
theorem Holds.performAll (h : Holds store items) {calls : List DurableCall}
    (hcalls : ∀ call ∈ calls, call.Serves) :
    Holds (store.performAll calls)
      (Leased.runNewest (calls.filterMap DurableCall.event) items) := by
  induction calls generalizing store items with
  | nil => exact h
  | cons call rest ih =>
    rw [List.forall_mem_cons] at hcalls
    have hstep := ih (h.perform hcalls.1) hcalls.2
    cases hevent : call.event with
    | none =>
      rw [List.filterMap_cons_none hevent]
      rw [hevent] at hstep
      exact hstep
    | some event =>
      rw [List.filterMap_cons_some hevent]
      rw [hevent] at hstep
      exact hstep

/-- After every run, the files hold the results that the run leaves. -/
theorem holds_performAll {calls : List DurableCall} (hcalls : ∀ call ∈ calls, call.Serves) :
    Holds (empty.performAll calls) (durableAfter calls) :=
  holds_empty.performAll hcalls

/-! ### Answers -/

omit [LocalZone] [Ed25519] in
/-- What is read of a result is the result. -/
theorem Holds.map_filter_record (h : Holds store items) (keep : Str → ManifestFields → Bool) :
    ((listed items).map DurableResult.record).filter
        (fun record => keep record.manifest.digest record.manifest.fields) =
      ((listed items).filter fun x => keep x.key x.manifest.fields).map DurableResult.record := by
  rw [List.filter_map]
  refine congrArg _ (List.filter_congr fun x hx => ?_)
  obtain ⟨hdigest, hfields⟩ := h.key_record ((perm_listed items).mem_iff.mp hx)
  rw [Function.comp_apply, hdigest, hfields]

omit [Ed25519] in
/-- The candidates for an action are read back from the live results, the last import first. -/
theorem Holds.candidates (h : Holds store items) (now : DateTime) (actionDigest : Str) :
    (candidates now actionDigest store).1 = .ok
      ((((listed (Leased.live now items)).filter fun x =>
          x.manifest.fields.actionDigest = actionDigest).insertionSort fun x y =>
            y.importedAt ≤ x.importedAt).map fun x => readBackManifest x.manifest) := by
  have hfilter := (h.prune now).map_filter_record fun _ fields => fields.actionDigest = actionDigest
  rw [FilesystemFederationCacheStore.candidates, h.bind_readLive, hfilter,
    ← List.map_insertionSort (fun x y : DurableResult => y.importedAt ≤ x.importedAt)
      (fun a b : CacheEntry => b.importedAt ≤ a.importedAt) DurableResult.record _
        fun _ _ _ _ => Iff.rfl, Stateful.pure_apply, List.map_map]
  rfl

omit [Ed25519] in
/-- The receipts of a result are read back from the live results. -/
theorem Holds.receipts (h : Holds store items) (now : DateTime) (resultDigest : Str) :
    (receipts now resultDigest store).1 = .ok
      (((listed (Leased.live now items)).filter fun x => x.key = resultDigest).map fun x =>
        x.receipt.sortKeys) := by
  have hfilter := (h.prune now).map_filter_record fun key _ => key = resultDigest
  rw [FilesystemFederationCacheStore.receipts, h.bind_readLive, hfilter, Stateful.pure_apply,
    List.map_map]
  rfl

omit [Ed25519] in
/-- A blob is found just if a live result has it. -/
theorem Holds.getBlob (h : Holds store items) (now : DateTime) {digest : Str}
    (hdigest : isDigest digest = true) :
    ∃ answer, (getBlob now digest store).1 = .ok answer ∧
      (answer.isSome ↔ ∃ x ∈ Leased.live now items, digest ∈ DurableResult.blobs x) ∧
      ∀ data, answer = some data → digestBytes data = digest := by
  have hpruned : FilesystemFederationCacheStore.prune now store = (.ok _, _) := h.prune_apply now
  obtain ⟨hholds, hlive⟩ := h.remove now
  rw [FilesystemFederationCacheStore.getBlob, Stateful.bind_apply_of_ok hpruned,
    Stateful.bind_apply_of_ok (by rw [Stateful.ofExcept_apply, blobPath_of_isDigest hdigest]),
    readBlob]
  cases hfound : (store.remove now ((listed items).map DurableResult.record)).blobs.get?
      (blobFile digest) with
  | none =>
    refine ⟨none, rfl, iff_of_false Bool.false_ne_true ?_, fun _ h => by cases h⟩
    rintro ⟨x, hx, hmem⟩
    obtain ⟨-, data, hdata⟩ := hholds.blobs x hx digest hmem
    cases hfound.symm.trans hdata
  | some data =>
    have hhash := hholds.hashed digest data hdigest hfound
    refine ⟨some data, by simp [raiseIf, hhash, Except.map], iff_of_true rfl ?_, ?_⟩
    · obtain ⟨x, hx, hmem⟩ := hlive _ _ hfound
      rw [digest_of_blobFile hdigest] at hmem
      exact ⟨x, hx, hmem⟩
    · rintro _ ⟨⟩
      exact hhash

omit [Ed25519] in
/-- The end of a lease is the one of the live result. -/
theorem Holds.leaseUntil (h : Holds store items) (now : DateTime) (resultDigest : Str) :
    ∃ answer, (leaseUntil now resultDigest store).1 = .ok answer ∧
      ∀ ends, answer = some ends ↔ Leased.Leases (Leased.live now items) resultDigest ends := by
  have hmem : ∀ x, x ∈ listed (Leased.live now items) ↔ x ∈ Leased.live now items :=
    fun x => (perm_listed _).mem_iff
  have hkey : ∀ x ∈ Leased.live now items, (DurableResult.record x).manifest.digest = x.key :=
    fun x hx => ((h.prune now).key_record hx).1
  rw [FilesystemFederationCacheStore.leaseUntil, h.bind_readLive, Stateful.pure_apply]
  refine ⟨_, rfl, fun ends => ?_⟩
  rw [Option.map_eq_some_iff]
  constructor
  · rintro ⟨record, hfind, rfl⟩
    obtain ⟨x, hx, rfl⟩ := List.mem_map.mp (List.mem_of_find?_eq_some hfind)
    have hmatch := List.find?_some hfind
    rw [hmem] at hx
    simp only [hkey x hx, decide_eq_true_eq] at hmatch
    exact ⟨x, hx, hmatch, rfl⟩
  · rintro ⟨x, hx, rfl, rfl⟩
    -- there is one record for a digest, and it is the one that is found
    obtain ⟨record, hfind⟩ : ∃ record, ((listed (Leased.live now items)).map
        DurableResult.record).find? (fun record =>
          record.manifest.digest = x.key) = some record := by
      rw [← Option.isSome_iff_exists, List.find?_isSome]
      exact ⟨DurableResult.record x, List.mem_map_of_mem ((hmem x).mpr hx),
        decide_eq_true (hkey x hx)⟩
    refine ⟨record, hfind, ?_⟩
    obtain ⟨y, hy, rfl⟩ := List.mem_map.mp (List.mem_of_find?_eq_some hfind)
    have hmatch := List.find?_some hfind
    rw [hmem] at hy
    simp only [hkey y hy, decide_eq_true_eq] at hmatch
    rw [(h.prune now).eq_of_key hy hx hmatch]
    rfl

end FilesystemFederationCacheStore

/-- After every run, also with interrupted imports, every file is read. The cache answers from the
results whose lease has not ended, those imported last first; it drops the others, counts them, and
keeps no blob that none of its results names. -/
theorem durableCache_exact {calls : List DurableCall} (hcalls : ∀ call ∈ calls, call.Serves)
    (now : DateTime) :
    (∀ actionDigest, (candidates now actionDigest (empty.performAll calls)).1 = .ok
      ((((listed (Leased.live now (durableAfter calls))).filter fun x =>
          x.manifest.fields.actionDigest = actionDigest).insertionSort fun x y =>
            y.importedAt ≤ x.importedAt).map fun x => readBackManifest x.manifest)) ∧
    (∀ resultDigest, (receipts now resultDigest (empty.performAll calls)).1 = .ok
      (((listed (Leased.live now (durableAfter calls))).filter fun x => x.key = resultDigest).map
        fun x => x.receipt.sortKeys)) ∧
    (∀ digest, isDigest digest = true → ∃ answer,
      (getBlob now digest (empty.performAll calls)).1 = .ok answer ∧
      (answer.isSome ↔ ∃ x ∈ Leased.live now (durableAfter calls), digest ∈ DurableResult.blobs x) ∧
      ∀ data, answer = some data → digestBytes data = digest) ∧
    (prune now (empty.performAll calls)).1 =
      .ok ((durableAfter calls).filter fun x => x.ends ≤ now).length ∧
    ∀ path data, (prune now (empty.performAll calls)).2.blobs.get? path = some data →
      ∃ x ∈ Leased.live now (durableAfter calls),
        lit "sha256:" ++ path.1 ++ path.2 ∈ DurableResult.blobs x := by
  have hholds := holds_performAll hcalls
  refine ⟨hholds.candidates now, hholds.receipts now, fun digest => hholds.getBlob now, ?_, ?_⟩
  · rw [hholds.prune_apply now]
  · rw [hholds.prune_apply now]
    exact (hholds.remove now).2

/-! ### The cache in memory -/

/-- The same call on the cache in memory. There is none for an import that is interrupted, or that
the clock of the cache refuses. -/
def DurableCall.asCacheCall : DurableCall → Option CacheCall
  | .importFromPeer action peer config observedAt now =>
    if (admitted action peer config observedAt).all fun x => now < x.ends then
      some (.importFromPeer action peer config observedAt)
    else none
  | .interrupted _ _ _ _ _ _ => none
  | .getBlob now digest => some (.getBlob now digest)
  | .candidates now actionDigest => some (.candidates now actionDigest)
  | .receipts now resultDigest => some (.receipts now resultDigest)
  | .prune now | .leaseUntil now _ | .summary now => some (.prune now)

/-- On the leases, both caches act alike. -/
theorem DurableCall.event_asCacheCall (call : DurableCall) :
    call.asCacheCall.bind CacheCall.event =
      call.event.map (LeaseEvent.map fun value => (value.1, value.2.1)) := by
  cases call with
  | importFromPeer action peer config observedAt now =>
    cases hadmitted : admitted action peer config observedAt with
    | none => simp [asCacheCall, event, durablyAdmitted, CacheCall.event, hadmitted]
    | some x =>
      by_cases hnow : now < x.ends
      · simp [asCacheCall, event, durablyAdmitted, CacheCall.event, LeaseEvent.map, hadmitted, hnow]
      · simp [asCacheCall, event, durablyAdmitted, hadmitted, hnow]
  | _ => rfl

/-- After every run, the lease of a result is the one that the cache in memory has after the same
run. -/
theorem leaseUntil_iff_retainedUntil {calls : List DurableCall}
    (hcalls : ∀ call ∈ calls, call.Serves) (now : DateTime) (resultDigest : Str) :
    ∃ answer, (leaseUntil now resultDigest (empty.performAll calls)).1 = .ok answer ∧
      ∀ retainUntil, answer = some retainUntil ↔
        RetainedUntil (calls.filterMap DurableCall.asCacheCall) resultDigest retainUntil ∧
          now < retainUntil := by
  have hevents : (calls.filterMap DurableCall.asCacheCall).filterMap CacheCall.event =
      (calls.filterMap DurableCall.event).map
        (LeaseEvent.map fun value => (value.1, value.2.1)) := by
    rw [List.filterMap_filterMap, List.map_filterMap]
    exact List.filterMap_congr fun call _ => call.event_asCacheCall
  obtain ⟨answer, hanswer, hleases⟩ := (holds_performAll hcalls).leaseUntil now resultDigest
  refine ⟨answer, hanswer, fun retainUntil => ?_⟩
  rw [hleases, Leased.leases_live_iff, ← leases_retainedAfter_iff, retainedAfter, hevents,
    ← Leased.leases_runNewest_iff, durableAfter]

end

/-- A catalog serves Python values. -/
theorem PublicPeerCatalog.Consistent.serves [Sha256] [LocalZone] [Ed25519Signing]
    {catalog : PublicPeerCatalog} (h : catalog.Consistent) (store : Store) :
    FilesystemFederationCacheStore.Serves (catalog.toPeer store) := by
  intro digest bundle hfetch
  obtain ⟨result, hresult, hmanifest, hreceipt, -⟩ :=
    PublicPeerCatalog.exists_published_of_fetchBundle hfetch
  have hmem : (digest, result) ∈ catalog.published.entries := Dict.mem_entries_iff.mpr hresult
  rw [hmanifest, hreceipt]
  exact ⟨h.manifest _ hmem, h.receipt _ hmem⟩

/-! ### A result is imported into files -/

namespace Example

attribute [local instance] zone Sha256.standard ed25519Signing

/-- The catalog in which the served result is published, as a peer. -/
def catalogPeer : FederationPeer := (catalog.performAll publications).toPeer peerStore

/-- The import of the served result is interrupted when its blob is written, and made again. -/
def durableCalls : List DurableCall :=
  [.interrupted action catalogPeer config observedAt observedAt 1,
    .importFromPeer action catalogPeer config observedAt observedAt]

/-- The peer of the example serves what its catalog has published. -/
theorem serves_durableCalls : ∀ call ∈ durableCalls, call.Serves := by
  have hempty : catalog.published = .empty := rfl
  have hserves : FilesystemFederationCacheStore.Serves catalogPeer :=
    ((PublicPeerCatalog.consistent_of_published_eq_empty hempty).performAll
      wellFormed_publications).serves peerStore
  rw [durableCalls, List.forall_mem_cons, List.forall_mem_singleton]
  exact ⟨hserves, hserves⟩

/-- The manifest of the catalog is accepted when it is made, with the served result in it. -/
theorem exists_accepted : ∃ availability fields,
    catalogPeer.availability observedAt = .ok availability ∧
      AvailabilityAccepted config observedAt availability fields ∧
      fields.entries = [readEntry servedDigest] := by
  obtain ⟨signed, -, hsigned, -⟩ := exists_signed
  obtain ⟨hvalid, -, hverified⟩ :=
    PublicPeerCatalog.advertised_of_availability consistent_publications.digest hsigned
  obtain ⟨e, hlisted, -, hread, -⟩ := exists_listed
  rw [peerId_publications] at hverified
  set fields := (catalog.performAll publications).advertised observedAt
    (some ((catalog.performAll publications).keyId,
      (catalog.performAll publications).signatureBytes observedAt)) with hfields
  have hentries : fields.entries = [readEntry servedDigest] := by
    rw [hfields, PublicPeerCatalog.advertised, hlisted, List.map_singleton, hread]
  have hgenerated : fields.generatedAt = observedAt := rfl
  refine ⟨signed, fields, hsigned, ⟨hvalid, ?_, hverified, ?_, ?_⟩, hentries⟩
  · rw [hentries]
    show 1 ≤ 1000
    decide
  · rw [hgenerated]
    exact inWindow.1
  · rw [hgenerated]
    exact inWindow.2

/-- The served result is admitted from its catalog. -/
theorem exists_admission : ∃ result : Published, result.manifest.document = manifest ∧
    result.manifest.digest = servedDigest ∧
    admission action catalogPeer config observedAt = .ok (readEntry servedDigest, bundle, 3) := by
  obtain ⟨result, hperform, hentries, haccepted⟩ := exists_published
  obtain ⟨hrequested, hproducer, hartifacts⟩ := fields_of_document haccepted.sameManifest
  obtain ⟨fields, keyId, publicKey, hreceipt, hkeyId, hkey, hverified⟩ := haccepted.trusted
  obtain ⟨signature, hsignature⟩ := requireKeyId_eq_ok.mp hkeyId
  have hdigest : servedDigest = result.manifest.digest := by
    refine consistent_publications.digest (servedDigest, result) ?_
    rw [hperform, hentries]
    exact List.mem_singleton_self _
  have hbundle : BundleAccepted config requestedDigest (readEntry servedDigest) bundle
      result.manifest := by
    refine ⟨haccepted.sameManifest, result.federated, hdigest.symm, hrequested, ?_,
      ⟨fields, keyId, signature, publicKey, hreceipt, hsignature, hkey, hverified⟩, ?_, ?_, ?_⟩
    · rw [hproducer]
      exact List.mem_singleton_self _
    · intro name
      rw [hartifacts]
      rfl
    · rw [hartifacts, List.forall_mem_singleton]
      exact ⟨blob, rfl, by decide, rfl, digestBytes_blob⟩
    · rw [hartifacts]
      rfl
  have hfetch : catalogPeer.fetchBundle (readEntry servedDigest).resultDigest =
      .ok (some bundle) := by
    simp only [readEntry, catalogPeer, PublicPeerCatalog.toPeer]
    exact fetchBundle_served
  obtain ⟨availability, read, havailability, hread, hlisted⟩ := exists_accepted
  refine ⟨result, haccepted.sameManifest, hdigest.symm, admission_eq_ok.mpr ⟨availability, read,
    requestedDigest, result.manifest, havailability, hread, actionDigest_action, ?_,
    entryAccepted servedDigest, hfetch, hbundle, rfl⟩⟩
  rw [hlisted, List.find?_singleton]
  exact if_pos (decide_eq_true rfl)

/-- The served result is what the run leaves. -/
theorem exists_durableAfter : ∃ x, durableAfter durableCalls = [x] ∧ x.key = servedDigest ∧
    observedAt < x.ends ∧ (DurableResult.manifest x).fields.actionDigest = requestedDigest ∧
    DurableResult.blobs x = [blobDigest] := by
  obtain ⟨result, hmanifest, hdigest, hadmission⟩ := exists_admission
  obtain ⟨hrequested, -, hartifacts⟩ := fields_of_document hmanifest
  obtain ⟨retainUntil, hlease⟩ := exists_lease
  have hends : observedAt < retainUntil := by
    have hmicros := DateTime.addSeconds_eq_ok.mp hlease
    have hseconds : config.retentionSeconds = 86400 := rfl
    rw [DateTime.lt_def]
    omega
  obtain ⟨x, hx⟩ : ∃ x : DurableResult,
    x = ⟨servedDigest, (result.manifest, bundle.receipt, observedAt), retainUntil⟩ := ⟨_, rfl⟩
  have hadmitted : durablyAdmitted action catalogPeer config observedAt observedAt = some x := by
    have hread : Manifest.ofValue bundle.manifest = .ok result.manifest :=
      Manifest.ofValue_eq_ok.mpr hmanifest
    rw [durablyAdmitted, admitted, hadmission, hlease]
    simp only [Except.toOption, Option.bind_eq_bind, Option.bind_some, hread]
    rw [if_pos hends, hx, hdigest]
  have himport :
    (DurableCall.importFromPeer action catalogPeer config observedAt observedAt).event =
      some (.grant x) := by
    rw [DurableCall.event, hadmitted, Option.map_some]
  have hevents : durableCalls.filterMap DurableCall.event = [.grant x] := by
    rw [durableCalls, List.filterMap_cons_none rfl, List.filterMap_cons_some himport,
      List.filterMap_nil]
  have hafter : durableAfter durableCalls = [x] := by
    rw [durableAfter, hevents]
    rfl
  refine ⟨x, hafter, ?_⟩
  rw [hx]
  refine ⟨rfl, hends, hrequested, ?_⟩
  show result.manifest.fields.artifacts.map ArtifactDescriptor.digest = _
  rw [hartifacts]
  rfl

end Example

open Example

attribute [local instance] zone Sha256.standard ed25519Signing

/-- After the import, the result is the candidate for its action, and its artifact is read. -/
theorem durableCache_exact_served :
    (∃ manifest, (candidates observedAt requestedDigest (empty.performAll durableCalls)).1 =
      .ok [manifest]) ∧
    ∃ data, (getBlob observedAt blobDigest (empty.performAll durableCalls)).1 = .ok (some data) ∧
      digestBytes data = blobDigest := by
  obtain ⟨x, hafter, -, hends, haction, hblobs⟩ := exists_durableAfter
  obtain ⟨hcandidates, -, hread, -⟩ := durableCache_exact serves_durableCalls observedAt
  constructor
  · rw [hcandidates, hafter]
    simp [Leased.live, listed, hends, haction]
  · obtain ⟨answer, hanswer, hnamed, hhashed⟩ := hread blobDigest (by decide +kernel)
    have hlive : Leased.live observedAt (durableAfter durableCalls) = [x] := by
      simp [hafter, Leased.live, hends]
    obtain ⟨data, rfl⟩ := Option.isSome_iff_exists.mp (hnamed.mpr ⟨x, by simp [hlive, hblobs]⟩)
    exact ⟨data, hanswer, hhashed data rfl⟩

/-- Its lease is that of its import. -/
theorem leaseUntil_iff_retainedUntil_served : ∃ retainUntil,
    (leaseUntil observedAt servedDigest (empty.performAll durableCalls)).1 =
      .ok (some retainUntil) ∧
    RetainedUntil (durableCalls.filterMap DurableCall.asCacheCall) servedDigest retainUntil := by
  obtain ⟨x, hafter, hkey, hends, -, -⟩ := exists_durableAfter
  obtain ⟨answer, hanswer, hretained⟩ :=
    leaseUntil_iff_retainedUntil serves_durableCalls observedAt servedDigest
  obtain ⟨answer', hanswer', hleases⟩ :=
    (holds_performAll serves_durableCalls).leaseUntil observedAt servedDigest
  obtain rfl := Except.ok.inj (hanswer.symm.trans hanswer')
  have hlease : answer = some x.ends := (hleases x.ends).mpr (Leased.leases_live_iff.mpr
    ⟨⟨x, hafter ▸ List.mem_singleton_self x, hkey, rfl⟩, hends⟩)
  exact ⟨x.ends, by rw [hanswer, hlease], ((hretained x.ends).mp hlease).1⟩

end OnceMesh.Federation
