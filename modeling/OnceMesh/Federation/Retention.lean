import OnceMesh.Federation.FirstEntry
import OnceMesh.Leases

/-!
# Retention of imported results

The four dictionaries of the federation cache are kept together: over every run of imports, prunings
and reads, the cache answers as a list of results would, each with the end of its lease
(`Represents`). What is retained of a result, and until when, is then read off the list.
-/

namespace OnceMesh.Federation

open Python

/-- A result in the cache, with its receipt, under its digest. -/
abbrev RetainedResult := Leased Str (Manifest × Value) DateTime

namespace RetainedResult

/-- The manifest. -/
abbrev manifest (x : RetainedResult) : Manifest := x.value.1

/-- The receipt. -/
abbrev receipt (x : RetainedResult) : Value := x.value.2

/-- The digests of its blobs. -/
def blobs (x : RetainedResult) : List Str :=
  x.manifest.fields.artifacts.map ArtifactDescriptor.digest

/-- It is for the action. -/
def isFor (actionDigest : Str) (x : RetainedResult) : Bool :=
  x.manifest.fields.actionDigest = actionDigest

end RetainedResult

/-! ### Calls -/

/-- A call on the federation cache. -/
inductive CacheCall where
  | importFromPeer (action : Value) (peer : FederationPeer) (config : FederationPeerConfig)
      (observedAt : DateTime)
  | prune (now : DateTime)
  | getBlob (now : DateTime) (digest : Str)
  | candidates (now : DateTime) (actionDigest : Str)
  | receipts (now : DateTime) (resultDigest : Str)

/-- The event that a call is, if the digest of the manifest is its key. -/
abbrev RetentionEvent := LeaseEvent Str (Manifest × Value) DateTime

section

variable [Sha256] [LocalZone] [Ed25519]

namespace FederationCacheStore

/-- The cache after a call. -/
def perform (store : FederationCacheStore) : CacheCall → FederationCacheStore
  | .importFromPeer action peer config observedAt =>
    (Federation.importFromPeer action peer config observedAt store).2
  | .prune now => (store.prune now).2
  | .getBlob now digest => (store.getBlob now digest).2
  | .candidates now actionDigest => (store.candidates now actionDigest).2
  | .receipts now resultDigest => (store.receiptsOf now resultDigest).2

/-- The cache after a run of calls. -/
def performAll (store : FederationCacheStore) (calls : List CacheCall) : FederationCacheStore :=
  calls.foldl perform store

end FederationCacheStore

/-- What an import admits: the result of the bundle, if the import is a hit. -/
def admitted (action : Value) (peer : FederationPeer) (config : FederationPeerConfig)
    (observedAt : DateTime) : Option RetainedResult := do
  let (_, bundle, _) ← (admission action peer config observedAt).toOption
  let retainUntil ← (observedAt.addSeconds config.retentionSeconds).toOption
  let manifest ← (Manifest.ofValue bundle.manifest).toOption
  some ⟨manifest.digest, (manifest, bundle.receipt), retainUntil⟩

/-- What a call is for the leases. -/
def CacheCall.event : CacheCall → Option RetentionEvent
  | .importFromPeer action peer config observedAt =>
    (admitted action peer config observedAt).map .grant
  | .prune now | .getBlob now _ | .candidates now _ | .receipts now _ => some (.prune now)

/-- The call imports the result. -/
def CacheCall.Imports (resultDigest : Str) : CacheCall → Prop
  | .importFromPeer action peer config observedAt =>
    ∃ store, Federation.Imports action peer config observedAt store resultDigest
  | _ => False

/-- When a call prunes the cache. -/
def CacheCall.prunesAt : CacheCall → Option DateTime
  | .importFromPeer _ _ _ _ => none
  | .prune now | .getBlob now _ | .candidates now _ | .receipts now _ => some now

/-- The results that a run of calls retains. -/
def retainedAfter (calls : List CacheCall) : List RetainedResult :=
  Leased.run (calls.filterMap CacheCall.event) []

end

/-! ### What the dictionaries hold -/

section

variable [Sha256]

/-- The dictionaries of the cache hold the results of a list. -/
structure Represents (store : FederationCacheStore) (items : List RetainedResult) : Prop where
  key : ∀ x ∈ items, x.key = x.manifest.digest
  uniform : Leased.Uniform items
  results : ∀ actionDigest, (store.results.get? actionDigest).getD [] =
    (items.filter (RetainedResult.isFor actionDigest)).map RetainedResult.manifest
  receipts : ∀ resultDigest, (store.receipts.get? resultDigest).getD [] =
    (items.filter fun x => x.key = resultDigest).map RetainedResult.receipt
  leases : ∀ digest ends, store.leases.get? digest = some ends ↔
    ∃ x ∈ items, x.key = digest ∧ x.ends = ends
  blobs : ∀ digest, (∃ data, store.blobs.get? digest = some data) ↔
    ∃ x ∈ items, digest ∈ x.blobs
  hashed : ∀ digest data, store.blobs.get? digest = some data → digestBytes data = digest

theorem represents_empty : Represents .empty [] where
  key x h := absurd h List.not_mem_nil
  uniform := Leased.uniform_nil
  results _ := rfl
  receipts _ := rfl
  leases digest ends := by simp [FederationCacheStore.empty]
  blobs digest := by simp [FederationCacheStore.empty]
  hashed digest data h := by cases h

/-! ### Imports -/

omit [Sha256] in
theorem getD_append {α : Type} (d : Dict Str (List α)) (key key' : Str) (value : α) :
    ((MemoryStore.append d key value).get? key').getD [] =
      (d.get? key').getD [] ++ if key' = key then [value] else [] := by
  rw [MemoryStore.append, Dict.get?_set]
  split_ifs with h
  · rw [h, Option.getD_some]
  · rw [List.append_nil]

/-- The blobs after an import: those of the bundle, and the others. -/
theorem get?_blobs_foldl_putBlob {artifacts : Dict Str Bytes}
    {descriptors : List ArtifactDescriptor} (h : ∀ descriptor ∈ descriptors,
      digestBytes ((artifacts.get? descriptor.name).getD []) = descriptor.digest)
    {store : FederationCacheStore}
    (hashed : ∀ digest data, store.blobs.get? digest = some data → digestBytes data = digest) :
    let final := descriptors.foldl (fun store descriptor => FederationCacheStore.putBlob
      descriptor.digest ((artifacts.get? descriptor.name).getD []) store) store
    (∀ digest, (∃ data, final.blobs.get? digest = some data) ↔
      (∃ data, store.blobs.get? digest = some data) ∨
        digest ∈ descriptors.map ArtifactDescriptor.digest) ∧
    (∀ digest data, final.blobs.get? digest = some data → digestBytes data = digest) ∧
    final.results = store.results ∧ final.receipts = store.receipts ∧
    final.leases = store.leases := by
  induction descriptors generalizing store with
  | nil => simpa using hashed
  | cons descriptor rest ih =>
    rw [List.forall_mem_cons] at h
    obtain ⟨hblobs, hfinal, hsame⟩ := @ih h.2 (FederationCacheStore.putBlob descriptor.digest
      ((artifacts.get? descriptor.name).getD []) store) (by
        intro digest data hdata
        rw [FederationCacheStore.putBlob, Dict.get?_set] at hdata
        split_ifs at hdata with hsame
        · cases hdata
          rw [h.1, hsame]
        · exact hashed digest data hdata)
    refine ⟨fun digest => ?_, hfinal, hsame⟩
    rw [List.foldl_cons, hblobs, List.map_cons, List.mem_cons, FederationCacheStore.putBlob,
      Dict.get?_set]
    by_cases hsame : digest = descriptor.digest
    · simp [hsame]
    · simp [hsame]

/-- A complete bundle is one more result. -/
theorem Represents.imported {store : FederationCacheStore} {items : List RetainedResult}
    (h : Represents store items) {bundle : FederationBundle} {manifest : Manifest}
    (hartifacts : ∀ descriptor ∈ manifest.fields.artifacts,
      digestBytes ((bundle.artifacts.get? descriptor.name).getD []) = descriptor.digest)
    (retainUntil : DateTime) :
    Represents (store.imported bundle manifest retainUntil)
      (Leased.grant ⟨manifest.digest, (manifest, bundle.receipt), retainUntil⟩ items) := by
  obtain ⟨hblobs, hhashed, hresults, hreceipts, hleases⟩ :=
    get?_blobs_foldl_putBlob hartifacts h.hashed
  have hmem : ∀ x,
      x ∈ Leased.grant ⟨manifest.digest, (manifest, bundle.receipt), retainUntil⟩ items →
      (∃ y ∈ items, x.key = y.key ∧ x.value = y.value) ∨
        x = ⟨manifest.digest, (manifest, bundle.receipt), retainUntil⟩ := by
    intro x hx
    refine (Leased.mem_grant.mp hx).imp_left fun hrenew => ?_
    obtain ⟨y, hy, hkey, hvalue, -⟩ := Leased.mem_renew.mp hrenew
    exact ⟨y, hy, hkey, hvalue⟩
  refine ⟨fun x hx => ?_, h.uniform.grant _, fun actionDigest => ?_, fun resultDigest => ?_,
    fun digest ends => ?_, fun digest => ?_, hhashed⟩
  · rcases hmem x hx with ⟨y, hy, hkey, hvalue⟩ | rfl
    · rw [hkey, h.key y hy, RetainedResult.manifest, RetainedResult.manifest, hvalue]
    · rfl
  · show ((MemoryStore.append _ manifest.fields.actionDigest manifest).get? actionDigest).getD [] =
      _
    rw [getD_append, hresults, h.results, Leased.grant, List.filter_append, List.map_append]
    refine congrArg₂ _ ?_ ?_
    · exact (Leased.map_filter_renew _ _ 
        (fun _ (value : Manifest × Value) => value.1.fields.actionDigest = actionDigest)
        fun _ value => value.1).symm
    · by_cases hsame : actionDigest = manifest.fields.actionDigest
      · rw [if_pos hsame, List.filter_cons_of_pos (by simp [RetainedResult.isFor, hsame])]
        rfl
      · rw [if_neg hsame, List.filter_cons_of_neg (by simp [RetainedResult.isFor, Ne.symm hsame])]
        rfl
  · show ((MemoryStore.append _ manifest.digest bundle.receipt).get? resultDigest).getD [] = _
    rw [getD_append, hreceipts, h.receipts, Leased.grant, List.filter_append, List.map_append]
    refine congrArg₂ _ ?_ ?_
    · exact (Leased.map_filter_renew _ _ (fun key _ => key = resultDigest)
        fun _ (value : Manifest × Value) => value.2).symm
    · by_cases hsame : resultDigest = manifest.digest
      · rw [if_pos hsame, List.filter_cons_of_pos (by simp [hsame])]
        rfl
      · rw [if_neg hsame, List.filter_cons_of_neg (by simp [Ne.symm hsame])]
        rfl
  · show (Dict.set _ manifest.digest retainUntil).get? digest = some ends ↔ _
    rw [hleases, Dict.get?_set]
    split_ifs with hsame
    · constructor
      · rintro ⟨⟩
        exact ⟨_, Leased.mem_grant.mpr (.inr rfl), hsame.symm, rfl⟩
      · rintro ⟨x, hx, rfl, rfl⟩
        rw [Leased.ends_of_mem_grant hx hsame]
    · rw [h.leases]
      refine exists_congr fun x => and_congr_left ?_
      rintro ⟨rfl, -⟩
      exact (Leased.mem_grant_of_ne hsame).symm
  · show (∃ data, (manifest.fields.artifacts.foldl _ store).blobs.get? digest = some data) ↔ _
    rw [hblobs, h.blobs]
    constructor
    · rintro (⟨x, hx, hblob⟩ | hnew)
      · by_cases hsame : x.key = manifest.digest
        · exact ⟨⟨x.key, x.value, retainUntil⟩, Leased.mem_grant.mpr (.inl (Leased.mem_renew.mpr
            ⟨x, hx, rfl, rfl, (if_pos hsame).symm⟩)), hblob⟩
        · exact ⟨x, (Leased.mem_grant_of_ne hsame).mpr hx, hblob⟩
      · exact ⟨_, Leased.mem_grant.mpr (.inr rfl), hnew⟩
    · rintro ⟨x, hx, hblob⟩
      rcases hmem x hx with ⟨y, hy, -, hvalue⟩ | rfl
      · refine .inl ⟨y, hy, ?_⟩
        rw [RetainedResult.blobs, RetainedResult.manifest, ← hvalue]
        exact hblob
      · exact .inr hblob

/-! ### Pruning -/

/-- Whether the lease of a result has ended, by the results. -/
theorem Represents.expired {store : FederationCacheStore} {items : List RetainedResult}
    (h : Represents store items) (now : DateTime) {x : RetainedResult} (hx : x ∈ items) :
    store.expired now x.key = decide (x.ends ≤ now) := by
  rw [FederationCacheStore.expired, (h.leases x.key x.ends).mpr ⟨x, hx, rfl, rfl⟩]

omit [Sha256] in
theorem getD_filter {α : Type} (d : Dict Str (List α)) (keep : Str → Bool) (key : Str) :
    ((d.filter fun key _ => keep key).get? key).getD [] =
      if keep key = true then (d.get? key).getD [] else [] := by
  cases hget : (d.filter fun key _ => keep key).get? key with
  | some values =>
    obtain ⟨hvalues, hkeep⟩ := Dict.get?_filter_eq_some.mp hget
    rw [if_pos hkeep, hvalues]
  | none =>
    split_ifs with hkeep
    · cases hvalues : d.get? key with
      | none => rfl
      | some values =>
        cases hget.symm.trans (Dict.get?_filter_eq_some.mpr ⟨hvalues, hkeep⟩)
    · rfl

/-- The manifests of an action that are retained. -/
theorem getD_retainedResults (store : FederationCacheStore) (now : DateTime) (actionDigest : Str) :
    ((store.retainedResults now).get? actionDigest).getD [] =
      ((store.results.get? actionDigest).getD []).filter fun manifest =>
        !store.expired now manifest.digest := by
  rw [FederationCacheStore.retainedResults]
  cases hget : ((store.results.mapValues fun _ manifests => manifests.filter fun manifest =>
      !store.expired now manifest.digest).filter
        fun _ manifests => manifests ≠ []).get? actionDigest with
  | some manifests =>
    obtain ⟨hmanifests, -⟩ := Dict.get?_filter_eq_some.mp hget
    rw [Dict.get?_mapValues, Option.map_eq_some_iff] at hmanifests
    obtain ⟨all, hall, rfl⟩ := hmanifests
    rw [hall]
    rfl
  | none =>
    cases hall : store.results.get? actionDigest with
    | none => rfl
    | some all =>
      -- only an empty list is dropped
      by_contra hne
      have hmap := Dict.get?_mapValues store.results (fun _ manifests => manifests.filter
        fun manifest => !store.expired now manifest.digest) actionDigest
      rw [hall, Option.map_some] at hmap
      cases hget.symm.trans (Dict.get?_filter_eq_some.mpr
        ⟨hmap, decide_eq_true fun hempty => hne hempty.symm⟩)

omit [Sha256] in
theorem mem_liveBlobs {results : Dict Str (List Manifest)} {digest : Str} :
    digest ∈ FederationCacheStore.liveBlobs results ↔ ∃ actionDigest,
      ∃ manifest ∈ (results.get? actionDigest).getD [],
        digest ∈ manifest.fields.artifacts.map ArtifactDescriptor.digest := by
  rw [FederationCacheStore.liveBlobs, List.mem_flatMap]
  constructor
  · rintro ⟨e, he, hdigest⟩
    obtain ⟨manifest, hmanifest, hdigest⟩ := List.mem_flatMap.mp hdigest
    exact ⟨e.1, manifest, by rwa [Dict.mem_entries_iff.mp he], hdigest⟩
  · rintro ⟨actionDigest, manifest, hmanifest, hdigest⟩
    cases hget : results.get? actionDigest with
    | none =>
      rw [hget] at hmanifest
      cases hmanifest
    | some manifests =>
      rw [hget] at hmanifest
      exact ⟨_, Dict.mem_entries_iff.mpr hget, List.mem_flatMap.mpr ⟨manifest, hmanifest, hdigest⟩⟩

/-- Pruning leaves the results whose lease has not ended. -/
theorem Represents.prune {store : FederationCacheStore} {items : List RetainedResult}
    (h : Represents store items) (now : DateTime) :
    Represents (store.prune now).2 (Leased.live now items) := by
  have hlive : ∀ x ∈ items, (!store.expired now x.key) = decide (now < x.ends) := by
    intro x hx
    rw [h.expired now hx, ← decide_not, decide_eq_decide, not_le]
  rw [FederationCacheStore.prune]
  dsimp only
  split_ifs with hended
  · -- no lease has ended
    have hall : Leased.live now items = items := by
      refine List.filter_eq_self.mpr fun x hx => ?_
      by_contra hends
      have hmem : (x.key, x.ends) ∈ (store.leases.filter fun digest _ =>
          store.expired now digest).entries := by
        refine Dict.mem_entries_iff.mpr (Dict.get?_filter_eq_some.mpr
          ⟨(h.leases _ _).mpr ⟨x, hx, rfl, rfl⟩, ?_⟩)
        rw [h.expired now hx]
        simpa using hends
      rw [hended] at hmem
      cases hmem
    rwa [hall]
  · have hresults : ∀ actionDigest, ((store.retainedResults now).get? actionDigest).getD [] =
        ((Leased.live now items).filter (RetainedResult.isFor actionDigest)).map
          RetainedResult.manifest := by
      intro actionDigest
      rw [getD_retainedResults, h.results, List.filter_map, Leased.live, List.filter_comm]
      refine congrArg _ (congrArg _ (List.filter_congr fun x hx => ?_))
      rw [Function.comp_apply, ← h.key x hx, hlive x hx]
    refine ⟨fun x hx => h.key x (Leased.mem_live.mp hx).1, h.uniform.live now, hresults,
      fun resultDigest => ?_, fun digest ends => ?_, fun digest => ?_, fun digest data hdata => ?_⟩
    · rw [getD_filter, h.receipts, Leased.live, List.filter_comm]
      split_ifs with hkeep
      · refine congrArg _ (List.filter_eq_self.mpr fun x hx => ?_).symm
        obtain ⟨hx, hkey⟩ := List.mem_filter.mp hx
        rw [← hlive x hx, of_decide_eq_true hkey, hkeep]
      · refine (List.map_eq_nil_iff.mpr (List.filter_eq_nil_iff.mpr fun x hx => ?_)).symm
        obtain ⟨hx, hkey⟩ := List.mem_filter.mp hx
        rwa [← hlive x hx, of_decide_eq_true hkey]
    · rw [Dict.get?_filter_eq_some, h.leases]
      constructor
      · rintro ⟨⟨x, hx, rfl, rfl⟩, hkeep⟩
        exact ⟨x, Leased.mem_live.mpr ⟨hx, of_decide_eq_true (hlive x hx ▸ hkeep)⟩, rfl, rfl⟩
      · rintro ⟨x, hx, rfl, rfl⟩
        obtain ⟨hx, hends⟩ := Leased.mem_live.mp hx
        exact ⟨⟨x, hx, rfl, rfl⟩, (hlive x hx).trans (decide_eq_true hends)⟩
    · simp only [Dict.get?_filter_eq_some, decide_eq_true_eq, exists_and_right, mem_liveBlobs,
        hresults, List.mem_map, List.mem_filter]
      constructor
      · rintro ⟨-, _, _, ⟨x, ⟨hx, -⟩, rfl⟩, hblob⟩
        exact ⟨x, hx, List.mem_map.mpr hblob⟩
      · rintro ⟨x, hx, hblob⟩
        refine ⟨(h.blobs digest).mpr ⟨x, (Leased.mem_live.mp hx).1, hblob⟩, _, _,
          ⟨x, ⟨hx, decide_eq_true rfl⟩, rfl⟩, List.mem_map.mp hblob⟩
    · exact h.hashed digest data (Dict.get?_filter_eq_some.mp hdata).1

/-- How many results pruning drops. -/
theorem Represents.prune_count {store : FederationCacheStore} {items : List RetainedResult}
    (h : Represents store items) (now : DateTime) :
    (store.prune now).1 = ((items.filter fun x => x.ends ≤ now).map Leased.key).dedup.length := by
  have hcount : (store.prune now).1 =
      (store.leases.filter fun digest _ => store.expired now digest).entries.length := by
    rw [FederationCacheStore.prune]
    dsimp only
    split_ifs with hended
    · rw [hended]
      rfl
    · rfl
  rw [hcount, ← List.length_map Prod.fst]
  refine ((List.perm_ext_iff_of_nodup (Dict.nodup _) (List.nodup_dedup _)).mpr
    fun digest => ?_).length_eq
  rw [List.mem_dedup, List.mem_map, List.mem_map]
  constructor
  · rintro ⟨⟨digest, ends⟩, hmem, rfl⟩
    obtain ⟨hlease, hended⟩ := Dict.get?_filter_eq_some.mp (Dict.mem_entries_iff.mp hmem)
    obtain ⟨x, hx, rfl, rfl⟩ := (h.leases digest ends).mp hlease
    exact ⟨x, List.mem_filter.mpr ⟨hx, (h.expired now hx).symm.trans hended⟩, rfl⟩
  · rintro ⟨x, hmem, rfl⟩
    obtain ⟨hx, hends⟩ := List.mem_filter.mp hmem
    exact ⟨(x.key, x.ends), Dict.mem_entries_iff.mpr (Dict.get?_filter_eq_some.mpr
      ⟨(h.leases _ _).mpr ⟨x, hx, rfl, rfl⟩, (h.expired now hx).trans hends⟩), rfl⟩

end

/-! ### Runs -/

section

variable [Sha256] [LocalZone] [Ed25519]

/-- What an import does to the cache. -/
theorem importFromPeer_cases (action : Value) (peer : FederationPeer)
    (config : FederationPeerConfig) (observedAt : DateTime) (store : FederationCacheStore) :
    (admitted action peer config observedAt = none ∧
      (importFromPeer action peer config observedAt store).2 = store ∧
      ∀ outcome, (importFromPeer action peer config observedAt store).1 = .ok outcome →
        outcome.hit = false) ∨
    ∃ entry bundle total manifest retainUntil,
      admission action peer config observedAt = .ok (entry, bundle, total) ∧
      observedAt.addSeconds config.retentionSeconds = .ok retainUntil ∧
      (∀ descriptor ∈ manifest.fields.artifacts,
        digestBytes ((bundle.artifacts.get? descriptor.name).getD []) = descriptor.digest) ∧
      admitted action peer config observedAt =
        some ⟨manifest.digest, (manifest, bundle.receipt), retainUntil⟩ ∧
      importFromPeer action peer config observedAt store =
        (.ok ⟨true, "imported", some manifest.digest, total⟩,
          store.imported bundle manifest retainUntil) := by
  cases hadmission : admission action peer config observedAt with
  | error stop =>
    have hstop : importFromPeer action peer config observedAt store = stop.outcome store := by
      rw [importFromPeer, hadmission]
    refine .inl ⟨by rw [admitted, hadmission]; rfl, ?_⟩
    rw [hstop]
    cases stop with
    | miss reason =>
      rw [ImportStop.outcome, Stateful.pure_apply]
      refine ⟨rfl, fun outcome h => ?_⟩
      rw [← Except.ok.inj h, ImportOutcome.miss]
    | raised e =>
      rw [ImportStop.outcome, Stateful.ofExcept_apply]
      exact ⟨rfl, fun outcome h => by cases h⟩
  | ok result =>
    obtain ⟨entry, bundle, total⟩ := result
    cases hlease : observedAt.addSeconds config.retentionSeconds with
    | error e =>
      have hraised : importFromPeer action peer config observedAt store = (.error e, store) := by
        rw [importFromPeer, hadmission]
        dsimp only
        rw [importAdmitted, hlease, Stateful.bind_apply_of_error (Stateful.ofExcept_apply _ _)]
      refine .inl ⟨by rw [admitted, hadmission, hlease]; rfl, ?_⟩
      rw [hraised]
      exact ⟨rfl, fun outcome h => by cases h⟩
    | ok retainUntil =>
      obtain ⟨manifest, hdocument, himport⟩ :=
        importFromPeer_of_admission hadmission hlease store
      obtain ⟨_, _, _, manifest', -, -, -, -, -, -, hbundle, -⟩ := admission_eq_ok.mp hadmission
      have hvalid := Manifest.ofValue_eq_ok.mpr hdocument
      obtain rfl : manifest' = manifest :=
        Except.ok.inj ((Manifest.ofValue_eq_ok.mpr hbundle.document).symm.trans hvalid)
      refine .inr ⟨entry, bundle, total, manifest', retainUntil, rfl, rfl, ?_, ?_, ?_⟩
      · intro descriptor hdescriptor
        obtain ⟨blob, hblob, -, -, hdigest⟩ := hbundle.artifacts descriptor hdescriptor
        rw [hblob, Option.getD_some, hdigest]
      · rw [admitted, hadmission, hlease]
        show (Manifest.ofValue bundle.manifest).toOption >>= _ = _
        rw [hvalid]
        rfl
      · rw [himport, hbundle.digest]

/-- A call is an event of the leases. -/
theorem Represents.perform {store : FederationCacheStore} {items : List RetainedResult}
    (h : Represents store items) (call : CacheCall) :
    Represents (store.perform call) (Leased.run call.event.toList items) := by
  cases call with
  | importFromPeer action peer config observedAt =>
    rcases importFromPeer_cases action peer config observedAt store with
      ⟨hnone, hsame, -⟩ | ⟨entry, bundle, total, manifest, retainUntil, -, -, hartifacts, hsome,
        himport⟩
    · rw [CacheCall.event, hnone, FederationCacheStore.perform, hsame]
      exact h
    · rw [CacheCall.event, hsome, FederationCacheStore.perform, himport]
      exact h.imported hartifacts retainUntil
  | prune now | getBlob now _ | candidates now _ | receipts now _ => exact h.prune now

/-- A run of calls is a run of events. -/
theorem Represents.performAll {store : FederationCacheStore} {items : List RetainedResult}
    (h : Represents store items) (calls : List CacheCall) :
    Represents (store.performAll calls)
      (Leased.run (calls.filterMap CacheCall.event) items) := by
  induction calls generalizing store items with
  | nil => exact h
  | cons call rest ih =>
    have hstep := ih (h.perform call)
    rw [← Leased.run_append] at hstep
    cases hevent : call.event with
    | none =>
      rw [List.filterMap_cons_none hevent]
      rw [hevent] at hstep
      exact hstep
    | some event =>
      rw [List.filterMap_cons_some hevent]
      rw [hevent] at hstep
      exact hstep

/-- After every run, the cache is that of the results that the run retains. -/
theorem represents_performAll (calls : List CacheCall) :
    Represents (FederationCacheStore.empty.performAll calls) (retainedAfter calls) :=
  represents_empty.performAll calls

/-- After every run, the cache answers from the results whose lease has not ended, newest first; it
drops the others, and counts them. -/
theorem federationCache_exact (calls : List CacheCall) (now : DateTime) :
    (∀ actionDigest, ((FederationCacheStore.empty.performAll calls).candidates now actionDigest).1 =
      (((Leased.live now (retainedAfter calls)).filter (RetainedResult.isFor actionDigest)).map
        RetainedResult.manifest).reverse) ∧
    (∀ resultDigest, ((FederationCacheStore.empty.performAll calls).receiptsOf now resultDigest).1 =
      ((Leased.live now (retainedAfter calls)).filter fun x => x.key = resultDigest).map
        RetainedResult.receipt) ∧
    (∀ digest, ((∃ data,
        ((FederationCacheStore.empty.performAll calls).getBlob now digest).1 = some data) ↔
        ∃ x ∈ Leased.live now (retainedAfter calls), digest ∈ RetainedResult.blobs x) ∧
      ∀ data, ((FederationCacheStore.empty.performAll calls).getBlob now digest).1 = some data →
        digestBytes data = digest) ∧
    ((FederationCacheStore.empty.performAll calls).prune now).1 =
      (((retainedAfter calls).filter fun x => x.ends ≤ now).map Leased.key).dedup.length := by
  have hstore := represents_performAll calls
  have hpruned := hstore.prune now
  refine ⟨fun actionDigest => ?_, fun resultDigest => hpruned.receipts resultDigest,
    fun digest => ⟨hpruned.blobs digest, hpruned.hashed digest⟩, hstore.prune_count now⟩
  exact congrArg List.reverse (hpruned.results actionDigest)

/-! ### How long a result is retained -/

/-- An import is a hit for what it admits. -/
theorem imports_iff_admitted {action : Value} {peer : FederationPeer}
    {config : FederationPeerConfig}
    {observedAt : DateTime} {store : FederationCacheStore} {resultDigest : Str} :
    Imports action peer config observedAt store resultDigest ↔
      ∃ retainUntil value, observedAt.addSeconds config.retentionSeconds = .ok retainUntil ∧
        admitted action peer config observedAt = some ⟨resultDigest, value, retainUntil⟩ := by
  rcases importFromPeer_cases action peer config observedAt store with
    ⟨hnone, -, hmiss⟩ | ⟨entry, bundle, total, manifest, retainUntil, -, hlease, -, hsome, himport⟩
  · refine iff_of_false ?_ ?_
    · rintro ⟨outcome, store', himport, hhit, -⟩
      rw [himport] at hmiss
      cases (hmiss outcome rfl).symm.trans hhit
    · rintro ⟨_, _, -, hsome⟩
      cases hnone.symm.trans hsome
  · constructor
    · rintro ⟨outcome, store', himport', -, hresult⟩
      cases himport.symm.trans himport'
      cases hresult
      exact ⟨retainUntil, _, hlease, hsome⟩
    · rintro ⟨_, _, -, hsome'⟩
      cases hsome.symm.trans hsome'
      exact ⟨_, _, himport, rfl, rfl⟩

/-- Which events are admissions of the result. -/
theorem CacheCall.imports_iff {call : CacheCall} {resultDigest : Str} :
    call.Imports resultDigest ↔ ∃ x, call.event = some (.grant x) ∧ x.key = resultDigest := by
  cases call with
  | importFromPeer action peer config observedAt =>
    constructor
    · rintro ⟨store, himports⟩
      obtain ⟨retainUntil, value, -, hsome⟩ := imports_iff_admitted.mp himports
      exact ⟨_, by rw [CacheCall.event, hsome, Option.map_some], rfl⟩
    · rintro ⟨x, hevent, rfl⟩
      obtain ⟨y, hsome, hy⟩ := Option.map_eq_some_iff.mp hevent
      cases hy
      refine ⟨.empty, imports_iff_admitted.mpr ?_⟩
      rcases importFromPeer_cases action peer config observedAt .empty with
        ⟨hnone, -⟩ | ⟨_, _, _, _, retainUntil, -, hlease, -, hsome', -⟩
      · cases hnone.symm.trans hsome
      · cases hsome'.symm.trans hsome
        exact ⟨retainUntil, _, hlease, hsome⟩
  | _ => simp [CacheCall.Imports, CacheCall.event]

/-- Which events are prunings. -/
theorem CacheCall.prunesAt_iff {call : CacheCall} {now : DateTime} :
    call.prunesAt = some now ↔ call.event = some (.prune now) := by
  cases call with
  | importFromPeer action peer config observedAt => simp [CacheCall.prunesAt, CacheCall.event]
  | _ => simp [CacheCall.prunesAt, CacheCall.event]

/-- The result has been imported for the last time until then, and no pruning has come since that is
not before then. -/
def RetainedUntil (calls : List CacheCall) (resultDigest : Str) (retainUntil : DateTime) : Prop :=
  ∃ before action peer config observedAt after,
    calls = before ++ .importFromPeer action peer config observedAt :: after ∧
    Imports action peer config observedAt (FederationCacheStore.empty.performAll before)
      resultDigest ∧
    observedAt.addSeconds config.retentionSeconds = .ok retainUntil ∧
    (∀ call ∈ after, ¬call.Imports resultDigest) ∧
    ∀ call ∈ after, ∀ t, call.prunesAt = some t → t < retainUntil

/-- The lease of what is admitted. -/
theorem lease_of_admitted {action : Value} {peer : FederationPeer} {config : FederationPeerConfig}
    {observedAt : DateTime} {x : RetainedResult}
    (h : admitted action peer config observedAt = some x) :
    observedAt.addSeconds config.retentionSeconds = .ok x.ends := by
  rcases importFromPeer_cases action peer config observedAt .empty with
    ⟨hnone, -⟩ | ⟨_, _, _, _, _, -, hlease, -, hsome, -⟩
  · cases hnone.symm.trans h
  · cases hsome.symm.trans h
    exact hlease

/-- The leases that a run of calls leaves are those of the last imports. -/
theorem leases_retainedAfter_iff {calls : List CacheCall} {resultDigest : Str}
    {retainUntil : DateTime} :
    Leased.Leases (retainedAfter calls) resultDigest retainUntil ↔
      RetainedUntil calls resultDigest retainUntil := by
  have hadmits : ∀ calls : List CacheCall,
      (∀ y, .grant y ∈ calls.filterMap CacheCall.event → y.key ≠ resultDigest) ↔
        ∀ call ∈ calls, ¬call.Imports resultDigest := by
    intro calls
    simp only [List.mem_filterMap, CacheCall.imports_iff]
    exact ⟨fun h call hcall ⟨y, hevent, hkey⟩ => h y ⟨call, hcall, hevent⟩ hkey,
      fun h y ⟨call, hcall, hevent⟩ hkey => h call hcall ⟨y, hevent, hkey⟩⟩
  have hprunes : ∀ calls : List CacheCall,
      (∀ t, .prune t ∈ calls.filterMap CacheCall.event → t < retainUntil) ↔
        ∀ call ∈ calls, ∀ t, call.prunesAt = some t → t < retainUntil := by
    intro calls
    simp only [List.mem_filterMap, ← CacheCall.prunesAt_iff]
    exact ⟨fun h call hcall t ht => h t ⟨call, hcall, ht⟩,
      fun h t ⟨call, hcall, ht⟩ => h call hcall t ht⟩
  rw [retainedAfter, Leased.leases_run_iff]
  constructor
  · rintro ⟨before, item, after, hevents, rfl, rfl, hafter, hpruned⟩
    obtain ⟨first, rest, rfl, -, hrest⟩ := List.filterMap_eq_append_iff.mp hevents
    obtain ⟨skipped, call, last, rfl, -, hevent, rfl⟩ := List.filterMap_eq_cons_iff.mp hrest
    rw [hadmits] at hafter
    rw [hprunes] at hpruned
    cases call with
    | importFromPeer action peer config observedAt =>
      obtain ⟨x, hsome, hx⟩ := Option.map_eq_some_iff.mp hevent
      cases hx
      have hlease := lease_of_admitted hsome
      exact ⟨first ++ skipped, action, peer, config, observedAt, last, by simp,
        imports_iff_admitted.mpr ⟨_, _, hlease, hsome⟩, hlease, hafter, hpruned⟩
    | _ => cases hevent
  · rintro ⟨before, action, peer, config, observedAt, after, rfl, himports, hlease, hafter, hpruned⟩
    obtain ⟨retainUntil', value, hlease', hsome⟩ := imports_iff_admitted.mp himports
    obtain rfl := Except.ok.inj (hlease.symm.trans hlease')
    have hevent : (CacheCall.importFromPeer action peer config observedAt).event =
        some (.grant ⟨resultDigest, value, retainUntil⟩) := by
      rw [CacheCall.event, hsome, Option.map_some]
    refine ⟨before.filterMap CacheCall.event, ⟨resultDigest, value, retainUntil⟩,
      after.filterMap CacheCall.event, ?_, rfl, rfl, (hadmits after).mpr hafter,
      (hprunes after).mpr hpruned⟩
    rw [List.filterMap_append, List.filterMap_cons_some hevent]

/-- A result is retained just if its last import says so. -/
theorem exists_mem_live_iff {calls : List CacheCall} {now : DateTime} {resultDigest : Str} :
    (∃ x ∈ Leased.live now (retainedAfter calls), x.key = resultDigest) ↔
      ∃ retainUntil, RetainedUntil calls resultDigest retainUntil ∧ now < retainUntil := by
  simp only [← leases_retainedAfter_iff, ← Leased.leases_live_iff]
  exact ⟨fun ⟨x, hx, hkey⟩ => ⟨x.ends, x, hx, hkey, rfl⟩, fun ⟨_, x, hx, hkey, _⟩ => ⟨x, hx, hkey⟩⟩

/-- After every run, a result is a candidate just if the lease of its last import has not ended, nor
had when the cache was pruned since; and then its receipt and all of its blobs are there. -/
theorem candidates_iff_retainedUntil (calls : List CacheCall) (now : DateTime)
    (resultDigest : Str) :
    ((∃ actionDigest, ∃ manifest ∈
        ((FederationCacheStore.empty.performAll calls).candidates now actionDigest).1,
        manifest.digest = resultDigest) ↔
      ∃ retainUntil, RetainedUntil calls resultDigest retainUntil ∧ now < retainUntil) ∧
    ∀ actionDigest, ∀ manifest ∈
      ((FederationCacheStore.empty.performAll calls).candidates now actionDigest).1,
      manifest.fields.actionDigest = actionDigest ∧
      ((FederationCacheStore.empty.performAll calls).receiptsOf now manifest.digest).1 ≠ [] ∧
      ∀ descriptor ∈ manifest.fields.artifacts, ∃ data,
        ((FederationCacheStore.empty.performAll calls).getBlob now descriptor.digest).1 =
          some data ∧ digestBytes data = descriptor.digest := by
  obtain ⟨hcandidates, hreceipts, hblobs, -⟩ := federationCache_exact calls now
  have hkey : ∀ x ∈ Leased.live now (retainedAfter calls), x.key = x.value.1.digest :=
    fun x hx => (represents_performAll calls).key x (Leased.mem_live.mp hx).1
  have hmem : ∀ actionDigest manifest, manifest ∈
      ((FederationCacheStore.empty.performAll calls).candidates now actionDigest).1 ↔
      ∃ x ∈ Leased.live now (retainedAfter calls),
        x.value.1.fields.actionDigest = actionDigest ∧ x.value.1 = manifest := by
    intro actionDigest manifest
    rw [hcandidates, List.mem_reverse, List.mem_map]
    simp only [List.mem_filter, RetainedResult.isFor, decide_eq_true_eq, and_assoc]
  constructor
  · rw [← exists_mem_live_iff]
    constructor
    · rintro ⟨actionDigest, manifest, hmanifest, rfl⟩
      obtain ⟨x, hx, -, rfl⟩ := (hmem _ _).mp hmanifest
      exact ⟨x, hx, hkey x hx⟩
    · rintro ⟨x, hx, rfl⟩
      exact ⟨_, _, (hmem _ _).mpr ⟨x, hx, rfl, rfl⟩, (hkey x hx).symm⟩
  · intro actionDigest manifest hmanifest
    obtain ⟨x, hx, haction, rfl⟩ := (hmem _ _).mp hmanifest
    refine ⟨haction, ?_, fun descriptor hdescriptor => ?_⟩
    · rw [hreceipts, ne_eq, List.map_eq_nil_iff, List.filter_eq_nil_iff]
      exact fun hnone => hnone x hx (decide_eq_true (hkey x hx))
    · obtain ⟨hfound, hhashed⟩ := hblobs descriptor.digest
      obtain ⟨data, hdata⟩ := hfound.mpr ⟨x, hx, List.mem_map_of_mem hdescriptor⟩
      exact ⟨data, hdata, hhashed data hdata⟩

end

end OnceMesh.Federation
