import OnceMesh.Cache.Lineage
import OnceMesh.FilesystemStore

/-!
# Invalidation is for good

The writers of a store only add to it: an invalidation that is in force stays so, whatever is put
into the store afterwards and however late it is read. `memoryStore_invalidation_monotonic` and its
twin for the filesystem conclude that a lookup in the store never again returns the invalidated
result, or a result whose dependency chain contains it.
-/

namespace OnceMesh

open Python

section

variable [Sha256]

/-- The digest occurs in the dependency chain of a result: it is the digest of a result in the
lineage, or such a result names it as a dependency. -/
def ChainContains (stores : List Store) (n : SuppliedResult) (digest : Str) : Prop :=
  ∃ n', Lineage stores n n' ∧ (n'.1.digest = digest ∨
    ∃ dependency ∈ n'.1.fields.dependencies.getD [], dependency.resultDigest = digest)

omit [Sha256] in
/-- What is in force now is in force later. -/
theorem EffectivelyInvalidated.later {policy policy' : Policy} {store : Store} {digest : Str}
    (h : EffectivelyInvalidated policy store digest) (hnow : policy.now ≤ policy'.now)
    (htrust : policy'.invalidationTrust = policy.invalidationTrust) :
    EffectivelyInvalidated policy' store digest := by
  obtain ⟨reader, hreader, records, hrecords, record, hrecord, htrusted, hle⟩ := h
  refine ⟨reader, hreader, records, hrecords, record, hrecord, ?_, hle.trans hnow⟩
  rw [htrust]
  exact htrusted

/-- No lookup in the store, for either purpose and any action, returns a result with the digest in
its dependency chain. -/
def NeverReturned (policy : Policy) (store : Store) (digest : Str) : Prop :=
  ∀ ignoreFreshness action hit rejections,
    lookup ignoreFreshness action [store] policy = .ok ⟨some hit, rejections⟩ →
    ¬ChainContains [store] (hit.manifest, store) digest

/-- A lookup in one store does not return a result with an invalidated digest in its dependency
chain. -/
theorem EffectivelyInvalidated.neverReturned {policy : Policy} {store : Store} {digest : Str}
    (hinvalidated : EffectivelyInvalidated policy store digest) :
    NeverReturned policy store digest := by
  intro ignoreFreshness action hit rejections h
  obtain ⟨requested, -, s, hs, -, values, -, -, e, he, rfl⟩ := exists_evaluate_of_lookup h
  obtain rfl : s = store := List.mem_singleton.mp hs
  -- every result in the lineage is supplied by the only store there is
  have hstore : ∀ n, Lineage [s] (e.manifest, s) n → n.2 = s := by
    intro n hn
    rcases Relation.ReflTransGen.cases_tail hn with rfl | ⟨n', -, dependency, -, hlocated⟩
    · rfl
    · obtain ⟨before, after, hstores, -⟩ := hlocated.first
      have hmem : n.2 ∈ [s] := hstores ▸ List.mem_append_right _ List.mem_cons_self
      exact List.mem_singleton.mp hmem
  have hnot : ∀ n, Lineage [s] (e.manifest, s) n → n.1.digest ≠ digest := by
    rintro n hn rfl
    have hvalid := not_effectivelyInvalidated_of_lineage he n hn
    rw [hstore n hn] at hvalid
    exact hvalid hinvalidated
  rintro ⟨n, hn, heq | ⟨dependency, hdependency, heq⟩⟩
  · exact hnot n hn heq
  · obtain ⟨n', hn', hdigest⟩ := exists_lineage_of_dependency he n hn hdependency
    exact hnot n' hn' (hdigest.trans heq)

/-! ### In memory -/

/-- A call keeps every invalidation. -/
theorem MemoryStore.mem_invalidations_perform {store : MemoryStore} {digest : Str}
    {record : Invalidation} (h : record ∈ newestFirst store.invalidations digest)
    (call : StoreCall) :
    record ∈ newestFirst (MemoryStore.writer.perform call store).invalidations digest := by
  let Kept (s : MemoryStore) : Prop := record ∈ newestFirst s.invalidations digest
  cases call with
  | putBlob data => exact h
  | putResult value => exact Stateful.check_modify_induction Kept h fun manifest _ => h
  | putValidation value => exact Stateful.check_modify_induction Kept h fun record _ => h
  | putInvalidation value =>
    refine Stateful.check_modify_induction Kept h fun record' _ => ?_
    show record ∈ newestFirst (append store.invalidations _ record') digest
    rw [newestFirst_append]
    split_ifs
    · exact List.mem_cons_of_mem _ h
    · exact h
  | putReceipt value => exact Stateful.check_modify_induction Kept h fun fields _ => h

omit [Sha256] in
/-- The reader finds the records that have been put. -/
theorem MemoryStore.effectivelyInvalidated_iff {policy : Policy} {store : MemoryStore}
    {digest : Str} : EffectivelyInvalidated policy store.view digest ↔
      ∃ record ∈ newestFirst store.invalidations digest,
        trusts policy.invalidationTrust record.fields.producer = true ∧
          record.fields.invalidatedAt.instant ≤ policy.now := by
  constructor
  · rintro ⟨_, ⟨⟩, _, ⟨⟩, h⟩
    exact h
  · intro h
    exact ⟨_, rfl, _, rfl, h⟩

theorem MemoryStore.effectivelyInvalidated_performAll {policy : Policy} {store : MemoryStore}
    {digest : Str} (h : EffectivelyInvalidated policy store.view digest)
    (calls : List StoreCall) :
    EffectivelyInvalidated policy (MemoryStore.writer.performAll calls store).view digest := by
  rw [MemoryStore.effectivelyInvalidated_iff] at h ⊢
  obtain ⟨record, hrecord, hforce⟩ := h
  refine ⟨record, ?_, hforce⟩
  exact MemoryStore.writer.performAll_induction
    (fun s => record ∈ newestFirst s.invalidations digest) hrecord
    fun call _ s hs => MemoryStore.mem_invalidations_perform hs call

/-! ### On a filesystem -/

namespace FilesystemStore

variable {store : FilesystemStore} {digest : Str}

omit [Sha256] in
/-- The files of a result hold invalidations of it, and one of them satisfies `p`. -/
def HoldsInvalidation (store : FilesystemStore) (digest : Str) (p : Invalidation → Prop) : Prop :=
  isDigest digest = true ∧
    (∀ data ∈ filesIn store.invalidations (digestHex digest),
      ∃ record, Holds (readInvalidation digest) data record) ∧
    ∃ data ∈ filesIn store.invalidations (digestHex digest),
      ∃ record, Holds (readInvalidation digest) data record ∧ p record

omit [Sha256] in
/-- What the reader finds is in the files, in whatever order they are listed. -/
theorem exists_invalidationsOf_iff {listing : Listing} {p : Invalidation → Prop} :
    (∃ records, store.invalidationsOf listing digest = .ok records ∧ ∃ r ∈ records, p r) ↔
      store.HoldsInvalidation digest p := by
  have hfiles := listing.perm (filesIn store.invalidations (digestHex digest))
  have hread := @exists_readDocuments_iff _ (readInvalidation digest)
    (listing.list (filesIn store.invalidations (digestHex digest))) p
  simp only [hfiles.mem_iff] at hread
  rw [HoldsInvalidation, ← hread]
  constructor
  · rintro ⟨records, h, record, hrecord, hp⟩
    obtain ⟨hex, hhex, h⟩ := Except.bind_eq_ok.mp h
    obtain ⟨read, hread, ⟨⟩⟩ := Except.bind_eq_ok.mp h
    unfold hexDigest? at hhex
    split_ifs at hhex with hdigest
    · cases hhex
      refine ⟨hdigest, read, guardRead_eq_ok.mp hread, record, ?_, hp⟩
      exact (perm_newestTextFirst _ read).mem_iff.mp hrecord
    · cases hhex
  · rintro ⟨hdigest, read, hread, record, hrecord, hp⟩
    refine ⟨newestTextFirst (fun r => r.fields.invalidatedAt.text) read, ?_, record, ?_, hp⟩
    · rw [invalidationsOf, hexDigest?_of_isDigest hdigest, Except.ok_bind]
      exact Except.bind_eq_ok.mpr ⟨read, guardRead_eq_ok.mpr hread, rfl⟩
    · exact (perm_newestTextFirst _ read).mem_iff.mpr hrecord

omit [Sha256] in
theorem mem_filesIn_of_mem {files : Files} {path : Str × Str} {data contents : Bytes}
    {directory : Str} (h : contents ∈ filesIn files directory) :
    contents ∈ filesIn (writeOnce files path data) directory := by
  rw [filesIn_writeOnce]
  exact List.mem_append_left _ h

omit [Sha256] in
/-- The file of an invalidation can be read again. -/
theorem holds_readInvalidation {record : Invalidation} (h : Storable record.document) :
    ∃ record', Holds (readInvalidation record.fields.resultDigest)
      (canonicalBytes record.document) record' := by
  have hvalid := record.valid
  rw [← validateInvalidation_sortKeys h] at hvalid
  have hread : Invalidation.ofValue record.document.sortKeys =
      .ok ⟨record.document.sortKeys, record.fields, hvalid⟩ := Invalidation.ofValue_eq_ok.mpr rfl
  refine ⟨⟨record.document.sortKeys, record.fields, hvalid⟩, _, h.loadJson, ?_⟩
  rw [readInvalidation, hread, Except.ok_bind, Except.check_eq_ok, raiseIf_eq_ok]
  exact ⟨by simp, rfl⟩

/-- A call keeps the invalidations of a result, and keeps them readable. -/
theorem holdsInvalidation_perform {p : Invalidation → Prop}
    (h : store.HoldsInvalidation digest p) (call : StoreCall) (hcall : call.WellFormed) :
    (FilesystemStore.writer.perform call store).HoldsInvalidation digest p := by
  let Kept (s : FilesystemStore) : Prop := s.HoldsInvalidation digest p
  cases call with
  | putBlob data => exact h
  | putResult value => exact Stateful.check_modify_induction Kept h fun manifest _ => h
  | putValidation value => exact Stateful.check_modify_induction Kept h fun record _ => h
  | putInvalidation value =>
    refine Stateful.check_modify_induction Kept h fun record hrecord => ?_
    obtain ⟨hdigest, hall, data, hdata, hp⟩ := h
    refine ⟨hdigest, fun contents hcontents => ?_, data, mem_filesIn_of_mem hdata, hp⟩
    rcases mem_filesIn_writeOnce hcontents with hold | ⟨hpath, rfl⟩
    · exact hall contents hold
    · -- the new file is about this result, or it is in another directory
      have hsame : record.fields.resultDigest = digest :=
        (digestHex_inj record.isDigest_and_inProfile.1 hdigest).mp hpath
      rw [← hsame]
      refine holds_readInvalidation ⟨record.isDigest_and_inProfile.2, ?_⟩
      rw [Invalidation.ofValue_eq_ok.mp hrecord]
      exact hcall
  | putReceipt value => exact Stateful.check_modify_induction Kept h fun fields _ => h

theorem effectivelyInvalidated_iff {policy : Policy} {listing : Listing} :
    EffectivelyInvalidated policy (store.view listing) digest ↔
      store.HoldsInvalidation digest fun record =>
        trusts policy.invalidationTrust record.fields.producer = true ∧
          record.fields.invalidatedAt.instant ≤ policy.now := by
  rw [← @exists_invalidationsOf_iff _ _ listing]
  constructor
  · rintro ⟨_, ⟨⟩, records, hrecords, hrecord⟩
    exact ⟨records, asReader_eq_ok.mp hrecords, hrecord⟩
  · rintro ⟨records, hrecords, hrecord⟩
    exact ⟨_, rfl, records, asReader_eq_ok.mpr hrecords, hrecord⟩

/-- An invalidation in force stays so, however the directory is listed later. -/
theorem effectivelyInvalidated_performAll {policy : Policy} {listing listing' : Listing}
    (h : EffectivelyInvalidated policy (store.view listing) digest) {calls : List StoreCall}
    (hcalls : ∀ call ∈ calls, call.WellFormed) :
    EffectivelyInvalidated policy ((FilesystemStore.writer.performAll calls store).view listing')
      digest := by
  rw [effectivelyInvalidated_iff] at h ⊢
  exact FilesystemStore.writer.performAll_induction
    (fun s => s.HoldsInvalidation digest fun record =>
      trusts policy.invalidationTrust record.fields.producer = true ∧
        record.fields.invalidatedAt.instant ≤ policy.now) h
    fun call hcall s hs => holdsInvalidation_perform hs call (hcalls call hcall)

end FilesystemStore

/-! ### Over whole runs -/

/-- Once a trusted invalidation of a digest is in force in a store, then after any calls of its
writers and at any later time no lookup in the store returns a result whose dependency chain
contains the digest. -/
theorem invalidation_monotonic {policy policy' : Policy} {digest : Str}
    (hnow : policy.now ≤ policy'.now)
    (htrust : policy'.invalidationTrust = policy.invalidationTrust) {calls : List StoreCall}
    (hcalls : ∀ call ∈ calls, call.WellFormed) :
    (∀ store : MemoryStore, EffectivelyInvalidated policy store.view digest →
      NeverReturned policy' (MemoryStore.writer.performAll calls store).view digest) ∧
    ∀ (store : FilesystemStore) (listing listing' : Listing),
      EffectivelyInvalidated policy (store.view listing) digest →
      NeverReturned policy' ((FilesystemStore.writer.performAll calls store).view listing')
        digest := by
  refine ⟨?_, ?_⟩
  · intro store h
    have hafter := MemoryStore.effectivelyInvalidated_performAll h calls
    exact (hafter.later hnow htrust).neverReturned
  · intro store listing listing' h
    have hafter := @FilesystemStore.effectivelyInvalidated_performAll _ store digest policy listing
      listing' h calls hcalls
    exact (hafter.later hnow htrust).neverReturned

end

/-- The example invalidation stays in force when the invalidated result is published again. -/
theorem invalidation_monotonic_example :
    @NeverReturned Sha256.standard { now := exampleTime "2028-01-01T00:00:00Z" }
      (@StoreWriter.performAll _ (@MemoryStore.writer Sha256.standard) [.putResult exampleSource]
        ((exampleStore [[1]] [exampleSource]).withInvalidation exampleInvalidation)).view
      exampleSourceDigest := by
  have hnow : exampleTime "2027-01-01T00:00:00Z" ≤ exampleTime "2028-01-01T00:00:00Z" := by
    decide +kernel
  have hcalls : ∀ call ∈ [StoreCall.putResult exampleSource], call.WellFormed := by
    intro call hcall
    rw [List.mem_singleton.mp hcall]
    show exampleSource.WellFormed
    simp [exampleSource, exampleManifest, Value.WellFormed, Value.WellFormedItems,
      Value.WellFormedList]
  have hinvalidated : EffectivelyInvalidated { now := exampleTime "2027-01-01T00:00:00Z" }
      ((exampleStore [[1]] [exampleSource]).withInvalidation exampleInvalidation).view
      exampleSourceDigest := by
    rw [MemoryStore.effectivelyInvalidated_iff]
    have hany : (MemoryStore.newestFirst ((exampleStore [[1]] [exampleSource]).withInvalidation
        exampleInvalidation).invalidations exampleSourceDigest).any (fun record =>
          decide (record.fields.invalidatedAt.instant ≤ exampleTime "2027-01-01T00:00:00Z")) =
        true := by
      decide +kernel
    obtain ⟨record, hrecord, hle⟩ := List.any_eq_true.mp hany
    exact ⟨record, hrecord, rfl, of_decide_eq_true hle⟩
  have htrust : ∀ t t' : DateTime,
      Policy.invalidationTrust { now := t' } = Policy.invalidationTrust { now := t } :=
    fun _ _ => rfl
  exact (@invalidation_monotonic Sha256.standard
    { now := exampleTime "2027-01-01T00:00:00Z" } { now := exampleTime "2028-01-01T00:00:00Z" }
    exampleSourceDigest hnow (htrust _ _) _ hcalls).1 _ hinvalidated

end OnceMesh
