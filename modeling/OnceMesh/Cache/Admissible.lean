import OnceMesh.Cache
import OnceMesh.ListRelations

/-!
# Admissible results

`Admissible` says, without reference to any traversal, when a result may be used: it passes the
checks of a single result, and every digest it depends on resolves to an admissible result, along
paths without repetition that are not too long. `evaluate_accepts_iff` is the correctness of the
depth-first evaluation: it accepts a candidate exactly when the candidate is admissible and its
unfolded dependency tree does not have too many edges.
-/

namespace OnceMesh

open Python

section

variable [Sha256]

/-! ### Admissibility -/

/-- A result is fresh: by itself, by a trusted validation, or because the policy permits results
without expiry. -/
inductive Fresh (policy : Policy) (store : Store) (manifest : Manifest) : Prop
  | unexpired (boundary : Timestamp) (declared : manifest.fields.freshUntil = some boundary)
      (fresh : policy.now ≤ boundary.instant)
  | validated (records : List SourceValidation) (record : SourceValidation)
      (read : store.validations manifest.digest = .ok records) (listed : record ∈ records)
      (trusted : trusts policy.validationTrust record.fields.producer = true)
      (fresh : policy.now ≤ record.fields.freshUntil.instant)
  | noExpiry (undeclared : manifest.fields.freshUntil = none)
      (permitted : policy.permitNoExpiry = true)

/-- No trusted invalidation of the result is in force. Derived results and dependencies need a
store that can tell. -/
structure NotInvalidated (policy : Policy) (store : Store) (manifest : Manifest)
    (dependency : Bool) : Prop where
  supported : (manifest.fields.dependencies.isSome || dependency) = true →
    store.invalidations.isSome = true
  notInvalidated : ∀ reader ∈ store.invalidations, ∃ records,
    reader manifest.digest = .ok records ∧ ∀ record ∈ records,
      trusts policy.invalidationTrust record.fields.producer = true →
        policy.now < record.fields.invalidatedAt.instant

/-- The blob of an artifact is present, with the exact size and digest. -/
def Intact (store : Store) (descriptor : ArtifactDescriptor) (blob : Bytes) : Prop :=
  store.getBlob descriptor.digest = .ok (some blob) ∧ blob.length = descriptor.size ∧
    digestBytes blob = descriptor.digest

/-- What a result must satisfy, apart from its dependencies. -/
structure AdmissibleResult (policy : Policy) (store : Store) (manifest : Manifest)
    (dependency : Bool) : Prop where
  lineage : policy.requireLineage = true → manifest.fields.dependencies.isSome = true
  trusted : trusts policy.trustedProducers manifest.fields.producer = true
  notInvalidated : NotInvalidated policy store manifest dependency
  fresh : Fresh policy store manifest
  artifacts : ∀ descriptor ∈ manifest.fields.artifacts, ∃ blob, Intact store descriptor blob

/-- A digest resolves to a manifest in a store: it is the first store that has anything under the
digest, and what it has is the valid manifest with that digest. -/
structure Resolves (stores : List Store) (digest : Str) (manifest : Manifest) (store : Store) :
    Prop where
  first : ∃ before after, stores = before ++ store :: after ∧
    ∀ s ∈ before, ∀ reader ∈ s.result, reader digest = .ok none
  found : ∃ reader ∈ store.result, reader digest = .ok (some manifest.document)
  exact : manifest.digest = digest

theorem Resolves.mem {stores : List Store} {digest : Str} {manifest : Manifest} {store : Store}
    (h : Resolves stores digest manifest store) : store ∈ stores := by
  obtain ⟨before, after, rfl, -⟩ := h.first
  exact List.mem_append_right _ List.mem_cons_self

mutual

/-- The result is admissible below the results `path`, the nearest first; its unfolded dependency
tree has `edges` edges. -/
inductive Admissible (stores : List Store) (policy : Policy) :
    (path : List Str) → Manifest → Store → (edges : ℕ) → Prop
  | node {path : List Str} {manifest : Manifest} {store : Store} {edges : ℕ}
      (result : AdmissibleResult policy store manifest (path ≠ []))
      (depth : path.length ≤ policy.maxDependencyDepth)
      (acyclic : manifest.digest ∉ path)
      (dependencies : AdmissibleDependencies stores policy (manifest.digest :: path)
        (manifest.fields.dependencies.getD []) edges) :
      Admissible stores policy path manifest store edges

/-- Each dependency resolves to an admissible result. -/
inductive AdmissibleDependencies (stores : List Store) (policy : Policy) :
    (path : List Str) → List Dependency → (edges : ℕ) → Prop
  | nil {path : List Str} : AdmissibleDependencies stores policy path [] 0
  | cons {path : List Str} {dependency : Dependency} {rest : List Dependency}
      {manifest : Manifest} {store : Store} {edges edgesRest : ℕ}
      (resolves : Resolves stores dependency.resultDigest manifest store)
      (admissible : Admissible stores policy path manifest store edges)
      (others : AdmissibleDependencies stores policy path rest edgesRest) :
      AdmissibleDependencies stores policy path (dependency :: rest) (1 + edges + edgesRest)

end

/-- A candidate is admissible for a request. -/
def AdmissibleCandidate (stores : List Store) (policy : Policy) (requested : Str) (value : Value)
    (store : Store) : Prop :=
  ∃ manifest : Manifest, manifest.document = value ∧ manifest.fields.actionDigest = requested ∧
    ∃ edges ≤ policy.maxDependencyCount, Admissible stores policy [] manifest store edges

/-! ### The checks of one result -/

omit [Sha256] in
/-- A value passes `checkManifest` exactly when it is the document of the manifest returned. -/
theorem checkManifest_eq_ok {value : Value} {reason : String} {manifest : Manifest} :
    checkManifest value reason = .ok manifest ↔ manifest.document = value := by
  unfold checkManifest
  constructor
  · intro h
    split at h
    · cases h
      rfl
    · split_ifs at h
      cases h
  · rintro rfl
    obtain ⟨document, fields, hvalid⟩ := manifest
    split
    next fields' h' =>
      have heq : fields' = fields := Except.ok.inj (h'.symm.trans hvalid)
      simp only [heq]
    next e h' => rw [hvalid] at h'; cases h'

omit [Sha256] in
theorem checkHeader_eq_ok {policy : Policy} {requested : Str} {value : Value}
    {manifest : Manifest} :
    checkHeader policy requested value = .ok manifest ↔
      manifest.document = value ∧ manifest.fields.actionDigest = requested ∧
        (policy.requireLineage = true → manifest.fields.dependencies.isSome = true) := by
  have hlineage (dependencies : Option (List Dependency)) :
      (policy.requireLineage && dependencies.isNone) = false ↔
        (policy.requireLineage = true → dependencies.isSome = true) := by
    cases policy.requireLineage <;> cases dependencies <;> simp
  unfold checkHeader
  rw [Except.bind_eq_ok]
  constructor
  · rintro ⟨m, hm, h⟩
    obtain ⟨hdigest, h⟩ := Except.check_eq_ok.mp h
    obtain ⟨hrequired, ⟨⟩⟩ := Except.check_eq_ok.mp h
    rw [rejectIf_eq_ok] at hdigest hrequired
    exact ⟨checkManifest_eq_ok.mp hm, by simpa using hdigest, (hlineage _).mp hrequired⟩
  · rintro ⟨hvalue, hdigest, hrequired⟩
    refine ⟨manifest, checkManifest_eq_ok.mpr hvalue, Except.check_eq_ok.mpr ⟨?_, ?_⟩⟩
    · simpa using hdigest
    · exact Except.check_eq_ok.mpr ⟨rejectIf_eq_ok.mpr ((hlineage _).mpr hrequired), rfl⟩

theorem effectiveInvalidated_eq_ok {policy : Policy} {store : Store} {manifest : Manifest}
    {dependency : Bool} :
    effectiveInvalidated manifest store policy
        (manifest.fields.dependencies.isSome || dependency) = .ok () ↔
      NotInvalidated policy store manifest dependency := by
  unfold effectiveInvalidated
  constructor
  · intro h
    refine ⟨?_, ?_⟩
    · intro hrequired
      by_contra hnone
      rw [Option.not_isSome_iff_eq_none] at hnone
      rw [hnone, hrequired] at h
      simp at h
    · intro reader hreader
      rw [Option.mem_def] at hreader
      rw [hreader] at h
      dsimp only at h
      split at h
      · cases h
      next records hrecords =>
        refine ⟨records, hrecords, fun record hrecord htrusted => ?_⟩
        have hnone := rejectIf_eq_ok.mp h
        simp only [List.any_eq_false, Bool.and_eq_true, decide_eq_true_eq, not_and,
          not_le] at hnone
        exact hnone record hrecord htrusted
  · rintro ⟨hsupported, hnone⟩
    split
    next hstore =>
      rw [rejectIf_eq_ok, ← Bool.not_eq_true]
      intro hrequired
      simpa [hstore] using hsupported hrequired
    next reader hstore =>
      obtain ⟨records, hread, hrecords⟩ := hnone reader hstore
      rw [hread]
      simp only [rejectIf_eq_ok, List.any_eq_false, Bool.and_eq_true, decide_eq_true_eq, not_and,
        not_le]
      exact hrecords

/-- A result that passes the freshness check is fresh. -/
theorem fresh_of_checkFreshness {policy : Policy} {store : Store} {manifest : Manifest}
    {validation : Option SourceValidation}
    (h : checkFreshness manifest store policy = .ok validation) : Fresh policy store manifest := by
  unfold checkFreshness at h
  split at h
  next hunexpired =>
    rw [Option.any_eq_true] at hunexpired
    obtain ⟨boundary, hboundary, hle⟩ := hunexpired
    exact .unexpired boundary hboundary (of_decide_eq_true hle)
  split at h
  · cases h
  next records hrecords =>
    split at h
    next record hfind =>
      have hrecord := List.find?_some hfind
      rw [Bool.and_eq_true, decide_eq_true_eq] at hrecord
      exact .validated records record hrecords (List.mem_of_find?_eq_some hfind) hrecord.1 hrecord.2
    next =>
      split at h
      · cases h
      next hfreshUntil =>
        split_ifs at h with hpermitted
        · exact .noExpiry hfreshUntil hpermitted
        · cases h

/-- With readable validations a fresh result passes the freshness check. -/
theorem checkFreshness_of_fresh {policy : Policy} {store : Store} {manifest : Manifest}
    (hreads : ∃ records, store.validations manifest.digest = .ok records)
    (h : Fresh policy store manifest) :
    ∃ validation, checkFreshness manifest store policy = .ok validation := by
  obtain ⟨records, hrecords⟩ := hreads
  unfold checkFreshness
  split
  · exact ⟨none, rfl⟩
  next hunexpired =>
  rw [hrecords]
  dsimp only
  split
  next record _ => exact ⟨some record, rfl⟩
  next hnone =>
    rw [List.find?_eq_none] at hnone
    simp only [Bool.and_eq_true, decide_eq_true_eq, not_and, not_le] at hnone
    cases h with
    | unexpired boundary declared fresh => simp [declared, fresh] at hunexpired
    | validated records' record read listed trusted fresh =>
      rw [hrecords] at read
      cases read
      exact absurd fresh (not_le.mpr (hnone record listed trusted))
    | noExpiry undeclared permitted =>
      rw [undeclared]
      exact ⟨none, if_pos permitted⟩

omit [Sha256] in
/-- Under distinct names, the names after the first are new even with it among the old ones. -/
theorem name_notMem_of_nodup_cons {descriptor : ArtifactDescriptor}
    {rest : List ArtifactDescriptor} {names : List Str}
    (hnodup : ((descriptor :: rest).map ArtifactDescriptor.name).Nodup)
    (hnew : ∀ d ∈ descriptor :: rest, d.name ∉ names) :
    ∀ d ∈ rest, d.name ∉ descriptor.name :: names := by
  intro d hd
  rw [List.map_cons, List.nodup_cons] at hnodup
  rw [List.mem_cons, not_or]
  refine ⟨?_, hnew d (List.mem_cons_of_mem _ hd)⟩
  rintro heq
  exact hnodup.1 (heq ▸ List.mem_map_of_mem hd)

/-- The artifacts read are those of the descriptors, in their order. -/
theorem readArtifacts_eq_ok {store : Store} {descriptors : List ArtifactDescriptor} :
    ∀ {names : List Str} {artifacts : List (Str × Bytes)},
      (descriptors.map ArtifactDescriptor.name).Nodup → (∀ d ∈ descriptors, d.name ∉ names) →
      (readArtifacts store names descriptors = .ok artifacts ↔
        List.Forall₂ (fun d artifact => artifact.1 = d.name ∧ Intact store d artifact.2)
          descriptors artifacts) := by
  induction descriptors with
  | nil =>
    intro names artifacts _ _
    simp [readArtifacts, eq_comm]
  | cons descriptor rest ih =>
    intro names artifacts hnodup hnew
    have hrest := name_notMem_of_nodup_cons hnodup hnew
    rw [List.map_cons, List.nodup_cons] at hnodup
    unfold readArtifacts
    rw [Except.check_eq_ok, rejectIf_eq_ok, decide_eq_false_iff_not]
    constructor
    · rintro ⟨-, h⟩
      split at h
      · cases h
      · cases h
      next blob hblob =>
        obtain ⟨hexact, h⟩ := Except.check_eq_ok.mp h
        obtain ⟨tail, htail, ⟨⟩⟩ := Except.bind_eq_ok.mp h
        rw [rejectIf_eq_ok, Bool.or_eq_false_iff] at hexact
        refine .cons ⟨rfl, hblob, ?_, ?_⟩ ((ih hnodup.2 hrest).mp htail)
        · simpa using hexact.1
        · simpa using hexact.2
    · intro h
      obtain ⟨artifact, tail, ⟨hname, hblob, hsize, hdigest⟩, htail, rfl⟩ :=
        List.forall₂_cons_left_iff.mp h
      refine ⟨hnew descriptor List.mem_cons_self, ?_⟩
      rw [hblob]
      dsimp only
      refine Except.check_eq_ok.mpr ⟨by simp [hsize, hdigest], ?_⟩
      rw [(ih hnodup.2 hrest).mpr htail, ← hname]
      rfl

/-- The artifacts read for a manifest are exactly those it lists. -/
theorem readArtifacts_manifest {store : Store} {manifest : Manifest}
    {artifacts : List (Str × Bytes)} :
    readArtifacts store [] manifest.fields.artifacts = .ok artifacts ↔
      List.Forall₂ (fun d artifact => artifact.1 = d.name ∧ Intact store d artifact.2)
        manifest.fields.artifacts artifacts :=
  readArtifacts_eq_ok manifest.nodup_names fun _ _ => List.not_mem_nil

theorem checkResult_eq_ok {policy : Policy} {manifest : Manifest} {store : Store}
    {dependency ignoreFreshness : Bool} {artifacts : List (Str × Bytes)}
    {validation : Option SourceValidation} :
    checkResult policy manifest store dependency ignoreFreshness = .ok (artifacts, validation) ↔
      trusts policy.trustedProducers manifest.fields.producer = true ∧
      NotInvalidated policy store manifest dependency ∧
      (if ignoreFreshness then .ok none else checkFreshness manifest store policy) =
        .ok validation ∧
      readArtifacts store [] manifest.fields.artifacts = .ok artifacts := by
  unfold checkResult
  rw [Except.check_eq_ok, rejectIf_eq_ok, Bool.not_eq_false', Except.check_eq_ok,
    effectiveInvalidated_eq_ok, Except.bind_eq_ok]
  refine and_congr_right fun _ => and_congr_right fun _ => ?_
  constructor
  · rintro ⟨validation', hfresh, h⟩
    obtain ⟨artifacts', hread, ⟨⟩⟩ := Except.bind_eq_ok.mp h
    exact ⟨hfresh, hread⟩
  · rintro ⟨hfresh, hread⟩
    exact ⟨validation, hfresh, Except.bind_eq_ok.mpr ⟨artifacts, hread, rfl⟩⟩

/-- What the artifacts read establish, one by one. -/
theorem exists_readArtifacts_iff {store : Store} {manifest : Manifest} :
    (∃ artifacts, readArtifacts store [] manifest.fields.artifacts = .ok artifacts) ↔
      ∀ descriptor ∈ manifest.fields.artifacts, ∃ blob, Intact store descriptor blob := by
  simp only [readArtifacts_manifest, exists_forall₂_iff]
  refine forall₂_congr fun descriptor _ => ?_
  exact ⟨fun ⟨artifact, _, h⟩ => ⟨artifact.2, h⟩,
    fun ⟨blob, h⟩ => ⟨(descriptor.name, blob), rfl, h⟩⟩

/-- The checks of one result establish the requirements on it, whatever the store does. -/
theorem admissibleResult_of_checkResult {policy : Policy} {manifest : Manifest} {store : Store}
    {dependency : Bool} {artifacts : List (Str × Bytes)} {validation : Option SourceValidation}
    (hlineage : policy.requireLineage = true → manifest.fields.dependencies.isSome = true)
    (h : checkResult policy manifest store dependency false = .ok (artifacts, validation)) :
    AdmissibleResult policy store manifest dependency := by
  obtain ⟨htrusted, hnotInvalidated, hfresh, hread⟩ := checkResult_eq_ok.mp h
  exact ⟨hlineage, htrusted, hnotInvalidated, fresh_of_checkFreshness hfresh,
    exists_readArtifacts_iff.mp ⟨artifacts, hread⟩⟩

/-- In a store whose reads succeed, a result that meets the requirements passes the checks. -/
theorem checkResult_of_admissibleResult {policy : Policy} {manifest : Manifest} {store : Store}
    {dependency : Bool} (hreads : store.ReadsSucceed)
    (h : AdmissibleResult policy store manifest dependency) :
    ∃ artifacts validation,
      checkResult policy manifest store dependency false = .ok (artifacts, validation) := by
  obtain ⟨validation, hfresh⟩ := checkFreshness_of_fresh (hreads.validations _) h.fresh
  obtain ⟨artifacts, hread⟩ := exists_readArtifacts_iff.mpr h.artifacts
  exact ⟨artifacts, validation,
    checkResult_eq_ok.mpr ⟨h.trusted, h.notInvalidated, hfresh, hread⟩⟩

/-! ### Dependencies -/

/-- A digest is located in a store: it is the first store that returns anything under the digest,
readable or not as the stores before it may be, and what it returns is the manifest with that
digest. -/
structure Located (stores : List Store) (digest : Str) (manifest : Manifest) (store : Store) :
    Prop where
  first : ∃ before after, stores = before ++ store :: after ∧
    ∀ s ∈ before, ∀ reader ∈ s.result, ∀ value, reader digest ≠ .ok (some value)
  found : ∃ reader ∈ store.result, reader digest = .ok (some manifest.document)
  exact : manifest.digest = digest

/-- A digest is located in the first store that has it, or in the others. -/
theorem located_cons {s : Store} {rest : List Store} {digest : Str} {manifest : Manifest}
    {store : Store} :
    Located (s :: rest) digest manifest store ↔
      (s = store ∧ (∃ reader ∈ s.result, reader digest = .ok (some manifest.document)) ∧
        manifest.digest = digest) ∨
      ((∀ reader ∈ s.result, ∀ value, reader digest ≠ .ok (some value)) ∧
        Located rest digest manifest store) := by
  constructor
  · rintro ⟨⟨before, after, hstores, hbefore⟩, hfound, hexact⟩
    cases before with
    | nil =>
      obtain ⟨rfl, rfl⟩ := List.cons_eq_cons.mp hstores
      exact .inl ⟨rfl, hfound, hexact⟩
    | cons b before =>
      obtain ⟨rfl, rfl⟩ := List.cons_eq_cons.mp hstores
      rw [List.forall_mem_cons] at hbefore
      exact .inr ⟨hbefore.1, ⟨before, after, rfl, hbefore.2⟩, hfound, hexact⟩
  · rintro (⟨rfl, hfound, hexact⟩ | ⟨hnone, ⟨before, after, rfl, hbefore⟩, hfound, hexact⟩)
    · refine ⟨⟨[], rest, rfl, ?_⟩, hfound, hexact⟩
      simp
    · refine ⟨⟨s :: before, after, rfl, ?_⟩, hfound, hexact⟩
      exact List.forall_mem_cons.mpr ⟨hnone, hbefore⟩

/-- `locateResult` finds where a digest is located. -/
theorem locateResult_eq_located {digest : Str} {manifest : Manifest} {store : Store}
    {stores : List Store} {readFailed supported : Bool} :
    locateResult digest readFailed supported stores = .ok (manifest, store) ↔
      Located stores digest manifest store := by
  induction stores generalizing readFailed supported with
  | nil =>
    constructor
    · intro h
      unfold locateResult at h
      split_ifs at h
      all_goals cases h
    · rintro ⟨⟨before, after, h, -⟩, -, -⟩
      simp at h
  | cons s rest ih =>
    rw [located_cons]
    unfold locateResult
    split
    next hnone => simp [hnone, ih]
    next reader hreader =>
      simp only [hreader, Option.mem_def, Option.some.injEq, exists_eq_left', forall_eq']
      split
      next hread => simp [hread, ih]
      next hread => simp [hread, ih]
      next value hread =>
        simp only [hread, Except.ok.injEq, Option.some.injEq, ne_eq, forall_eq', false_and,
          or_false]
        rw [Except.bind_eq_ok]
        constructor
        · rintro ⟨m, hm, h⟩
          obtain ⟨hdigest, ⟨⟩⟩ := Except.check_eq_ok.mp h
          exact ⟨rfl, (checkManifest_eq_ok.mp hm).symm, by simpa using hdigest⟩
        · rintro ⟨rfl, hdocument, hdigest⟩
          refine ⟨manifest, checkManifest_eq_ok.mpr hdocument.symm,
            Except.check_eq_ok.mpr ⟨?_, rfl⟩⟩
          simpa using hdigest

/-- In stores whose reads succeed, a digest resolves where it is located. -/
theorem resolves_iff_located {stores : List Store} {digest : Str} {manifest : Manifest}
    {store : Store} (hreads : ∀ s ∈ stores, s.ReadsSucceed) :
    Resolves stores digest manifest store ↔ Located stores digest manifest store := by
  constructor
  · rintro ⟨⟨before, after, rfl, hbefore⟩, hfound, hexact⟩
    refine ⟨⟨before, after, rfl, ?_⟩, hfound, hexact⟩
    intro s hs reader hreader value hvalue
    cases (hbefore s hs reader hreader).symm.trans hvalue
  · rintro ⟨⟨before, after, rfl, hbefore⟩, hfound, hexact⟩
    refine ⟨⟨before, after, rfl, ?_⟩, hfound, hexact⟩
    intro s hs reader hreader
    obtain ⟨value, hvalue⟩ :=
      (hreads s (List.mem_append_left _ hs)).result reader hreader digest
    cases value with
    | none => exact hvalue
    | some value => exact absurd hvalue (hbefore s hs reader hreader value)

/-- In stores whose reads succeed, `locateResult` finds what the digest resolves to. -/
theorem locateResult_eq_ok {digest : Str} {manifest : Manifest} {store : Store}
    {stores : List Store} (hreads : ∀ s ∈ stores, s.ReadsSucceed) {supported : Bool} :
    locateResult digest false supported stores = .ok (manifest, store) ↔
      Resolves stores digest manifest store := by
  rw [locateResult_eq_located, resolves_iff_located hreads]

omit [Sha256] in
@[simp]
theorem propagate_eq_ok {α : Type} {x : Except Stop α} {a : α} :
    propagate x = .ok a ↔ x = .ok a := by
  unfold propagate
  split
  · simp
  · rfl

/-- With a child evaluation that decides admissibility below `path`, the loop over the dependencies
decides admissibility of all of them, and counts the edges. -/
theorem evaluateDependencies_eq_ok {stores : List Store} {policy : Policy} {path : List Str}
    {child : Manifest → Store → ℕ → Except Stop Evaluation}
    (hreads : ∀ s ∈ stores, s.ReadsSucceed)
    (hchild : ∀ manifest, ∀ store ∈ stores, ∀ k ≤ policy.maxDependencyCount, ∀ k',
      (∃ e, child manifest store k = .ok e ∧ e.edges = k') ↔
        ∃ edges, k' = k + edges ∧ k' ≤ policy.maxDependencyCount ∧
          Admissible stores policy path manifest store edges)
    {dependencies : List Dependency} : ∀ k ≤ policy.maxDependencyCount, ∀ k',
      evaluateDependencies child stores policy dependencies k = .ok k' ↔
        ∃ edges, k' = k + edges ∧ k' ≤ policy.maxDependencyCount ∧
          AdmissibleDependencies stores policy path dependencies edges := by
  induction dependencies with
  | nil =>
    intro k hk k'
    constructor
    · rintro ⟨⟩
      exact ⟨0, rfl, hk, .nil⟩
    · rintro ⟨edges, rfl, -, ⟨⟩⟩
      rfl
  | cons dependency rest ih =>
    intro k hk k'
    unfold evaluateDependencies
    rw [Except.check_eq_ok, rejectIf_eq_ok, decide_eq_false_iff_not, not_lt, Except.bind_eq_ok]
    constructor
    · rintro ⟨hcount, ⟨manifest, store⟩, hlocate, h⟩
      obtain ⟨evaluation, hevaluation, h⟩ := Except.bind_eq_ok.mp h
      rw [propagate_eq_ok] at hevaluation
      have hresolves := (locateResult_eq_ok hreads).mp hlocate
      obtain ⟨edges, hedges, hbound, hadmissible⟩ :=
        (hchild manifest store hresolves.mem (k + 1) hcount _).mp ⟨evaluation, hevaluation, rfl⟩
      obtain ⟨edgesRest, hedgesRest, hk', hrest⟩ := (ih evaluation.edges hbound k').mp h
      exact ⟨1 + edges + edgesRest, by omega, hk', .cons hresolves hadmissible hrest⟩
    · rintro ⟨_, hk', hbound, hcons⟩
      cases hcons with
      | @cons _ _ _ manifest store edges edgesRest hresolves hadmissible hrest =>
        refine ⟨by omega, (manifest, store), (locateResult_eq_ok hreads).mpr hresolves, ?_⟩
        obtain ⟨evaluation, hevaluation, hedges⟩ :=
          (hchild manifest store hresolves.mem (k + 1) (by omega) (k + 1 + edges)).mpr
            ⟨edges, rfl, by omega, hadmissible⟩
        refine Except.bind_eq_ok.mpr ⟨evaluation, propagate_eq_ok.mpr hevaluation, ?_⟩
        exact (ih _ (by omega) k').mpr ⟨edgesRest, by omega, hbound, hrest⟩

/-! ### The evaluation -/

/-- What an evaluation that accepts has checked. -/
theorem evaluate_succ_eq_ok {stores : List Store} {policy : Policy} {levels : ℕ}
    {active : List Str} {requested : Str} {value : Value} {store : Store} {k : ℕ}
    {ignoreFreshness : Bool} {e : Evaluation} :
    evaluate stores policy (levels + 1) active requested value store k ignoreFreshness = .ok e ↔
      checkHeader policy requested value = .ok e.manifest ∧ e.manifest.digest ∉ active ∧
      checkResult policy e.manifest store (levels < policy.maxDependencyDepth) ignoreFreshness =
        .ok (e.artifacts, e.validation) ∧
      (e.manifest.fields.dependencies.elim (.ok k) fun dependencies =>
        evaluateDependencies
          (fun dependency source edges => evaluate stores policy levels
            (e.manifest.digest :: active) dependency.fields.actionDigest dependency.document source
            edges false)
          stores policy dependencies k) = .ok e.edges := by
  rw [evaluate, Except.bind_eq_ok]
  constructor
  · rintro ⟨manifest, hheader, h⟩
    obtain ⟨hcycle, h⟩ := Except.check_eq_ok.mp h
    obtain ⟨⟨artifacts, validation⟩, hresult, h⟩ := Except.bind_eq_ok.mp h
    rw [rejectIf_eq_ok, decide_eq_false_iff_not] at hcycle
    dsimp only at h
    cases hdependencies : manifest.fields.dependencies with
    | none =>
      rw [hdependencies] at h
      obtain ⟨edges, hedges, ⟨⟩⟩ := Except.bind_eq_ok.mp h
      exact ⟨hheader, hcycle, hresult, by rw [hdependencies]; exact hedges⟩
    | some dependencies =>
      rw [hdependencies] at h
      obtain ⟨edges, hedges, ⟨⟩⟩ := Except.bind_eq_ok.mp h
      exact ⟨hheader, hcycle, hresult, by rw [hdependencies]; exact hedges⟩
  · rintro ⟨hheader, hcycle, hresult, hedges⟩
    refine ⟨e.manifest, hheader, Except.check_eq_ok.mpr ⟨by simpa using hcycle, ?_⟩⟩
    refine Except.bind_eq_ok.mpr ⟨(e.artifacts, e.validation), hresult, ?_⟩
    dsimp only
    cases hdependencies : e.manifest.fields.dependencies with
    | none =>
      rw [hdependencies] at hedges
      exact Except.bind_eq_ok.mpr ⟨e.edges, hedges, rfl⟩
    | some dependencies =>
      rw [hdependencies] at hedges
      exact Except.bind_eq_ok.mpr ⟨e.edges, hedges, rfl⟩

omit [Sha256] in
theorem exists_manifest_document_iff (manifest : Manifest) {p : Manifest → Prop} :
    (∃ m : Manifest, m.document = manifest.document ∧
      m.fields.actionDigest = manifest.fields.actionDigest ∧ p m) ↔ p manifest := by
  constructor
  · rintro ⟨m, hdocument, -, hm⟩
    exact Manifest.ext_document hdocument ▸ hm
  · intro hm
    exact ⟨manifest, rfl, rfl, hm⟩

/-- The loop over the dependencies of a manifest, which may have none. -/
theorem elim_evaluateDependencies_eq_ok {stores : List Store} {policy : Policy} {path : List Str}
    {child : Manifest → Store → ℕ → Except Stop Evaluation}
    (hreads : ∀ s ∈ stores, s.ReadsSucceed)
    (hchild : ∀ manifest, ∀ store ∈ stores, ∀ k ≤ policy.maxDependencyCount, ∀ k',
      (∃ e, child manifest store k = .ok e ∧ e.edges = k') ↔
        ∃ edges, k' = k + edges ∧ k' ≤ policy.maxDependencyCount ∧
          Admissible stores policy path manifest store edges)
    {dependencies : Option (List Dependency)} (k : ℕ) (hk : k ≤ policy.maxDependencyCount)
    (k' : ℕ) :
    (dependencies.elim (.ok k) fun dependencies =>
      evaluateDependencies child stores policy dependencies k) = .ok k' ↔
        ∃ edges, k' = k + edges ∧ k' ≤ policy.maxDependencyCount ∧
          AdmissibleDependencies stores policy path (dependencies.getD []) edges := by
  cases dependencies with
  | none =>
    -- no dependencies are a loop over the empty list
    exact @evaluateDependencies_eq_ok _ stores policy path child hreads hchild [] k hk k'
  | some dependencies => exact evaluateDependencies_eq_ok hreads hchild k hk k'

/-- An evaluation that accepts answers with the manifest of the candidate. -/
theorem evaluate_document {stores : List Store} {policy : Policy} {levels : ℕ}
    {active : List Str} {requested : Str} {value : Value} {store : Store} {k : ℕ}
    {ignoreFreshness : Bool} {e : Evaluation}
    (h : evaluate stores policy levels active requested value store k ignoreFreshness = .ok e) :
    e.manifest.document = value := by
  cases levels with
  | zero =>
    rw [evaluate] at h
    obtain ⟨_, _, h⟩ := Except.bind_eq_ok.mp h
    cases h
  | succ levels => exact (checkHeader_eq_ok.mp (evaluate_succ_eq_ok.mp h).1).1

/-- `evaluate` decides admissibility, and counts the edges: by induction on the levels left. -/
theorem evaluate_eq_ok_iff {stores : List Store} {policy : Policy}
    (hreads : ∀ s ∈ stores, s.ReadsSucceed) {levels : ℕ} : ∀ {active : List Str},
    levels + active.length = policy.maxDependencyDepth + 1 →
    ∀ requested value, ∀ store ∈ stores, ∀ k ≤ policy.maxDependencyCount, ∀ k',
      (∃ e, evaluate stores policy levels active requested value store k false = .ok e ∧
          e.edges = k') ↔
        ∃ manifest : Manifest, manifest.document = value ∧
          manifest.fields.actionDigest = requested ∧
          ∃ edges, k' = k + edges ∧ k' ≤ policy.maxDependencyCount ∧
            Admissible stores policy active manifest store edges := by
  induction levels with
  | zero =>
    intro active hdepth requested value store _ k _ k'
    constructor
    · rintro ⟨e, h, -⟩
      rw [evaluate] at h
      obtain ⟨_, _, h⟩ := Except.bind_eq_ok.mp h
      cases h
    · rintro ⟨manifest, -, -, edges, -, -, hadmissible⟩
      cases hadmissible with
      | node _ depth _ _ => omega
  | succ levels ih =>
    intro active hdepth requested value store hstore k hk k'
    have hactive : (decide (levels < policy.maxDependencyDepth)) = decide (active ≠ []) := by
      rw [decide_eq_decide, ← List.length_pos_iff]
      omega
    -- one level down, a child evaluation below the manifest decides the admissibility of the child
    have hchild (manifest : Manifest) := fun (dependency : Manifest) (source : Store)
        (hsource : source ∈ stores) (k : ℕ) (hk : k ≤ policy.maxDependencyCount) (k' : ℕ) =>
      (@ih (manifest.digest :: active) (by rw [List.length_cons]; omega)
        dependency.fields.actionDigest dependency.document source hsource k hk k').trans
        (exists_manifest_document_iff dependency)
    constructor
    · rintro ⟨e, h, rfl⟩
      obtain ⟨hheader, hcycle, hresult, hedges⟩ := evaluate_succ_eq_ok.mp h
      obtain ⟨hvalue, hdigest, hlineage⟩ := checkHeader_eq_ok.mp hheader
      rw [hactive] at hresult
      obtain ⟨edges, hcount, hbound, hdependencies⟩ :=
        (elim_evaluateDependencies_eq_ok hreads (hchild e.manifest) k hk e.edges).mp hedges
      refine ⟨e.manifest, hvalue, hdigest, edges, hcount, hbound, .node ?_ ?_ hcycle hdependencies⟩
      · exact admissibleResult_of_checkResult hlineage hresult
      · omega
    · rintro ⟨manifest, hvalue, hdigest, edges, hcount, hbound, hadmissible⟩
      cases hadmissible with
      | node result depth acyclic dependencies =>
        obtain ⟨artifacts, validation, hresult⟩ :=
          checkResult_of_admissibleResult (hreads store hstore) result
        have hedges := (elim_evaluateDependencies_eq_ok hreads (hchild manifest) k hk k').mpr
          ⟨edges, hcount, hbound, dependencies⟩
        refine ⟨⟨manifest, artifacts, validation, k'⟩, evaluate_succ_eq_ok.mpr ?_, rfl⟩
        refine ⟨checkHeader_eq_ok.mpr ⟨hvalue, hdigest, result.lineage⟩, acyclic, ?_, hedges⟩
        rw [hactive]
        exact hresult

/-- A candidate is accepted exactly when it is admissible. -/
theorem exists_evaluate_eq_ok_iff {stores : List Store} {policy : Policy} {requested : Str}
    {value : Value} {store : Store} (hstore : store ∈ stores)
    (hreads : ∀ s ∈ stores, s.ReadsSucceed) :
    (∃ e, evaluate stores policy (policy.maxDependencyDepth + 1) [] requested value store 0
        false = .ok e) ↔ AdmissibleCandidate stores policy requested value store := by
  have hedges := @evaluate_eq_ok_iff _ stores policy hreads _ [] rfl requested value store hstore
    0 (Nat.zero_le _)
  constructor
  · rintro ⟨e, he⟩
    obtain ⟨manifest, hvalue, hdigest, edges, hcount, hbound, hadmissible⟩ :=
      (hedges e.edges).mp ⟨e, he, rfl⟩
    exact ⟨manifest, hvalue, hdigest, edges, by omega, hadmissible⟩
  · rintro ⟨manifest, hvalue, hdigest, edges, hbound, hadmissible⟩
    obtain ⟨e, he, -⟩ := (hedges (0 + edges)).mpr
      ⟨manifest, hvalue, hdigest, edges, rfl, by omega, hadmissible⟩
    exact ⟨e, he⟩

/-- An evaluation of a candidate accepts it exactly when it is admissible, and then it answers with
the artifacts that the manifest lists. -/
theorem evaluate_accepts_iff {stores : List Store} {policy : Policy} {requested : Str}
    {value : Value} {store : Store} (hstore : store ∈ stores)
    (hreads : ∀ s ∈ stores, s.ReadsSucceed) :
    ((∃ e, evaluate stores policy (policy.maxDependencyDepth + 1) [] requested value store 0
        false = .ok e) ↔ AdmissibleCandidate stores policy requested value store) ∧
    ∀ e, evaluate stores policy (policy.maxDependencyDepth + 1) [] requested value store 0
        false = .ok e →
      e.manifest.document = value ∧
      List.Forall₂ (fun d artifact => artifact.1 = d.name ∧ Intact store d artifact.2)
        e.manifest.fields.artifacts e.artifacts := by
  refine ⟨exists_evaluate_eq_ok_iff hstore hreads, ?_⟩
  intro e he
  obtain ⟨hheader, -, hresult, -⟩ := evaluate_succ_eq_ok.mp he
  obtain ⟨-, -, -, hread⟩ := checkResult_eq_ok.mp hresult
  exact ⟨(checkHeader_eq_ok.mp hheader).1, readArtifacts_manifest.mp hread⟩

end

/-! ### A derived result

A store with a result of 2026 that derives from another one, asked for in 2027. -/

/-- The instant that a text denotes. -/
def exampleTime (text : String) : DateTime :=
  (parseTime (lit text)).toOption.getD ⟨0, DateTime.zero_inRange⟩

/-- An action. -/
def exampleAction : Value :=
  .dict
    [(lit "spec_version", .str (lit "oncemesh.action/v0")),
      (lit "operation", .dict [(lit "name", .str (lit "document.pdf-to-text")),
        (lit "version", .str (lit "1"))]),
      (lit "inputs", .dict []),
      (lit "executor", .dict [(lit "name", .str (lit "pdf-text")), (lit "version", .str (lit "1")),
        (lit "config", .dict [])]),
      (lit "output_schema", .str (lit "oncemesh.text/v1")),
      (lit "vary", .dict [])]

/-- The digest text of a hash, given as a number. -/
def exampleDigest (hash : ℕ) : Str :=
  lit "sha256:" ++ hex ((List.range 32).reverse.map fun i => .ofNat (hash / 256 ^ i))

/-- The digest of the action. -/
def exampleActionDigest : Str :=
  exampleDigest 0x31153900340f7c6e9ee7405800b7c3d53237b7eee3df50a2e2850aae8c96edfd

/-- A result of the action by `producer` with one artifact of one octet, fresh until 2030, which
derives from the results with the digests `dependencies`. -/
def exampleManifest (producer : String) (artifactDigest : Str) (dependencies : List Str) : Value :=
  .dict
    [(lit "spec_version", .str (lit "oncemesh.result/v1")),
      (lit "action_digest", .str exampleActionDigest),
      (lit "artifacts", .list [.dict
        [(lit "name", .str (lit "artifact")),
          (lit "digest", .str artifactDigest),
          (lit "size", .int 1),
          (lit "media_type", .str (lit "text/plain"))]]),
      (lit "produced_at", .str (lit "2026-01-01T00:00:00Z")),
      (lit "fresh_until", .str (lit "2030-01-01T00:00:00Z")),
      (lit "producer", .str (lit producer)),
      (lit "dependencies", .list (dependencies.map fun dependency => .dict
        [(lit "name", .str (lit "source")), (lit "result_digest", .str dependency)]))]

/-- The store in memory with some blobs and the valid ones of some results. -/
def exampleStore (blobs : List Bytes) (results : List Value) : MemoryStore :=
  let store := blobs.foldl (@MemoryStore.putBlob Sha256.standard) (.empty (lit "private"))
  results.foldl (fun store value =>
    match checkManifest value "invalid_manifest" with
    | .ok manifest => @MemoryStore.putResult Sha256.standard store manifest
    | .error _ => store) store

/-- The result of octet 1. -/
def exampleSource : Value :=
  exampleManifest "alice"
    (exampleDigest 0x4bf5122f344554c53bde2ebb8cd2b7e3d1600ad631c385a5d7cce23c7785459a) []

/-- The digest of `exampleSource`. -/
def exampleSourceDigest : Str :=
  exampleDigest 0xdc5e39f9e5941483ca00634053722689f3c44a719e80bdd886c7622f4fd3e867

/-- The result of octet 2, which derives from the first one. -/
def exampleDerived : Value :=
  exampleManifest "alice"
    (exampleDigest 0xdbc1b4c900ffe48d575b5da5c638040125f65db0fe3e24494b76ea986457d986)
    [exampleSourceDigest]

theorem evaluate_accepts_iff_exampleDerived :
    @AdmissibleCandidate Sha256.standard
      [(exampleStore [[1], [2]] [exampleSource, exampleDerived]).view]
      { now := exampleTime "2027-01-01T00:00:00Z" } exampleActionDigest exampleDerived
      (exampleStore [[1], [2]] [exampleSource, exampleDerived]).view := by
  refine (@evaluate_accepts_iff Sha256.standard _ _ _ _ _ (List.mem_singleton_self _) ?_).1.mp ?_
  · intro s hs
    rw [List.mem_singleton.mp hs]
    exact MemoryStore.readsSucceed_view _
  · refine Except.exists_of_isOk ?_
    decide +kernel

end OnceMesh
