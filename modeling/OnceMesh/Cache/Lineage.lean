import Mathlib.Logic.Relation
import OnceMesh.Cache.Admissible
import OnceMesh.Cache.Lookup

/-!
# Lineage

The lineage of a result are the results it depends on, each in the store that the evaluation takes
it from. An accepted result has no effective invalidation anywhere in its lineage
(`notInvalidated_of_lineage`). The invalidations of a result are those of the store that supplies
the result, so that a record elsewhere has no effect (`lookup_eq_of_agree`).
-/

namespace OnceMesh

open Python

/-- A result and the store that supplied it. -/
abbrev SuppliedResult := Manifest × Store

section

variable [Sha256]

/-- A result depends on another one, which is located where its digest is. -/
def DependsOn (stores : List Store) (n n' : SuppliedResult) : Prop :=
  ∃ dependency ∈ n.1.fields.dependencies.getD [],
    Located stores dependency.resultDigest n'.1 n'.2

/-- The results that a result depends on, directly or not, and the result itself. -/
def Lineage (stores : List Store) : SuppliedResult → SuppliedResult → Prop :=
  Relation.ReflTransGen (DependsOn stores)

/-- The store has an invalidation of the result by somebody the policy trusts, and it is in
force. -/
def EffectivelyInvalidated (policy : Policy) (store : Store) (digest : Str) : Prop :=
  ∃ reader ∈ store.invalidations, ∃ records, reader digest = .ok records ∧ ∃ record ∈ records,
    trusts policy.invalidationTrust record.fields.producer = true ∧
      record.fields.invalidatedAt.instant ≤ policy.now

theorem NotInvalidated.not_effectively {policy : Policy} {store : Store} {manifest : Manifest}
    {dependency : Bool} (h : NotInvalidated policy store manifest dependency) :
    ¬EffectivelyInvalidated policy store manifest.digest := by
  rintro ⟨reader, hreader, records, hrecords, record, hrecord, htrusted, hle⟩
  obtain ⟨records', hrecords', hlater⟩ := h.notInvalidated reader hreader
  cases hrecords.symm.trans hrecords'
  exact absurd hle (not_le.mpr (hlater record hrecord htrusted))

variable {stores : List Store} {policy : Policy}

/-- Each accepted dependency has been located and evaluated. -/
theorem exists_child_of_evaluateDependencies
    {child : Manifest → Store → ℕ → Except Stop Evaluation} {dependencies : List Dependency} :
    ∀ {edges edges' : ℕ},
      evaluateDependencies child stores policy dependencies edges = .ok edges' →
      ∀ dependency ∈ dependencies, ∃ manifest store k e,
        Located stores dependency.resultDigest manifest store ∧ child manifest store k = .ok e := by
  induction dependencies with
  | nil => exact fun _ dependency h => absurd h List.not_mem_nil
  | cons d rest ih =>
    intro edges edges' h
    obtain ⟨⟨⟩, -, h⟩ := Except.bind_eq_ok.mp h
    obtain ⟨⟨manifest, store⟩, hlocated, h⟩ := Except.bind_eq_ok.mp h
    obtain ⟨e, he, h⟩ := Except.bind_eq_ok.mp h
    rw [List.forall_mem_cons]
    refine ⟨?_, ih h⟩
    exact ⟨manifest, store, edges + 1, e, locateResult_eq_located.mp hlocated,
      propagate_eq_ok.mp he⟩

/-- A digest is located in one place at most. -/
theorem Located.unique {digest : Str} {n n' : SuppliedResult}
    (h : Located stores digest n.1 n.2) (h' : Located stores digest n'.1 n'.2) : n = n' := by
  have hlocated := (@locateResult_eq_located _ digest _ _ stores false false).mpr h
  have hlocated' := (@locateResult_eq_located _ digest _ _ stores false false).mpr h'
  exact Except.ok.inj (hlocated.symm.trans hlocated')

/-- Everything in the lineage of an accepted result has been evaluated and accepted: by induction on
the levels left. -/
theorem exists_evaluate_of_lineage {levels : ℕ} :
    ∀ {active : List Str} {requested : Str} {value : Value} {store : Store} {k : ℕ}
      {ignoreFreshness : Bool} {e : Evaluation},
      evaluate stores policy levels active requested value store k ignoreFreshness = .ok e →
      ∀ n, Lineage stores (e.manifest, store) n →
        ∃ levels active requested value k ignoreFreshness, ∃ e' : Evaluation,
          evaluate stores policy (levels + 1) active requested value n.2 k ignoreFreshness =
            .ok e' ∧ e'.manifest = n.1 := by
  induction levels with
  | zero =>
    intro active requested value store k ignoreFreshness e h
    rw [evaluate] at h
    obtain ⟨_, _, h⟩ := Except.bind_eq_ok.mp h
    cases h
  | succ levels ih =>
    intro active requested value store k ignoreFreshness e h n hlineage
    rcases Relation.ReflTransGen.cases_head hlineage with rfl | ⟨child, hdepends, hchild⟩
    · exact ⟨levels, active, requested, value, k, ignoreFreshness, e, h, rfl⟩
    -- the first step of the lineage leads to a dependency that has been evaluated
    · obtain ⟨-, -, -, hdependencies⟩ := evaluate_succ_eq_ok.mp h
      obtain ⟨dependency, hdependency, hlocated⟩ := hdepends
      cases hfields : e.manifest.fields.dependencies with
      | none =>
        rw [hfields] at hdependency
        exact absurd hdependency List.not_mem_nil
      | some dependencies =>
        rw [hfields] at hdependency hdependencies
        obtain ⟨manifest, source, k', e', hlocated', he'⟩ :=
          exists_child_of_evaluateDependencies hdependencies dependency hdependency
        have hsame : child = (manifest, source) := hlocated.unique hlocated'
        have hmanifest : e'.manifest = manifest :=
          Manifest.ext_document (evaluate_document he')
        rw [hsame, ← hmanifest] at hchild
        exact ih he' n hchild

section

variable {levels : ℕ} {active : List Str} {requested : Str} {value : Value} {store : Store} {k : ℕ}
  {ignoreFreshness : Bool} {e : Evaluation}

/-- An accepted result has nothing invalidated in its lineage, whether its own freshness was checked
or not. -/
theorem not_effectivelyInvalidated_of_lineage
    (h : evaluate stores policy levels active requested value store k ignoreFreshness = .ok e)
    (n : SuppliedResult) (hn : Lineage stores (e.manifest, store) n) :
    ¬EffectivelyInvalidated policy n.2 n.1.digest := by
  obtain ⟨_, _, _, _, _, _, e', he', hmanifest⟩ := exists_evaluate_of_lineage h n hn
  obtain ⟨-, -, hresult, -⟩ := evaluate_succ_eq_ok.mp he'
  obtain ⟨-, hnotInvalidated, -, -⟩ := checkResult_eq_ok.mp hresult
  rw [← hmanifest]
  exact hnotInvalidated.not_effectively

/-- The dependencies of an accepted result, and theirs, are all in its lineage. -/
theorem exists_lineage_of_dependency
    (h : evaluate stores policy levels active requested value store k ignoreFreshness = .ok e)
    (n : SuppliedResult) (hn : Lineage stores (e.manifest, store) n) {dependency : Dependency}
    (hdependency : dependency ∈ n.1.fields.dependencies.getD []) :
    ∃ n', Lineage stores (e.manifest, store) n' ∧ n'.1.digest = dependency.resultDigest := by
  obtain ⟨_, _, _, _, _, _, e', he', hmanifest⟩ := exists_evaluate_of_lineage h n hn
  obtain ⟨-, -, -, hdependencies⟩ := evaluate_succ_eq_ok.mp he'
  rw [hmanifest] at hdependencies
  cases hfields : n.1.fields.dependencies with
  | none =>
    rw [hfields] at hdependency
    exact absurd hdependency List.not_mem_nil
  | some dependencies =>
    rw [hfields] at hdependencies
    have hmem : dependency ∈ dependencies := by
      rw [hfields] at hdependency
      exact hdependency
    obtain ⟨manifest, source, -, -, hlocated, -⟩ :=
      exists_child_of_evaluateDependencies hdependencies dependency hmem
    exact ⟨(manifest, source), hn.tail ⟨dependency, hdependency, hlocated⟩, hlocated.exact⟩

end

/-- A hit is a candidate of a store of its tier, evaluated there. -/
theorem exists_evaluate_of_lookup {ignoreFreshness : Bool} {action : Value} {hit : Hit}
    {rejections : List Str}
    (h : lookup ignoreFreshness action stores policy = .ok ⟨some hit, rejections⟩) :
    ∃ requested, actionDigest action = .ok requested ∧ ∃ store ∈ stores, hit.tier = store.name ∧
      ∃ values, store.candidates requested = .ok values ∧ hit.manifest.document ∈ values ∧
      ∃ e, evaluate stores policy (policy.maxDependencyDepth + 1) [] requested
          hit.manifest.document store 0 ignoreFreshness = .ok e ∧
        hit = ⟨store.name, e.manifest, e.artifacts, e.validation⟩ := by
  obtain ⟨requested, hrequested, h⟩ := Except.bind_eq_ok.mp h
  rw [searchStores_eq_firstHit] at h
  obtain ⟨before, attempt, after, hattempts, hrun, -⟩ := firstHit_eq_hit.mp h
  have hmem : attempt ∈ attempts requested stores :=
    hattempts ▸ List.mem_append_right _ List.mem_cons_self
  obtain ⟨store, hstore, hattempt⟩ := List.mem_flatMap.mp hmem
  refine ⟨requested, hrequested, store, hstore, ?_⟩
  split at hattempt
  · cases List.mem_singleton.mp hattempt
    cases hrun
  next values hvalues =>
    obtain ⟨value, hvalue, rfl⟩ := List.mem_map.mp hattempt
    obtain ⟨e, he, hhit⟩ := Except.bind_eq_ok.mp hrun
    cases hhit
    have hdocument : e.manifest.document = value := evaluate_document he
    refine ⟨rfl, values, hvalues, hdocument ▸ hvalue, e, ?_, rfl⟩
    rw [hdocument]
    exact he

/-! ### Records of other stores -/

/-- The store supplies a manifest with the digest, as a candidate or by its digest. -/
def Supplies (store : Store) (digest : Str) : Prop :=
  ∃ manifest : Manifest, manifest.digest = digest ∧
    ((∃ requested values, store.candidates requested = .ok values ∧
        manifest.document ∈ values) ∨
      ∃ reader ∈ store.result, ∃ key, reader key = .ok (some manifest.document))

/-- Two states of a store differ at most in the invalidations of results that it does not
supply. -/
structure AgreesOnSupplied (s s' : Store) : Prop where
  name : s.name = s'.name
  getBlob : s.getBlob = s'.getBlob
  candidates : s.candidates = s'.candidates
  result : s.result = s'.result
  validations : s.validations = s'.validations
  invalidations : ∀ digest, Supplies s digest →
    s.invalidations.map (fun reader => reader digest) =
      s'.invalidations.map (fun reader => reader digest)

variable {stores' : List Store}

theorem effectiveInvalidated_eq_of_agrees {s s' : Store} (h : AgreesOnSupplied s s')
    {manifest : Manifest} (hsupplies : Supplies s manifest.digest) (required : Bool) :
    effectiveInvalidated manifest s policy required =
      effectiveInvalidated manifest s' policy required := by
  have hread := h.invalidations _ hsupplies
  unfold effectiveInvalidated
  cases hs : s.invalidations with
  | none =>
    rw [hs, Option.map_none, eq_comm, Option.map_eq_none_iff] at hread
    rw [hread]
  | some reader =>
    rw [hs, Option.map_some, eq_comm, Option.map_eq_some_iff] at hread
    obtain ⟨reader', hs', hreader⟩ := hread
    simp only [hs', hreader]

theorem checkFreshness_eq_of_agrees {s s' : Store} (h : AgreesOnSupplied s s')
    (manifest : Manifest) :
    checkFreshness manifest s policy = checkFreshness manifest s' policy := by
  unfold checkFreshness
  rw [h.validations]

theorem readArtifacts_eq_of_agrees {s s' : Store} (h : AgreesOnSupplied s s')
    (descriptors : List ArtifactDescriptor) (names : List Str) :
    readArtifacts s names descriptors = readArtifacts s' names descriptors := by
  induction descriptors generalizing names with
  | nil => rfl
  | cons descriptor rest ih => simp only [readArtifacts, h.getBlob, ih]

theorem checkResult_eq_of_agrees {s s' : Store} (h : AgreesOnSupplied s s') {manifest : Manifest}
    (hsupplies : Supplies s manifest.digest) (dependency ignoreFreshness : Bool) :
    checkResult policy manifest s dependency ignoreFreshness =
      checkResult policy manifest s' dependency ignoreFreshness := by
  unfold checkResult
  simp only [effectiveInvalidated_eq_of_agrees h hsupplies, checkFreshness_eq_of_agrees h,
    readArtifacts_eq_of_agrees h]

/-- Agreeing stores locate the same manifest in the same place, or stop alike. -/
theorem locateResult_of_agrees (h : List.Forall₂ AgreesOnSupplied stores stores') (digest : Str)
    (readFailed supported : Bool) :
    (∃ stop, locateResult digest readFailed supported stores = .error stop ∧
      locateResult digest readFailed supported stores' = .error stop) ∨
    ∃ manifest s s', locateResult digest readFailed supported stores = .ok (manifest, s) ∧
      locateResult digest readFailed supported stores' = .ok (manifest, s') ∧
      AgreesOnSupplied s s' ∧ Supplies s manifest.digest := by
  induction h generalizing readFailed supported with
  | nil =>
    refine .inl ?_
    unfold locateResult reject
    split_ifs
    all_goals exact ⟨_, rfl, rfl⟩
  | @cons s s' rest rest' hs hrest ih =>
    unfold locateResult
    rw [← hs.result]
    cases hresult : s.result with
    | none => exact ih _ _
    | some reader =>
      dsimp only
      cases hread : reader digest with
      | error message => exact ih _ _
      | ok found =>
        cases found with
        | none => exact ih _ _
        | some value =>
          dsimp only
          cases hmanifest : checkManifest value "dependency_invalid_manifest" with
          | error stop => exact .inl ⟨stop, rfl, rfl⟩
          | ok manifest =>
            rw [Except.ok_bind, Except.ok_bind]
            cases hdigest : rejectIf (manifest.digest ≠ digest) "dependency_digest_mismatch" with
            | error stop => exact .inl ⟨stop, rfl, rfl⟩
            | ok u =>
              refine .inr ⟨manifest, s, s', rfl, rfl, hs, manifest, rfl, .inr ⟨reader, hresult, ?_⟩⟩
              exact ⟨digest, (checkManifest_eq_ok.mp hmanifest) ▸ hread⟩

theorem evaluateDependencies_eq_of_agrees (h : List.Forall₂ AgreesOnSupplied stores stores')
    {child child' : Manifest → Store → ℕ → Except Stop Evaluation}
    (hchild : ∀ manifest s s', AgreesOnSupplied s s' → Supplies s manifest.digest → ∀ k,
      child manifest s k = child' manifest s' k) (dependencies : List Dependency) (k : ℕ) :
    evaluateDependencies child stores policy dependencies k =
      evaluateDependencies child' stores' policy dependencies k := by
  induction dependencies generalizing k with
  | nil => rfl
  | cons dependency rest ih =>
    unfold evaluateDependencies
    refine bind_congr fun _ => ?_
    obtain ⟨stop, hs, hs'⟩ | ⟨manifest, s, s', hs, hs', hagrees, hsupplies⟩ :=
      locateResult_of_agrees h dependency.resultDigest false false
    · rw [hs, hs']
      rfl
    · rw [hs, hs', Except.ok_bind, Except.ok_bind]
      dsimp only
      rw [hchild manifest s s' hagrees hsupplies]
      exact bind_congr fun e => ih e.edges

/-- Evaluations in agreeing stores agree: by induction on the levels left. -/
theorem evaluate_eq_of_agrees (h : List.Forall₂ AgreesOnSupplied stores stores') {levels : ℕ} :
    ∀ {active : List Str} {requested : Str} {value : Value} {s s' : Store} {k : ℕ}
      {ignoreFreshness : Bool}, AgreesOnSupplied s s' →
      (∀ manifest : Manifest, manifest.document = value → Supplies s manifest.digest) →
      evaluate stores policy levels active requested value s k ignoreFreshness =
        evaluate stores' policy levels active requested value s' k ignoreFreshness := by
  induction levels with
  | zero => exact fun _ _ => rfl
  | succ levels ih =>
    intro active requested value s s' k ignoreFreshness hs hsupplies
    rw [evaluate, evaluate]
    cases hheader : checkHeader policy requested value with
    | error stop => rfl
    | ok manifest =>
      have hmanifest := hsupplies manifest (checkHeader_eq_ok.mp hheader).1
      rw [Except.ok_bind, Except.ok_bind, checkResult_eq_of_agrees hs hmanifest]
      have hdependencies := fun dependencies k => @evaluateDependencies_eq_of_agrees _ stores policy
        stores' h
        (fun dependency source edges => evaluate stores policy levels (manifest.digest :: active)
          dependency.fields.actionDigest dependency.document source edges false)
        (fun dependency source edges => evaluate stores' policy levels (manifest.digest :: active)
          dependency.fields.actionDigest dependency.document source edges false)
        (fun m s s' hagrees hm k => ih hagrees fun m' hm' => Manifest.ext_document hm' ▸ hm)
        dependencies k
      simp only [hdependencies]

theorem searchStore_eq_of_agrees (h : List.Forall₂ AgreesOnSupplied stores stores')
    {s s' : Store} (hs : AgreesOnSupplied s s') {requested : Str} {ignoreFreshness : Bool}
    {values : List Value}
    (hvalues : ∀ value ∈ values, ∀ manifest : Manifest, manifest.document = value →
      Supplies s manifest.digest) (rejections : List Str) :
    searchStore stores policy requested ignoreFreshness s values rejections =
      searchStore stores' policy requested ignoreFreshness s' values rejections := by
  induction values generalizing rejections with
  | nil => rfl
  | cons value rest ih =>
    rw [List.forall_mem_cons] at hvalues
    unfold searchStore
    rw [evaluate_eq_of_agrees h hs hvalues.1, hs.name]
    cases evaluate stores' policy (policy.maxDependencyDepth + 1) [] requested value s' 0
        ignoreFreshness with
    | ok e => rfl
    | error stop =>
      cases stop with
      | raised e => rfl
      | rejected reason => exact ih hvalues.2 _

/-- Lookups in agreeing stores agree. -/
theorem lookup_eq_of_agree (h : List.Forall₂ AgreesOnSupplied stores stores')
    (ignoreFreshness : Bool) (action : Value) :
    lookup ignoreFreshness action stores policy = lookup ignoreFreshness action stores' policy := by
  have hsearch : ∀ {searched searched' : List Store} (requested : Str),
      List.Forall₂ AgreesOnSupplied searched searched' → ∀ rejections,
      searchStores stores policy requested ignoreFreshness searched rejections =
        searchStores stores' policy requested ignoreFreshness searched' rejections := by
    intro searched searched' requested hsearched
    induction hsearched with
    | nil => exact fun _ => rfl
    | @cons s s' rest rest' hs hrest ih =>
      intro rejections
      unfold searchStores
      rw [← hs.candidates, ← hs.name]
      cases hcandidates : s.candidates requested with
      | error message => exact ih _
      | ok values =>
        dsimp only
        rw [searchStore_eq_of_agrees h hs]
        · refine bind_congr fun found => ?_
          obtain ⟨hit, rejections⟩ := found
          cases hit with
          | some hit => rfl
          | none => exact ih _
        · rintro value hvalue manifest rfl
          exact ⟨manifest, rfl, .inl ⟨requested, values, hcandidates, hvalue⟩⟩
  exact bind_congr fun requested => hsearch requested h []

/-- A lookup never returns a result with an effective invalidation in its lineage, where the records
of each result are those of the store that supplies it; records that a store has for results it
does not supply never change the outcome of a lookup. -/
theorem lookup_respects_invalidations (action : Value) (stores : List Store) (policy : Policy)
    (ignoreFreshness : Bool) :
    (∀ hit rejections,
      lookup ignoreFreshness action stores policy = .ok ⟨some hit, rejections⟩ →
      ∃ requested, actionDigest action = .ok requested ∧ ∃ store ∈ stores, hit.tier = store.name ∧
        (∃ values, store.candidates requested = .ok values ∧ hit.manifest.document ∈ values) ∧
        ∀ n, Lineage stores (hit.manifest, store) n →
          ¬EffectivelyInvalidated policy n.2 n.1.digest) ∧
    ∀ stores', List.Forall₂ AgreesOnSupplied stores stores' →
      lookup ignoreFreshness action stores policy =
        lookup ignoreFreshness action stores' policy := by
  refine ⟨?_, fun stores' h => lookup_eq_of_agree h ignoreFreshness action⟩
  intro hit rejections h
  obtain ⟨requested, hrequested, store, hstore, htier, values, hvalues, hdocument, e, he, rfl⟩ :=
    exists_evaluate_of_lookup h
  exact ⟨requested, hrequested, store, hstore, htier, ⟨values, hvalues, hdocument⟩,
    not_effectivelyInvalidated_of_lineage he⟩

end

/-! ### A record in another store -/

/-- An invalidation of `exampleSource` in 2026. -/
def exampleInvalidation : Value :=
  .dict
    [(lit "spec_version", .str (lit "oncemesh.invalidation/v0")),
      (lit "result_digest", .str exampleSourceDigest),
      (lit "invalidated_at", .str (lit "2026-06-01T00:00:00Z")),
      (lit "producer", .str (lit "operator")),
      (lit "reason", .str (lit "source.changed"))]

/-- The store with an invalidation, if it is valid. -/
def MemoryStore.withInvalidation (store : MemoryStore) (record : Value) : MemoryStore :=
  match h : validateInvalidation record with
  | .ok fields => store.putInvalidation ⟨record, fields, h⟩
  | .error _ => store

/-- The first store has a result, and the second one an invalidation of it. -/
def exampleSplitStores : List Store :=
  [(exampleStore [[1]] [exampleSource]).view,
    ((MemoryStore.empty (lit "organization")).withInvalidation exampleInvalidation).view]

/-- The same, with the invalidation in the first store. -/
def exampleJoinedStores : List Store :=
  [((exampleStore [[1]] [exampleSource]).withInvalidation exampleInvalidation).view,
    (MemoryStore.empty (lit "organization")).view]

/-- The digest of the manifest that a lookup returns. -/
def hitDigest [Sha256] (outcome : Except PyError LookupOutcome) : Option Str :=
  outcome.toOption.bind fun o => o.hit.map fun hit => hit.manifest.digest

/-- A result is returned although a configured store has an effective invalidation of it, and the
place of the record decides. -/
theorem not_invalidated_across_stores :
    (∃ store ∈ exampleSplitStores, EffectivelyInvalidated
      { now := exampleTime "2027-01-01T00:00:00Z" } store exampleSourceDigest) ∧
    @hitDigest Sha256.standard (@reuse Sha256.standard exampleAction exampleSplitStores
      { now := exampleTime "2027-01-01T00:00:00Z" }) = some exampleSourceDigest ∧
    @hitDigest Sha256.standard (@reuse Sha256.standard exampleAction exampleJoinedStores
      { now := exampleTime "2027-01-01T00:00:00Z" }) = none := by
  refine ⟨⟨_, List.mem_cons_of_mem _ List.mem_cons_self, _, rfl, _, rfl, ?_⟩, ?_, ?_⟩
  · have hany : (MemoryStore.newestFirst ((MemoryStore.empty (lit "organization")).withInvalidation
        exampleInvalidation).invalidations exampleSourceDigest).any (fun record =>
          decide (record.fields.invalidatedAt.instant ≤ exampleTime "2027-01-01T00:00:00Z")) =
        true := by
      decide +kernel
    obtain ⟨record, hrecord, hle⟩ := List.any_eq_true.mp hany
    exact ⟨record, hrecord, rfl, of_decide_eq_true hle⟩
  · decide +kernel
  · decide +kernel

end OnceMesh
