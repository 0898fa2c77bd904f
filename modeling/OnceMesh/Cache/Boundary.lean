import Mathlib.Data.List.MinMax
import OnceMesh.Cache.Lineage

/-!
# The boundary of freshness

Time enters the evaluation of a candidate in two ways: a result must be fresh, and not invalidated.
`boundary` is the last instant at which a result is fresh, and `invalidation` the first at which it
is invalidated. `evaluate_accepts_iff_le_boundary` collapses the decision for a whole dependency
tree: a candidate is accepted until the earliest boundary in the tree, and before the earliest
invalidation in it.
-/

namespace OnceMesh

open Python

section

variable [Sha256]

/-! ### Boundaries -/

/-- The policy at another instant. -/
def Policy.atTime (policy : Policy) (t : DateTime) : Policy := { policy with now := t }

namespace SuppliedResult

/-- The validations of the result. -/
def validations (n : SuppliedResult) : List SourceValidation :=
  (n.2.validations n.1.digest).toOption.getD []

/-- The invalidations of the result. -/
def invalidations (n : SuppliedResult) : List Invalidation :=
  n.2.invalidations.elim [] fun reader => (reader n.1.digest).toOption.getD []

/-- The bound that the result itself sets, which is infinite if the policy permits results without
expiry. -/
def ownBound (policy : Policy) (n : SuppliedResult) : List (WithTop DateTime) :=
  match n.1.fields.freshUntil with
  | some own => [↑own.instant]
  | none => if policy.permitNoExpiry then [⊤] else []

/-- The bounds of the freshness of a result: its own, and those of its trusted validations. -/
def freshBounds (policy : Policy) (n : SuppliedResult) : List (WithTop DateTime) :=
  n.ownBound policy ++
    (n.validations.filter fun record => trusts policy.validationTrust record.fields.producer).map
      fun record => (record.fields.freshUntil.instant : WithTop DateTime)

/-- The latest of the bounds; there may be none. -/
def boundary (policy : Policy) (n : SuppliedResult) : WithBot (WithTop DateTime) :=
  (n.freshBounds policy).maximum

/-- The earliest trusted invalidation, if there is one. -/
def invalidation (policy : Policy) (n : SuppliedResult) : WithTop DateTime :=
  ((n.invalidations.filter fun record =>
      trusts policy.invalidationTrust record.fields.producer).map
    fun record => record.fields.invalidatedAt.instant).minimum

end SuppliedResult

/-- The earliest boundary among some results. -/
def minBoundary (policy : Policy) (nodes : List SuppliedResult) : WithBot (WithTop DateTime) :=
  (nodes.map (SuppliedResult.boundary policy)).foldr min ⊤

/-- The earliest invalidation among some results. -/
def minInvalidation (policy : Policy) (nodes : List SuppliedResult) : WithTop DateTime :=
  (nodes.map (SuppliedResult.invalidation policy)).foldr min ⊤

omit [Sha256] in
theorem le_foldr_min {α : Type} [LinearOrder α] [OrderTop α] {a : α} {l : List α} :
    a ≤ l.foldr min ⊤ ↔ ∀ b ∈ l, a ≤ b := by
  induction l with
  | nil => simp
  | cons b l ih => rw [List.foldr_cons, le_min_iff, ih, List.forall_mem_cons]

omit [Sha256] in
theorem lt_foldr_min {α : Type} [LinearOrder α] [OrderTop α] {a : α} (ha : a < ⊤) {l : List α} :
    a < l.foldr min ⊤ ↔ ∀ b ∈ l, a < b := by
  induction l with
  | nil => simpa using ha
  | cons b l ih => rw [List.foldr_cons, lt_min_iff, ih, List.forall_mem_cons]

variable {stores : List Store} {policy : Policy} {t : DateTime}

/-- With readable validations, a result is fresh up to its boundary. -/
theorem fresh_iff_le_boundary {manifest : Manifest} {store : Store} (hreads : store.ReadsSucceed) :
    Fresh (policy.atTime t) store manifest ↔
      ((t : WithTop DateTime) : WithBot (WithTop DateTime)) ≤
        SuppliedResult.boundary policy (manifest, store) := by
  obtain ⟨records, hrecords⟩ := hreads.validations manifest.digest
  have hvalidations : SuppliedResult.validations (manifest, store) = records := by
    rw [SuppliedResult.validations]
    simp only [hrecords]
    rfl
  rw [SuppliedResult.boundary, List.coe_le_maximum_iff]
  simp only [SuppliedResult.freshBounds, hvalidations, List.mem_append, List.mem_map,
    List.mem_filter]
  constructor
  · intro h
    cases h with
    | unexpired own declared fresh =>
      refine ⟨own.instant, .inl ?_, WithTop.coe_le_coe.mpr fresh⟩
      simp [SuppliedResult.ownBound, declared]
    | validated records' record read listed trusted fresh =>
      rw [hrecords] at read
      cases read
      exact ⟨record.fields.freshUntil.instant, .inr ⟨record, ⟨listed, trusted⟩, rfl⟩,
        WithTop.coe_le_coe.mpr fresh⟩
    | noExpiry undeclared permitted =>
      have hpermitted : policy.permitNoExpiry = true := permitted
      refine ⟨⊤, .inl ?_, le_top⟩
      simp [SuppliedResult.ownBound, undeclared, hpermitted]
  · rintro ⟨bound, hown | ⟨record, ⟨listed, trusted⟩, rfl⟩, hle⟩
    · cases hdeclared : manifest.fields.freshUntil with
      | none =>
        simp only [SuppliedResult.ownBound, hdeclared] at hown
        split_ifs at hown with hpermitted
        · exact .noExpiry hdeclared hpermitted
        · cases hown
      | some own =>
        simp only [SuppliedResult.ownBound, hdeclared] at hown
        rw [List.mem_singleton.mp hown] at hle
        exact .unexpired own hdeclared (WithTop.coe_le_coe.mp hle)
    · exact .validated records record hrecords listed trusted (WithTop.coe_le_coe.mp hle)

/-- With readable invalidations, a result is not invalidated before its first trusted one. -/
theorem notInvalidated_iff_lt_invalidation {manifest : Manifest} {store : Store}
    {dependency : Bool} (hreads : store.ReadsSucceed) :
    NotInvalidated (policy.atTime t) store manifest dependency ↔
      ((manifest.fields.dependencies.isSome || dependency) = true →
        store.invalidations.isSome = true) ∧
      (t : WithTop DateTime) < SuppliedResult.invalidation policy (manifest, store) := by
  have hlt : (t : WithTop DateTime) < SuppliedResult.invalidation policy (manifest, store) ↔
      ∀ record ∈ SuppliedResult.invalidations (manifest, store),
        trusts policy.invalidationTrust record.fields.producer = true →
          t < record.fields.invalidatedAt.instant := by
    rw [SuppliedResult.invalidation, ← not_le, List.minimum_le_coe_iff]
    simp only [List.mem_map, List.mem_filter, not_exists, not_and, not_le]
    constructor
    · intro h record hrecord htrusted
      exact h _ ⟨record, ⟨hrecord, htrusted⟩, rfl⟩
    · rintro h _ ⟨record, ⟨hrecord, htrusted⟩, rfl⟩
      exact h record hrecord htrusted
  rw [hlt]
  constructor
  · rintro ⟨hsupported, hnone⟩
    refine ⟨hsupported, ?_⟩
    cases hreader : store.invalidations with
    | none => simp [SuppliedResult.invalidations, hreader]
    | some reader =>
      obtain ⟨records, hrecords, hlater⟩ := hnone reader hreader
      simp only [SuppliedResult.invalidations, hreader, hrecords, Option.elim]
      exact hlater
  · rintro ⟨hsupported, hlater⟩
    refine ⟨hsupported, ?_⟩
    intro reader hreader
    obtain ⟨records, hrecords⟩ := hreads.invalidations reader hreader manifest.digest
    rw [Option.mem_def] at hreader
    simp only [SuppliedResult.invalidations, hreader, hrecords, Option.elim] at hlater
    exact ⟨records, hrecords, hlater⟩

/-! ### Unfolded dependency trees -/

/-- What a result must satisfy at any time, apart from its dependencies. -/
structure TimelessResult (policy : Policy) (store : Store) (manifest : Manifest)
    (dependency : Bool) : Prop where
  lineage : policy.requireLineage = true → manifest.fields.dependencies.isSome = true
  trusted : trusts policy.trustedProducers manifest.fields.producer = true
  supported : (manifest.fields.dependencies.isSome || dependency) = true →
    store.invalidations.isSome = true
  artifacts : ∀ descriptor ∈ manifest.fields.artifacts, ∃ blob, Intact store descriptor blob

mutual

/-- The result passes every check that does not depend on the time, below the results `path`, and
`nodes` are the results in its unfolded dependency tree. -/
inductive Unfolds (stores : List Store) (policy : Policy) :
    (path : List Str) → Manifest → Store → (nodes : List SuppliedResult) → Prop
  | node {path : List Str} {manifest : Manifest} {store : Store} {nodes : List SuppliedResult}
      (result : TimelessResult policy store manifest (path ≠ []))
      (depth : path.length ≤ policy.maxDependencyDepth)
      (acyclic : manifest.digest ∉ path)
      (dependencies : UnfoldsAll stores policy (manifest.digest :: path)
        (manifest.fields.dependencies.getD []) nodes) :
      Unfolds stores policy path manifest store ((manifest, store) :: nodes)

/-- Each dependency resolves to a result that unfolds. -/
inductive UnfoldsAll (stores : List Store) (policy : Policy) :
    (path : List Str) → List Dependency → (nodes : List SuppliedResult) → Prop
  | nil {path : List Str} : UnfoldsAll stores policy path [] []
  | cons {path : List Str} {dependency : Dependency} {rest : List Dependency}
      {manifest : Manifest} {store : Store} {nodes nodesRest : List SuppliedResult}
      (resolves : Resolves stores dependency.resultDigest manifest store)
      (unfolds : Unfolds stores policy path manifest store nodes)
      (others : UnfoldsAll stores policy path rest nodesRest) :
      UnfoldsAll stores policy path (dependency :: rest) (nodes ++ nodesRest)

end

/-- The result is fresh and not invalidated at an instant. -/
def InTime (policy : Policy) (t : DateTime) (n : SuppliedResult) : Prop :=
  ((t : WithTop DateTime) : WithBot (WithTop DateTime)) ≤ n.boundary policy ∧
    (t : WithTop DateTime) < n.invalidation policy

/-- The requirements on one result, with the time split off. -/
theorem admissibleResult_atTime_iff {manifest : Manifest} {store : Store} {dependency : Bool}
    (hreads : store.ReadsSucceed) :
    AdmissibleResult (policy.atTime t) store manifest dependency ↔
      TimelessResult policy store manifest dependency ∧ InTime policy t (manifest, store) := by
  constructor
  · rintro ⟨hlineage, htrusted, hnotInvalidated, hfresh, hartifacts⟩
    obtain ⟨hsupported, hlt⟩ := (notInvalidated_iff_lt_invalidation hreads).mp hnotInvalidated
    exact ⟨⟨hlineage, htrusted, hsupported, hartifacts⟩,
      (fresh_iff_le_boundary hreads).mp hfresh, hlt⟩
  · rintro ⟨⟨hlineage, htrusted, hsupported, hartifacts⟩, hle, hlt⟩
    exact ⟨hlineage, htrusted, (notInvalidated_iff_lt_invalidation hreads).mpr ⟨hsupported, hlt⟩,
      (fresh_iff_le_boundary hreads).mpr hle, hartifacts⟩

/-- A digest resolves to one result at most. -/
theorem Resolves.unique {digest : Str} {manifest manifest' : Manifest} {store store' : Store}
    (hreads : ∀ s ∈ stores, s.ReadsSucceed) (h : Resolves stores digest manifest store)
    (h' : Resolves stores digest manifest' store') : manifest = manifest' ∧ store = store' := by
  have hlocated := (@locateResult_eq_ok _ digest _ _ stores hreads false).mpr h
  have hlocated' := (@locateResult_eq_ok _ digest _ _ stores hreads false).mpr h'
  exact Prod.mk.inj (Except.ok.inj (hlocated.symm.trans hlocated'))

/-- Dependencies that unfold are admissible at the times at which all their results are. -/
theorem admissibleDependencies_iff_inTime {path : List Str}
    (hreads : ∀ s ∈ stores, s.ReadsSucceed)
    (hchild : ∀ manifest, ∀ store ∈ stores, ∀ nodes,
      Unfolds stores policy path manifest store nodes → ∀ edges,
      (Admissible stores (policy.atTime t) path manifest store edges ↔
        nodes.length = edges + 1 ∧ ∀ n ∈ nodes, InTime policy t n))
    {dependencies : List Dependency} : ∀ {nodes : List SuppliedResult},
      UnfoldsAll stores policy path dependencies nodes → ∀ edges,
      (AdmissibleDependencies stores (policy.atTime t) path dependencies edges ↔
        nodes.length = edges ∧ ∀ n ∈ nodes, InTime policy t n) := by
  induction dependencies with
  | nil =>
    rintro _ ⟨⟩ edges
    constructor
    · rintro ⟨⟩
      exact ⟨rfl, fun _ hn => absurd hn List.not_mem_nil⟩
    · rintro ⟨rfl, -⟩
      exact .nil
  | cons dependency rest ih =>
    intro nodes h edges
    cases h with
    | @cons _ _ _ manifest store nodes nodesRest resolves unfolds others =>
      have hnode := hchild manifest store resolves.mem nodes unfolds
      constructor
      · intro h
        cases h with
        | @cons _ _ _ manifest' store' edges edgesRest resolves' admissible others' =>
          obtain ⟨rfl, rfl⟩ := resolves.unique hreads resolves'
          obtain ⟨hlength, htimes⟩ := (hnode edges).mp admissible
          obtain ⟨hlengthRest, htimesRest⟩ := (ih others edgesRest).mp others'
          refine ⟨?_, List.forall_mem_append.mpr ⟨htimes, htimesRest⟩⟩
          rw [List.length_append]
          omega
      · rintro ⟨rfl, htimes⟩
        rw [List.forall_mem_append] at htimes
        have hpos : nodes.length = nodes.length - 1 + 1 := by
          cases unfolds
          rfl
        rw [List.length_append, hpos, Nat.add_comm (nodes.length - 1) 1]
        exact .cons resolves ((hnode _).mpr ⟨hpos, htimes.1⟩)
          ((ih others _).mpr ⟨rfl, htimes.2⟩)

/-- A result that unfolds is admissible at the times at which all results of its tree are: by
induction on the levels left. -/
theorem admissible_iff_inTime (hreads : ∀ s ∈ stores, s.ReadsSucceed) {levels : ℕ} :
    ∀ {path : List Str}, levels + path.length = policy.maxDependencyDepth + 1 →
    ∀ manifest, ∀ store ∈ stores, ∀ nodes, Unfolds stores policy path manifest store nodes →
    ∀ edges, (Admissible stores (policy.atTime t) path manifest store edges ↔
      nodes.length = edges + 1 ∧ ∀ n ∈ nodes, InTime policy t n) := by
  induction levels with
  | zero =>
    rintro path hdepth manifest store - nodes ⟨-, depth, -, -⟩
    omega
  | succ levels ih =>
    rintro path hdepth manifest store hstore _ ⟨result, depth, acyclic, dependencies⟩ edges
    have hdependencies := admissibleDependencies_iff_inTime hreads
      (@ih (manifest.digest :: path) (by rw [List.length_cons]; omega)) dependencies edges
    rw [List.length_cons, Nat.succ_inj, List.forall_mem_cons]
    constructor
    · intro h
      cases h with
      | node result' _ _ dependencies' =>
        obtain ⟨hlength, htimes⟩ := hdependencies.mp dependencies'
        exact ⟨hlength, ((admissibleResult_atTime_iff (hreads store hstore)).mp result').2, htimes⟩
    · rintro ⟨hlength, htime, htimes⟩
      refine .node ?_ depth acyclic (hdependencies.mpr ⟨hlength, htimes⟩)
      exact (admissibleResult_atTime_iff (hreads store hstore)).mpr ⟨result, htime⟩

/-- Dependencies that are admissible at some time unfold. -/
theorem exists_unfoldsAll {path : List Str}
    (hchild : ∀ manifest, ∀ store ∈ stores, ∀ edges,
      Admissible stores (policy.atTime t) path manifest store edges →
        ∃ nodes, Unfolds stores policy path manifest store nodes)
    {dependencies : List Dependency} : ∀ {edges : ℕ},
      AdmissibleDependencies stores (policy.atTime t) path dependencies edges →
        ∃ nodes, UnfoldsAll stores policy path dependencies nodes := by
  induction dependencies with
  | nil => exact fun _ => ⟨[], .nil⟩
  | cons dependency rest ih =>
    intro edges h
    cases h with
    | cons resolves admissible others =>
      obtain ⟨nodes, hnodes⟩ := hchild _ _ resolves.mem _ admissible
      obtain ⟨nodesRest, hrest⟩ := ih others
      exact ⟨nodes ++ nodesRest, .cons resolves hnodes hrest⟩

/-- A result that is admissible at some time unfolds: by induction on the levels left. -/
theorem exists_unfolds (hreads : ∀ s ∈ stores, s.ReadsSucceed) {levels : ℕ} :
    ∀ {path : List Str}, levels + path.length = policy.maxDependencyDepth + 1 →
    ∀ manifest, ∀ store ∈ stores, ∀ edges,
      Admissible stores (policy.atTime t) path manifest store edges →
        ∃ nodes, Unfolds stores policy path manifest store nodes := by
  induction levels with
  | zero =>
    rintro path hdepth manifest store - edges ⟨-, depth, -, -⟩
    have hmax : path.length ≤ policy.maxDependencyDepth := depth
    omega
  | succ levels ih =>
    rintro path hdepth manifest store hstore edges ⟨result, depth, acyclic, dependencies⟩
    obtain ⟨nodes, hnodes⟩ := exists_unfoldsAll
      (@ih (manifest.digest :: path) (by rw [List.length_cons]; omega)) dependencies
    have htimeless := ((admissibleResult_atTime_iff (hreads store hstore)).mp result).1
    exact ⟨_, .node htimeless depth acyclic hnodes⟩

/-- A candidate passes every check that does not depend on the time, and `nodes` are the results in
its unfolded dependency tree. -/
structure UnfoldedCandidate (stores : List Store) (policy : Policy) (requested : Str)
    (value : Value) (store : Store) (nodes : List SuppliedResult) : Prop where
  unfolds : ∃ manifest : Manifest, manifest.document = value ∧
    manifest.fields.actionDigest = requested ∧ Unfolds stores policy [] manifest store nodes
  count : nodes.length ≤ policy.maxDependencyCount + 1

/-- The root evaluation accepts the candidate at an instant. -/
def AcceptedAt (stores : List Store) (policy : Policy) (requested : Str) (value : Value)
    (store : Store) (t : DateTime) : Prop :=
  ∃ e, evaluate stores (policy.atTime t) (policy.maxDependencyDepth + 1) [] requested value store 0
    false = .ok e

variable {requested : Str} {value : Value} {store : Store}

/-- A candidate that unfolds is accepted at the times at which all results of its tree are. -/
theorem UnfoldedCandidate.acceptedAt_iff {nodes : List SuppliedResult} (hstore : store ∈ stores)
    (hreads : ∀ s ∈ stores, s.ReadsSucceed)
    (h : UnfoldedCandidate stores policy requested value store nodes) (t : DateTime) :
    AcceptedAt stores policy requested value store t ↔ ∀ n ∈ nodes, InTime policy t n := by
  obtain ⟨⟨manifest, rfl, rfl, hunfolds⟩, hcount⟩ := h
  have htimes := @admissible_iff_inTime _ stores policy t hreads (policy.maxDependencyDepth + 1) []
    rfl manifest store hstore nodes hunfolds
  have hpos : nodes.length = nodes.length - 1 + 1 := by
    cases hunfolds
    rfl
  rw [AcceptedAt]
  refine (@exists_evaluate_eq_ok_iff _ stores (policy.atTime t) _ _ store hstore hreads).trans ?_
  refine (exists_manifest_document_iff manifest).trans ?_
  constructor
  · rintro ⟨edges, -, hadmissible⟩
    exact ((htimes edges).mp hadmissible).2
  · intro hall
    refine ⟨nodes.length - 1, ?_, (htimes _).mpr ⟨hpos, hall⟩⟩
    have hmax : (policy.atTime t).maxDependencyCount = policy.maxDependencyCount := rfl
    omega

/-- A candidate that is accepted at some time unfolds. -/
theorem exists_unfoldedCandidate (hstore : store ∈ stores)
    (hreads : ∀ s ∈ stores, s.ReadsSucceed)
    (h : AcceptedAt stores policy requested value store t) :
    ∃ nodes, UnfoldedCandidate stores policy requested value store nodes := by
  have hadmissible :=
    (@exists_evaluate_eq_ok_iff _ stores (policy.atTime t) _ _ store hstore hreads).mp h
  obtain ⟨manifest, hvalue, hdigest, edges, hcount, hadmissible⟩ := hadmissible
  obtain ⟨nodes, hnodes⟩ := @exists_unfolds _ stores policy t hreads
    (policy.maxDependencyDepth + 1) [] rfl manifest store hstore edges hadmissible
  have hlength := ((@admissible_iff_inTime _ stores policy t hreads
    (policy.maxDependencyDepth + 1) [] rfl manifest store hstore nodes hnodes edges).mp
      hadmissible).1
  have hmax : edges ≤ policy.maxDependencyCount := hcount
  exact ⟨nodes, ⟨manifest, hvalue, hdigest, hnodes⟩, by omega⟩

/-- The results of a tree are all in time when the instant is within the earliest bounds. -/
theorem inTime_iff {nodes : List SuppliedResult} :
    (∀ n ∈ nodes, InTime policy t n) ↔
      ((t : WithTop DateTime) : WithBot (WithTop DateTime)) ≤ minBoundary policy nodes ∧
        (t : WithTop DateTime) < minInvalidation policy nodes := by
  rw [minBoundary, minInvalidation, le_foldr_min, lt_foldr_min (WithTop.coe_lt_top t)]
  simp only [List.forall_mem_map, InTime]
  exact forall₂_and

/-- A candidate that passes the checks that do not depend on the time is accepted exactly up to the
earliest boundary in its unfolded dependency tree and before the earliest invalidation in it; and
the times at which any candidate is accepted are downward closed. -/
theorem evaluate_accepts_iff_le_boundary (hstore : store ∈ stores)
    (hreads : ∀ s ∈ stores, s.ReadsSucceed) :
    (∀ nodes, UnfoldedCandidate stores policy requested value store nodes → ∀ t,
      AcceptedAt stores policy requested value store t ↔
        ((t : WithTop DateTime) : WithBot (WithTop DateTime)) ≤ minBoundary policy nodes ∧
          (t : WithTop DateTime) < minInvalidation policy nodes) ∧
    ∀ t t', t' ≤ t → AcceptedAt stores policy requested value store t →
      AcceptedAt stores policy requested value store t' := by
  refine ⟨?_, ?_⟩
  · intro nodes h t
    rw [h.acceptedAt_iff hstore hreads, inTime_iff]
  · intro t t' hle haccepted
    obtain ⟨nodes, h⟩ := exists_unfoldedCandidate hstore hreads haccepted
    rw [h.acceptedAt_iff hstore hreads, inTime_iff] at haccepted ⊢
    have hcoe : (t' : WithTop DateTime) ≤ t := WithTop.coe_le_coe.mpr hle
    exact ⟨(WithBot.coe_le_coe.mpr hcoe).trans haccepted.1, hcoe.trans_lt haccepted.2⟩

end

/-- The derived example result unfolds, and 2027 is within its bounds. -/
theorem evaluate_accepts_iff_le_boundary_exampleDerived :
    ∃ nodes, @UnfoldedCandidate Sha256.standard
        [(exampleStore [[1], [2]] [exampleSource, exampleDerived]).view]
        { now := exampleTime "2026-06-01T00:00:00Z" } exampleActionDigest exampleDerived
        (exampleStore [[1], [2]] [exampleSource, exampleDerived]).view nodes ∧
      (((exampleTime "2027-01-01T00:00:00Z" : DateTime) : WithTop DateTime) :
          WithBot (WithTop DateTime)) ≤
        @minBoundary Sha256.standard { now := exampleTime "2026-06-01T00:00:00Z" } nodes := by
  have hmem :=
    List.mem_singleton_self (exampleStore [[1], [2]] [exampleSource, exampleDerived]).view
  have hreads : ∀ s ∈ [(exampleStore [[1], [2]] [exampleSource, exampleDerived]).view],
      s.ReadsSucceed := by
    intro s hs
    rw [List.mem_singleton.mp hs]
    exact MemoryStore.readsSucceed_view _
  have haccepted : @AcceptedAt Sha256.standard
      [(exampleStore [[1], [2]] [exampleSource, exampleDerived]).view]
      { now := exampleTime "2026-06-01T00:00:00Z" } exampleActionDigest exampleDerived
      (exampleStore [[1], [2]] [exampleSource, exampleDerived]).view
      (exampleTime "2027-01-01T00:00:00Z") := by
    refine Except.exists_of_isOk ?_
    decide +kernel
  obtain ⟨nodes, hnodes⟩ :=
    @exists_unfoldedCandidate Sha256.standard _ _ _ _ _ _ hmem hreads haccepted
  exact ⟨nodes, hnodes, ((@evaluate_accepts_iff_le_boundary Sha256.standard _ _ _ _ _ hmem
    hreads).1 nodes hnodes _).mp haccepted |>.1⟩

end OnceMesh
