import OnceMesh.Runtime.Outcomes

/-!
# The two freshness computations

The stale-while-revalidate branch compares the evaluation time with the latest of all trusted
boundaries of a candidate; a lookup short-circuits on the boundary of the manifest and then looks
for one validation that covers the time. `latestTrustedFreshness_iff_evaluate` says that they agree.
-/

namespace OnceMesh

open Python

/-! ### The latest of some instants -/

/-- A fold of `max` is the greatest of what it has seen. -/
theorem isGreatest_foldl_max (ts : List DateTime) (t : DateTime) :
    IsGreatest {x | x ∈ t :: ts} (ts.foldl max t) := by
  induction ts generalizing t with
  | nil => exact ⟨List.mem_singleton_self t, fun x hx => (List.mem_singleton.mp hx).le⟩
  | cons u ts ih =>
    obtain ⟨hmem, hle⟩ := ih (max t u)
    rw [List.foldl_cons]
    constructor
    · rcases List.mem_cons.mp hmem with heq | hmem
      · rw [heq]
        rcases max_choice t u with h | h
        · simp [h]
        · simp [h]
      · exact List.mem_cons_of_mem _ (List.mem_cons_of_mem _ hmem)
    · intro x hx
      have hmax : max t u ≤ ts.foldl max (max t u) := hle List.mem_cons_self
      rcases List.mem_cons.mp hx with rfl | hx
      · exact (le_max_left _ _).trans hmax
      rcases List.mem_cons.mp hx with rfl | hx
      · exact (le_max_right _ _).trans hmax
      · exact hle (List.mem_cons_of_mem _ hx)

theorem latest_eq_some_iff {ts : List DateTime} {t : DateTime} :
    latest ts = some t ↔ IsGreatest {x | x ∈ ts} t := by
  cases ts with
  | nil => exact iff_of_false (by simp [latest]) fun h => absurd h.1 List.not_mem_nil
  | cons u ts =>
    rw [latest, Option.some_inj]
    exact ⟨fun h => h ▸ isGreatest_foldl_max ts u, fun h => (isGreatest_foldl_max ts u).unique h⟩

/-- The latest of some instants covers a time exactly when one of them does. -/
theorem exists_latest_le_iff {ts : List DateTime} {now : DateTime} :
    (∃ t, latest ts = some t ∧ now ≤ t) ↔ ∃ t ∈ ts, now ≤ t := by
  constructor
  · rintro ⟨t, ht, hle⟩
    exact ⟨t, (latest_eq_some_iff.mp ht).1, hle⟩
  · rintro ⟨t, hmem, hle⟩
    cases ts with
    | nil => exact absurd hmem List.not_mem_nil
    | cons u ts => exact ⟨_, rfl, hle.trans ((isGreatest_foldl_max ts u).2 hmem)⟩

section

variable [Sha256]

/-! ### The boundary of a candidate -/

/-- The instants the boundary is the latest of: that of the manifest, and those of its validations
by trusted producers. -/
def TrustedBoundary (hit : Hit) (records : List SourceValidation) (policy : OperationPolicy)
    (t : DateTime) : Prop :=
  (∃ boundary, hit.manifest.fields.freshUntil = some boundary ∧ boundary.instant = t) ∨
  ∃ record ∈ records, record.fields.producer ∈ policy.trustedValidationProducers ∧
    record.fields.freshUntil.instant = t

/-- With readable validations the boundary is the latest trusted one. -/
theorem latestTrustedFreshness_eq (policy : OperationPolicy) {hit : Hit} {stores : List Store}
    {store : Store} (hstore : stores.find? (fun s => decide (s.name = hit.tier)) = some store)
    {records : List SourceValidation}
    (hrecords : store.validations hit.manifest.digest = .ok records) :
    ∃ ts, latestTrustedFreshness hit stores policy = (latest ts, false) ∧
      ∀ t, t ∈ ts ↔ TrustedBoundary hit records policy t := by
  have hlatest : latestTrustedFreshness hit stores policy =
      (latest ((hit.manifest.fields.freshUntil.map Timestamp.instant).toList ++
        (records.filter fun r => r.fields.producer ∈ policy.trustedValidationProducers).map
          fun r => r.fields.freshUntil.instant), false) := by
    rw [latestTrustedFreshness, hstore]
    simp only [hrecords]
  refine ⟨_, hlatest, ?_⟩
  intro t
  rw [List.mem_append, TrustedBoundary]
  refine or_congr ?_ ?_
  · rw [Option.mem_toList, Option.map_eq_some_iff]
  · simp only [List.mem_map, List.mem_filter, decide_eq_true_eq, and_assoc]

/-- A result is fresh under the trust of a policy when a trusted boundary covers the time. -/
theorem fresh_trust_iff {hit : Hit} {store : Store} {policy : OperationPolicy} {now : DateTime}
    {records : List SourceValidation}
    (hrecords : store.validations hit.manifest.digest = .ok records) :
    Fresh (policy.trust now) store hit.manifest ↔
      ∃ t, TrustedBoundary hit records policy t ∧ now ≤ t := by
  constructor
  · rintro (⟨boundary, hdeclared, hle⟩ | ⟨records', record, hread, hlisted, htrusted, hle⟩ |
      ⟨-, hpermitted⟩)
    · exact ⟨_, .inl ⟨boundary, hdeclared, rfl⟩, hle⟩
    · cases hrecords.symm.trans hread
      have hproducer : record.fields.producer ∈ policy.trustedValidationProducers := by
        simpa [Policy.validationTrust, OperationPolicy.trust, trusts] using htrusted
      exact ⟨_, .inr ⟨record, hlisted, hproducer, rfl⟩, hle⟩
    -- the trust of a policy does not permit results without expiry
    · cases hpermitted
  · rintro ⟨t, ⟨boundary, hdeclared, rfl⟩ | ⟨record, hlisted, hproducer, rfl⟩, hle⟩
    · exact .unexpired boundary hdeclared hle
    · have htrusted : trusts (policy.trust now).validationTrust record.fields.producer = true := by
        simpa [Policy.validationTrust, OperationPolicy.trust, trusts] using hproducer
      exact .validated records record hrecords hlisted htrusted hle

/-! ### The agreement -/

omit [Sha256] in
/-- Under distinct names a store is found by its name. -/
theorem find?_name_eq_some {stores : List Store} (hnames : (stores.map Store.name).Nodup)
    {store : Store} (hstore : store ∈ stores) {name : Str} (hname : store.name = name) :
    stores.find? (fun s => decide (s.name = name)) = some store := by
  cases hfind : stores.find? fun s => decide (s.name = name) with
  | none =>
    have h := List.find?_eq_none.mp hfind store hstore
    exact absurd hname (by simpa using h)
  | some found =>
    have hfound : found.name = name := by simpa using List.find?_some hfind
    rw [List.inj_on_of_nodup_map hnames (List.mem_of_find?_eq_some hfind) hstore
      (hfound.trans hname.symm)]

/-- An evaluation that has accepted a candidate without its freshness accepts it with, exactly when
it is fresh. -/
theorem exists_evaluate_iff_fresh {stores : List Store} {policy : Policy} {levels : ℕ}
    {active : List Str} {requested : Str} {store : Store} {k : ℕ} {e : Evaluation}
    (hreads : ∃ records, store.validations e.manifest.digest = .ok records)
    (h : evaluate stores policy (levels + 1) active requested e.manifest.document store k true =
      .ok e) :
    (∃ e', evaluate stores policy (levels + 1) active requested e.manifest.document store k false =
      .ok e') ↔ Fresh policy store e.manifest := by
  obtain ⟨hheader, hactive, hresult, hedges⟩ := evaluate_succ_eq_ok.mp h
  obtain ⟨htrusted, hinvalidated, -, hread⟩ := checkResult_eq_ok.mp hresult
  constructor
  · rintro ⟨e', h'⟩
    obtain ⟨-, -, hresult', -⟩ := evaluate_succ_eq_ok.mp h'
    obtain ⟨-, -, hfresh, -⟩ := checkResult_eq_ok.mp hresult'
    rw [← Manifest.ext_document (evaluate_document h')]
    exact fresh_of_checkFreshness hfresh
  · intro hfresh
    obtain ⟨validation, hfreshness⟩ := checkFreshness_of_fresh hreads hfresh
    exact ⟨{ e with validation }, evaluate_succ_eq_ok.mpr ⟨hheader, hactive,
      checkResult_eq_ok.mpr ⟨htrusted, hinvalidated, hfreshness, hread⟩, hedges⟩⟩

/-- For a candidate of a lookup without freshness, the stale-while-revalidate branch finds a
boundary that covers the time exactly when the evaluation of the candidate in its store accepts it
with freshness. -/
theorem latestTrustedFreshness_iff_evaluate {action : Value} {stores : List Store}
    {policy : OperationPolicy} {now : DateTime} {candidate : LookupOutcome} {hit : Hit}
    {requested : Str} {store : Store} (hnames : (stores.map Store.name).Nodup)
    (hreads : ∀ s ∈ stores, ∀ digest, ∃ records, s.validations digest = .ok records)
    (hcandidate : candidateForRevalidation action stores (policy.trust now) = .ok candidate)
    (hhit : candidate.hit = some hit) (hrequested : actionDigest action = .ok requested)
    (hstore : store ∈ stores) (htier : store.name = hit.tier) :
    (∃ boundary, latestTrustedFreshness hit stores policy = (some boundary, false) ∧
      now ≤ boundary) ↔
    ∃ e, evaluate stores (policy.trust now) ((policy.trust now).maxDependencyDepth + 1) [] requested
      hit.manifest.document store 0 false = .ok e := by
  obtain ⟨found, rejections⟩ := candidate
  subst hhit
  obtain ⟨requested', hrequested', source, hsource, hname, -, -, -, e, he, hheq⟩ :=
    exists_evaluate_of_lookup hcandidate
  cases hrequested.symm.trans hrequested'
  -- the store with the name of the tier is the one the candidate was found in
  have hsame : store = source := List.inj_on_of_nodup_map hnames hstore hsource (htier.trans hname)
  subst hsame
  obtain ⟨records, hrecords⟩ := hreads store hstore hit.manifest.digest
  have hfind : stores.find? (fun s => decide (s.name = hit.tier)) = some store :=
    find?_name_eq_some hnames hstore htier
  obtain ⟨ts, hlatest, hmem⟩ := latestTrustedFreshness_eq policy hfind hrecords
  have hmanifest : hit.manifest = e.manifest := by rw [hheq]
  rw [hmanifest] at he ⊢
  rw [exists_evaluate_iff_fresh ⟨records, hmanifest ▸ hrecords⟩ he, ← hmanifest,
    fresh_trust_iff hrecords, hlatest]
  simp only [Prod.mk.injEq, and_true, ← hmem]
  exact exists_latest_le_iff

end

/-! ### A candidate in its store -/

/-- A policy for stale results. -/
def exampleStalePolicy : OperationPolicy := exampleOperationPolicy .staleWhileRevalidate .public 60

section

attribute [local instance] Sha256.standard

/-- The lookup for `exampleAction` in 2027 finds a candidate in the tier `private`. -/
theorem exists_exampleCandidate : ∃ candidate hit,
    candidateForRevalidation exampleAction [(exampleStore [[1]] [exampleSource]).view]
      (exampleStalePolicy.trust (exampleTime "2027-01-01T00:00:00Z")) = .ok candidate ∧
    candidate.hit = some hit ∧ hit.tier = lit "private" := by
  have hfound : ((candidateForRevalidation exampleAction [(exampleStore [[1]] [exampleSource]).view]
      (exampleStalePolicy.trust (exampleTime "2027-01-01T00:00:00Z"))).toOption.bind
        LookupOutcome.hit).any (fun hit => decide (hit.tier = lit "private")) = true := by
    decide +kernel
  exact exists_hit_of_any hfound

theorem latestTrustedFreshness_iff_evaluate_example : ∃ hit requested,
    (∃ boundary, latestTrustedFreshness hit [(exampleStore [[1]] [exampleSource]).view]
        exampleStalePolicy = (some boundary, false) ∧
      exampleTime "2027-01-01T00:00:00Z" ≤ boundary) ↔
    ∃ e, evaluate [(exampleStore [[1]] [exampleSource]).view]
      (exampleStalePolicy.trust (exampleTime "2027-01-01T00:00:00Z")) 9 [] requested
      hit.manifest.document (exampleStore [[1]] [exampleSource]).view 0 false = .ok e := by
  obtain ⟨candidate, hit, hcandidate, hhit, htier⟩ := exists_exampleCandidate
  obtain ⟨requested, hrequested⟩ := Except.exists_of_isOk
    (show (actionDigest exampleAction).isOk = true by decide +kernel)
  have hname : (exampleStore [[1]] [exampleSource]).view.name = lit "private" := by decide +kernel
  refine ⟨hit, requested,
    latestTrustedFreshness_iff_evaluate (by simp) ?_ hcandidate hhit hrequested
    (List.mem_singleton_self _) (hname.trans htier.symm)⟩
  intro store hstore digest
  rw [List.mem_singleton.mp hstore]
  exact ⟨_, rfl⟩

end

end OnceMesh
