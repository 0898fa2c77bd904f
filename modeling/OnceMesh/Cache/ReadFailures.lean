import OnceMesh.Cache.Admissible
import OnceMesh.Cache.Lookup

/-!
# Failures to read

Every reader of a store may raise `StoreReadError`. A lookup guards all of them but one: the blob of
an artifact is read without a handler, at every level of the dependencies. `Unreadable` says that an
evaluation comes to such a blob, and `readFailures_contained_iff` that a lookup contains the
failures to read exactly when none of its attempts does.
-/

namespace OnceMesh

open Python

section

variable [Sha256]

/-! ### What an evaluation raises -/

/-- The stop is a rejection. -/
def Stop.IsRejection : Stop → Prop
  | .raised _ => False
  | .rejected _ => True

omit [Sha256] in
/-- A rejection is one. -/
theorem raisesOnly_reject {α : Type} (reason : String) :
    RaisesOnly Stop.IsRejection (reject reason : Except Stop α) :=
  .error trivial

omit [Sha256] in
/-- A check that rejects does nothing else. -/
theorem raisesOnly_rejectIf (condition : Bool) (reason : String) :
    RaisesOnly Stop.IsRejection (rejectIf condition reason) := by
  cases condition
  · exact .ok ()
  · exact raisesOnly_reject reason

/-- Reading the invalidations only rejects. -/
theorem raisesOnly_effectiveInvalidated (manifest : Manifest) (store : Store) (policy : Policy)
    (required : Bool) :
    RaisesOnly Stop.IsRejection (effectiveInvalidated manifest store policy required) := by
  unfold effectiveInvalidated
  split
  · exact raisesOnly_rejectIf _ _
  · split
    · exact raisesOnly_reject _
    · exact raisesOnly_rejectIf _ _

/-- The check of the freshness only rejects. -/
theorem raisesOnly_checkFreshness (manifest : Manifest) (store : Store) (policy : Policy) :
    RaisesOnly Stop.IsRejection (checkFreshness manifest store policy) := by
  unfold checkFreshness
  split
  · exact .ok _
  · split
    · exact raisesOnly_reject _
    · split
      · exact .ok _
      · split
        · exact raisesOnly_reject _
        · split_ifs
          · exact .ok _
          · exact raisesOnly_reject _

/-- The stop is not a `StoreReadError`. -/
def Stop.IsNotReadError (stop : Stop) : Prop := ∀ message, stop ≠ .raised (readError message)

omit [Sha256] in
/-- A rejection is no failure to read. -/
theorem Stop.IsRejection.isNotReadError (stop : Stop) (h : stop.IsRejection) :
    stop.IsNotReadError := by
  rintro message rfl
  exact h

omit [Sha256] in
/-- The check of a manifest does not fail to read. -/
theorem raisesOnly_checkManifest (value : Value) (reason : String) :
    RaisesOnly Stop.IsNotReadError (checkManifest value reason) := by
  unfold checkManifest
  split
  · exact .ok _
  next e h =>
    split_ifs with hvalue
    · exact .error fun message h => nomatch h
    · -- what is left is the `TypeError` of an unhashable version
      obtain hvalue' | rfl := validateManifest_raises h
      · exact absurd hvalue' hvalue
      · exact .error fun message h => nomatch h

omit [Sha256] in
/-- The check of the header of a result does not fail to read. -/
theorem raisesOnly_checkHeader (policy : Policy) (requested : Str) (value : Value) :
    RaisesOnly Stop.IsNotReadError (checkHeader policy requested value) := by
  refine .bind (raisesOnly_checkManifest _ _) fun manifest _ => ?_
  refine .mono Stop.IsRejection.isNotReadError ?_
  exact .bind (raisesOnly_rejectIf _ _) fun _ _ => .bind (raisesOnly_rejectIf _ _) fun _ _ =>
    .pure _

/-- Locating a result handles the failures to read. -/
theorem raisesOnly_locateResult (digest : Str) (readFailed supported : Bool)
    (stores : List Store) :
    RaisesOnly Stop.IsNotReadError (locateResult digest readFailed supported stores) := by
  induction stores generalizing readFailed supported with
  | nil =>
    refine .mono Stop.IsRejection.isNotReadError ?_
    unfold locateResult
    split_ifs
    all_goals exact raisesOnly_reject _
  | cons store rest ih =>
    unfold locateResult
    split
    · exact ih _ _
    · split
      · exact ih _ _
      · exact ih _ _
      · refine .bind (raisesOnly_checkManifest _ _) fun manifest _ => ?_
        refine .mono Stop.IsRejection.isNotReadError ?_
        exact .bind (raisesOnly_rejectIf _ _) fun _ _ => .pure _

/-! ### Unreadable artifacts -/

/-- An artifact cannot be read, and the ones before it are intact. -/
def UnreadableArtifact (store : Store) (descriptors : List ArtifactDescriptor)
    (message : StoreReadError) : Prop :=
  ∃ before descriptor after, descriptors = before ++ descriptor :: after ∧
    (∀ d ∈ before, ∃ blob, Intact store d blob) ∧ store.getBlob descriptor.digest = .error message

/-- The first of several artifacts cannot be read, or one after it. -/
theorem unreadableArtifact_cons {store : Store} {descriptor : ArtifactDescriptor}
    {rest : List ArtifactDescriptor} {message : StoreReadError} :
    UnreadableArtifact store (descriptor :: rest) message ↔
      store.getBlob descriptor.digest = .error message ∨
      (∃ blob, Intact store descriptor blob) ∧ UnreadableArtifact store rest message := by
  constructor
  · rintro ⟨before, d, after, hlist, hbefore, hread⟩
    cases before with
    | nil =>
      obtain ⟨rfl, rfl⟩ := List.cons_eq_cons.mp hlist
      exact .inl hread
    | cons b before =>
      obtain ⟨rfl, rfl⟩ := List.cons_eq_cons.mp hlist
      rw [List.forall_mem_cons] at hbefore
      exact .inr ⟨hbefore.1, before, d, after, rfl, hbefore.2, hread⟩
  · rintro (hread | ⟨hintact, before, d, after, rfl, hbefore, hread⟩)
    · refine ⟨[], descriptor, rest, rfl, ?_, hread⟩
      simp
    · exact ⟨descriptor :: before, d, after, rfl, List.forall_mem_cons.mpr ⟨hintact, hbefore⟩,
        hread⟩

/-- Reading artifacts raises exactly at an unreadable one. -/
theorem readArtifacts_eq_raised {store : Store} {descriptors : List ArtifactDescriptor}
    {message : StoreReadError} : ∀ {names : List Str},
      (descriptors.map ArtifactDescriptor.name).Nodup → (∀ d ∈ descriptors, d.name ∉ names) →
      (readArtifacts store names descriptors = .error (.raised (readError message)) ↔
        UnreadableArtifact store descriptors message) := by
  induction descriptors with
  | nil =>
    intro names _ _
    refine iff_of_false (fun h => nomatch h) ?_
    rintro ⟨before, d, after, h, -⟩
    simp at h
  | cons descriptor rest ih =>
    intro names hnodup hnew
    have hrest := name_notMem_of_nodup_cons hnodup hnew
    rw [List.map_cons, List.nodup_cons] at hnodup
    have hname : rejectIf (descriptor.name ∈ names) "invalid_artifact_name" = .ok () := by
      simpa using hnew descriptor List.mem_cons_self
    rw [unreadableArtifact_cons, readArtifacts, hname, Except.ok_bind, ← ih hnodup.2 hrest]
    cases hread : store.getBlob descriptor.digest with
    | error message' =>
      have hnot : ¬∃ blob, Intact store descriptor blob := by
        rintro ⟨blob, h, -⟩
        cases hread.symm.trans h
      simp [raiseReadError, readError, hnot]
    | ok found =>
      cases found with
      | none =>
        have hnot : ¬∃ blob, Intact store descriptor blob := by
          rintro ⟨blob, h, -⟩
          cases hread.symm.trans h
        simp [reject, hnot]
      | some blob =>
        have hintact : (∃ blob, Intact store descriptor blob) ↔
            rejectIf (blob.length ≠ descriptor.size || digestBytes blob ≠ descriptor.digest)
              "artifact_integrity_failure" = .ok () := by
          rw [rejectIf_eq_ok, Bool.or_eq_false_iff, decide_eq_false_iff_not,
            decide_eq_false_iff_not, not_not, not_not]
          constructor
          · rintro ⟨blob', h, hsize, hdigest⟩
            cases hread.symm.trans h
            exact ⟨hsize, hdigest⟩
          · rintro ⟨hsize, hdigest⟩
            exact ⟨blob, hread, hsize, hdigest⟩
        rw [hintact]
        simp only [reduceCtorEq, false_or, Except.bind_eq_error]
        constructor
        · rintro (h | ⟨⟨⟩, hok, h | ⟨tail, -, h⟩⟩)
          · exact absurd h fun h => (raisesOnly_rejectIf _ _ _ h).isNotReadError _ _ rfl
          · exact ⟨hok, h⟩
          · cases h
        · rintro ⟨hok, h⟩
          exact .inr ⟨(), hok, .inl h⟩

/-! ### Unreadable candidates -/

/-- An evaluation comes to an artifact that cannot be read: one of the result, after the checks of
the result before it, or one of a dependency, after the dependencies before it. -/
inductive Unreadable (stores : List Store) (policy : Policy) : (levels : ℕ) →
    (active : List Str) → (requested : Str) → Value → Store → (edges : ℕ) →
    (ignoreFreshness : Bool) → StoreReadError → Prop
  | artifact {levels : ℕ} {active : List Str} {requested : Str} {value : Value} {store : Store}
      {edges : ℕ} {ignoreFreshness : Bool} {message : StoreReadError} {manifest : Manifest}
      (header : checkHeader policy requested value = .ok manifest)
      (acyclic : manifest.digest ∉ active)
      (trusted : trusts policy.trustedProducers manifest.fields.producer = true)
      (notInvalidated : NotInvalidated policy store manifest
        (levels < policy.maxDependencyDepth))
      (fresh : ignoreFreshness = false →
        ∃ validation, checkFreshness manifest store policy = .ok validation)
      (unreadable : UnreadableArtifact store manifest.fields.artifacts message) :
      Unreadable stores policy (levels + 1) active requested value store edges ignoreFreshness
        message
  | dependency {levels : ℕ} {active : List Str} {requested : Str} {value : Value} {store : Store}
      {edges edges' : ℕ} {ignoreFreshness : Bool} {message : StoreReadError}
      {manifest child : Manifest} {source : Store} {before after : List Dependency}
      {dependency : Dependency}
      (header : checkHeader policy requested value = .ok manifest)
      (acyclic : manifest.digest ∉ active)
      (result : ∃ r, checkResult policy manifest store (levels < policy.maxDependencyDepth)
        ignoreFreshness = .ok r)
      (dependencies : manifest.fields.dependencies = some (before ++ dependency :: after))
      (accepted : evaluateDependencies
        (fun dependency source edges => evaluate stores policy levels (manifest.digest :: active)
          dependency.fields.actionDigest dependency.document source edges false)
        stores policy before edges = .ok edges')
      (count : edges' + 1 ≤ policy.maxDependencyCount)
      (located : locateResult dependency.resultDigest false false stores = .ok (child, source))
      (unreadable : Unreadable stores policy levels (manifest.digest :: active)
        child.fields.actionDigest child.document source (edges' + 1) false message) :
      Unreadable stores policy (levels + 1) active requested value store edges ignoreFreshness
        message

omit [Sha256] in
/-- Nothing but a rejection or another exception: the computation raises no `StoreReadError`. -/
theorem RaisesOnly.ne_readError {α : Type} {x : Except Stop α}
    (h : RaisesOnly Stop.IsNotReadError x) (message : StoreReadError) :
    x ≠ .error (.raised (readError message)) :=
  fun hx => h _ hx message rfl

/-- The checks of a result of its own fail to read just where a blob cannot be read. -/
theorem checkResult_eq_raised {policy : Policy} {manifest : Manifest} {store : Store}
    {dependency ignoreFreshness : Bool} {message : StoreReadError} :
    checkResult policy manifest store dependency ignoreFreshness =
        .error (.raised (readError message)) ↔
      trusts policy.trustedProducers manifest.fields.producer = true ∧
      NotInvalidated policy store manifest dependency ∧
      (ignoreFreshness = false →
        ∃ validation, checkFreshness manifest store policy = .ok validation) ∧
      UnreadableArtifact store manifest.fields.artifacts message := by
  have hread : readArtifacts store [] manifest.fields.artifacts =
      .error (.raised (readError message)) ↔
      UnreadableArtifact store manifest.fields.artifacts message :=
    readArtifacts_eq_raised manifest.nodup_names fun _ _ => List.not_mem_nil
  have hfresh : RaisesOnly Stop.IsNotReadError
      (if ignoreFreshness then .ok none else checkFreshness manifest store policy) := by
    cases ignoreFreshness
    · exact .mono Stop.IsRejection.isNotReadError (raisesOnly_checkFreshness _ _ _)
    · exact .ok none
  have hfresh_iff : (∃ validation,
      (if ignoreFreshness then .ok none else checkFreshness manifest store policy) =
        .ok validation) ↔ (ignoreFreshness = false →
        ∃ validation, checkFreshness manifest store policy = .ok validation) := by
    cases ignoreFreshness <;> simp
  rw [← hread, ← hfresh_iff, ← effectiveInvalidated_eq_ok]
  unfold checkResult
  constructor
  · intro h
    obtain h | ⟨⟨⟩, htrusted, h⟩ := Except.bind_eq_error.mp h
    · exact absurd h
        (RaisesOnly.ne_readError
          (.mono Stop.IsRejection.isNotReadError (raisesOnly_rejectIf _ _)) _)
    obtain h | ⟨⟨⟩, hinvalidated, h⟩ := Except.bind_eq_error.mp h
    · exact absurd h (RaisesOnly.ne_readError (.mono Stop.IsRejection.isNotReadError
        (raisesOnly_effectiveInvalidated _ _ _ _)) _)
    obtain h | ⟨validation, hvalidation, h⟩ := Except.bind_eq_error.mp h
    · exact absurd h (RaisesOnly.ne_readError hfresh _)
    obtain h | ⟨artifacts, -, h⟩ := Except.bind_eq_error.mp h
    · exact ⟨by simpa using htrusted, hinvalidated, ⟨validation, hvalidation⟩, h⟩
    · cases h
  · rintro ⟨htrusted, hinvalidated, ⟨validation, hvalidation⟩, h⟩
    refine Except.bind_eq_error.mpr (.inr ⟨(), by simpa using htrusted, ?_⟩)
    refine Except.bind_eq_error.mpr (.inr ⟨(), hinvalidated, ?_⟩)
    refine Except.bind_eq_error.mpr (.inr ⟨validation, hvalidation, ?_⟩)
    exact Except.bind_eq_error.mpr (.inl h)

omit [Sha256] in
/-- A caller passes on what the evaluation of a dependency raises. -/
theorem propagate_eq_raised {α : Type} {x : Except Stop α} {e : PyError} :
    propagate x = .error (.raised e) ↔ x = .error (.raised e) := by
  unfold propagate
  split
  · simp
  · rfl

/-- The loop over the dependencies raises at the first that does, after some that are accepted. -/
theorem evaluateDependencies_eq_raised {stores : List Store} {policy : Policy}
    {child : Manifest → Store → ℕ → Except Stop Evaluation} {message : StoreReadError}
    {dependencies : List Dependency} : ∀ {edges : ℕ},
      evaluateDependencies child stores policy dependencies edges =
          .error (.raised (readError message)) ↔
        ∃ before dependency after edges' manifest source,
          dependencies = before ++ dependency :: after ∧
          evaluateDependencies child stores policy before edges = .ok edges' ∧
          edges' + 1 ≤ policy.maxDependencyCount ∧
          locateResult dependency.resultDigest false false stores = .ok (manifest, source) ∧
          child manifest source (edges' + 1) = .error (.raised (readError message)) := by
  induction dependencies with
  | nil =>
    intro edges
    refine iff_of_false (fun h => nomatch h) ?_
    rintro ⟨before, dependency, after, _, _, _, h, -⟩
    simp at h
  | cons dependency rest ih =>
    intro edges
    constructor
    · intro h
      obtain h | ⟨⟨⟩, hcount, h⟩ := Except.bind_eq_error.mp h
      · exact absurd h (RaisesOnly.ne_readError
          (.mono Stop.IsRejection.isNotReadError (raisesOnly_rejectIf _ _)) _)
      obtain h | ⟨⟨manifest, source⟩, hlocate, h⟩ := Except.bind_eq_error.mp h
      · exact absurd h (RaisesOnly.ne_readError (raisesOnly_locateResult _ _ _ _) _)
      obtain h | ⟨evaluation, hevaluation, h⟩ := Except.bind_eq_error.mp h
      · rw [rejectIf_eq_ok, decide_eq_false_iff_not, not_lt] at hcount
        exact ⟨[], dependency, rest, edges, manifest, source, rfl, rfl, hcount, hlocate,
          propagate_eq_raised.mp h⟩
      · obtain ⟨before, d, after, edges', m, s, rfl, hbefore, hcount', hlocate', hchild⟩ :=
          ih.mp h
        refine ⟨dependency :: before, d, after, edges', m, s, rfl, ?_, hcount', hlocate', hchild⟩
        refine Except.bind_eq_ok.mpr ⟨(), hcount, ?_⟩
        refine Except.bind_eq_ok.mpr ⟨(manifest, source), hlocate, ?_⟩
        exact Except.bind_eq_ok.mpr ⟨evaluation, hevaluation, hbefore⟩
    · rintro ⟨before, d, after, edges', m, s, hlist, hbefore, hcount', hlocate', hchild⟩
      cases before with
      | nil =>
        obtain ⟨rfl, rfl⟩ := List.cons_eq_cons.mp hlist
        cases hbefore
        refine Except.bind_eq_error.mpr (.inr ⟨(), ?_, ?_⟩)
        · simpa using hcount'
        refine Except.bind_eq_error.mpr (.inr ⟨(m, s), hlocate', ?_⟩)
        exact Except.bind_eq_error.mpr (.inl (propagate_eq_raised.mpr hchild))
      | cons b before =>
        obtain ⟨rfl, rfl⟩ := List.cons_eq_cons.mp hlist
        obtain ⟨⟨⟩, hcount, h⟩ := Except.bind_eq_ok.mp hbefore
        obtain ⟨⟨manifest, source⟩, hlocate, h⟩ := Except.bind_eq_ok.mp h
        obtain ⟨evaluation, hevaluation, h⟩ := Except.bind_eq_ok.mp h
        refine Except.bind_eq_error.mpr (.inr ⟨(), hcount, ?_⟩)
        refine Except.bind_eq_error.mpr (.inr ⟨(manifest, source), hlocate, ?_⟩)
        refine Except.bind_eq_error.mpr (.inr ⟨evaluation, hevaluation, ?_⟩)
        exact ih.mpr ⟨before, d, after, edges', m, s, rfl, h, hcount', hlocate', hchild⟩

/-- An evaluation that raises has passed the header, and raises in the checks of the result or in
those of its dependencies. -/
theorem evaluate_succ_eq_raised {stores : List Store} {policy : Policy} {levels : ℕ}
    {active : List Str} {requested : Str} {value : Value} {store : Store} {edges : ℕ}
    {ignoreFreshness : Bool} {message : StoreReadError} :
    evaluate stores policy (levels + 1) active requested value store edges ignoreFreshness =
        .error (.raised (readError message)) ↔
      ∃ manifest, checkHeader policy requested value = .ok manifest ∧
        manifest.digest ∉ active ∧
        (checkResult policy manifest store (levels < policy.maxDependencyDepth) ignoreFreshness =
            .error (.raised (readError message)) ∨
          (∃ r, checkResult policy manifest store (levels < policy.maxDependencyDepth)
            ignoreFreshness = .ok r) ∧
          ∃ dependencies, manifest.fields.dependencies = some dependencies ∧
            evaluateDependencies
              (fun dependency source edges => evaluate stores policy levels
                (manifest.digest :: active) dependency.fields.actionDigest dependency.document
                source edges false)
              stores policy dependencies edges = .error (.raised (readError message))) := by
  rw [evaluate]
  constructor
  · intro h
    obtain h | ⟨manifest, hheader, h⟩ := Except.bind_eq_error.mp h
    · exact absurd h (RaisesOnly.ne_readError (raisesOnly_checkHeader _ _ _) _)
    obtain h | ⟨⟨⟩, hcycle, h⟩ := Except.bind_eq_error.mp h
    · exact absurd h (RaisesOnly.ne_readError
        (.mono Stop.IsRejection.isNotReadError (raisesOnly_rejectIf _ _)) _)
    rw [rejectIf_eq_ok, decide_eq_false_iff_not] at hcycle
    obtain h | ⟨⟨artifacts, validation⟩, hresult, h⟩ := Except.bind_eq_error.mp h
    · exact ⟨manifest, hheader, hcycle, .inl h⟩
    dsimp only at h
    cases hdependencies : manifest.fields.dependencies with
    | none =>
      rw [hdependencies] at h
      cases h
    | some dependencies =>
      rw [hdependencies] at h
      obtain h | ⟨edges', -, h⟩ := Except.bind_eq_error.mp h
      · exact ⟨manifest, hheader, hcycle, .inr ⟨⟨_, hresult⟩, dependencies, hdependencies, h⟩⟩
      · cases h
  · rintro ⟨manifest, hheader, hcycle, h⟩
    refine Except.bind_eq_error.mpr (.inr ⟨manifest, hheader, ?_⟩)
    refine Except.bind_eq_error.mpr (.inr ⟨(), by simpa using hcycle, ?_⟩)
    obtain h | ⟨⟨⟨artifacts, validation⟩, hresult⟩, dependencies, hdependencies, h⟩ := h
    · exact Except.bind_eq_error.mpr (.inl h)
    · refine Except.bind_eq_error.mpr (.inr ⟨(artifacts, validation), hresult, ?_⟩)
      dsimp only
      rw [hdependencies]
      exact Except.bind_eq_error.mpr (.inl h)

/-- An evaluation raises a `StoreReadError` exactly when it comes to an artifact that cannot be
read: by induction on the levels left. -/
theorem evaluate_eq_raised_iff {stores : List Store} {policy : Policy} {levels : ℕ} :
    ∀ {active : List Str} {requested : Str} {value : Value} {store : Store} {edges : ℕ}
      {ignoreFreshness : Bool} {message : StoreReadError},
      evaluate stores policy levels active requested value store edges ignoreFreshness =
          .error (.raised (readError message)) ↔
        Unreadable stores policy levels active requested value store edges ignoreFreshness
          message := by
  induction levels with
  | zero =>
    intro active requested value store edges ignoreFreshness message
    constructor
    · intro h
      rw [evaluate] at h
      obtain h | ⟨_, _, h⟩ := Except.bind_eq_error.mp h
      · exact absurd h (RaisesOnly.ne_readError (raisesOnly_checkHeader _ _ _) _)
      · cases h
    · rintro ⟨⟩
  | succ levels ih =>
    intro active requested value store edges ignoreFreshness message
    rw [evaluate_succ_eq_raised]
    constructor
    · rintro ⟨manifest, hheader, hcycle, hresult | ⟨hresult, dependencies, hdependencies, h⟩⟩
      · obtain ⟨htrusted, hnotInvalidated, hfresh, hunreadable⟩ := checkResult_eq_raised.mp hresult
        exact .artifact hheader hcycle htrusted hnotInvalidated hfresh hunreadable
      · obtain ⟨before, d, after, edges', child, source, rfl, haccepted, hcount, hlocated,
          hchild⟩ :=
          evaluateDependencies_eq_raised.mp h
        exact .dependency hheader hcycle hresult hdependencies haccepted hcount hlocated
          (ih.mp hchild)
    · intro h
      cases h with
      | artifact header acyclic trusted notInvalidated fresh unreadable =>
        exact ⟨_, header, acyclic,
          .inl (checkResult_eq_raised.mpr ⟨trusted, notInvalidated, fresh, unreadable⟩)⟩
      | dependency header acyclic result dependencies accepted count located unreadable =>
        refine ⟨_, header, acyclic, .inr ⟨result, _, dependencies, ?_⟩⟩
        exact evaluateDependencies_eq_raised.mpr
          ⟨_, _, _, _, _, _, rfl, accepted, count, located, ih.mpr unreadable⟩

/-! ### Lookups -/

/-- An attempt of the lookup comes to an artifact that cannot be read, and every attempt before it
is rejected. -/
def ReachesUnreadable (ignoreFreshness : Bool) (action : Value) (stores : List Store)
    (policy : Policy) : Prop :=
  ∃ requested before store value after texts message, actionDigest action = .ok requested ∧
    attempts requested stores = before ++ .candidate store value :: after ∧
    List.Forall₂ (Attempt.Rejected stores policy requested ignoreFreshness) before texts ∧
    Unreadable stores policy (policy.maxDependencyDepth + 1) [] requested value store 0
      ignoreFreshness message

/-- A lookup contains the failures to read. -/
structure ReadFailuresContained (ignoreFreshness : Bool) (action : Value) (stores : List Store)
    (policy : Policy) : Prop where
  /-- No `StoreReadError` escapes. -/
  notRaised : ∀ message,
    lookup ignoreFreshness action stores policy ≠ .error (readError message)
  /-- A hit is an accepted attempt, and each attempt before it has left a rejection. -/
  hit : ∀ hit rejections,
    lookup ignoreFreshness action stores policy = .ok ⟨some hit, rejections⟩ →
    ∃ requested before attempt after, actionDigest action = .ok requested ∧
      attempts requested stores = before ++ attempt :: after ∧
      attempt.run stores policy requested ignoreFreshness = .ok hit ∧
      List.Forall₂ (Attempt.Rejected stores policy requested ignoreFreshness) before rejections
  /-- After a miss, each attempt has left a rejection. -/
  miss : ∀ rejections, lookup ignoreFreshness action stores policy = .ok ⟨none, rejections⟩ →
    ∃ requested, actionDigest action = .ok requested ∧
      List.Forall₂ (Attempt.Rejected stores policy requested ignoreFreshness)
        (attempts requested stores) rejections
  /-- With an admissible attempt there is a hit, unless an attempt before it raises something else
  than a `StoreReadError`. -/
  found : ∀ requested before attempt after hit, actionDigest action = .ok requested →
    attempts requested stores = before ++ attempt :: after →
    attempt.run stores policy requested ignoreFreshness = .ok hit →
    (∀ b ∈ before, ∀ e, b.run stores policy requested ignoreFreshness = .error (.raised e) →
      ∃ message, e = readError message) →
    ∃ hit rejections, lookup ignoreFreshness action stores policy = .ok ⟨some hit, rejections⟩

/-- An attempt raises a `StoreReadError` exactly when it is a candidate that comes to an unreadable
artifact. -/
theorem Attempt.run_eq_raised {attempt : Attempt} {stores : List Store} {policy : Policy}
    {requested : Str} {ignoreFreshness : Bool} {message : StoreReadError} :
    attempt.run stores policy requested ignoreFreshness = .error (.raised (readError message)) ↔
      ∃ store value, attempt = .candidate store value ∧
        Unreadable stores policy (policy.maxDependencyDepth + 1) [] requested value store 0
          ignoreFreshness message := by
  cases attempt with
  | tier store failure =>
    refine iff_of_false (fun h => nomatch h) ?_
    rintro ⟨_, _, ⟨⟩, -⟩
  | candidate store value =>
    rw [Attempt.run, Except.bind_eq_error, evaluate_eq_raised_iff]
    constructor
    · rintro (h | ⟨e, -, h⟩)
      · exact ⟨store, value, rfl, h⟩
      · cases h
    · rintro ⟨_, _, ⟨⟩, h⟩
      exact .inl h

/-- A lookup goes through the stores for the digest of the action. -/
theorem lookup_eq {ignoreFreshness : Bool} {action : Value} {stores : List Store}
    {policy : Policy} {requested : Str} (h : actionDigest action = .ok requested) :
    lookup ignoreFreshness action stores policy =
      firstHit stores policy requested ignoreFreshness (attempts requested stores) [] := by
  rw [lookup_of_actionDigest h, searchStores_eq_firstHit]

/-- A lookup that returns has digested the action. -/
theorem exists_actionDigest_of_lookup {ignoreFreshness : Bool} {action : Value}
    {stores : List Store} {policy : Policy} {outcome : LookupOutcome}
    (h : lookup ignoreFreshness action stores policy = .ok outcome) :
    ∃ requested, actionDigest action = .ok requested := by
  obtain ⟨requested, hrequested, -⟩ := Except.bind_eq_ok.mp h
  exact ⟨requested, hrequested⟩

/-- A `StoreReadError` escapes a lookup exactly when an attempt comes to an unreadable artifact. -/
theorem lookup_eq_readError {ignoreFreshness : Bool} {action : Value} {stores : List Store}
    {policy : Policy} :
    (∃ message, lookup ignoreFreshness action stores policy = .error (readError message)) ↔
      ReachesUnreadable ignoreFreshness action stores policy := by
  constructor
  · rintro ⟨message, h⟩
    cases hrequested : actionDigest action with
    | error e =>
      -- an action without a digest raises a `ValueError`
      rw [lookup, hrequested] at h
      cases h
      cases raisesOnly_actionDigest action _ hrequested
    | ok requested =>
      rw [lookup_eq hrequested] at h
      obtain ⟨before, attempt, after, texts, hattempts, hrun, hbefore⟩ := firstHit_eq_error.mp h
      obtain ⟨store, value, rfl, hunreadable⟩ := Attempt.run_eq_raised.mp hrun
      exact ⟨requested, before, store, value, after, texts, message, hrequested, hattempts, hbefore,
        hunreadable⟩
  · rintro ⟨requested, before, store, value, after, texts, message, hrequested, hattempts,
      hbefore, hunreadable⟩
    refine ⟨message, ?_⟩
    rw [lookup_eq hrequested]
    exact firstHit_eq_error.mpr ⟨before, _, after, texts, hattempts,
      Attempt.run_eq_raised.mpr ⟨store, value, rfl, hunreadable⟩, hbefore⟩

/-- A lookup contains the failures to read, for substitution and for revalidation, exactly when it
does not come to an artifact that cannot be read. -/
theorem readFailures_contained_iff (action : Value) (stores : List Store) (policy : Policy) :
    (∀ ignoreFreshness, ReadFailuresContained ignoreFreshness action stores policy) ↔
      ∀ ignoreFreshness, ¬ReachesUnreadable ignoreFreshness action stores policy := by
  refine forall_congr' fun ignoreFreshness => ?_
  constructor
  · intro h hreaches
    obtain ⟨message, hraised⟩ := lookup_eq_readError.mpr hreaches
    exact h.notRaised message hraised
  · intro hreaches
    have hraised : ∀ message,
        lookup ignoreFreshness action stores policy ≠ .error (readError message) :=
      fun message h => hreaches (lookup_eq_readError.mp ⟨message, h⟩)
    refine ⟨hraised, ?_, ?_, ?_⟩
    · intro hit rejections h
      obtain ⟨requested, hrequested⟩ := exists_actionDigest_of_lookup h
      rw [lookup_eq hrequested] at h
      obtain ⟨before, attempt, after, hattempts, hrun, hbefore⟩ := firstHit_eq_hit.mp h
      exact ⟨requested, before, attempt, after, hrequested, hattempts, hrun, hbefore⟩
    · intro rejections h
      obtain ⟨requested, hrequested⟩ := exists_actionDigest_of_lookup h
      rw [lookup_eq hrequested] at h
      exact ⟨requested, hrequested, firstHit_eq_miss.mp h⟩
    · intro requested before attempt after hit hrequested hattempts hrun hbefore
      rw [lookup_eq hrequested, hattempts] at hraised
      rw [lookup_eq hrequested, hattempts]
      obtain ⟨texts, hrejected⟩ | ⟨before', attempt', after', texts, rfl, hbefore', hattempt'⟩ :=
        @exists_rejected_before _ stores policy requested ignoreFreshness before
      · exact ⟨hit, texts, firstHit_eq_hit.mpr ⟨before, attempt, after, rfl, hrun, hrejected⟩⟩
      -- an earlier attempt is not rejected: it is a hit, or raises a `StoreReadError`
      rw [List.append_assoc, List.cons_append] at hraised ⊢
      cases hrun' : attempt'.run stores policy requested ignoreFreshness with
      | ok found =>
        exact ⟨found, texts, firstHit_eq_hit.mpr ⟨before', attempt', _, rfl, hrun', hbefore'⟩⟩
      | error stop =>
        cases stop with
        | rejected reason => exact absurd ⟨reason, hrun', rfl⟩ (hattempt' _)
        | raised e =>
          obtain ⟨message, rfl⟩ :=
            hbefore attempt' (List.mem_append_right _ List.mem_cons_self) e hrun'
          exact absurd
            (firstHit_eq_error.mpr ⟨before', attempt', _, texts, rfl, hrun', hbefore'⟩)
            (hraised message)

end

/-! ### A damaged tier

Two stores hold the same fresh result, and the first one cannot read its blobs. -/

/-- A store with a fresh result for the action. -/
def exampleTier : Store := (exampleStore [[1]] [exampleSource]).view

/-- The same store when its blobs cannot be read. -/
def damagedTier : Store := { exampleTier with getBlob := fun _ => .error (lit "blob_read_failed") }

/-- The damaged store fails the lookup, although the store after it has the result. -/
theorem not_readFailures_contained :
    ¬∀ (h : Sha256) (action : Value) (stores : List Store) (policy : Policy)
    (ignoreFreshness : Bool),
      @ReadFailuresContained h ignoreFreshness action stores policy := by
  intro h
  have hcontained := h Sha256.standard exampleAction [damagedTier, exampleTier]
    { now := exampleTime "2027-01-01T00:00:00Z" } false
  have hraised : raised? (@lookup Sha256.standard false exampleAction [damagedTier, exampleTier]
      { now := exampleTime "2027-01-01T00:00:00Z" }) =
        some (readError (lit "blob_read_failed")) := by
    decide +kernel
  exact @ReadFailuresContained.notRaised Sha256.standard _ _ _ _ hcontained _
    (raised?_eq_some.mp hraised)

end OnceMesh
