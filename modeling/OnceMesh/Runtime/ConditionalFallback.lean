import OnceMesh.Conditional.NonInterference
import OnceMesh.Runtime.Outcomes

/-!
# When conditional substitution falls back

In mode `conditional-substitute` every condition that fails is meant to end in a full GET. A call is
answered as expected if it returns the candidate after a 304, the changed response of the source, or
the artifacts of the full GET. The branches before the conditional request all fall back; what comes
after it is not guarded, and neither is metadata that is no object, so that some candidates make the
call raise.
-/

namespace OnceMesh

open Python

section

variable {τ σ : Type} [Sha256]

/-! ### The authorization of an action -/

omit [Sha256] in
/-- A member that is found is the one that `get` returns. -/
theorem get_of_item {value member : Value} {key : Str} (h : value.item key = .ok member) :
    value.get key = member := by
  cases value with
  | dict items | mixedDict items =>
    simp only [Value.item] at h
    simp only [Value.get]
    cases hlookup : items.lookup key with
    | none =>
      rw [hlookup] at h
      cases h
    | some v =>
      rw [hlookup] at h
      cases h
      rfl
  | _ => cases h

/-- The authorization of an action that has a digest is decided. -/
theorem exists_authorizationFailure {action : Value} {digest : Str}
    (h : actionDigest action = .ok digest) (policy : OperationPolicy) (caller : Option Str) :
    ∃ failure, authorizationFailure action policy caller = .ok failure := by
  obtain ⟨_, hvalid, _⟩ := Except.bind_eq_ok.mp h
  have hvary : (action.get (lit "vary")).isDict = true := by
    simp only [validateAction, Except.bind_eq_ok, raiseIf_eq_ok] at hvalid
    obtain ⟨_, _, _, _, _, _, _, _, _, _, _, _, _, _, _, _, _, _, _, hvary, _⟩ := hvalid
    simp only [Bool.not_eq_false', Bool.and_eq_true] at hvary
    exact hvary.2
  obtain ⟨partition, hpartition⟩ : ∃ partition, actionPartition action = .ok partition := by
    rw [actionPartition]
    cases hitem : action.item (lit "vary") with
    | error e => exact ⟨_, rfl⟩
    | ok vary =>
      rw [get_of_item hitem] at hvary
      exact ⟨_, if_pos hvary⟩
  exact ⟨_, by rw [authorizationFailure, hpartition]; rfl⟩

/-! ### A call -/

variable [UrlNormalizer]

/-- A call of `execute_http_with_policy` for which the registry has a policy of the mode
`conditional-substitute`. -/
structure ConditionalCall (τ σ : Type) extends Target σ where
  action : Value
  digest : Str
  stores : List Store
  transport : Transport τ
  registry : FilePolicyRegistry
  validationTtlSeconds : ℤ
  callerPartition : Option Str
  coordinator : Option (Coordinator τ σ)
  resolution : PolicyResolution
  policy : OperationPolicy
  actionDigest_eq : actionDigest action = .ok digest
  ttl_pos : 0 < validationTtlSeconds
  resolve_eq : registry.resolve (lit "http.fetch/1") = .ok resolution
  policy_eq : resolution.policy = some policy
  mode_eq : policy.mode = .conditionalSubstitute
  freshUntil_eq :
    now.addSeconds (min validationTtlSeconds policy.maxValidationTtlSeconds) = .ok freshUntil

namespace ConditionalCall

variable (call : ConditionalCall τ σ)

/-- The arguments of the call. -/
def arguments : HttpCall τ σ where
  action := call.action
  stores := call.stores
  transport := call.transport
  registry := call.registry
  publishTo := call.puts.map StorePuts.writer
  producer := call.producer
  validationTtlSeconds := call.validationTtlSeconds
  now := call.now
  callerPartition := call.callerPartition
  coordinator := call.coordinator

/-- The candidate of the call. -/
def candidate : Except PyError LookupOutcome :=
  candidateForRevalidation call.action call.stores (call.policy.trust call.now)

/-- A full GET in the world `w` yields the artifacts. -/
def Fetches (w : τ) (artifacts : Artifacts) : Prop :=
  ∃ w', executeHttpFetch call.action call.transport w = (.ok artifacts, w')

/-- The full GET would succeed, and its result be published. -/
def FetchSucceeds (w : τ) : Prop :=
  ∃ artifacts, call.Fetches w artifacts ∧ call.AcceptsResult call.action artifacts

/-- The source answers the conditional request with these validators. -/
def Answers (w : τ) (validators : Validators) (response : FetchResponse) : Prop :=
  ∃ request, fetchRequest call.action = .ok request ∧ ∃ w',
    call.transport.conditionalGet request validators.etag validators.lastModified w =
      (.ok response, w')

/-- What a call may return: the candidate after a 304, a changed response, or the full GET. -/
inductive Expected (w : τ) : ExecutionOutcome → Prop
  | notModified {candidate : LookupOutcome} {hit : Hit} {validators : Validators}
      {response : FetchResponse} {artifacts : Artifacts}
      (found : call.candidate = .ok candidate) (of_candidate : candidate.hit = some hit)
      (decoded : Validators.guarded hit = .ok validators)
      (answer : call.Answers w validators response) (status : response.status = 304)
      (outputs : candidateOutputs hit = .ok artifacts) :
      Expected w ⟨artifacts, true, lit "conditional_304", some candidate⟩
  | changed {candidate : LookupOutcome} {validators : Validators} {response : FetchResponse}
      {artifacts : Artifacts} (answer : call.Answers w validators response)
      (status : response.status = 200)
      (read : responseToArtifacts call.action response = .ok artifacts) :
      Expected w ⟨artifacts, false, lit "source_changed", some candidate⟩
  | full {outcome : ExecutionOutcome} (fetched : call.Fetches w outcome.artifacts)
      (executed : outcome.substituted = false) : Expected w outcome

/-! ### What is not guarded -/

/-- An answer to the conditional request can be used: a 200 is an acceptable response, a 304 leaves
a record that the store accepts, and there is no other status. -/
def AcceptsAnswer (hit : Hit) (validators : Validators) (response : FetchResponse) : Prop :=
  (response.status = 200 ∧ ∃ artifacts, responseToArtifacts call.action response = .ok artifacts ∧
    call.AcceptsResult call.action artifacts) ∨
  (response.status = 304 ∧ call.AcceptsValidation hit.manifest validators)

/-- The metadata of a candidate can be used: it is a JSON object, or the decoding fails in one of
the ways that are caught, and the source answers the validators in it, if there are any. -/
def Usable (w : τ) (hit : Hit) : Prop :=
  ∃ validators, Validators.guarded hit = .ok validators ∧
    (validators.absent = false →
      ∃ response, call.Answers w validators response ∧ call.AcceptsAnswer hit validators response)

/-- No condition fails without a fallback: the lookup returns, and a candidate that may be validated
is usable. -/
def Guarded (w : τ) : Prop :=
  authorizationFailure call.action call.policy call.callerPartition ≠ .ok none ∨
  ∃ candidate, call.candidate = .ok candidate ∧ ∀ hit, candidate.hit = some hit →
    hit.tier ∈ call.policy.allowedTiers →
    call.producer ∈ call.policy.trustedValidationProducers → call.Usable w hit

/-! ### The branches -/

variable {call} {s : RunState τ σ} {post : ExecutionOutcome → Prop}

/-- A full GET is made for HTTP fetches only. -/
theorem FetchSucceeds.requireHttpFetch_eq {w : τ} (h : call.FetchSucceeds w) (message : String) :
    requireHttpFetch call.action message = .ok () := by
  obtain ⟨artifacts, ⟨w', hfetch⟩, -⟩ := h
  obtain ⟨_, hrequire, -⟩ :=
    Stateful.returns_liftM.mp (Stateful.returns_bind.mp (Stateful.eq_ok_iff_returns.mp hfetch))
  rw [requireHttpFetch, raiseIf_eq_ok] at hrequire
  exact raiseIf_eq_ok.mpr hrequire

/-- Every fallback returns the artifacts of the full GET. -/
theorem returns_executeFull (hpost : ∀ outcome, call.Expected s.world outcome → post outcome)
    (h : call.FetchSucceeds s.world) (reason : Str) (lookup : Option LookupOutcome)
    (killSwitchActive : Bool) :
    (call.arguments.executeFull call.publishing reason lookup killSwitchActive).Returns s
      fun outcome _ => post outcome := by
  have hname := operationName_of_requireHttpFetch (h.requireHttpFetch_eq "")
  obtain ⟨artifacts, ⟨w, hfetch⟩, haccepts⟩ := h
  have hrun : executeHttpFetch call.arguments.action call.arguments.transport s.world =
      (.ok artifacts, w) := hfetch
  simp only [HttpCall.executeFull, executeFull, Stateful.returns_bind, returns_outside,
    Stateful.returns_of_apply hrun]
  refine (call.toTarget.returns_publish.mpr haccepts).mono fun _ t _ => ?_
  simp only [Stateful.returns_liftM, returns_record, Stateful.returns_pure, arguments,
    call.actionDigest_eq, hname, Except.ok.injEq, exists_eq_left']
  exact hpost _ (.full ⟨w, hfetch⟩ rfl)

/-- The branch that validates a candidate ends as expected when the answer of the source is
accepted. -/
theorem returns_validate (hpost : ∀ outcome, call.Expected s.world outcome → post outcome)
    {candidate : LookupOutcome} {hit : Hit} {validators : Validators}
    (hcandidate : call.candidate = .ok candidate) (hhit : candidate.hit = some hit)
    (hvalidators : Validators.guarded hit = .ok validators) :
    (call.arguments.validate call.publishing candidate hit validators).Returns s
        (fun outcome _ => post outcome) ↔
      ∃ response, call.Answers s.world validators response ∧
        call.AcceptsAnswer hit validators response := by
  obtain ⟨store, hfound⟩ := exists_found_of_lookup hcandidate hhit
  obtain ⟨outputs, houtputs, -⟩ := hfound.exists_candidateOutputs
  have hrequests : (∃ response, call.Answers s.world validators response ∧
      call.AcceptsAnswer hit validators response) ↔
      ∃ request, fetchRequest call.action = .ok request ∧ ∃ response w',
        call.transport.conditionalGet request validators.etag validators.lastModified s.world =
          (.ok response, w') ∧ call.AcceptsAnswer hit validators response := by
    constructor
    · rintro ⟨response, ⟨request, hrequest, w', hget⟩, haccepts⟩
      exact ⟨request, hrequest, response, w', hget, haccepts⟩
    · rintro ⟨request, hrequest, response, w', hget, haccepts⟩
      exact ⟨response, ⟨request, hrequest, w', hget⟩, haccepts⟩
  rw [hrequests]
  simp only [HttpCall.validate, Stateful.returns_bind, Stateful.returns_liftM, returns_outside,
    arguments]
  -- the same request, the same response, and then one case for each status
  refine exists_congr fun request => and_congr_right fun hrequest => exists_congr fun response =>
    exists_congr fun w' => and_congr_right fun hget => ?_
  have hanswer : call.Answers s.world validators response := ⟨request, hrequest, w', hget⟩
  beta_reduce
  by_cases hchanged : response.status = 200
  · -- the response replaces the candidate
    have haccepts : call.AcceptsAnswer hit validators response ↔
        ∃ artifacts, responseToArtifacts call.action response = .ok artifacts ∧
          call.AcceptsResult call.action artifacts := by
      simp [AcceptsAnswer, hchanged]
    rw [if_pos hchanged, haccepts]
    simp only [Stateful.returns_bind, Stateful.returns_liftM]
    refine exists_congr fun artifacts => and_congr_right fun hread => ?_
    have hexpected : post ⟨artifacts, false, lit "source_changed", some candidate⟩ :=
      hpost _ (.changed hanswer hchanged hread)
    simp only [call.actionDigest_eq, Except.ok.injEq, exists_eq_left', returns_record,
      Stateful.returns_pure, hexpected]
    exact call.toTarget.returns_publish
  · by_cases hnotModified : response.status = 304
    · -- the candidate stands
      have hexpected : post ⟨outputs, true, lit "conditional_304", some candidate⟩ :=
        hpost _ (.notModified hcandidate hhit hvalidators hanswer hnotModified houtputs)
      have haccepts : call.AcceptsAnswer hit validators response ↔
          call.AcceptsValidation hit.manifest validators := by
        simp [AcceptsAnswer, hnotModified]
      rw [if_neg hchanged, if_pos hnotModified, haccepts]
      simp only [Stateful.returns_bind, HttpCall.substitute, Stateful.returns_liftM, houtputs,
        call.actionDigest_eq, Except.ok.injEq, exists_eq_left', returns_record,
        Stateful.returns_pure, hexpected]
      exact call.toTarget.returns_putValidation
    · -- any other status raises
      simp [AcceptsAnswer, hchanged, hnotModified]

/-- A call returns exactly when nothing it does not guard against fails, and what it returns
satisfies whatever the expected outcomes do. -/
theorem returns_run_iff (hpost : ∀ outcome, call.Expected s.world outcome → post outcome)
    (h : call.FetchSucceeds s.world) :
    (call.arguments.run.Returns s fun outcome _ => post outcome) ↔ call.Guarded s.world := by
  obtain ⟨failure, hfailure⟩ :=
    exists_authorizationFailure call.actionDigest_eq call.policy call.callerPartition
  have hfull := fun reason lookup k => returns_executeFull hpost h reason lookup k
  have httl : raiseIf (decide (call.arguments.validationTtlSeconds ≤ 0))
      "validation_ttl_seconds must be positive" = .ok () :=
    raiseIf_eq_ok.mpr (decide_eq_false (not_le.mpr call.ttl_pos))
  simp only [HttpCall.run, Stateful.returns_bind, Stateful.returns_liftM, httl]
  simp only [arguments, h.requireHttpFetch_eq, call.resolve_eq, call.policy_eq, Option.elim_some,
    call.freshUntil_eq, hfailure, Except.ok.injEq, exists_eq_left', exists_const, call.mode_eq,
    Stateful.returns_bind, Stateful.returns_liftM, true_and]
  rw [Guarded, hfailure]
  cases failure with
  | some reason => exact iff_of_true (hfull reason none false) (.inl (by simp))
  | none =>
    simp only [ne_eq, not_true_eq_false, false_or, HttpCall.conditionalSubstitute,
      Stateful.returns_bind, Stateful.returns_liftM]
    refine exists_congr fun candidate => and_congr_right fun hcandidate => ?_
    -- the gates before the metadata fall back
    cases hhit : candidate.hit with
    | none => exact iff_of_true (hfull _ _ _) (by simp)
    | some hit =>
      simp only [Option.some.injEq, forall_eq']
      by_cases htier : hit.tier ∈ call.policy.allowedTiers
      · by_cases htrusted : call.producer ∈ call.policy.trustedValidationProducers
        · simp only [htier, htrusted, not_true_eq_false, if_false, true_implies,
            Stateful.returns_bind, Stateful.returns_liftM, Usable]
          refine exists_congr fun validators => and_congr_right fun hvalidators => ?_
          cases habsent : validators.absent with
          | true => exact iff_of_true (hfull _ _ _) (by simp)
          | false =>
            simp only [Bool.false_eq_true, if_false, true_implies]
            exact returns_validate hpost hcandidate hhit hvalidators
        · simp only [htier, htrusted, not_true_eq_false, not_false_eq_true, if_false, if_true,
            false_implies, implies_true, iff_true]
          exact hfull _ _ _
      · simp only [htier, not_false_eq_true, if_true, false_implies, iff_true]
        exact hfull _ _ _

end ConditionalCall

/-- A call in mode `conditional-substitute` whose full GET would succeed ends as expected exactly
when nothing it does not guard against fails; otherwise it raises. -/
theorem conditional_fallback_iff (call : ConditionalCall τ σ) (s : RunState τ σ)
    (h : call.FetchSucceeds s.world) :
    ((call.arguments.run.Returns s fun outcome _ => call.Expected s.world outcome) ↔
      call.Guarded s.world) ∧
    ∀ outcome t, call.arguments.run s = (.ok outcome, t) → call.Expected s.world outcome := by
  refine ⟨ConditionalCall.returns_run_iff (fun _ hexpected => hexpected) h, ?_⟩
  intro outcome t hrun
  -- a call that returns at all is guarded, and so ends as expected
  have hreturns : call.arguments.run.Returns s fun _ _ => True := ⟨outcome, t, hrun, trivial⟩
  have hguarded : call.Guarded s.world :=
    (ConditionalCall.returns_run_iff (fun _ _ => trivial) h).mp hreturns
  exact (Stateful.returns_of_apply hrun).mp
    ((ConditionalCall.returns_run_iff (fun _ hexpected => hexpected) h).mpr hguarded)

end

/-! ### Metadata that is no object

The policy permits the substitution of the one candidate, whose metadata is the array `[]`. -/

/-- A policy for conditional substitution. -/
def exampleFallbackPolicy : OperationPolicy :=
  exampleOperationPolicy .conditionalSubstitute .public 0

/-- A registry with the policy. -/
def exampleFallbackRegistry : FilePolicyRegistry :=
  .ofDocument (examplePolicyDocument "http.fetch/1" "conditional-substitute" "public" 0)

theorem resolve_exampleFallbackRegistry : exampleFallbackRegistry.resolve (lit "http.fetch/1") =
    .ok { policy := some exampleFallbackPolicy, reason := exampleFallbackPolicy.mode.text } := by
  apply FilePolicyRegistry.resolve_ofDocument
  · exact (validate_eq_ok _ (lit "$")).mp (by decide +kernel)
  · simp [examplePolicyDocument, Value.WellFormed, Value.WellFormedItems, Value.WellFormedList]
  · decide +kernel
  · decide

section

attribute [local instance] Sha256.standard exampleNormalizer

/-- A call under this policy, over the store with the candidate. -/
theorem exists_exampleCall : ∃ call : ConditionalCall Unit MemoryStore,
    call.FetchSucceeds () ∧ call.action = exampleFetch ∧ call.stores = [exampleFetchStore.view] ∧
      call.policy = exampleFallbackPolicy ∧ call.now = exampleTarget.now ∧
      call.callerPartition = none ∧ call.producer = lit "alice" := by
  obtain ⟨source, haction, htransport⟩ := exists_exampleSource
  obtain ⟨freshUntil, hfreshUntil⟩ : ∃ freshUntil,
      exampleTarget.now.addSeconds (min 3600 exampleFallbackPolicy.maxValidationTtlSeconds) =
        .ok freshUntil :=
    Except.exists_of_isOk (by decide +kernel)
  let call : ConditionalCall Unit MemoryStore :=
    { exampleTarget with
      freshUntil, action := exampleFetch, digest := source.digest, stores :=
        [exampleFetchStore.view],
      transport := exampleTransport, registry := exampleFallbackRegistry,
      validationTtlSeconds := 3600, callerPartition := none, coordinator := none,
      resolution := _, policy := exampleFallbackPolicy,
      actionDigest_eq := haction ▸ source.actionDigest_eq, ttl_pos := by decide,
      resolve_eq := resolve_exampleFallbackRegistry, policy_eq := rfl, mode_eq := rfl,
      freshUntil_eq := hfreshUntil }
  refine ⟨call, ⟨source.artifacts, ?_, ?_⟩, rfl, rfl, rfl, rfl, rfl, rfl⟩
  · have hfetch := source.exists_executeHttpFetch ()
    rw [haction, htransport] at hfetch
    exact hfetch
  · intro hstore
    cases hstore

theorem conditional_fallback_iff_example : ∃ call : ConditionalCall Unit MemoryStore,
    ((call.arguments.run.Returns exampleState fun outcome _ => call.Expected () outcome) ↔
      call.Guarded ()) ∧
    ∀ outcome t, call.arguments.run exampleState = (.ok outcome, t) → call.Expected () outcome := by
  obtain ⟨call, hfetch, -⟩ := exists_exampleCall
  exact ⟨call, conditional_fallback_iff call exampleState hfetch⟩

/-- Conditional substitution does not fall back from every candidate. -/
theorem not_conditional_fallback :
    ¬∀ (call : ConditionalCall Unit MemoryStore) (s : RunState Unit MemoryStore),
      call.FetchSucceeds s.world →
      call.arguments.run.Returns s fun outcome _ => call.Expected s.world outcome := by
  intro h
  obtain ⟨call, hfetch, haction, hstores, hpolicy, hnow, hpartition, hproducer⟩ :=
    exists_exampleCall
  have hguarded : call.Guarded () :=
    (ConditionalCall.returns_run_iff (s := exampleState) (fun _ hexpected => hexpected) hfetch).mp
      (h call exampleState hfetch)
  rw [ConditionalCall.Guarded, ConditionalCall.candidate, haction, hstores, hpolicy, hnow,
    hpartition, hproducer] at hguarded
  have hauthorized : (authorizationFailure exampleFetch exampleFallbackPolicy none).toOption =
      some none := by
    decide +kernel
  -- the candidate is found in an allowed tier, and its metadata is a list, which has no `get`
  have hunusable : ((candidateForRevalidation exampleFetch [exampleFetchStore.view]
      (exampleFallbackPolicy.trust exampleTarget.now)).toOption.bind LookupOutcome.hit).any
        (fun hit => decide (hit.tier ∈ exampleFallbackPolicy.allowedTiers) &&
          !(Validators.guarded hit).isOk) = true := by
    decide +kernel
  rcases hguarded with hfailure | ⟨candidate, hcandidate, husable⟩
  · cases hresult : authorizationFailure exampleFetch exampleFallbackPolicy none with
    | error e =>
      rw [hresult] at hauthorized
      cases hauthorized
    | ok failure =>
      rw [hresult] at hauthorized hfailure
      exact hfailure (congrArg Except.ok (Option.some.inj hauthorized))
  · rw [hcandidate] at hunusable
    obtain ⟨hit, hhit, hcheck⟩ := (Option.any_eq_true _ _).mp hunusable
    rw [Bool.and_eq_true, decide_eq_true_eq] at hcheck
    obtain ⟨validators, hdecoded, -⟩ := husable hit hhit hcheck.1 (by decide)
    rw [hdecoded] at hcheck
    exact absurd hcheck.2 (by simp [Except.isOk, Except.toBool])

end

end OnceMesh
