import OnceMesh.Runtime.Outcomes

/-!
# Exact substitution of deterministic operations

`execute_deterministic_with_policy` either executes, once, and returns the output, or returns a
cached result without executing. `DeterministicCall.Justified` says what has to hold for the second:
a policy in force that asks for it, the partition of the caller, freshness, trust, and a receipt
where one is required.
-/

namespace OnceMesh

open Python

/-- `execute`, and a count of how often it is called. -/
def counting {τ : Type} (execute : Stateful PyError τ Artifacts) :
    Stateful PyError (τ × ℕ) Artifacts := fun w =>
  ((execute w.1).1, (execute w.1).2, w.2 + 1)

section

variable {τ σ : Type} [Sha256] [Ed25519]

namespace DeterministicCall

/-- The call, with its executions counted. -/
def counted (call : DeterministicCall τ σ) : DeterministicCall (τ × ℕ) σ where
  action := call.action
  stores := call.stores
  execute := counting call.execute
  registry := call.registry
  keyRegistry := call.keyRegistry
  callerPartition := call.callerPartition
  publishTo := call.publishTo
  producer := call.producer
  freshnessSeconds := call.freshnessSeconds
  now := call.now

/-- A substitution is justified by a policy in force and a candidate that has passed its gates. -/
structure Justified (call : DeterministicCall τ σ) (policy : OperationPolicy) (hit : Hit)
    (outcome : ExecutionOutcome) : Prop where
  inForce : call.registry.InForce (lit "document.pdf-to-text/1") policy
  mode : policy.mode = .exactSubstitute
  authorized : authorizationFailure call.action policy call.callerPartition = .ok none
  found : ∃ store, Found false call.action call.stores (policy.trust call.now) hit store
  tier : hit.tier ∈ policy.allowedTiers
  producer : hit.manifest.fields.producer ∈ policy.trustedResultProducers
  receipt : policy.receiptRequirement = .required →
    ∃ keys ∈ call.keyRegistry, ReceiptVerified hit call.stores policy keys
  delivered : Delivers hit.manifest outcome.artifacts

variable {call : DeterministicCall τ σ} {s t : RunState τ σ} {outcome : ExecutionOutcome}

/-- The `exact-substitute` mode substitutes a candidate that has passed the gates, and otherwise
executes. -/
theorem exactSubstitute_eq_ok {target : Publishing σ} {policy : OperationPolicy}
    {killSwitchActive : Bool}
    (h : call.exactSubstitute target policy killSwitchActive s = (.ok outcome, t)) :
    (outcome.substituted = false ∧ call.execute s.world = (.ok outcome.artifacts, t.world)) ∨
    (outcome.substituted = true ∧ t.world = s.world ∧ ∃ hit store,
      Found false call.action call.stores (policy.trust call.now) hit store ∧
      hit.tier ∈ policy.allowedTiers ∧
      (policy.receiptRequirement = .required →
        ∃ keys ∈ call.keyRegistry, ReceiptVerified hit call.stores policy keys) ∧
      Delivers hit.manifest outcome.artifacts) := by
  have hexecuted : ∀ {reason lookup},
    call.executeAndRecord target reason lookup killSwitchActive s =
      (.ok outcome, t) →
      outcome.substituted = false ∧ call.execute s.world = (.ok outcome.artifacts, t.world) :=
    fun h => ⟨(executeFull_eq_ok h).2.1, (executeFull_eq_ok h).1⟩
  unfold exactSubstitute at h
  simp only [Stateful.eq_ok_iff_returns, Stateful.returns_bind, Stateful.returns_liftM] at h
  obtain ⟨candidate, hcandidate, h⟩ := h
  split at h
  · exact .inl (hexecuted (Stateful.eq_ok_iff_returns.mpr h))
  next hit hhit =>
    by_cases htier : hit.tier ∈ policy.allowedTiers
    swap
    · rw [if_pos htier] at h
      exact .inl (hexecuted (Stateful.eq_ok_iff_returns.mpr h))
    rw [if_neg (not_not.mpr htier)] at h
    simp only [Stateful.returns_bind, Stateful.returns_liftM] at h
    obtain ⟨failure, hfailure, h⟩ := h
    cases failure with
    | some reason => exact .inl (hexecuted (Stateful.eq_ok_iff_returns.mpr h))
    | none =>
      -- every gate is passed
      simp only [Stateful.returns_bind, Stateful.returns_liftM, returns_record,
        Stateful.returns_pure] at h
      obtain ⟨artifacts, hartifacts, _, -, _, -, rfl, rfl⟩ := h
      obtain ⟨store, hfound⟩ := exists_found_of_lookup hcandidate hhit
      obtain ⟨_, houtputs, hdelivers⟩ := hfound.exists_candidateOutputs
      cases hartifacts.symm.trans houtputs
      refine .inr ⟨rfl, rfl, hit, store, hfound, htier, ?_, hdelivers⟩
      intro hrequired
      rw [if_pos hrequired] at hfailure
      exact receiptVerified_of_requiredReceiptFailure hfailure

/-- A call that returns has executed once and returns the output, or has not executed and its
substitution is justified. -/
theorem run_eq_ok (h : call.run s = (.ok outcome, t)) :
    (outcome.substituted = false ∧ call.execute s.world = (.ok outcome.artifacts, t.world)) ∨
    (outcome.substituted = true ∧ t.world = s.world ∧ ∃ policy hit,
      call.Justified policy hit outcome) := by
  have hexecuted : ∀ {target reason lookup killSwitchActive},
      call.executeAndRecord target reason lookup killSwitchActive s = (.ok outcome, t) →
      outcome.substituted = false ∧ call.execute s.world = (.ok outcome.artifacts, t.world) :=
    fun h => ⟨(executeFull_eq_ok h).2.1, (executeFull_eq_ok h).1⟩
  simp only [run, Stateful.eq_ok_iff_returns, Stateful.returns_bind, Stateful.returns_liftM] at h
  obtain ⟨_, -, _, -, _, -, resolution, hresolve, freshUntil, -, h⟩ := h
  split at h
  · exact .inl (hexecuted (Stateful.eq_ok_iff_returns.mpr h))
  next policy hpolicy =>
    simp only [Stateful.returns_bind, Stateful.returns_liftM] at h
    obtain ⟨failure, hfailure, h⟩ := h
    cases failure with
    | some reason => exact .inl (hexecuted (Stateful.eq_ok_iff_returns.mpr h))
    | none =>
      dsimp only at h
      split at h
      next hmode =>
        obtain ⟨shadow, u, hshadow, h⟩ := Stateful.returns_bind.mp h
        rw [Stateful.returns_pure] at h
        obtain ⟨rfl, rfl⟩ := h
        exact .inl ⟨rfl, runShadow_eq_ok hshadow⟩
      next hmode =>
        rcases exactSubstitute_eq_ok (Stateful.eq_ok_iff_returns.mpr h) with hout | hout
        · exact .inl hout
        · obtain ⟨hsubstituted, hworld, hit, store, hfound, htier, hreceipt, hdelivers⟩ := hout
          have hproducer : hit.manifest.fields.producer ∈ policy.trustedResultProducers := by
            simpa [trusts, OperationPolicy.trust] using hfound.trusted
          exact .inr ⟨hsubstituted, hworld, policy, hit,
            FilePolicyRegistry.inForce_of_resolve hresolve hpolicy, hmode, hfailure,
            ⟨store, hfound⟩, htier, hproducer, hreceipt, hdelivers⟩
      · exact .inl (hexecuted (Stateful.eq_ok_iff_returns.mpr h))

/-- A candidate that passes every gate of a policy without receipts is substituted. -/
theorem returns_run_of_hit {resolution : PolicyResolution} {policy : OperationPolicy}
    {freshUntil : DateTime} {candidate : LookupOutcome} {hit : Hit} {requested : Str} {name : Value}
    (hexact : isExactOperation call.action = .ok true) (hpositive : 0 < call.freshnessSeconds)
    (hresolve : call.registry.resolve (lit "document.pdf-to-text/1") = .ok resolution)
    (hpolicy : resolution.policy = some policy) (hmode : policy.mode = .exactSubstitute)
    (hfresh : call.now.addSeconds (min call.freshnessSeconds policy.maxValidationTtlSeconds) =
      .ok freshUntil)
    (hauthorized : authorizationFailure call.action policy call.callerPartition = .ok none)
    (hreuse : reuse call.action call.stores (policy.trust call.now) = .ok candidate)
    (hhit : candidate.hit = some hit) (htier : hit.tier ∈ policy.allowedTiers)
    (hreceipt : policy.receiptRequirement = .optional)
    (hdigest : actionDigest call.action = .ok requested)
    (hname : operationName call.action = .ok name) :
    call.run.Returns s fun outcome _ => outcome.substituted = true := by
  obtain ⟨store, hfound⟩ := exists_found_of_lookup hreuse hhit
  obtain ⟨artifacts, houtputs, -⟩ := hfound.exists_candidateOutputs
  have httl : raiseIf (decide (call.freshnessSeconds ≤ 0)) "freshness_seconds must be positive" =
      .ok () :=
    raiseIf_eq_ok.mpr (decide_eq_false (not_le.mpr hpositive))
  simp only [run, Stateful.returns_bind, Stateful.returns_liftM, hexact, Bool.not_true,
    raiseIf_eq_ok, httl, hresolve, hpolicy, Option.elim_some, hfresh, hauthorized, hmode,
    Except.ok.injEq, exists_eq_left', exists_const, true_and, exactSubstitute, hreuse, hhit, htier,
    not_true_eq_false, if_false, hreceipt, reduceCtorEq, houtputs, hdigest, hname, returns_record,
    Stateful.returns_pure]

end DeterministicCall

/-- A call that returns a substitution has not executed, and the substitution is justified; any
other call that returns has executed exactly once, and returns the output. -/
theorem deterministic_sound (call : DeterministicCall τ σ) (s t : RunState (τ × ℕ) σ)
    (outcome : ExecutionOutcome) (h : call.counted.run s = (.ok outcome, t)) :
    (outcome.substituted = true →
      t.world.2 = s.world.2 ∧ ∃ policy hit, call.Justified policy hit outcome) ∧
    (outcome.substituted = false →
      t.world.2 = s.world.2 + 1 ∧
        call.execute s.world.1 = (.ok outcome.artifacts, t.world.1)) := by
  rcases DeterministicCall.run_eq_ok h with
    ⟨hsubstituted, hexecute⟩ | ⟨hsubstituted, hworld, policy, hit, hjustified⟩
  · refine ⟨fun hcontra => absurd (hsubstituted.symm.trans hcontra) (by decide), fun _ => ?_⟩
    obtain ⟨hresult, hstate⟩ := Prod.mk.inj hexecute
    rw [← hstate]
    exact ⟨rfl, Prod.ext hresult rfl⟩
  · refine ⟨fun _ => ⟨congrArg Prod.snd hworld, policy, hit, ?_⟩,
      fun hcontra => absurd (hsubstituted.symm.trans hcontra) (by decide)⟩
    exact ⟨hjustified.inForce, hjustified.mode, hjustified.authorized, hjustified.found,
      hjustified.tier, hjustified.producer, hjustified.receipt, hjustified.delivered⟩

end

/-! ### A substitution

A call for `exampleAction` finds `exampleSource` in the store. -/

/-- A registry with a policy for exact substitution. -/
def exampleExactRegistry : FilePolicyRegistry :=
  .ofDocument (examplePolicyDocument "document.pdf-to-text/1" "exact-substitute" "public" 0)

theorem resolve_exampleExactRegistry :
    exampleExactRegistry.resolve (lit "document.pdf-to-text/1") =
      .ok { policy := some (exampleOperationPolicy .exactSubstitute .public 0),
            reason := Mode.exactSubstitute.text } := by
  apply FilePolicyRegistry.resolve_ofDocument
  · exact (validate_eq_ok _ (lit "$")).mp (by decide +kernel)
  · simp [examplePolicyDocument, Value.WellFormed, Value.WellFormedItems, Value.WellFormedList]
  · decide +kernel
  · decide

/-- A call in 2027. -/
def exampleExactCall : DeterministicCall Unit MemoryStore where
  action := exampleAction
  stores := [(exampleStore [[1]] [exampleSource]).view]
  execute := pure .empty
  registry := exampleExactRegistry
  publishTo := none
  producer := lit "alice"
  now := exampleTime "2027-01-01T00:00:00Z"

section

/-- No signature verifies; the policy requires no receipt. -/
@[reducible]
def exampleNoSignatures : Ed25519 where
  verify _ _ _ := false

attribute [local instance] Sha256.standard exampleNoSignatures

/-- The store has a candidate in the tier `private`. -/
theorem exists_exampleExactHit : ∃ candidate hit,
    reuse exampleAction [(exampleStore [[1]] [exampleSource]).view]
      ((exampleOperationPolicy .exactSubstitute .public 0).trust
        (exampleTime "2027-01-01T00:00:00Z")) = .ok candidate ∧
    candidate.hit = some hit ∧ hit.tier = lit "private" := by
  have hfound : ((reuse exampleAction [(exampleStore [[1]] [exampleSource]).view]
      ((exampleOperationPolicy .exactSubstitute .public 0).trust
        (exampleTime "2027-01-01T00:00:00Z"))).toOption.bind
          LookupOutcome.hit).any (fun hit => decide (hit.tier = lit "private")) = true := by
    decide +kernel
  exact exists_hit_of_any hfound

/-- The call returns a substitution. -/
theorem returns_exampleExactCall :
    exampleExactCall.counted.run.Returns ⟨((), 0), .empty (lit "local"), []⟩
      fun outcome _ => outcome.substituted = true := by
  obtain ⟨requested, hdigest⟩ := Except.exists_of_isOk
    (show (actionDigest exampleAction).isOk = true by decide +kernel)
  obtain ⟨name, hname⟩ := Except.exists_of_isOk
    (show (operationName exampleAction).isOk = true by decide +kernel)
  obtain ⟨freshUntil, hfresh⟩ := Except.exists_of_isOk
    (show ((exampleTime "2027-01-01T00:00:00Z").addSeconds 3600).isOk = true by decide +kernel)
  obtain ⟨candidate, hit, hreuse, hhit, htier⟩ := exists_exampleExactHit
  refine DeterministicCall.returns_run_of_hit (by decide +kernel) (by decide)
    resolve_exampleExactRegistry rfl rfl hfresh (by decide +kernel) hreuse hhit ?_ rfl hdigest hname
  rw [htier]
  decide

theorem deterministic_sound_example : ∃ outcome t,
    exampleExactCall.counted.run ⟨((), 0), .empty (lit "local"), []⟩ = (.ok outcome, t) ∧
    outcome.substituted = true ∧
    (outcome.substituted = true →
      t.world.2 = 0 ∧ ∃ policy hit, exampleExactCall.Justified policy hit outcome) ∧
    (outcome.substituted = false →
      t.world.2 = 0 + 1 ∧ exampleExactCall.execute () = (.ok outcome.artifacts, t.world.1)) := by
  obtain ⟨outcome, t, hrun, hsubstituted⟩ := returns_exampleExactCall
  exact ⟨outcome, t, hrun, hsubstituted, deterministic_sound exampleExactCall _ t outcome hrun⟩

end

end OnceMesh
