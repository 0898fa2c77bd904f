import OnceMesh.Authorization
import OnceMesh.KeyRegistry
import OnceMesh.Revalidation

/-!
# The policy runtime

`executeHttpWithPolicy` and `executeDeterministicWithPolicy` decide, for every call, whether a
cached result may stand in for an execution. Every gate a call does not pass ends in an execution,
which `executeFull` and `executeAndRecord` make and publish.
-/

namespace OnceMesh

open Python

/-- `HttpExecutionOutcome` and `DeterministicExecutionOutcome`. -/
structure ExecutionOutcome where
  artifacts : Artifacts
  substituted : Bool
  decisionReason : Str
  lookup : Option LookupOutcome

/-- `_candidate_outputs`. -/
def candidateOutputs (hit : Hit) : Except PyError Artifacts := do
  let items ← hit.artifacts.mapM fun (name, data) =>
    match (mediaTypes hit.manifest).get? name with
    | some mediaType => .ok (name, data, mediaType)
    | none => .error (.keyError name)
  pure (Dict.ofPairs items)

/-! ### Authorization -/

/-- `action.get("vary", {}).get("authorization_partition")`. -/
def actionPartition (action : Value) : Except PyError Value :=
  match action.item (lit "vary") with
  | .ok vary => callGet vary (lit "authorization_partition")
  | .error _ => .ok .none

/-- `_authorization_failure`, once the partition of the action is known. -/
def partitionFailure (requirement : PartitionRequirement) (partition : Value)
    (caller : Option Str) : Option Str :=
  match requirement, partition, caller with
  | .public, .none, none => none
  | .public, _, _ => some (lit "authorization_partition_forbidden")
  | .required, .str token, caller =>
    if !isAuthorizationPartition token then some (lit "authorization_partition_invalid")
    else
      match caller with
      | none => some (lit "authorization_partition_missing")
      | some callerToken =>
        match authorizationPartitionsMatch token callerToken with
        | .ok true => none
        | .ok false => some (lit "authorization_partition_mismatch")
        | .error _ => some (lit "authorization_partition_invalid")
  | .required, _, _ => some (lit "authorization_partition_invalid")

/-- `_authorization_failure`. -/
def authorizationFailure (action : Value) (policy : OperationPolicy) (caller : Option Str) :
    Except PyError (Option Str) := do
  let partition ← actionPartition action
  pure (partitionFailure policy.authorizationPartition partition caller)

/-- The policy a lookup is made under. -/
def OperationPolicy.trust (policy : OperationPolicy) (now : DateTime) : Policy where
  now := now
  trustedProducers := some policy.trustedResultProducers
  trustedValidationProducers := some policy.trustedValidationProducers

/-! ### Freshness -/

/-- The latest of some instants. -/
def latest : List DateTime → Option DateTime
  | [] => none
  | t :: ts => some (ts.foldl max t)

/-- `_latest_trusted_freshness`: the boundary, and whether the validations were unreadable. -/
def latestTrustedFreshness [Sha256] (hit : Hit) (stores : List Store) (policy : OperationPolicy) :
    Option DateTime × Bool :=
  let own := (hit.manifest.fields.freshUntil.map Timestamp.instant).toList
  match stores.find? fun store => decide (store.name = hit.tier) with
  | none => (latest own, false)
  | some source =>
    match source.validations hit.manifest.digest with
    | .error _ => (none, true)
    | .ok records =>
      let trusted := records.filter fun r => r.fields.producer ∈ policy.trustedValidationProducers
      (latest (own ++ trusted.map fun r => r.fields.freshUntil.instant), false)

/-! ### Receipts -/

/-- What one receipt says about a candidate. -/
inductive ReceiptCheck where
  | verified
  | registryError
  | failed (reason : Str)

section

variable [Sha256] [Ed25519]

/-- The body of the loop of `_required_receipt_failure`. -/
def checkReceipt (manifest : Manifest) (policy : OperationPolicy)
    (registry : FileReceiptKeyRegistry) (receipt : Value) : Except PyError ReceiptCheck := do
  let signature ← callGet receipt (lit "signature")
  if !signature.isDict then return .failed (lit "receipt_missing")
  match signature.get (lit "key_id") with
  | .str keyId =>
    if keyId ∉ policy.trustedReceiptKeys then return .failed (lit "receipt_key_untrusted")
    let resolution ← registry.resolve keyId manifest.fields.producer
    if resolution.reason = lit "receipt_registry_error" then return .registryError
    match resolution.key with
    | none => return .failed resolution.reason
    | some key =>
      match verifyReceiptForManifest receipt manifest key.publicKey with
      | .ok true => return .verified
      | .ok false => return .failed (lit "receipt_invalid")
      | .error e => if e.isValueError then return .failed (lit "receipt_invalid") else .error e
  | keyId =>
    if keyId.hashable then return .failed (lit "receipt_key_untrusted")
    else .error (.typeError (lit "unhashable type"))

/-- A receipt signed by a trusted key is checked with what the registry has under that key. -/
theorem checkReceipt_eq_bind {manifest : Manifest} {policy : OperationPolicy}
    {registry : FileReceiptKeyRegistry} {receipt : Value} {keyId : Str}
    (hdict : receipt.isDict = true)
    (hsignature : (receipt.get (lit "signature")).isDict = true)
    (hkeyId : (receipt.get (lit "signature")).get (lit "key_id") = .str keyId)
    (htrusted : keyId ∈ policy.trustedReceiptKeys) :
    checkReceipt manifest policy registry receipt =
      registry.resolve keyId manifest.fields.producer >>= fun resolution =>
        if resolution.reason = lit "receipt_registry_error" then pure .registryError else
        match resolution.key with
        | none => pure (.failed resolution.reason)
        | some key =>
          match verifyReceiptForManifest receipt manifest key.publicKey with
          | .ok true => pure .verified
          | .ok false => pure (.failed (lit "receipt_invalid"))
          | .error e =>
            if e.isValueError then pure (.failed (lit "receipt_invalid")) else .error e := by
  unfold checkReceipt
  rw [callGet, if_pos hdict]
  simp only [Except.ok_bind, hsignature, hkeyId, Bool.not_true, Bool.false_eq_true, if_false,
    htrusted, not_true_eq_false]

/-- The order in which failures are reported. -/
def receiptFailurePriority : List Str :=
  [lit "receipt_invalid", lit "receipt_key_revoked", lit "receipt_producer_denied",
    lit "receipt_key_unknown", lit "receipt_key_untrusted", lit "receipt_missing"]

/-- The loop of `_required_receipt_failure`, after some failures. -/
def checkReceipts (manifest : Manifest) (policy : OperationPolicy)
    (registry : FileReceiptKeyRegistry) (failures : List Str) :
    List Value → Except PyError (Option Str)
  | [] =>
    .ok (some ((receiptFailurePriority.find? fun reason => decide (reason ∈ failures)).getD
      (lit "receipt_invalid")))
  | receipt :: rest => do
    match ← checkReceipt manifest policy registry receipt with
    | .verified => pure none
    | .registryError => pure (some (lit "receipt_registry_error"))
    | .failed reason => checkReceipts manifest policy registry (failures ++ [reason]) rest

/-- `_required_receipt_failure`. -/
def requiredReceiptFailure (hit : Hit) (stores : List Store) (policy : OperationPolicy)
    (registry : Option FileReceiptKeyRegistry) : Except PyError (Option Str) :=
  match registry with
  | none => .ok (some (lit "receipt_registry_missing"))
  | some registry =>
    match stores.find? fun store => decide (store.name = hit.tier) with
    | none => .ok (some (lit "receipt_missing"))
    | some source =>
      match source.receipts hit.manifest.digest with
      | .error _ => .ok (some (lit "receipt_invalid"))
      | .ok [] => .ok (some (lit "receipt_missing"))
      | .ok receipts => checkReceipts hit.manifest policy registry [] receipts

end

variable {τ σ : Type} [Sha256]

/-! ### Execution -/

/-- The event of an execution. -/
def executionEvent (requested : Str) (operation : Value) (artifacts : Artifacts)
    (lookup : Option LookupOutcome) (reason : Str) (killSwitchActive : Bool) : EvaluationEvent where
  mode := lit "execute"
  actionDigest := requested
  operation := operation
  candidateHit := lookup.any fun outcome => outcome.hit.isSome
  tier := (lookup.bind LookupOutcome.hit).map Hit.tier
  artifactMatch := lookup.bind (candidateMatches artifacts)
  rejections := lookup.elim [] LookupOutcome.rejections
  reusableBytes := 0
  decisionReason := some reason
  killSwitchActive := killSwitchActive

/-- The event of a substitution. -/
def substitutionEvent (requested : Str) (operation : Value) (candidate : LookupOutcome) (hit : Hit)
    (reason : String) : EvaluationEvent where
  mode := lit "substitute"
  actionDigest := requested
  operation := operation
  candidateHit := true
  tier := some hit.tier
  artifactMatch := none
  rejections := candidate.rejections
  reusableBytes := (hit.artifacts.map fun artifact => artifact.2.length).sum
  substituted := true
  decisionReason := some (lit reason)

/-- `_execute_full`, and `execute_and_record` of a deterministic operation: `execute` is run, its
output published and recorded. -/
def executeFull (action : Value) (execute : Stateful PyError τ Artifacts) (target : Publishing σ)
    (reason : Str) (lookup : Option LookupOutcome) (killSwitchActive : Bool) :
    Stateful PyError (RunState τ σ) ExecutionOutcome := do
  let artifacts ← outside execute
  target.publish action artifacts
  record (executionEvent (← actionDigest action) (← operationName action) artifacts lookup reason
    killSwitchActive)
  pure { artifacts, substituted := false, decisionReason := reason, lookup }

/-! ### HTTP fetches -/

/-- The arguments of `execute_http_with_policy`. -/
structure HttpCall (τ σ : Type) where
  action : Value
  stores : List Store
  transport : Transport τ
  registry : FilePolicyRegistry
  publishTo : Option (StoreWriter σ)
  producer : Str
  validationTtlSeconds : ℤ := 3600
  now : DateTime
  callerPartition : Option Str := none
  coordinator : Option (Coordinator τ σ) := none

/-- `except (KeyError, UnicodeError, json.JSONDecodeError)`, which leaves both validators unset. -/
def Validators.guarded (hit : Hit) : Except PyError Validators :=
  match ofHit hit with
  | .error (.keyError _) | .error .unicodeError | .error .jsonDecodeError =>
    .ok { etag := .none, lastModified := .none }
  | result => result

namespace HttpCall

variable [UrlNormalizer] (call : HttpCall τ σ) (target : Publishing σ) (policy : OperationPolicy)

/-- `_execute_full` for the call. -/
def executeFull (reason : Str) (lookup : Option LookupOutcome) (killSwitchActive : Bool := false) :
    Stateful PyError (RunState τ σ) ExecutionOutcome :=
  OnceMesh.executeFull call.action (executeHttpFetch call.action call.transport)
    target reason lookup
    killSwitchActive

/-- A fallback after a lookup. -/
def fallBack (reason : String) (candidate : LookupOutcome) :
    Stateful PyError (RunState τ σ) ExecutionOutcome :=
  call.executeFull target (lit reason) (some candidate)

/-- The artifacts of a candidate are returned. -/
def substitute (candidate : LookupOutcome) (hit : Hit) (reason : String)
    (event : EvaluationEvent → EvaluationEvent) :
    Stateful PyError (RunState τ σ) ExecutionOutcome := do
  let artifacts ← candidateOutputs hit
  record (event (substitutionEvent (← actionDigest call.action) (.str (lit "http.fetch")) candidate
    hit reason))
  pure { artifacts, substituted := true, decisionReason := lit reason, lookup := some candidate }

/-- The conditional request, and what follows its answer. -/
def validate (candidate : LookupOutcome) (hit : Hit) (validators : Validators) :
    Stateful PyError (RunState τ σ) ExecutionOutcome := do
  let request ← fetchRequest call.action
  let response ← outside
    (call.transport.conditionalGet request validators.etag validators.lastModified)
  if response.status = 200 then
    let artifacts ← responseToArtifacts call.action response
    target.publish call.action artifacts
    record
      { executionEvent (← actionDigest call.action) (.str (lit "http.fetch")) artifacts
          (some candidate) (lit "source_changed") false with
        validationMethod := some (lit "http.conditional/1"), validationStatus := some 200 }
    pure { artifacts, substituted := false, decisionReason := lit "source_changed",
           lookup := some candidate }
  else if response.status = 304 then
    target.putValidation hit.manifest validators
    call.substitute candidate hit "conditional_304" fun event =>
      { event with
        validationMethod := some (lit "http.conditional/1"), validationStatus := some 304,
        validationRecorded := target.store.isSome }
  else
    Stateful.ofExcept (.error (.valueError
      (lit "unexpected conditional response status " ++ intRepr response.status) []))

/-- The end of `execute_http_with_policy`, for every mode but the two that have a branch of their
own. -/
def conditionalSubstitute : Stateful PyError (RunState τ σ) ExecutionOutcome := do
  let candidate ← candidateForRevalidation call.action call.stores (policy.trust call.now)
  match candidate.hit with
  | none => call.fallBack target "candidate_missing" candidate
  | some hit =>
    if hit.tier ∉ policy.allowedTiers then call.fallBack target "tier_denied" candidate
    else if call.producer ∉ policy.trustedValidationProducers then
      call.fallBack target "validator_untrusted" candidate
    else
      let validators ← Validators.guarded hit
      if validators.absent then call.fallBack target "validator_missing" candidate
      else call.validate target candidate hit validators

/-- The background job is submitted, unless a gate of the stale-while-revalidate branch is closed;
`except Exception` falls back. -/
def scheduleRefresh (candidate : LookupOutcome) (hit : Hit) (ttl : ℤ) (validators : Validators) :
    Stateful PyError (RunState τ σ) ExecutionOutcome := do
  if validators.absent then call.fallBack target "validator_missing" candidate
  else if call.producer ∉ policy.trustedValidationProducers then
    call.fallBack target "validator_untrusted" candidate
  else if call.producer ∉ policy.trustedResultProducers then
    call.fallBack target "refresh_producer_untrusted" candidate
  else
    match call.coordinator, call.publishTo with
    | none, _ => call.fallBack target "revalidation_scheduler_missing" candidate
    | some _, none => call.fallBack target "revalidation_publish_store_missing" candidate
    | some coordinator, some writer =>
      let submit : Stateful PyError (RunState τ σ) Bool := do
        coordinator.submit (← actionDigest call.action)
          (revalidateHttpCandidate call.action candidate call.transport writer call.producer ttl
            coordinator.clock)
      let scheduled ← (some <$> submit).handling fun _ => pure none
      match scheduled with
      | none => call.fallBack target "revalidation_schedule_failed" candidate
      | some scheduled =>
        call.substitute candidate hit "stale_while_revalidate" fun event =>
          { event with
            backgroundRevalidationScheduled := scheduled,
            backgroundRevalidationCoalesced := !scheduled }

/-- The `stale-while-revalidate` branch. -/
def staleWhileRevalidate (ttl : ℤ) : Stateful PyError (RunState τ σ) ExecutionOutcome := do
  let candidate ← candidateForRevalidation call.action call.stores (policy.trust call.now)
  match candidate.hit with
  | none => call.fallBack target "candidate_missing" candidate
  | some hit =>
    if hit.tier ∉ policy.allowedTiers then call.fallBack target "tier_denied" candidate
    else
      match latestTrustedFreshness hit call.stores policy with
      | (_, true) => call.fallBack target "stale_validation_read_failed" candidate
      | (none, false) => call.fallBack target "stale_freshness_missing" candidate
      | (some boundary, false) =>
        -- `total_seconds()` is exact where it is compared: the bound is at most 604800
        if call.now ≤ boundary then call.substitute candidate hit "fresh_hit" id
        else if policy.maxStaleSeconds * 1000000 < (call.now.micros : ℤ) - boundary.micros then
          call.fallBack target "stale_window_exceeded" candidate
        else
          let validators ← Validators.guarded hit
          call.scheduleRefresh target policy candidate hit ttl validators

/-- `execute_http_with_policy`. -/
def run : Stateful PyError (RunState τ σ) ExecutionOutcome := do
  requireHttpFetch call.action "policy runtime currently supports http.fetch/1 only"
  raiseIf (call.validationTtlSeconds ≤ 0) "validation_ttl_seconds must be positive"
  let resolution ← call.registry.resolve (lit "http.fetch/1")
  let ttl := resolution.policy.elim call.validationTtlSeconds fun policy =>
    min call.validationTtlSeconds policy.maxValidationTtlSeconds
  let freshUntil ← call.now.addSeconds ttl
  let target : Publishing σ :=
    { store := call.publishTo, producer := call.producer, producedAt := call.now, freshUntil }
  match resolution.policy with
  | none => call.executeFull target resolution.reason none resolution.killSwitchActive
  | some policy =>
    match ← authorizationFailure call.action policy call.callerPartition with
    | some reason => call.executeFull target reason none
    | none =>
      match policy.mode with
      | .shadow =>
        let outcome ← runConditionalHttpShadow call.action call.stores call.transport
          (policy.trust call.now) target (lit "shadow")
        pure { artifacts := outcome.artifacts, substituted := false,
               decisionReason := lit "shadow", lookup := some outcome.lookup }
      | .staleWhileRevalidate => call.staleWhileRevalidate target policy ttl
      | _ => call.conditionalSubstitute target policy

end HttpCall

/-! ### Deterministic operations -/

/-- The arguments of `execute_deterministic_with_policy`. -/
structure DeterministicCall (τ σ : Type) where
  action : Value
  stores : List Store
  execute : Stateful PyError τ Artifacts
  registry : FilePolicyRegistry
  keyRegistry : Option FileReceiptKeyRegistry := none
  callerPartition : Option Str := none
  publishTo : Option (StoreWriter σ)
  producer : Str
  freshnessSeconds : ℤ := 86400
  now : DateTime

/-- Whether `f"{name}/{version}"` is in `EXACT_SUBSTITUTION_OPERATIONS`. The one key there has one
slash, and no text but `"1"` and no number but `1` is formatted as `1`. -/
def isExactOperation (action : Value) : Except PyError Bool := do
  let name ← operationName action
  let version ← (← action.item (lit "operation")).item (lit "version")
  pure (name.eqStr (lit "document.pdf-to-text") &&
    match version with
    | .str s => s = lit "1"
    | .int n => n = 1
    | _ => false)

namespace DeterministicCall

variable [Ed25519] (call : DeterministicCall τ σ) (target : Publishing σ) (policy : OperationPolicy)

/-- `execute_and_record`. -/
def executeAndRecord (reason : Str) (lookup : Option LookupOutcome) (killSwitchActive : Bool) :
    Stateful PyError (RunState τ σ) ExecutionOutcome :=
  executeFull call.action call.execute target reason lookup killSwitchActive

/-- The `exact-substitute` mode. -/
def exactSubstitute (killSwitchActive : Bool) :
    Stateful PyError (RunState τ σ) ExecutionOutcome := do
  let candidate ← reuse call.action call.stores (policy.trust call.now)
  match candidate.hit with
  | none => call.executeAndRecord target (lit "candidate_missing") (some candidate) killSwitchActive
  | some hit =>
    if hit.tier ∉ policy.allowedTiers then
      call.executeAndRecord target (lit "tier_denied") (some candidate) killSwitchActive
    else
      let failure ← (if policy.receiptRequirement = .required then
        requiredReceiptFailure hit call.stores policy call.keyRegistry
        else .ok none : Except PyError (Option Str))
      match failure with
      | some reason => call.executeAndRecord target reason (some candidate) killSwitchActive
      | none =>
        let artifacts ← candidateOutputs hit
        record (substitutionEvent (← actionDigest call.action) (← operationName call.action)
          candidate hit "exact_fresh_hit")
        pure { artifacts, substituted := true, decisionReason := lit "exact_fresh_hit",
               lookup := some candidate }

/-- `execute_deterministic_with_policy`. -/
def run : Stateful PyError (RunState τ σ) ExecutionOutcome := do
  raiseIf (!(← isExactOperation call.action))
    "operation is not approved for exact deterministic substitution"
  raiseIf (call.freshnessSeconds ≤ 0) "freshness_seconds must be positive"
  let resolution ← call.registry.resolve (lit "document.pdf-to-text/1")
  let ttl := resolution.policy.elim call.freshnessSeconds fun policy =>
    min call.freshnessSeconds policy.maxValidationTtlSeconds
  let freshUntil ← call.now.addSeconds ttl
  let target : Publishing σ :=
    { store := call.publishTo, producer := call.producer, producedAt := call.now, freshUntil }
  let killSwitchActive := resolution.killSwitchActive
  match resolution.policy with
  | none => call.executeAndRecord target resolution.reason none killSwitchActive
  | some policy =>
    match ← authorizationFailure call.action policy call.callerPartition with
    | some reason => call.executeAndRecord target reason none killSwitchActive
    | none =>
      match policy.mode with
      | .shadow =>
        let shadow ← runShadow call.action call.stores call.execute (policy.trust call.now) target
        pure { artifacts := shadow.artifacts, substituted := false,
               decisionReason := lit "shadow", lookup := some shadow.lookup }
      | .exactSubstitute => call.exactSubstitute target policy killSwitchActive
      | _ =>
        call.executeAndRecord target (lit "policy_mode_incompatible") none killSwitchActive

end DeterministicCall

end OnceMesh
