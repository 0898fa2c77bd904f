import OnceMesh.Store

/-!
# Admissibility and lookup

`evaluate` decides whether a candidate manifest may be used: it checks the manifest itself, its
invalidations, its freshness and its artifacts, and then the results it depends on, depth first.
`reuse` and `candidateForRevalidation` return the first candidate that passes, in store order.

Each check returns, rejects the candidate with a reason, or raises. The traversal object of the
source has two fields: `edges` is threaded through, and `active`, which every call leaves as it
found it, is an argument.
-/

namespace OnceMesh

open Python

/-! ### Policies and outcomes -/

theorem default_depth_pos : 0 < 8 := by decide

theorem default_count_pos : 0 < 64 := by decide

/-- `Policy`. -/
structure Policy where
  now : DateTime
  trustedProducers : Option (Finset Str) := none
  trustedValidationProducers : Option (Finset Str) := none
  trustedInvalidationProducers : Option (Finset Str) := none
  permitNoExpiry : Bool := false
  requireLineage : Bool := false
  maxDependencyDepth : ℕ := 8
  maxDependencyCount : ℕ := 64
  depth_pos : 0 < maxDependencyDepth := by first | exact default_depth_pos | decide
  count_pos : 0 < maxDependencyCount := by first | exact default_count_pos | decide

/-- A set of trusted producers trusts a producer; without a set everybody is trusted. -/
def trusts (trusted : Option (Finset Str)) (producer : Str) : Bool :=
  trusted.all fun producers => producer ∈ producers

namespace Policy

/-- Who may issue validations. -/
def validationTrust (policy : Policy) : Option (Finset Str) :=
  policy.trustedValidationProducers.or policy.trustedProducers

/-- Who may issue invalidations. -/
def invalidationTrust (policy : Policy) : Option (Finset Str) :=
  policy.trustedInvalidationProducers.or policy.trustedProducers

end Policy

/-- How a check stops: it raises, or rejects the candidate. -/
inductive Stop where
  | raised (e : PyError)
  | rejected (reason : Str)
  deriving DecidableEq

/-- `return None, reason, None`. -/
def reject {α : Type} (reason : String) : Except Stop α := .error (.rejected (lit reason))

/-- `if condition: return None, reason, None`. -/
def rejectIf (condition : Bool) (reason : String) : Except Stop Unit :=
  if condition then reject reason else .ok ()

@[simp]
theorem rejectIf_eq_ok {condition : Bool} {reason : String} {u : Unit} :
    rejectIf condition reason = .ok u ↔ condition = false := by
  cases condition <;> simp [rejectIf, reject]

/-- A `StoreReadError` that nothing catches. -/
def raiseReadError {α : Type} (message : StoreReadError) : Except Stop α :=
  .error (.raised (.other (lit "StoreReadError") message))

section

variable [Sha256]

/-! ### The checks of one result -/

/-- `validate_manifest`, with `ValueError` as a rejection. -/
def checkManifest (value : Value) (reason : String) : Except Stop Manifest :=
  match h : validateManifest value with
  | .ok fields => .ok ⟨value, fields, h⟩
  | .error e => if e.isValueError then reject reason else .error (.raised e)

/-- The header of `_evaluate`: the manifest validates, answers the request, and has a lineage if
the policy requires one. -/
def checkHeader (policy : Policy) (requested : Str) (value : Value) : Except Stop Manifest := do
  let manifest ← checkManifest value "invalid_manifest"
  rejectIf (manifest.fields.actionDigest ≠ requested) "action_digest_mismatch"
  rejectIf (policy.requireLineage && manifest.fields.dependencies.isNone) "lineage_required"
  pure manifest

/-- `_effective_invalidated`: the reason to reject the manifest, if there is one. -/
def effectiveInvalidated (manifest : Manifest) (store : Store) (policy : Policy)
    (required : Bool) : Except Stop Unit :=
  match store.invalidations with
  | none => rejectIf required "invalidation_lookup_unsupported"
  | some reader =>
    match reader manifest.digest with
    | .error _ => reject "invalidation_read_failed"
    | .ok records =>
      rejectIf (records.any fun record => trusts policy.invalidationTrust record.fields.producer &&
        record.fields.invalidatedAt.instant ≤ policy.now) "invalidated"

/-- The freshness of a result: by itself, by a validation, which is returned, or because the policy
permits results without expiry. -/
def checkFreshness (manifest : Manifest) (store : Store) (policy : Policy) :
    Except Stop (Option SourceValidation) :=
  if manifest.fields.freshUntil.any fun boundary => policy.now ≤ boundary.instant then .ok none
  else
    match store.validations manifest.digest with
    | .error _ => reject "validation_read_failed"
    | .ok records =>
      match records.find? fun record => trusts policy.validationTrust record.fields.producer &&
          policy.now ≤ record.fields.freshUntil.instant with
      | some record => .ok (some record)
      | none =>
        match manifest.fields.freshUntil with
        | some _ => reject "expired"
        | none => if policy.permitNoExpiry then .ok none else reject "missing_freshness_rule"

/-- The loop over the artifacts; `names` are the names so far. -/
def readArtifacts (store : Store) (names : List Str) :
    List ArtifactDescriptor → Except Stop (List (Str × Bytes))
  | [] => .ok []
  | descriptor :: rest => do
    rejectIf (descriptor.name ∈ names) "invalid_artifact_name"
    match store.getBlob descriptor.digest with
    | .error message => raiseReadError message
    | .ok none => reject "artifact_missing"
    | .ok (some blob) =>
      rejectIf (blob.length ≠ descriptor.size || digestBytes blob ≠ descriptor.digest)
        "artifact_integrity_failure"
      let artifacts ← readArtifacts store (descriptor.name :: names) rest
      pure ((descriptor.name, blob) :: artifacts)

/-- An admissible candidate: its artifacts, the validation that makes it fresh, and the dependency
edges traversed so far. -/
structure Evaluation where
  manifest : Manifest
  artifacts : List (Str × Bytes)
  validation : Option SourceValidation
  edges : ℕ

/-- The checks of one result, apart from its dependencies; `dependency` says that it is one
itself. -/
def checkResult (policy : Policy) (manifest : Manifest) (store : Store)
    (dependency ignoreFreshness : Bool) :
    Except Stop (List (Str × Bytes) × Option SourceValidation) := do
  rejectIf (!trusts policy.trustedProducers manifest.fields.producer) "untrusted_producer"
  effectiveInvalidated manifest store policy (manifest.fields.dependencies.isSome || dependency)
  let validation ← (if ignoreFreshness then .ok none else checkFreshness manifest store policy)
  let artifacts ← readArtifacts store [] manifest.fields.artifacts
  pure (artifacts, validation)

/-! ### Dependencies -/

/-- The loop of `_locate_result`: the first store that has a result under the digest. -/
def locateResult (digest : Str) (readFailed supported : Bool) :
    List Store → Except Stop (Manifest × Store)
  | [] =>
    if readFailed then reject "dependency_read_failed"
    else if !supported then reject "dependency_lookup_unsupported"
    else reject "dependency_missing"
  | store :: rest =>
    match store.result with
    | none => locateResult digest readFailed supported rest
    | some reader =>
      match reader digest with
      | .error _ => locateResult digest true true rest
      | .ok none => locateResult digest readFailed true rest
      | .ok (some value) => do
        let manifest ← checkManifest value "dependency_invalid_manifest"
        rejectIf (manifest.digest ≠ digest) "dependency_digest_mismatch"
        pure (manifest, store)

/-- The rejection of a dependency rejects the result that depends on it. -/
def propagate {α : Type} : Except Stop α → Except Stop α
  | .error (.rejected reason) =>
    .error (.rejected
      (if startsWith reason (lit "dependency_") then reason else lit "dependency_" ++ reason))
  | x => x

/-- The loop over the dependencies, with the evaluation of one and the edges so far. -/
def evaluateDependencies (child : Manifest → Store → ℕ → Except Stop Evaluation)
    (stores : List Store) (policy : Policy) : List Dependency → ℕ → Except Stop ℕ
  | [], edges => .ok edges
  | dependency :: rest, edges => do
    rejectIf (policy.maxDependencyCount < edges + 1) "dependency_count_exceeded"
    let (manifest, store) ← locateResult dependency.resultDigest false false stores
    let evaluation ← propagate (child manifest store (edges + 1))
    evaluateDependencies child stores policy rest evaluation.edges

/-- `_evaluate` at depth `maxDependencyDepth + 1 - levels`, below the results `active`. -/
def evaluate (stores : List Store) (policy : Policy) : (levels : ℕ) → (active : List Str) →
    (requested : Str) → Value → Store → (edges : ℕ) → (ignoreFreshness : Bool) →
    Except Stop Evaluation
  | 0, _, requested, value, _, _, _ => do
    let _ ← checkHeader policy requested value
    reject "dependency_depth_exceeded"
  | levels + 1, active, requested, value, store, edges, ignoreFreshness => do
    let manifest ← checkHeader policy requested value
    rejectIf (manifest.digest ∈ active) "dependency_cycle"
    let (artifacts, validation) ← checkResult policy manifest store
      (levels < policy.maxDependencyDepth) ignoreFreshness
    let edges ← match manifest.fields.dependencies with
      | none => pure edges
      | some dependencies =>
        evaluateDependencies
          (fun dependency source edges => evaluate stores policy levels (manifest.digest :: active)
            dependency.fields.actionDigest dependency.document source edges false)
          stores policy dependencies edges
    pure { manifest, artifacts, validation, edges }

/-! ### Lookup -/

/-- What a successful lookup found, and in which tier. -/
structure Hit where
  tier : Str
  manifest : Manifest
  artifacts : List (Str × Bytes)
  validation : Option SourceValidation

/-- `LookupOutcome`. -/
structure LookupOutcome where
  hit : Option Hit
  rejections : List Str

/-- The candidates of one store, after some rejections: the first that is admissible, and the
rejections after. -/
def searchStore (stores : List Store) (policy : Policy) (requested : Str) (ignoreFreshness : Bool)
    (store : Store) : List Value → List Str → Except PyError (Option Hit × List Str)
  | [], rejections => .ok (none, rejections)
  | value :: rest, rejections =>
    match evaluate stores policy (policy.maxDependencyDepth + 1) [] requested value store 0
        ignoreFreshness with
    | .ok e => .ok (some ⟨store.name, e.manifest, e.artifacts, e.validation⟩, rejections)
    | .error (.rejected reason) =>
      searchStore stores policy requested ignoreFreshness store rest
        (rejections ++ [store.name ++ lit ":" ++ reason])
    | .error (.raised e) => .error e

/-- The stores from some point on, after some rejections. -/
def searchStores (all : List Store) (policy : Policy) (requested : Str) (ignoreFreshness : Bool) :
    List Store → List Str → Except PyError LookupOutcome
  | [], rejections => .ok ⟨none, rejections⟩
  | store :: rest, rejections =>
    match store.candidates requested with
    | .error message =>
      searchStores all policy requested ignoreFreshness rest
        (rejections ++ [store.name ++ lit ":" ++ message])
    | .ok values => do
      let (found, rejections) ←
        searchStore all policy requested ignoreFreshness store values rejections
      match found with
      | some hit => pure ⟨some hit, rejections⟩
      | none => searchStores all policy requested ignoreFreshness rest rejections

/-- `reuse`. -/
def reuse (action : Value) (stores : List Store) (policy : Policy) :
    Except PyError LookupOutcome := do
  let requested ← actionDigest action
  searchStores stores policy requested false stores []

/-- `candidate_for_revalidation`; the validation of what it finds is dropped. -/
def candidateForRevalidation (action : Value) (stores : List Store) (policy : Policy) :
    Except PyError LookupOutcome := do
  let requested ← actionDigest action
  searchStores stores policy requested true stores []

end

end OnceMesh
