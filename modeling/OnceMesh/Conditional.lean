import OnceMesh.Shadow

/-!
# Conditional HTTP validation in shadow mode

`runConditionalHttpShadow` asks the source whether the cached candidate still stands and obtains the
full output whatever it answers. The validators come out of the candidate's metadata artifact, which
is whatever its producer stored there.
-/

namespace OnceMesh

open Python

/-- `value.get(key)`, which only a dictionary has. -/
def callGet (value : Value) (key : Str) : Except PyError Value :=
  if value.isDict then .ok (value.get key) else .error (.attributeError (lit "get"))

/-- The validators of a candidate. -/
structure Validators where
  etag : Value
  lastModified : Value

/-- `json.loads(data.decode("utf-8"))` and the two validators in it. -/
def Validators.ofMetadata (data : Bytes) : Except PyError Validators := do
  let metadata ← parseJson data
  let etag ← callGet metadata (lit "etag")
  let lastModified ← callGet metadata (lit "last_modified")
  pure { etag, lastModified }

/-- The validators of a candidate, whose metadata artifact may be missing. -/
def Validators.ofHit (hit : Hit) : Except PyError Validators :=
  match hit.artifacts.lookup (lit "metadata") with
  | none => .error (.keyError (lit "metadata"))
  | some data => ofMetadata data

/-- `not etag and not last_modified`. -/
def Validators.absent (validators : Validators) : Bool :=
  !validators.etag.truthy && !validators.lastModified.truthy

/-- The record of a validation by a 304. -/
def validationValue (resultDigest validatedAt freshUntil producer : Str)
    (validators : Validators) : Value :=
  .dict
    [(lit "spec_version", .str (lit "oncemesh.validation/v0")),
      (lit "result_digest", .str resultDigest), (lit "validated_at", .str validatedAt),
      (lit "fresh_until", .str freshUntil), (lit "producer", .str producer),
      (lit "method", .dict
        [(lit "name", .str (lit "http.conditional")), (lit "version", .str (lit "1")),
          (lit "status", .int 304), (lit "etag", validators.etag),
          (lit "last_modified", validators.lastModified)])]

/-- The artifacts of a run, after `response` to a conditional GET. -/
def artifactsAfter {τ : Type} [UrlNormalizer] (action : Value) (transport : Transport τ)
    (response : FetchResponse) : Stateful PyError τ Artifacts := do
  if response.status = 304 then executeHttpFetch action transport
  else if response.status = 200 then responseToArtifacts action response
  else
    Stateful.ofExcept (.error (.valueError
      (lit "unexpected conditional response status " ++ intRepr response.status) []))

variable {τ σ : Type} [Sha256] [UrlNormalizer]

/-- The record that a 304 at some time makes for a candidate. -/
def Publishing.validation (target : Publishing σ) (manifest : Manifest) (validators : Validators) :
    Value :=
  validationValue manifest.digest (formatTime target.producedAt) (formatTime target.freshUntil)
    target.producer
    validators

/-- `publish_to.put_validation(…)`, if there is a store. -/
def Publishing.putValidation (target : Publishing σ) (manifest : Manifest)
    (validators : Validators) : Stateful PyError (RunState τ σ) Unit :=
  match target.store with
  | none => pure ()
  | some writer => onStore (writer.putValidation (target.validation manifest validators))

/-- What a run leaves in the store: the record of a validation, or else the result. -/
def Publishing.storeOutcome (target : Publishing σ) (action : Value) (actual : Artifacts)
    (manifest : Manifest) (validators : Validators) (validationRecorded : Bool) :
    Stateful PyError (RunState τ σ) Unit :=
  if validationRecorded then target.putValidation manifest validators
  else target.publish action actual

/-- The part of `run_conditional_http_shadow` from the conditional request on. -/
def validateInShadow (action : Value) (transport : Transport τ) (target : Publishing σ)
    (decisionReason : Str) (candidate : LookupOutcome) (hit : Hit) (validators : Validators) :
    Stateful PyError (RunState τ σ) ShadowOutcome := do
  let request ← fetchRequest action
  let response ← outside (transport.conditionalGet request validators.etag validators.lastModified)
  let actual ← outside (artifactsAfter action transport response)
  let artifactMatch := candidateMatches actual candidate
  let verified := decide (response.status = 304 ∧ artifactMatch = some true)
  let validationRecorded := verified && target.store.isSome
  target.storeOutcome action actual hit.manifest validators validationRecorded
  record
    { mode := lit "shadow", actionDigest := ← actionDigest action,
      operation := ← operationName action, candidateHit := true, tier := some hit.tier,
      artifactMatch, rejections := candidate.rejections,
      reusableBytes := if verified then totalBytes actual else 0,
      validationMethod := some (lit "http.conditional/1"),
      validationStatus := some response.status, validationRecorded,
      decisionReason := some decisionReason }
  pure { artifacts := actual, lookup := candidate, artifactMatch }

/-- `run_conditional_http_shadow`. -/
def runConditionalHttpShadow (action : Value) (stores : List Store) (transport : Transport τ)
    (policy : Policy) (target : Publishing σ) (decisionReason : Str) :
    Stateful PyError (RunState τ σ) ShadowOutcome := do
  let candidate ← candidateForRevalidation action stores policy
  let shadow := runShadow action stores (executeHttpFetch action transport) policy target
  match candidate.hit with
  | none => shadow
  | some hit =>
    match hit.artifacts.lookup (lit "metadata") with
    | none => shadow
    | some data =>
      let validators ← Validators.ofMetadata data
      if validators.absent then shadow
      else validateInShadow action transport target decisionReason candidate hit validators

end OnceMesh
