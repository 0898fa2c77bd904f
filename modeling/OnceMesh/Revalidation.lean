import OnceMesh.Conditional

/-!
# Background revalidation

`revalidateHttpCandidate` is the job a stale-while-revalidate run hands to a coordinator. It raises
nothing: whatever fails ends up in the recorded event. A coordinator decides when the job runs.
-/

namespace OnceMesh

open Python

/-- The local variables of `revalidate_http_candidate`, which the event is made of even if the job
fails half-way. -/
structure RefreshProgress where
  status : Option ℤ := none
  recorded : Bool := false
  reason : Str := lit "background_failed"
  artifactMatch : Option Bool := none

section

variable {τ σ α : Type}

/-- A part of a job that leaves its local variables alone. -/
def duringRefresh (x : Stateful PyError (RunState τ σ) α) :
    Stateful PyError (RunState τ σ × RefreshProgress) α := fun s =>
  ((x s.1).1, (x s.1).2, s.2)

/-- An assignment to the local variables of a job. -/
def setProgress (f : RefreshProgress → RefreshProgress) :
    Stateful PyError (RunState τ σ × RefreshProgress) Unit :=
  Stateful.modify fun s => (s.1, f s.2)

end

variable {τ σ : Type} [Sha256] [UrlNormalizer]

/-- The `try` block of `revalidate_http_candidate`. -/
def refresh (action : Value) (candidate : LookupOutcome) (transport : Transport τ)
    (writer : StoreWriter σ) (producer : Str) (validationTtlSeconds : ℤ)
    (clock : Stateful PyError τ DateTime) :
    Stateful PyError (RunState τ σ × RefreshProgress) Unit := do
  match candidate.hit with
  | none => raiseValueError "background candidate has no manifest"
  | some hit =>
    let validators ← Validators.ofHit hit
    raiseIf validators.absent "background candidate has no validator"
    let request ← fetchRequest action
    let response ← duringRefresh (outside
      (transport.conditionalGet request validators.etag validators.lastModified))
    setProgress fun progress => { progress with status := some response.status }
    let observedAt ← duringRefresh (outside clock)
    let freshUntil ← observedAt.addSeconds validationTtlSeconds
    let target : Publishing σ :=
      { store := some writer, producer, producedAt := observedAt, freshUntil }
    if response.status = 304 then
      duringRefresh (onStore (writer.putValidation (target.validation hit.manifest validators)))
      setProgress fun progress =>
        { progress with recorded := true, reason := lit "background_not_modified" }
    else if response.status = 200 then
      let artifacts ← responseToArtifacts action response
      setProgress fun progress =>
        { progress with artifactMatch := candidateMatches artifacts candidate }
      duringRefresh (target.publish action artifacts)
      setProgress fun progress => { progress with reason := lit "background_source_changed" }
    else
      Stateful.ofExcept (.error (.valueError
        (lit "unexpected background status " ++ intRepr response.status) []))

/-- `revalidate_http_candidate`. -/
def revalidateHttpCandidate (action : Value) (candidate : LookupOutcome) (transport : Transport τ)
    (writer : StoreWriter σ) (producer : Str) (validationTtlSeconds : ℤ)
    (clock : Stateful PyError τ DateTime) : Stateful PyError (RunState τ σ) Unit := fun s =>
  let (result, s, progress) :=
    refresh action candidate transport writer producer validationTtlSeconds clock (s, {})
  let reason := match result with
    | .ok _ => progress.reason
    | .error _ => lit "background_failed"
  (do
    record
      { mode := lit "background-revalidate", actionDigest := ← actionDigest action,
        operation := .str (lit "http.fetch"), candidateHit := true,
        tier := candidate.hit.map Hit.tier, artifactMatch := progress.artifactMatch,
        rejections := candidate.rejections, reusableBytes := 0,
        validationMethod := some (lit "http.conditional/1"), validationStatus := progress.status,
        validationRecorded := progress.recorded, decisionReason := some reason } :
    Stateful PyError (RunState τ σ) Unit) s

/-- A `RevalidationCoordinator`: `submit` is handed a key and a job, and answers whether the job was
scheduled or coalesced with one in flight. -/
structure Coordinator (τ σ : Type) where
  submit : Str → Stateful PyError (RunState τ σ) Unit → Stateful PyError (RunState τ σ) Bool
  /-- The clock the jobs read. -/
  clock : Stateful PyError τ DateTime

end OnceMesh
