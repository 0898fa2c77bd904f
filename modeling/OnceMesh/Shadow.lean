import OnceMesh.Adapters
import OnceMesh.Cache
import OnceMesh.Python.Stateful.Returns

/-!
# Shadow evaluation

`runShadow` looks a candidate up, executes anyway and compares. What a call acts on is a `RunState`:
the world outside the process, the store results are published to, and the recorded events. The
stores that are searched are read before anything is written, and are an argument.
-/

namespace OnceMesh

open Python

/-! ### The state of a run -/

/-- `EvaluationEvent`; durations, costs and the evaluation identifier are left out. -/
structure EvaluationEvent where
  mode : Str
  actionDigest : Str
  operation : Value
  candidateHit : Bool
  tier : Option Str
  artifactMatch : Option Bool
  rejections : List Str
  reusableBytes : ℕ
  validationMethod : Option Str := none
  validationStatus : Option ℤ := none
  validationRecorded : Bool := false
  substituted : Bool := false
  decisionReason : Option Str := none
  killSwitchActive : Bool := false
  backgroundRevalidationScheduled : Bool := false
  backgroundRevalidationCoalesced : Bool := false

/-- What a run acts on: a world of type `τ` outside the process, the store it publishes to, and the
metrics sink. -/
structure RunState (τ σ : Type) where
  world : τ
  store : σ
  events : List EvaluationEvent

section

variable {τ σ α : Type}

/-- An action on the world. -/
def outside (x : Stateful PyError τ α) : Stateful PyError (RunState τ σ) α := fun s =>
  ((x s.world).1, { s with world := (x s.world).2 })

/-- An action on the store. -/
def onStore (x : Stateful PyError σ α) : Stateful PyError (RunState τ σ) α := fun s =>
  ((x s.store).1, { s with store := (x s.store).2 })

/-- `metrics.record(event)`. -/
def record (event : EvaluationEvent) : Stateful PyError (RunState τ σ) Unit :=
  Stateful.modify fun s => { s with events := s.events ++ [event] }

@[simp]
theorem returns_outside {x : Stateful PyError τ α} {s : RunState τ σ}
    {post : α → RunState τ σ → Prop} :
    (outside x).Returns s post ↔ x.Returns s.world fun a w => post a { s with world := w } := by
  cases h : x s.world with
  | mk result w =>
    have hrun : outside x s = (result, { s with world := w }) := by rw [outside, h]
    cases result with
    | ok a => rw [Stateful.returns_of_apply h, Stateful.returns_of_apply hrun]
    | error e =>
      exact iff_of_false (Stateful.not_returns_of_apply hrun) (Stateful.not_returns_of_apply h)

@[simp]
theorem returns_onStore {x : Stateful PyError σ α} {s : RunState τ σ}
    {post : α → RunState τ σ → Prop} :
    (onStore x).Returns s post ↔ x.Returns s.store fun a t => post a { s with store := t } := by
  cases h : x s.store with
  | mk result t =>
    have hrun : onStore x s = (result, { s with store := t }) := by rw [onStore, h]
    cases result with
    | ok a => rw [Stateful.returns_of_apply h, Stateful.returns_of_apply hrun]
    | error e =>
      exact iff_of_false (Stateful.not_returns_of_apply hrun) (Stateful.not_returns_of_apply h)

@[simp]
theorem returns_record {event : EvaluationEvent} {s : RunState τ σ}
    {post : Unit → RunState τ σ → Prop} :
    (record event).Returns s post ↔ post () { s with events := s.events ++ [event] } :=
  Stateful.returns_modify

end

/-! ### Candidates -/

/-- The media types of the artifacts of a manifest. -/
def mediaTypes (manifest : Manifest) : Dict Str Str :=
  Dict.ofPairs (manifest.fields.artifacts.map fun descriptor =>
    (descriptor.name, descriptor.mediaType))

/-- `candidate_matches`. -/
def candidateMatches (actual : Artifacts) (lookup : LookupOutcome) : Option Bool :=
  lookup.hit.map fun hit =>
    let descriptors := mediaTypes hit.manifest
    let names := actual.entries.map Prod.fst
    if ¬(names.toFinset = (hit.artifacts.map Prod.fst).toFinset ∧
        names.toFinset = (descriptors.entries.map Prod.fst).toFinset) then false
    else
      actual.entries.all fun (name, data, mediaType) =>
        decide (hit.artifacts.lookup name = some data ∧ descriptors.get? name = some mediaType)

/-- `sum(len(data) for data, _ in artifacts.values())`. -/
def totalBytes (artifacts : Artifacts) : ℕ :=
  (artifacts.entries.map fun artifact => artifact.2.1.length).sum

/-- `action["operation"]["name"]`. -/
def operationName (action : Value) : Except PyError Value := do
  (← action.item (lit "operation")).item (lit "name")

/-- A member that is not null is found. -/
theorem item_of_get_ne_none {value : Value} {key : Str} (h : value.get key ≠ .none) :
    value.item key = .ok (value.get key) := by
  cases value with
  | dict items | mixedDict items =>
    simp only [Value.get, Value.item] at h ⊢
    cases hlookup : items.lookup key with
    | none => simp [hlookup] at h
    | some v => rfl
  | _ => exact absurd rfl h

/-- An HTTP fetch has the name of one. -/
theorem operationName_of_requireHttpFetch {action : Value} {message : String}
    (h : requireHttpFetch action message = .ok ()) :
    operationName action = .ok (.str (lit "http.fetch")) := by
  rw [requireHttpFetch, raiseIf_eq_ok, Bool.not_eq_false', Value.eqStrDict, Bool.and_eq_true] at h
  have hname : (action.get (lit "operation")).get (lit "name") = .str (lit "http.fetch") := by
    simpa using (List.all_eq_true.mp h.2 (lit "name", lit "http.fetch") (by simp))
  have hoperation : action.get (lit "operation") ≠ .none := by
    intro hnone
    rw [hnone] at hname
    cases hname
  rw [operationName, item_of_get_ne_none hoperation, Except.ok_bind,
    item_of_get_ne_none (by rw [hname]; exact Value.noConfusion), hname]

/-! ### Shadow runs -/

/-- `ShadowOutcome`; the duration is left out. -/
structure ShadowOutcome where
  artifacts : Artifacts
  lookup : LookupOutcome
  artifactMatch : Option Bool

/-- What a run publishes, and where: `publish_to` and the arguments it passes on. -/
structure Publishing (σ : Type) where
  store : Option (StoreWriter σ)
  producer : Str
  producedAt : DateTime
  freshUntil : DateTime

variable {τ σ : Type} [Sha256]

/-- What is published of some artifacts. -/
def Publishing.resultData (target : Publishing σ) (artifacts : Artifacts) : ResultData where
  artifacts := artifacts
  producer := target.producer
  producedAt := target.producedAt
  freshUntil := some target.freshUntil

/-- `if publish_to is not None: publish_result(publish_to, action, artifacts, …)`. -/
def Publishing.publish (target : Publishing σ) (action : Value) (artifacts : Artifacts) :
    Stateful PyError (RunState τ σ) Unit :=
  match target.store with
  | none => pure ()
  | some writer => do
    let _ ← onStore (publishResult writer action (target.resultData artifacts))
    pure ()

/-- `run_shadow`. -/
def runShadow (action : Value) (stores : List Store) (execute : Stateful PyError τ Artifacts)
    (policy : Policy) (target : Publishing σ) : Stateful PyError (RunState τ σ) ShadowOutcome := do
  let lookup ← reuse action stores policy
  let actual ← outside execute
  let artifactMatch := candidateMatches actual lookup
  let verified := artifactMatch = some true
  record
    { mode := lit "shadow", actionDigest := ← actionDigest action,
      operation := ← operationName action, candidateHit := lookup.hit.isSome,
      tier := lookup.hit.map Hit.tier, artifactMatch, rejections := lookup.rejections,
      reusableBytes := if verified then totalBytes actual else 0 }
  target.publish action actual
  pure { artifacts := actual, lookup, artifactMatch }

end OnceMesh
