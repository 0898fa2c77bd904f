import OnceMesh.Cache.Sound
import OnceMesh.Conditional

/-!
# When shadow mode is transparent

A shadow run is meant to be invisible: whatever the cache holds, the application sees the artifacts
of a full GET. `Transparent` says when one run is. The candidate's metadata must be a JSON object,
the transport must not refuse the validators in it, and a 304 must leave a record the store accepts;
otherwise the run raises.
-/

namespace OnceMesh

open Python

section

variable {τ σ : Type} [Sha256]

/-! ### Where a run publishes -/

/-- The store of a run, if it has one, and the arguments of what it publishes. -/
structure Target (σ : Type) where
  puts : Option (StorePuts σ)
  producer : Str
  now : DateTime
  freshUntil : DateTime

namespace Target

variable (target : Target σ)

/-- The arguments of a run. -/
def publishing : Publishing σ where
  store := target.puts.map StorePuts.writer
  producer := target.producer
  producedAt := target.now
  freshUntil := target.freshUntil

/-- There is no store, or it accepts a result with these artifacts. -/
def AcceptsResult (action : Value) (artifacts : Artifacts) : Prop :=
  target.puts.isSome → ∃ manifest,
    (target.publishing.resultData artifacts).toManifest action = .ok manifest

/-- There is no store, or it accepts the record of a validation. -/
def AcceptsValidation (manifest : Manifest) (validators : Validators) : Prop :=
  target.puts.isSome → ∃ record,
    SourceValidation.ofValue (target.publishing.validation manifest validators) = .ok record

theorem isSome_store : target.publishing.store.isSome = target.puts.isSome := by
  rw [publishing, Option.isSome_map]

theorem returns_publish {action : Value} {artifacts : Artifacts} {s : RunState τ σ} :
    (target.publishing.publish action artifacts).Returns s (fun _ _ => True) ↔
      target.AcceptsResult action artifacts := by
  rw [Publishing.publish, AcceptsResult]
  cases hputs : target.puts with
  | none =>
    have hstore : target.publishing.store = none := by rw [publishing, hputs]; rfl
    simp [hstore]
  | some puts =>
    have hstore : target.publishing.store = some puts.writer := by rw [publishing, hputs]; rfl
    simp only [hstore, Stateful.returns_bind, returns_onStore, Stateful.returns_pure,
      Option.isSome_some, forall_const]
    cases h : (target.publishing.resultData artifacts).toManifest action with
    | ok manifest =>
      simp [Stateful.returns_of_apply (publishResult_of_ok h s.store)]
    | error e =>
      simp [Stateful.not_returns_of_apply (publishResult_of_error h s.store)]

theorem returns_putValidation {manifest : Manifest} {validators : Validators} {s : RunState τ σ} :
    (target.publishing.putValidation manifest validators).Returns s (fun _ _ => True) ↔
      target.AcceptsValidation manifest validators := by
  rw [Publishing.putValidation, AcceptsValidation]
  cases hputs : target.puts with
  | none =>
    have hstore : target.publishing.store = none := by rw [publishing, hputs]; rfl
    simp [hstore]
  | some puts =>
    have hstore : target.publishing.store = some puts.writer := by rw [publishing, hputs]; rfl
    simp only [hstore, StorePuts.writer, returns_onStore, Stateful.returns_bind,
      Stateful.returns_liftM, Stateful.returns_modify, and_true, Option.isSome_some, forall_const]

end Target

variable [UrlNormalizer]

/-! ### A steady source -/

/-- An `http.fetch/1` action whose full GET always yields the same response, which is an acceptable
one. -/
structure SteadySource (τ : Type) where
  action : Value
  digest : Str
  request : FetchRequest
  transport : Transport τ
  response : FetchResponse
  artifacts : Artifacts
  actionDigest_eq : actionDigest action = .ok digest
  fetchRequest_eq : fetchRequest action = .ok request
  get_eq : ∀ w, ∃ w', transport.get request w = (.ok response, w')
  artifacts_eq : responseToArtifacts action response = .ok artifacts

namespace SteadySource

variable (source : SteadySource τ)

theorem requireHttpFetch_eq (message : String) :
    requireHttpFetch source.action message = .ok () := by
  have h := source.artifacts_eq
  unfold responseToArtifacts requireHttpFetch at h
  rw [requireHttpFetch]
  rw [Except.check_eq_ok, raiseIf_eq_ok] at h
  exact raiseIf_eq_ok.mpr h.1

theorem status_eq : source.response.status = 200 := by
  have h := source.artifacts_eq
  rw [responseToArtifacts, Except.check_eq_ok] at h
  obtain ⟨-, h⟩ := h
  obtain ⟨config, -, h⟩ := Except.bind_eq_ok.mp h
  by_contra hstatus
  rw [if_neg hstatus] at h
  cases h

/-- A full GET yields the artifacts. -/
theorem exists_executeHttpFetch (w : τ) :
    ∃ w', executeHttpFetch source.action source.transport w = (.ok source.artifacts, w') := by
  obtain ⟨w', hget⟩ := source.get_eq w
  refine ⟨w', ?_⟩
  rw [Stateful.eq_ok_iff_returns]
  simp only [executeHttpFetch, Stateful.returns_bind, Stateful.returns_liftM,
    source.requireHttpFetch_eq, source.fetchRequest_eq, source.artifacts_eq, Except.ok.injEq,
    exists_eq_left', exists_const, Stateful.returns_of_apply hget, and_self]

/-- After a 304, or the response itself, a run has the artifacts of the source. -/
theorem exists_artifactsAfter {response : FetchResponse}
    (h : response.status = 304 ∨ response = source.response) (w : τ) :
    ∃ w', artifactsAfter source.action source.transport response w =
      (.ok source.artifacts, w') := by
  rcases h with h | rfl
  · rw [artifactsAfter, if_pos h]
    exact source.exists_executeHttpFetch w
  · refine ⟨w, ?_⟩
    rw [artifactsAfter, if_neg (by rw [source.status_eq]; decide), if_pos source.status_eq,
      source.artifacts_eq]
    rfl

/-- The operation of the action has a name. -/
theorem operationName_eq : operationName source.action = .ok (.str (lit "http.fetch")) :=
  operationName_of_requireHttpFetch (source.requireHttpFetch_eq "")

end SteadySource

/-! ### One run -/

/-- A steady source that answers every conditional GET with a 304 or its response, or refuses the
validators with a `ValueError`. -/
structure ShadowSource (τ : Type) extends SteadySource τ where
  conditional : ∀ etag lastModified w, ∃ w',
    (∃ notModified, notModified.status = 304 ∧
      transport.conditionalGet request etag lastModified w = (.ok notModified, w')) ∨
    transport.conditionalGet request etag lastModified w = (.ok response, w') ∨
    ∃ e, e.isValueError = true ∧
      transport.conditionalGet request etag lastModified w = (.error e, w')

variable (source : ShadowSource τ) (target : Target σ)

/-- The store accepts what a run leaves in it: the record of the validation after a 304 for a
candidate that matches, and otherwise the result. -/
def AcceptsOutcome (candidate : LookupOutcome) (hit : Hit) (validators : Validators)
    (response : FetchResponse) : Prop :=
  if response.status = 304 ∧ candidateMatches source.artifacts candidate = some true then
    target.AcceptsValidation hit.manifest validators
  else target.AcceptsResult source.action source.artifacts

/-- The source does not refuse the validators, and the store accepts what its answer leads to. -/
def AcceptsValidators (candidate : LookupOutcome) (hit : Hit) (validators : Validators)
    (w : τ) : Prop :=
  ∃ response w', source.transport.conditionalGet source.request validators.etag
      validators.lastModified w = (.ok response, w') ∧
    AcceptsOutcome source target candidate hit validators response

/-- The part of the run from the conditional request on is transparent exactly when the validators
are accepted. -/
theorem returns_validateInShadow {candidate : LookupOutcome} {hit : Hit} {validators : Validators}
    {decisionReason : Str} {s : RunState τ σ} :
    (validateInShadow source.action source.transport target.publishing decisionReason candidate hit
      validators).Returns s (fun outcome _ => outcome.artifacts = source.artifacts) ↔
      AcceptsValidators source target candidate hit validators s.world := by
  obtain ⟨w, hanswer⟩ := source.conditional validators.etag validators.lastModified s.world
  cases hresult : (source.transport.conditionalGet source.request validators.etag
      validators.lastModified s.world).1 with
  | error e =>
    have hraises : source.transport.conditionalGet source.request validators.etag
        validators.lastModified s.world = (.error e, _) := Prod.ext hresult rfl
    refine iff_of_false ?_ ?_
    · simp only [validateInShadow, Stateful.returns_bind, Stateful.returns_liftM,
        source.fetchRequest_eq, Except.ok.injEq, exists_eq_left', returns_outside]
      exact Stateful.not_returns_of_apply hraises
    · rintro ⟨response, w', h, -⟩
      cases hraises.symm.trans h
  | ok response =>
    have hconditional : source.transport.conditionalGet source.request validators.etag
        validators.lastModified s.world = (.ok response, _) := Prod.ext hresult rfl
    -- the answer is a 304 or the response of the full GET
    have hresponse : response.status = 304 ∨ response = source.response := by
      rcases hanswer with ⟨notModified, hstatus, h⟩ | h | ⟨e, -, h⟩
      · cases hconditional.symm.trans h
        exact .inl hstatus
      · cases hconditional.symm.trans h
        exact .inr rfl
      · cases hconditional.symm.trans h
    obtain ⟨w', hafter⟩ := source.exists_artifactsAfter hresponse
      (source.transport.conditionalGet source.request validators.etag validators.lastModified
        s.world).2
    have haccepts : AcceptsValidators source target candidate hit validators s.world ↔
        AcceptsOutcome source target candidate hit validators response := by
      constructor
      · rintro ⟨_, _, h, houtcome⟩
        cases hconditional.symm.trans h
        exact houtcome
      · exact fun houtcome => ⟨_, _, hconditional, houtcome⟩
    simp only [validateInShadow, Stateful.returns_bind, Stateful.returns_liftM,
      source.fetchRequest_eq, source.actionDigest_eq, source.operationName_eq, Except.ok.injEq,
      exists_eq_left', returns_outside, Stateful.returns_of_apply hconditional,
      Stateful.returns_of_apply hafter, returns_record, Stateful.returns_pure, target.isSome_store,
      haccepts]
    rw [Publishing.storeOutcome, AcceptsOutcome]
    by_cases hverified :
        response.status = 304 ∧ candidateMatches source.artifacts candidate = some true
    · rw [if_pos hverified]
      cases hputs : target.puts.isSome with
      | true => rw [if_pos (by simp [hverified]), target.returns_putValidation]
      | false =>
        rw [if_neg (by simp), target.returns_publish]
        simp [Target.AcceptsResult, Target.AcceptsValidation, hputs]
    · rw [if_neg hverified, if_neg (by simp [hverified]), target.returns_publish]

/-- A run that only executes is transparent when the store accepts the result. -/
theorem returns_runShadow {stores : List Store} (hstores : ∀ store ∈ stores, store.Readable)
    (policy : Policy) (s : RunState τ σ) :
    (runShadow source.action stores (executeHttpFetch source.action source.transport) policy
      target.publishing).Returns s (fun outcome _ => outcome.artifacts = source.artifacts) ↔
      target.AcceptsResult source.action source.artifacts := by
  obtain ⟨outcome, hreuse⟩ : ∃ outcome, reuse source.action stores policy = .ok outcome :=
    exists_lookup_of_readable source.actionDigest_eq hstores policy false
  obtain ⟨w, hfetch⟩ := source.exists_executeHttpFetch s.world
  simp only [runShadow, Stateful.returns_bind, Stateful.returns_liftM, hreuse,
    source.actionDigest_eq, source.operationName_eq, Except.ok.injEq, exists_eq_left',
    returns_outside, Stateful.returns_of_apply hfetch, returns_record, Stateful.returns_pure]
  exact target.returns_publish

/-! ### Any two runs -/

/-- What the cache holds can be used: the metadata of the candidate, if it has any, is a JSON
object, and the validators in it, if there are any, are accepted. -/
def Harmless (stores : List Store) (policy : Policy) (w : τ) : Prop :=
  ∃ candidate, candidateForRevalidation source.action stores policy = .ok candidate ∧
    match candidate.hit with
    | none => target.AcceptsResult source.action source.artifacts
    | some hit =>
      match hit.artifacts.lookup (lit "metadata") with
      | none => target.AcceptsResult source.action source.artifacts
      | some data =>
        ∃ validators, Validators.ofMetadata data = .ok validators ∧
          if validators.absent then target.AcceptsResult source.action source.artifacts
          else AcceptsValidators source target candidate hit validators w

/-- The application sees the artifacts of the full GET. -/
def Transparent (stores : List Store) (policy : Policy) (decisionReason : Str)
    (s : RunState τ σ) : Prop :=
  (runConditionalHttpShadow source.action stores source.transport policy target.publishing
    decisionReason).Returns s fun outcome _ => outcome.artifacts = source.artifacts

theorem transparent_iff_harmless {stores : List Store}
    (hstores : ∀ store ∈ stores, store.Readable) (policy : Policy) (decisionReason : Str)
    (s : RunState τ σ) :
    Transparent source target stores policy decisionReason s ↔
      Harmless source target stores policy s.world := by
  have hshadow := returns_runShadow source target hstores policy s
  simp only [Transparent, runConditionalHttpShadow, Harmless, Stateful.returns_bind,
    Stateful.returns_liftM]
  refine exists_congr fun candidate => and_congr_right fun _ => ?_
  cases candidate.hit with
  | none => exact hshadow
  | some hit =>
    dsimp only
    cases hit.artifacts.lookup (lit "metadata") with
    | none => exact hshadow
    | some data =>
      dsimp only
      simp only [Stateful.returns_bind, Stateful.returns_liftM]
      refine exists_congr fun validators => and_congr_right fun _ => ?_
      split_ifs
      · exact hshadow
      · exact returns_validateInShadow source target

/-- Two runs under one source, over any two caches, both show the application its artifacts exactly
when both caches are harmless. -/
theorem shadow_noninterference_iff {stores stores' : List Store}
    (hstores : ∀ store ∈ stores, store.Readable) (hstores' : ∀ store ∈ stores', store.Readable)
    (policy : Policy) (decisionReason : Str) (s s' : RunState τ σ) :
    (Transparent source target stores policy decisionReason s ∧
        Transparent source target stores' policy decisionReason s') ↔
      Harmless source target stores policy s.world ∧
      Harmless source target stores' policy s'.world :=
  and_congr (transparent_iff_harmless source target hstores policy decisionReason s)
    (transparent_iff_harmless source target hstores' policy decisionReason s')

end

/-! ### A candidate without metadata

The metadata of the one candidate is the array `[]`. -/

/-- An action of `http.fetch/1`. -/
def exampleFetch : Value :=
  .dict
    [(lit "spec_version", .str (lit "oncemesh.action/v0")),
      (lit "operation", .dict [(lit "name", .str (lit "http.fetch")),
        (lit "version", .str (lit "1"))]),
      (lit "inputs", .dict [(lit "url", .str (lit "https://example.test/")),
        (lit "method", .str (lit "GET")), (lit "accept", .str (lit "*/*"))]),
      (lit "executor", .dict [(lit "name", .str (lit "oncemesh.http")),
        (lit "version", .str (lit "1")),
        (lit "config", .dict [(lit "follow_redirects", .bool true), (lit "max_bytes", .int 10)])]),
      (lit "output_schema", .str (lit "oncemesh.http/response-v1")),
      (lit "vary", .dict [])]

/-- A fetched result of 2026 with the body of octet 1 and the metadata `[]`. -/
def exampleFetched : Value :=
  .dict
    [(lit "spec_version", .str (lit "oncemesh.result/v0")),
      (lit "action_digest", .str
        (exampleDigest 0xbf5019c9674f7a051d35cfa01ae5db26bf21539ccd75ef449503ee68492fa35b)),
      (lit "artifacts", .list
        [.dict [(lit "name", .str (lit "body")),
          (lit "digest", .str
            (exampleDigest 0x4bf5122f344554c53bde2ebb8cd2b7e3d1600ad631c385a5d7cce23c7785459a)),
          (lit "size", .int 1), (lit "media_type", .str (lit "text/plain"))],
        .dict [(lit "name", .str (lit "metadata")),
          (lit "digest", .str
            (exampleDigest 0x4f53cda18c2baa0c0354bb5f9a3ecbe5ed12ab4d8e11ba873c2f11161202b945)),
          (lit "size", .int 2), (lit "media_type", .str (lit "application/json"))]]),
      (lit "produced_at", .str (lit "2026-01-01T00:00:00Z")),
      (lit "fresh_until", .str (lit "2027-01-01T00:00:00Z")),
      (lit "producer", .str (lit "alice"))]

/-- A store with that result. -/
def exampleFetchStore : MemoryStore := exampleStore [[1], ascii "[]"] [exampleFetched]

/-- The normalization of the one URL below, which is normal. -/
@[reducible]
def exampleNormalizer : UrlNormalizer := ⟨.ok⟩

/-- The response of the source. -/
def exampleResponse : FetchResponse :=
  { status := 200, finalUrl := lit "https://example.test/", headers := .empty, body := [1] }

/-- A transport that answers every request with it. -/
def exampleTransport : Transport Unit where
  get _ := pure exampleResponse
  conditionalGet _ _ _ := pure exampleResponse

/-- Where the run below publishes: nowhere. -/
def exampleTarget : Target MemoryStore where
  puts := none
  producer := lit "alice"
  now := exampleTime "2026-06-01T00:00:00Z"
  freshUntil := exampleTime "2026-06-01T01:00:00Z"

/-- The policy of the lookup. -/
def examplePolicy : Policy := { now := exampleTime "2026-06-01T00:00:00Z" }

section

attribute [local instance] Sha256.standard exampleNormalizer

/-- A source of the response. -/
theorem exists_exampleSource : ∃ source : ShadowSource Unit,
    source.action = exampleFetch ∧ source.transport = exampleTransport := by
  obtain ⟨digest, hdigest⟩ : ∃ digest, actionDigest exampleFetch = .ok digest :=
    Except.exists_of_isOk (by decide +kernel)
  obtain ⟨request, hrequest⟩ : ∃ request, fetchRequest exampleFetch = .ok request :=
    Except.exists_of_isOk (by decide +kernel)
  obtain ⟨artifacts, hartifacts⟩ : ∃ artifacts,
      responseToArtifacts exampleFetch exampleResponse = .ok artifacts :=
    Except.exists_of_isOk (by decide +kernel)
  let source : SteadySource Unit :=
    { action := exampleFetch, digest, request, transport := exampleTransport,
      response := exampleResponse, artifacts, actionDigest_eq := hdigest,
      fetchRequest_eq := hrequest, get_eq := fun w => ⟨w, rfl⟩, artifacts_eq := hartifacts }
  exact ⟨⟨source, fun _ _ w => ⟨w, .inr (.inl rfl)⟩⟩, rfl, rfl⟩

theorem readable_exampleFetchStore : ∀ store ∈ [exampleFetchStore.view], store.Readable := by
  intro store hstore
  rw [List.mem_singleton.mp hstore]
  exact exampleFetchStore.readable_view

/-- The initial state of the runs below. -/
def exampleState : RunState Unit MemoryStore := ⟨(), .empty (lit "local"), []⟩

theorem shadow_noninterference_iff_example : ∃ source : ShadowSource Unit,
    (Transparent source exampleTarget [exampleFetchStore.view] examplePolicy (lit "shadow")
        exampleState ∧
      Transparent source exampleTarget [] examplePolicy (lit "shadow") exampleState) ↔
    Harmless source exampleTarget [exampleFetchStore.view] examplePolicy () ∧
      Harmless source exampleTarget [] examplePolicy () := by
  obtain ⟨source, -⟩ := exists_exampleSource
  exact ⟨source, shadow_noninterference_iff source exampleTarget readable_exampleFetchStore
    (by simp) examplePolicy (lit "shadow") exampleState exampleState⟩

/-- Shadow mode is not transparent over every readable cache. -/
theorem not_shadow_noninterference :
    ¬∀ (source : ShadowSource Unit) (target : Target MemoryStore) (stores stores' : List Store),
      (∀ store ∈ stores, store.Readable) → (∀ store ∈ stores', store.Readable) →
      ∀ (policy : Policy) (reason : Str) (s s' : RunState Unit MemoryStore),
        Transparent source target stores policy reason s ∧
          Transparent source target stores' policy reason s' := by
  intro h
  obtain ⟨source, haction, htransport⟩ := exists_exampleSource
  -- the decoded metadata is a list, which has no `get`
  have hraises : raised? (runConditionalHttpShadow exampleFetch [exampleFetchStore.view]
      exampleTransport examplePolicy exampleTarget.publishing (lit "shadow") exampleState).1 =
        some (.attributeError (lit "get")) := by
    decide +kernel
  obtain ⟨outcome, t, hreturns, -⟩ := (h source exampleTarget [exampleFetchStore.view]
    [exampleFetchStore.view] readable_exampleFetchStore readable_exampleFetchStore examplePolicy
    (lit "shadow") exampleState exampleState).1
  rw [haction, htransport] at hreturns
  rw [hreturns] at hraises
  cases hraises

end

end OnceMesh
