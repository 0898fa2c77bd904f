import OnceMesh.Adapters.SafeHttp
import OnceMesh.Python.Stateful.Within
import OnceMesh.Runtime

/-!
# The authority of a policy run

A run touches the world outside the process by GETs, conditional GETs, and what a coordinator does.
`HttpCall.within_run` says that what these keep to, the run keeps to as well. Over the transport of
controlled evaluation runs, it follows that a run sends requests to allowed hosts only.
-/

namespace OnceMesh

open Python Stateful

section

variable {τ σ α : Type} {R : τ → τ → Prop}

/-- The worlds of two states of a run are related. -/
def RunState.Relates (R : τ → τ → Prop) (s t : RunState τ σ) : Prop :=
  R s.world t.world

instance [IsPreorder τ R] : IsPreorder (RunState τ σ) (RunState.Relates R) where
  refl s := refl_of R s.world
  trans _ _ _ := trans_of R

/-- The world and the local variables of a background job. -/
def RunState.RelatesFst (R : τ → τ → Prop) (s t : RunState τ σ × RefreshProgress) : Prop :=
  s.1.Relates R t.1

instance [IsPreorder τ R] :
    IsPreorder (RunState τ σ × RefreshProgress) (RunState.RelatesFst R) where
  refl s := refl_of R s.1.world
  trans _ _ _ := trans_of R

/-- An action on the world keeps to what it keeps to. -/
theorem within_outside {x : Stateful PyError τ α} (hx : Within R x) :
    Within (RunState.Relates R) (outside x : Stateful PyError (RunState τ σ) α) :=
  fun s => hx s.world

/-- What acts on the store leaves the world as it is. -/
theorem within_onStore [IsPreorder τ R] (x : Stateful PyError σ α) :
    Within (RunState.Relates R) (onStore x : Stateful PyError (RunState τ σ) α) :=
  fun s => refl_of R s.world

/-- An event that is recorded leaves the world as it is. -/
theorem within_record [IsPreorder τ R] (event : EvaluationEvent) :
    Within (RunState.Relates R) (record event : Stateful PyError (RunState τ σ) Unit) :=
  fun s => refl_of R s.world

/-- The requests of an action keep to a relation of the worlds. -/
structure Transport.Keeps (transport : Transport τ) (R : τ → τ → Prop) (action : Value) : Prop where
  get : ∀ request, fetchRequest action = .ok request → Within R (transport.get request)
  conditionalGet : ∀ request, fetchRequest action = .ok request → ∀ etag lastModified,
    Within R (transport.conditionalGet request etag lastModified)

/-- A coordinator keeps to a relation if its jobs do. -/
structure Coordinator.Keeps (coordinator : Coordinator τ σ) (R : τ → τ → Prop) : Prop where
  submit : ∀ key job, Within (RunState.Relates R) job →
    Within (RunState.Relates R) (coordinator.submit key job)
  clock : Within R coordinator.clock

end

section

variable {τ σ : Type} [Sha256] [UrlNormalizer] {R : τ → τ → Prop} [IsPreorder τ R]

/-! ### The parts of a run -/

omit [Sha256] in
/-- A fetch sends the one GET of its action. -/
theorem within_executeHttpFetch {action : Value} {transport : Transport τ}
    (h : transport.Keeps R action) : Within R (executeHttpFetch action transport) := by
  refine within_liftM_bind fun _ _ => within_liftM_bind fun request hrequest => ?_
  exact (h.get request hrequest).bind fun _ => within_ofExcept _

omit [UrlNormalizer] in
/-- Publishing acts on the store only. -/
theorem within_publish (target : Publishing σ) (action : Value) (artifacts : Artifacts) :
    Within (RunState.Relates R)
      (target.publish action artifacts : Stateful PyError (RunState τ σ) Unit) := by
  unfold Publishing.publish
  cases target.store with
  | none => exact within_pure ()
  | some writer => exact (within_onStore _).bind fun _ => within_pure ()

omit [UrlNormalizer] in
/-- A validation is put in the store. -/
theorem within_putValidation (target : Publishing σ) (manifest : Manifest)
    (validators : Validators) :
    Within (RunState.Relates R)
      (target.putValidation manifest validators : Stateful PyError (RunState τ σ) Unit) := by
  unfold Publishing.putValidation
  cases target.store with
  | none => exact within_pure ()
  | some writer => exact within_onStore _

omit [UrlNormalizer] in
/-- A shadow run executes, and does nothing else to the world. -/
theorem within_runShadow {action : Value} {stores : List Store}
    {execute : Stateful PyError τ Artifacts}
    {policy : Policy} {target : Publishing σ} (h : Within R execute) :
    Within (RunState.Relates R) (runShadow action stores execute policy target) := by
  refine within_liftM_bind fun _ _ => (within_outside h).bind fun _ => ?_
  refine within_liftM_bind fun _ _ => within_liftM_bind fun _ _ => ?_
  exact (within_record _).bind fun _ => (within_publish _ _ _).bind fun _ => within_pure _

omit [UrlNormalizer] in
/-- An execution that is published and recorded does nothing more to the world than to execute. -/
theorem within_executeFull {action : Value} {execute : Stateful PyError τ Artifacts}
    {target : Publishing σ} {reason : Str} {lookup : Option LookupOutcome} {killSwitchActive : Bool}
    (h : Within R execute) :
    Within (RunState.Relates R)
      (executeFull action execute target reason lookup killSwitchActive) := by
  refine (within_outside h).bind fun _ => (within_publish _ _ _).bind fun _ => ?_
  refine within_liftM_bind fun _ _ => within_liftM_bind fun _ _ => ?_
  exact (within_record _).bind fun _ => within_pure _

/-- Validation in shadow mode sends a conditional GET, and a GET after a 304. -/
theorem within_validateInShadow {action : Value} {transport : Transport τ} {target : Publishing σ}
    {decisionReason : Str} {candidate : LookupOutcome} {hit : Hit} {validators : Validators}
    (h : transport.Keeps R action) :
    Within (RunState.Relates R)
      (validateInShadow action transport target decisionReason candidate hit validators) := by
  refine within_liftM_bind fun request hrequest => ?_
  refine (within_outside (h.conditionalGet request hrequest _ _)).bind fun response => ?_
  have hafter : Within R (artifactsAfter action transport response) := by
    unfold artifactsAfter
    exact .ite (within_executeHttpFetch h) (.ite (within_ofExcept _) (within_ofExcept _))
  refine (within_outside hafter).bind fun actual => ?_
  have hstore : ∀ manifest recorded, Within (RunState.Relates R)
      (target.storeOutcome action actual manifest validators recorded :
        Stateful PyError (RunState τ σ) Unit) := by
    intro manifest recorded
    unfold Publishing.storeOutcome
    exact .ite (within_putValidation _ _ _) (within_publish _ _ _)
  refine (hstore _ _).bind fun _ => within_liftM_bind fun _ _ => within_liftM_bind fun _ _ => ?_
  exact (within_record _).bind fun _ => within_pure _

/-- With or without a candidate, the requests are those of the action. -/
theorem within_runConditionalHttpShadow {action : Value} {stores : List Store}
    {transport : Transport τ} {policy : Policy} {target : Publishing σ} {decisionReason : Str}
    (h : transport.Keeps R action) :
    Within (RunState.Relates R)
      (runConditionalHttpShadow action stores transport policy target decisionReason) := by
  have hshadow : Within (RunState.Relates R)
      (runShadow action stores (executeHttpFetch action transport) policy target) :=
    within_runShadow (within_executeHttpFetch h)
  refine within_liftM_bind fun candidate _ => ?_
  cases candidate.hit with
  | none => exact hshadow
  | some hit =>
    dsimp only
    cases hit.artifacts.lookup (lit "metadata") with
    | none => exact hshadow
    | some data =>
      exact within_liftM_bind fun validators _ => .ite hshadow (within_validateInShadow h)

/-! ### The background job -/

omit [Sha256] [UrlNormalizer] [IsPreorder τ R] in
/-- The local variables of a job are no part of the world. -/
theorem within_duringRefresh {α : Type} {x : Stateful PyError (RunState τ σ) α}
    (hx : Within (RunState.Relates R) x) : Within (RunState.RelatesFst R) (duringRefresh x) :=
  fun s => hx s.1

omit [Sha256] [UrlNormalizer] in
/-- An assignment to the local variables leaves the world as it is. -/
theorem within_setProgress (f : RefreshProgress → RefreshProgress) :
    Within (RunState.RelatesFst R)
      (setProgress f : Stateful PyError (RunState τ σ × RefreshProgress) Unit) :=
  fun s => refl_of R s.1.world

/-- The job sends one conditional GET and reads the clock. -/
theorem within_refresh {action : Value} {candidate : LookupOutcome} {transport : Transport τ}
    {writer : StoreWriter σ} {producer : Str} {validationTtlSeconds : ℤ}
    {clock : Stateful PyError τ DateTime} (h : transport.Keeps R action) (hclock : Within R clock) :
    Within (RunState.RelatesFst R)
      (refresh action candidate transport writer producer validationTtlSeconds clock) := by
  unfold refresh
  cases candidate.hit with
  | none => exact within_ofExcept _
  | some hit =>
    refine within_liftM_bind fun validators _ => within_liftM_bind fun _ _ => ?_
    refine within_liftM_bind fun request hrequest => ?_
    refine (within_duringRefresh (within_outside
      (h.conditionalGet request hrequest _ _))).bind fun response => ?_
    refine (within_setProgress _).bind fun _ => ?_
    refine (within_duringRefresh (within_outside hclock)).bind fun observedAt => ?_
    refine within_liftM_bind fun freshUntil _ => ?_
    refine .ite ?_ (.ite ?_ (within_ofExcept _))
    · exact (within_duringRefresh (within_onStore _)).bind fun _ => within_setProgress _
    · refine within_liftM_bind fun artifacts _ => (within_setProgress _).bind fun _ => ?_
      exact (within_duringRefresh (within_publish _ _ _)).bind fun _ => within_setProgress _

/-- What follows the job is recorded, whether it has failed or not. -/
theorem within_revalidateHttpCandidate {action : Value} {candidate : LookupOutcome}
    {transport : Transport τ} {writer : StoreWriter σ} {producer : Str} {validationTtlSeconds : ℤ}
    {clock : Stateful PyError τ DateTime} (h : transport.Keeps R action) (hclock : Within R clock) :
    Within (RunState.Relates R)
      (revalidateHttpCandidate action candidate transport writer producer validationTtlSeconds
        clock) := by
  intro s
  have hrefresh : Within (RunState.RelatesFst R)
      (refresh action candidate transport writer producer validationTtlSeconds clock) :=
    within_refresh h hclock
  have hs := hrefresh (s, {})
  unfold revalidateHttpCandidate
  cases hrun : refresh action candidate transport writer producer validationTtlSeconds clock
      (s, {}) with
  | mk result after =>
    rw [hrun] at hs
    -- what is left to do is to record the event
    exact trans_of R hs (within_liftM_bind (fun _ _ => within_record _) after.1)

/-! ### The run -/

namespace HttpCall

variable {call : HttpCall τ σ} {target : Publishing σ} {policy : OperationPolicy}

/-- A fallback executes the action. -/
theorem within_fallBack (h : call.transport.Keeps R call.action) (reason : Str)
    (lookup : Option LookupOutcome) (killSwitchActive : Bool) :
    Within (RunState.Relates R) (call.executeFull target reason lookup killSwitchActive) :=
  within_executeFull (within_executeHttpFetch h)

omit [UrlNormalizer] in
/-- A substitution leaves the world as it is. -/
theorem within_substitute (candidate : LookupOutcome) (hit : Hit) (reason : String)
    (event : EvaluationEvent → EvaluationEvent) :
    Within (RunState.Relates R) (call.substitute candidate hit reason event) := by
  refine within_liftM_bind fun _ _ => within_liftM_bind fun _ _ => ?_
  exact (within_record _).bind fun _ => within_pure _

/-- The conditional request is the only one, whatever its answer is. -/
theorem within_validate (h : call.transport.Keeps R call.action) (candidate : LookupOutcome)
    (hit : Hit) (validators : Validators) :
    Within (RunState.Relates R) (call.validate target candidate hit validators) := by
  refine within_liftM_bind fun request hrequest => ?_
  refine (within_outside (h.conditionalGet request hrequest _ _)).bind fun response => ?_
  refine .ite ?_ (.ite ?_ (within_ofExcept _))
  · refine within_liftM_bind fun artifacts _ => (within_publish _ _ _).bind fun _ => ?_
    exact within_liftM_bind fun _ _ => (within_record _).bind fun _ => within_pure _
  · exact (within_putValidation _ _ _).bind fun _ => within_substitute _ _ _ _

/-- Conditional substitution falls back, or validates. -/
theorem within_conditionalSubstitute (h : call.transport.Keeps R call.action) :
    Within (RunState.Relates R) (call.conditionalSubstitute target policy) := by
  refine within_liftM_bind fun candidate _ => ?_
  cases candidate.hit with
  | none => exact within_fallBack h _ _ _
  | some hit =>
    refine .ite (within_fallBack h _ _ _) (.ite (within_fallBack h _ _ _) ?_)
    exact within_liftM_bind fun validators _ =>
      .ite (within_fallBack h _ _ _) (within_validate h _ _ _)

/-- A refresh that is scheduled is in the hands of the coordinator. -/
theorem within_scheduleRefresh (h : call.transport.Keeps R call.action)
    (hcoordinator : ∀ coordinator ∈ call.coordinator, coordinator.Keeps R)
    (candidate : LookupOutcome) (hit : Hit) (ttl : ℤ) (validators : Validators) :
    Within (RunState.Relates R) (call.scheduleRefresh target policy candidate hit ttl
      validators) := by
  unfold scheduleRefresh
  -- the gates fall back, in the order in which they are asked
  refine .ite (within_fallBack h _ _ _) (.ite (within_fallBack h _ _ _)
    (.ite (within_fallBack h _ _ _) ?_))
  cases hgiven : call.coordinator with
  | none => exact within_fallBack h _ _ _
  | some coordinator =>
    cases call.publishTo with
    | none => exact within_fallBack h _ _ _
    | some writer =>
      have hkeeps := hcoordinator coordinator hgiven
      refine Within.bind (Within.handling ?_ fun _ => within_pure none) fun scheduled => ?_
      · -- the job is handed over, and what it does is up to the coordinator
        refine Within.bind (within_liftM_bind fun key _ => ?_) fun _ => within_pure _
        exact hkeeps.submit key _ (within_revalidateHttpCandidate h hkeeps.clock)
      · cases scheduled with
        | none => exact within_fallBack h _ _ _
        | some scheduled => exact within_substitute _ _ _ _

/-- A stale candidate is refreshed later, or the call falls back. -/
theorem within_staleWhileRevalidate (h : call.transport.Keeps R call.action)
    (hcoordinator : ∀ coordinator ∈ call.coordinator, coordinator.Keeps R) (ttl : ℤ) :
    Within (RunState.Relates R) (call.staleWhileRevalidate target policy ttl) := by
  refine within_liftM_bind fun candidate _ => ?_
  cases candidate.hit with
  | none => exact within_fallBack h _ _ _
  | some hit =>
    refine .ite (within_fallBack h _ _ _) ?_
    split
    · exact within_fallBack h _ _ _
    · exact within_fallBack h _ _ _
    · refine .ite (within_substitute _ _ _ _) (.ite (within_fallBack h _ _ _) ?_)
      exact within_liftM_bind fun validators _ => within_scheduleRefresh h hcoordinator _ _ _ _

/-- Whatever the registry and the stores answer, a run does nothing to the world but what the
requests of its action do, and its coordinator. -/
theorem within_run (h : call.transport.Keeps R call.action)
    (hcoordinator : ∀ coordinator ∈ call.coordinator, coordinator.Keeps R) :
    Within (RunState.Relates R) call.run := by
  refine within_liftM_bind fun _ _ => within_liftM_bind fun _ _ => ?_
  refine within_liftM_bind fun resolution _ => within_liftM_bind fun freshUntil _ => ?_
  cases resolution.policy with
  | none => exact within_fallBack h _ _ _
  | some policy =>
    refine within_liftM_bind fun failure _ => ?_
    cases failure with
    | some reason => exact within_fallBack h _ _ _
    | none =>
      dsimp only
      split
      · exact (within_runConditionalHttpShadow h).bind fun _ => within_pure _
      · exact within_staleWhileRevalidate h hcoordinator _
      · exact within_conditionalSubstitute h

end HttpCall

/-! ### Over the transport of controlled evaluation runs -/

/-- The arguments have the types that the signature of the transport names. -/
inductive FetchRequest.IsTyped : FetchRequest → Prop
  | mk (url accept : Str) (followRedirects : Bool) (maxBytes : ℤ) :
    IsTyped ⟨.str url, .str accept, .bool followRedirects, .int maxBytes⟩

omit [Sha256] in
/-- The arguments in an action that `build_http_fetch_action` has built are typed. -/
theorem isTyped_of_buildHttpFetchAction {url accept : Str} {followRedirects : Bool} {maxBytes : ℤ}
    {vary : List (Str × Value)} {action : Value}
    (h : buildHttpFetchAction url accept followRedirects maxBytes vary = .ok action)
    {request : FetchRequest} (hrequest : fetchRequest action = .ok request) : request.IsTyped := by
  obtain ⟨-, -, h⟩ := Except.bind_eq_ok.mp h
  obtain ⟨-, -, h⟩ := Except.bind_eq_ok.mp h
  obtain ⟨normalized, -, h⟩ := Except.bind_eq_ok.mp h
  cases h
  cases hrequest
  exact .mk _ _ _ _

namespace SafeHTTPTransport

variable [UnicodeTables]

/-- The transport as a run calls it. A call finds the answers that the network has at its time, and
`other` is a call whose arguments are of other types. -/
def fetchTransport (transport : SafeHTTPTransport) (answers : NetworkState → Network)
    (other : FetchRequest → List (Str × Value) → Stateful PyError NetworkState FetchResponse) :
    Transport NetworkState :=
  safeHttpTransport fun request headers s =>
    match request with
    | ⟨.str url, .str accept, .bool followRedirects, .int maxBytes⟩ =>
      transport.request (answers s) url accept followRedirects maxBytes headers false s
    | request => other request headers s

/-- The requests that have been sent since a state are of validated targets. -/
def Extends (transport : SafeHTTPTransport) (s t : NetworkState) : Prop :=
  ∃ more, t.requests = s.requests ++ more ∧ ∀ request ∈ more, transport.Sent request

variable {transport : SafeHTTPTransport}

instance : IsPreorder NetworkState transport.Extends where
  refl s := ⟨[], (List.append_nil _).symm, by simp⟩
  trans s t u := by
    rintro ⟨first, hfirst, hsent⟩ ⟨more, hmore, hmoreSent⟩
    refine ⟨first ++ more, by rw [hmore, hfirst, List.append_assoc], ?_⟩
    exact List.forall_mem_append.mpr ⟨hsent, hmoreSent⟩

omit [Sha256] [UrlNormalizer] in
/-- Whatever the limit, what a call sends are requests of validated targets. -/
theorem SendsAtMost.extends {limit : ℕ} {s t : NetworkState}
    (h : transport.SendsAtMost limit [] s t) : transport.Extends s t := by
  obtain ⟨more, hmore, hsent, -⟩ := h
  exact ⟨more, by rw [hmore, List.append_nil], hsent⟩

omit [Sha256] [UrlNormalizer] [UnicodeTables] in
/-- Both ways of asking end in the request, if they do not raise. -/
theorem keeps_safeHttpTransport {τ : Type} {R : τ → τ → Prop} [IsPreorder τ R]
    {request : FetchRequest → List (Str × Value) → Stateful PyError τ FetchResponse}
    {action : Value}
    (h : ∀ r, fetchRequest action = .ok r → ∀ headers, Within R (request r headers)) :
    (safeHttpTransport request).Keeps R action where
  get r hr := h r hr []
  conditionalGet r hr etag lastModified := by
    unfold safeHttpTransport
    dsimp only
    split
    · exact within_ofExcept _
    · exact within_liftM_bind fun headers _ => h r hr headers

omit [Sha256] [UrlNormalizer] in
/-- The requests of an action with typed arguments are sent to validated targets. -/
theorem keeps_fetchTransport {answers : NetworkState → Network}
    {other : FetchRequest → List (Str × Value) → Stateful PyError NetworkState FetchResponse}
    {action : Value} (h : ∀ request, fetchRequest action = .ok request → request.IsTyped) :
    (transport.fetchTransport answers other).Keeps transport.Extends action := by
  apply keeps_safeHttpTransport
  intro request hrequest headers s
  cases h request hrequest
  exact (sendsAtMost_request _ _ _ _ _ _ _).extends

end SafeHTTPTransport

end

/-! ### The authority of a run -/

section

attribute [local instance] urlNormalizer

/-- A policy run of a built action, over a transport that was made for some hosts: whatever the
policy, the stores, the resolver and the servers answer, every request that it sends goes to one of
these hosts, and its addresses are global. -/
theorem SafeHTTPTransport.exists_host_of_run {σ : Type} [Sha256] [UnicodeTables]
    {transport : SafeHTTPTransport} {allowedHosts : List Str} {timeoutSeconds : PyFloat}
    {maxRedirects : ℤ} {resolver : Resolver} {answers : NetworkState → Network}
    {other : FetchRequest → List (Str × Value) → Stateful PyError NetworkState FetchResponse}
    {url accept : Str} {followRedirects : Bool} {maxBytes : ℤ} {vary : List (Str × Value)}
    {call : HttpCall NetworkState σ}
    (hmake : make allowedHosts timeoutSeconds maxRedirects resolver = .ok transport)
    (hbuilt : buildHttpFetchAction url accept followRedirects maxBytes vary = .ok call.action)
    (htransport : call.transport = transport.fetchTransport answers other)
    (hcoordinator : ∀ coordinator ∈ call.coordinator, coordinator.Keeps transport.Extends)
    (s : RunState NetworkState σ) :
    ∃ more, (call.run s).2.world.requests = s.world.requests ++ more ∧
      ∀ request ∈ more, checkAddresses request.target.addresses = .ok () ∧
        ∃ parsed, urlsplit request.target.url = .ok parsed ∧ ∃ given ∈ allowedHosts,
          normalizedHost given = normalizedHost (parsed.hostname.getD []) := by
  have hkeeps : call.transport.Keeps transport.Extends call.action := by
    rw [htransport]
    exact keeps_fetchTransport fun request => isTyped_of_buildHttpFetchAction hbuilt
  obtain ⟨more, hmore, hsent⟩ := HttpCall.within_run hkeeps hcoordinator s
  refine ⟨more, hmore, fun request hrequest => ?_⟩
  exact ⟨(hsent request hrequest).addresses, (hsent request hrequest).exists_host hmake⟩

end

end OnceMesh
