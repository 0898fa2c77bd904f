import OnceMesh.Authorization
import OnceMesh.Cache
import OnceMesh.ExecutionCache.Envelope
import OnceMesh.ExecutionCache.Epochs
import OnceMesh.Publication

/-!
# The execution cache bridge

`ExecutionCacheBridge` publishes the values of a workflow runtime as results of an action, and looks
them up again. The action is made of the configuration of the bridge, the key, and the clear epochs
of its namespace, which a registry counts.

`get` and `set` read the epochs of one key after the other; `lookUp` and `publishValue` are what
they do with a key once its epochs are read. The clock is read once, at the start of a call.
-/

namespace OnceMesh

open Python

/-- `VALUE_MEDIA_TYPE`. -/
def valueMediaType : Str := lit "application/vnd.oncemesh.execution-cache-value-v1"

/-- `ExecutionCacheKey`. -/
structure ExecutionCacheKey where
  ns : List Str
  key : Str
  ns_valid : validateNamespace ns = .ok ()
  key_nonempty : key ≠ []
  deriving DecidableEq

/-- `ExecutionCacheBridge`, apart from its stores, its registry and its clock. -/
structure ExecutionCacheBridge where
  runtime : Str
  serializer : Str
  authorizationPartition : Str
  producer : Str
  enabled : Bool := true
  runtime_nonempty : runtime ≠ []
  serializer_nonempty : serializer ≠ []
  partition_valid : validateAuthorizationPartition authorizationPartition = .ok ()
  producer_nonempty : producer ≠ []

/-- An exception that a get contains as a miss. -/
def isContained : PyError → Bool
  | .keyError _ | .typeError _ => true
  | e => e.isValueError

/-- `except StoreReadError`. -/
def isStoreReadError : PyError → Bool
  | .other className _ => className = lit "StoreReadError"
  | _ => false

/-- The check of a TTL: `none` for an entry that is not published. -/
def checkTtl : Value → Except PyError (Option (Option ℤ))
  | .none => .ok (some none)
  | .int ttl => .ok (if ttl ≤ 0 then none else some (some ttl))
  | _ => raiseValueError "TTL must be an integer number of seconds or null"

/-- `now + timedelta(seconds=ttl) if ttl is not None else None`. -/
def ttlBoundary (now : DateTime) : Option ℤ → Except PyError (Option DateTime)
  | none => .ok none
  | some ttl => some <$> now.addSeconds ttl

namespace ExecutionCacheBridge

variable (bridge : ExecutionCacheBridge)

/-- `action_for`, once the epochs are read. -/
def actionFor (epochs : Epochs) (key : ExecutionCacheKey) : Value :=
  .dict [(lit "spec_version", .str (lit "oncemesh.action/v0")),
    (lit "operation", .dict [(lit "name", .str (lit "framework.execution-cache")),
      (lit "version", .str (lit "1"))]),
    (lit "inputs", .dict [(lit "runtime", .str bridge.runtime),
      (lit "namespace", .list (key.ns.map .str)), (lit "key", .str key.key)]),
    (lit "executor", .dict [(lit "name", .str (lit "oncemesh.execution-cache-bridge")),
      (lit "version", .str (lit "0")),
      (lit "config", .dict [(lit "serializer", .str bridge.serializer),
        (lit "global_epoch", .int epochs.1), (lit "namespace_epoch", .int epochs.2)])]),
    (lit "output_schema", .str (lit "oncemesh.execution-cache-value/v1")),
    (lit "vary", .dict [(lit "authorization_partition", .str bridge.authorizationPartition)])]

/-- The policy of a lookup. -/
def policy (now : DateTime) : Policy where
  now := now
  trustedProducers := some {bridge.producer}
  permitNoExpiry := true

/-- What is published for a value. -/
def resultData (now : DateTime) (envelope : Bytes) (freshUntil : Option DateTime) : ResultData where
  artifacts := .ofPairs [(lit "value", (envelope, valueMediaType))]
  producer := bridge.producer
  producedAt := now
  freshUntil := freshUntil

end ExecutionCacheBridge

/-- The value of a hit. -/
def readHit (hit : Hit) : Except PyError (Option EncodedExecutionValue) :=
  match hit.artifacts, hit.manifest.fields.artifacts with
  | [(name, data)], descriptor :: _ =>
    if name ≠ lit "value" ∨ descriptor.name ≠ lit "value" ∨
        descriptor.mediaType ≠ valueMediaType then .ok none
    else
      match unpackExecutionValue data with
      | .ok value => .ok (some value)
      | .error e => if isContained e then .ok none else .error e
  | _, _ => .ok none

section

variable [Sha256] {β σ : Type}

namespace ExecutionCacheBridge

variable (bridge : ExecutionCacheBridge)

/-- The body of the loop of `get`, once the action is known. -/
def lookUp (stores : List Store) (now : DateTime) (action : Value) :
    Except PyError (Option EncodedExecutionValue) :=
  match reuse action stores (bridge.policy now) with
  | .ok outcome =>
    match outcome.hit with
    | none => .ok none
    | some hit => readHit hit
  | .error e => if isStoreReadError e then .ok none else .error e

/-- The loop of `get`. -/
def getEach (registry : EpochRegistry β) (b : β) (stores : List Store) (now : DateTime) :
    List ExecutionCacheKey → Dict ExecutionCacheKey EncodedExecutionValue →
    Except PyError (Dict ExecutionCacheKey EncodedExecutionValue)
  | [], results => .ok results
  | key :: rest, results => do
    let epochs ← registry.epochs b key.ns
    let found ← bridge.lookUp stores now (bridge.actionFor epochs key)
    getEach registry b stores now rest (found.elim results fun value => results.set key value)

/-- `get`. -/
def get (registry : EpochRegistry β) (b : β) (stores : List Store) (now : DateTime)
    (keys : List ExecutionCacheKey) :
    Except PyError (Dict ExecutionCacheKey EncodedExecutionValue) :=
  if bridge.enabled then bridge.getEach registry b stores now keys .empty else .ok .empty

/-- The body of the loop of `set`, once the action is known and the TTL is checked. -/
def publishValue (writer : StoreWriter σ) (now : DateTime) (action : Value)
    (value : EncodedExecutionValue) (ttl : Option ℤ) : Stateful PyError σ Unit := do
  let envelope ← packExecutionValue value
  let freshUntil ← ttlBoundary now ttl
  let _ ← publishResult writer action (bridge.resultData now envelope freshUntil)

/-- The loop of `set`. -/
def setEach (registry : EpochRegistry β) (b : β) (writer : StoreWriter σ) (now : DateTime) :
    List (ExecutionCacheKey × EncodedExecutionValue × Value) → Stateful PyError σ Unit
  | [] => pure ()
  | (key, value, ttl) :: rest => do
    match ← checkTtl ttl with
    | none => setEach registry b writer now rest
    | some ttl => do
      let epochs ← registry.epochs b key.ns
      bridge.publishValue writer now (bridge.actionFor epochs key) value ttl
      setEach registry b writer now rest

/-- `set`. -/
def set (registry : EpochRegistry β) (b : β) (writer : StoreWriter σ) (now : DateTime)
    (pairs : Dict ExecutionCacheKey (EncodedExecutionValue × Value)) : Stateful PyError σ Unit :=
  if bridge.enabled then bridge.setEach registry b writer now pairs.entries else pure ()

end ExecutionCacheBridge

end

end OnceMesh
