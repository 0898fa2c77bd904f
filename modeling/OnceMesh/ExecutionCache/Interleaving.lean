import OnceMesh.ExecutionCache.Writes
import OnceMesh.TransitionSystem

/-!
# Interleaved sets, gets and clears

Several bridges share an epoch registry and a store. Each process works on one key at a
time: a set reads the epochs of its namespace in one step and publishes in another, and a get reads
the epochs and then looks up. A call over several keys does this for one key after the other. A
clear is one step; its event says whether the call returns or raises.

`sharedSystem` is the transition system, over any epoch registry and any store. Its state also
records the clears so far, and with every set and get the clears at the moment it read its epochs.
-/

namespace OnceMesh

open Python

/-- Processes are numbered. -/
abbrev ProcessId := ℕ

/-- A call of `set` with one pair. -/
structure SetCall where
  bridge : ExecutionCacheBridge
  key : ExecutionCacheKey
  value : EncodedExecutionValue
  ttl : Value
  now : DateTime

/-- A call of `get` with one key. -/
structure GetCall where
  bridge : ExecutionCacheBridge
  key : ExecutionCacheKey
  now : DateTime

/-- The epochs that a call has read, with the clears at that moment, the last one first. -/
structure Reading where
  epochs : Epochs
  clears : List Cleared

/-- How far a process has come in its call. -/
inductive CallPhase where
  | idle
  /-- A set between its two steps. -/
  | setting (call : SetCall) (ttl : Option ℤ) (reading : Reading)
  /-- A get between its two steps. -/
  | getting (call : GetCall) (reading : Reading)

/-- A get that has finished. -/
structure FinishedGet where
  call : GetCall
  reading : Reading
  result : Except PyError (Option EncodedExecutionValue)

/-- What can happen next. -/
inductive SharedEvent where
  | beginSet (p : ProcessId) (call : SetCall)
  | publish (p : ProcessId)
  | beginGet (p : ProcessId) (call : GetCall)
  | lookUp (p : ProcessId)
  | clear (namespaces : Option (List (List Str))) (returns : Bool)

variable [Sha256]

/-- A value in the store, with what its set had read. -/
structure SharedWrite where
  write : CacheWrite
  clears : List Cleared

/-- The registry, the store and the processes. The last four fields only record what happened. -/
structure SharedState (σ β : Type) where
  registry : β
  store : σ
  phase : ProcessId → CallPhase
  clears : List Cleared
  writes : List SharedWrite
  gets : List FinishedGet
  hashed : List Bytes

namespace SharedState

variable {σ β : Type}

/-- A process moves to another phase. -/
def setPhase (s : SharedState σ β) (p : ProcessId) (phase : CallPhase) : SharedState σ β :=
  { s with phase := Function.update s.phase p phase }

end SharedState

variable {σ β : Type} [BridgeStore σ]

/-- One step of the bridges over a registry and a store. -/
def sharedStep (registry : EpochRegistry β) (s : SharedState σ β) :
    SharedEvent → Option (SharedState σ β)
  | .beginSet p call =>
    match s.phase p with
    | .idle =>
      match call.bridge.enabled, checkTtl call.ttl with
      | true, .ok (some ttl) =>
        match registry.epochs s.registry call.key.ns with
        | .ok epochs => some (s.setPhase p (.setting call ttl ⟨epochs, s.clears⟩))
        | .error _ => some s
      -- the call returns, or raises, before it reads the epochs
      | _, _ => some s
    | _ => none
  | .publish p =>
    match s.phase p with
    | .setting call ttl reading =>
      let action := call.bridge.actionFor reading.epochs call.key
      some { s.setPhase p .idle with
        store := (call.bridge.publishValue BlobStore.puts.writer call.now action call.value ttl
          s.store).2
        writes := ((CacheWrite.make call.bridge reading.epochs call.key call.value call.now
          ttl).toOption.toList.map fun w => ⟨w, reading.clears⟩) ++ s.writes
        hashed := hashedFor call.bridge reading.epochs call.key call.value ++ s.hashed }
    | _ => none
  | .beginGet p call =>
    match s.phase p with
    | .idle =>
      if call.bridge.enabled then
        match registry.epochs s.registry call.key.ns with
        | .ok epochs => some (s.setPhase p (.getting call ⟨epochs, s.clears⟩))
        | .error _ => some s
      else some s
    | _ => none
  | .lookUp p =>
    match s.phase p with
    | .getting call reading =>
      let action := call.bridge.actionFor reading.epochs call.key
      some { s.setPhase p .idle with
        gets := ⟨call, reading,
          call.bridge.lookUp [BlobStore.view s.store] call.now action⟩ :: s.gets
        hashed := canonicalBytes action :: s.hashed }
    | _ => none
  | .clear namespaces returns =>
    if (registry.clear namespaces s.registry).1.isOk = returns then
      some { s with
        registry := (registry.clear namespaces s.registry).2
        clears := registry.cleared namespaces returns ++ s.clears }
    else none

/-- The bridges over a registry, starting with an empty store. -/
def sharedSystem (σ : Type) [BridgeStore σ] (registry : EpochRegistry β) (name : Str) :
    TransitionSystem (SharedState σ β) SharedEvent where
  init :=
    { registry := registry.init, store := BlobStore.empty name, phase := fun _ => .idle,
      clears := [], writes := [], gets := [], hashed := [] }
  step := sharedStep registry

end OnceMesh
