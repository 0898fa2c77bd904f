import OnceMesh.Discovery
import OnceMesh.Python.Float.Arithmetic

/-!
# Reachability of public meshes

The monitor probes the active meshes of the directory and writes a snapshot with one observation a
mesh. It validates the snapshot before it returns it, and the validator has a table of its own of
which states go with which fields.
-/

namespace OnceMesh.MeshStatus

open Python Discovery DocumentValidation

/-- `STATUS_PATH`. -/
def statusPath : Str := lit "/v0/availability"

/-- `ACTIVE_REGISTRY_STATUSES`. -/
def activeRegistryStatuses : List Str := [lit "listed", lit "observed"]

/-- `EXPECTED_HTTP_STATUSES`. -/
def expectedHttpStatuses : List ℤ := [200, 401]

/-- `STATUS_STATES`. -/
def statusStates : List (Str × Unit) :=
  [(lit "up", ()), (lit "degraded", ()), (lit "down", ()), (lit "not_checked", ())]

/-- Whether a mesh is probed. -/
def isActive (mesh : PublicMesh) : Bool := mesh.status ∈ activeRegistryStatuses

/-- The URL that is probed. -/
def target (mesh : PublicMesh) : Str := mesh.origin ++ statusPath

/-- `StatusProbe`: the status and the response time in milliseconds, or an exception. -/
abbrev StatusProbe := Str → PyFloat → Except PyError (ℤ × ℤ)

/-! ### Validation -/

/-- An integer within bounds, and no `bool`. -/
def integerWithin (value : Value) (low high : ℤ) (message : String) : Except PyError ℤ :=
  match value with
  | .int n => if low ≤ n ∧ n ≤ high then .ok n else raiseValueError message
  | _ => raiseValueError message

/-- What was observed goes with the state of an active mesh. -/
def checkOutcome (state responseTime httpStatus detail : Value) : Except PyError Unit :=
  if state.eqStr (lit "down") then
    raiseIf (!responseTime.isNone || !httpStatus.isNone || !detail.eqStr (lit "network-failure"))
      "down status observation is inconsistent"
  else do
    let _ ← integerWithin responseTime 0 30000 "status response time is invalid"
    let status ← integerWithin httpStatus 100 599 "status HTTP response is invalid"
    raiseIf
      (if status ∈ expectedHttpStatuses then
        !(state.eqStr (lit "up") && detail.eqStr (lit "expected-protocol-response"))
      else !(state.eqStr (lit "degraded") && detail.eqStr (lit "unexpected-http-response")))
      "HTTP status observation is inconsistent"

/-- The fields of an observation go with its state. -/
def checkState (generatedAt : DateTime) (mesh : PublicMesh)
    (state checked responseTime httpStatus detail : Value) : Except PyError Unit :=
  if state.eqStr (lit "not_checked") then
    raiseIf (isActive mesh || !(checked.isNone && responseTime.isNone && httpStatus.isNone) ||
        !detail.eqStr (lit "registry-inactive"))
      "inactive status observation is inconsistent"
  else do
    raiseIf (!isActive mesh || checked.isNone) "active status observation is inconsistent"
    let checkedAt ← parseCanonicalUtc checked "status checked_at"
    raiseIf (generatedAt < checkedAt) "status observation is newer than its snapshot"
    checkOutcome state responseTime httpStatus detail

/-- The checks of one observation against its mesh. -/
def checkObservation (generatedAt : DateTime) (mesh : PublicMesh) (observation : Value) :
    Except PyError Unit := do
  exactKeys observation
    [lit "peer_id", lit "registry_status", lit "state", lit "checked_at", lit "response_time_ms",
      lit "http_status", lit "detail"] "status observation"
  raiseIf (!(observation.get (lit "peer_id")).eqStr mesh.peerId ||
      !(observation.get (lit "registry_status")).eqStr mesh.status)
    "status observation does not match its directory entry"
  let state := observation.get (lit "state")
  raiseIf ((← state.lookupIn statusStates).isNone ||
      (← (observation.get (lit "registry_status")).lookupIn meshStatuses).isNone)
    "status observation state is invalid"
  checkState generatedAt mesh state (observation.get (lit "checked_at"))
    (observation.get (lit "response_time_ms")) (observation.get (lit "http_status"))
    (observation.get (lit "detail"))

/-- The loop over the meshes and the observations, which are as many. -/
def checkObservations (generatedAt : DateTime) :
    List PublicMesh → List Value → Except PyError Unit
  | [], [] => .ok ()
  | mesh :: meshes, observation :: observations => do
    checkObservation generatedAt mesh observation
    checkObservations generatedAt meshes observations
  | _, _ => raiseValueError "status observations must match the directory"

/-- The checks of the `monitor` field. -/
def checkMonitor (monitor : Value) : Except PyError Unit := do
  exactKeys monitor
    [lit "name", lit "method", lit "path", lit "schedule_minutes", lit "timeout_ms",
      lit "runner_region"] "status monitor"
  raiseIf (!(monitor.get (lit "name")).eqStr (lit "OnceMesh directory monitor") ||
      !(monitor.get (lit "method")).eqStr (lit "unauthenticated-https") ||
      !(monitor.get (lit "path")).eqStr statusPath)
    "status monitor methodology is unsupported"
  let _ ← integerWithin (monitor.get (lit "schedule_minutes")) 5 1440
    "status monitor schedule is invalid"
  let _ ← integerWithin (monitor.get (lit "timeout_ms")) 100 30000
    "status monitor timeout is invalid"
  match monitor.get (lit "runner_region") with
  | .str region =>
    raiseIf (region = [] || 80 < region.length) "status monitor runner region is invalid"
  | _ => raiseValueError "status monitor runner region is invalid"

variable [Sha256] [UnicodeTables]

/-- `validate_public_mesh_status`. -/
def validatePublicMeshStatus (snapshot directory : Value) : Except PyError Unit := do
  let meshes ← validatePublicMeshDirectory directory
  exactKeys snapshot [lit "spec_version", lit "generated_at", lit "monitor", lit "meshes"]
    "status snapshot"
  raiseIf (!(snapshot.get (lit "spec_version")).eqStr (lit "oncemesh.public-mesh-status/v0"))
    "unsupported public mesh status version"
  let generatedAt ← parseCanonicalUtc (snapshot.get (lit "generated_at")) "status generated_at"
  checkMonitor (snapshot.get (lit "monitor"))
  match snapshot.get (lit "meshes") with
  | .list observations =>
    raiseIf (observations.length ≠ meshes.length) "status observations must match the directory"
    checkObservations generatedAt meshes observations
  | _ => raiseValueError "status observations must match the directory"

/-! ### Generation -/

/-- One item of `meshes`. -/
def observationOf (mesh : PublicMesh) (state : String) (checkedAt responseTimeMs httpStatus : Value)
    (detail : String) : Value :=
  .dict [(lit "peer_id", .str mesh.peerId), (lit "registry_status", .str mesh.status),
    (lit "state", .str (lit state)), (lit "checked_at", checkedAt),
    (lit "response_time_ms", responseTimeMs), (lit "http_status", httpStatus),
    (lit "detail", .str (lit detail))]

/-- `_observation`. -/
def observation (checkedAt : Str) (timeoutSeconds : PyFloat) (probe : StatusProbe)
    (mesh : PublicMesh) : Value :=
  if !isActive mesh then
    observationOf mesh "not_checked" .none .none .none "registry-inactive"
  else
    match probe (target mesh) timeoutSeconds with
    -- The snapshot records no exception detail.
    | .error _ => observationOf mesh "down" (.str checkedAt) .none .none "network-failure"
    | .ok (httpStatus, responseTimeMs) =>
      if httpStatus ∈ expectedHttpStatuses then
        observationOf mesh "up" (.str checkedAt) (.int responseTimeMs) (.int httpStatus)
          "expected-protocol-response"
      else
        observationOf mesh "degraded" (.str checkedAt) (.int responseTimeMs) (.int httpStatus)
          "unexpected-http-response"

/-- The parameters of the monitor. -/
structure Monitor where
  timeoutSeconds : PyFloat
  scheduleMinutes : ℤ
  runnerRegion : Str
  concurrency : ℤ

/-- The parameters that are accepted. -/
def Monitor.check (monitor : Monitor) : Except PyError Unit := do
  raiseIf (monitor.timeoutSeconds.lt (.ofDecimal false 1 (-1)) ||
      (PyFloat.ofDecimal false 30 0).lt monitor.timeoutSeconds)
    "status timeout must be between 0.1 and 30 seconds"
  raiseIf (monitor.scheduleMinutes < 5 || 1440 < monitor.scheduleMinutes)
    "status schedule must be between 5 and 1440 minutes"
  raiseIf (monitor.concurrency < 1 || 8 < monitor.concurrency)
    "status concurrency must be between 1 and 8"
  raiseIf (monitor.runnerRegion = [] || 80 < monitor.runnerRegion.length)
    "runner region must be a bounded non-empty string"

/-- The `monitor` field. -/
def Monitor.document (monitor : Monitor) (timeoutMs : ℤ) : Value :=
  .dict [(lit "name", .str (lit "OnceMesh directory monitor")),
    (lit "method", .str (lit "unauthenticated-https")), (lit "path", .str statusPath),
    (lit "schedule_minutes", .int monitor.scheduleMinutes), (lit "timeout_ms", .int timeoutMs),
    (lit "runner_region", .str monitor.runnerRegion)]

/-- The snapshot. -/
def snapshotOf (generatedAt : Str) (monitor : Value) (observations : List Value) : Value :=
  .dict [(lit "spec_version", .str (lit "oncemesh.public-mesh-status/v0")),
    (lit "generated_at", .str generatedAt), (lit "monitor", monitor),
    (lit "meshes", .list observations)]

/-- `generate_public_mesh_status`, with the readings of the clock before and after the probes.
`executor.map` returns the observations in the order of the meshes. -/
def generatePublicMeshStatus (directory : Value) (monitor : Monitor) (probe : StatusProbe)
    (startedAt finishedAt : DateTime) : Except PyError Value := do
  let meshes ← validatePublicMeshDirectory directory
  raiseIf (500 < (meshes.filter isActive).length) "active mesh count exceeds 500"
  monitor.check
  let observations := meshes.map
    (observation (formatCanonicalUtc startedAt) monitor.timeoutSeconds probe)
  let timeoutMs ← (monitor.timeoutSeconds.mulNat 1000).round
  let snapshot := snapshotOf (formatCanonicalUtc finishedAt) (monitor.document timeoutMs)
    observations
  validatePublicMeshStatus snapshot directory
  pure snapshot

end OnceMesh.MeshStatus
