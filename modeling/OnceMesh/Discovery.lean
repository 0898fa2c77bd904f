import OnceMesh.Federation.Identity
import OnceMesh.Python.Decimal
import OnceMesh.Python.Urllib

/-!
# The public mesh directory

The directory is a reviewed document that lists the public meshes, in the order of their peer
identifiers. Their endpoints are HTTPS origins of public hosts.
-/

namespace OnceMesh.Discovery

open Python DocumentValidation

/-! ### Fields -/

/-- `PEER_ID_PATTERN.fullmatch`. -/
def isPeerId (s : Str) : Bool :=
  match s with
  | [] => false
  | c :: rest => isAlnum c && rest.length ≤ 127 && rest.all fun c =>
    isAlnum c || c = 0x2E || c = 0x5F || c = 0x2D
where
  /-- `[A-Za-z0-9]`. -/
  isAlnum (c : CodePoint) : Bool :=
    decide (0x30 ≤ c.val ∧ c.val ≤ 0x39 ∨ 0x41 ≤ c.val ∧ c.val ≤ 0x5A ∨ 0x61 ≤ c.val ∧ c.val ≤ 0x7A)

/-- `DECIMAL_PATTERN.fullmatch`. -/
def isCanonicalDecimal (s : Str) : Bool :=
  let whole := s.takeWhile isDigit
  let rest := s.dropWhile isDigit
  whole ≠ [] && (whole = lit "0" || whole.head? ≠ some 0x30) &&
    (rest = [] || rest.head? = some 0x2E && rest.tail ≠ [] && rest.tail.all isDigit)

/-- `RATIO_PATTERN.fullmatch`. -/
def isRatio (s : Str) : Bool :=
  s = lit "1.000000" || (startsWith s (lit "0.") && s.length = 8 && (s.drop 2).all isDigit)

/-- `MESH_STATUSES`. -/
def meshStatuses : List (Str × Unit) :=
  [(lit "listed", ()), (lit "observed", ()), (lit "suspended", ()), (lit "retired", ())]

/-- `_bounded_text`. -/
def boundedText (value : Value) (label : String) (maximum : ℕ) : Except PyError Str :=
  match value with
  | .str s =>
    if s = [] ∨ maximum < s.length then
      raiseValueError (label ++ " must be a non-empty string of at most " ++ toString maximum ++
        " characters")
    else if s.any fun c => c.val < 0x20 then
      raiseValueError (label ++ " must not contain control characters")
    else .ok s
  | _ => raiseValueError (label ++ " must be a non-empty string of at most " ++ toString maximum ++
      " characters")

/-- The host is neither `localhost` nor an address that is not global. -/
def isPublicHost [UnicodeTables] (hostname : Str) : Bool :=
  let host := lowerText (hostname.reverse.dropWhile (· = 0x2E)).reverse
  host ≠ lit "localhost" && (IpAddress.ofText? host).all IpAddress.isGlobal

/-- `_https_url`. -/
def httpsUrl [UnicodeTables] (value : Value) (label : String) (originOnly : Bool) :
    Except PyError Str :=
  match value with
  | .str s => do
    raiseIf (2048 < s.length) (label ++ " must be a bounded HTTPS URL")
    let parsed ← urlsplit s
    let _ ← parsed.port.mapError fun _ => .valueError (lit (label ++ " port is invalid")) []
    raiseIf (parsed.scheme ≠ lit "https" || parsed.hostname.getD [] = [] ||
        parsed.username.isSome || parsed.password.isSome || parsed.query ≠ [] ||
        parsed.fragment ≠ [] || (originOnly && parsed.path ≠ [] && parsed.path ≠ lit "/"))
      (label ++ " must be an HTTPS" ++ (if originOnly then " origin" else " URL") ++
        " without credentials, query, or fragment")
    raiseIf (!isPublicHost (parsed.hostname.getD [])) (label ++ " must identify a public host")
    pure s
  | _ => raiseValueError (label ++ " must be a bounded HTTPS URL")

/-- A string of some length that is not empty. -/
def boundedString? (maximumLength : ℕ) (value : Value) : Option Str :=
  match value with
  | .str s => if s = [] ∨ maximumLength < s.length then none else some s
  | _ => none

/-- `_unique_texts`. -/
def uniqueTexts (value : Value) (label : String) (maximumItems maximumLength : ℕ) :
    Except PyError (List Str) :=
  let texts? := match value with
    | .list items =>
      if items = [] ∨ maximumItems < items.length then none
      else (items.mapM (boundedString? maximumLength)).filter fun texts => texts.Nodup
    | _ => none
  match texts? with
  | some texts => .ok texts
  | none => raiseValueError (label ++ " must be a bounded non-empty unique string array")

/-- `_decimal`. -/
def decimal (value : Value) (label : String) (pattern : Str → Bool) : Except PyError Decimal :=
  match value with
  | .str s =>
    match if pattern s then Decimal.ofText? s else none with
    | some d => .ok d
    | none => raiseValueError (label ++ " must be a canonical non-negative decimal string")
  | _ => raiseValueError (label ++ " must be a canonical non-negative decimal string")

/-! ### Statistics -/

/-- A non-negative integer among the statistics. -/
def statsInteger (value : Value) (field : String) : Except PyError ℕ :=
  match value.get (lit field) with
  | .int n =>
    if n < 0 then raiseValueError ("statistics " ++ field ++ " must be a non-negative integer")
    else .ok n.toNat
  | _ => raiseValueError ("statistics " ++ field ++ " must be a non-negative integer")

/-- `d.quantize(Decimal("0.000001"), rounding=ROUND_HALF_UP)` for a number up to 1. -/
def quantizeMillionths (d : Decimal) : Decimal :=
  if -6 ≤ d.exponent then ⟨d.coefficient * 10 ^ (d.exponent + 6).toNat, -6⟩
  else
    let unit := 10 ^ (-6 - d.exponent).toNat
    ⟨(2 * d.coefficient + unit) / (2 * unit), -6⟩

/-- `EVIDENCE_KINDS`. -/
def evidenceKinds : List (Str × Unit) :=
  [(lit "operator-reported", ()), (lit "directory-observed", ())]

/-- `_validate_stats`. -/
def validateStats (value : Value) (status : Str) : Except PyError Unit :=
  match value with
  | .none =>
    raiseIf (status = lit "observed") "observed meshes require directory-observed statistics"
  | value => do
    exactKeys value
      [lit "evidence_kind", lit "window_started_at", lit "window_ended_at", lit "observed_at",
        lit "sample_size", lit "successful_requests", lit "bytes_served", lit "availability_ratio",
        lit "latency_ms"] "mesh statistics"
    let kind := value.get (lit "evidence_kind")
    raiseIf (← kind.lookupIn evidenceKinds).isNone "statistics evidence_kind is unsupported"
    raiseIf (status = lit "observed" && !kind.eqStr (lit "directory-observed"))
      "observed meshes require directory-observed statistics"
    let started ←
      parseCanonicalUtc (value.get (lit "window_started_at")) "statistics window_started_at"
    let ended ← parseCanonicalUtc (value.get (lit "window_ended_at")) "statistics window_ended_at"
    let observed ← parseCanonicalUtc (value.get (lit "observed_at")) "statistics observed_at"
    raiseIf (ended ≤ started || observed < ended) "statistics timestamps are not ordered"
    let sampleSize ← statsInteger value "sample_size"
    let successfulRequests ← statsInteger value "successful_requests"
    let _ ← statsInteger value "bytes_served"
    raiseIf (sampleSize < 20) "statistics sample_size must be at least 20"
    raiseIf (sampleSize < successfulRequests) "successful_requests must not exceed sample_size"
    let ratio ← decimal (value.get (lit "availability_ratio")) "availability_ratio" isRatio
    let measured ← (Decimal.ofNat successfulRequests).div sampleSize
    raiseIf (ratio.value ≠ (quantizeMillionths measured).value)
      "availability_ratio must equal successful_requests divided by sample_size"
    let latency := value.get (lit "latency_ms")
    exactKeys latency [lit "p50", lit "p95"] "statistics latency_ms"
    let p50 ← decimal (latency.get (lit "p50")) "latency p50" isCanonicalDecimal
    let p95 ← decimal (latency.get (lit "p95")) "latency p95" isCanonicalDecimal
    raiseIf (¬p50 ≤ p95) "latency p95 must be greater than or equal to p50"

/-! ### Meshes -/

/-- What the rest of the code reads of a mesh. -/
structure PublicMesh where
  peerId : Str
  endpoint : Str
  status : Str
  deriving DecidableEq

/-- The triple that identifies an operation of a mesh. -/
def meshOperation (operation : Value) : Except PyError (Str × Str × Str) := do
  exactKeys operation [lit "name", lit "version", lit "output_schema"] "mesh operation"
  let name ← boundedText (operation.get (lit "name")) "operation name" 200
  let version ← boundedText (operation.get (lit "version")) "operation version" 100
  let outputSchema ← boundedText (operation.get (lit "output_schema")) "operation output_schema" 300
  pure (name, version, outputSchema)

/-- A non-empty array of a bounded length. -/
def boundedArray (value : Value) (maximum : ℕ) (message : String) : Except PyError (List Value) :=
  match value with
  | .list items =>
    if items = [] ∨ maximum < items.length then raiseValueError message else .ok items
  | _ => raiseValueError message

/-- The status of a mesh. -/
def requireStatus (value : Value) : Except PyError Str := do
  raiseIf (← value.lookupIn meshStatuses).isNone "mesh status is unsupported"
  match value with
  | .str s => pure s
  | _ => raiseValueError "mesh status is unsupported"

/-- The peer identifier of a mesh. -/
def requirePeerId (value : Value) : Except PyError Str :=
  match value with
  | .str s => if isPeerId s then .ok s else raiseValueError "mesh peer_id is invalid"
  | _ => raiseValueError "mesh peer_id is invalid"

variable [Sha256] [UnicodeTables]

/-- The loop over the receipt identities; `keys` are the key identifiers so far. -/
def checkReceiptIdentities (peerId : Str) (keys : List Str) : List Value → Except PyError Unit
  | [] => .ok ()
  | value :: rest => do
    let identity ← Federation.validateFederationIdentity value (lit "receipt")
    raiseIf (identity.peerId ≠ peerId) "receipt identity peer_id does not match mesh peer_id"
    raiseIf (identity.keyId ∈ keys) "receipt identity key IDs must be unique"
    checkReceiptIdentities peerId (identity.keyId :: keys) rest

/-- `_validate_mesh`. -/
def validateMesh (value : Value) : Except PyError PublicMesh := do
  exactKeys value
    [lit "peer_id", lit "display_name", lit "description", lit "operator", lit "endpoint",
      lit "regions", lit "status", lit "protocols", lit "operations", lit "availability_identity",
      lit "receipt_identities", lit "stats", lit "submitted_at"] "mesh profile"
  let peerId ← requirePeerId (value.get (lit "peer_id"))
  let _ ← boundedText (value.get (lit "display_name")) "mesh display_name" 120
  let _ ← boundedText (value.get (lit "description")) "mesh description" 500
  let operator := value.get (lit "operator")
  exactKeys operator [lit "name", lit "website"] "mesh operator"
  let _ ← boundedText (operator.get (lit "name")) "operator name" 120
  let _ ← httpsUrl (operator.get (lit "website")) "operator website" false
  let endpoint ← httpsUrl (value.get (lit "endpoint")) "mesh endpoint" true
  let _ ← uniqueTexts (value.get (lit "regions")) "mesh regions" 32 80
  let status ← requireStatus (value.get (lit "status"))
  let _ ← uniqueTexts (value.get (lit "protocols")) "mesh protocols" 32 200
  let operations ← boundedArray (value.get (lit "operations")) 1000
    "mesh operations must be a bounded non-empty array"
  let operationKeys ← operations.mapM meshOperation
  raiseIf (¬operationKeys.Nodup) "mesh operations must be unique"
  let availability ← Federation.validateFederationIdentity
    (value.get (lit "availability_identity")) (lit "availability")
  raiseIf (availability.peerId ≠ peerId)
    "availability identity peer_id does not match mesh peer_id"
  let receipts ← boundedArray (value.get (lit "receipt_identities")) 100
    "receipt_identities must be a bounded non-empty array"
  checkReceiptIdentities peerId [] receipts
  validateStats (value.get (lit "stats")) status
  let _ ← parseCanonicalUtc (value.get (lit "submitted_at")) "mesh submitted_at"
  pure { peerId, endpoint, status }

/-- `endpoint.rstrip("/")`. -/
def PublicMesh.origin (mesh : PublicMesh) : Str :=
  (mesh.endpoint.reverse.dropWhile (· = 0x2F)).reverse

/-- An array of a bounded length. -/
def requireMeshes (value : Value) : Except PyError (List Value) :=
  match value with
  | .list items =>
    if 10000 < items.length then raiseValueError "directory meshes must be a bounded array"
    else .ok items
  | _ => raiseValueError "directory meshes must be a bounded array"

/-- `validate_public_mesh_directory`. -/
def validatePublicMeshDirectory (document : Value) : Except PyError (List PublicMesh) := do
  exactKeys document [lit "spec_version", lit "generated_at", lit "directory", lit "meshes"]
    "public directory"
  raiseIf (!(document.get (lit "spec_version")).eqStr (lit "oncemesh.public-mesh-directory/v0"))
    "unsupported public directory version"
  let _ ← parseCanonicalUtc (document.get (lit "generated_at")) "directory generated_at"
  let directory := document.get (lit "directory")
  exactKeys directory [lit "name", lit "repository", lit "policy_url"] "directory metadata"
  let _ ← boundedText (directory.get (lit "name")) "directory name" 120
  let _ ← httpsUrl (directory.get (lit "repository")) "directory repository" false
  let _ ← httpsUrl (directory.get (lit "policy_url")) "directory policy_url" false
  let items ← requireMeshes (document.get (lit "meshes"))
  let meshes ← items.mapM validateMesh
  let peerIds := meshes.map PublicMesh.peerId
  raiseIf (peerIds ≠ sortedTexts peerIds) "directory meshes must be sorted by peer_id"
  raiseIf (¬peerIds.Nodup) "directory peer IDs must be unique"
  raiseIf (¬(meshes.map fun mesh => lowerText mesh.origin).Nodup)
    "directory endpoints must be unique"
  pure meshes

end OnceMesh.Discovery
