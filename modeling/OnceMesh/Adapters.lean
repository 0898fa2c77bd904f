import OnceMesh.Python.Stateful
import OnceMesh.Publication

/-!
# HTTP fetches

The `http.fetch/1` operation: `executeHttpFetch` makes one GET and turns the response into
artifacts. The network is a parameter, a `Transport` over a state of its own; what
`SafeHTTPTransport` checks of the validators of a conditional GET is `conditionalHeaders`.
-/

namespace OnceMesh

open Python

/-- `normalize_https_url`, which is left to the URL parser and the IDNA codec of Python. -/
class UrlNormalizer where
  /-- The normalized URL. -/
  normalizeHttpsUrl : Str → Except PyError Str

/-- The artifacts of a result: data and media type under each name. -/
abbrev Artifacts := Dict Str (Bytes × Str)

/-- `FetchResponse`. -/
structure FetchResponse where
  status : ℤ
  finalUrl : Str
  headers : Dict Str Str
  body : Bytes

/-- The arguments of a GET, as the action has them. -/
structure FetchRequest where
  url : Value
  accept : Value
  followRedirects : Value
  maxBytes : Value

/-- A transport over a world of type `τ`. -/
structure Transport (τ : Type) where
  /-- `transport(…)`. -/
  get : FetchRequest → Stateful PyError τ FetchResponse
  /-- `transport.conditional_get(…, etag=etag, last_modified=last_modified)`. -/
  conditionalGet : FetchRequest → (etag lastModified : Value) → Stateful PyError τ FetchResponse

/-! ### Conditional requests -/

/-- `not value or len(value) > 4096 or "\r" in value or "\n" in value`. -/
def refusedValidator (value : Value) : Except PyError Bool :=
  if !value.truthy then .ok true
  else
    match value with
    | .str s => .ok (decide (4096 < s.length ∨ 0x0D ∈ s ∨ 0x0A ∈ s))
    | .list items =>
      .ok (decide (4096 < items.length) ||
        items.any fun item => item.eqStr (lit "\r") || item.eqStr (lit "\n"))
    | .dict items | .mixedDict items =>
      .ok (decide (4096 < items.length ∨ lit "\r" ∈ items.map Prod.fst ∨
        lit "\n" ∈ items.map Prod.fst))
    | _ => .error (.typeError (lit "object has no len()"))

/-- The loop of `conditional_get` over the two validators. -/
def conditionalHeaders : List (String × Value) → Except PyError (List (Str × Value))
  | [] => .ok []
  | (name, value) :: rest =>
    match value with
    | .none => conditionalHeaders rest
    | value => do
      raiseIf (← refusedValidator value) ("invalid " ++ name ++ " value")
      let headers ← conditionalHeaders rest
      pure ((lit name, value) :: headers)

/-- `SafeHTTPTransport`, over its `_request`. -/
def safeHttpTransport {τ : Type}
    (request : FetchRequest → List (Str × Value) → Stateful PyError τ FetchResponse) :
    Transport τ where
  get r := request r []
  conditionalGet r etag lastModified := do
    match etag, lastModified with
    | .none, .none =>
      raiseValueError "conditional GET requires an ETag or Last-Modified value"
    | etag, lastModified =>
      let headers ←
        conditionalHeaders [("If-None-Match", etag), ("If-Modified-Since", lastModified)]
      request r headers

/-! ### The operation -/

/-- `n > value`. -/
def exceeds (n : ℕ) (value : Value) : Except PyError Bool :=
  match value with
  | .int m => .ok (decide (m < n))
  | .bool b => .ok (decide ((if b then 1 else 0) < n))
  | .float (.finite negative mantissa exponent) =>
    let m : ℤ := if negative then -mantissa else mantissa
    .ok (if 0 ≤ exponent then decide (m * 2 ^ exponent.toNat < n)
      else decide (m < n * 2 ^ (-exponent).toNat))
  | .float (.infinity negative) => .ok negative
  | .float .nan => .ok false
  | _ => .error (.typeError (lit "'>' not supported"))

/-- `if action.get("operation") != {"name": "http.fetch", "version": "1"}: raise`. -/
def requireHttpFetch (action : Value) (message : String) : Except PyError Unit :=
  raiseIf (!(action.get (lit "operation")).eqStrDict
    [(lit "name", lit "http.fetch"), (lit "version", lit "1")]) message

/-- `action["executor"]["config"]`. -/
def executorConfig (action : Value) : Except PyError Value := do
  (← action.item (lit "executor")).item (lit "config")

/-- The arguments of the GET. -/
def fetchRequest (action : Value) : Except PyError FetchRequest := do
  let inputs ← action.item (lit "inputs")
  let config ← executorConfig action
  let url ← inputs.item (lit "url")
  let accept ← inputs.item (lit "accept")
  let followRedirects ← config.item (lit "follow_redirects")
  let maxBytes ← config.item (lit "max_bytes")
  pure { url, accept, followRedirects, maxBytes }

variable [UrlNormalizer]

/-- `build_http_fetch_action`, with a mapping of `vary`. -/
def buildHttpFetchAction (url accept : Str) (followRedirects : Bool) (maxBytes : ℤ)
    (vary : List (Str × Value)) : Except PyError Value := do
  raiseIf accept.isEmpty "accept must not be empty"
  raiseIf (maxBytes ≤ 0) "max_bytes must be a positive integer"
  let normalized ← UrlNormalizer.normalizeHttpsUrl url
  pure (.dict [
    (lit "spec_version", .str (lit "oncemesh.action/v0")),
    (lit "operation", .dict
      [(lit "name", .str (lit "http.fetch")), (lit "version", .str (lit "1"))]),
    (lit "inputs", .dict
      [(lit "url", .str normalized), (lit "method", .str (lit "GET")),
        (lit "accept", .str accept)]),
    (lit "executor", .dict
      [(lit "name", .str (lit "oncemesh.http")), (lit "version", .str (lit "1")),
        (lit "config", .dict
          [(lit "follow_redirects", .bool followRedirects), (lit "max_bytes", .int maxBytes)])]),
    (lit "output_schema", .str (lit "oncemesh.http/response-v1")),
    (lit "vary", .dict vary)])

/-- The metadata of a response. -/
def responseMetadata (response : FetchResponse) (finalUrl : Str) (headers : Dict Str Str) : Value :=
  let optional (key : String) : Value := ((headers.get? (lit key)).map Value.str).getD .none
  .dict [(lit "status", .int response.status), (lit "final_url", .str finalUrl),
    (lit "etag", optional "etag"), (lit "last_modified", optional "last-modified"),
    (lit "content_type", optional "content-type")]

/-- `response_to_artifacts`. -/
def responseToArtifacts (action : Value) (response : FetchResponse) : Except PyError Artifacts := do
  requireHttpFetch action "action is not an http.fetch/v1 action"
  let config ← executorConfig action
  unless response.status = 200 do
    .error (.valueError
      (lit "http.fetch/v1 caches only status 200, received " ++ intRepr response.status) [])
  raiseIf (← exceeds response.body.length (← config.item (lit "max_bytes")))
    "response exceeds max_bytes"
  let headers :=
    Dict.ofPairs (response.headers.entries.map fun header => (lower header.1, header.2))
  let mediaType := (headers.get? (lit "content-type")).getD (lit "application/octet-stream")
  let finalUrl ← UrlNormalizer.normalizeHttpsUrl response.finalUrl
  let metadata ← canonicalJson (responseMetadata response finalUrl headers)
  pure (Dict.ofPairs [(lit "body", response.body, mediaType),
    (lit "metadata", metadata, lit "application/json")])

/-- `execute_http_fetch`. -/
def executeHttpFetch {τ : Type} (action : Value) (transport : Transport τ) :
    Stateful PyError τ Artifacts := do
  requireHttpFetch action "action is not an http.fetch/v1 action"
  let request ← fetchRequest action
  let response ← transport.get request
  responseToArtifacts action response

end OnceMesh
