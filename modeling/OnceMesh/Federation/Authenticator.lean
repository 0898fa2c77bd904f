import OnceMesh.Federation.Request
import OnceMesh.ReplayCache

/-!
# Request authentication

`FederationRequestAuthenticator` verifies configured requesters and remembers their nonces. A
request passes while its timestamp is at most `maxAgeSeconds` old and at most
`maxFutureClockSkewSeconds` ahead of the clock; its nonce is remembered for `maxAgeSeconds` from
the moment it was observed. The two windows do not end together: a request signed no earlier than
it was observed outlives its nonce, and is accepted again. `acceptedRequests_nodup` says that this
is the only way a request is accepted twice.
-/

namespace OnceMesh.Federation

open Python

/-! ### The authenticator -/

/-- `FederationRequestAuthenticator`, as its constructor leaves it. -/
structure FederationRequestAuthenticator where
  requesters : Dict Str Bytes
  maxAgeSeconds : ℤ
  maxFutureClockSkewSeconds : ℤ
  maxRememberedNonces : ℕ
  configured : requesters.entries ≠ []
  requesterConfig : ∀ e ∈ requesters.entries, e.1 ≠ [] ∧ e.2.length = 32
  ageRange : 1 ≤ maxAgeSeconds ∧ maxAgeSeconds ≤ 3600
  skewRange : 0 ≤ maxFutureClockSkewSeconds ∧ maxFutureClockSkewSeconds ≤ 300
  nonceRange : 1 ≤ maxRememberedNonces ∧ maxRememberedNonces ≤ 1000000

/-- A call of `authenticate_peer`: its arguments, and what the clock reads. `headers` is
`headers.get_all`. -/
structure Call where
  method : Str
  path : Str
  headers : Str → Option (List Str)
  now : DateTime

/-- The values of the headers of a request. -/
structure Credentials where
  peerId : Str
  timestamp : Str
  nonce : Str
  keyId : Str
  signature : Str

/-- A signed request, apart from how it travels. -/
structure SignedRequest where
  peerId : Str
  timestamp : Str
  nonce : Str
  path : Str
  signature : Str
  deriving DecidableEq

/-- `_nonces`: when the nonce of each peer expires. -/
abbrev Nonces := Dict (Str × Str) DateTime

namespace Call

/-- A header that occurs exactly once. -/
def header (call : Call) (name : String) : Option Str :=
  match call.headers (lit name) with
  | some [value] => some value
  | _ => none

/-- The loop over `AUTH_HEADERS`. -/
def credentials? (call : Call) : Option Credentials := do
  let peerId ← call.header "OnceMesh-Peer-ID"
  let timestamp ← call.header "OnceMesh-Timestamp"
  let nonce ← call.header "OnceMesh-Nonce"
  let keyId ← call.header "OnceMesh-Key-ID"
  let signature ← call.header "OnceMesh-Signature"
  pure { peerId, timestamp, nonce, keyId, signature }

/-- The signed request a call presents. -/
def signedRequest? (call : Call) : Option SignedRequest :=
  call.credentials?.map fun c => ⟨c.peerId, c.timestamp, c.nonce, call.path, c.signature⟩

end Call

/-- `except (AttributeError, KeyError, TypeError, ValueError): return None`. -/
def recover (e : PyError) : Except PyError (Option Str) :=
  match e with
  | .attributeError _ => .ok none
  | e => if isVerificationError e then .ok none else .error e

theorem recover_ne (e : PyError) (peer : Str) : recover e ≠ .ok (some peer) := by
  unfold recover
  split
  · simp
  · split_ifs <;> simp

variable [Sha256] [LocalZone]

/-- The document a call asks to be signed. -/
def Call.request (call : Call) (c : Credentials) : Value :=
  .dict [(lit "spec_version", .str (lit "oncemesh.federation-request/v0")),
    (lit "peer_id", .str c.peerId), (lit "timestamp", .str c.timestamp),
    (lit "nonce", .str c.nonce), (lit "method", .str call.method), (lit "path", .str call.path),
    (lit "body_digest", .str emptyBodyDigest)]

/-- The signature document of the headers. -/
def Credentials.signatureDocument (c : Credentials) : Value :=
  .dict [(lit "profile", .str signatureProfile), (lit "key_id", .str c.keyId),
    (lit "value", .str c.signature)]

namespace FederationRequestAuthenticator

variable [Ed25519] (auth : FederationRequestAuthenticator)

/-- `authenticate_peer` up to the lock: the credentials of a request that verifies and is neither
too old nor too far ahead. -/
def checkRequest (call : Call) : Except PyError (Option Credentials) :=
  match call.credentials? with
  | none => .ok none
  | some c =>
    match auth.requesters.get? c.peerId with
    | none => .ok none
    | some publicKey => do
      let verified ← verifyFederationRequest (call.request c) c.signatureDocument publicKey
      if !verified then return none
      let signedAt ← parseTime c.timestamp
      let oldest ← call.now.addSeconds (-auth.maxAgeSeconds)
      if signedAt < oldest then return none
      let newest ← call.now.addSeconds auth.maxFutureClockSkewSeconds
      if newest < signedAt then return none
      return some c

/-- `authenticate_peer` under the lock: whether the nonce is new, and the nonces after. -/
def remember (nonces : Nonces) (now : DateTime) (c : Credentials) :
    Except PyError Bool × Nonces :=
  ReplayCache.offer auth.maxRememberedNonces now (now.addSeconds auth.maxAgeSeconds)
    (c.peerId, c.nonce) nonces

/-- `authenticate_peer`: its answer, and the nonces after. -/
def authenticatePeer (nonces : Nonces) (call : Call) : Except PyError (Option Str) × Nonces :=
  match auth.checkRequest call with
  | .error e => (recover e, nonces)
  | .ok none => (.ok none, nonces)
  | .ok (some c) =>
    match auth.remember nonces call.now c with
    | (.ok true, nonces) => (.ok (some c.peerId), nonces)
    | (.ok false, nonces) => (.ok none, nonces)
    | (.error e, nonces) => (recover e, nonces)

/-- `authenticate`; an exception is no acceptance. -/
def accepts (nonces : Nonces) (call : Call) : Bool :=
  match (auth.authenticatePeer nonces call).1 with
  | .ok (some _) => true
  | _ => false

/-- The signed requests accepted in a run of calls, in order. -/
def acceptedRequests (nonces : Nonces) : List Call → List SignedRequest
  | [] => []
  | call :: rest =>
    (if auth.accepts nonces call then call.signedRequest?.toList else []) ++
      acceptedRequests (auth.authenticatePeer nonces call).2 rest

end FederationRequestAuthenticator

end OnceMesh.Federation
