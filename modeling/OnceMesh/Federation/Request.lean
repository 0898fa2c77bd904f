import OnceMesh.Python.Datetime.Iso
import OnceMesh.Signature

/-!
# Signed federation requests

A peer signs a small document for each request. `validateFederationRequest` checks its shape and
`verifyFederationRequest` its signature under a configured key.
-/

namespace OnceMesh.Federation

open Python

/-- `_exact_keys`. -/
def exactKeys (value : Value) (expected : List Str) (label : String) : Except PyError Unit :=
  raiseIf (!value.hasExactKeys expected) ("invalid " ++ label ++ " fields")

section

variable [LocalZone]

/-- `_parse_time` of a string. A date without a time reads its zone as the time of day, and so is
naive. -/
def parseTime (text : Str) : Except PyError DateTime := do
  raiseIf (!endsWith text (lit "Z")) "timestamp must be UTC RFC 3339"
  match fromIsoFormat (replaceChar text 0x5A (lit "+00:00")) with
  | some parsed => parsed.toUtc
  | none => raiseValueError "Invalid isoformat string"

/-- `_parse_time`. -/
def parseTimeValue (value : Value) : Except PyError DateTime :=
  match value with
  | .str text => parseTime text
  | _ => raiseValueError "timestamp must be UTC RFC 3339"

end

/-- `NONCE_PATTERN.fullmatch`. -/
def isNonce (s : Str) : Bool := s.length = 32 && s.all isLowerHex

/-- `REQUEST_PATH_PATTERN.fullmatch`. -/
def isRequestPath (s : Str) : Bool :=
  s = lit "/v0/availability" || (startsWith s (lit "/v0/bundles/") && isDigest (s.drop 12))

/-- The value is a string that passes a test. -/
def isStrWith (value : Value) (test : Str → Bool) : Bool :=
  match value with
  | .str s => test s
  | _ => false

/-- `_decode_signature`. -/
def decodeSignature (value : Value) : Except PyError Bytes :=
  match value with
  | .str s =>
    if isSignatureText s then
      match Base64.urlsafeDecode s with
      | none => raiseValueError "invalid base64"
      | some decoded =>
        if decoded.length ≠ 64 ∨ Base64.urlsafeEncode decoded ≠ s then
          raiseValueError "request signature must encode 64 bytes"
        else .ok decoded
    else raiseValueError "request signature is not canonical base64url"
  | _ => raiseValueError "request signature is not canonical base64url"

variable [Sha256] [LocalZone]

/-- `EMPTY_BODY_DIGEST`. -/
def emptyBodyDigest : Str := digestBytes []

/-- `validate_federation_request`. -/
def validateFederationRequest (request : Value) : Except PyError Unit := do
  exactKeys request
    [lit "spec_version", lit "peer_id", lit "timestamp", lit "nonce", lit "method", lit "path",
      lit "body_digest"] "federation request"
  raiseIf (!(request.get (lit "spec_version")).eqStr (lit "oncemesh.federation-request/v0"))
    "unsupported federation request version"
  raiseIf (!isStrWith (request.get (lit "peer_id")) (· ≠ []))
    "request peer_id must be a non-empty string"
  let _ ← parseTimeValue (request.get (lit "timestamp"))
  raiseIf (!isStrWith (request.get (lit "nonce")) isNonce) "request nonce is invalid"
  raiseIf (!(request.get (lit "method")).eqStr (lit "GET")) "unsupported federation request method"
  raiseIf (!isStrWith (request.get (lit "path")) isRequestPath)
    "unsupported federation request path"
  raiseIf (!(request.get (lit "body_digest")).eqStr emptyBodyDigest)
    "federation GET body digest must be empty"
  let _ ← canonicalJson request

/-- `federation_request_signing_input`. -/
def federationRequestSigningInput (request : Value) : Except PyError Bytes := do
  validateFederationRequest request
  let data ← canonicalJson request
  pure (ascii "OnceMesh federation HTTP request v1\x00" ++ data)

/-- The body of `verify_federation_request`, for a public key of thirty-two octets. -/
def checkSignature [Ed25519] (request signature : Value) (publicKey : Bytes) :
    Except PyError Bool := do
  exactKeys signature [lit "profile", lit "key_id", lit "value"] "request signature"
  if !(signature.get (lit "profile")).eqStr signatureProfile then return false
  if publicKey.length ≠ 32 then return false
  if !(signature.get (lit "key_id")).eqStr (digestBytes publicKey) then return false
  let decoded ← decodeSignature (signature.get (lit "value"))
  let input ← federationRequestSigningInput request
  return Ed25519.verify publicKey decoded input

/-- `except (InvalidSignature, KeyError, TypeError, ValueError)`. -/
def isVerificationError : PyError → Bool
  | .keyError _ | .typeError _ => true
  | e => e.isValueError

/-- `verify_federation_request`. -/
def verifyFederationRequest [Ed25519] (request signature : Value) (publicKey : Bytes) :
    Except PyError Bool :=
  match checkSignature request signature publicKey with
  | .ok verified => .ok verified
  | .error e => if isVerificationError e then .ok false else .error e

end OnceMesh.Federation
