import OnceMesh.DocumentValidation
import OnceMesh.KeyRegistry

/-!
# Federation identities

A federation identity is a public document that names a peer, a purpose, and an Ed25519 public key
with its digest.
-/

namespace OnceMesh.Federation

open Python

/-- `_decode_32`. -/
def decode32 (value : Value) (label : String) : Except PyError Bytes :=
  match value with
  | .str s =>
    if isPublicKeyText s then
      match Base64.urlsafeDecode s with
      | none => raiseValueError (label ++ " is invalid base64url")
      | some decoded =>
        if decoded.length ≠ 32 ∨ Base64.urlsafeEncode decoded ≠ s then
          raiseValueError (label ++ " must encode exactly 32 bytes")
        else .ok decoded
    else raiseValueError (label ++ " must be canonical unpadded base64url")
  | _ => raiseValueError (label ++ " must be canonical unpadded base64url")

/-- `_decode_blob` of the pilot tools. -/
def decodePilotBlob (value : Value) (label : String) : Except PyError Bytes :=
  match value with
  | .str s =>
    if !s.all Base64.isUrlsafe || s.length % 4 = 1 then
      raiseValueError (label ++ " must be canonical unpadded base64url")
    else
      match Base64.b64decode (s ++ Base64.padding s) with
      | none => raiseValueError (label ++ " is invalid base64url")
      | some decoded =>
        if Base64.urlsafeEncode decoded ≠ s then
          raiseValueError (label ++ " is not canonical base64url")
        else .ok decoded
  | _ => raiseValueError (label ++ " must be canonical unpadded base64url")

/-- `IDENTITY_PURPOSES`. -/
def identityPurposes : List (Str × Unit) :=
  [(lit "availability", ()), (lit "request", ()), (lit "receipt", ())]

/-- The fields of an identity. -/
structure FederationIdentity where
  peerId : Str
  keyId : Str
  publicKey : Bytes

variable [Sha256]

/-- `validate_federation_identity` with a purpose. -/
def validateFederationIdentity (document : Value) (purpose : Str) :
    Except PyError FederationIdentity := do
  DocumentValidation.exactKeys document
    [lit "spec_version", lit "peer_id", lit "purpose", lit "profile", lit "key_id",
      lit "public_key_base64url"] "federation identity"
  raiseIf (!(document.get (lit "spec_version")).eqStr (lit "oncemesh.federation-identity/v0"))
    "unsupported federation identity version"
  let peerId ← match document.get (lit "peer_id") with
    | .str (c :: s) => pure (c :: s)
    | _ => raiseValueError "federation identity peer_id must not be empty"
  let known ← (document.get (lit "purpose")).lookupIn identityPurposes
  raiseIf (known.isNone || !(document.get (lit "purpose")).eqStr purpose)
    "federation identity purpose is invalid"
  raiseIf (!(document.get (lit "profile")).eqStr signatureProfile)
    "federation identity signature profile is invalid"
  let publicKey ← decode32 (document.get (lit "public_key_base64url")) "identity public key"
  let keyId := digestBytes publicKey
  raiseIf (!(document.get (lit "key_id")).eqStr keyId)
    "federation identity key_id does not match public key"
  let _ ← canonicalJson document
  pure { peerId, keyId, publicKey }

end OnceMesh.Federation
