import OnceMesh.Policy
import OnceMesh.Signature

/-!
# Receipt key registry

The registry file maps key identifiers to Ed25519 public keys, each with a status and the
producers it may sign for. Like the policy file it is read and validated for every lookup.
-/

namespace OnceMesh

open Python

variable [Sha256]

/-- `KEY_STATUSES`. -/
inductive KeyStatus where
  | active
  | revoked
  deriving DecidableEq, Repr

/-- The texts of the key statuses. -/
def KeyStatus.table : List (Str × KeyStatus) :=
  [(lit "active", .active), (lit "revoked", .revoked)]

/-- A registered public key. -/
structure ReceiptKey where
  keyId : Str
  publicKey : Bytes
  status : KeyStatus
  producers : Finset Str

/-- What the registry answers for a key identifier and a producer. -/
structure ReceiptKeyResolution where
  key : Option ReceiptKey
  reason : Str

/-- `PUBLIC_KEY_PATTERN.fullmatch`. -/
def isPublicKeyText (s : Str) : Bool := s.length = 43 && s.all Base64.isUrlsafe

/-- `_decode_public_key`. -/
def decodePublicKey (value : Value) : Except PyError Bytes :=
  match value with
  | .str s =>
    if isPublicKeyText s then
      match Base64.urlsafeDecode s with
      | none => raiseValueError "public_key is invalid base64url"
      | some decoded =>
        if decoded.length ≠ 32 ∨ Base64.urlsafeEncode decoded ≠ s then
          raiseValueError "public_key must encode exactly 32 bytes"
        else .ok decoded
    else raiseValueError "public_key must be canonical unpadded base64url"
  | _ => raiseValueError "public_key must be canonical unpadded base64url"

/-- The producers of an entry: a non-empty array of distinct non-empty strings. -/
def keyProducers? (value : Value) : Option (Finset Str) :=
  match value with
  | .list items =>
    match items.mapM nonemptyString? with
    | some texts => if texts ≠ [] ∧ texts.Nodup then some texts.toFinset else none
    | none => none
  | _ => none

/-- The checks of one entry up to its status. The status is looked up only under the right
profile. -/
def validateKeyStatus (keyId : Str) (value : Value) : Except PyError KeyStatus := do
  raiseIf (!isDigest keyId) "key registry key identifier is invalid"
  raiseIf (!value.hasExactKeys [lit "profile", lit "public_key", lit "status", lit "producers"])
    "invalid key registry entry fields"
  raiseIf (!(value.get (lit "profile")).eqStr signatureProfile)
    "unsupported key profile or status"
  orRaise (← (value.get (lit "status")).lookupIn KeyStatus.table)
    (lit "unsupported key profile or status")

/-- The body of the loop of `validate_key_registry`. -/
def validateKeyEntry (keyId : Str) (value : Value) : Except PyError ReceiptKey := do
  let status ← validateKeyStatus keyId value
  let producers ← orRaise (keyProducers? (value.get (lit "producers")))
    (lit "key producers must be a non-empty unique string array")
  let publicKey ← decodePublicKey (value.get (lit "public_key"))
  raiseIf (digestBytes publicKey ≠ keyId) "key identifier does not match public key"
  pure { keyId, publicKey, status, producers }

/-- The loop of `validate_key_registry` over the entries. -/
def validateKeyEntries : List (Str × Value) → Except PyError (List (Str × ReceiptKey))
  | [] => .ok []
  | (keyId, value) :: rest => do
    let record ← validateKeyEntry keyId value
    let records ← validateKeyEntries rest
    pure ((keyId, record) :: records)

/-- `validate_key_registry`. -/
def validateKeyRegistry (document : Value) : Except PyError (List (Str × ReceiptKey)) := do
  raiseIf (!document.hasExactKeys [lit "spec_version", lit "keys"]) "invalid key registry fields"
  raiseIf (!(document.get (lit "spec_version")).eqStr (lit "oncemesh.key-registry/v0"))
    "unsupported key registry version"
  overItems validateKeyEntries "key registry key identifier is invalid"
    "key registry keys must be an object" (document.get (lit "keys"))

/-- `FileReceiptKeyRegistry`. -/
structure FileReceiptKeyRegistry where
  file : File

namespace FileReceiptKeyRegistry

/-- The guarded part of `resolve`: the file, parsed and validated. -/
def load (registry : FileReceiptKeyRegistry) : Except PyError (List (Str × ReceiptKey)) := do
  let document ← registry.file.loadJson
  validateKeyRegistry document

/-- `FileReceiptKeyRegistry.resolve`. -/
def resolve (registry : FileReceiptKeyRegistry) (keyId producer : Str) :
    Except PyError ReceiptKeyResolution :=
  match registry.load with
  | .error e =>
    if isRegistryError e then .ok { key := none, reason := lit "receipt_registry_error" }
    else .error e
  | .ok records =>
    match records.lookup keyId with
    | none => .ok { key := none, reason := lit "receipt_key_unknown" }
    | some record =>
      if record.status = .revoked then .ok { key := none, reason := lit "receipt_key_revoked" }
      else if producer ∉ record.producers then
        .ok { key := none, reason := lit "receipt_producer_denied" }
      else .ok { key := some record, reason := lit "active" }

end FileReceiptKeyRegistry

end OnceMesh
