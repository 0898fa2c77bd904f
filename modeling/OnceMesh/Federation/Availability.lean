import OnceMesh.Federation.Request
import OnceMesh.Receipt

/-!
# Signed availability manifests

A peer advertises what it offers in an availability manifest: the digests of its results, in
canonical order, with the operation and the number of octets of each. The manifest is signed by the
peer. `validateAvailability` answers with the fields that an import reads.
-/

namespace OnceMesh.Federation

open Python

/-- `Ed25519PrivateKey.from_private_bytes(seed)`: its public key, and how it signs. -/
class Ed25519Signing extends Ed25519 where
  /-- The public key of a seed. -/
  publicKey : Bytes → Bytes
  /-- The signature of a message with a seed. -/
  sign : Bytes → Bytes → Bytes
  length_publicKey : ∀ seed, (publicKey seed).length = 32
  length_sign : ∀ seed message, (sign seed message).length = 64
  verify_sign : ∀ seed message, seed.length = 32 →
    verify (publicKey seed) (sign seed message) message = true

/-- An entry of an availability manifest. -/
structure AvailabilityEntry where
  actionDigest : Str
  resultDigest : Str
  operationName : Str
  operationVersion : Str
  artifactBytes : ℕ
  deriving DecidableEq

namespace AvailabilityEntry

/-- The pair of digests that names an entry. -/
def identity (entry : AvailabilityEntry) : Str × Str := (entry.actionDigest, entry.resultDigest)

/-- `entry["operation"]`. -/
def operation (entry : AvailabilityEntry) : Value :=
  .dict [(lit "name", .str entry.operationName), (lit "version", .str entry.operationVersion)]

end AvailabilityEntry

/-- The fields of an availability manifest. -/
structure AvailabilityFields where
  peerId : Str
  /-- `_parse_time(manifest["generated_at"])`. -/
  generatedAt : DateTime
  entries : List AvailabilityEntry
  /-- The key identifier and the octets of the signature, unless it is null. -/
  signature : Option (Str × Bytes)

/-- The order of pairs of digests. -/
def identityLE (a b : Str × Str) : Prop := a.1 < b.1 ∨ a.1 = b.1 ∧ a.2 ≤ b.2

instance : DecidableRel identityLE := fun _ _ => inferInstanceAs (Decidable (_ ∨ _ ∧ _))

/-- A string that is not empty. -/
def requireOperationText (value : Value) : Except PyError Str :=
  match value with
  | .str s =>
    if s = [] then raiseValueError "availability operation values must be non-empty strings"
    else .ok s
  | _ => raiseValueError "availability operation values must be non-empty strings"

/-- The body of the loop over the entries; `seen` are the pairs of digests so far. -/
def validateEntry (seen : List (Str × Str)) (entry : Value) :
    Except PyError AvailabilityEntry := do
  exactKeys entry
    [lit "action_digest", lit "result_digest", lit "operation", lit "artifact_bytes"]
    "availability entry"
  let actionDigest ←
    requireDigest (entry.get (lit "action_digest")) "availability action_digest is invalid"
  let resultDigest ←
    requireDigest (entry.get (lit "result_digest")) "availability result_digest is invalid"
  let operation := entry.get (lit "operation")
  exactKeys operation [lit "name", lit "version"] "availability operation"
  let operationName ← requireOperationText (operation.get (lit "name"))
  let operationVersion ← requireOperationText (operation.get (lit "version"))
  match entry.get (lit "artifact_bytes") with
  | .int n =>
    raiseIf (n < 0) "artifact_bytes must be a non-negative integer"
    raiseIf ((actionDigest, resultDigest) ∈ seen) "availability entries must be unique"
    pure { actionDigest, resultDigest, operationName, operationVersion, artifactBytes := n.toNat }
  | _ => raiseValueError "artifact_bytes must be a non-negative integer"

/-- The loop over the entries. -/
def validateEntries (seen : List (Str × Str)) :
    List Value → Except PyError (List AvailabilityEntry)
  | [] => .ok []
  | value :: rest => do
    let entry ← validateEntry seen value
    let entries ← validateEntries (entry.identity :: seen) rest
    pure (entry :: entries)

/-- `_decode_signature`. -/
def decodeAvailabilitySignature (value : Value) : Except PyError Bytes :=
  match value with
  | .str s =>
    if isSignatureText s then
      match Base64.urlsafeDecode s with
      | none => raiseValueError "invalid base64"
      | some decoded =>
        if decoded.length ≠ 64 ∨ Base64.urlsafeEncode decoded ≠ s then
          raiseValueError "availability signature must encode 64 bytes"
        else .ok decoded
    else raiseValueError "availability signature is not canonical base64url"
  | _ => raiseValueError "availability signature is not canonical base64url"

/-- The checks of a signature that is not null: its key identifier and its octets. -/
def validateAvailabilitySignature (signature : Value) : Except PyError (Str × Bytes) := do
  exactKeys signature [lit "profile", lit "key_id", lit "value"] "availability signature"
  raiseIf (!(signature.get (lit "profile")).eqStr signatureProfile)
    "unsupported availability signature profile"
  let keyId ← requireDigest (signature.get (lit "key_id")) "availability key_id is invalid"
  let decoded ← decodeAvailabilitySignature (signature.get (lit "value"))
  pure (keyId, decoded)

variable [LocalZone]

/-- `validate_availability`. -/
def validateAvailability (manifest : Value) (requireSignature : Bool) :
    Except PyError AvailabilityFields := do
  exactKeys manifest
    [lit "spec_version", lit "peer_id", lit "generated_at", lit "entries", lit "signature"]
    "availability manifest"
  raiseIf (!(manifest.get (lit "spec_version")).eqStr (lit "oncemesh.availability/v0"))
    "unsupported availability version"
  let peerId ← requireNonemptyString (manifest.get (lit "peer_id")) "peer_id"
  let generatedAt ← parseTimeValue (manifest.get (lit "generated_at"))
  let items ← requireList (manifest.get (lit "entries")) "availability entries must be an array"
  let entries ← validateEntries [] items
  let identities := entries.map AvailabilityEntry.identity
  raiseIf (identities ≠ identities.insertionSort identityLE)
    "availability entries are not canonically ordered"
  let signature ← match manifest.get (lit "signature") with
    | .none =>
      if requireSignature then raiseValueError "availability signature is required" else pure none
    | signature => some <$> validateAvailabilitySignature signature
  let _ ← canonicalJson manifest
  pure { peerId, generatedAt, entries, signature }

/-- `availability_signing_input`. -/
def availabilitySigningInput (manifest : Value) : Except PyError Bytes := do
  let unsigned := withoutSignature manifest
  let _ ← validateAvailability unsigned false
  let data ← canonicalJson unsigned
  pure (ascii "OnceMesh availability manifest v1\x00" ++ data)

/-- `signed["signature"] = signature`. -/
def withSignature (signature : Value) : Value → Value
  | .dict items => .dict (setItem items (lit "signature") signature)
  | value => value

variable [Sha256]

/-- `sign_availability`. -/
def signAvailability [Ed25519Signing] (manifest : Value) (privateSeed : Bytes) :
    Except PyError Value := do
  match manifest.get (lit "signature") with
  | .none => pure ()
  | _ => raiseValueError "only unsigned availability can be signed"
  raiseIf (privateSeed.length ≠ 32) "availability private seed must contain exactly 32 bytes"
  let publicKey := Ed25519Signing.publicKey privateSeed
  let input ← availabilitySigningInput manifest
  let signed := withSignature (.dict [(lit "profile", .str signatureProfile),
    (lit "key_id", .str (digestBytes publicKey)),
    (lit "value", .str (Base64.urlsafeEncode (Ed25519Signing.sign privateSeed input)))]) manifest
  let _ ← validateAvailability signed true
  pure signed

/-- `verify_availability`. -/
def verifyAvailability [Ed25519] (manifest : Value) (peerId : Str) (publicKey : Bytes) :
    Except PyError Bool := do
  let fields ← validateAvailability manifest true
  if fields.peerId ≠ peerId ∨ publicKey.length ≠ 32 then return false
  match fields.signature with
  | none => raiseValueError "availability signature is required"
  | some (keyId, signature) =>
    if keyId ≠ digestBytes publicKey then return false
    let input ← availabilitySigningInput manifest
    return Ed25519.verify publicKey signature input

end OnceMesh.Federation
