import OnceMesh.Documents
import OnceMesh.Signature

/-!
# Production receipts

A receipt names a result by its digest and is signed by the producer's key. The signature covers
the receipt with its signature field set to null.
-/

namespace OnceMesh

open Python

/-- `_exact_keys`. -/
def exactReceiptKeys (value : Value) (expected : List Str) (label : String) :
    Except PyError Unit :=
  raiseIf (!value.hasExactKeys expected) ("invalid " ++ label ++ " fields")

/-- `_decode_signature`. -/
def decodeReceiptSignature (text : Str) : Except PyError Bytes :=
  match Base64.urlsafeDecode text with
  | none => raiseValueError "receipt signature value is invalid base64url"
  | some decoded =>
    if decoded.length ≠ 64 ∨ Base64.urlsafeEncode decoded ≠ text then
      raiseValueError "receipt signature must be canonical encoding of 64 bytes"
    else .ok decoded

/-- The value of a signature: the pattern, then `_decode_signature`. -/
def decodeReceiptValue (value : Value) : Except PyError Bytes :=
  match value with
  | .str text =>
    if isSignatureText text then decodeReceiptSignature text
    else raiseValueError "receipt signature value is not canonical base64url"
  | _ => raiseValueError "receipt signature value is not canonical base64url"

/-- The checks of a signature that is not null: its key identifier and its octets. -/
def validateSignature (signature : Value) : Except PyError (Str × Bytes) := do
  exactReceiptKeys signature [lit "profile", lit "key_id", lit "value"] "receipt signature"
  raiseIf (!(signature.get (lit "profile")).eqStr signatureProfile)
    "unsupported receipt signature profile"
  let keyId ← requireDigest (signature.get (lit "key_id")) "receipt signature key_id is invalid"
  let decoded ← decodeReceiptValue (signature.get (lit "value"))
  pure (keyId, decoded)

/-- The fields of a receipt. -/
structure ReceiptFields where
  resultDigest : Str
  producer : Str
  /-- The key identifier and the octets of the signature, unless it is null. -/
  signature : Option (Str × Bytes)

/-- `validate_receipt`. -/
def validateReceipt (receipt : Value) (requireSignature : Bool) : Except PyError ReceiptFields := do
  exactReceiptKeys receipt
    [lit "spec_version", lit "result_digest", lit "producer", lit "executor_environment",
      lit "signature"] "receipt"
  raiseIf (!(receipt.get (lit "spec_version")).eqStr (lit "oncemesh.receipt/v0"))
    "unsupported receipt spec_version"
  let resultDigest ←
    requireDigest (receipt.get (lit "result_digest")) "receipt result_digest is invalid"
  let producer ← requireNonemptyString (receipt.get (lit "producer")) "receipt producer"
  raiseIf (!(receipt.get (lit "executor_environment")).isDict)
    "executor_environment must be an object"
  let signature ← match receipt.get (lit "signature") with
    | .none =>
      if requireSignature then raiseValueError "receipt signature is required" else pure none
    | signature => some <$> validateSignature signature
  let _ ← canonicalJson receipt
  pure { resultDigest, producer, signature }

theorem raisesOnly_exactReceiptKeys (value : Value) (expected : List Str) (label : String) :
    RaisesOnlyValueError (exactReceiptKeys value expected label) := raisesOnly_raiseIf _ _

theorem raisesOnly_decodeReceiptSignature (text : Str) :
    RaisesOnlyValueError (decodeReceiptSignature text) := by
  unfold decodeReceiptSignature
  split
  · exact raisesOnly_raiseValueError _
  · split_ifs
    · exact raisesOnly_raiseValueError _
    · exact .ok _

theorem raisesOnly_decodeReceiptValue (value : Value) :
    RaisesOnlyValueError (decodeReceiptValue value) := by
  unfold decodeReceiptValue
  split
  · split_ifs
    · exact raisesOnly_decodeReceiptSignature _
    · exact raisesOnly_raiseValueError _
  · exact raisesOnly_raiseValueError _

theorem raisesOnly_validateSignature (signature : Value) :
    RaisesOnlyValueError (validateSignature signature) := by
  refine .bind (raisesOnly_exactReceiptKeys _ _ _) fun _ _ => ?_
  refine .bind (raisesOnly_raiseIf _ _) fun _ _ => ?_
  refine .bind (raisesOnly_requireDigest _ _) fun keyId _ => ?_
  exact .bind (raisesOnly_decodeReceiptValue _) fun decoded _ => .pure _

/-- `validate_receipt` raises only a `ValueError`. -/
theorem raisesOnly_validateReceipt (receipt : Value) (requireSignature : Bool) :
    RaisesOnlyValueError (validateReceipt receipt requireSignature) := by
  refine .bind (raisesOnly_exactReceiptKeys _ _ _) fun _ _ => ?_
  refine .bind (raisesOnly_raiseIf _ _) fun _ _ => ?_
  refine .bind (raisesOnly_requireDigest _ _) fun resultDigest _ => ?_
  refine .bind (raisesOnly_requireNonemptyString _ _) fun producer _ => ?_
  refine .bind (raisesOnly_raiseIf _ _) fun _ _ => ?_
  dsimp only
  split
  · split_ifs
    · exact .bind (raisesOnly_raiseValueError _) fun signature _ =>
        .bind (raisesOnly_canonicalJson _) fun _ _ => .pure _
    · exact .bind (.pure _) fun signature _ => .bind (raisesOnly_canonicalJson _) fun _ _ => .pure _
  · exact .bind (.map (raisesOnly_validateSignature _)) fun signature _ =>
      .bind (raisesOnly_canonicalJson _) fun _ _ => .pure _

/-- `unsigned["signature"] = None`. -/
def withoutSignature : Value → Value
  | .dict items => .dict (setItem items (lit "signature") .none)
  | value => value

/-- `receipt_signing_input`. -/
def receiptSigningInput (receipt : Value) : Except PyError Bytes := do
  let unsigned := withoutSignature receipt
  let _ ← validateReceipt unsigned false
  let data ← canonicalJson unsigned
  pure (ascii "OnceMesh receipt signature v1\x00" ++ data)

variable [Sha256] [Ed25519]

/-- `verify_receipt`. -/
def verifyReceipt (receipt : Value) (publicKey : Bytes) : Except PyError Bool := do
  let fields ← validateReceipt receipt true
  raiseIf (publicKey.length ≠ 32) "Ed25519 public key must contain exactly 32 bytes"
  match fields.signature with
  | none => raiseValueError "receipt signature is required"
  | some (keyId, signature) =>
    if keyId ≠ digestBytes publicKey then return false
    let input ← receiptSigningInput receipt
    return Ed25519.verify publicKey signature input

/-- `verify_receipt_for_manifest`. -/
def verifyReceiptForManifest (receipt : Value) (manifest : Manifest) (publicKey : Bytes) :
    Except PyError Bool := do
  let fields ← validateReceipt receipt true
  if fields.resultDigest ≠ manifest.digest then return false
  if fields.producer ≠ manifest.fields.producer then return false
  verifyReceipt receipt publicKey

end OnceMesh
