import OnceMesh.Canonical
import OnceMesh.Python.Base64

/-!
# Ed25519 signatures

Signatures travel as unpadded base64url texts in canonical form. The signature scheme itself is a
parameter: a fixed predicate of a key, a signature and a message.
-/

namespace OnceMesh

open Python

/-- `Ed25519PublicKey.from_public_bytes(key).verify(signature, message)`. -/
class Ed25519 where
  /-- Whether the signature of the message verifies under a key. -/
  verify : Bytes → Bytes → Bytes → Bool

/-- `SIGNATURE_PATTERN.fullmatch`. -/
def isSignatureText (s : Str) : Bool := s.length = 86 && s.all Base64.isUrlsafe

/-- `SIGNATURE_PROFILE`. -/
def signatureProfile : Str := lit "oncemesh.ed25519/v1"

end OnceMesh
