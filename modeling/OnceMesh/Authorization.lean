import OnceMesh.Python.Error

/-!
# Authorization partitions

An authorization partition is an opaque token: a keyed hash of the tenant and its scopes. Only its
form is checked, and two tokens are compared.
-/

namespace OnceMesh

open Python

/-- `AUTHORIZATION_PARTITION_PATTERN.fullmatch`. -/
def isAuthorizationPartition (value : Str) : Bool :=
  startsWith value (lit "hmac-sha256:") && (value.drop 12).length = 64 &&
    (value.drop 12).all isLowerHex

/-- `validate_authorization_partition`. -/
def validateAuthorizationPartition (value : Str) : Except PyError Unit :=
  raiseIf (!isAuthorizationPartition value) "authorization partition token is invalid"

/-- `authorization_partitions_match`. -/
def authorizationPartitionsMatch (left right : Str) : Except PyError Bool := do
  validateAuthorizationPartition left
  validateAuthorizationPartition right
  pure (left = right)

end OnceMesh
