import Mathlib.Data.Finset.Basic
import OnceMesh.Canonical

/-!
# Operation policies

The policy file is read and validated for every operation. `validatePolicyDocument` makes the
checks of the source in the order of the source, because the order decides which exception a
document with several faults raises; `FilePolicyRegistry.resolve` catches some classes of
exceptions and lets the others through.
-/

namespace OnceMesh

open Python

/-- `MODES`. -/
inductive Mode where
  | disabled
  | shadow
  | conditionalSubstitute
  | exactSubstitute
  | staleWhileRevalidate
  deriving DecidableEq, Repr

/-- The texts of the modes in a policy document. -/
def Mode.table : List (Str × Mode) :=
  [(lit "disabled", .disabled), (lit "shadow", .shadow),
    (lit "conditional-substitute", .conditionalSubstitute),
    (lit "exact-substitute", .exactSubstitute),
    (lit "stale-while-revalidate", .staleWhileRevalidate)]

/-- The text of a mode, which is also a decision reason. -/
def Mode.text : Mode → Str
  | .disabled => lit "disabled"
  | .shadow => lit "shadow"
  | .conditionalSubstitute => lit "conditional-substitute"
  | .exactSubstitute => lit "exact-substitute"
  | .staleWhileRevalidate => lit "stale-while-revalidate"

/-- The values of `receipt_requirement`. -/
inductive ReceiptRequirement where
  | optional
  | required
  deriving DecidableEq, Repr

/-- The texts of the receipt requirements. -/
def ReceiptRequirement.table : List (Str × ReceiptRequirement) :=
  [(lit "optional", .optional), (lit "required", .required)]

/-- The values of `authorization_partition`. -/
inductive PartitionRequirement where
  | «public»
  | required
  deriving DecidableEq, Repr

/-- The texts of the partition requirements. -/
def PartitionRequirement.table : List (Str × PartitionRequirement) :=
  [(lit "public", .public), (lit "required", .required)]

/-- The policy of one operation. -/
structure OperationPolicy where
  mode : Mode
  trustedResultProducers : Finset Str
  trustedValidationProducers : Finset Str
  allowedTiers : Finset Str
  maxValidationTtlSeconds : ℤ
  receiptRequirement : ReceiptRequirement
  trustedReceiptKeys : Finset Str
  authorizationPartition : PartitionRequirement
  maxStaleSeconds : ℤ

/-- What the registry answers for an operation. -/
structure PolicyResolution where
  policy : Option OperationPolicy
  reason : Str
  killSwitchActive : Bool := false

/-! ### Validation -/

/-- `isinstance(item, str) and item`: the text of a non-empty string. -/
def nonemptyString? : Value → Option Str
  | .str s => if s = [] then none else some s
  | _ => none

/-- `_strings`. -/
def strings (value : Value) (label : String) : Except PyError (Finset Str) :=
  match value with
  | .list items =>
    match items.mapM nonemptyString? with
    | some texts =>
      if texts.Nodup then .ok texts.toFinset
      else raiseValueError (label ++ " must contain unique values")
    | none => raiseValueError (label ++ " must be a string array")
  | _ => raiseValueError (label ++ " must be a string array")

/-- `isinstance(value, int)` for a value that is not a boolean, within bounds. -/
def boundedInt? (value : Value) (low high : ℤ) : Option ℤ :=
  match value with
  | .int n => if low ≤ n ∧ n ≤ high then some n else none
  | _ => none

/-- `raise ValueError(message)` when there is no value. -/
def orRaise {α : Type} (value : Option α) (message : Str) : Except PyError α :=
  match value with
  | some a => .ok a
  | none => .error (.valueError message [])

@[simp]
theorem orRaise_eq_ok {α : Type} {value : Option α} {message : Str} {a : α} :
    orRaise value message = .ok a ↔ value = some a := by
  cases value <;> simp [orRaise]

/-- The fields of an operation policy. -/
def operationFields : List Str :=
  [lit "mode", lit "trusted_result_producers", lit "trusted_validation_producers",
    lit "allowed_tiers", lit "max_validation_ttl_seconds", lit "receipt_requirement",
    lit "trusted_receipt_keys", lit "authorization_partition", lit "max_stale_seconds"]

/-- The checks of one operation up to the receipt requirement: its mode and its time to live. -/
def validateMode (operation : Str) (value : Value) : Except PyError (Mode × ℤ) := do
  raiseIf ((0x2F : CodePoint) ∉ operation) "operation policy keys must contain name/version"
  orRaise (if value.hasExactKeys operationFields then some () else none)
    (lit "invalid fields for operation " ++ operation)
  let mode ← orRaise (← (value.get (lit "mode")).lookupIn Mode.table)
    (lit "invalid mode for operation " ++ operation)
  let ttl ← orRaise (boundedInt? (value.get (lit "max_validation_ttl_seconds")) 1 604800)
    (lit "max_validation_ttl_seconds must be from 1 through 604800")
  pure (mode, ttl)

/-- The checks of the receipt requirement and the trusted receipt keys. -/
def validateReceipts (mode : Mode) (value : Value) :
    Except PyError (ReceiptRequirement × Finset Str) := do
  let requirement ← orRaise
    (← (value.get (lit "receipt_requirement")).lookupIn ReceiptRequirement.table)
    (lit "receipt_requirement must be optional or required")
  let keys ← strings (value.get (lit "trusted_receipt_keys")) "trusted_receipt_keys"
  raiseIf (¬∀ key ∈ keys, isDigest key) "trusted_receipt_keys must contain SHA-256 key identifiers"
  raiseIf (requirement = .required ∧ keys = ∅) "required receipts need at least one trusted key"
  raiseIf (requirement = .required ∧ mode ≠ .exactSubstitute)
    "required receipts currently support exact-substitute mode only"
  pure (requirement, keys)

/-- The checks of the authorization partition. -/
def validatePartition (mode : Mode) (value : Value) : Except PyError PartitionRequirement := do
  let partition ← orRaise
    (← (value.get (lit "authorization_partition")).lookupIn PartitionRequirement.table)
    (lit "authorization_partition must be public or required")
  raiseIf (partition = .required ∧ mode ≠ .exactSubstitute)
    "required authorization partitions support exact-substitute mode only"
  pure partition

/-- The body of the loop of `validate_policy_document`. -/
def validateOperation (operation : Str) (value : Value) : Except PyError OperationPolicy := do
  let (mode, ttl) ← validateMode operation value
  let (receiptRequirement, trustedReceiptKeys) ← validateReceipts mode value
  let authorizationPartition ← validatePartition mode value
  let maxStaleSeconds ← orRaise (boundedInt? (value.get (lit "max_stale_seconds")) 0 604800)
    (lit "max_stale_seconds must be from 0 through 604800")
  raiseIf (decide (mode = .staleWhileRevalidate) ≠ decide (maxStaleSeconds > 0))
    "only stale-while-revalidate mode requires positive max_stale_seconds"
  let trustedResultProducers ←
    strings (value.get (lit "trusted_result_producers")) "trusted_result_producers"
  let trustedValidationProducers ←
    strings (value.get (lit "trusted_validation_producers")) "trusted_validation_producers"
  let allowedTiers ← strings (value.get (lit "allowed_tiers")) "allowed_tiers"
  pure
    { mode, trustedResultProducers, trustedValidationProducers, allowedTiers,
      maxValidationTtlSeconds := ttl, receiptRequirement, trustedReceiptKeys,
      authorizationPartition, maxStaleSeconds }

/-- The loop of `validate_policy_document` over the operations. -/
def validateOperations : List (Str × Value) → Except PyError (List (Str × OperationPolicy))
  | [] => .ok []
  | (operation, value) :: rest => do
    let policy ← validateOperation operation value
    let policies ← validateOperations rest
    pure ((operation, policy) :: policies)

/-- The header of a policy document: its version and its `enabled` flag. -/
def documentEnabled (document : Value) : Except PyError Bool :=
  match (document.get (lit "spec_version")).eqStr (lit "oncemesh.policy/v0"),
    document.get (lit "enabled") with
  | true, .bool enabled => .ok enabled
  | _, _ => raiseValueError "invalid policy version or enabled value"

/-- A loop over the items of an object, which rejects a key that is not a string when it comes
to it. -/
def overItems {α : Type} (loop : List (Str × Value) → Except PyError α)
    (badKey notObject : String) : Value → Except PyError α
  | .dict items => loop items
  | .mixedDict before => do
    let _ ← loop before
    raiseValueError badKey
  | _ => raiseValueError notObject

/-- A validated policy document. -/
structure PolicyDocument where
  enabled : Bool
  policies : List (Str × OperationPolicy)

/-- `validate_policy_document`, with the `enabled` flag it has checked. -/
def validatePolicyDocument (document : Value) : Except PyError PolicyDocument := do
  raiseIf (!document.hasExactKeys [lit "spec_version", lit "enabled", lit "operations"])
    "invalid policy document fields"
  let enabled ← documentEnabled document
  let policies ← overItems validateOperations "operation policy keys must contain name/version"
    "operations must be an object" (document.get (lit "operations"))
  pure { enabled, policies }

/-! ### The registry -/

/-- `KILL_SWITCH_VALUES`. -/
def killSwitchValues : List Str := [lit "1", lit "true", lit "yes", lit "on"]

/-- A file of the registries: its octets, unless it is missing or unreadable. -/
abbrev File := Option Bytes

/-- `json.loads(path.read_text(encoding="utf-8"))`, which reads line ends of any kind as line
feeds. -/
def File.loadJson (file : File) : Except PyError Value :=
  match file with
  | none => .error .osError
  | some data =>
    match decodeUtf8 data with
    | some text => Json.loads (universalNewlines text)
    | none => .error .unicodeError

/-- A file with the canonical encoding of a document is read back, with sorted members. -/
theorem File.loadJson_canonicalBytes {v : Value} (hv : InProfile v) (hwf : v.WellFormed) :
    File.loadJson (some (canonicalBytes v)) = .ok v.sortKeys := by
  have hlines : (0x0D : CodePoint) ∉ Json.dumps v := fun hmem =>
    absurd (Json.le_of_mem_dumps v _ hmem) (by decide)
  rw [File.loadJson]
  simp only [decodeUtf8_of_encodeUtf8 (encodeUtf8_dumps hv), universalNewlines_of_notMem hlines]
  exact Json.loads_dumps hv.serializable hwf

/-- `except (OSError, UnicodeError, json.JSONDecodeError, ValueError)`. -/
def isRegistryError : PyError → Bool
  | .osError => true
  | e => e.isValueError

/-- `FilePolicyRegistry`: a policy file and the environment it is read in. -/
structure FilePolicyRegistry where
  file : File
  environment : Str → Option Str

namespace FilePolicyRegistry

/-- The kill switch is on. -/
def killSwitch (registry : FilePolicyRegistry) : Bool :=
  lower (strip ((registry.environment (lit "ONCEMESH_DISABLE_SUBSTITUTION")).getD [])) ∈
    killSwitchValues

/-- The guarded part of `resolve`: the file, parsed and validated. -/
def load (registry : FilePolicyRegistry) : Except PyError PolicyDocument := do
  let document ← registry.file.loadJson
  validatePolicyDocument document

/-- `FilePolicyRegistry.resolve`. -/
def resolve (registry : FilePolicyRegistry) (operation : Str) :
    Except PyError PolicyResolution :=
  if registry.killSwitch then
    .ok { policy := none, reason := lit "kill_switch", killSwitchActive := true }
  else
    match registry.load with
    | .error e =>
      if isRegistryError e then .ok { policy := none, reason := lit "policy_error" } else .error e
    | .ok document =>
      if !document.enabled then .ok { policy := none, reason := lit "policy_disabled" }
      else
        match document.policies.lookup operation with
        | none => .ok { policy := none, reason := lit "policy_disabled" }
        | some policy =>
          if policy.mode = .disabled then .ok { policy := none, reason := lit "policy_disabled" }
          else .ok { policy := some policy, reason := policy.mode.text }

end FilePolicyRegistry

end OnceMesh
