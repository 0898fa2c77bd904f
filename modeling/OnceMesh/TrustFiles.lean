import OnceMesh.KeyRegistry

/-!
# Failing closed

Both trust-file registries guard the reading, the parsing and the validation of their file by
one `except` clause. `Escapes` says that a computation raises an exception the clause does not
name. The validators have one such source: a membership test `value in frozenset` on an array or
an object raises `TypeError`. `escapes_validatePolicyDocument` and `escapes_validateKeyRegistry`
say exactly which documents reach such a test.
-/

namespace OnceMesh

open Python

/-! ### Exceptions the registries do not catch -/

/-- The computation raises an exception that the registries let through. -/
def Escapes {α : Type} (x : Except PyError α) : Prop :=
  ∃ e, x = .error e ∧ isRegistryError e = false

/-- A value lets nothing escape. -/
@[simp]
theorem not_escapes_ok {α : Type} (a : α) : ¬Escapes (.ok a : Except PyError α) := by
  rintro ⟨e, h, -⟩
  cases h

/-- A call that returns lets nothing escape. -/
@[simp]
theorem not_escapes_pure {α : Type} (a : α) : ¬Escapes (pure a : Except PyError α) :=
  not_escapes_ok a

/-- An exception that the registries handle does not escape. -/
theorem not_escapes_error {α : Type} {e : PyError} (h : isRegistryError e = true) :
    ¬Escapes (.error e : Except PyError α) := by
  rintro ⟨e', heq, he'⟩
  cases heq
  rw [h] at he'
  exact absurd he' (by decide)

/-- The registries and the readers catch every `ValueError`. -/
theorem isRegistryError_of_isValueError {e : PyError} (h : e.isValueError = true) :
    isRegistryError e = true := by
  cases e with
  | osError => rfl
  | _ => exact h

/-- What raises only a `ValueError` does not escape. -/
theorem not_escapes_of_raisesOnly {α : Type} {x : Except PyError α} (h : RaisesOnlyValueError x) :
    ¬Escapes x := by
  rintro ⟨e, he, hescapes⟩
  rw [isRegistryError_of_isValueError (h e he)] at hescapes
  cases hescapes

/-- A `ValueError` does not escape. -/
@[simp]
theorem not_escapes_raiseValueError {α : Type} (message : String) :
    ¬Escapes (raiseValueError message : Except PyError α) :=
  not_escapes_error rfl

/-- A check that raises a `ValueError` lets nothing escape. -/
@[simp]
theorem not_escapes_raiseIf (condition : Bool) (message : String) :
    ¬Escapes (raiseIf condition message) := by
  cases condition
  · exact not_escapes_ok ()
  · exact not_escapes_raiseValueError message

/-- A missing value is reported by a `ValueError`. -/
@[simp]
theorem not_escapes_orRaise {α : Type} (value : Option α) (message : Str) :
    ¬Escapes (orRaise value message) := by
  cases value with
  | none => exact not_escapes_error rfl
  | some a => exact not_escapes_ok a

/-- A sequenced computation escapes in its first part, or in the rest. -/
@[simp]
theorem escapes_bind {α β : Type} (x : Except PyError α) (f : α → Except PyError β) :
    Escapes (x >>= f) ↔ Escapes x ∨ ∃ a, x = .ok a ∧ Escapes (f a) := by
  cases x with
  | error e => simp [Escapes, bind, Except.bind]
  | ok a => simp [Escapes, bind, Except.bind]

/-- A function of the value of a call lets escape what the call does. -/
@[simp]
theorem escapes_map {α β : Type} (g : α → β) (x : Except PyError α) :
    Escapes (g <$> x) ↔ Escapes x := by
  cases x with
  | error e => simp [Escapes]
  | ok a => simp [Escapes]

/-- A membership test escapes on an unhashable operand. -/
@[simp]
theorem escapes_lookupIn {α : Type} (value : Value) (table : List (Str × α)) :
    Escapes (value.lookupIn table) ↔ value.hashable = false := by
  unfold Value.lookupIn
  cases h : value.hashable
  · simp [Escapes, isRegistryError, PyError.isValueError]
  · simp

/-- The check of an array of texts lets nothing escape. -/
@[simp]
theorem not_escapes_strings (value : Value) (label : String) : ¬Escapes (strings value label) := by
  unfold strings
  split
  · split
    · split_ifs
      · exact not_escapes_ok _
      · exact not_escapes_raiseValueError _
    · exact not_escapes_raiseValueError _
  · exact not_escapes_raiseValueError _

/-- The decoder of public keys lets nothing escape. -/
@[simp]
theorem not_escapes_decodePublicKey (value : Value) : ¬Escapes (decodePublicKey value) := by
  unfold decodePublicKey
  split
  · split_ifs
    · split
      · exact not_escapes_raiseValueError _
      · split_ifs
        · exact not_escapes_raiseValueError _
        · exact not_escapes_ok _
    · exact not_escapes_raiseValueError _
  · exact not_escapes_raiseValueError _

/-- Reading and parsing a file raises nothing but what the registries catch. -/
@[simp]
theorem not_escapes_loadJson (file : File) : ¬Escapes file.loadJson := by
  unfold File.loadJson
  split
  · exact not_escapes_error rfl
  · split
    · exact not_escapes_of_raisesOnly (Json.raisesOnly_loads _)
    · exact not_escapes_error rfl

/-! ### The documents whose validation escapes -/

/-- The items of a dictionary up to the first key that is not a string. -/
def itemsOf : Value → List (Str × Value)
  | .dict items | .mixedDict items => items
  | _ => []

/-- The validation of an operation tests an unhashable field for membership. Each field is
tested only after all checks before it have passed. -/
inductive OperationFault (operation : Str) (value : Value) : Prop
  | mode (name : (0x2F : CodePoint) ∈ operation)
      (fields : value.hasExactKeys operationFields = true)
      (unhashable : (value.get (lit "mode")).hashable = false)
  | receiptRequirement {mode : Mode} {ttl : ℤ}
      (before : validateMode operation value = .ok (mode, ttl))
      (unhashable : (value.get (lit "receipt_requirement")).hashable = false)
  | authorizationPartition {mode : Mode} {ttl : ℤ} {receipts : ReceiptRequirement × Finset Str}
      (before : validateMode operation value = .ok (mode, ttl))
      (before' : validateReceipts mode value = .ok receipts)
      (unhashable : (value.get (lit "authorization_partition")).hashable = false)

/-- The validation of a policy document reaches an operation with such a field, after operations
that are valid. -/
structure PolicyFault (document : Value) : Prop where
  fields : document.hasExactKeys [lit "spec_version", lit "enabled", lit "operations"] = true
  version : document.get (lit "spec_version") = .str (lit "oncemesh.policy/v0")
  enabled : ∃ flag, document.get (lit "enabled") = .bool flag
  reached : ∃ before operation value after,
    itemsOf (document.get (lit "operations")) = before ++ (operation, value) :: after ∧
      (∃ policies, validateOperations before = .ok policies) ∧ OperationFault operation value

section

variable [Sha256]

/-- The validation of a key registry reaches an entry with an unhashable status, after entries
that are valid. -/
structure KeyRegistryFault (document : Value) : Prop where
  fields : document.hasExactKeys [lit "spec_version", lit "keys"] = true
  version : document.get (lit "spec_version") = .str (lit "oncemesh.key-registry/v0")
  reached : ∃ before keyId value after,
    itemsOf (document.get (lit "keys")) = before ++ (keyId, value) :: after ∧
      (∃ records, validateKeyEntries before = .ok records) ∧ isDigest keyId = true ∧
      value.hasExactKeys [lit "profile", lit "public_key", lit "status", lit "producers"] = true ∧
      value.get (lit "profile") = .str signatureProfile ∧
      (value.get (lit "status")).hashable = false

end

/-- The mode is looked up in a table, which an unhashable value escapes. -/
theorem escapes_validateMode (operation : Str) (value : Value) :
    Escapes (validateMode operation value) ↔ (0x2F : CodePoint) ∈ operation ∧
      value.hasExactKeys operationFields = true ∧ (value.get (lit "mode")).hashable = false := by
  simp only [validateMode, escapes_bind, not_escapes_raiseIf, not_escapes_orRaise,
    not_escapes_pure, escapes_lookupIn, raiseIf_eq_ok, orRaise_eq_ok, false_or, or_false,
    and_false, exists_false, exists_and_left, exists_const]
  simp

/-- The receipt requirement is looked up in a table, which an unhashable value escapes. -/
theorem escapes_validateReceipts (mode : Mode) (value : Value) :
    Escapes (validateReceipts mode value) ↔
      (value.get (lit "receipt_requirement")).hashable = false := by
  simp only [validateReceipts, escapes_bind, not_escapes_raiseIf, not_escapes_orRaise,
    not_escapes_pure, escapes_lookupIn, not_escapes_strings, or_false, and_false, exists_false]

/-- The authorization partition is looked up in a table, which an unhashable value escapes. -/
theorem escapes_validatePartition (mode : Mode) (value : Value) :
    Escapes (validatePartition mode value) ↔
      (value.get (lit "authorization_partition")).hashable = false := by
  simp only [validatePartition, escapes_bind, not_escapes_raiseIf, not_escapes_orRaise,
    not_escapes_pure, escapes_lookupIn, or_false, and_false, exists_false]

/-- The validation of an operation escapes exactly at an unhashable field it reaches. -/
theorem escapes_validateOperation (operation : Str) (value : Value) :
    Escapes (validateOperation operation value) ↔ OperationFault operation value := by
  simp only [validateOperation, escapes_bind, escapes_validateMode, escapes_validateReceipts,
    escapes_validatePartition, not_escapes_raiseIf, not_escapes_orRaise, not_escapes_pure,
    not_escapes_strings, or_false, and_false, exists_false]
  constructor
  · rintro (⟨hname, hfields, hmode⟩ | ⟨⟨mode, ttl⟩, hmode,
      hreceipt | ⟨receipts, hreceipts, hpartition⟩⟩)
    · exact .mode hname hfields hmode
    · exact .receiptRequirement hmode hreceipt
    · exact .authorizationPartition hmode hreceipts hpartition
  · rintro (⟨hname, hfields, hmode⟩ | ⟨hmode, hreceipt⟩ | ⟨hmode, hreceipts, hpartition⟩)
    · exact Or.inl ⟨hname, hfields, hmode⟩
    · exact Or.inr ⟨_, hmode, Or.inl hreceipt⟩
    · exact Or.inr ⟨_, hmode, Or.inr ⟨_, hreceipts, hpartition⟩⟩

/-- A loop over items escapes at the first item that does, after items that pass. -/
theorem escapes_loop {α : Type} {check : Str → Value → Except PyError α}
    {loop : List (Str × Value) → Except PyError (List (Str × α))} (hnil : loop [] = .ok [])
    (hcons : ∀ k v rest, loop ((k, v) :: rest) =
      check k v >>= fun a => loop rest >>= fun as => pure ((k, a) :: as))
    (items : List (Str × Value)) :
    Escapes (loop items) ↔ ∃ before k v after, items = before ++ (k, v) :: after ∧
      (∃ checked, loop before = .ok checked) ∧ Escapes (check k v) := by
  induction items with
  | nil => simp [hnil]
  | cons i is ih =>
    obtain ⟨k, v⟩ := i
    simp only [hcons, escapes_bind, not_escapes_pure, and_false, exists_false, or_false]
    constructor
    · rintro (hhead | ⟨a, ha, htail⟩)
      · exact ⟨[], k, v, is, rfl, ⟨[], hnil⟩, hhead⟩
      · obtain ⟨before, k', v', after, rfl, ⟨checked, hbefore⟩, hfault⟩ := ih.mp htail
        refine ⟨(k, v) :: before, k', v', after, rfl, ⟨(k, a) :: checked, ?_⟩, hfault⟩
        rw [hcons, ha, Except.ok_bind, hbefore]
        rfl
    · rintro ⟨before, k', v', after, heq, ⟨checked, hbefore⟩, hfault⟩
      cases before with
      | nil =>
        rw [List.nil_append, List.cons.injEq, Prod.mk.injEq] at heq
        obtain ⟨⟨rfl, rfl⟩, -⟩ := heq
        exact Or.inl hfault
      | cons j js =>
        rw [List.cons_append, List.cons.injEq] at heq
        obtain ⟨rfl, rfl⟩ := heq
        rw [hcons, Except.bind_eq_ok] at hbefore
        obtain ⟨a, ha, hjs⟩ := hbefore
        obtain ⟨as, has, -⟩ := Except.bind_eq_ok.mp hjs
        exact Or.inr ⟨a, ha, ih.mpr ⟨js, k', v', after, rfl, ⟨as, has⟩, hfault⟩⟩

/-- A loop over the members of an object lets escape what its steps do. -/
@[simp]
theorem escapes_overItems {α : Type} {loop : List (Str × Value) → Except PyError (List α)}
    (hnil : loop [] = .ok []) (badKey notObject : String) (value : Value) :
    Escapes (overItems loop badKey notObject value) ↔ Escapes (loop (itemsOf value)) := by
  cases value <;> simp [overItems, itemsOf, hnil]

/-- The head of a policy document lets nothing escape. -/
@[simp]
theorem not_escapes_documentEnabled (document : Value) : ¬Escapes (documentEnabled document) := by
  unfold documentEnabled
  split
  · exact not_escapes_ok _
  · exact not_escapes_raiseValueError _

/-- The head of a policy document is its version and a flag. -/
theorem documentEnabled_eq_ok {document : Value} {flag : Bool} :
    documentEnabled document = .ok flag ↔
      document.get (lit "spec_version") = .str (lit "oncemesh.policy/v0") ∧
        document.get (lit "enabled") = .bool flag := by
  rw [← Value.eqStr_eq_true]
  unfold documentEnabled
  split
  · next h₁ h₂ => simp [h₁, h₂]
  · next h =>
    simp only [raiseValueError, reduceCtorEq, false_iff, not_and]
    exact fun h₁ h₂ => h flag h₁ h₂

/-- A policy document escapes validation exactly at a fault. -/
theorem escapes_validatePolicyDocument (document : Value) :
    Escapes (validatePolicyDocument document) ↔ PolicyFault document := by
  have hloop := @escapes_loop _ validateOperation validateOperations rfl
    (fun _ _ _ => rfl) (itemsOf (document.get (lit "operations")))
  simp only [escapes_validateOperation] at hloop
  simp only [validatePolicyDocument, escapes_bind, not_escapes_raiseIf,
    not_escapes_documentEnabled, @escapes_overItems _ validateOperations rfl, hloop,
    not_escapes_pure, raiseIf_eq_ok, documentEnabled_eq_ok, false_or, or_false, and_false,
    exists_false, exists_and_left]
  constructor
  · rintro ⟨hfields, -, flag, ⟨hversion, hflag⟩, hreached⟩
    exact ⟨by simpa using hfields, hversion, ⟨flag, hflag⟩, hreached⟩
  · rintro ⟨hfields, hversion, ⟨flag, hflag⟩, hreached⟩
    exact ⟨by simpa using hfields, (), flag, ⟨hversion, hflag⟩, hreached⟩

/-- The status of a key is looked up in a table, which an unhashable value escapes. -/
theorem escapes_validateKeyStatus (keyId : Str) (value : Value) :
    Escapes (validateKeyStatus keyId value) ↔ isDigest keyId = true ∧
      value.hasExactKeys [lit "profile", lit "public_key", lit "status", lit "producers"] = true ∧
      value.get (lit "profile") = .str signatureProfile ∧
      (value.get (lit "status")).hashable = false := by
  simp only [validateKeyStatus, escapes_bind, not_escapes_raiseIf, not_escapes_orRaise,
    escapes_lookupIn, raiseIf_eq_ok, false_or, or_false, and_false, exists_false,
    exists_and_left, exists_const, Bool.not_eq_false', Value.eqStr_eq_true]

section

variable [Sha256]

/-- The validation of an entry escapes exactly at an unhashable status it reaches. -/
theorem escapes_validateKeyEntry (keyId : Str) (value : Value) :
    Escapes (validateKeyEntry keyId value) ↔ isDigest keyId = true ∧
      value.hasExactKeys [lit "profile", lit "public_key", lit "status", lit "producers"] = true ∧
      value.get (lit "profile") = .str signatureProfile ∧
      (value.get (lit "status")).hashable = false := by
  simp only [validateKeyEntry, escapes_bind, escapes_validateKeyStatus, not_escapes_raiseIf,
    not_escapes_orRaise, not_escapes_decodePublicKey, not_escapes_pure, or_false, and_false,
    exists_false]

/-- A key registry escapes validation exactly at a fault. -/
theorem escapes_validateKeyRegistry (document : Value) :
    Escapes (validateKeyRegistry document) ↔ KeyRegistryFault document := by
  have hloop := @escapes_loop _ validateKeyEntry validateKeyEntries rfl
    (fun _ _ _ => rfl) (itemsOf (document.get (lit "keys")))
  simp only [escapes_validateKeyEntry] at hloop
  simp only [validateKeyRegistry, escapes_bind, not_escapes_raiseIf,
    @escapes_overItems _ validateKeyEntries rfl, hloop, raiseIf_eq_ok, false_or,
    exists_and_left, exists_const, Bool.not_eq_false', Value.eqStr_eq_true]
  constructor
  · rintro ⟨hfields, hversion, hreached⟩
    exact ⟨hfields, hversion, hreached⟩
  · rintro ⟨hfields, hversion, hreached⟩
    exact ⟨hfields, hversion, hreached⟩

end

/-! ### The registries -/

/-- The policy file makes validation raise an exception `resolve` does not catch: the kill
switch is off, and the file parses to a document with a fault. -/
def FilePolicyRegistry.Fault (registry : FilePolicyRegistry) : Prop :=
  registry.killSwitch = false ∧
    ∃ document, registry.file.loadJson = .ok document ∧ PolicyFault document

/-- The key registry file parses to a document with a fault. -/
def FileReceiptKeyRegistry.Fault [Sha256] (registry : FileReceiptKeyRegistry) : Prop :=
  ∃ document, registry.file.loadJson = .ok document ∧ KeyRegistryFault document

/-- `FilePolicyRegistry.resolve` fails closed: it returns, and it returns no policy when the kill
switch is on, when there is no file, and when the file is not a valid policy document. -/
def FilePolicyRegistry.FailsClosed (registry : FilePolicyRegistry) (operation : Str) : Prop :=
  ∃ resolution, registry.resolve operation = .ok resolution ∧
    (registry.killSwitch = true ∨ registry.file = none ∨
      (¬∃ document, registry.load = .ok document) → resolution.policy = none)

/-- `FileReceiptKeyRegistry.resolve` fails closed: it returns, and a key only out of a valid
document, active, and permitted for the producer. -/
def FileReceiptKeyRegistry.FailsClosed [Sha256] (registry : FileReceiptKeyRegistry)
    (keyId producer : Str) : Prop :=
  ∃ resolution, registry.resolve keyId producer = .ok resolution ∧
    ∀ key, resolution.key = some key → ∃ records, registry.load = .ok records ∧
      records.lookup keyId = some key ∧ key.status = .active ∧ producer ∈ key.producers

/-- A policy file that lets something escape is read, and has an unhashable value. -/
theorem FilePolicyRegistry.escapes_load (registry : FilePolicyRegistry) :
    Escapes registry.load ↔
      ∃ document, registry.file.loadJson = .ok document ∧ PolicyFault document := by
  simp only [load, escapes_bind, not_escapes_loadJson, false_or, escapes_validatePolicyDocument]

/-- `FilePolicyRegistry.resolve` fails closed exactly without a fault. -/
theorem FilePolicyRegistry.failsClosed_iff (registry : FilePolicyRegistry) (operation : Str) :
    registry.FailsClosed operation ↔ ¬registry.Fault := by
  unfold FailsClosed Fault resolve
  rw [← registry.escapes_load]
  cases hswitch : registry.killSwitch with
  | true => simp
  | false =>
    cases hload : registry.load with
    | error e =>
      cases he : isRegistryError e <;> simp [Escapes, he]
    | ok document =>
      have hfile : registry.file ≠ none := by
        intro hnone
        rw [load, hnone] at hload
        cases hload
      have hresolution : ∀ x : Except PyError PolicyResolution, (∃ r, x = .ok r) →
          ∃ r, x = .ok r ∧ (false = true ∨ registry.file = none ∨
            (¬∃ d, Except.ok document = (.ok d : Except PyError PolicyDocument)) →
              r.policy = none) := by
        rintro x ⟨r, hr⟩
        exact ⟨r, hr, by simp [hfile]⟩
      refine iff_of_true (hresolution _ ?_) (by simp)
      simp only [Bool.false_eq_true, ↓reduceIte]
      split_ifs
      · exact ⟨_, rfl⟩
      · split
        · exact ⟨_, rfl⟩
        · split_ifs <;> exact ⟨_, rfl⟩

section

variable [Sha256]

/-- A key file that lets something escape is read, and has an unhashable value. -/
theorem FileReceiptKeyRegistry.escapes_load (registry : FileReceiptKeyRegistry) :
    Escapes registry.load ↔ registry.Fault := by
  simp only [load, Fault, escapes_bind, not_escapes_loadJson, false_or,
    escapes_validateKeyRegistry]

/-- `FileReceiptKeyRegistry.resolve` fails closed exactly without a fault. -/
theorem FileReceiptKeyRegistry.failsClosed_iff (registry : FileReceiptKeyRegistry)
    (keyId producer : Str) : registry.FailsClosed keyId producer ↔ ¬registry.Fault := by
  unfold FailsClosed resolve
  rw [← registry.escapes_load]
  cases hload : registry.load with
  | error e => cases he : isRegistryError e <;> simp [Escapes, he]
  | ok records =>
    refine iff_of_true ?_ (by simp)
    simp only
    cases hlookup : records.lookup keyId with
    | none => exact ⟨_, by rfl, by simp⟩
    | some record =>
      simp only
      by_cases hrevoked : record.status = .revoked
      · rw [if_pos hrevoked]
        exact ⟨_, rfl, by simp⟩
      have hactive : record.status = .active := by
        cases hstatus : record.status
        · rfl
        · exact absurd hstatus hrevoked
      rw [if_neg hrevoked]
      by_cases hproducer : producer ∈ record.producers
      · rw [if_neg (by simpa using hproducer)]
        refine ⟨_, rfl, ?_⟩
        rintro key ⟨⟩
        exact ⟨records, rfl, hlookup, hactive, hproducer⟩
      · rw [if_pos hproducer]
        exact ⟨_, rfl, by simp⟩

/-- Both trust files fail closed exactly when neither makes validation test an unhashable field
for membership. -/
theorem trustFiles_failClosed_iff (policies : FilePolicyRegistry) (operation : Str)
    (keys : FileReceiptKeyRegistry) (keyId producer : Str) :
    (policies.FailsClosed operation ∧ keys.FailsClosed keyId producer) ↔
      ¬policies.Fault ∧ ¬keys.Fault :=
  and_congr (policies.failsClosed_iff operation) (keys.failsClosed_iff keyId producer)

end

/-- A policy document whose only operation has an array as its mode. -/
def arrayModeDocument : Value :=
  .dict [(lit "spec_version", .str (lit "oncemesh.policy/v0")), (lit "enabled", .bool true),
    (lit "operations", .dict [(lit "http.fetch/1", .dict
      [(lit "mode", .list []), (lit "trusted_result_producers", .list []),
        (lit "trusted_validation_producers", .list []), (lit "allowed_tiers", .list []),
        (lit "max_validation_ttl_seconds", .int 3600),
        (lit "receipt_requirement", .str (lit "optional")),
        (lit "trusted_receipt_keys", .list []),
        (lit "authorization_partition", .str (lit "public")),
        (lit "max_stale_seconds", .int 0)])])]

/-- With an array as mode, the policy registry raises, and so does not fail closed. -/
theorem not_failClosed_arrayMode :
    ¬∃ _ : Sha256, ∀ (policies : FilePolicyRegistry) (operation : Str)
      (keys : FileReceiptKeyRegistry) (keyId producer : Str),
      policies.FailsClosed operation ∧ keys.FailsClosed keyId producer := by
  rintro ⟨_, hall⟩
  have hprofile : InProfile arrayModeDocument :=
    (validate_eq_ok arrayModeDocument (lit "$")).mp (by decide +kernel)
  have hwf : arrayModeDocument.WellFormed := by simp [arrayModeDocument, Value.WellFormed,
    Value.WellFormedItems, Value.WellFormedList]
  have hload := File.loadJson_canonicalBytes hprofile hwf
  have hraise : raised? (validatePolicyDocument arrayModeDocument.sortKeys) =
      some (.typeError (lit "unhashable type")) := by decide +kernel
  have hfault : PolicyFault arrayModeDocument.sortKeys := by
    rw [← escapes_validatePolicyDocument]
    exact ⟨_, raised?_eq_some.mp hraise, rfl⟩
  have hclosed := (hall ⟨some (canonicalBytes arrayModeDocument), fun _ => none⟩
    (lit "http.fetch/1") ⟨none⟩ [] []).1
  rw [FilePolicyRegistry.failsClosed_iff] at hclosed
  exact hclosed ⟨by decide, _, hload, hfault⟩

end OnceMesh
