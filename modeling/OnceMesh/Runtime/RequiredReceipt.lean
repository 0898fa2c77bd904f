import OnceMesh.Federation.FirstEntry
import OnceMesh.Federation.ReadBack
import OnceMesh.FilesystemStore.Malformed
import OnceMesh.Runtime.Outcomes
import OnceMesh.StoreWriter

/-!
# Required receipts

A candidate passes the receipt gate just if its store holds a receipt that is accepted: signed by a
key that the policy trusts and the registry has as active for the producer, and verified for the
manifest. The receipts beside it neither open the gate nor close it, and their order is of no
consequence, also for the reason that is given when none is accepted.

The loop over the receipts ends early in one way only (`checkReceipts_eq`): at an accepted receipt,
or, if the registry cannot be read, at the first receipt under a trusted key.
-/

namespace OnceMesh

open Python

section

variable [Sha256] [Ed25519]

/-- The receipts a store returns have been validated. -/
structure Store.ValidatesReceipts (store : Store) : Prop where
  valid : ∀ {digest receipts}, store.receipts digest = .ok receipts → ∀ receipt ∈ receipts,
    ∃ fields, validateReceipt receipt false = .ok fields

/-- The receipt is signed by a key that the policy trusts and the registry has as active for the
producer, and it verifies for exactly this manifest. -/
def ReceiptAccepted (manifest : Manifest) (policy : OperationPolicy)
    (registry : FileReceiptKeyRegistry) (receipt : Value) : Prop :=
  ∃ keyId record records,
    (receipt.get (lit "signature")).get (lit "key_id") = .str keyId ∧
    keyId ∈ policy.trustedReceiptKeys ∧
    registry.load = .ok records ∧ records.lookup keyId = some record ∧
    record.status = .active ∧ manifest.fields.producer ∈ record.producers ∧
    verifyReceiptForManifest receipt manifest record.publicKey = .ok true

/-! ### One receipt -/

omit [Sha256] [Ed25519] in
theorem raisesOnly_receiptSigningInput (receipt : Value) :
    RaisesOnlyValueError (receiptSigningInput receipt) :=
  .bind (raisesOnly_validateReceipt _ _) fun _ _ => .bind (raisesOnly_canonicalJson _) fun _ _ =>
    .pure _

theorem raisesOnly_verifyReceipt (receipt : Value) (publicKey : Bytes) :
    RaisesOnlyValueError (verifyReceipt receipt publicKey) := by
  refine .bind (raisesOnly_validateReceipt _ _) fun fields _ => ?_
  refine .bind (raisesOnly_raiseIf _ _) fun _ _ => ?_
  split
  · exact raisesOnly_raiseValueError _
  · split_ifs
    · exact .pure _
    · exact .bind (raisesOnly_receiptSigningInput _) fun _ _ => .pure _

/-- The verification of a receipt only ever raises a `ValueError`, which the loop catches. -/
theorem raisesOnly_verifyReceiptForManifest (receipt : Value) (manifest : Manifest)
    (publicKey : Bytes) :
    RaisesOnlyValueError (verifyReceiptForManifest receipt manifest publicKey) := by
  refine .bind (raisesOnly_validateReceipt _ _) fun fields _ => ?_
  split_ifs
  · exact .pure _
  · exact .pure _
  · exact raisesOnly_verifyReceipt _ _

omit [Sha256] [Ed25519] in
/-- A signature that is not null is a dictionary, with a text as key identifier. -/
theorem exists_keyId_of_validateSignature {signature : Value} {pair : Str × Bytes}
    (h : validateSignature signature = .ok pair) :
    signature.isDict = true ∧ ∃ keyId, signature.get (lit "key_id") = .str keyId := by
  obtain ⟨_, hkeys, h⟩ := Except.bind_eq_ok.mp h
  obtain ⟨_, -, h⟩ := Except.bind_eq_ok.mp h
  obtain ⟨keyId, hkeyId, -⟩ := Except.bind_eq_ok.mp h
  have hexact := raiseIf_eq_ok.mp hkeys
  refine ⟨isDict_of_hasExactKeys (by simpa using hexact), ?_⟩
  unfold requireDigest at hkeyId
  split at hkeyId
  next text htext => exact ⟨text, htext⟩
  next => cases hkeyId

omit [Sha256] [Ed25519] in
/-- The signature of a validated receipt is null, or has passed its checks. -/
theorem signature_of_validateReceipt {receipt : Value} {fields : ReceiptFields}
    (h : validateReceipt receipt false = .ok fields) :
    receipt.isDict = true ∧ (receipt.get (lit "signature") = .none ∨
      ∃ pair, validateSignature (receipt.get (lit "signature")) = .ok pair) := by
  obtain ⟨_, hkeys, h⟩ := Except.bind_eq_ok.mp h
  obtain ⟨_, -, h⟩ := Except.bind_eq_ok.mp h
  obtain ⟨resultDigest, -, h⟩ := Except.bind_eq_ok.mp h
  obtain ⟨producer, -, h⟩ := Except.bind_eq_ok.mp h
  obtain ⟨_, -, h⟩ := Except.bind_eq_ok.mp h
  have hexact := raiseIf_eq_ok.mp hkeys
  refine ⟨isDict_of_hasExactKeys (by simpa using hexact), ?_⟩
  dsimp only at h
  split at h
  next hnone => exact .inl hnone
  next =>
    obtain ⟨signature, hsignature, -⟩ := Except.bind_eq_ok.mp h
    cases hvalid : validateSignature (receipt.get (lit "signature")) with
    | error e =>
      rw [hvalid] at hsignature
      cases hsignature
    | ok pair => exact .inr ⟨pair, rfl⟩

/-- Where the loop ends early: at a verified receipt or, if the registry cannot be read, at the
first key that has to be resolved. -/
def FileReceiptKeyRegistry.stop (registry : FileReceiptKeyRegistry) : Except PyError ReceiptCheck :=
  match registry.load with
  | .ok _ => .ok .verified
  | .error e => if isRegistryError e then .ok .registryError else .error e

section

variable {manifest : Manifest} {policy : OperationPolicy} {registry : FileReceiptKeyRegistry}
  {receipt : Value} {fields : ReceiptFields}

/-- The checks of a receipt under a trusted key. -/
theorem checkReceipt_of_trusted {keyId : Str} (hdict : receipt.isDict = true)
    (hsignature : (receipt.get (lit "signature")).isDict = true)
    (hkeyId : (receipt.get (lit "signature")).get (lit "key_id") = .str keyId)
    (htrusted : keyId ∈ policy.trustedReceiptKeys) :
    checkReceipt manifest policy registry receipt =
      match registry.load with
      | .error e => if isRegistryError e then .ok .registryError else .error e
      | .ok records =>
        match records.lookup keyId with
        | none => .ok (.failed (lit "receipt_key_unknown"))
        | some record =>
          if record.status = .revoked then .ok (.failed (lit "receipt_key_revoked"))
          else if manifest.fields.producer ∉ record.producers then
            .ok (.failed (lit "receipt_producer_denied"))
          else
            match verifyReceiptForManifest receipt manifest record.publicKey with
            | .ok true => .ok .verified
            | _ => .ok (.failed (lit "receipt_invalid")) := by
  rw [checkReceipt_eq_bind hdict hsignature hkeyId htrusted, FileReceiptKeyRegistry.resolve]
  cases hload : registry.load with
  | error e =>
    dsimp only
    split_ifs
    · rfl
    · rfl
  | ok records =>
    dsimp only
    cases hlookup : records.lookup keyId with
    | none => rfl
    | some record =>
      dsimp only
      by_cases hrevoked : record.status = .revoked
      · rw [if_pos hrevoked, if_pos hrevoked]
        rfl
      rw [if_neg hrevoked, if_neg hrevoked]
      by_cases hproducer : manifest.fields.producer ∈ record.producers
      swap
      · rw [if_pos hproducer, if_pos hproducer]
        rfl
      rw [if_neg (not_not.mpr hproducer), if_neg (not_not.mpr hproducer), Except.ok_bind,
        if_neg (show lit "active" ≠ lit "receipt_registry_error" by decide)]
      dsimp only
      cases hverify : verifyReceiptForManifest receipt manifest record.publicKey with
      | ok verified =>
        cases verified with
        | true => rfl
        | false => rfl
      | error e =>
        -- a `ValueError` is caught, and nothing else is raised
        exact if_pos (raisesOnly_verifyReceiptForManifest _ _ _ e hverify)

/-- The checks of a validated receipt. -/
theorem checkReceipt_of_valid (h : validateReceipt receipt false = .ok fields) :
    checkReceipt manifest policy registry receipt = registry.stop ∨
      ∃ reason, checkReceipt manifest policy registry receipt = .ok (.failed reason) := by
  obtain ⟨hdict, hnone | ⟨pair, hvalid⟩⟩ := signature_of_validateReceipt h
  · right
    refine ⟨lit "receipt_missing", ?_⟩
    unfold checkReceipt
    rw [callGet, if_pos hdict, Except.ok_bind, hnone]
    rfl
  · obtain ⟨hsignature, keyId, hkeyId⟩ := exists_keyId_of_validateSignature hvalid
    by_cases htrusted : keyId ∈ policy.trustedReceiptKeys
    · rw [checkReceipt_of_trusted hdict hsignature hkeyId htrusted, FileReceiptKeyRegistry.stop]
      cases registry.load with
      | error e => exact .inl rfl
      | ok records =>
        dsimp only
        split
        · exact .inr ⟨_, rfl⟩
        · split_ifs
          · exact .inr ⟨_, rfl⟩
          · split
            · exact .inl rfl
            · exact .inr ⟨_, rfl⟩
          · exact .inr ⟨_, rfl⟩
    · right
      refine ⟨lit "receipt_key_untrusted", ?_⟩
      unfold checkReceipt
      rw [callGet, if_pos hdict]
      simp only [Except.ok_bind, hsignature, hkeyId, Bool.not_true, Bool.false_eq_true, if_false,
        htrusted, not_false_eq_true, if_true]
      rfl

theorem checkReceipt_eq_verified_iff (h : validateReceipt receipt false = .ok fields) :
    checkReceipt manifest policy registry receipt = .ok .verified ↔
      ReceiptAccepted manifest policy registry receipt := by
  constructor
  · intro hcheck
    obtain ⟨keyId, key, reason, hkeyId, htrusted, hresolve, hverify⟩ :=
      checkReceipt_eq_verified hcheck
    rw [FileReceiptKeyRegistry.resolve] at hresolve
    split at hresolve
    · split_ifs at hresolve
      cases hresolve
    next records hload =>
      split at hresolve
      · cases hresolve
      next record hlookup =>
        split_ifs at hresolve with hrevoked hproducer
        · cases hresolve
        · cases hresolve
          refine ⟨keyId, _, records, hkeyId, htrusted, hload, hlookup, ?_, hproducer, hverify⟩
          cases hstatus : key.status with
          | active => rfl
          | revoked => exact absurd hstatus hrevoked
        · cases hresolve
  · rintro ⟨keyId, record, records, hkeyId, htrusted, hload, hlookup, hactive, hproducer, hverify⟩
    obtain ⟨hdict, hnone | ⟨pair, hvalid⟩⟩ := signature_of_validateReceipt h
    · rw [hnone] at hkeyId
      cases hkeyId
    · obtain ⟨hsignature, -⟩ := exists_keyId_of_validateSignature hvalid
      rw [checkReceipt_of_trusted hdict hsignature hkeyId htrusted]
      simp only [hload, hlookup, hactive, reduceCtorEq, if_false, hproducer, not_true_eq_false,
        hverify]

/-- A receipt is accepted only if the registry can be read. -/
theorem ReceiptAccepted.stop (h : ReceiptAccepted manifest policy registry receipt) :
    registry.stop = .ok .verified := by
  obtain ⟨keyId, record, records, -, -, hload, -⟩ := h
  rw [FileReceiptKeyRegistry.stop, hload]

end

/-! ### The loop -/

section

variable {manifest : Manifest} {policy : OperationPolicy} {registry : FileReceiptKeyRegistry}

/-- The reason that is reported depends on the set of the failures alone. -/
theorem checkReceipts_nil_congr {failures failures' : List Str}
    (h : ∀ reason, reason ∈ failures ↔ reason ∈ failures') :
    checkReceipts manifest policy registry failures [] =
      checkReceipts manifest policy registry failures' [] := by
  simp only [checkReceipts, h]

/-- If every receipt fails, the loop reports one of the reasons. -/
theorem checkReceipts_of_failed {receipts : List Value} {failures : List Str}
    (h : ∀ receipt ∈ receipts, ∃ reason,
      checkReceipt manifest policy registry receipt = .ok (.failed reason)) :
    ∃ reasons, checkReceipts manifest policy registry failures receipts =
        checkReceipts manifest policy registry reasons [] ∧
      ∀ reason, reason ∈ reasons ↔ reason ∈ failures ∨
        ∃ receipt ∈ receipts, checkReceipt manifest policy registry receipt =
          .ok (.failed reason) := by
  induction receipts generalizing failures with
  | nil => exact ⟨failures, rfl, fun reason => by simp⟩
  | cons receipt rest ih =>
    rw [List.forall_mem_cons] at h
    obtain ⟨⟨reason, hreason⟩, hrest⟩ := h
    obtain ⟨reasons, heq, hreasons⟩ := @ih (failures ++ [reason]) hrest
    refine ⟨reasons, ?_, fun reason' => ?_⟩
    · rw [← heq, checkReceipts, hreason]
      rfl
    · rw [hreasons, List.mem_append, List.mem_singleton, List.exists_mem_cons_iff, hreason]
      simp only [Except.ok.injEq, ReceiptCheck.failed.injEq, or_assoc, eq_comm]

/-- What the loop returns at a receipt that ends it. -/
def stopOutcome : Except PyError ReceiptCheck → Except PyError (Option Str)
  | .ok .registryError => .ok (some (lit "receipt_registry_error"))
  | .ok _ => .ok none
  | .error e => .error e

/-- The loop ends early at the first receipt that does not fail. -/
theorem checkReceipts_of_stop {receipts : List Value} {failures : List Str}
    (h : ∀ receipt ∈ receipts, checkReceipt manifest policy registry receipt = registry.stop ∨
      ∃ reason, checkReceipt manifest policy registry receipt = .ok (.failed reason))
    (hstop : ∃ receipt ∈ receipts,
      checkReceipt manifest policy registry receipt = registry.stop) :
    checkReceipts manifest policy registry failures receipts = stopOutcome registry.stop := by
  induction receipts generalizing failures with
  | nil =>
    obtain ⟨_, hmem, -⟩ := hstop
    cases hmem
  | cons receipt rest ih =>
    rw [List.forall_mem_cons] at h
    obtain ⟨hhead | ⟨reason, hreason⟩, hrest⟩ := h
    · rw [checkReceipts, hhead, FileReceiptKeyRegistry.stop]
      cases registry.load with
      | ok records => rfl
      | error e =>
        dsimp only
        split_ifs
        · rfl
        · rfl
    · rw [checkReceipts, hreason]
      -- a failure is no reason to stop
      have hne : checkReceipt manifest policy registry receipt ≠ registry.stop := by
        rw [hreason, FileReceiptKeyRegistry.stop]
        split
        · simp
        · split_ifs
          · simp
          · simp
      rw [List.exists_mem_cons_iff] at hstop
      exact ih hrest (hstop.resolve_left hne)

/-- The loop passes only at an accepted receipt. -/
theorem checkReceipts_eq_none_iff {receipts : List Value}
    (h : ∀ receipt ∈ receipts, ∃ fields, validateReceipt receipt false = .ok fields) :
    checkReceipts manifest policy registry [] receipts = .ok none ↔
      ∃ receipt ∈ receipts, ReceiptAccepted manifest policy registry receipt := by
  constructor
  · intro hnone
    obtain ⟨receipt, hmem, hverified⟩ := exists_verified_of_checkReceipts hnone
    obtain ⟨fields, hvalid⟩ := h receipt hmem
    exact ⟨receipt, hmem, (checkReceipt_eq_verified_iff hvalid).mp hverified⟩
  · rintro ⟨receipt, hmem, haccepted⟩
    obtain ⟨fields, hvalid⟩ := h receipt hmem
    have hverified := (checkReceipt_eq_verified_iff hvalid).mpr haccepted
    rw [checkReceipts_of_stop
      (fun receipt hmem => checkReceipt_of_valid (h receipt hmem).choose_spec)
      ⟨receipt, hmem, hverified.trans haccepted.stop.symm⟩, haccepted.stop]
    rfl

/-- The outcome of the loop depends on the set of the receipts alone. -/
theorem checkReceipts_congr {receipts receipts' : List Value}
    (h : ∀ receipt ∈ receipts, ∃ fields, validateReceipt receipt false = .ok fields)
    (hsame : ∀ receipt, receipt ∈ receipts ↔ receipt ∈ receipts') :
    checkReceipts manifest policy registry [] receipts =
      checkReceipts manifest policy registry [] receipts' := by
  have hcheck : ∀ receipt ∈ receipts, checkReceipt manifest policy registry receipt =
    registry.stop ∨
      ∃ reason, checkReceipt manifest policy registry receipt = .ok (.failed reason) :=
    fun receipt hmem => checkReceipt_of_valid (h receipt hmem).choose_spec
  by_cases hstop : ∃ receipt ∈ receipts,
      checkReceipt manifest policy registry receipt = registry.stop
  · have hcheck' := hcheck
    have hstop' := hstop
    simp only [hsame] at hcheck' hstop'
    rw [checkReceipts_of_stop hcheck hstop, checkReceipts_of_stop hcheck' hstop']
  · have hfailed : ∀ receipt ∈ receipts, ∃ reason,
        checkReceipt manifest policy registry receipt = .ok (.failed reason) :=
      fun receipt hmem => (hcheck receipt hmem).resolve_left fun heq => hstop ⟨receipt, hmem, heq⟩
    have hfailed' := hfailed
    simp only [hsame] at hfailed'
    obtain ⟨reasons, heq, hreasons⟩ := @checkReceipts_of_failed _ _ _ _ _ _ [] hfailed
    obtain ⟨reasons', heq', hreasons'⟩ := @checkReceipts_of_failed _ _ _ _ _ _ [] hfailed'
    rw [heq, heq']
    apply checkReceipts_nil_congr
    intro reason
    rw [hreasons, hreasons']
    simp only [hsame]

end

/-! ### The gate -/

/-- `_required_receipt_failure` of a candidate that may have no manifest. -/
def candidateReceiptFailure (candidate : LookupOutcome) (stores : List Store)
    (policy : OperationPolicy) (registry : Option FileReceiptKeyRegistry) :
    Except PyError (Option Str) :=
  match registry, candidate.hit with
  | none, _ => .ok (some (lit "receipt_registry_missing"))
  | some _, none => .ok (some (lit "receipt_missing"))
  | some registry, some hit => requiredReceiptFailure hit stores policy (some registry)

/-- The store of the candidate holds an accepted receipt. -/
def HoldsAcceptedReceipt (candidate : LookupOutcome) (stores : List Store)
    (policy : OperationPolicy) (registry : Option FileReceiptKeyRegistry) : Prop :=
  ∃ keys ∈ registry, ∃ hit ∈ candidate.hit, ∃ source receipts,
    (stores.find? fun store => decide (store.name = hit.tier)) = some source ∧
    source.receipts hit.manifest.digest = .ok receipts ∧
    ∃ receipt ∈ receipts, ReceiptAccepted hit.manifest policy keys receipt

/-- Two stores of one name hold the same receipts, as far as some are concerned: in any order, any
number of times, and beside any others. -/
structure Store.SameReceipts (concerned : Value → Prop) (store store' : Store) : Prop where
  name : store.name = store'.name
  receipts : ∀ digest, match store.receipts digest, store'.receipts digest with
    | .ok receipts, .ok receipts' =>
      ∀ receipt, concerned receipt → (receipt ∈ receipts ↔ receipt ∈ receipts')
    | .error _, .error _ => True
    | _, _ => False

section

variable {candidate : LookupOutcome} {stores stores' : List Store} {policy : OperationPolicy}
  {registry : Option FileReceiptKeyRegistry}

/-- The gate is passed just with an accepted receipt in the store of the candidate. -/
theorem candidateReceiptFailure_eq_none_iff (hstores : ∀ store ∈ stores, store.ValidatesReceipts) :
    candidateReceiptFailure candidate stores policy registry = .ok none ↔
      HoldsAcceptedReceipt candidate stores policy registry := by
  obtain ⟨hit?, rejections⟩ := candidate
  cases registry with
  | none => simp [candidateReceiptFailure, HoldsAcceptedReceipt]
  | some keys =>
    cases hit? with
    | none => simp [candidateReceiptFailure, HoldsAcceptedReceipt]
    | some hit =>
      simp only [candidateReceiptFailure, HoldsAcceptedReceipt, requiredReceiptFailure,
        Option.mem_some_iff, exists_eq_left']
      cases hsource : stores.find? fun store => decide (store.name = hit.tier) with
      | none => simp
      | some source =>
        have hvalid := hstores source (List.mem_of_find?_eq_some hsource)
        cases hreceipts : source.receipts hit.manifest.digest with
        | error e => simp [hreceipts]
        | ok receipts =>
          cases receipts with
          | nil => simp [hreceipts]
          | cons receipt rest =>
            simp only [Option.some.injEq, exists_and_left, exists_eq_left', hreceipts,
              Except.ok.injEq]
            exact checkReceipts_eq_none_iff (hvalid.valid hreceipts)

omit [Sha256] [Ed25519] in
/-- Stores that agree name by name answer alike when a tier is looked for. -/
theorem forall₂_find? {R : Store → Store → Prop} (hname : ∀ {store store'}, R store store' →
    store.name = store'.name) (h : List.Forall₂ R stores stores') (tier : Str) :
    Option.Rel R (stores.find? fun store => decide (store.name = tier))
      (stores'.find? fun store => decide (store.name = tier)) := by
  induction h with
  | nil => exact .none
  | cons hhead htail ih =>
    rw [List.find?_cons, List.find?_cons, ← hname hhead]
    split
    · exact .some hhead
    · exact ih

/-- The answer depends on the set of the receipts alone. -/
theorem candidateReceiptFailure_congr (hstores : ∀ store ∈ stores, store.ValidatesReceipts)
    (h : List.Forall₂ (Store.SameReceipts fun _ => True) stores stores') :
    candidateReceiptFailure candidate stores policy registry =
      candidateReceiptFailure candidate stores' policy registry := by
  obtain ⟨hit?, rejections⟩ := candidate
  cases registry with
  | none => rfl
  | some keys =>
    cases hit? with
    | none => rfl
    | some hit =>
      have hfind := forall₂_find? Store.SameReceipts.name h hit.tier
      have hmem : ∀ source ∈ stores.find? fun store => decide (store.name = hit.tier),
          source ∈ stores := fun source h => List.mem_of_find?_eq_some h
      simp only [candidateReceiptFailure, requiredReceiptFailure]
      generalize stores.find? (fun store => decide (store.name = hit.tier)) = found at hfind hmem ⊢
      generalize stores'.find? (fun store => decide (store.name = hit.tier)) = found' at hfind ⊢
      cases hfind with
      | none => rfl
      | @some source source' hsource =>
        have hvalid := hstores source (hmem source rfl)
        have hreceipts := hsource.receipts hit.manifest.digest
        dsimp only
        cases hleft : source.receipts hit.manifest.digest with
        | error e =>
          cases hright : source'.receipts hit.manifest.digest with
          | error e' => rfl
          | ok receipts' =>
            rw [hleft, hright] at hreceipts
            exact hreceipts.elim
        | ok receipts =>
          cases hright : source'.receipts hit.manifest.digest with
          | error e' =>
            rw [hleft, hright] at hreceipts
            exact hreceipts.elim
          | ok receipts' =>
            rw [hleft, hright] at hreceipts
            have hsame : ∀ receipt, receipt ∈ receipts ↔ receipt ∈ receipts' :=
              fun receipt => hreceipts receipt trivial
            -- no receipt on one side, no receipt on the other
            cases receipts with
            | nil =>
              have hnil : receipts' = [] := List.eq_nil_iff_forall_not_mem.mpr fun receipt hmem =>
                List.not_mem_nil ((hsame receipt).mpr hmem)
              rw [hnil]
            | cons receipt rest =>
              obtain ⟨receipt', rest', rfl⟩ := List.exists_cons_of_ne_nil
                (List.ne_nil_of_mem ((hsame receipt).mp List.mem_cons_self))
              exact checkReceipts_congr (hvalid.valid hleft) hsame

/-- Whether the gate is passed depends on the set of the accepted receipts alone. -/
theorem HoldsAcceptedReceipt.of_sameReceipts
    (h : List.Forall₂ (Store.SameReceipts fun receipt => ∃ hit ∈ candidate.hit, ∃ keys ∈ registry,
      ReceiptAccepted hit.manifest policy keys receipt) stores stores')
    (hheld : HoldsAcceptedReceipt candidate stores policy registry) :
    HoldsAcceptedReceipt candidate stores' policy registry := by
  obtain ⟨keys, hkeys, hit, hhit, source, receipts, hsource, hreceipts, receipt, hmem, haccepted⟩ :=
    hheld
  have hfind := forall₂_find? Store.SameReceipts.name h hit.tier
  rw [hsource] at hfind
  cases hfind' : stores'.find? fun store => decide (store.name = hit.tier) with
  | none =>
    rw [hfind'] at hfind
    cases hfind
  | some source' =>
    rw [hfind'] at hfind
    cases hfind with
    | some hsame =>
      have hsame := hsame.receipts hit.manifest.digest
      cases hright : source'.receipts hit.manifest.digest with
      | error e =>
        rw [hreceipts, hright] at hsame
        exact hsame.elim
      | ok receipts' =>
        rw [hreceipts, hright] at hsame
        exact ⟨keys, hkeys, hit, hhit, source', receipts', hfind', hright, receipt,
          (hsame receipt ⟨hit, hhit, keys, hkeys, haccepted⟩).mp hmem, haccepted⟩

end

omit [Sha256] [Ed25519] in
theorem Store.SameReceipts.symm {concerned : Value → Prop} {store store' : Store}
    (h : Store.SameReceipts concerned store store') :
    Store.SameReceipts concerned store' store where
  name := h.name.symm
  receipts digest := by
    have hsame := h.receipts digest
    split at hsame
    next receipts receipts' hleft hright =>
      rw [hleft, hright]
      exact fun receipt hreceipt => (hsame receipt hreceipt).symm
    next hleft hright =>
      rw [hleft, hright]
      trivial
    next => exact hsame.elim

/-- The receipt gate: it is passed just with an accepted receipt in the store of the candidate. What
it answers depends on the set of the receipts alone, and whether it is passed on the set of the
accepted ones. With a registry that cannot be read or is invalid it is never passed. -/
theorem candidateReceiptFailure_decides {candidate : LookupOutcome} {stores : List Store}
    {policy : OperationPolicy} {registry : Option FileReceiptKeyRegistry}
    (hstores : ∀ store ∈ stores, store.ValidatesReceipts) :
    (candidateReceiptFailure candidate stores policy registry = .ok none ↔
      HoldsAcceptedReceipt candidate stores policy registry) ∧
    (∀ stores', List.Forall₂ (Store.SameReceipts fun _ => True) stores stores' →
      candidateReceiptFailure candidate stores' policy registry =
        candidateReceiptFailure candidate stores policy registry) ∧
    (∀ stores', (∀ store ∈ stores', store.ValidatesReceipts) →
      List.Forall₂ (Store.SameReceipts fun receipt => ∃ hit ∈ candidate.hit, ∃ keys ∈ registry,
        ReceiptAccepted hit.manifest policy keys receipt) stores stores' →
      (candidateReceiptFailure candidate stores' policy registry = .ok none ↔
        candidateReceiptFailure candidate stores policy registry = .ok none)) ∧
    ∀ keys ∈ registry, ∀ e, keys.load = .error e →
      candidateReceiptFailure candidate stores policy registry ≠ .ok none := by
  refine ⟨candidateReceiptFailure_eq_none_iff hstores, fun stores' h => ?_,
    fun stores' hstores' h => ?_, fun keys hkeys e hload hnone => ?_⟩
  · exact (candidateReceiptFailure_congr hstores h).symm
  · rw [candidateReceiptFailure_eq_none_iff hstores, candidateReceiptFailure_eq_none_iff hstores']
    exact ⟨.of_sameReceipts (h.flip.imp fun _ _ => Store.SameReceipts.symm), .of_sameReceipts h⟩
  · obtain ⟨keys', hkeys', hit, -, source, receipts, -, -, receipt, -, keyId, record, records, -, -,
      hread, -⟩ := (candidateReceiptFailure_eq_none_iff hstores).mp hnone
    cases Option.mem_unique hkeys hkeys'
    cases hload.symm.trans hread

/-! ### The stores

In memory a receipt is validated when it is put, on a filesystem when it is read. -/

omit [Ed25519] in
theorem MemoryStore.validatesReceipts_performAll (name : Str) (calls : List StoreCall) :
    (MemoryStore.writer.performAll calls (.empty name)).view.ValidatesReceipts := by
  let Valid (store : MemoryStore) : Prop := ∀ digest, ∀ receipt ∈ newestFirst store.receipts digest,
    ∃ fields, validateReceipt receipt false = .ok fields
  have hvalid : Valid (MemoryStore.writer.performAll calls (.empty name)) := by
    refine StoreWriter.performAll_induction _ Valid ?_ fun call _ store hstore => ?_
    · intro digest receipt hmem
      cases hmem
    · cases call with
      | putBlob data => exact hstore
      | putResult value => exact Stateful.check_modify_induction Valid hstore fun manifest _ =>
        hstore
      | putValidation value => exact Stateful.check_modify_induction Valid hstore fun record _ =>
        hstore
      | putInvalidation value =>
        exact Stateful.check_modify_induction Valid hstore fun record _ => hstore
      | putReceipt value =>
        refine Stateful.check_modify_induction Valid hstore
          fun fields hfields digest receipt hmem => ?_
        change receipt ∈ newestFirst (append store.receipts _ value) digest at hmem
        rw [newestFirst_append] at hmem
        split_ifs at hmem
        · rcases List.mem_cons.mp hmem with rfl | hmem
          · exact ⟨fields, hfields⟩
          · exact hstore digest receipt hmem
        · exact hstore digest receipt hmem
  refine ⟨fun {digest receipts} hreceipts => ?_⟩
  cases hreceipts
  exact hvalid digest

omit [Ed25519] in
theorem FilesystemStore.validatesReceipts_view (store : FilesystemStore) (listing : Listing) :
    (store.view listing).ValidatesReceipts := by
  refine ⟨fun {digest receipts} hreceipts receipt hmem => ?_⟩
  have hread := asReader_eq_ok.mp hreceipts
  by_cases hdigest : isDigest digest = true
  · obtain ⟨receipts', heq, hvalid⟩ | ⟨message, heq⟩ :=
      (@contained_records _ store listing digest hdigest).2.2
    · cases hread.symm.trans heq
      obtain ⟨fields, hfields, -⟩ := hvalid receipt hmem
      exact ⟨fields, hfields⟩
    · cases hread.symm.trans heq
  · -- a text that is no digest is refused
    rw [receiptsOf, hexDigest?, if_neg hdigest] at hread
    cases hread

end

/-! ### A required receipt

A store holds the receipt of a peer beside an unsigned one. -/

namespace Example

open Federation.Example

/-- The registry with the key of the producer. -/
def registryDocument : Value :=
  .dict [(lit "spec_version", .str (lit "oncemesh.key-registry/v0")),
    (lit "keys", .dict [(receiptKeyId, .dict
      [(lit "profile", .str signatureProfile),
        (lit "public_key", .str (lit "gTl3Dqh9F19Wo1Rmw0x-zMuNipG07jeiXfYPW4_Js5Q")),
        (lit "status", .str (lit "active")), (lit "producers", .list [.str (lit "p")])])])]

def keyRegistry : FileReceiptKeyRegistry where
  file := some (canonicalBytes registryDocument)

/-- A policy that trusts the key. -/
def receiptPolicy : OperationPolicy :=
  { exampleOperationPolicy .exactSubstitute .public 0 with
    receiptRequirement := .required
    trustedReceiptKeys := {receiptKeyId} }

/-- The receipt without its signature. -/
def unsignedReceipt : Value := withoutSignature receipt

attribute [local instance] zone Sha256.standard ed25519

/-- A store with both receipts. -/
def receiptStore : MemoryStore :=
  MemoryStore.writer.performAll [.putReceipt receipt, .putReceipt unsignedReceipt]
    (.empty (lit "private"))

/-- The store answers with both, the unsigned one first. -/
theorem newestFirst_receiptStore :
    MemoryStore.newestFirst receiptStore.receipts servedDigest = [unsignedReceipt, receipt] := by
  have hput : ∀ value store,
    ((validateReceipt value false).toOption.map ReceiptFields.resultDigest) =
      some servedDigest →
      MemoryStore.newestFirst (MemoryStore.writer.perform (.putReceipt value) store).receipts
        servedDigest = value :: MemoryStore.newestFirst store.receipts servedDigest := by
    intro value store h
    obtain ⟨fields, hfields, hdigest⟩ := Option.map_eq_some_iff.mp h
    have hvalid := Except.toOption_eq_some.mp hfields
    have hperform : (MemoryStore.writer.perform (.putReceipt value) store).receipts =
        MemoryStore.append store.receipts fields.resultDigest value := by
      simp only [StoreWriter.perform, MemoryStore.writer, StorePuts.writer, hvalid]
      rfl
    rw [hperform, MemoryStore.newestFirst_append, hdigest, if_pos rfl]
  rw [receiptStore, StoreWriter.performAll, List.foldl_cons, List.foldl_cons, List.foldl_nil,
    hput _ _ (by decide +kernel), hput _ _ (by decide +kernel)]
  rfl

/-- The registry has the key as an active one of the producer. -/
theorem exists_registered : ∃ records record, keyRegistry.load = .ok records ∧
    records.lookup receiptKeyId = some record ∧ record.status = .active ∧
    lit "p" ∈ record.producers ∧ record.publicKey = receiptKey := by
  have hload : keyRegistry.file.loadJson = .ok registryDocument.sortKeys := by
    apply File.loadJson_canonicalBytes
    · exact (validate_eq_ok _ (lit "$")).mp (by decide +kernel)
    · simp [registryDocument, Value.WellFormed, Value.WellFormedItems, Value.WellFormedList]
  have hrecord : ((validateKeyRegistry registryDocument.sortKeys).toOption.bind
      fun records => records.lookup receiptKeyId).any (fun record =>
        decide (record.status = .active ∧ lit "p" ∈ record.producers ∧
          record.publicKey = receiptKey)) = true := by
    decide +kernel
  obtain ⟨record, hlookup, hrecord⟩ := (Option.any_eq_true _ _).mp hrecord
  obtain ⟨records, hrecords, hlookup⟩ := Option.bind_eq_some_iff.mp hlookup
  simp only [decide_eq_true_eq] at hrecord
  refine ⟨records, record, ?_, hlookup, hrecord⟩
  rw [FileReceiptKeyRegistry.load, hload, Except.ok_bind]
  exact Except.toOption_eq_some.mp hrecords

/-- The signed receipt verifies for the manifest it names. -/
theorem exists_manifest : ∃ m : Manifest, m.document = manifest ∧ m.digest = servedDigest ∧
    m.fields.producer = lit "p" ∧ verifyReceiptForManifest receipt m receiptKey = .ok true := by
  have h : (Manifest.ofValue manifest).toOption.any (fun m => decide (m.digest = servedDigest ∧
      m.fields.producer = lit "p" ∧
      (verifyReceiptForManifest receipt m receiptKey).toOption = some true)) = true := by
    decide +kernel
  obtain ⟨m, hm, h⟩ := (Option.any_eq_true _ _).mp h
  obtain ⟨hdigest, hproducer, hverify⟩ := of_decide_eq_true h
  exact ⟨m, Manifest.ofValue_eq_ok.mp (Except.toOption_eq_some.mp hm), hdigest, hproducer,
    Except.toOption_eq_some.mp hverify⟩

end Example

open Federation.Example in
attribute [local instance] zone Sha256.standard ed25519

/-- The unsigned receipt, which is found first, is of no consequence. -/
theorem candidateReceiptFailure_decides_example :
    ∃ hit : Hit, hit.manifest.document = Federation.Example.manifest ∧
      candidateReceiptFailure ⟨some hit, []⟩ [Example.receiptStore.view] Example.receiptPolicy
        (some Example.keyRegistry) = .ok none := by
  obtain ⟨m, hdocument, hdigest, hproducer, hverify⟩ := Example.exists_manifest
  obtain ⟨records, record, hload, hlookup, hactive, hallowed, hkey⟩ := Example.exists_registered
  have hvalid : ∀ store ∈ [Example.receiptStore.view], store.ValidatesReceipts := by
    rw [List.forall_mem_singleton]
    exact MemoryStore.validatesReceipts_performAll _ _
  refine ⟨⟨lit "private", m, [], none⟩, hdocument,
    (candidateReceiptFailure_decides hvalid).1.mpr ?_⟩
  have hname : Example.receiptStore.view.name = lit "private" := by decide +kernel
  have hsource : ([Example.receiptStore.view].find? fun store =>
      decide (store.name = lit "private")) = some Example.receiptStore.view :=
    List.find?_cons_of_pos (decide_eq_true hname)
  refine ⟨_, rfl, _, rfl, _, _, hsource, rfl, Federation.Example.receipt, ?_,
    Federation.Example.receiptKeyId, record, records, ?_, ?_, hload, hlookup, hactive, ?_, ?_⟩
  · show _ ∈ MemoryStore.newestFirst Example.receiptStore.receipts m.digest
    rw [hdigest, Example.newestFirst_receiptStore]
    exact List.mem_cons_of_mem _ List.mem_cons_self
  · rfl
  · exact Finset.mem_singleton_self _
  · rw [hproducer]
    exact hallowed
  · rw [hkey]
    exact hverify

end OnceMesh
