import OnceMesh.Documents.Stored
import OnceMesh.Federation.Import

/-!
# Signed documents read back

Receipts and availability manifests that have been sent as canonical JSON arrive with the members of
their objects sorted. They are as valid as they were, with the same fields, and their signatures
cover the same octets.
-/

namespace OnceMesh

open Python

variable {v : Value}

/-- The keys of an object are compared as a set. -/
@[simp]
theorem hasExactKeys_sortKeys (v : Value) (expected : List Str) :
    v.sortKeys.hasExactKeys expected = v.hasExactKeys expected := by
  cases v with
  | dict items =>
    have hperm : ((items.insertionSort Json.keyLE).map fun i => (i.1, i.2.sortKeys)).Perm
        (items.map fun i => (i.1, i.2.sortKeys)) :=
      (List.perm_insertionSort Json.keyLE items).map _
    have hkeys : (items.map fun i => (i.1, i.2.sortKeys)).map Prod.fst = items.map Prod.fst := by
      rw [List.map_map]
      rfl
    rw [Json.sortKeys_dict, Value.hasExactKeys, Value.hasExactKeys, hperm.all_eq]
    simp only [(hperm.map Prod.fst).mem_iff, hkeys, List.all_map]
    rfl
  | _ => rfl

/-- Only an object has keys. -/
theorem isDict_of_hasExactKeys {expected : List Str} (h : v.hasExactKeys expected = true) :
    v.isDict = true := by
  cases v with
  | dict items => rfl
  | _ => cases h

/-- An object that is read back is an object. -/
@[simp]
theorem isDict_sortKeys (v : Value) : v.sortKeys.isDict = v.isDict := by
  cases v <;> rfl

/-- Setting a key that is there replaces its value where it stands. -/
theorem setItem_of_mem {items : List (Str × Value)} {k : Str} (w : Value)
    (hnodup : (items.map Prod.fst).Nodup) (hmem : k ∈ items.map Prod.fst) :
    setItem items k w = items.map fun i => if i.1 = k then (k, w) else i := by
  induction items with
  | nil => cases hmem
  | cons i rest ih =>
    rw [List.map_cons, List.nodup_cons] at hnodup
    by_cases hkey : i.1 = k
    · have hrest : rest.map (fun i => if i.1 = k then (k, w) else i) = rest := by
        conv_rhs => rw [← List.map_id rest]
        refine List.map_congr_left fun j hj => if_neg fun heq => hnodup.1 ?_
        rw [hkey, ← heq]
        exact List.mem_map_of_mem hj
      rw [List.map_cons, if_pos hkey, hrest, setItem, if_pos hkey]
    · have hrest : k ∈ rest.map Prod.fst :=
        (List.mem_cons.mp hmem).resolve_left fun heq => hkey heq.symm
      rw [List.map_cons, if_neg hkey, setItem, if_neg hkey, ih hnodup.2 hrest]

/-- A scalar is set in a document that is read back as it is in the document itself. -/
theorem setItem_sortKeys {items : List (Str × Value)} {k : Str} {w : Value}
    (hw : w.sortKeys = w) (hnodup : (items.map Prod.fst).Nodup) (hmem : k ∈ items.map Prod.fst) :
    Value.dict (setItem ((items.insertionSort Json.keyLE).map fun i => (i.1, i.2.sortKeys)) k w) =
      (Value.dict (setItem items k w)).sortKeys := by
  have hperm : ((items.insertionSort Json.keyLE).map fun i => (i.1, i.2.sortKeys)).Perm
      (items.map fun i => (i.1, i.2.sortKeys)) :=
    (List.perm_insertionSort Json.keyLE items).map _
  have hkeys : (items.map fun i => (i.1, i.2.sortKeys)).map Prod.fst = items.map Prod.fst := by
    rw [List.map_map]
    rfl
  have hsort : (items.map fun i => if i.1 = k then (k, w) else i).insertionSort Json.keyLE =
      (items.insertionSort Json.keyLE).map fun i => if i.1 = k then (k, w) else i := by
    refine (List.map_insertionSort Json.keyLE Json.keyLE _ items fun i _ j _ => ?_).symm
    -- the keys stay as they are
    have hfst : ∀ i : Str × Value, (if i.1 = k then (k, w) else i).1 = i.1 := by
      intro i
      split_ifs with hkey
      · exact hkey.symm
      · rfl
    rw [Json.keyLE, Json.keyLE, hfst, hfst]
  rw [setItem_of_mem w hnodup hmem, Json.sortKeys_dict, hsort, setItem_of_mem w
    (by rwa [(hperm.map Prod.fst).nodup_iff, hkeys]) (by rwa [(hperm.map Prod.fst).mem_iff, hkeys]),
    List.map_map, List.map_map]
  refine congrArg Value.dict (List.map_congr_left fun i _ => ?_)
  show (if i.1 = k then (k, w) else (i.1, i.2.sortKeys)) = _
  by_cases hkey : i.1 = k
  · simp [hkey, hw]
  · simp [hkey]

/-- The document without its signature, read back. -/
theorem withoutSignature_sortKeys (h : Storable v) {expected : List Str}
    (hkeys : v.hasExactKeys expected = true) (hmem : lit "signature" ∈ expected) :
    withoutSignature v.sortKeys = (withoutSignature v).sortKeys := by
  obtain ⟨-, hwf⟩ := h
  cases v with
  | dict items =>
    rw [Value.wellFormed_dict] at hwf
    simp only [Value.hasExactKeys, Bool.and_eq_true, List.all_eq_true, decide_eq_true_eq] at hkeys
    rw [Json.sortKeys_dict]
    exact setItem_sortKeys rfl hwf.1 (hkeys.2 _ hmem)
  | _ => cases hkeys

/-- An item is set to a storable value. -/
theorem storable_setItem {items : List (Str × Value)} (h : Storable (.dict items)) {k : Str}
    (hk : Clean k) {w : Value} (hw : Storable w) : Storable (.dict (setItem items k w)) := by
  obtain ⟨hprofile, hwf⟩ := h
  refine ⟨?_, Value.wellFormed_setItem hwf hw.wellFormed⟩
  cases hprofile with
  | dict hkeys hvalues =>
    refine .dict (fun i hi => ?_) fun i hi => ?_
    · rcases mem_setItem hi with hmem | rfl
      · exact hkeys i hmem
      · exact hk
    · rcases mem_setItem hi with hmem | rfl
      · exact hvalues i hmem
      · exact hw.inProfile

/-- A storable document is storable without its signature. -/
theorem storable_withoutSignature (h : Storable v) : Storable (withoutSignature v) := by
  cases v with
  | dict items => exact storable_setItem h (clean_lit _) storable_none
  | _ => exact h

/-! ### Receipts -/

/-- The value of a signature is a text, and sorting leaves it as it is. -/
theorem decodeReceiptValue_sortKeys (v : Value) :
    decodeReceiptValue v.sortKeys = decodeReceiptValue v := by
  cases v <;> rfl

/-- The signature of a receipt that is read back is as valid as it was. -/
theorem validateSignature_sortKeys (h : Storable v) :
    validateSignature v.sortKeys = validateSignature v := by
  simp only [validateSignature, exactReceiptKeys, hasExactKeys_sortKeys, get_sortKeys h,
    eqStr_sortKeys, requireDigest_sortKeys, decodeReceiptValue_sortKeys]

/-- A receipt that is read back is as valid as it was, and has the same fields. -/
theorem validateReceipt_sortKeys (h : Storable v) (requireSignature : Bool) :
    validateReceipt v.sortKeys requireSignature = validateReceipt v requireSignature := by
  simp only [validateReceipt, exactReceiptKeys, hasExactKeys_sortKeys, get_sortKeys h,
    eqStr_sortKeys, requireDigest_sortKeys, requireNonemptyString_sortKeys, isDict_sortKeys,
    h.canonicalJson_sortKeys]
  have hsignature := validateSignature_sortKeys (h.get (lit "signature"))
  refine bind_congr fun _ => bind_congr fun _ => bind_congr fun resultDigest =>
    bind_congr fun producer => bind_congr fun _ => ?_
  generalize v.get (lit "signature") = signature at hsignature ⊢
  cases signature with
  | list items | dict items =>
    simp only [Value.sortKeys] at hsignature ⊢
    rw [hsignature]
  | _ => rfl

/-- A receipt that passes has exactly the fields of a receipt. -/
theorem hasExactKeys_of_validateReceipt {requireSignature : Bool} {fields : ReceiptFields}
    (h : validateReceipt v requireSignature = .ok fields) :
    v.hasExactKeys [lit "spec_version", lit "result_digest", lit "producer",
      lit "executor_environment", lit "signature"] = true := by
  have hexact := (Except.check_eq_ok.mp h).1
  simpa [exactReceiptKeys] using hexact

/-- Canonical JSON stores a receipt that passes. -/
theorem inProfile_of_validateReceipt {requireSignature : Bool} {fields : ReceiptFields}
    (h : validateReceipt v requireSignature = .ok fields) : InProfile v := by
  obtain ⟨-, h⟩ := Except.check_eq_ok.mp h
  obtain ⟨-, h⟩ := Except.check_eq_ok.mp h
  obtain ⟨resultDigest, -, h⟩ := Except.bind_eq_ok.mp h
  obtain ⟨producer, -, h⟩ := Except.bind_eq_ok.mp h
  obtain ⟨-, h⟩ := Except.check_eq_ok.mp h
  dsimp only at h
  -- the encoding is the last step, whether the receipt is signed or not
  have hencoded : ∃ bytes, canonicalJson v = .ok bytes := by
    split at h
    · split_ifs at h
      · cases h
      · obtain ⟨signature, -, h⟩ := Except.bind_eq_ok.mp h
        obtain ⟨bytes, hbytes, -⟩ := Except.bind_eq_ok.mp h
        exact ⟨bytes, hbytes⟩
    · obtain ⟨signature, -, h⟩ := Except.bind_eq_ok.mp h
      obtain ⟨bytes, hbytes, -⟩ := Except.bind_eq_ok.mp h
      exact ⟨bytes, hbytes⟩
  obtain ⟨bytes, hbytes⟩ := hencoded
  exact (canonicalJson_eq_ok.mp hbytes).1

/-- The signature of a receipt that is read back covers the same octets. -/
theorem receiptSigningInput_sortKeys (h : Storable v) {requireSignature : Bool}
    {fields : ReceiptFields} (hvalid : validateReceipt v requireSignature = .ok fields) :
    receiptSigningInput v.sortKeys = receiptSigningInput v := by
  have hstorable := storable_withoutSignature h
  rw [receiptSigningInput, receiptSigningInput, withoutSignature_sortKeys h
    (hasExactKeys_of_validateReceipt hvalid) (by decide)]
  simp only [validateReceipt_sortKeys hstorable, hstorable.canonicalJson_sortKeys]

section

variable [Sha256] [Ed25519]

/-- The signature of a receipt that is read back verifies just if it did. -/
theorem verifyReceipt_sortKeys (h : Storable v) (publicKey : Bytes) :
    verifyReceipt v.sortKeys publicKey = verifyReceipt v publicKey := by
  rw [verifyReceipt, verifyReceipt, validateReceipt_sortKeys h]
  cases hvalid : validateReceipt v true with
  | error e => rfl
  | ok fields => rw [receiptSigningInput_sortKeys h hvalid]

/-- The verification asks the manifest for its digest and its producer. -/
theorem verifyReceiptForManifest_sortKeys (h : Storable v) {manifest manifest' : Manifest}
    (hdigest : manifest'.digest = manifest.digest) (hfields : manifest'.fields = manifest.fields)
    (publicKey : Bytes) : verifyReceiptForManifest v.sortKeys manifest' publicKey =
      verifyReceiptForManifest v manifest publicKey := by
  rw [verifyReceiptForManifest, verifyReceiptForManifest, validateReceipt_sortKeys h,
    verifyReceipt_sortKeys h, hdigest, hfields]

end

/-! ### Availability manifests -/

namespace Federation

/-- An entry that is read back is as valid as it was. -/
theorem validateEntry_sortKeys (h : Storable v) (seen : List (Str × Str)) :
    validateEntry seen v.sortKeys = validateEntry seen v := by
  have hoperation := h.get (lit "operation")
  have htext : ∀ w : Value, requireOperationText w.sortKeys = requireOperationText w := by
    intro w
    cases w <;> rfl
  simp only [validateEntry, exactKeys, hasExactKeys_sortKeys, get_sortKeys h,
    get_sortKeys hoperation, requireDigest_sortKeys, htext]
  cases v.get (lit "artifact_bytes") <;> rfl

/-- The entries that are read back are as valid as they were, by induction on their list. -/
theorem validateEntries_sortKeys {items : List Value} (h : ∀ v ∈ items, Storable v)
    (seen : List (Str × Str)) :
    validateEntries seen (items.map Value.sortKeys) = validateEntries seen items := by
  induction items generalizing seen with
  | nil => rfl
  | cons v rest ih =>
    rw [List.forall_mem_cons] at h
    simp only [List.map_cons, validateEntries, validateEntry_sortKeys h.1, ih h.2]

/-- The signature of an availability manifest that is read back is as valid as it was. -/
theorem validateAvailabilitySignature_sortKeys (h : Storable v) :
    validateAvailabilitySignature v.sortKeys = validateAvailabilitySignature v := by
  simp only [validateAvailabilitySignature, exactKeys, hasExactKeys_sortKeys, get_sortKeys h,
    eqStr_sortKeys, requireDigest_sortKeys]
  cases v.get (lit "value") <;> rfl

variable [LocalZone]

/-- An availability manifest that is read back is as valid as it was, and has the same fields. -/
theorem validateAvailability_sortKeys (h : Storable v) (requireSignature : Bool) :
    validateAvailability v.sortKeys requireSignature = validateAvailability v requireSignature := by
  have htime : ∀ w : Value, parseTimeValue w.sortKeys = parseTimeValue w := by
    intro w
    cases w <;> rfl
  simp only [validateAvailability, exactKeys, hasExactKeys_sortKeys, get_sortKeys h, eqStr_sortKeys,
    requireNonemptyString_sortKeys, htime, h.canonicalJson_sortKeys]
  refine bind_congr fun _ => bind_congr fun _ => bind_congr fun peerId =>
    bind_congr fun generatedAt => ?_
  have hentries := h.get (lit "entries")
  have hsignature := validateAvailabilitySignature_sortKeys (h.get (lit "signature"))
  generalize v.get (lit "entries") = listed at hentries ⊢
  cases listed with
  | list items =>
    rw [Value.sortKeys, Value.sortKeysList_eq]
    simp only [requireList, Except.ok_bind, validateEntries_sortKeys (storable_list.mp hentries)]
    refine bind_congr fun entries => bind_congr fun _ => ?_
    generalize v.get (lit "signature") = signature at hsignature ⊢
    cases signature with
    | list items | dict items =>
      simp only [Value.sortKeys] at hsignature ⊢
      rw [hsignature]
    | _ => rfl
  | _ => rfl

/-- Canonical JSON stores an availability manifest that passes, and its entries have been
validated. -/
theorem inProfile_of_validateAvailability {fields : AvailabilityFields}
    (h : validateAvailability v true = .ok fields) :
    InProfile v ∧ ∃ items, validateEntries [] items = .ok fields.entries := by
  obtain ⟨-, h⟩ := Except.check_eq_ok.mp h
  obtain ⟨-, h⟩ := Except.check_eq_ok.mp h
  obtain ⟨peerId, -, h⟩ := Except.bind_eq_ok.mp h
  obtain ⟨generatedAt, -, h⟩ := Except.bind_eq_ok.mp h
  obtain ⟨items, -, h⟩ := Except.bind_eq_ok.mp h
  obtain ⟨entries, hentries, h⟩ := Except.bind_eq_ok.mp h
  obtain ⟨-, h⟩ := Except.check_eq_ok.mp h
  dsimp only at h
  split at h
  · cases h
  · obtain ⟨signature, -, h⟩ := Except.bind_eq_ok.mp h
    obtain ⟨bytes, hbytes, h⟩ := Except.bind_eq_ok.mp h
    cases h
    exact ⟨(canonicalJson_eq_ok.mp hbytes).1, items, hentries⟩

omit [LocalZone] in
/-- The entries that pass name their results by digests. -/
theorem isDigest_of_validateEntries {items : List Value} : ∀ {seen : List (Str × Str)}
    {entries : List AvailabilityEntry}, validateEntries seen items = .ok entries →
    ∀ entry ∈ entries, isDigest entry.resultDigest = true := by
  induction items with
  | nil =>
    rintro seen _ ⟨⟩
    simp
  | cons value rest ih =>
    intro seen _ h
    obtain ⟨entry, hentry, h⟩ := Except.bind_eq_ok.mp h
    obtain ⟨entries, hentries, ⟨⟩⟩ := Except.bind_eq_ok.mp h
    refine List.forall_mem_cons.mpr ⟨?_, ih hentries⟩
    obtain ⟨-, h⟩ := Except.check_eq_ok.mp hentry
    obtain ⟨actionDigest, -, h⟩ := Except.bind_eq_ok.mp h
    obtain ⟨resultDigest, hdigest, h⟩ := Except.bind_eq_ok.mp h
    obtain ⟨-, h⟩ := Except.check_eq_ok.mp h
    obtain ⟨name, -, h⟩ := Except.bind_eq_ok.mp h
    obtain ⟨version, -, h⟩ := Except.bind_eq_ok.mp h
    split at h
    · obtain ⟨-, h⟩ := Except.check_eq_ok.mp h
      obtain ⟨-, h⟩ := Except.check_eq_ok.mp h
      cases h
      exact isDigest_of_requireDigest hdigest
    · cases h

/-- The results of an availability manifest are named by digests. -/
theorem isDigest_of_validateAvailability {fields : AvailabilityFields}
    (h : validateAvailability v true = .ok fields) :
    ∀ entry ∈ fields.entries, isDigest entry.resultDigest = true := by
  obtain ⟨-, items, hentries⟩ := inProfile_of_validateAvailability h
  exact isDigest_of_validateEntries hentries

/-- The signature of an availability manifest that is read back covers the same octets. -/
theorem availabilitySigningInput_sortKeys (h : Storable v) {requireSignature : Bool}
    {fields : AvailabilityFields} (hvalid : validateAvailability v requireSignature = .ok fields) :
    availabilitySigningInput v.sortKeys = availabilitySigningInput v := by
  have hexact : v.hasExactKeys [lit "spec_version", lit "peer_id", lit "generated_at",
      lit "entries", lit "signature"] = true := by
    simpa [exactKeys] using (Except.check_eq_ok.mp hvalid).1
  have hstorable := storable_withoutSignature h
  rw [availabilitySigningInput, availabilitySigningInput, withoutSignature_sortKeys h hexact
    (by decide)]
  simp only [validateAvailability_sortKeys hstorable, hstorable.canonicalJson_sortKeys]

/-- The signature of an availability manifest that is read back verifies just if it did. -/
theorem verifyAvailability_sortKeys [Sha256] [Ed25519] (h : Storable v) (peerId : Str)
    (publicKey : Bytes) :
    verifyAvailability v.sortKeys peerId publicKey = verifyAvailability v peerId publicKey := by
  rw [verifyAvailability, verifyAvailability, validateAvailability_sortKeys h]
  cases hvalid : validateAvailability v true with
  | error e => rfl
  | ok fields => rw [availabilitySigningInput_sortKeys h hvalid]

end Federation

end OnceMesh
