import OnceMesh.FilesystemStore
import OnceMesh.TrustFiles

/-!
# Malformed files

The readers of a store on a filesystem turn what goes wrong with a file into a `StoreReadError`,
whatever the file holds. There is one exception: `validate_manifest` looks the version up in a set,
and raises `TypeError` for an array or an object. `readers_contained_iff` says exactly when that
escapes.
-/

namespace OnceMesh

open Python

/-! ### What a reader lets through -/

/-- A reader returns what it should, or raises a `StoreReadError`. -/
def Contained {α : Type} (p : α → Prop) (x : Except PyError α) : Prop :=
  (∃ a, x = .ok a ∧ p a) ∨ ∃ message, x = .error (readError message)

/-- A manifest with the fields of a result v0, whose version is an array or an object. -/
structure UnhashableVersion (manifest : Value) : Prop where
  fields : manifest.hasExactKeys [lit "spec_version", lit "action_digest", lit "artifacts",
    lit "produced_at", lit "fresh_until", lit "producer"] = true
  unhashable : (manifest.get (lit "spec_version")).hashable = false

/-- A file holds such a manifest. -/
def HoldsUnhashableVersion (data : Bytes) : Prop :=
  ∃ value, File.loadJson (some data) = .ok value ∧ UnhashableVersion value

/-- A value that cannot be hashed is no string. -/
theorem eqStr_of_not_hashable {value : Value} (h : value.hashable = false) (text : Str) :
    value.eqStr text = false := by
  cases value with
  | str s => cases h
  | _ => rfl

/-- `validate_manifest` raises `TypeError` exactly for such a version. -/
theorem validateManifest_eq_typeError {manifest : Value} :
    validateManifest manifest = .error (.typeError (lit "unhashable type")) ↔
      UnhashableVersion manifest := by
  constructor
  · intro h
    have hunhashable : (manifest.get (lit "spec_version")).hashable = false := by
      by_contra hhashable
      have hvalue := raisesOnly_validateManifest (Bool.of_not_eq_false hhashable) _ h
      cases hvalue
    rcases Except.bind_eq_error.mp h with hkeys | ⟨u, hkeys, -⟩
    · cases raisesOnly_requireExactKeys _ _ _ _ hkeys
    · rw [requireExactKeys_eq_ok, eqStr_of_not_hashable hunhashable] at hkeys
      exact ⟨hkeys, hunhashable⟩
  · rintro ⟨hfields, hunhashable⟩
    have hlineage := eqStr_of_not_hashable hunhashable (lit "oncemesh.result/v1")
    have hkeys := (@requireExactKeys_eq_ok manifest _ "result manifest").mpr hfields
    rw [validateManifest, hlineage]
    dsimp only
    rw [if_neg Bool.false_ne_true, List.append_nil, hkeys, Except.ok_bind,
      Value.lookupIn_of_not_hashable (by rw [hunhashable]; exact Bool.false_ne_true)]
    rfl

theorem escapes_ofValue {manifest : Value} :
    Escapes (Manifest.ofValue manifest) ↔ UnhashableVersion manifest := by
  rw [← validateManifest_eq_typeError]
  unfold Manifest.ofValue
  constructor
  · rintro ⟨e, h, hescapes⟩
    split at h
    · cases h
    next e' hraise =>
      cases h
      rcases validateManifest_raises hraise with hvalue | rfl
      · rw [isRegistryError_of_isValueError hvalue] at hescapes
        cases hescapes
      · exact hraise
  · intro h
    split
    next fields hok => cases h.symm.trans hok
    next e hraise =>
      cases h.symm.trans hraise
      exact ⟨_, rfl, rfl⟩

/-- The loop over the files of a directory stops at the first file whose validation escapes, unless
it stops before. -/
theorem escapes_readDocuments {α : Type} {validate : Value → Except PyError α}
    {files : List Bytes} :
    Escapes (readDocuments validate files) ↔ ∃ before data after, files = before ++ data :: after ∧
      (∀ d ∈ before, ∃ document, Holds validate d document) ∧
      ∃ value, File.loadJson (some data) = .ok value ∧ Escapes (validate value) := by
  induction files with
  | nil => simp [readDocuments]
  | cons data rest ih =>
    simp only [readDocuments, escapes_bind, not_escapes_loadJson, not_escapes_pure, false_or,
      or_false, and_false, exists_false, ih]
    constructor
    · rintro ⟨value, hload, hescapes | ⟨document, hdocument, before, data', after, rfl, hbefore, h⟩⟩
      · exact ⟨[], data, rest, rfl, by simp, value, hload, hescapes⟩
      · refine ⟨data :: before, data', after, rfl, ?_, h⟩
        exact List.forall_mem_cons.mpr ⟨⟨document, value, hload, hdocument⟩, hbefore⟩
    · rintro ⟨before, data', after, hfiles, hbefore, value, hload, hescapes⟩
      cases before with
      | nil =>
        cases hfiles
        exact ⟨value, hload, .inl hescapes⟩
      | cons first before =>
        cases hfiles
        rw [List.forall_mem_cons] at hbefore
        obtain ⟨⟨document, value', hload', hdocument⟩, hbefore⟩ := hbefore
        exact ⟨value', hload', .inr ⟨document, hdocument, before, data', after, rfl, hbefore, value,
          hload, hescapes⟩⟩

/-- A guarded read of what raises nothing but what is caught and `TypeError` is contained exactly
when nothing escapes, provided what is read is right. -/
theorem contained_guardRead_iff {α β : Type} {p : β → Prop} {message : String}
    {x : Except PyError α} {f : α → β}
    (hraises : RaisesOnly (fun e => isRegistryError e = true ∨ ∃ text, e = .typeError text) x)
    (hp : ∀ a, x = .ok a → p (f a)) :
    Contained p (do
      let a ← guardRead message x
      pure (f a)) ↔ ¬Escapes x := by
  cases x with
  | ok a => exact iff_of_true (.inl ⟨f a, rfl, hp a rfl⟩) (not_escapes_ok a)
  | error e =>
    rcases hraises e rfl with hcaught | ⟨text, rfl⟩
    · refine iff_of_true (.inr ⟨lit message, ?_⟩) (not_escapes_error hcaught)
      rw [guardRead, hcaught]
      rfl
    · refine iff_of_false ?_ (not_not_intro ⟨_, rfl, rfl⟩)
      rintro (⟨a, ha, -⟩ | ⟨message', hmessage⟩)
      · cases ha
      · cases hmessage

/-- A read that raises only what is caught is contained. -/
theorem contained_guardRead {α β : Type} {p : β → Prop} {message : String} {x : Except PyError α}
    {f : α → β} (hescapes : ¬Escapes x) (hp : ∀ a, x = .ok a → p (f a)) :
    Contained p (do
      let a ← guardRead message x
      pure (f a)) := by
  refine (contained_guardRead_iff (fun e he => .inl ?_) hp).mpr hescapes
  by_contra h
  exact hescapes ⟨e, he, Bool.eq_false_iff.mpr h⟩

/-- Reading and validating a manifest. -/
theorem raisesOnly_manifest (data : Bytes) :
    RaisesOnly (fun e => isRegistryError e = true ∨ ∃ text, e = .typeError text)
      (File.loadJson (some data) >>= Manifest.ofValue) := by
  refine .bind (fun e he => .inl ?_) fun value _ e he => ?_
  · by_contra h
    exact not_escapes_loadJson _ ⟨e, he, Bool.eq_false_iff.mpr h⟩
  · unfold Manifest.ofValue at he
    split at he
    · cases he
    next e' hraise =>
      cases he
      exact (validateManifest_raises hraise).imp isRegistryError_of_isValueError fun h => ⟨_, h⟩

theorem not_escapes_sourceValidation (value : Value) :
    ¬Escapes (SourceValidation.ofValue value) := by
  refine not_escapes_of_raisesOnly fun e h => ?_
  unfold SourceValidation.ofValue at h
  split at h
  · cases h
  next e' hraise =>
    cases h
    exact raisesOnly_validateSourceValidation value e hraise

theorem not_escapes_invalidation (value : Value) : ¬Escapes (Invalidation.ofValue value) := by
  refine not_escapes_of_raisesOnly fun e h => ?_
  unfold Invalidation.ofValue at h
  split at h
  · cases h
  next e' hraise =>
    cases h
    exact raisesOnly_validateInvalidation value e hraise

/-- What is read of a directory has been validated. -/
theorem forall_of_readDocuments {α : Type} {validate : Value → Except PyError α} (p : α → Prop)
    (hvalidate : ∀ value document, validate value = .ok document → p document)
    {files : List Bytes} {documents : List α} (h : readDocuments validate files = .ok documents) :
    ∀ d ∈ documents, p d := by
  intro d hd
  obtain ⟨data, -, value, -, hdocument⟩ := exists_of_forall₂_right (readDocuments_eq_ok.mp h) hd
  exact hvalidate value d hdocument

namespace FilesystemStore

variable [Sha256] (store : FilesystemStore) (listing : Listing) (digest : Str)

/-- What the readers promise, for a digest, whatever the files hold. -/
structure ReadersContained : Prop where
  candidates : Contained (fun manifests => ∀ m ∈ manifests,
    validateManifest m.document = .ok m.fields) (store.candidates listing digest)
  result : Contained (fun found => ∀ m ∈ found,
    validateManifest m.document = .ok m.fields ∧ m.digest = digest) (store.result digest)
  validations : Contained (fun records => ∀ r ∈ records,
    validateSourceValidation r.document = .ok r.fields ∧ r.fields.resultDigest = digest)
    (store.validationsOf listing digest)
  invalidations : Contained (fun records => ∀ r ∈ records,
    validateInvalidation r.document = .ok r.fields ∧ r.fields.resultDigest = digest)
    (store.invalidationsOf listing digest)
  receipts : Contained (fun receipts => ∀ receipt ∈ receipts, ∃ fields,
    validateReceipt receipt false = .ok fields ∧ fields.resultDigest = digest)
    (store.receiptsOf listing digest)

omit [Sha256] in
/-- A reader of manifests comes to a file with an unhashable version: among the candidates, after
files that hold manifests, or under the digest itself. -/
inductive ManifestFault : Prop
  | candidate (before : List Bytes) (data : Bytes) (after : List Bytes)
      (listed : listing.list (filesIn store.actions (digestHex digest)) = before ++ data :: after)
      (readable : ∀ d ∈ before, ∃ manifest, Holds Manifest.ofValue d manifest)
      (unhashable : HoldsUnhashableVersion data)
  | result (data : Bytes) (stored : store.results.get? (fanOut digest ".json") = some data)
      (unhashable : HoldsUnhashableVersion data)

variable {store listing digest}

omit [Sha256] in
/-- The reader of candidates lets the `TypeError` for an unhashable version through. -/
theorem contained_candidates_iff (hdigest : isDigest digest = true) :
    Contained (fun manifests => ∀ m ∈ manifests, validateManifest m.document = .ok m.fields)
        (store.candidates listing digest) ↔
      ¬∃ before data after,
        listing.list (filesIn store.actions (digestHex digest)) = before ++ data :: after ∧
        (∀ d ∈ before, ∃ manifest, Holds Manifest.ofValue d manifest) ∧
        HoldsUnhashableVersion data := by
  have hraises : ∀ files, RaisesOnly
      (fun e => isRegistryError e = true ∨ ∃ text, e = .typeError text)
      (readDocuments Manifest.ofValue files) := by
    intro files
    induction files with
    | nil => exact .ok []
    | cons data rest ih =>
      have hfirst := raisesOnly_manifest data
      rw [readDocuments, ← bind_assoc]
      exact .bind hfirst fun manifest _ => .bind ih fun manifests _ => .pure _
  have hescapes := @escapes_readDocuments _ Manifest.ofValue
    (listing.list (filesIn store.actions (digestHex digest)))
  simp only [escapes_ofValue] at hescapes
  rw [candidates, hexDigest?_of_isDigest hdigest, Except.ok_bind,
    contained_guardRead_iff (hraises _) fun manifests _ m _ => m.valid, hescapes]
  rfl

/-- So does the reader of one result. -/
theorem contained_result_iff (hdigest : isDigest digest = true) :
    Contained (fun found => ∀ m ∈ found,
        validateManifest m.document = .ok m.fields ∧ m.digest = digest) (store.result digest) ↔
      ¬∃ data, store.results.get? (fanOut digest ".json") = some data ∧
        HoldsUnhashableVersion data := by
  rw [result, hexDigest?_of_isDigest hdigest, Except.ok_bind]
  cases hfile : store.results.get? (fanOut digest ".json") with
  | none => exact iff_of_true (.inl ⟨none, rfl, by simp⟩) (by simp)
  | some data =>
    have hescapes : Escapes (do
        let value ← File.loadJson (some data)
        let manifest ← Manifest.ofValue value
        raiseIf (manifest.digest ≠ digest) "result is indexed under the wrong digest"
        pure manifest) ↔ HoldsUnhashableVersion data := by
      simp only [escapes_bind, not_escapes_loadJson, escapes_ofValue, not_escapes_raiseIf,
        not_escapes_pure, false_or, or_false, and_false, exists_false]
      rfl
    dsimp only
    rw [map_eq_pure_bind, contained_guardRead_iff, hescapes]
    · simp
    · rw [← bind_assoc]
      refine .bind (raisesOnly_manifest data) fun manifest _ => ?_
      exact .bind ((raisesOnly_raiseIf _ _).mono fun e h =>
        .inl (isRegistryError_of_isValueError h))
        fun _ _ => .pure _
    · intro m hm found hfound
      cases hfound
      obtain ⟨value, -, hm⟩ := Except.bind_eq_ok.mp hm
      obtain ⟨manifest, -, hm⟩ := Except.bind_eq_ok.mp hm
      obtain ⟨hsame, hm⟩ := Except.check_eq_ok.mp hm
      cases hm
      exact ⟨m.valid, by simpa using hsame⟩

/-- The other readers let nothing through. -/
theorem contained_records (hdigest : isDigest digest = true) :
    Contained (fun records => ∀ r ∈ records,
      validateSourceValidation r.document = .ok r.fields ∧ r.fields.resultDigest = digest)
      (store.validationsOf listing digest) ∧
    Contained (fun records => ∀ r ∈ records,
      validateInvalidation r.document = .ok r.fields ∧ r.fields.resultDigest = digest)
      (store.invalidationsOf listing digest) ∧
    Contained (fun receipts => ∀ receipt ∈ receipts, ∃ fields,
      validateReceipt receipt false = .ok fields ∧ fields.resultDigest = digest)
      (store.receiptsOf listing digest) := by
  have hnone : ∀ {α : Type} {validate : Value → Except PyError α} (files : List Bytes),
      (∀ value, ¬Escapes (validate value)) → ¬Escapes (readDocuments validate files) := by
    intro α validate files hvalidate hescapes
    obtain ⟨-, -, -, -, -, value, -, h⟩ := escapes_readDocuments.mp hescapes
    exact hvalidate value h
  refine ⟨?_, ?_, ?_⟩
  · rw [validationsOf, hexDigest?_of_isDigest hdigest, Except.ok_bind]
    refine contained_guardRead (hnone _ fun value => ?_) fun records hrecords r hr => ?_
    · simp [not_escapes_sourceValidation]
    · refine forall_of_readDocuments (fun r => validateSourceValidation r.document = .ok r.fields ∧
        r.fields.resultDigest = digest) (fun value record h => ?_) hrecords r
        ((perm_newestTextFirst _ records).mem_iff.mp hr)
      obtain ⟨record', -, h⟩ := Except.bind_eq_ok.mp h
      obtain ⟨hsame, h⟩ := Except.check_eq_ok.mp h
      cases h
      exact ⟨record.valid, by simpa using hsame⟩
  · rw [invalidationsOf, hexDigest?_of_isDigest hdigest, Except.ok_bind]
    refine contained_guardRead (hnone _ fun value => ?_) fun records hrecords r hr => ?_
    · simp [readInvalidation, not_escapes_invalidation]
    · refine forall_of_readDocuments (fun r => validateInvalidation r.document = .ok r.fields ∧
        r.fields.resultDigest = digest) (fun value record h => ?_) hrecords r
        ((perm_newestTextFirst _ records).mem_iff.mp hr)
      obtain ⟨record', -, h⟩ := Except.bind_eq_ok.mp h
      obtain ⟨hsame, h⟩ := Except.check_eq_ok.mp h
      cases h
      exact ⟨record.valid, by simpa using hsame⟩
  · rw [receiptsOf, hexDigest?_of_isDigest hdigest, Except.ok_bind]
    refine contained_guardRead (hnone _ fun value => ?_) fun receipts hreceipts receipt hr => ?_
    · simp [not_escapes_of_raisesOnly (raisesOnly_validateReceipt value false)]
    · refine forall_of_readDocuments (fun receipt => ∃ fields,
        validateReceipt receipt false = .ok fields ∧ fields.resultDigest = digest)
        (fun value receipt h => ?_) hreceipts receipt
        ((List.perm_insertionSort _ receipts).mem_iff.mp hr)
      obtain ⟨fields, hfields, h⟩ := Except.bind_eq_ok.mp h
      obtain ⟨hsame, h⟩ := Except.check_eq_ok.mp h
      cases h
      exact ⟨fields, hfields, by simpa using hsame⟩

/-- Every other text than a digest is refused with a `ValueError`. -/
theorem not_readersContained_of_not_isDigest (hdigest : isDigest digest = false) :
    ¬ReadersContained store listing digest := by
  intro h
  have hraise : store.result digest = raiseValueError "invalid SHA-256 digest" := by
    rw [result, hexDigest?, hdigest]
    rfl
  rcases h.result with ⟨found, hfound, -⟩ | ⟨message, hmessage⟩
  · cases hraise.symm.trans hfound
  · cases hraise.symm.trans hmessage

end FilesystemStore

/-- Whatever the files hold, the readers of a store on a filesystem return only records that pass
their validator and, apart from candidates, are about the requested digest, or raise a
`StoreReadError`, exactly when they are asked for a digest and none comes to a manifest file with an
unhashable version. -/
theorem readers_contained_iff [Sha256] (store : FilesystemStore) (listing : Listing)
    (digest : Str) :
    store.ReadersContained listing digest ↔
      isDigest digest = true ∧ ¬store.ManifestFault listing digest := by
  by_cases hdigest : isDigest digest = true
  · rw [and_iff_right hdigest]
    obtain ⟨hvalidations, hinvalidations, hreceipts⟩ :=
      @FilesystemStore.contained_records _ store listing digest hdigest
    constructor
    · rintro hcontained (⟨before, data, after, hlisted, hreadable, hunhashable⟩ |
        ⟨data, hstored, hunhashable⟩)
      · exact (FilesystemStore.contained_candidates_iff hdigest).mp hcontained.candidates
          ⟨before, data, after, hlisted, hreadable, hunhashable⟩
      · exact (FilesystemStore.contained_result_iff hdigest).mp hcontained.result
          ⟨data, hstored, hunhashable⟩
    · intro hfault
      refine ⟨?_, ?_, hvalidations, hinvalidations, hreceipts⟩
      · refine (FilesystemStore.contained_candidates_iff hdigest).mpr ?_
        rintro ⟨before, data, after, hlisted, hreadable, hunhashable⟩
        exact hfault (.candidate before data after hlisted hreadable hunhashable)
      · refine (FilesystemStore.contained_result_iff hdigest).mpr ?_
        rintro ⟨data, hstored, hunhashable⟩
        exact hfault (.result data hstored hunhashable)
  · refine iff_of_false ?_ fun h => hdigest h.1
    exact FilesystemStore.not_readersContained_of_not_isDigest (Bool.eq_false_iff.mpr hdigest)

/-! ### A manifest file whose version is an array -/

/-- A manifest whose version is an array. -/
def arrayVersionManifest : Value :=
  .dict [(lit "spec_version", .list []), (lit "action_digest", .none), (lit "artifacts", .none),
    (lit "produced_at", .none), (lit "fresh_until", .none), (lit "producer", .none)]

/-- A store with that manifest among the candidates of an action. -/
def arrayVersionStore (requested : Str) : FilesystemStore :=
  { FilesystemStore.empty (lit "local") with
    actions := Dict.empty.set (documentPath requested requested)
      (canonicalBytes arrayVersionManifest) }

/-- The `TypeError` escapes from `candidates`. -/
theorem not_readersContained_arrayVersion :
    ¬∀ (_ : Sha256) (store : FilesystemStore) (listing : Listing) (digest : Str),
      isDigest digest = true → store.ReadersContained listing digest := by
  intro hall
  let digest : Str := lit "sha256:" ++ List.replicate 64 (digit 0)
  have hdigest : isDigest digest = true := by decide
  have hcontained := (FilesystemStore.contained_candidates_iff hdigest).mp
    (@FilesystemStore.ReadersContained.candidates Sha256.standard _ _ _
      (hall Sha256.standard (arrayVersionStore digest) ⟨id, fun _ => .rfl⟩ digest hdigest))
  have hprofile : InProfile arrayVersionManifest :=
    (validate_eq_ok arrayVersionManifest (lit "$")).mp (by decide +kernel)
  have hwf : arrayVersionManifest.WellFormed := by
    simp [arrayVersionManifest, Value.WellFormed, Value.WellFormedList]
  refine hcontained ⟨[], canonicalBytes arrayVersionManifest, [], ?_, by simp, ?_⟩
  · show List.map Prod.snd (List.filter _ [_]) = _
    rw [List.filter_cons_of_pos]
    · rfl
    · exact Bool.and_eq_true_iff.mpr ⟨decide_eq_true rfl, endsWith_documentPath _ _⟩
  · exact ⟨_, File.loadJson_canonicalBytes hprofile hwf, by decide +kernel, by decide +kernel⟩

end OnceMesh
