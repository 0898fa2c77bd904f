import OnceMesh.Documents.Stored
import OnceMesh.ListRelations
import OnceMesh.StoreWriter

/-!
# The store on a filesystem

`FilesystemStore` keeps one file for each blob and each document, at a path made of digests. A file
is written once: a writer that finds the file leaves it. Documents are stored in their canonical
encoding and validated again when they are read, and a directory is listed in any order, so that the
readers sort what they find.
-/

namespace OnceMesh

open Python

/-! ### Files -/

/-- The contents of files, by directory and name. -/
abbrev Files := Dict (Str × Str) Bytes

/-- `_atomic_write`: a file that exists stays as it is. -/
def writeOnce (files : Files) (path : Str × Str) (data : Bytes) : Files :=
  if files.contains path then files else files.set path data

/-- The contents of the files of a directory that `directory.glob("*.json")` lists. -/
def filesIn (files : Files) (directory : Str) : List Bytes :=
  (files.entries.filter fun file =>
    file.1.1 = directory && endsWith file.1.2 (lit ".json")).map Prod.snd

/-- The order in which a directory is listed. -/
structure Listing where
  list : List Bytes → List Bytes
  perm : ∀ files, (list files).Perm files

/-- The order in which the files were made. -/
def Listing.asWritten : Listing := ⟨id, fun _ => .rfl⟩

/-- Writing a file appends it to its directory, if it is a document that does not exist yet. -/
theorem filesIn_writeOnce (files : Files) (path : Str × Str) (data : Bytes) (directory : Str) :
    filesIn (writeOnce files path data) directory =
      filesIn files directory ++
        if (path.1 = directory ∧ endsWith path.2 (lit ".json") = true) ∧
          files.contains path = false then [data] else [] := by
  unfold writeOnce
  cases hcontains : files.contains path with
  | true => simp
  | false =>
    have hnew : path ∉ files.entries.map Prod.fst := by
      intro hmem
      obtain ⟨⟨path', data'⟩, hfile, rfl⟩ := List.mem_map.mp hmem
      rw [Dict.contains, Dict.mem_entries_iff.mp hfile] at hcontains
      cases hcontains
    rw [if_neg Bool.false_ne_true, filesIn, filesIn, Dict.set]
    dsimp only
    rw [setItem_of_notMem data hnew, List.filter_append, List.map_append]
    by_cases hlisted : path.1 = directory ∧ endsWith path.2 (lit ".json") = true
    · rw [if_pos ⟨hlisted, rfl⟩, List.filter_cons_of_pos (by simpa using hlisted)]
      rfl
    · rw [if_neg fun h => hlisted h.1, List.filter_cons_of_neg (by simpa using hlisted)]
      rfl

/-- The files of a directory are still there after writing. -/
theorem mem_filesIn_writeOnce {files : Files} {path : Str × Str} {data contents : Bytes}
    {directory : Str} (h : contents ∈ filesIn (writeOnce files path data) directory) :
    contents ∈ filesIn files directory ∨ path.1 = directory ∧ contents = data := by
  rw [filesIn_writeOnce, List.mem_append] at h
  rcases h with h | h
  · exact .inl h
  · split_ifs at h with hnew
    · exact .inr ⟨hnew.1.1, List.mem_singleton.mp h⟩
    · cases h

/-! ### Digests as paths -/

/-- `_hex_digest`. -/
def hexDigest? (digest : Str) : Except PyError Str :=
  if isDigest digest then .ok (digest.drop 7) else raiseValueError "invalid SHA-256 digest"

/-- `digest.removeprefix("sha256:")` of a digest. -/
def digestHex (digest : Str) : Str := digest.drop 7

/-- The file of a digest is named after its hexadecimal part. -/
theorem hexDigest?_of_isDigest {digest : Str} (h : isDigest digest = true) :
    hexDigest? digest = .ok (digestHex digest) :=
  if_pos h

/-- A digest is its prefix and its hexadecimal part. -/
theorem eq_append_digestHex {digest : Str} (h : isDigest digest = true) :
    digest = lit "sha256:" ++ digestHex digest := by
  simp only [isDigest, startsWith, Bool.and_eq_true] at h
  obtain ⟨rest, hrest⟩ := List.isPrefixOf_iff_prefix.mp h.1.1
  have hlength : (lit "sha256:").length = 7 := by decide
  rw [digestHex, ← hrest, List.drop_left' hlength]

/-- Digests differ in their hexadecimal parts. -/
theorem digestHex_inj {digest digest' : Str} (h : isDigest digest = true)
    (h' : isDigest digest' = true) : digestHex digest = digestHex digest' ↔ digest = digest' := by
  refine ⟨fun heq => ?_, fun heq => by rw [heq]⟩
  rw [eq_append_digestHex h, eq_append_digestHex h', heq]

/-- A file in the directory of its first two digits. -/
def fanOut (digest : Str) (suffix : String) : Str × Str :=
  ((digestHex digest).take 2, (digestHex digest).drop 2 ++ lit suffix)

/-- The path under the own digest determines the digest. -/
theorem fanOut_inj {digest digest' : Str} (h : isDigest digest = true)
    (h' : isDigest digest' = true) {suffix : String} :
    fanOut digest suffix = fanOut digest' suffix ↔ digest = digest' := by
  rw [← digestHex_inj h h', fanOut, fanOut, Prod.mk.injEq, List.append_cancel_right_eq]
  refine ⟨fun ⟨htake, hdrop⟩ => ?_, fun heq => by rw [heq]; exact ⟨rfl, rfl⟩⟩
  rw [← List.take_append_drop 2 (digestHex digest), htake, hdrop, List.take_append_drop]

/-- The file of a document, by its digest, in the directory of another digest. -/
def documentPath (directory digest : Str) : Str × Str :=
  (digestHex directory, digestHex digest ++ lit ".json")

/-- The file of a document is listed. -/
theorem endsWith_documentPath (directory digest : Str) :
    endsWith (documentPath directory digest).2 (lit ".json") = true :=
  List.isSuffixOf_iff_suffix.mpr (List.suffix_append _ _)

/-! ### Reading documents -/

/-- The loop over the files of a directory. -/
def readDocuments {α : Type} (validate : Value → Except PyError α) :
    List Bytes → Except PyError (List α)
  | [] => .ok []
  | data :: rest => do
    let value ← File.loadJson (some data)
    let document ← validate value
    let documents ← readDocuments validate rest
    pure (document :: documents)

/-- `except (OSError, UnicodeError, json.JSONDecodeError, ValueError)` around a read. -/
def guardRead {α : Type} (message : String) (x : Except PyError α) : Except PyError α :=
  match x with
  | .ok a => .ok a
  | .error e => if isRegistryError e then .error (readError (lit message)) else .error e

/-- `sorted(records, key=…, reverse=True)`, by the text of a timestamp. -/
def newestTextFirst {α : Type} (key : α → Str) (records : List α) : List α :=
  records.insertionSort fun a b => key b ≤ key a

/-- A guarded read gives what is read. -/
@[simp]
theorem guardRead_eq_ok {α : Type} {message : String} {x : Except PyError α} {a : α} :
    guardRead message x = .ok a ↔ x = .ok a := by
  unfold guardRead
  split
  · exact Iff.rfl
  · split_ifs <;> simp

/-- Sorting keeps the records. -/
theorem perm_newestTextFirst {α : Type} (key : α → Str) (records : List α) :
    (newestTextFirst key records).Perm records :=
  List.perm_insertionSort _ records

section

variable {α : Type} {validate : Value → Except PyError α}

/-- A file holds a document that validates. -/
def Holds (validate : Value → Except PyError α) (data : Bytes) (document : α) : Prop :=
  ∃ value, File.loadJson (some data) = .ok value ∧ validate value = .ok document

/-- Octets hold one document at most. -/
theorem Holds.unique {data : Bytes} {document document' : α} (h : Holds validate data document)
    (h' : Holds validate data document') : document = document' := by
  obtain ⟨value, hvalue, hdocument⟩ := h
  obtain ⟨value', hvalue', hdocument'⟩ := h'
  cases hvalue.symm.trans hvalue'
  exact Except.ok.inj (hdocument.symm.trans hdocument')

/-- The documents of some files are those of the files one by one. -/
theorem readDocuments_eq_ok {files : List Bytes} {documents : List α} :
    readDocuments validate files = .ok documents ↔
      List.Forall₂ (Holds validate) files documents := by
  induction files generalizing documents with
  | nil =>
    rw [readDocuments, List.forall₂_nil_left_iff, Except.ok.injEq, eq_comm]
  | cons data rest ih =>
    rw [readDocuments, List.forall₂_cons_left_iff]
    constructor
    · intro h
      obtain ⟨value, hvalue, h⟩ := Except.bind_eq_ok.mp h
      obtain ⟨document, hdocument, h⟩ := Except.bind_eq_ok.mp h
      obtain ⟨documents, hdocuments, ⟨⟩⟩ := Except.bind_eq_ok.mp h
      exact ⟨document, documents, ⟨value, hvalue, hdocument⟩, ih.mp hdocuments, rfl⟩
    · rintro ⟨document, documents, ⟨value, hvalue, hdocument⟩, hdocuments, rfl⟩
      rw [hvalue, Except.ok_bind, hdocument, Except.ok_bind, ih.mpr hdocuments]
      rfl

/-- Some files can be read exactly when each of them holds a document, and these are then what is
read. -/
theorem exists_readDocuments_iff {files : List Bytes} {p : α → Prop} :
    (∃ documents, readDocuments validate files = .ok documents ∧ ∃ d ∈ documents, p d) ↔
      (∀ data ∈ files, ∃ d, Holds validate data d) ∧
        ∃ data ∈ files, ∃ d, Holds validate data d ∧ p d := by
  simp only [readDocuments_eq_ok]
  constructor
  · rintro ⟨documents, hall, d, hd, hp⟩
    refine ⟨fun data hdata => ?_, ?_⟩
    · obtain ⟨d, -, hholds⟩ := exists_of_forall₂_left hall hdata
      exact ⟨d, hholds⟩
    · obtain ⟨data, hdata, hholds⟩ := exists_of_forall₂_right hall hd
      exact ⟨data, hdata, d, hholds, hp⟩
  · rintro ⟨hall, data, hdata, d, hholds, hp⟩
    obtain ⟨documents, hdocuments⟩ := exists_forall₂_iff.mpr hall
    obtain ⟨d', hd', hholds'⟩ := exists_of_forall₂_left hdocuments hdata
    exact ⟨documents, hdocuments, d', hd', hholds.unique hholds' ▸ hp⟩

end

/-! ### The store -/

/-- `FilesystemStore`. -/
structure FilesystemStore where
  name : Str
  blobs : Files
  results : Files
  actions : Files
  validations : Files
  invalidations : Files
  receipts : Files

/-- A store in an empty directory. -/
def FilesystemStore.empty (name : Str) : FilesystemStore :=
  ⟨name, .empty, .empty, .empty, .empty, .empty, .empty⟩

variable [Sha256]

namespace FilesystemStore

variable (store : FilesystemStore)

/-- `put_blob`. -/
def putBlob (data : Bytes) : FilesystemStore :=
  { store with blobs := writeOnce store.blobs (fanOut (digestBytes data) "") data }

/-- `put_result` of a valid manifest. -/
def putResult (manifest : Manifest) : FilesystemStore :=
  { store with
    results := writeOnce store.results (fanOut manifest.digest ".json")
      (canonicalBytes manifest.document)
    actions := writeOnce store.actions (documentPath manifest.fields.actionDigest manifest.digest)
      (canonicalBytes manifest.document) }

/-- `put_validation` of a valid record. -/
def putValidation (record : SourceValidation) : FilesystemStore :=
  { store with
    validations := writeOnce store.validations
      (documentPath record.fields.resultDigest (digestOf record.document))
      (canonicalBytes record.document) }

/-- `put_invalidation` of a valid record. -/
def putInvalidation (record : Invalidation) : FilesystemStore :=
  { store with
    invalidations := writeOnce store.invalidations
      (documentPath record.fields.resultDigest (digestOf record.document))
      (canonicalBytes record.document) }

/-- `put_receipt` of a valid receipt for a result. -/
def putReceipt (resultDigest : Str) (receipt : Value) : FilesystemStore :=
  { store with
    receipts := writeOnce store.receipts (documentPath resultDigest (digestOf receipt))
      (canonicalBytes receipt) }

omit store in
/-- The writers of `FilesystemStore`, on valid documents. -/
def puts : StorePuts FilesystemStore where
  putBlob := putBlob
  putResult := putResult
  putValidation := putValidation
  putInvalidation := putInvalidation
  putReceipt := putReceipt

omit store in
/-- The writers of `FilesystemStore`. -/
def writer : StoreWriter FilesystemStore := FilesystemStore.puts.writer

variable (listing : Listing)

omit [Sha256] in
/-- `get_blob`. -/
def getBlob (digest : Str) : Except PyError (Option Bytes) := do
  let _ ← hexDigest? digest
  pure (store.blobs.get? (fanOut digest ""))

omit [Sha256] in
/-- `candidates`. -/
def candidates (requested : Str) : Except PyError (List Manifest) := do
  let hex ← hexDigest? requested
  let manifests ← guardRead "manifest_read_failed"
    (readDocuments Manifest.ofValue (listing.list (filesIn store.actions hex)))
  pure (newestTextFirst (fun manifest => manifest.fields.producedAt.text) manifests)

/-- `result`. -/
def result (digest : Str) : Except PyError (Option Manifest) := do
  let _ ← hexDigest? digest
  match store.results.get? (fanOut digest ".json") with
  | none => pure none
  | some data =>
    some <$> guardRead "result_read_failed" (do
      let value ← File.loadJson (some data)
      let manifest ← Manifest.ofValue value
      raiseIf (manifest.digest ≠ digest) "result is indexed under the wrong digest"
      pure manifest)

omit [Sha256] in
/-- `validations`. -/
def validationsOf (digest : Str) : Except PyError (List SourceValidation) := do
  let hex ← hexDigest? digest
  let records ← guardRead "validation_read_failed"
    (readDocuments
      (fun value => do
        let record ← SourceValidation.ofValue value
        raiseIf (record.fields.resultDigest ≠ digest)
          "validation record is indexed under the wrong result"
        pure record)
      (listing.list (filesIn store.validations hex)))
  pure (newestTextFirst (fun record => record.fields.validatedAt.text) records)

omit [Sha256] in
/-- The checks of a file with an invalidation of a result. -/
def readInvalidation (digest : Str) (value : Value) : Except PyError Invalidation := do
  let record ← Invalidation.ofValue value
  raiseIf (record.fields.resultDigest ≠ digest) "invalidation is indexed under the wrong result"
  pure record

omit [Sha256] in
/-- `invalidations`. -/
def invalidationsOf (digest : Str) : Except PyError (List Invalidation) := do
  let hex ← hexDigest? digest
  let records ← guardRead "invalidation_read_failed"
    (readDocuments (readInvalidation digest) (listing.list (filesIn store.invalidations hex)))
  pure (newestTextFirst (fun record => record.fields.invalidatedAt.text) records)

/-- `receipts`. -/
def receiptsOf (digest : Str) : Except PyError (List Value) := do
  let hex ← hexDigest? digest
  let receipts ← guardRead "receipt_read_failed"
    (readDocuments
      (fun value => do
        let fields ← validateReceipt value false
        raiseIf (fields.resultDigest ≠ digest) "receipt is indexed under the wrong result"
        pure value)
      (listing.list (filesIn store.receipts hex)))
  pure (receipts.insertionSort fun a b => digestOf a ≤ digestOf b)

omit [Sha256] in
/-- What a caller of a reader sees. The readers raise something else than a `StoreReadError` for a
text that is no digest, which no caller passes, and for a manifest file with an unhashable version,
which no writer leaves. -/
def asReader {α : Type} (x : Except PyError α) : Except StoreReadError α :=
  match x with
  | .ok a => .ok a
  | .error (.other _ message) => .error message
  | .error _ => .error []

/-- The readers of the store. -/
def view : Store where
  name := store.name
  getBlob digest := asReader (store.getBlob digest)
  candidates digest :=
    asReader ((store.candidates listing digest).map fun manifests =>
      manifests.map Manifest.document)
  result := some fun digest =>
    asReader ((store.result digest).map fun manifest => manifest.map Manifest.document)
  validations digest := asReader (store.validationsOf listing digest)
  invalidations := some fun digest => asReader (store.invalidationsOf listing digest)
  receipts digest := asReader (store.receiptsOf listing digest)

omit [Sha256] in
/-- The view of a store returns what its method returns. -/
@[simp]
theorem asReader_eq_ok {α : Type} {x : Except PyError α} {a : α} :
    asReader x = .ok a ↔ x = .ok a := by
  unfold asReader
  split <;> simp

end FilesystemStore

end OnceMesh
