import OnceMesh.Federation.OriginPilot

/-!
# Withdrawing a publication

`withdraw_origin_publication` writes an origin manifest without the publication of one result,
beside the manifest it has read. The new manifest differs in its publications only, and the catalog
that is prepared from it is the catalog of the old one after `withdraw`.
-/

namespace OnceMesh.Federation

open Python

variable {Path : Type}

/-! ### Writing -/

/-- What becomes of a file that is written. -/
inductive WriteOutcome where
  | written
  /-- The file cannot be created. -/
  | refused (error : PyError)
  /-- It cannot be written, and this is what is left of it when it has been removed. -/
  | interrupted (error : PyError) (rest : Option Bytes)

/-- `_write_new`, in a directory that exists. -/
def writeNew [DecidableEq Path] (outcome : WriteOutcome) (path : Path) (data : Bytes) :
    Stateful PyError (Path → Node) Unit := fun disk =>
  if (disk path).exists? then (.error .osError, disk)
  else
    match outcome with
    | .written => (.ok (), Function.update disk path (.file data))
    | .refused error => (.error error, disk)
    | .interrupted error none => (.error error, disk)
    | .interrupted error (some rest) => (.error error, Function.update disk path (.file rest))

/-! ### The withdrawal -/

/-- What a `for` statement runs over. -/
def iterated (value : Value) : Except PyError (List Value) :=
  match value with
  | .list items => .ok items
  | .str text => .ok (text.map fun c => .str [c])
  | .dict items | .mixedDict items => .ok (items.map fun i => .str i.1)
  | _ => .error (.typeError (lit "object is not iterable"))

/-- The document with other publications. -/
def withPublications (document : Value) (publications : List Value) : Value :=
  match document with
  | .dict items => .dict (setItem items (lit "publications") (.list publications))
  | v => v

section

variable [Sha256] (pathlib : Pathlib Path) (disk : Path → Node)

/-- The digest of the result that a file publishes. -/
def publicationDigest (file : Path) : Except PyError Str := do
  let publication ← loadDocument pathlib disk file
  DocumentValidation.exactKeys publication publicationKeys "federation publication"
  let manifest ← Manifest.ofValue (publication.get (lit "manifest"))
  pure manifest.digest

/-- The digest of the result that a reference is to. -/
def referenceDigest (base : Path) (reference : Value) : Except PyError Str := do
  publicationDigest pathlib disk (← referenceFile pathlib base reference)

/-- The loop over the references: those that are retained, and those that are removed. -/
def splitReferences (base : Path) (resultDigest : Str) :
    List Value → Except PyError (List Value × List Value)
  | [] => .ok ([], [])
  | reference :: rest => do
    let selected ← referenceDigest pathlib disk base reference
    let (retained, removed) ← splitReferences base resultDigest rest
    pure (if selected = resultDigest then (retained, reference :: removed)
      else (reference :: retained, removed))

/-- The report on a withdrawal. -/
def withdrawalReport (peerId : Value) (resultDigest : Str) (remaining : ℕ) : Value :=
  .dict [(lit "spec_version", .str (lit "oncemesh.federation-withdrawal-report/v0")),
    (lit "peer_id", peerId), (lit "withdrawn_result_digest", .str resultDigest),
    (lit "remaining_publications", .int remaining), (lit "restart_required", .bool true)]

/-- A manifest that is to be written, and the report on it. -/
structure WithdrawalPlan (Path : Type) where
  output : Path
  data : Bytes
  report : Value

variable [DecidableEq Path]

/-- `withdraw_origin_publication` up to the writing. -/
def planWithdrawal (originManifestFile resultDigest outputFile : Str) :
    Except PyError (WithdrawalPlan Path) := do
  raiseIf (!isDigest resultDigest) "withdrawal result digest is invalid"
  let source ← pathlib.resolve originManifestFile
  let output ← pathlib.resolve outputFile
  raiseIf (pathlib.parent output ≠ pathlib.parent source)
    "withdrawn manifest output must remain beside the source manifest"
  raiseIf (disk output).exists? "withdrawn manifest output must not already exist"
  let document ← loadDocument pathlib disk source
  checkOriginManifest document
  let references ← iterated (document.get (lit "publications"))
  let (retained, removed) ←
    splitReferences pathlib disk (pathlib.parent source) resultDigest references
  raiseIf (removed.length ≠ 1) "withdrawal must match exactly one configured publication"
  let encoded ← canonicalJson (withPublications document retained)
  pure ⟨output, encoded ++ [0x0A],
    withdrawalReport (document.get (lit "peer_id")) resultDigest retained.length⟩

omit disk in
/-- `withdraw_origin_publication`. -/
def withdrawOriginPublication (outcome : WriteOutcome)
    (originManifestFile resultDigest outputFile : Str) : Stateful PyError (Path → Node) Value :=
  fun disk =>
    match planWithdrawal pathlib disk originManifestFile resultDigest outputFile with
    | .error e => (.error e, disk)
    | .ok plan => (do writeNew outcome plan.output plan.data; pure plan.report) disk

end

/-! ### Manifests whose publications can be read -/

section

variable [Sha256] (pathlib : Pathlib Path) (disk : Path → Node)

/-- Whether the file publishes the result. -/
def publishes (resultDigest : Str) (file : Path) : Bool :=
  match publicationDigest pathlib disk file with
  | .ok digest => digest = resultDigest
  | .error _ => false

/-- Whether the reference is to the result. -/
def refersTo (base : Path) (resultDigest : Str) (reference : Value) : Bool :=
  match referenceFile pathlib base reference with
  | .ok file => publishes pathlib disk resultDigest file
  | .error _ => false

/-- An origin manifest at a path, all of whose references are to results. -/
structure OriginManifest (source : Path) where
  document : Value
  references : List Value
  loaded : loadDocument pathlib disk source = .ok document
  accepted : checkOriginManifest document = .ok ()
  listed : document.get (lit "publications") = .list references
  readable : ∀ reference ∈ references, ∃ digest,
    referenceDigest pathlib disk (pathlib.parent source) reference = .ok digest

end

/-! ### References -/

section

variable {pathlib : Pathlib Path} {disk : Path → Node} {base : Path}

/-- What has been loaded as a document. -/
theorem loadDocument_eq_ok {path : Path} {document : Value} :
    loadDocument pathlib disk path = .ok document ↔ ∃ contents, disk path = .file contents ∧
      strictFiniteJson contents = .ok document ∧ document.isDict = true := by
  unfold loadDocument
  cases disk path with
  | file contents =>
    cases hparse : strictFiniteJson contents with
    | ok value =>
      by_cases hdict : value.isDict = true
      · simp only [hdict, if_true, Except.ok.injEq, Node.file.injEq, exists_eq_left', hparse]
        constructor
        · rintro rfl
          exact ⟨rfl, hdict⟩
        · exact fun h => h.1
      · simp only [hdict, Bool.false_eq_true, if_false, Node.file.injEq, exists_eq_left', hparse,
          Except.ok.injEq, reduceCtorEq, false_iff, not_and]
        rintro rfl
        exact hdict
    | error e =>
      simp only [Node.file.injEq, exists_eq_left', hparse, reduceCtorEq, false_and, iff_false]
      cases e <;> simp [cannotRead]
  | _ => simp [cannotRead]

variable [Sha256]

/-- What `_load_publication` checks of the publication, and what it returns. -/
theorem loadPublication_eq_ok {file : Path} {store store' : MemoryStore}
    {publication : Publication} :
    loadPublication pathlib disk file store = .ok (store', publication) ↔
      ∃ document, loadDocument pathlib disk file = .ok document ∧
        loadPublicationDocument document store = .ok (store', publication) := by
  rw [loadPublication, Except.bind_eq_ok]

/-- A publication that the origin loads is published under the digest that is read here. -/
theorem publicationDigest_of_loadPublication {file : Path} {store store' : MemoryStore}
    {publication : Publication}
    (h : loadPublication pathlib disk file store = .ok (store', publication)) :
    publicationDigest pathlib disk file = .ok publication.manifest.digest := by
  obtain ⟨document, hdocument, hload⟩ := loadPublication_eq_ok.mp h
  simp only [loadPublicationDocument, Except.bind_eq_ok] at hload
  obtain ⟨_, hkeys, _, -, _, -, manifest, hmanifest, _, -, _, -, _, -, _, -, hload⟩ := hload
  cases hload
  rw [publicationDigest, hdocument, Except.ok_bind, hkeys, Except.ok_bind, hmanifest]
  rfl

/-- A reference to a result is to no other. -/
theorem refersTo_of_referenceDigest {reference : Value} {digest : Str} (resultDigest : Str)
    (h : referenceDigest pathlib disk base reference = .ok digest) :
    refersTo pathlib disk base resultDigest reference = decide (digest = resultDigest) := by
  obtain ⟨file, hfile, h⟩ := Except.bind_eq_ok.mp h
  rw [refersTo, hfile]
  show publishes pathlib disk resultDigest file = _
  rw [publishes, h]

/-- The references are split by the results they are to, if these can be read. -/
theorem splitReferences_eq_ok {resultDigest : Str} {references : List Value}
    {split : List Value × List Value} :
    splitReferences pathlib disk base resultDigest references = .ok split ↔
      (∀ reference ∈ references, ∃ digest,
        referenceDigest pathlib disk base reference = .ok digest) ∧
      split = (references.filter fun reference =>
        !refersTo pathlib disk base resultDigest reference,
        references.filter (refersTo pathlib disk base resultDigest)) := by
  induction references generalizing split with
  | nil => simp [splitReferences, eq_comm]
  | cons reference rest ih =>
    rw [splitReferences, List.forall_mem_cons]
    cases hdigest : referenceDigest pathlib disk base reference with
    | error e => exact iff_of_false (by rintro ⟨⟩) (by rintro ⟨⟨⟨_, ⟨⟩⟩, -⟩, -⟩)
    | ok digest =>
      have hrefers := refersTo_of_referenceDigest resultDigest hdigest
      rw [Except.ok_bind, Except.bind_eq_ok]
      simp only [ih]
      constructor
      · rintro ⟨_, ⟨hrest, rfl⟩, h⟩
        refine ⟨⟨⟨digest, rfl⟩, hrest⟩, ?_⟩
        cases h
        by_cases hselected : digest = resultDigest
        · simp [hrefers, hselected]
        · simp [hrefers, hselected]
      · rintro ⟨⟨-, hrest⟩, rfl⟩
        refine ⟨_, ⟨hrest, rfl⟩, ?_⟩
        by_cases hselected : digest = resultDigest
        · simp [hrefers, hselected, pure, Except.pure]
        · simp [hrefers, hselected, pure, Except.pure]

end

/-! ### The manifest read back -/

section

variable (v : Value)

/-- The keys of an object that is read back are the same. -/
@[simp]
theorem exactKeys_sortKeys (expected : List Str) (label : String) :
    DocumentValidation.exactKeys v.sortKeys expected label =
      DocumentValidation.exactKeys v expected label := by
  rw [DocumentValidation.exactKeys, DocumentValidation.exactKeys, hasExactKeys_sortKeys]

/-- The check for a text looks at scalars only. -/
@[simp]
theorem requireText_sortKeys (message : String) :
    requireText v.sortKeys message = requireText v message := by
  cases v <;> rfl

/-- The check for a bounded integer looks at scalars only. -/
@[simp]
theorem boundedInteger_sortKeys (label : String) (minimum maximum : ℤ) :
    boundedInteger v.sortKeys label minimum maximum = boundedInteger v label minimum maximum := by
  cases v <;> rfl

/-- The decoder of keys looks at scalars only. -/
@[simp]
theorem decode32_sortKeys (label : String) : decode32 v.sortKeys label = decode32 v label := by
  cases v <;> rfl

/-- The name of an environment variable is a scalar. -/
@[simp]
theorem seedFromEnvironment_sortKeys (environment : Str → Option Str) :
    seedFromEnvironment v.sortKeys environment = seedFromEnvironment v environment := by
  cases v <;> rfl

/-- A path is a scalar. -/
@[simp]
theorem relative_sortKeys (pathlib : Pathlib Path) (base : Path) (label : String) :
    relative pathlib base v.sortKeys label = relative pathlib base v label := by
  cases v <;> rfl

variable {v}

/-- A loop over the elements of a bounded array does not look at the order of their members. -/
theorem requireBoundedArray_sortKeys_bind {α : Type} (h : Storable v) (empty : Bool)
    (message : String) {loop loop' : List Value → Except PyError α}
    (hloop : ∀ items : List Value, (∀ w ∈ items, Storable w) →
      loop' (items.map Value.sortKeys) = loop items) :
    (requireBoundedArray v.sortKeys empty message >>= loop') =
      (requireBoundedArray v empty message >>= loop) := by
  cases v with
  | list items =>
    rw [Value.sortKeys, Value.sortKeysList_eq, requireBoundedArray, requireBoundedArray]
    simp only [List.map_eq_nil_iff, List.length_map]
    split
    · rfl
    · exact hloop items (storable_list.mp h)
  | _ => rfl

/-- A loop that folds the elements of an array does not look at the order of their members. -/
theorem foldlM_sortKeys {σ : Type} {body : σ → Value → Except PyError σ}
    (hbody : ∀ s w, Storable w → body s w.sortKeys = body s w) {items : List Value}
    (hitems : ∀ w ∈ items, Storable w) (s : σ) :
    (items.map Value.sortKeys).foldlM body s = items.foldlM body s := by
  induction items generalizing s with
  | nil => rfl
  | cons w rest ih =>
    rw [List.forall_mem_cons] at hitems
    rw [List.map_cons, List.foldlM_cons, List.foldlM_cons, hbody s w hitems.1]
    exact bind_congr fun t => ih hitems.2 t

/-- A loop that maps the elements of an array does not look at the order of their members. -/
theorem mapM_sortKeys {α : Type} {body : Value → Except PyError α}
    (hbody : ∀ w, Storable w → body w.sortKeys = body w) {items : List Value}
    (hitems : ∀ w ∈ items, Storable w) :
    (items.map Value.sortKeys).mapM body = items.mapM body := by
  induction items with
  | nil => rfl
  | cons w rest ih =>
    rw [List.forall_mem_cons] at hitems
    rw [List.map_cons, List.mapM_cons, List.mapM_cons, hbody w hitems.1, ih hitems.2]

/-- An origin manifest that is read back has the fields it had. -/
theorem checkOriginManifest_sortKeys (h : Storable v) :
    checkOriginManifest v.sortKeys = checkOriginManifest v := by
  simp only [checkOriginManifest, exactKeys_sortKeys, get_sortKeys h, eqStr_sortKeys]

/-- A requester that is read back is as valid as it was. -/
theorem authorizedRequester_sortKeys (keys : Dict Str Bytes) (h : Storable v) :
    authorizedRequester keys v.sortKeys = authorizedRequester keys v := by
  simp only [authorizedRequester, exactKeys_sortKeys, get_sortKeys h, requireText_sortKeys,
    decode32_sortKeys]

/-- A reference to a publication leads to the same file when it is read back. -/
theorem publicationFile_sortKeys (pathlib : Pathlib Path) (disk : Path → Node) (base : Path)
    (h : Storable v) :
    publicationFile pathlib disk base v.sortKeys = publicationFile pathlib disk base v := by
  simp only [publicationFile, referenceFile, exactKeys_sortKeys, get_sortKeys h, relative_sortKeys]

variable [Sha256]

/-- The record of a public key that is read back is as valid as it was. -/
theorem publicKeyRecord_sortKeys (label : String) (result : Dict Str Bytes) (h : Storable v) :
    publicKeyRecord label result v.sortKeys = publicKeyRecord label result v := by
  simp only [publicKeyRecord, exactKeys_sortKeys, get_sortKeys h, requireDigest_sortKeys,
    decode32_sortKeys]

/-- The records of public keys that are read back are as valid as they were. -/
theorem publicKeyRecords_sortKeys (h : Storable v) (label : String) :
    publicKeyRecords v.sortKeys label = publicKeyRecords v label :=
  requireBoundedArray_sortKeys_bind h _ _ fun _ hitems =>
    foldlM_sortKeys (fun _ _ hw => publicKeyRecord_sortKeys label _ hw) hitems _

/-- A manifest is read as the one that was written. -/
theorem originPilotOf_sortKeys (pathlib : Pathlib Path) (disk : Path → Node)
    (environment : Str → Option Str) (base : Path) (h : Storable v) {publications : Value}
    (hpublications : Storable publications) :
    originPilotOf pathlib disk environment base v.sortKeys publications.sortKeys =
      originPilotOf pathlib disk environment base v publications := by
  have hlisten := h.get (lit "listen")
  have htls := h.get (lit "tls")
  have hlimits := h.get (lit "limits")
  have hkeys := h.get (lit "receipt_public_keys")
  simp only [originPilotOf, checkOriginManifest_sortKeys h, get_sortKeys h, get_sortKeys hlisten,
    get_sortKeys htls, get_sortKeys hlimits, exactKeys_sortKeys, requireText_sortKeys,
    boundedInteger_sortKeys, relative_sortKeys, seedFromEnvironment_sortKeys,
    publicKeyRecords_sortKeys hkeys]
  refine bind_congr fun _ => bind_congr fun _ => bind_congr fun _ => bind_congr fun _ =>
    bind_congr fun _ => bind_congr fun _ => bind_congr fun _ => bind_congr fun _ =>
    bind_congr fun _ => ?_
  refine requireBoundedArray_sortKeys_bind (h.get (lit "authorized_requesters")) _ _
    fun requesters hrequesters => ?_
  rw [foldlM_sortKeys (fun _ _ hw => authorizedRequester_sortKeys _ hw) hrequesters]
  refine bind_congr fun _ => ?_
  refine requireBoundedArray_sortKeys_bind hpublications _ _ fun entries hentries => ?_
  rw [mapM_sortKeys (fun _ hw => publicationFile_sortKeys pathlib disk base hw) hentries]

end

/-! ### A manifest with other publications -/

section

variable {document : Value} {publications : List Value}

/-- Other publications leave the other members as they are. -/
theorem get_withPublications {key : Str} (hkey : key ≠ lit "publications") :
    (withPublications document publications).get key = document.get key := by
  cases document with
  | dict items => rw [withPublications, Value.get_setItem, if_neg hkey]
  | _ => rfl

/-- The other publications are what is read. -/
theorem get_withPublications_self (hdict : ∃ items, document = .dict items) :
    (withPublications document publications).get (lit "publications") = .list publications := by
  obtain ⟨items, rfl⟩ := hdict
  rw [withPublications, Value.get_setItem, if_pos rfl]

/-- A manifest that passes its checks is a dictionary with the keys of a manifest. -/
theorem keys_of_checkOriginManifest (h : checkOriginManifest document = .ok ()) :
    ∃ items, document = .dict items ∧ document.hasExactKeys originManifestKeys = true := by
  obtain ⟨hkeys, -⟩ := Except.check_eq_ok.mp h
  have hexact : document.hasExactKeys originManifestKeys = true := by
    rw [DocumentValidation.exactKeys] at hkeys
    split_ifs at hkeys with hexact
    exact hexact
  cases document with
  | dict items => exact ⟨items, rfl, hexact⟩
  | _ => cases hexact

/-- The fields of an origin manifest do not depend on its publications. -/
theorem checkOriginManifest_withPublications (h : checkOriginManifest document = .ok ()) :
    checkOriginManifest (withPublications document publications) = .ok () := by
  obtain ⟨items, rfl, hexact⟩ := keys_of_checkOriginManifest h
  have hmem : lit "publications" ∈ items.map Prod.fst := by
    rw [Value.hasExactKeys, Bool.and_eq_true] at hexact
    exact of_decide_eq_true (List.all_eq_true.mp hexact.2 _ (by decide))
  have hkeys : (setItem items (lit "publications") (.list publications)).map Prod.fst =
      items.map Prod.fst := by
    rw [keys_setItem, if_pos hmem]
  have hexact' : (withPublications (.dict items) publications).hasExactKeys originManifestKeys =
      (Value.dict items).hasExactKeys originManifestKeys := by
    have hall : ∀ l : List (Str × Value), l.all (fun i => i.1 ∈ originManifestKeys) =
        (l.map Prod.fst).all fun k => k ∈ originManifestKeys := fun l => by rw [List.all_map]; rfl
    rw [withPublications, Value.hasExactKeys, Value.hasExactKeys, hall, hall, hkeys]
  obtain ⟨-, hversion⟩ := Except.check_eq_ok.mp h
  rw [checkOriginManifest, DocumentValidation.exactKeys, hexact', if_pos hexact, Except.ok_bind,
    get_withPublications (by decide), get_withPublications (by decide)]
  exact hversion

/-- The publications of a manifest are read for their files only. -/
theorem originPilotOf_withPublications [Sha256] (pathlib : Pathlib Path) (disk : Path → Node)
    (environment : Str → Option Str) (base : Path) (h : checkOriginManifest document = .ok ())
    (listed : Value) :
    originPilotOf pathlib disk environment base (withPublications document publications) listed =
      originPilotOf pathlib disk environment base document listed := by
  rw [originPilotOf, originPilotOf, h, checkOriginManifest_withPublications h]
  simp (disch := decide) only [get_withPublications]

/-- With other publications, and the same files or more of them, a manifest gives the same
configuration with other files. -/
theorem originPilotOf_of_publications [Sha256] {pathlib : Pathlib Path} {disk disk' : Path → Node}
    {environment : Str → Option Str} {base : Path} {listed : Value} {entries : List Value}
    {files : List Path} {config : OriginPilotConfig Path}
    (h : originPilotOf pathlib disk environment base document listed = .ok config)
    (hdisk : ∀ path, (disk path).isFile = true → (disk' path).isFile = true)
    (hentries : entries.length ≤ 1000)
    (hfiles : entries.mapM (publicationFile pathlib disk' base) = .ok files) :
    originPilotOf pathlib disk' environment base document (.list entries) =
      .ok { config with publicationFiles := files } := by
  have hbounded : ∀ message, requireBoundedArray (.list entries) true message = .ok entries := by
    intro message
    rw [requireBoundedArray, if_neg (by simpa using hentries)]
  simp only [originPilotOf, Except.bind_eq_ok] at h
  obtain ⟨_, hcheck, peerId, hpeer, _, hlisten, host, hhost, port, hport, _, htls, certificate,
    hcertificate, privateKey, hprivateKey, _, hexist, requesters, hrequesters, authorized,
    hauthorized, _, -, _, -, _, hlimits, seed, hseed, keys, hkeys, age, hage, skew, hskew, nonces,
    hnonces, bytes, hbytes, requests, hrequests, window, hwindow, rate, hrate, hconfig⟩ := h
  cases hconfig
  have hexist' : raiseIf (!(disk' certificate).isFile || !(disk' privateKey).isFile)
      "origin TLS certificate and private key files must exist" = .ok () := by
    rw [raiseIf_eq_ok, Bool.or_eq_false_iff, Bool.not_eq_false', Bool.not_eq_false'] at hexist ⊢
    exact ⟨hdisk _ hexist.1, hdisk _ hexist.2⟩
  simp only [originPilotOf, hcheck, hpeer, hlisten, hhost, hport, htls, hcertificate, hprivateKey,
    hexist', hrequesters, hauthorized, hbounded, hfiles, hlimits, hseed, hkeys, hage, hskew,
    hnonces, hbytes, hrequests, hwindow, hrate, Except.ok_bind]
  rfl

end

/-! ### Publishing in another order of things -/

section

variable [Sha256]

/-- What the artifacts of a publication leave in a store does not depend on what was there. -/
theorem putArtifacts_congr {artifacts : Value} {descriptors : List ArtifactDescriptor}
    {store store' : MemoryStore} (h : putArtifacts artifacts store descriptors = .ok store')
    (other : MemoryStore) : ∃ other', putArtifacts artifacts other descriptors = .ok other' ∧
      ∀ digest, digest ∈ descriptors.map ArtifactDescriptor.digest ∨
          other.blobs.get? digest = store.blobs.get? digest →
        other'.blobs.get? digest = store'.blobs.get? digest := by
  induction descriptors generalizing store other with
  | nil =>
    cases h
    exact ⟨other, rfl, fun digest hdigest => hdigest.resolve_left List.not_mem_nil⟩
  | cons descriptor rest ih =>
    rw [putArtifacts] at h
    obtain ⟨blob, hblob, h⟩ := Except.bind_eq_ok.mp h
    obtain ⟨hchecked, h⟩ := Except.check_eq_ok.mp h
    obtain ⟨other', hother', hsame⟩ := ih h (other.putBlob blob)
    refine ⟨other', ?_, fun digest hdigest => hsame digest ?_⟩
    · rw [putArtifacts, hblob, Except.ok_bind, hchecked, Except.ok_bind, hother']
    · have hput : digestBytes blob = descriptor.digest := by
        simp only [raiseIf_eq_ok, Bool.or_eq_false_iff, decide_eq_false_iff_not, not_not, ne_eq]
          at hchecked
        exact hchecked.2
      simp only [MemoryStore.putBlob, Dict.get?_set, hput]
      rw [List.map_cons, List.mem_cons] at hdigest
      by_cases hhead : digest = descriptor.digest
      · exact .inr (by rw [if_pos hhead, if_pos hhead])
      · rw [if_neg hhead, if_neg hhead]
        exact hdigest.imp_left fun hmem => hmem.resolve_left hhead

/-- The check of the blobs reads the blobs of the manifest, and no others. -/
theorem checkBlobs_congr {store store' : Store} {descriptors : List ArtifactDescriptor}
    (h : ∀ digest ∈ descriptors.map ArtifactDescriptor.digest,
      store'.getBlob digest = store.getBlob digest) :
    PublicPeerCatalog.checkBlobs store' descriptors =
      PublicPeerCatalog.checkBlobs store descriptors := by
  induction descriptors with
  | nil => rfl
  | cons descriptor rest ih =>
    rw [List.map_cons, List.forall_mem_cons] at h
    simp only [PublicPeerCatalog.checkBlobs, PublicPeerCatalog.readBlob, h.1, ih h.2]

/-- A publication that loads into one store loads into every other, with the same artifacts. -/
theorem loadPublicationDocument_congr {document : Value} {store store' : MemoryStore}
    {publication : Publication}
    (h : loadPublicationDocument document store = .ok (store', publication))
    (other : MemoryStore) :
    ∃ other', loadPublicationDocument document other = .ok (other', publication) ∧
      ∀ digest ∈ publication.manifest.fields.artifacts.map ArtifactDescriptor.digest,
        other'.view.getBlob digest = store'.view.getBlob digest := by
  simp only [loadPublicationDocument, Except.bind_eq_ok] at h
  obtain ⟨_, hkeys, _, hversion, _, haction, manifest, hmanifest, receipt, hreceipt, _, hdict, _,
    hnames, stored, hstored, h⟩ := h
  cases h
  obtain ⟨other', hother', hsame⟩ := putArtifacts_congr hstored other
  refine ⟨other', ?_, fun digest hdigest => congrArg Except.ok (hsame digest (.inl hdigest))⟩
  simp only [loadPublicationDocument, hkeys, hversion, haction, hmanifest, hreceipt, hdict, hnames,
    hother', Except.ok_bind]
  rfl

variable [Ed25519]

/-- What the publication of a file adds to the catalog. -/
theorem publishFile_eq_ok {pathlib : Pathlib Path} {disk : Path → Node} {state state' : OriginState}
    {file : Path} :
    publishFile pathlib disk state file = .ok state' ↔ ∃ store publication result requested,
      loadPublication pathlib disk file state.store = .ok (store, publication) ∧
      state.catalog.checkPublication store.view publication.action publication.manifest.document
        publication.receipt (lit "public") = .ok result ∧
      actionDigest publication.action = .ok requested ∧
      state' = ⟨store, state.catalog.setPublished result, state.summaries ++
        [publicationSummary requested result.manifest.digest publication.manifest]⟩ := by
  rw [publishFile, Except.bind_eq_ok]
  constructor
  · rintro ⟨⟨store, publication⟩, hload, h⟩
    simp only [PublicPeerCatalog.publish] at h
    cases hcheck : state.catalog.checkPublication store.view publication.action
        publication.manifest.document publication.receipt (lit "public") with
    | error e =>
      rw [hcheck] at h
      cases h
    | ok result =>
      rw [hcheck] at h
      obtain ⟨requested, hrequested, h⟩ := Except.bind_eq_ok.mp h
      cases h
      exact ⟨store, publication, result, requested, hload, hcheck, hrequested, rfl⟩
  · rintro ⟨store, publication, result, requested, hload, hcheck, hrequested, rfl⟩
    refine ⟨(store, publication), hload, ?_⟩
    simp only [PublicPeerCatalog.publish, hcheck, hrequested, Except.ok_bind]
    rfl

/-- The publication of a file does not depend on what has been published before. -/
theorem publishFile_congr {pathlib : Pathlib Path} {disk disk' : Path → Node}
    (hdisk : ∀ path document, loadDocument pathlib disk path = .ok document →
      loadDocument pathlib disk' path = .ok document)
    {state state' : OriginState} {file : Path}
    (h : publishFile pathlib disk state file = .ok state') :
    ∃ (publication : Publication) (result : Published) (requested : Str),
      publicationDigest pathlib disk file = .ok result.manifest.digest ∧
      state'.catalog = state.catalog.setPublished result ∧
      state'.summaries = state.summaries ++
        [publicationSummary requested result.manifest.digest publication.manifest] ∧
      ∀ other : OriginState, other.catalog.receiptKeys = state.catalog.receiptKeys →
        ∃ store, publishFile pathlib disk' other file = .ok
          ⟨store, other.catalog.setPublished result, other.summaries ++
            [publicationSummary requested result.manifest.digest publication.manifest]⟩ := by
  obtain ⟨store, publication, result, requested, hload, hcheck, hrequested, rfl⟩ :=
    publishFile_eq_ok.mp h
  obtain ⟨document, hdocument, hloaded⟩ := loadPublication_eq_ok.mp hload
  have hmanifest : result.manifest = publication.manifest := by
    have hsame := (PublicPeerCatalog.documents_of_checkPublication hcheck).2.1
    exact Except.ok.inj ((Manifest.ofValue_eq_ok.mpr hsame).symm.trans
      (Manifest.ofValue_eq_ok.mpr rfl))
  refine ⟨publication, result, requested, ?_, rfl, rfl, fun other hother => ?_⟩
  · rw [hmanifest]
    exact publicationDigest_of_loadPublication hload
  · obtain ⟨other', hother', hsame⟩ := loadPublicationDocument_congr hloaded other.store
    refine ⟨other', publishFile_eq_ok.mpr ⟨other', publication, result, requested,
      loadPublication_eq_ok.mpr ⟨document, hdisk _ _ hdocument, hother'⟩, ?_, hrequested, rfl⟩⟩
    rw [PublicPeerCatalog.checkPublication_eq_ok] at hcheck ⊢
    refine ⟨rfl, { hcheck.2 with trusted := ?_, blobs := ?_ }⟩
    · rw [hother]
      exact hcheck.2.trusted
    · rw [checkBlobs_congr (by rw [hmanifest]; exact hsame)]
      exact hcheck.2.blobs

end

/-! ### The catalog of the new manifest -/

section

variable [Sha256]

/-- The summary is not of the result. -/
def isOtherSummary (resultDigest : Str) (summary : Value) : Bool :=
  !(summary.get (lit "result_digest")).eqStr resultDigest

omit [Sha256] in
/-- The summary of a publication belongs to its digest. -/
theorem isOtherSummary_publicationSummary (resultDigest requested digest : Str)
    (manifest : Manifest) :
    isOtherSummary resultDigest (publicationSummary requested digest manifest) =
      !decide (digest = resultDigest) := by
  rw [isOtherSummary, publicationSummary, Value.get_dict_cons, if_neg (by decide),
    Value.get_dict_cons, if_pos rfl, Value.eqStr]
  by_cases h : digest = resultDigest
  · simp [h]
  · simp [h]

/-- Publishing a result that is withdrawn. -/
theorem withdraw_setPublished_self {catalog : PublicPeerCatalog} {result : Published}
    {resultDigest : Str} (h : result.manifest.digest = resultDigest) :
    ((catalog.setPublished result).withdraw resultDigest).2 =
      (catalog.withdraw resultDigest).2 := by
  have hfilter := @Dict.filter_set_of_not _ _ _ catalog.published
    (fun digest => decide (digest ≠ resultDigest)) result.manifest.digest result (by simp [h])
  simp only [PublicPeerCatalog.withdraw, PublicPeerCatalog.setPublished, hfilter]

/-- Publishing another result. -/
theorem withdraw_setPublished_of_ne {catalog : PublicPeerCatalog} {result : Published}
    {resultDigest : Str} (h : result.manifest.digest ≠ resultDigest) :
    ((catalog.setPublished result).withdraw resultDigest).2 =
      (catalog.withdraw resultDigest).2.setPublished result := by
  have hfilter := @Dict.filter_set_of_keep _ _ _ catalog.published
    (fun digest => decide (digest ≠ resultDigest)) result.manifest.digest result (by simp [h])
  simp only [PublicPeerCatalog.withdraw, PublicPeerCatalog.setPublished, hfilter]

variable [Ed25519]

/-- Without the files of a result, the catalog that is prepared is the one without the result. -/
theorem foldlM_publishFile_filter {pathlib : Pathlib Path} {disk disk' : Path → Node}
    (hdisk : ∀ path document, loadDocument pathlib disk path = .ok document →
      loadDocument pathlib disk' path = .ok document)
    {resultDigest : Str} {files : List Path} {state final other : OriginState}
    (h : files.foldlM (publishFile pathlib disk) state = .ok final)
    (hcatalog : other.catalog = (state.catalog.withdraw resultDigest).2)
    (hsummaries : other.summaries = state.summaries.filter (isOtherSummary resultDigest)) :
    ∃ final', (files.filter fun file => !publishes pathlib disk resultDigest file).foldlM
        (publishFile pathlib disk') other = .ok final' ∧
      final'.catalog = (final.catalog.withdraw resultDigest).2 ∧
      final'.summaries = final.summaries.filter (isOtherSummary resultDigest) := by
  induction files generalizing state other with
  | nil =>
    cases h
    exact ⟨other, rfl, hcatalog, hsummaries⟩
  | cons file rest ih =>
    rw [List.foldlM_cons] at h
    obtain ⟨state', hstep, h⟩ := Except.bind_eq_ok.mp h
    obtain ⟨publication, result, requested, hdigest, hcatalog', hsummaries', hother⟩ :=
      publishFile_congr hdisk hstep
    have hpublishes : publishes pathlib disk resultDigest file =
        decide (result.manifest.digest = resultDigest) := by
      rw [publishes, hdigest]
    by_cases hselected : result.manifest.digest = resultDigest
    · rw [List.filter_cons_of_neg (by simp [hpublishes, hselected])]
      refine ih h ?_ ?_
      · rw [hcatalog, hcatalog', withdraw_setPublished_self hselected]
      · rw [hsummaries, hsummaries', List.filter_append, List.filter_cons_of_neg
          (by simp [isOtherSummary_publicationSummary, hselected]), List.filter_nil,
            List.append_nil]
    · rw [List.filter_cons_of_pos (by simp [hpublishes, hselected]), List.foldlM_cons]
      obtain ⟨store, hstep'⟩ := hother other (by rw [hcatalog]; rfl)
      rw [hstep', Except.ok_bind]
      refine ih h ?_ ?_
      · rw [hcatalog', withdraw_setPublished_of_ne hselected, hcatalog]
      · rw [hsummaries', List.filter_append, hsummaries, List.filter_cons_of_pos
          (by simp [isOtherSummary_publicationSummary, hselected]), List.filter_nil]

end

/-! ### The withdrawal as a whole -/

section

variable [Sha256] {pathlib : Pathlib Path} {disk : Path → Node} {source : Path}

namespace OriginManifest

variable (m : OriginManifest pathlib disk source) (resultDigest : Str)

/-- The references to other results, in their order. -/
def retained : List Value :=
  m.references.filter fun reference =>
    !refersTo pathlib disk (pathlib.parent source) resultDigest reference

/-- How many references are to the result. -/
def count : ℕ := m.references.countP (refersTo pathlib disk (pathlib.parent source) resultDigest)

/-- The manifest without the result. -/
def without : Value := withPublications m.document (m.retained resultDigest)

/-- What is reported when the result is withdrawn. -/
def report : Value :=
  withdrawalReport (m.document.get (lit "peer_id")) resultDigest (m.retained resultDigest).length

end OriginManifest

/-- The configuration without the files of a result. -/
def OriginPilotConfig.without (pathlib : Pathlib Path) (disk : Path → Node) (resultDigest : Str)
    (config : OriginPilotConfig Path) : OriginPilotConfig Path :=
  { config with publicationFiles :=
      config.publicationFiles.filter fun file => !publishes pathlib disk resultDigest file }

/-- What a withdrawal leaves: the manifest without the result is written and read back, it
configures the same origin with fewer files, and the catalog prepared from them is the old one after
`withdraw`. -/
structure Withdrawn [Ed25519] [DecidableEq Path] (m : OriginManifest pathlib disk source)
    (originManifestFile resultDigest outputFile : Str) (output : Path) (after : Path → Node) :
    Prop where
  after_eq : after = Function.update disk output
    (.file (canonicalBytes (m.without resultDigest) ++ [0x0A]))
  document : loadDocument pathlib after output = .ok (m.without resultDigest).sortKeys
  others : ∀ key, key ≠ lit "publications" →
    (m.without resultDigest).get key = m.document.get key
  publications : (m.without resultDigest).get (lit "publications") = .list (m.retained resultDigest)
  configuration : ∀ environment config,
    loadOriginPilot pathlib disk environment originManifestFile = .ok config →
      loadOriginPilot pathlib after environment outputFile =
        .ok (config.without pathlib disk resultDigest)
  catalog : ∀ config state, prepareOriginCatalog pathlib disk config = .ok state →
    ∃ state', prepareOriginCatalog pathlib after (config.without pathlib disk resultDigest) =
        .ok state' ∧
      state'.catalog = (state.catalog.withdraw resultDigest).2 ∧
      state'.summaries = state.summaries.filter (isOtherSummary resultDigest)

/-! #### The document that is written -/

omit [Sha256] in
/-- What is read as strict JSON is a value of Python. -/
theorem wellFormed_of_strictFiniteJson {raw : Bytes} {v : Value}
    (h : strictFiniteJson raw = .ok v) :
    v.WellFormed := by
  unfold strictFiniteJson at h
  split at h
  · cases h
  next text htext =>
    obtain ⟨tree, htree, hfold⟩ := Json.loadsWith_eq_ok.mp h
    have hplain := Json.Tree.fold_plain_of_strict (Json.Tree.fold_strict_of_strictFinite hfold)
    exact Json.loads_wellFormed (Json.loadsWith_eq_ok.mpr ⟨tree, htree, hplain⟩)

omit [Sha256] in
/-- Canonical JSON before a line feed is read as the document. -/
theorem strictFiniteJson_canonicalBytes_lineFeed {items : List (Str × Value)}
    (h : Storable (.dict items)) :
    strictFiniteJson (canonicalBytes (.dict items) ++ [0x0A]) =
      .ok (Value.dict items).sortKeys := by
  have hline : encodeUtf8 (lit "\n") = some [0x0A] := by decide
  have htext : decodeUtf8 (canonicalBytes (.dict items) ++ [0x0A]) =
      some (Json.dumps (.dict items) ++ lit "\n") :=
    decodeUtf8_of_encodeUtf8 (encodeUtf8_append (encodeUtf8_dumps h.inProfile) hline)
  have hlines : (0x0D : CodePoint) ∉ Json.dumps (.dict items) ++ lit "\n" := by
    rw [List.mem_append, not_or]
    exact ⟨fun hmem => absurd (Json.le_of_mem_dumps _ _ hmem) (by decide), by decide⟩
  rw [strictFiniteJson, htext]
  simp only [universalNewlines_of_notMem hlines]
  refine Json.loadsWith_dict_append (fun _ => rfl) rfl (fun _ hkeys => ?_)
    h.inProfile.serializable h.wellFormed (by decide)
  exact Json.object_strict hkeys

namespace OriginManifest

variable (m : OriginManifest pathlib disk source) (resultDigest : Str)

/-- What is left of an origin manifest is an object. -/
theorem isDict_without : ∃ items, m.without resultDigest = .dict items := by
  obtain ⟨items, hitems, -⟩ := keys_of_checkOriginManifest m.accepted
  exact ⟨_, by rw [without, hitems, withPublications]⟩

/-- An origin manifest has been read, so that its keys are distinct. -/
theorem wellFormed_document : m.document.WellFormed := by
  obtain ⟨_, -, hparse, -⟩ := loadDocument_eq_ok.mp m.loaded
  exact wellFormed_of_strictFiniteJson hparse

/-- What is left of an origin manifest has distinct keys. -/
theorem wellFormed_without : (m.without resultDigest).WellFormed := by
  obtain ⟨items, hitems, -⟩ := keys_of_checkOriginManifest m.accepted
  have hwf := m.wellFormed_document
  rw [hitems] at hwf
  have hreferences := hwf.get (lit "publications")
  rw [← hitems, m.listed, Value.wellFormed_list] at hreferences
  rw [without, hitems, withPublications]
  exact Value.wellFormed_setItem hwf (Value.wellFormed_list.mpr fun v hv =>
    hreferences v (List.mem_of_mem_filter hv))

variable {m resultDigest}

/-- What is left of an origin manifest is storable if canonical JSON stores it. -/
theorem storable_without (h : InProfile (m.without resultDigest)) :
    Storable (m.without resultDigest) := ⟨h, m.wellFormed_without resultDigest⟩

end OriginManifest

/-! #### The configuration -/

/-- The publications of a manifest are the files its references name. -/
theorem publications_of_originPilotOf {environment : Str → Option Str} {base : Path}
    {document : Value} {entries : List Value} {config : OriginPilotConfig Path}
    (h : originPilotOf pathlib disk environment base document (.list entries) = .ok config) :
    entries.length ≤ 1000 ∧
      entries.mapM (publicationFile pathlib disk base) = .ok config.publicationFiles := by
  simp only [originPilotOf, Except.bind_eq_ok] at h
  obtain ⟨_, -, _, -, _, -, _, -, _, -, _, -, _, -, _, -, _, -, _, -, _, -, listed, hlisted, files,
    hfiles, _, -, _, -, _, -, _, -, _, -, _, -, _, -, _, -, _, -, _, -, hconfig⟩ := h
  cases hconfig
  rw [requireBoundedArray] at hlisted
  split_ifs at hlisted with hlength
  · cases hlisted
  · obtain rfl := Except.ok.inj hlisted
    exact ⟨by simpa using hlength, hfiles⟩

/-- The files of the references to other results. -/
theorem mapM_publicationFile_filter {disk' : Path → Node} {base : Path} {resultDigest : Str}
    (hdisk : ∀ path, (disk path).isFile = true → (disk' path).isFile = true)
    {references : List Value} {files : List Path}
    (h : references.mapM (publicationFile pathlib disk base) = .ok files) :
    (references.filter fun reference => !refersTo pathlib disk base resultDigest reference).mapM
        (publicationFile pathlib disk' base) =
      .ok (files.filter fun file => !publishes pathlib disk resultDigest file) := by
  induction references generalizing files with
  | nil =>
    cases h
    rfl
  | cons reference rest ih =>
    rw [List.mapM_cons] at h
    obtain ⟨file, hstep, h⟩ := Except.bind_eq_ok.mp h
    obtain ⟨rest', hrest, h⟩ := Except.bind_eq_ok.mp h
    cases h
    obtain ⟨file', hfile, hexists⟩ := Except.bind_eq_ok.mp hstep
    obtain ⟨hexists, heq⟩ := Except.check_eq_ok.mp hexists
    cases heq
    rw [raiseIf_eq_ok, Bool.not_eq_false'] at hexists
    have hrefers : refersTo pathlib disk base resultDigest reference =
        publishes pathlib disk resultDigest file := by
      rw [refersTo, hfile]
    have hstep' : publicationFile pathlib disk' base reference = .ok file := by
      rw [publicationFile, hfile, Except.ok_bind, hdisk file hexists]
      rfl
    by_cases hselected : publishes pathlib disk resultDigest file = true
    · rw [List.filter_cons_of_neg (by simp [hrefers, hselected]),
        List.filter_cons_of_neg (by simp [hselected])]
      exact ih hrest
    · rw [List.filter_cons_of_pos (by simp [hrefers, hselected]),
        List.filter_cons_of_pos (by simp [hselected]), List.mapM_cons, hstep', ih hrest]
      rfl

/-! #### The disk -/

section

variable [DecidableEq Path] {output : Path} {data : Bytes}

omit [Sha256] in
/-- A new file hides no document. -/
theorem loadDocument_update (hnew : disk output = .absent) {path : Path} {document : Value}
    (h : loadDocument pathlib disk path = .ok document) :
    loadDocument pathlib (Function.update disk output (.file data)) path = .ok document := by
  obtain ⟨contents, hcontents, hparse⟩ := loadDocument_eq_ok.mp h
  have hne : path ≠ output := by
    rintro rfl
    cases hcontents.symm.trans hnew
  exact loadDocument_eq_ok.mpr ⟨contents, by rw [Function.update_of_ne hne, hcontents], hparse⟩

omit [Sha256] in
/-- A path that is a file is one after a file has been written. -/
theorem isFile_update {path : Path} (h : (disk path).isFile = true) :
    (Function.update disk output (.file data) path).isFile = true := by
  by_cases hpath : path = output
  · rw [hpath, Function.update_self]
    rfl
  · rw [Function.update_of_ne hpath, h]

omit [Sha256] in
/-- A path that does not exist has no node. -/
theorem exists?_eq_false {node : Node} : node.exists? = false ↔ node = .absent := by
  cases node <;> simp [Node.exists?]

omit [DecidableEq Path] in
/-- A reference is an object. -/
theorem referenceDigest_str (base : Path) (text digest : Str) :
    referenceDigest pathlib disk base (.str text) ≠ .ok digest := by
  rintro ⟨⟩

omit [DecidableEq Path] in
/-- References are not the characters of a text, or the keys of an object. -/
theorem eq_list_of_iterated {base : Path} {value reference : Value} {references : List Value}
    {digest : Str} (h : iterated value = .ok references) (hmem : reference ∈ references)
    (hdigest : referenceDigest pathlib disk base reference = .ok digest) :
    value = .list references := by
  cases value with
  | list items =>
    cases h
    rfl
  | str text =>
    cases h
    obtain ⟨c, -, rfl⟩ := List.mem_map.mp hmem
    exact absurd hdigest (referenceDigest_str _ _ _)
  | dict items | mixedDict items =>
    cases h
    obtain ⟨i, -, rfl⟩ := List.mem_map.mp hmem
    exact absurd hdigest (referenceDigest_str _ _ _)
  | _ => cases h

omit [DecidableEq Path] in
/-- A reference names its result by a digest. -/
theorem isDigest_of_referenceDigest {base : Path} {reference : Value} {digest : Str}
    (h : referenceDigest pathlib disk base reference = .ok digest) : isDigest digest = true := by
  obtain ⟨file, -, h⟩ := Except.bind_eq_ok.mp h
  simp only [publicationDigest, Except.bind_eq_ok] at h
  obtain ⟨_, -, _, -, manifest, -, h⟩ := h
  cases h
  exact isDigest_digestBytes _

/-- What is planned: that the manifest without the result is written beside the manifest. -/
theorem planWithdrawal_eq_ok {originManifestFile resultDigest outputFile : Str}
    {plan : WithdrawalPlan Path} :
    planWithdrawal pathlib disk originManifestFile resultDigest outputFile = .ok plan ↔
      ∃ source, pathlib.resolve originManifestFile = .ok source ∧
        pathlib.resolve outputFile = .ok plan.output ∧
        pathlib.parent plan.output = pathlib.parent source ∧ disk plan.output = .absent ∧
        ∃ m : OriginManifest pathlib disk source, m.count resultDigest = 1 ∧
          InProfile (m.without resultDigest) ∧
          plan.data = canonicalBytes (m.without resultDigest) ++ [0x0A] ∧
          plan.report = m.report resultDigest := by
  constructor
  · intro h
    simp only [planWithdrawal, Except.bind_eq_ok, raiseIf_eq_ok, splitReferences_eq_ok] at h
    obtain ⟨_, -, source, hsource, output, houtput, _, hbeside, _, hnew, document, hdocument, _,
      haccepted, references, hreferences, _, ⟨hreadable, rfl⟩, _, hone, encoded, hencoded, h⟩ := h
    cases h
    obtain ⟨hprofile, rfl⟩ := canonicalJson_eq_ok.mp hencoded
    have hremoved : (references.filter
        (refersTo pathlib disk (pathlib.parent source) resultDigest)).length = 1 := by
      simpa using hone
    -- one of the references is a reference, so that they are the elements of a list
    have hlisted : document.get (lit "publications") = .list references := by
      obtain ⟨reference, hmem⟩ := List.exists_mem_of_length_pos (by omega :
        0 < (references.filter
          (refersTo pathlib disk (pathlib.parent source) resultDigest)).length)
      obtain ⟨digest, hdigest⟩ := hreadable reference (List.mem_of_mem_filter hmem)
      exact eq_list_of_iterated hreferences (List.mem_of_mem_filter hmem) hdigest
    refine ⟨source, hsource, houtput, by simpa using hbeside, exists?_eq_false.mp hnew,
      ⟨document, references, hdocument, haccepted, hlisted, hreadable⟩, ?_, hprofile, rfl, rfl⟩
    rw [OriginManifest.count, List.countP_eq_length_filter]
    exact hremoved
  · rintro ⟨source, hsource, houtput, hbeside, hnew, m, hcount, hprofile, hdata, hreport⟩
    have hremoved : (m.references.filter
        (refersTo pathlib disk (pathlib.parent source) resultDigest)).length = 1 := by
      rw [← List.countP_eq_length_filter]
      exact hcount
    have hvalid : isDigest resultDigest = true := by
      obtain ⟨reference, hmem⟩ := List.exists_mem_of_length_pos (by omega :
        0 < (m.references.filter
          (refersTo pathlib disk (pathlib.parent source) resultDigest)).length)
      obtain ⟨digest, hdigest⟩ := m.readable reference (List.mem_of_mem_filter hmem)
      have hselected := (List.mem_filter.mp hmem).2
      rw [refersTo_of_referenceDigest resultDigest hdigest, decide_eq_true_eq] at hselected
      exact hselected ▸ isDigest_of_referenceDigest hdigest
    simp only [planWithdrawal, Except.bind_eq_ok, raiseIf_eq_ok, splitReferences_eq_ok]
    refine ⟨(), by rw [hvalid, Bool.not_true], source, hsource, plan.output, houtput, (),
      by simpa using hbeside, (), exists?_eq_false.mpr hnew, m.document, m.loaded, (), m.accepted,
      m.references, by rw [m.listed, iterated], _, ⟨m.readable, rfl⟩, (), by simpa using hremoved,
      _, canonicalJson_eq_ok.mpr ⟨hprofile, rfl⟩, ?_⟩
    cases plan
    simp only at hdata hreport
    rw [hdata, hreport]
    rfl

/-! #### The manifest and the catalog -/

variable {m : OriginManifest pathlib disk source} {resultDigest : Str}

/-- The manifest that is written configures the origin with the other files. -/
theorem loadOriginPilot_update {environment : Str → Option Str}
    {originManifestFile outputFile : Str}
    {config : OriginPilotConfig Path} (hsource : pathlib.resolve originManifestFile = .ok source)
    (houtput : pathlib.resolve outputFile = .ok output)
    (hbeside : pathlib.parent output = pathlib.parent source)
    (hdocument : loadDocument pathlib (Function.update disk output (.file data)) output =
      .ok (m.without resultDigest).sortKeys)
    (hprofile : InProfile (m.without resultDigest))
    (h : loadOriginPilot pathlib disk environment originManifestFile = .ok config) :
    loadOriginPilot pathlib (Function.update disk output (.file data)) environment outputFile =
      .ok (config.without pathlib disk resultDigest) := by
  obtain ⟨items, hitems, -⟩ := keys_of_checkOriginManifest m.accepted
  have hstorable := m.storable_without hprofile
  have hpublications : (m.without resultDigest).get (lit "publications") =
      .list (m.retained resultDigest) := get_withPublications_self ⟨items, hitems⟩
  rw [loadOriginPilot, hsource, Except.ok_bind, m.loaded, Except.ok_bind, m.listed] at h
  obtain ⟨hlength, hfiles⟩ := publications_of_originPilotOf h
  rw [loadOriginPilot, houtput, Except.ok_bind, hdocument, Except.ok_bind, hbeside,
    get_sortKeys hstorable, originPilotOf_sortKeys _ _ _ _ hstorable (hstorable.get _),
    hpublications, OriginManifest.without, originPilotOf_withPublications _ _ _ _ m.accepted]
  exact originPilotOf_of_publications h (fun _ => isFile_update)
    ((List.length_filter_le _ _).trans hlength)
    (mapM_publicationFile_filter (fun _ => isFile_update) hfiles)

variable [Ed25519]

/-- The catalog that is prepared is the one without the result. -/
theorem prepareOriginCatalog_update (hnew : disk output = .absent)
    {config : OriginPilotConfig Path} {state : OriginState}
    (h : prepareOriginCatalog pathlib disk config = .ok state) :
    ∃ state', prepareOriginCatalog pathlib (Function.update disk output (.file data))
        (config.without pathlib disk resultDigest) = .ok state' ∧
      state'.catalog = (state.catalog.withdraw resultDigest).2 ∧
      state'.summaries = state.summaries.filter (isOtherSummary resultDigest) := by
  obtain ⟨catalog, hcatalog, h⟩ := Except.bind_eq_ok.mp h
  -- nothing is published before the loop
  have hempty : catalog.published = .empty := by
    rw [PublicPeerCatalog.create] at hcatalog
    split_ifs at hcatalog
    · cases hcatalog
    · rw [← Except.ok.inj hcatalog]
    · cases hcatalog
  have hwithdraw : catalog = (catalog.withdraw resultDigest).2 := by
    obtain ⟨peerId, seed, receiptKeys, published, hpeer, hseed⟩ := catalog
    cases hempty
    rfl
  let start : OriginState := ⟨MemoryStore.empty (config.peerId ++ lit "-pilot-origin"), catalog, []⟩
  have hdisk : ∀ path document, loadDocument pathlib disk path = .ok document →
      loadDocument pathlib (Function.update disk output (.file data)) path = .ok document :=
    fun _ _ => loadDocument_update hnew
  obtain ⟨state', hstate', hresult⟩ := @foldlM_publishFile_filter _ _ _ _ _ _ hdisk resultDigest _
    start _ start h hwithdraw rfl
  refine ⟨state', ?_, hresult⟩
  rw [prepareOriginCatalog]
  show (PublicPeerCatalog.create config.peerId config.availabilitySeed
    config.receiptPublicKeys >>= _) = _
  rw [hcatalog, Except.ok_bind]
  exact hstate'

omit [Ed25519] in
/-- A withdrawal returns just if it is planned and written. -/
theorem withdrawOriginPublication_eq_ok {outcome : WriteOutcome}
    {originManifestFile resultDigest outputFile : Str} {report : Value} {after : Path → Node} :
    withdrawOriginPublication pathlib outcome originManifestFile resultDigest outputFile disk =
        (.ok report, after) ↔
      ∃ plan, planWithdrawal pathlib disk originManifestFile resultDigest outputFile = .ok plan ∧
        outcome = .written ∧ after = Function.update disk plan.output (.file plan.data) ∧
        report = plan.report := by
  rw [withdrawOriginPublication]
  cases hplan : planWithdrawal pathlib disk originManifestFile resultDigest outputFile with
  | error e => simp
  | ok plan =>
    obtain ⟨_, -, -, -, hnew, -⟩ := planWithdrawal_eq_ok.mp hplan
    simp only [Stateful.bind_apply, writeNew, hnew, Except.ok.injEq, exists_eq_left']
    cases outcome with
    | written =>
      simp [Node.exists?, pure, eq_comm, and_comm]
    | refused e => simp [Node.exists?]
    | interrupted e rest => cases rest <;> simp [Node.exists?]

/-- A plan that is written leaves what a withdrawal should. -/
theorem withdrawn_of_plan {originManifestFile outputFile : Str}
    (hsource : pathlib.resolve originManifestFile = .ok source)
    (houtput : pathlib.resolve outputFile = .ok output)
    (hbeside : pathlib.parent output = pathlib.parent source) (hnew : disk output = .absent)
    (hprofile : InProfile (m.without resultDigest)) :
    Withdrawn m originManifestFile resultDigest outputFile output (Function.update disk output
      (.file (canonicalBytes (m.without resultDigest) ++ [0x0A]))) := by
  obtain ⟨items, hitems, -⟩ := keys_of_checkOriginManifest m.accepted
  have hdocument : loadDocument pathlib (Function.update disk output
      (.file (canonicalBytes (m.without resultDigest) ++ [0x0A]))) output =
      .ok (m.without resultDigest).sortKeys := by
    have hstorable := m.storable_without hprofile
    obtain ⟨items', hitems'⟩ := m.isDict_without resultDigest
    rw [hitems'] at hstorable ⊢
    exact loadDocument_eq_ok.mpr ⟨_, Function.update_self _ _ _,
      strictFiniteJson_canonicalBytes_lineFeed hstorable, rfl⟩
  exact ⟨rfl, hdocument, fun key hkey => get_withPublications hkey,
    get_withPublications_self ⟨items, hitems⟩,
    fun _ _ => loadOriginPilot_update hsource houtput hbeside hdocument hprofile,
    fun _ _ => prepareOriginCatalog_update hnew⟩

/-- A withdrawal returns just if exactly one reference is to the result, the manifest is in the
profile of canonical JSON and its output is a new file beside it; then it leaves what it should. If
it does not return, nothing is written, except for what a failed write leaves at the output. -/
theorem withdrawOriginPublication_exact (pathlib : Pathlib Path) (disk : Path → Node)
    (outcome : WriteOutcome) (originManifestFile resultDigest outputFile : Str) :
    (∀ report after, withdrawOriginPublication pathlib outcome originManifestFile resultDigest
        outputFile disk = (.ok report, after) ↔
      outcome = .written ∧ ∃ source output, pathlib.resolve originManifestFile = .ok source ∧
        pathlib.resolve outputFile = .ok output ∧
        pathlib.parent output = pathlib.parent source ∧ disk output = .absent ∧
        ∃ m : OriginManifest pathlib disk source, m.count resultDigest = 1 ∧
          InProfile (m.without resultDigest) ∧ report = m.report resultDigest ∧
          Withdrawn m originManifestFile resultDigest outputFile output after) ∧
    (∀ error after, withdrawOriginPublication pathlib outcome originManifestFile resultDigest
        outputFile disk = (.error error, after) →
      after = disk ∨ ∃ output rest, outcome = .interrupted error (some rest) ∧
        pathlib.resolve outputFile = .ok output ∧ disk output = .absent ∧
        after = Function.update disk output (.file rest)) := by
  constructor
  · intro report after
    constructor
    · intro h
      obtain ⟨plan, hplan, rfl, rfl, rfl⟩ := withdrawOriginPublication_eq_ok.mp h
      obtain ⟨source, hsource, houtput, hbeside, hnew, m, hcount, hprofile, hdata, hreport⟩ :=
        planWithdrawal_eq_ok.mp hplan
      refine ⟨rfl, source, plan.output, hsource, houtput, hbeside, hnew, m, hcount, hprofile,
        hreport, ?_⟩
      rw [hdata]
      exact withdrawn_of_plan hsource houtput hbeside hnew hprofile
    · rintro ⟨rfl, source, output, hsource, houtput, hbeside, hnew, m, hcount, hprofile, rfl,
        hafter⟩
      have hplan : planWithdrawal pathlib disk originManifestFile resultDigest outputFile =
          .ok ⟨output, canonicalBytes (m.without resultDigest) ++ [0x0A], m.report resultDigest⟩ :=
        planWithdrawal_eq_ok.mpr
          ⟨source, hsource, houtput, hbeside, hnew, m, hcount, hprofile, rfl, rfl⟩
      exact withdrawOriginPublication_eq_ok.mpr ⟨_, hplan, rfl, hafter.after_eq, rfl⟩
  · intro error after h
    rw [withdrawOriginPublication] at h
    cases hplan : planWithdrawal pathlib disk originManifestFile resultDigest outputFile with
    | error e =>
      rw [hplan] at h
      cases h
      exact .inl rfl
    | ok plan =>
      obtain ⟨_, -, houtput, -, hnew, -⟩ := planWithdrawal_eq_ok.mp hplan
      rw [hplan] at h
      simp only [Stateful.bind_apply, writeNew, hnew] at h
      cases outcome with
      | written => cases h
      | refused e =>
        cases h
        exact .inl rfl
      | interrupted e rest =>
        cases rest with
        | none =>
          cases h
          exact .inl rfl
        | some rest =>
          cases h
          exact .inr ⟨plan.output, rest, rfl, houtput, hnew, rfl⟩

end

end

end OnceMesh.Federation
