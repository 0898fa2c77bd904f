import OnceMesh.ExecutionCache.Epochs

/-!
# The epoch registry in a file

`FilesystemEpochRegistry` keeps the epochs in one JSON document. Every call reads and checks the
document, and a rotation writes a new one, in canonical JSON. `filesystemEpochRegistry` is the
registry over the states of the file; a state stands for the epochs of the document in it.
-/

namespace OnceMesh

open Python

/-- The document in the file. A version that equals 1 is kept as it is. -/
structure EpochDocument where
  version : Value
  globalEpoch : ℕ
  namespaces : List (List Str × ℕ)

/-- `{"namespace": list(namespace), "epoch": epoch}`. -/
def epochEntryValue (entry : List Str × ℕ) : Value :=
  .dict [(lit "namespace", .list (entry.1.map .str)), (lit "epoch", .int entry.2)]

/-- An integer that is not a boolean, and not negative. -/
def epoch? : Value → Option ℕ
  | .int n => if 0 ≤ n then some n.toNat else none
  | _ => none

/-- `_validate_namespace(tuple(items))`. -/
def readNamespace : List Value → Except PyError (List Str)
  | [] => .ok []
  | .str part :: rest => do
    raiseIf (part = []) "namespace must be a tuple of non-empty strings"
    let parts ← readNamespace rest
    pure (part :: parts)
  | _ :: _ => raiseValueError "namespace must be a tuple of non-empty strings"

/-- One entry of the document. -/
def readEpochEntry (entry : Value) : Except PyError (List Str × ℕ) :=
  if !entry.hasExactKeys [lit "namespace", lit "epoch"] then
    raiseValueError "execution cache namespace epoch is invalid"
  else
    match entry.get (lit "namespace"), epoch? (entry.get (lit "epoch")) with
    | .list items, some n => do
      let ns ← readNamespace items
      pure (ns, n)
    | _, _ => raiseValueError "execution cache namespace epoch is invalid"

/-- The loop over the entries. -/
def readEpochEntries : List Value → Except PyError (List (List Str × ℕ))
  | [] => .ok []
  | entry :: rest => do
    let ns ← readEpochEntry entry
    let entries ← readEpochEntries rest
    pure (ns :: entries)

/-- The checks of `_read`. -/
def checkEpochDocument (value : Value) : Except PyError EpochDocument :=
  if !(value.hasExactKeys [lit "version", lit "global", lit "namespaces"] &&
      (value.get (lit "version")).eqInt 1) then
    raiseValueError "execution cache epoch registry is invalid"
  else
    match epoch? (value.get (lit "global")), value.get (lit "namespaces") with
    | some globalEpoch, .list items => do
      let namespaces ← readEpochEntries items
      pure { version := value.get (lit "version"), globalEpoch, namespaces }
    | _, _ => raiseValueError "execution cache epoch registry is invalid"

namespace EpochDocument

/-- The document as it is written. -/
def toValue (document : EpochDocument) : Value :=
  .dict [(lit "version", document.version), (lit "global", .int document.globalEpoch),
    (lit "namespaces", .list (document.namespaces.map epochEntryValue))]

/-- `_read`: a missing file holds no epochs. -/
def read (file : File) : Except PyError EpochDocument :=
  match file with
  | none => .ok ⟨.int 1, 0, []⟩
  | some data =>
    match File.loadJson (some data) with
    | .ok value => checkEpochDocument value
    | .error .osError | .error .unicodeError | .error .jsonDecodeError =>
      raiseValueError "execution cache epoch registry is unreadable"
    | .error e => .error e

/-- The epoch of every namespace that has one. -/
def byNamespace (document : EpochDocument) : Dict (List Str) ℕ := .ofPairs document.namespaces

/-- The epochs of a namespace. -/
def epochs (document : EpochDocument) (ns : List Str) : Epochs :=
  (document.globalEpoch, (document.byNamespace.get? ns).getD 0)

/-- The next global epoch. -/
def rotateAll (document : EpochDocument) : EpochDocument :=
  { document with globalEpoch := document.globalEpoch + 1 }

/-- The next epochs of some namespaces, sorted by namespace. -/
def rotateNamespaces (document : EpochDocument) (named : List (List Str)) : EpochDocument :=
  let byNamespace := named.foldl (fun d ns => d.set ns ((d.get? ns).getD 0 + 1))
    document.byNamespace
  { document with
    namespaces := byNamespace.entries.insertionSort fun a b => a.1 ≤ b.1 }

end EpochDocument

/-- Read the document, change it and write it. -/
def updateEpochFile (change : EpochDocument → EpochDocument) : Stateful PyError File Unit :=
  fun file =>
    match EpochDocument.read file >>= fun document => canonicalJson (change document).toValue with
    | .ok data => (.ok (), some data)
    | .error e => (.error e, file)

/-- The loop of `rotate_namespaces` over the arguments. -/
def validateNamespaces : List (List Str) → Except PyError Unit
  | [] => .ok ()
  | ns :: rest => do
    validateNamespace ns
    validateNamespaces rest

/-! ### Reading back -/

/-- The parts of a namespace are read back. -/
theorem readNamespace_map_str {parts : List Str} (h : ∀ part ∈ parts, part ≠ []) :
    readNamespace (parts.map .str) = .ok parts := by
  induction parts with
  | nil => rfl
  | cons part parts ih =>
    rw [List.forall_mem_cons] at h
    have hpart : raiseIf (part = []) "namespace must be a tuple of non-empty strings" = .ok () :=
      raiseIf_eq_ok.mpr (decide_eq_false h.1)
    rw [List.map_cons, readNamespace, hpart, ih h.2]
    rfl

/-- A namespace that is read has non-empty parts. -/
theorem ne_nil_of_readNamespace {items : List Value} : ∀ {parts : List Str},
    readNamespace items = .ok parts → ∀ part ∈ parts, part ≠ [] := by
  induction items with
  | nil =>
    rintro _ ⟨⟩
    simp
  | cons item items ih =>
    intro parts h
    unfold readNamespace at h
    split at h
    · cases h
      simp
    next part rest heq =>
      cases heq
      obtain ⟨hpart, h⟩ := Except.check_eq_ok.mp h
      obtain ⟨parts', hparts, ⟨⟩⟩ := Except.bind_eq_ok.mp h
      rw [raiseIf_eq_ok, decide_eq_false_iff_not] at hpart
      exact List.forall_mem_cons.mpr ⟨hpart, ih hparts⟩
    · cases h

/-- An entry with its members sorted. -/
theorem sortKeys_epochEntryValue (entry : List Str × ℕ) :
    (epochEntryValue entry).sortKeys =
      .dict [(lit "epoch", .int entry.2), (lit "namespace", .list (entry.1.map .str))] := by
  have hparts : Value.sortKeysList (entry.1.map .str) = entry.1.map .str := by
    rw [Value.sortKeysList_eq, List.map_map]
    rfl
  have horder : ¬lit "namespace" ≤ lit "epoch" := by decide
  rw [epochEntryValue, Json.sortKeys_dict]
  simp [List.insertionSort, List.orderedInsert, Json.keyLE, horder, Value.sortKeys, hparts]

/-- An entry is read back. -/
theorem readEpochEntry_sortKeys {entry : List Str × ℕ} (h : ∀ part ∈ entry.1, part ≠ []) :
    readEpochEntry (epochEntryValue entry).sortKeys = .ok entry := by
  rw [sortKeys_epochEntryValue]
  simp [readEpochEntry, Value.hasExactKeys, epoch?, readNamespace_map_str h]

/-- Entries that are read have non-empty parts. -/
theorem ne_nil_of_readEpochEntries {items : List Value} : ∀ {entries : List (List Str × ℕ)},
    readEpochEntries items = .ok entries → ∀ entry ∈ entries, ∀ part ∈ entry.1, part ≠ [] := by
  induction items with
  | nil =>
    rintro _ ⟨⟩
    simp
  | cons item items ih =>
    intro entries h
    obtain ⟨entry, hentry, h⟩ := Except.bind_eq_ok.mp h
    obtain ⟨rest, hrest, ⟨⟩⟩ := Except.bind_eq_ok.mp h
    refine List.forall_mem_cons.mpr ⟨?_, ih hrest⟩
    unfold readEpochEntry at hentry
    split_ifs at hentry
    · cases hentry
    · split at hentry
      · obtain ⟨ns, hns, ⟨⟩⟩ := Except.bind_eq_ok.mp hentry
        exact ne_nil_of_readNamespace hns
      · cases hentry

/-- The entries of a document are read back, by induction on their list. -/
theorem readEpochEntries_map {entries : List (List Str × ℕ)}
    (h : ∀ entry ∈ entries, ∀ part ∈ entry.1, part ≠ []) :
    readEpochEntries (entries.map fun e => (epochEntryValue e).sortKeys) = .ok entries := by
  induction entries with
  | nil => rfl
  | cons entry entries ih =>
    rw [List.forall_mem_cons] at h
    rw [List.map_cons, readEpochEntries, readEpochEntry_sortKeys h.1, Except.ok_bind, ih h.2]
    rfl

namespace EpochDocument

/-- The checks of `_read`, for the fields. -/
structure Valid (document : EpochDocument) : Prop where
  version : document.version.eqInt 1 = true
  namespaces : ∀ entry ∈ document.namespaces, ∀ part ∈ entry.1, part ≠ []

/-- What equals an integer is a number, and has no members to sort. -/
theorem Valid.sortKeys_version {document : EpochDocument} (h : document.Valid) :
    document.version.sortKeys = document.version ∧ document.version.WellFormed := by
  have hversion := h.version
  cases hv : document.version with
  | int _ | bool _ | float _ => exact ⟨rfl, trivial⟩
  | _ =>
    rw [hv] at hversion
    cases hversion

/-- A document that passes its checks is valid. -/
theorem valid_of_checkEpochDocument {value : Value} {document : EpochDocument}
    (h : checkEpochDocument value = .ok document) : document.Valid := by
  unfold checkEpochDocument at h
  split_ifs at h with hkeys
  · cases h
  · rw [Bool.not_eq_true, Bool.not_eq_false', Bool.and_eq_true] at hkeys
    split at h
    · obtain ⟨namespaces, hnamespaces, ⟨⟩⟩ := Except.bind_eq_ok.mp h
      exact ⟨hkeys.2, ne_nil_of_readEpochEntries hnamespaces⟩
    · cases h

/-- A document that is read is valid. -/
theorem valid_of_read {file : File} {document : EpochDocument} (h : read file = .ok document) :
    document.Valid := by
  unfold read at h
  split at h
  · cases h
    exact ⟨rfl, by simp⟩
  · split at h
    · exact valid_of_checkEpochDocument h
    all_goals cases h

/-- The value of a valid document has distinct keys. -/
theorem wellFormed_toValue {document : EpochDocument} (h : document.Valid) :
    document.toValue.WellFormed := by
  have hentries : ∀ v ∈ document.namespaces.map epochEntryValue, v.WellFormed := by
    intro v hv
    obtain ⟨entry, -, rfl⟩ := List.mem_map.mp hv
    simp [epochEntryValue, Value.WellFormed, Value.wellFormedList_iff]
  have hversion := h.sortKeys_version.2
  simpa [toValue, Value.WellFormed, Value.wellFormedList_iff, hversion] using hentries

/-- The document that is written is the one that is read. -/
theorem read_of_canonicalJson {document : EpochDocument} (h : document.Valid) {data : Bytes}
    (hdata : canonicalJson document.toValue = .ok data) : read (some data) = .ok document := by
  obtain ⟨hprofile, rfl⟩ := canonicalJson_eq_ok.mp hdata
  have hsorted : document.toValue.sortKeys =
      .dict [(lit "global", .int document.globalEpoch),
        (lit "namespaces", .list (document.namespaces.map fun e => (epochEntryValue e).sortKeys)),
        (lit "version", document.version)] := by
    have hversion : ¬lit "version" ≤ lit "global" ∧ ¬lit "version" ≤ lit "namespaces" := by decide
    have hglobal : lit "global" ≤ lit "namespaces" := by decide
    rw [toValue, Json.sortKeys_dict]
    simp [List.insertionSort, List.orderedInsert, Json.keyLE, hversion, hglobal, Value.sortKeys,
      Value.sortKeysList_eq, h.sortKeys_version.1]
  have hcheck : checkEpochDocument document.toValue.sortKeys = .ok document := by
    rw [hsorted]
    simp [checkEpochDocument, Value.hasExactKeys, epoch?, readEpochEntries_map h.namespaces,
      h.version]
  rw [read, File.loadJson_canonicalBytes hprofile (wellFormed_toValue h)]
  exact hcheck

/-! ### Rotations -/

/-- Every occurrence of a namespace moves its epoch by one. -/
theorem getD_foldl_bump (named : List (List Str)) (d : Dict (List Str) ℕ) (ns : List Str) :
    ((named.foldl (fun d ns => d.set ns ((d.get? ns).getD 0 + 1)) d).get? ns).getD 0 =
      (d.get? ns).getD 0 + named.count ns := by
  induction named generalizing d with
  | nil => rfl
  | cons first named ih =>
    rw [List.foldl_cons, ih, Dict.get?_set, List.count_cons]
    by_cases h : ns = first
    · rw [if_pos h, h, beq_self_eq_true, if_pos rfl, Option.getD_some]
      omega
    · have hne : ¬(first == ns) = true := fun heq => h (eq_of_beq heq).symm
      rw [if_neg h, if_neg hne, Nat.add_zero]

/-- The namespaces after a rotation are the old ones and those it names. -/
theorem mem_of_get?_foldl_bump {named : List (List Str)} {d : Dict (List Str) ℕ} {ns : List Str}
    {n : ℕ} (h : (named.foldl (fun d ns => d.set ns ((d.get? ns).getD 0 + 1)) d).get? ns = some n) :
    ns ∈ named ∨ ∃ m, d.get? ns = some m := by
  induction named generalizing d with
  | nil => exact .inr ⟨n, h⟩
  | cons first named ih =>
    rcases ih h with hmem | ⟨m, hm⟩
    · exact .inl (List.mem_cons_of_mem _ hmem)
    · rw [Dict.get?_set] at hm
      split_ifs at hm with hns
      · exact .inl (hns ▸ List.mem_cons_self)
      · exact .inr ⟨m, hm⟩

/-- A rotation adds to the epoch of a namespace as often as it is named. -/
theorem epochs_rotateNamespaces (document : EpochDocument) (named : List (List Str))
    (ns : List Str) :
    (document.rotateNamespaces named).epochs ns =
      ((document.epochs ns).1, (document.epochs ns).2 + named.count ns) := by
  rw [epochs, byNamespace, rotateNamespaces]
  dsimp only
  rw [Dict.get?_ofPairs_of_perm (List.perm_insertionSort _ _), getD_foldl_bump]
  rfl

/-- A rotation keeps a document valid. -/
theorem Valid.rotateNamespaces {document : EpochDocument} (h : document.Valid)
    {named : List (List Str)} (hnamed : ∀ ns ∈ named, ∀ part ∈ ns, part ≠ []) :
    (document.rotateNamespaces named).Valid := by
  refine ⟨h.version, fun entry hentry => ?_⟩
  have hmem := (List.perm_insertionSort _ _).mem_iff.mp hentry
  rcases mem_of_get?_foldl_bump (Dict.mem_entries_iff.mp hmem) with hns | ⟨m, hm⟩
  · exact hnamed _ hns
  · exact h.namespaces (entry.1, m) (Dict.mem_of_get?_ofPairs hm)

end EpochDocument

/-- Namespaces pass just if no part of them is empty. -/
theorem validateNamespaces_eq_ok {named : List (List Str)} :
    validateNamespaces named = .ok () ↔ ∀ ns ∈ named, ∀ part ∈ ns, part ≠ [] := by
  induction named with
  | nil => exact iff_of_true rfl (by simp)
  | cons ns rest ih =>
    rw [validateNamespaces, Except.check_eq_ok, validateNamespace_eq_ok, ih, List.forall_mem_cons]

/-- `rotate_namespaces`: the arguments are checked before the file is opened. -/
def rotateEpochFile (named : List (List Str)) : Stateful PyError File Unit := do
  validateNamespaces named
  updateEpochFile fun document => document.rotateNamespaces named

/-- An update writes the changed document if it is in the profile, and otherwise raises and leaves
the file alone. -/
theorem updateEpochFile_cases {file : File} {document : EpochDocument}
    (h : EpochDocument.read file = .ok document) (change : EpochDocument → EpochDocument)
    (hvalid : (change document).Valid) :
    (InProfile (change document).toValue ∧ ∃ data,
      updateEpochFile change file = (.ok (), some data) ∧
      EpochDocument.read (some data) = .ok (change document)) ∨
    ¬InProfile (change document).toValue ∧ ∃ e, updateEpochFile change file = (.error e, file) := by
  rw [updateEpochFile, h, Except.ok_bind]
  cases hdata : canonicalJson (change document).toValue with
  | ok data =>
    exact .inl ⟨(canonicalJson_eq_ok.mp hdata).1, data, rfl,
      EpochDocument.read_of_canonicalJson hvalid hdata⟩
  | error e =>
    refine .inr ⟨fun hprofile => ?_, e, rfl⟩
    cases hdata.symm.trans (canonicalJson_of_inProfile hprofile)

/-- A rotation of a namespace with an empty part raises, and leaves the file as it is. -/
theorem rotateEpochFile_of_invalid {file : File} {named : List (List Str)} {error : PyError}
    (h : validateNamespaces named = .error error) :
    ∃ e, rotateEpochFile named file = (.error e, file) := by
  refine ⟨error, Stateful.bind_apply_of_error ?_⟩
  rw [h]
  rfl

/-- A rotation of valid namespaces updates the file. -/
theorem rotateEpochFile_of_valid {file : File} {named : List (List Str)}
    (h : validateNamespaces named = .ok ()) :
    rotateEpochFile named file =
      updateEpochFile (fun document => document.rotateNamespaces named) file := by
  have hchecked : (liftM (validateNamespaces named) : Stateful PyError File Unit) file =
      (.ok (), file) := by
    rw [h]
    rfl
  rw [rotateEpochFile, Stateful.bind_apply_of_ok hchecked]

/-- A rotation writes the next epochs, or raises and leaves the file alone. -/
theorem rotateEpochFile_cases {file : File} {document : EpochDocument}
    (h : EpochDocument.read file = .ok document) (named : List (List Str)) :
    (∃ data, rotateEpochFile named file = (.ok (), some data) ∧
      EpochDocument.read (some data) = .ok (document.rotateNamespaces named)) ∨
    ∃ e, rotateEpochFile named file = (.error e, file) := by
  cases hnamed : validateNamespaces named with
  | error e => exact .inr (rotateEpochFile_of_invalid hnamed)
  | ok u =>
    rw [rotateEpochFile_of_valid hnamed]
    have hvalid := (EpochDocument.valid_of_read h).rotateNamespaces
      (validateNamespaces_eq_ok.mp hnamed)
    rcases updateEpochFile_cases h (fun document => document.rotateNamespaces named) hvalid with
      ⟨-, hreturned⟩ | ⟨-, hraised⟩
    · exact .inl hreturned
    · exact .inr hraised

/-- The registry in a file. -/
def filesystemEpochRegistry : EpochRegistry File where
  init := none
  epochs file ns := do
    validateNamespace ns
    let document ← EpochDocument.read file
    pure (document.epochs ns)
  rotateAll := updateEpochFile EpochDocument.rotateAll
  rotateNamespaces := rotateEpochFile
  StandsFor file epochs := ∃ document, EpochDocument.read file = .ok document ∧
    document.epochs = epochs
  moved named returned := if returned then named else []
  moved_subset named returned := by
    split_ifs
    · exact List.Subset.refl _
    · exact List.nil_subset _
  moved_true _ := rfl
  init_standsFor := ⟨_, rfl, rfl⟩
  epochs_eq := by
    rintro file _ ⟨document, hread, rfl⟩ ns hns
    rw [hns, hread]
    rfl
  rotateAll_standsFor := by
    rintro file _ ⟨document, hread, rfl⟩
    obtain ⟨hversion, hnamespaces⟩ := EpochDocument.valid_of_read hread
    rcases updateEpochFile_cases hread EpochDocument.rotateAll ⟨hversion, hnamespaces⟩ with
      ⟨-, data, hok, hdata⟩ | ⟨-, e, herror⟩
    · rw [hok]
      exact ⟨_, hdata, rfl⟩
    · rw [herror]
      exact ⟨_, hread, rfl⟩
  rotateNamespaces_standsFor := by
    rintro file _ ⟨document, hread, rfl⟩ named
    rcases rotateEpochFile_cases hread named with ⟨data, hok, hdata⟩ | ⟨e, herror⟩
    · rw [hok]
      exact ⟨_, hdata, funext fun ns => EpochDocument.epochs_rotateNamespaces _ _ _⟩
    · -- nothing has been written
      rw [herror]
      exact ⟨_, hread, rfl⟩

end OnceMesh
