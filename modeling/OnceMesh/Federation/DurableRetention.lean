import OnceMesh.Federation.Advertised
import OnceMesh.Federation.FilesystemCacheStore
import OnceMesh.Federation.ReadBack
import OnceMesh.Federation.Retention

/-!
# Retention on a filesystem

The files of a federation cache hold a list of results, each once, with its lease (`Holds`).
Imports, interrupted or not, prunings and reads keep this so. What the cache answers is read off the
list, and its leases are those that the cache in memory would have (`durableCache_exact`).
-/

namespace OnceMesh.Federation

open Python

/-- A document before a line feed is read back from its file, with sorted members. -/
theorem loadJson_canonicalBytes_lineFeed {items : List (Str × Value)}
    (h : Storable (.dict items)) :
    File.loadJson (some (canonicalBytes (.dict items) ++ [0x0A])) =
      .ok (Value.dict items).sortKeys := by
  have hline : encodeUtf8 (lit "\n") = some [0x0A] := by decide
  have htext : decodeUtf8 (canonicalBytes (.dict items) ++ [0x0A]) =
      some (Json.dumps (.dict items) ++ lit "\n") :=
    decodeUtf8_of_encodeUtf8 (encodeUtf8_append (encodeUtf8_dumps h.inProfile) hline)
  have hlines : (0x0D : CodePoint) ∉ Json.dumps (.dict items) ++ lit "\n" := by
    rw [List.mem_append, not_or]
    exact ⟨fun hmem => absurd (Json.le_of_mem_dumps _ _ hmem) (by decide), by decide⟩
  rw [File.loadJson]
  simp only [htext, universalNewlines_of_notMem hlines]
  exact (Json.loadsWith_dict_append (fun _ => rfl) rfl
    (fun _ => Json.object_plain) h.inProfile.serializable h.wellFormed (by decide))

/-- The file of an entry is named after the digest. -/
theorem FilesystemFederationCacheStore.entryPath_of_isDigest {digest : Str}
    (h : isDigest digest = true) :
    FilesystemFederationCacheStore.entryPath digest = .ok (digestHex digest ++ lit ".json") := by
  rw [entryPath, hexDigest, if_pos h]
  rfl

/-- A result in a file, with its receipt and the time of its import, under its digest. -/
abbrev DurableResult := Leased Str (Manifest × Value × DateTime) DateTime

/-- The manifest, as it is read from a file. -/
def readBackManifest (m : Manifest) : Manifest :=
  match Manifest.ofValue m.document.sortKeys with
  | .ok m' => m'
  | .error _ => m

/-- The manifest that is read back has its members sorted, and the same fields. -/
theorem document_readBackManifest {m : Manifest} (h : Storable m.document) :
    (readBackManifest m).document = m.document.sortKeys ∧
    (readBackManifest m).fields = m.fields := by
  have hvalid := (validateManifest_sortKeys h).trans m.valid
  have hread : Manifest.ofValue m.document.sortKeys = .ok ⟨m.document.sortKeys, m.fields, hvalid⟩ :=
    Manifest.ofValue_eq_ok.mpr rfl
  rw [readBackManifest, hread]
  exact ⟨rfl, rfl⟩

/-- The manifest that is read back is one for federation. -/
theorem isFederated_readBackManifest {m : Manifest} (h : Storable m.document)
    (hfederated : IsFederated m) :
    IsFederated (readBackManifest m) := by
  rw [IsFederated, (document_readBackManifest h).1, get_sortKeys h, ne_eq, ← Value.eqStr_eq_true,
    eqStr_sortKeys, Value.eqStr_eq_true]
  exact hfederated

/-- The manifest that is read back has the same digest. -/
theorem digest_readBackManifest [Sha256] {m : Manifest} (h : Storable m.document) :
    (readBackManifest m).digest = m.digest := by
  rw [Manifest.digest, Manifest.digest, (document_readBackManifest h).1, h.digestOf_sortKeys]

namespace DurableResult

/-- The manifest. -/
abbrev manifest (x : DurableResult) : Manifest := x.value.1

/-- The receipt. -/
abbrev receipt (x : DurableResult) : Value := x.value.2.1

/-- When it was imported. -/
abbrev importedAt (x : DurableResult) : DateTime := x.value.2.2

/-- The digests of its blobs. -/
def blobs (x : DurableResult) : List Str :=
  x.manifest.fields.artifacts.map ArtifactDescriptor.digest

/-- Its document. -/
def document (x : DurableResult) : Value :=
  entryRecord x.key x.manifest.document x.receipt x.importedAt x.ends

/-- Its file. -/
def file (x : DurableResult) : Str × Bytes :=
  (digestHex x.key ++ lit ".json", canonicalBytes x.document ++ [0x0A])

/-- What is read from its file. -/
def record (x : DurableResult) : CacheEntry :=
  ⟨readBackManifest x.manifest, x.receipt.sortKeys, x.importedAt, x.ends⟩

/-- A result that passes the checks of the cache, under its digest. -/
structure Valid [Sha256] (x : DurableResult) : Prop where
  key : x.key = x.manifest.digest
  manifest : Storable x.manifest.document
  receipt : Storable x.receipt
  federated : IsFederated x.manifest
  bound : ∃ fields, validateReceipt x.receipt true = .ok fields ∧ fields.resultDigest = x.key

variable [Sha256] {x y : DurableResult}

/-- A result is kept under a digest. -/
theorem Valid.isDigest (h : x.Valid) : isDigest x.key = true := by
  rw [h.key]
  exact isDigest_digestBytes _

/-- Two results have one file name just if they have one digest. -/
theorem Valid.file_inj (hx : x.Valid) (hy : y.Valid) : x.file.1 = y.file.1 ↔ x.key = y.key := by
  rw [file, file, List.append_cancel_right_eq, digestHex_inj hx.isDigest hy.isDigest]

omit [Sha256] in
/-- The name of an entry ends as its directory is searched for. -/
theorem endsWith_file (x : DurableResult) : endsWith x.file.1 (lit ".json") = true :=
  List.isSuffixOf_iff_suffix.mpr (List.suffix_append _ _)

/-- The document of a valid result can be stored. -/
theorem Valid.storable (h : x.Valid) : Storable x.document := by
  have hkeys : [lit "spec_version", lit "result_digest", lit "imported_at", lit "retain_until",
    lit "manifest", lit "receipt"].Nodup := by decide
  refine ⟨.dict ?_ ?_, ?_⟩
  · simp [clean_lit]
  · simp only [List.forall_mem_cons]
    exact ⟨.str (clean_lit _), .str (clean_of_isDigest h.isDigest), .str (clean_utcText _),
      .str (clean_utcText _), h.manifest.inProfile, h.receipt.inProfile, by simp⟩
  · rw [document, entryRecord, Value.wellFormed_dict]
    refine ⟨hkeys, ?_⟩
    simp only [List.forall_mem_cons]
    exact ⟨trivial, trivial, trivial, trivial, h.manifest.wellFormed, h.receipt.wellFormed, by simp⟩

/-- The file of a valid result is read as the result. -/
theorem Valid.readEntry [LocalZone] (h : x.Valid) :
    FilesystemFederationCacheStore.readEntry x.file = .ok x.record := by
  have hstorable := h.storable
  have hload : File.loadJson (some (canonicalBytes x.document ++ [0x0A])) =
    .ok x.document.sortKeys :=
    loadJson_canonicalBytes_lineFeed hstorable
  have hget : ∀ key, x.document.sortKeys.get key = (x.document.get key).sortKeys :=
    get_sortKeys hstorable
  obtain ⟨hdocument, hfields⟩ := document_readBackManifest h.manifest
  have hmanifest : validateFederationResult (x.manifest.document.sortKeys) =
      .ok (readBackManifest x.manifest) :=
    validateFederationResult_eq_ok.mpr ⟨hdocument,
      isFederated_readBackManifest h.manifest h.federated⟩
  obtain ⟨fields, hreceipt, hbound⟩ := h.bound
  have hreceipt' : validateReceipt x.receipt.sortKeys true = .ok fields :=
    (validateReceipt_sortKeys h.receipt true).trans hreceipt
  have hdigest : (readBackManifest x.manifest).digest = x.key :=
    (digest_readBackManifest h.manifest).trans h.key.symm
  have hexact : x.document.sortKeys.hasExactKeys [lit "spec_version", lit "result_digest",
      lit "imported_at", lit "retain_until", lit "manifest", lit "receipt"] = true :=
    (hasExactKeys_sortKeys _ _).trans rfl
  have hversion : ((x.document.get (lit "spec_version")).sortKeys).eqStr
      (lit "oncemesh.federation-cache-entry/v0") = true := rfl
  have hkey : ((x.document.get (lit "result_digest")).sortKeys).eqStr x.key = true :=
    (eqStr_sortKeys _ _).trans (Value.eqStr_eq_true.mpr rfl)
  have htext : x.document.get (lit "imported_at") = .str (formatTime x.importedAt) ∧
      x.document.get (lit "retain_until") = .str (formatTime x.ends) := ⟨rfl, rfl⟩
  have himported : parseTimeValue ((x.document.get (lit "imported_at")).sortKeys) =
      .ok x.importedAt := by
    rw [htext.1]
    exact parseTime_formatTime x.importedAt
  have hretain : parseTimeValue ((x.document.get (lit "retain_until")).sortKeys) = .ok x.ends := by
    rw [htext.2]
    exact parseTime_formatTime x.ends
  have hpath := FilesystemFederationCacheStore.entryPath_of_isDigest h.isDigest
  rw [FilesystemFederationCacheStore.readEntry, file, hload, Except.mapError, Except.ok_bind,
    FilesystemFederationCacheStore.checkEntry, exactKeys, hexact]
  simp only [hget, hversion, hkey, himported, hretain, hdigest, hpath, hbound,
    show x.document.get (lit "manifest") = x.manifest.document from rfl,
    show x.document.get (lit "receipt") = x.receipt from rfl, hmanifest, hreceipt', Bool.not_true,
    raiseIf, Bool.false_eq_true, if_false, Except.ok_bind, ne_eq, not_true, decide_false]
  rfl

end DurableResult

/-! ### What the files hold -/

namespace FilesystemFederationCacheStore

/-- The file of a blob. -/
def blobFile (digest : Str) : Str × Str := ((digestHex digest).take 2, (digestHex digest).drop 2)

/-- The file of a blob is named after the digest. -/
theorem blobPath_of_isDigest {digest : Str} (h : isDigest digest = true) :
    blobPath digest = .ok (blobFile digest) := by
  rw [blobPath, hexDigest, if_pos h]
  rfl

/-- A digest is read off the path of its file. -/
theorem digest_of_blobFile {digest : Str} (h : isDigest digest = true) :
    lit "sha256:" ++ (blobFile digest).1 ++ (blobFile digest).2 = digest := by
  rw [blobFile, List.append_assoc, List.take_append_drop, ← eq_append_digestHex h]

variable [Sha256]

/-- The files of a cache hold results, each once, with their blobs. -/
structure Holds (store : FilesystemFederationCacheStore) (items : List DurableResult) : Prop where
  valid : ∀ x ∈ items, x.Valid
  nodup : (items.map Leased.key).Nodup
  entries : ∀ file : Str × Bytes, endsWith file.1 (lit ".json") = true →
    (store.entries.get? file.1 = some file.2 ↔ ∃ x ∈ items, x.file = file)
  blobs : ∀ x ∈ items, ∀ digest ∈ x.blobs, isDigest digest = true ∧
    ∃ data, store.blobs.get? (blobFile digest) = some data
  hashed : ∀ digest data, isDigest digest = true →
    store.blobs.get? (blobFile digest) = some data → digestBytes data = digest

/-- An empty directory holds nothing. -/
theorem holds_empty : Holds empty [] where
  valid x h := absurd h List.not_mem_nil
  nodup := List.nodup_nil
  entries file _ := by simp [empty]
  blobs x h := absurd h List.not_mem_nil
  hashed digest data _ h := by cases h

/-- The results in the order of their files. -/
def listed (items : List DurableResult) : List DurableResult :=
  items.insertionSort fun x y => x.file.1 ≤ y.file.1

omit [Sha256] in
/-- The results are listed in the order of their files. -/
theorem perm_listed (items : List DurableResult) : (listed items).Perm items :=
  List.perm_insertionSort _ _

/-- There is one result under a digest. -/
theorem Holds.eq_of_key {store : FilesystemFederationCacheStore} {items : List DurableResult}
    (h : Holds store items) {x y : DurableResult} (hx : x ∈ items) (hy : y ∈ items)
    (hkey : x.key = y.key) : x = y := List.inj_on_of_nodup_map h.nodup hx hy hkey

/-- The files are those of the results. -/
theorem Holds.entryFiles {store : FilesystemFederationCacheStore} {items : List DurableResult}
    (h : Holds store items) : store.entryFiles = (listed items).map DurableResult.file := by
  have hinjective : ∀ x ∈ items, ∀ y ∈ items, x.file.1 = y.file.1 → x = y := fun x hx y hy hname =>
    h.eq_of_key hx hy (((h.valid x hx).file_inj (h.valid y hy)).mp hname)
  have hfiles : (items.map DurableResult.file).Nodup := by
    refine List.Nodup.map_on (fun x hx y hy hsame => ?_) (List.Nodup.of_map _ h.nodup)
    exact hinjective x hx y hy (congrArg Prod.fst hsame)
  have hperm : (store.entries.entries.filter fun file => endsWith file.1 (lit ".json")).Perm
      (items.map DurableResult.file) := by
    have hentries : store.entries.entries.Nodup := List.Nodup.of_map _ store.entries.nodup
    refine (List.perm_ext_iff_of_nodup (hentries.filter _) hfiles).mpr fun file => ?_
    rw [List.mem_filter, List.mem_map, Dict.mem_entries_iff]
    constructor
    · rintro ⟨hfile, hname⟩
      exact (h.entries file hname).mp hfile
    · rintro ⟨x, hx, rfl⟩
      exact ⟨(h.entries x.file x.endsWith_file).mpr ⟨x, hx, rfl⟩, x.endsWith_file⟩
  have hsorted : (listed items).map DurableResult.file =
      (items.map DurableResult.file).insertionSort fun a b => a.1 ≤ b.1 := by
    rw [listed, List.map_insertionSort _ (fun a b : Str × Bytes => a.1 ≤ b.1) DurableResult.file _
      fun _ _ _ _ => Iff.rfl]
  have htotal : Std.Total fun a b : Str × Bytes => a.1 ≤ b.1 := ⟨fun a b => le_total a.1 b.1⟩
  have htrans : IsTrans (Str × Bytes) fun a b => a.1 ≤ b.1 := ⟨fun _ _ _ => le_trans⟩
  rw [hsorted, FilesystemFederationCacheStore.entryFiles]
  -- no two files have one name, so that there is one way to sort them
  refine List.Perm.eq_of_pairwise (fun a b ha hb hab hba => ?_) (List.pairwise_insertionSort _ _)
    (List.pairwise_insertionSort _ _) ((List.perm_insertionSort _ _).trans
      (hperm.trans (List.perm_insertionSort _ _).symm))
  obtain ⟨x, hx, rfl⟩ := List.mem_map.mp
    (hperm.mem_iff.mp ((List.perm_insertionSort _ _).mem_iff.mp ha))
  obtain ⟨y, hy, rfl⟩ := List.mem_map.mp ((List.perm_insertionSort _ _).mem_iff.mp hb)
  rw [hinjective x hx y hy (le_antisymm hab hba)]

variable [LocalZone]

/-- The files are read as the results. -/
theorem Holds.readEntries {store : FilesystemFederationCacheStore} {items : List DurableResult}
    (h : Holds store items) :
    store.readEntries = .ok ((listed items).map DurableResult.record) := by
  rw [FilesystemFederationCacheStore.readEntries, h.entryFiles, Except.mapM_eq_ok,
    List.forall₂_map_left_iff, List.forall₂_map_right_iff, List.forall₂_same]
  exact fun x hx => (h.valid x ((perm_listed items).mem_iff.mp hx)).readEntry

omit [LocalZone] in
/-- The record of a result has its digest and its fields. -/
theorem Holds.key_record {store : FilesystemFederationCacheStore} {items : List DurableResult}
    (h : Holds store items) {x : DurableResult} (hx : x ∈ items) :
    x.record.manifest.digest = x.key ∧ x.record.manifest.fields = x.manifest.fields :=
  ⟨(digest_readBackManifest (h.valid x hx).manifest).trans (h.valid x hx).key.symm,
    (document_readBackManifest (h.valid x hx).manifest).2⟩

/-- Pruning counts the results whose lease has ended. -/
theorem Holds.prune_apply {store : FilesystemFederationCacheStore} {items : List DurableResult}
    (h : Holds store items) (now : DateTime) :
    FilesystemFederationCacheStore.prune now store =
      (.ok (items.filter fun x => x.ends ≤ now).length,
        store.remove now ((listed items).map DurableResult.record)) := by
  have hcount : (((listed items).map DurableResult.record).filter fun record =>
      record.retainUntil ≤ now).length = (items.filter fun x => x.ends ≤ now).length := by
    rw [List.filter_map, List.length_map]
    exact ((perm_listed items).filter _).length_eq
  rw [FilesystemFederationCacheStore.prune, h.readEntries]
  dsimp only
  rw [hcount]

omit [LocalZone] in
/-- It leaves the files of the results whose lease has not ended, and no blob that none of them
names. -/
theorem Holds.remove {store : FilesystemFederationCacheStore} {items : List DurableResult}
    (h : Holds store items) (now : DateTime) :
    Holds (store.remove now ((listed items).map DurableResult.record)) (Leased.live now items) ∧
      ∀ path data, (store.remove now ((listed items).map DurableResult.record)).blobs.get? path =
        some data →
        ∃ x ∈ Leased.live now items, lit "sha256:" ++ path.1 ++ path.2 ∈ DurableResult.blobs x := by
  have hmem : ∀ x, x ∈ listed items ↔ x ∈ items := fun x => (perm_listed items).mem_iff
  have hexpired : ∀ name, name ∈ (((listed items).map DurableResult.record).filter fun record =>
      record.retainUntil ≤ now).map (fun record =>
        digestHex record.manifest.digest ++ lit ".json") ↔
        ∃ x ∈ items, x.ends ≤ now ∧ x.file.1 = name := by
    intro name
    simp only [List.mem_map, List.mem_filter, decide_eq_true_eq]
    constructor
    · rintro ⟨record, ⟨⟨x, hx, rfl⟩, hends⟩, rfl⟩
      refine ⟨x, (hmem x).mp hx, hends, ?_⟩
      rw [(h.key_record ((hmem x).mp hx)).1, DurableResult.file]
    · rintro ⟨x, hx, hends, rfl⟩
      refine ⟨x.record, ⟨⟨x, (hmem x).mpr hx, rfl⟩, hends⟩, ?_⟩
      rw [(h.key_record hx).1, DurableResult.file]
  have hlive : ∀ digest, digest ∈ (((listed items).map DurableResult.record).filter fun record =>
      now < record.retainUntil).flatMap (fun record =>
        record.manifest.fields.artifacts.map ArtifactDescriptor.digest) ↔
        ∃ x ∈ Leased.live now items, digest ∈ DurableResult.blobs x := by
    intro digest
    simp only [List.mem_flatMap, List.mem_filter, List.mem_map, decide_eq_true_eq, Leased.mem_live]
    constructor
    · rintro ⟨record, ⟨⟨x, hx, rfl⟩, hends⟩, hdigest⟩
      rw [(h.key_record ((hmem x).mp hx)).2] at hdigest
      exact ⟨x, ⟨(hmem x).mp hx, hends⟩, List.mem_map.mpr hdigest⟩
    · rintro ⟨x, ⟨hx, hends⟩, hdigest⟩
      refine ⟨DurableResult.record x, ⟨⟨x, (hmem x).mpr hx, rfl⟩, hends⟩, ?_⟩
      rw [(h.key_record hx).2]
      exact List.mem_map.mp hdigest
  constructor
  · refine ⟨fun x hx => h.valid x (Leased.mem_live.mp hx).1, Leased.nodup_keys_live h.nodup now,
      fun file hname => ?_, fun x hx digest hdigest => ?_, fun digest data hdigest hdata => ?_⟩
    · rw [FilesystemFederationCacheStore.remove, Dict.get?_filter_eq_some, decide_eq_true_eq,
        hexpired, h.entries file hname]
      constructor
      · rintro ⟨⟨x, hx, rfl⟩, hkept⟩
        exact ⟨x, Leased.mem_live.mpr ⟨hx, not_le.mp fun hends => hkept ⟨x, hx, hends, rfl⟩⟩, rfl⟩
      · rintro ⟨x, hx, rfl⟩
        obtain ⟨hx, hends⟩ := Leased.mem_live.mp hx
        refine ⟨⟨x, hx, rfl⟩, ?_⟩
        rintro ⟨y, hy, hended, hsame⟩
        have hkey := ((h.valid y hy).file_inj (h.valid x hx)).mp hsame
        rw [h.eq_of_key hy hx hkey] at hended
        exact absurd hended (not_le.mpr hends)
    · obtain ⟨hdigest', data, hdata⟩ := h.blobs x (Leased.mem_live.mp hx).1 digest hdigest
      refine ⟨hdigest', data, ?_⟩
      rw [FilesystemFederationCacheStore.remove, Dict.get?_filter_eq_some, decide_eq_true_eq,
        digest_of_blobFile hdigest', hlive]
      exact ⟨hdata, x, hx, hdigest⟩
    · rw [FilesystemFederationCacheStore.remove, Dict.get?_filter_eq_some] at hdata
      exact h.hashed digest data hdigest hdata.1
  · intro path data hdata
    rw [FilesystemFederationCacheStore.remove, Dict.get?_filter_eq_some, decide_eq_true_eq,
      hlive] at hdata
    exact hdata.2

/-! ### Imports -/

omit [LocalZone] in
/-- The blobs of a bundle that passes are stored, and no other file changes. -/
theorem storeBlobs_apply {artifacts : Dict Str Bytes} {descriptors : List ArtifactDescriptor}
    (haccepted : ∀ descriptor ∈ descriptors, ∃ blob, artifacts.get? descriptor.name = some blob ∧
      blob.length = descriptor.size ∧ digestBytes blob = descriptor.digest)
    {store : FilesystemFederationCacheStore}
    (hhashed : ∀ digest data, isDigest digest = true →
      store.blobs.get? (blobFile digest) = some data → digestBytes data = digest) :
    ∃ stored, storeBlobs artifacts descriptors store = (.ok (), stored) ∧
      stored.entries = store.entries ∧
      (∀ digest data, isDigest digest = true →
        stored.blobs.get? (blobFile digest) = some data → digestBytes data = digest) ∧
      (∀ path data, store.blobs.get? path = some data → stored.blobs.get? path = some data) ∧
      ∀ descriptor ∈ descriptors, isDigest descriptor.digest = true ∧
        ∃ data, stored.blobs.get? (blobFile descriptor.digest) = some data := by
  induction descriptors generalizing store with
  | nil => exact ⟨store, rfl, rfl, hhashed, fun _ _ h => h, by simp⟩
  | cons descriptor rest ih =>
    rw [List.forall_mem_cons] at haccepted
    obtain ⟨⟨blob, hblob, hsize, hdigest⟩, hrest⟩ := haccepted
    have hvalid : isDigest descriptor.digest = true := hdigest ▸ isDigest_digestBytes blob
    have hfirst : ∃ stored, storeBlob artifacts descriptor store = (.ok (), stored) ∧
        stored.entries = store.entries ∧
        (∀ digest data, isDigest digest = true →
          stored.blobs.get? (blobFile digest) = some data → digestBytes data = digest) ∧
        (∀ path data, store.blobs.get? path = some data → stored.blobs.get? path = some data) ∧
        ∃ data, stored.blobs.get? (blobFile descriptor.digest) = some data := by
      unfold storeBlob
      rw [hblob]
      dsimp only
      rw [if_neg (by simp [hsize, hdigest]), blobPath_of_isDigest hvalid]
      dsimp only
      cases hfound : store.blobs.get? (blobFile descriptor.digest) with
      | some existing =>
        have hsame := hhashed _ _ hvalid hfound
        exact ⟨store, by simp [raiseIf, hsame], rfl, hhashed, fun _ _ h => h, existing, hfound⟩
      | none =>
        have hwritten : (store.writeBlob (blobFile descriptor.digest) blob).blobs =
            store.blobs.set (blobFile descriptor.digest) blob := by
          rw [writeBlob, writeOnce, if_neg]
          rw [Dict.contains, hfound]
          exact Bool.false_ne_true
        refine ⟨_, rfl, rfl, fun digest data hdigest' hdata => ?_, fun path data hdata => ?_, blob,
          ?_⟩
        · rw [hwritten, Dict.get?_set] at hdata
          split_ifs at hdata with hsame
          · cases hdata
            rw [hdigest, ← digest_of_blobFile hdigest', hsame, digest_of_blobFile hvalid]
          · exact hhashed digest data hdigest' hdata
        · rw [hwritten, Dict.get?_set, if_neg, hdata]
          rintro rfl
          cases hfound.symm.trans hdata
        · rw [hwritten, Dict.get?_set, if_pos rfl]
    obtain ⟨middle, hstore, hentries, hmiddle, hkept, data, hdata⟩ := hfirst
    obtain ⟨stored, hstored, hentries', hhashed', hkept', hblobs⟩ := ih hrest hmiddle
    refine ⟨stored, ?_, hentries'.trans hentries, hhashed', fun path data h =>
      hkept' path data (hkept path data h),
      List.forall_mem_cons.mpr ⟨⟨hvalid, data, hkept' _ _ hdata⟩,
        hblobs⟩⟩
    rw [storeBlobs, Stateful.bind_apply_of_ok hstore, hstored]

omit [LocalZone] in
/-- Files with more blobs hold the same results. -/
theorem Holds.of_blobs {store stored : FilesystemFederationCacheStore} {items : List DurableResult}
    (h : Holds store items) (hentries : stored.entries = store.entries)
    (hhashed : ∀ digest data, isDigest digest = true →
      stored.blobs.get? (blobFile digest) = some data → digestBytes data = digest)
    (hkept : ∀ path data, store.blobs.get? path = some data → stored.blobs.get? path = some data) :
    Holds stored items := by
  refine ⟨h.valid, h.nodup, by rw [hentries]; exact h.entries, fun x hx digest hdigest => ?_,
    hhashed⟩
  obtain ⟨hvalid, data, hdata⟩ := h.blobs x hx digest hdigest
  exact ⟨hvalid, data, hkept _ _ hdata⟩

omit [LocalZone] in
/-- The file of a result that is imported replaces the one it had. -/
theorem Holds.writeEntry {store : FilesystemFederationCacheStore} {items : List DurableResult}
    (h : Holds store items) {x : DurableResult} (hx : x.Valid)
    (hblobs : ∀ digest ∈ x.blobs, isDigest digest = true ∧
      ∃ data, store.blobs.get? (blobFile digest) = some data) :
    Holds (store.writeEntry x.file.1 x.file.2) (Leased.replace x items) := by
  refine ⟨fun y hy => ?_, Leased.nodup_keys_replace h.nodup x, fun file hname => ?_,
    fun y hy digest hdigest => ?_, h.hashed⟩
  · rcases Leased.mem_replace.mp hy with ⟨hy, -⟩ | rfl
    · exact h.valid y hy
    · exact hx
  · have hset : (store.writeEntry x.file.1 x.file.2).entries.get? file.1 =
        if file.1 = x.file.1 then some x.file.2 else store.entries.get? file.1 :=
          Dict.get?_set _ _ _ _
    rw [hset]
    split_ifs with hsame
    · constructor
      · intro hdata
        exact ⟨x, Leased.mem_replace.mpr (.inr rfl), Prod.ext hsame.symm (Option.some.inj hdata)⟩
      · rintro ⟨y, hy, rfl⟩
        rcases Leased.mem_replace.mp hy with ⟨hy, hne⟩ | rfl
        · exact absurd (((h.valid y hy).file_inj hx).mp hsame) hne
        · rfl
    · rw [h.entries file hname]
      constructor
      · rintro ⟨y, hy, rfl⟩
        refine ⟨y, Leased.mem_replace.mpr (.inl ⟨hy, fun hkey => hsame ?_⟩), rfl⟩
        exact ((h.valid y hy).file_inj hx).mpr hkey
      · rintro ⟨y, hy, rfl⟩
        rcases Leased.mem_replace.mp hy with ⟨hy, -⟩ | rfl
        · exact ⟨y, hy, rfl⟩
        · exact absurd rfl hsame
  · rcases Leased.mem_replace.mp hy with ⟨hy, -⟩ | rfl
    · exact h.blobs y hy digest hdigest
    · exact hblobs digest hdigest

variable [Ed25519]

/-- What the peer serves are Python values. -/
def Serves (peer : FederationPeer) : Prop :=
  ∀ digest bundle, peer.fetchBundle digest = .ok (some bundle) →
    bundle.manifest.WellFormed ∧ bundle.receipt.WellFormed

/-- What an import admits when the clock of the cache reads `now`: a result whose lease ends
later. -/
def durablyAdmitted (action : Value) (peer : FederationPeer) (config : FederationPeerConfig)
    (observedAt now : DateTime) : Option DurableResult := do
  let x ← admitted action peer config observedAt
  if now < x.ends then some ⟨x.key, (x.manifest, x.receipt, now), x.ends⟩ else none

omit [LocalZone] [Ed25519] in
/-- The cache accepts no bundle whose lease has ended. -/
theorem lt_of_checkImport {bundle : FederationBundle} {now retainUntil : DateTime}
    {manifest : Manifest} (h : checkImport now bundle retainUntil = .ok manifest) :
    now < retainUntil := by
  rw [checkImport, Except.bind_eq_ok] at h
  obtain ⟨_, -, h⟩ := h
  rw [Except.bind_eq_ok] at h
  obtain ⟨_, -, h⟩ := h
  rw [Except.bind_eq_ok] at h
  obtain ⟨_, -, h⟩ := h
  rw [Except.bind_eq_ok] at h
  obtain ⟨_, -, h⟩ := h
  rw [Except.bind_eq_ok] at h
  obtain ⟨_, hlease, -⟩ := h
  exact not_le.mp (of_decide_eq_false (raiseIf_eq_ok.mp hlease))

/-- What an import admits passes the checks of the cache. -/
theorem exists_durable_of_admission {action : Value} {peer : FederationPeer}
    {config : FederationPeerConfig} {observedAt now retainUntil : DateTime}
    {entry : AvailabilityEntry} {bundle : FederationBundle} {total : ℕ} (hserves : Serves peer)
    (hadmission : admission action peer config observedAt = .ok (entry, bundle, total))
    (hlease : observedAt.addSeconds config.retentionSeconds = .ok retainUntil)
    (hnow : now < retainUntil) :
    ∃ x : DurableResult, x.Valid ∧ entry.resultDigest = x.key ∧
      durablyAdmitted action peer config observedAt now = some x ∧
      checkImport now bundle retainUntil = .ok x.manifest ∧
      x.document = entryRecord x.manifest.digest bundle.manifest bundle.receipt now retainUntil ∧
      ∀ descriptor ∈ x.manifest.fields.artifacts, ∃ blob,
        bundle.artifacts.get? descriptor.name = some blob ∧ blob.length = descriptor.size ∧
          digestBytes blob = descriptor.digest := by
  obtain ⟨_, _, _, manifest, -, -, -, -, -, hfetch, hbundle, -⟩ := admission_eq_ok.mp hadmission
  obtain ⟨hmanifest, hreceipt⟩ := hserves _ _ hfetch
  obtain ⟨fields, keyId, signature, publicKey, hfields, -, -, hverified⟩ := hbundle.receipt
  have hbound : fields.resultDigest = manifest.digest := by
    rw [verifyReceiptForManifest, hfields, Except.ok_bind] at hverified
    by_contra hne
    rw [if_pos hne] at hverified
    cases hverified
  have hread := Manifest.ofValue_eq_ok.mpr hbundle.document
  refine ⟨⟨manifest.digest, (manifest, bundle.receipt, now), retainUntil⟩, ⟨rfl,
    ⟨(validateManifest_checks manifest.valid).inProfile, hbundle.document ▸ hmanifest⟩,
    ⟨inProfile_of_validateReceipt hfields, hreceipt⟩, hbundle.version, fields, hfields, hbound⟩,
    hbundle.digest.symm, ?_, ?_, ?_, fun descriptor hdescriptor => ?_⟩
  · have hadmitted : admitted action peer config observedAt =
        some ⟨manifest.digest, (manifest, bundle.receipt), retainUntil⟩ := by
      rw [admitted, hadmission, hlease]
      show (Manifest.ofValue bundle.manifest).toOption >>= _ = _
      rw [hread]
      rfl
    rw [durablyAdmitted, hadmitted, Option.bind_eq_bind, Option.bind_some, if_pos hnow]
  · have hversion := validateFederationResult_eq_ok.mpr ⟨hbundle.document, hbundle.version⟩
    have hnames := sameNames_eq_true.mpr hbundle.names
    rw [checkImport, hversion, Except.ok_bind, hfields, Except.ok_bind]
    simp [raiseIf, hbound, hnames, not_le.mpr hnow]
  · rw [DurableResult.document, hbundle.document]
  · obtain ⟨blob, hblob, -, hsize, hdigest⟩ := hbundle.artifacts descriptor hdescriptor
    exact ⟨blob, hblob, hsize, hdigest⟩

omit [LocalZone] [Ed25519] in
/-- A bundle that passes is imported: its blobs are stored first, and its file last. -/
theorem Holds.importBundle {store : FilesystemFederationCacheStore} {items : List DurableResult}
    (h : Holds store items) {x : DurableResult} (hx : x.Valid) {now retainUntil : DateTime}
    {bundle : FederationBundle} (hcheck : checkImport now bundle retainUntil = .ok x.manifest)
    (hdocument : x.document =
      entryRecord x.manifest.digest bundle.manifest bundle.receipt now retainUntil)
    (hartifacts : ∀ descriptor ∈ x.manifest.fields.artifacts, ∃ blob,
      bundle.artifacts.get? descriptor.name = some blob ∧ blob.length = descriptor.size ∧
        digestBytes blob = descriptor.digest) :
    ∃ stored, importBundle now bundle retainUntil store = (.ok (), stored) ∧
      Holds stored (Leased.replace x items) := by
  obtain ⟨stored, hstored, hentries, hhashed, hkept, hblobs⟩ := storeBlobs_apply hartifacts h.hashed
  have hencoded : canonicalJson x.document = .ok (canonicalBytes x.document) :=
    canonicalJson_of_inProfile hx.storable.inProfile
  have hname : entryPath x.manifest.digest = .ok x.file.1 := by
    rw [← hx.key]
    exact entryPath_of_isDigest hx.isDigest
  refine ⟨stored.writeEntry x.file.1 x.file.2, ?_, ?_⟩
  · rw [FilesystemFederationCacheStore.importBundle,
      Stateful.bind_apply_of_ok (by rw [Stateful.ofExcept_apply, hcheck]),
      Stateful.bind_apply_of_ok hstored, ← hdocument,
      Stateful.bind_apply_of_ok (by rw [Stateful.ofExcept_apply, hencoded]),
      Stateful.bind_apply_of_ok (by rw [Stateful.ofExcept_apply, hname]),
      Stateful.modify_apply, DurableResult.file]
  · -- the blobs are there before the file that names them
    refine (h.of_blobs hentries hhashed hkept).writeEntry hx fun digest hdigest => ?_
    obtain ⟨descriptor, hdescriptor, rfl⟩ := List.mem_map.mp hdigest
    exact hblobs descriptor hdescriptor

/-- What is admitted goes to the cache, with the end of its lease. -/
theorem importFromPeer_eq {action : Value} {peer : FederationPeer} {config : FederationPeerConfig}
    {observedAt : DateTime} {entry : AvailabilityEntry} {bundle : FederationBundle} {total : ℕ}
    (h : admission action peer config observedAt = .ok (entry, bundle, total)) (now : DateTime) :
    importFromPeer action peer config observedAt now = (do
      let retainUntil ← Stateful.ofExcept (observedAt.addSeconds config.retentionSeconds)
      importBundle now bundle retainUntil
      pure ⟨true, "imported", some entry.resultDigest, total⟩) := by
  rw [importFromPeer, h]

/-- An import that admits a result puts it into its file, and any other leaves the files. -/
theorem Holds.importFromPeer {store : FilesystemFederationCacheStore} {items : List DurableResult}
    (h : Holds store items) (action : Value) {peer : FederationPeer} (config : FederationPeerConfig)
    (observedAt now : DateTime) (hserves : Serves peer) :
    (durablyAdmitted action peer config observedAt now = none ∧
      (importFromPeer action peer config observedAt now store).2 = store ∧
      ∀ outcome, (importFromPeer action peer config observedAt now store).1 = .ok outcome →
        outcome.hit = false) ∨
    ∃ x total stored, durablyAdmitted action peer config observedAt now = some x ∧
      importFromPeer action peer config observedAt now store =
        (.ok ⟨true, "imported", some x.key, total⟩, stored) ∧
      Holds stored (Leased.replace x items) := by
  cases hadmission : admission action peer config observedAt with
  | error stop =>
    refine .inl ⟨by rw [durablyAdmitted, admitted, hadmission]; rfl, ?_⟩
    rw [FilesystemFederationCacheStore.importFromPeer, hadmission]
    cases stop with
    | miss reason =>
      refine ⟨rfl, fun outcome h => ?_⟩
      rw [← Except.ok.inj h, ImportOutcome.miss]
    | raised e => exact ⟨rfl, fun outcome h => by cases h⟩
  | ok result =>
    obtain ⟨entry, bundle, total⟩ := result
    cases hlease : observedAt.addSeconds config.retentionSeconds with
    | error e =>
      have hraised : FilesystemFederationCacheStore.importFromPeer action peer config observedAt now
          store = (.error e, store) := by
        rw [importFromPeer_eq hadmission,
          Stateful.bind_apply_of_error (by rw [Stateful.ofExcept_apply, hlease])]
      refine .inl ⟨by rw [durablyAdmitted, admitted, hadmission, hlease]; rfl, ?_⟩
      rw [hraised]
      exact ⟨rfl, fun outcome h => by cases h⟩
    | ok retainUntil =>
      by_cases hnow : now < retainUntil
      · obtain ⟨x, hx, hentry, hadmitted, hcheck, hdocument, hartifacts⟩ :=
          exists_durable_of_admission hserves hadmission hlease hnow
        obtain ⟨stored, himport, hstored⟩ := h.importBundle hx hcheck hdocument hartifacts
        refine .inr ⟨x, total, stored, hadmitted, ?_, hstored⟩
        rw [importFromPeer_eq hadmission,
          Stateful.bind_apply_of_ok (by rw [Stateful.ofExcept_apply, hlease]),
          Stateful.bind_apply_of_ok himport, Stateful.pure_apply, hentry]
      · -- the lease has ended by the clock of the cache, which refuses the bundle
        obtain ⟨e, hcheck⟩ : ∃ e, checkImport now bundle retainUntil = .error e := by
          cases hcheck : checkImport now bundle retainUntil with
          | error e => exact ⟨e, rfl⟩
          | ok manifest => exact absurd (lt_of_checkImport hcheck) hnow
        have hraised :
          FilesystemFederationCacheStore.importFromPeer action peer config observedAt now
            store = (.error e, store) := by
          rw [importFromPeer_eq hadmission,
            Stateful.bind_apply_of_ok (by rw [Stateful.ofExcept_apply, hlease]),
            FilesystemFederationCacheStore.importBundle,
            Stateful.bind_apply_of_error
              (Stateful.bind_apply_of_error (by rw [Stateful.ofExcept_apply, hcheck]))]
        refine .inl ⟨?_, ?_⟩
        · cases hadmitted : admitted action peer config observedAt with
          | none => rw [durablyAdmitted, hadmitted]; rfl
          | some x =>
            rw [durablyAdmitted, hadmitted, Option.bind_eq_bind, Option.bind_some,
              ← Except.ok.inj (hlease.symm.trans (lease_of_admitted hadmitted)), if_neg hnow]
        · rw [hraised]
          exact ⟨rfl, fun outcome h => by cases h⟩

/-- An import that is interrupted leaves the results as they are. -/
theorem Holds.interrupt {store : FilesystemFederationCacheStore} {items : List DurableResult}
    (h : Holds store items) {action : Value} {peer : FederationPeer} {config : FederationPeerConfig}
    (observedAt now : DateTime) (written : ℕ) (hserves : Serves peer) :
    Holds (interrupt action peer config observedAt now written store) items := by
  cases hadmission : admission action peer config observedAt with
  | error stop =>
    rw [FilesystemFederationCacheStore.interrupt, hadmission]
    exact h
  | ok result =>
    obtain ⟨entry, bundle, total⟩ := result
    have hraising : ∀ {α : Type} (a : α), raising (.ok a) = .ok a := fun _ => rfl
    have hraised : ∀ {α : Type} (e : PyError),
        raising (.error e : Except PyError α) = .error (.raised e) := fun _ => rfl
    cases hlease : observedAt.addSeconds config.retentionSeconds with
    | error e =>
      simp only [FilesystemFederationCacheStore.interrupt, hadmission, hlease, hraised,
        Except.ok_bind]
      exact h
    | ok retainUntil =>
      cases hcheck : checkImport now bundle retainUntil with
      | error e =>
        simp only [FilesystemFederationCacheStore.interrupt, hadmission, hlease, hcheck, hraising,
          hraised, Except.ok_bind]
        exact h
      | ok manifest =>
        obtain ⟨x, hx, -, -, hcheck', -, hartifacts⟩ :=
          exists_durable_of_admission hserves hadmission hlease (lt_of_checkImport hcheck)
        obtain rfl := Except.ok.inj (hcheck'.symm.trans hcheck)
        obtain ⟨stored, hstored, hentries, hhashed, hkept, -⟩ := storeBlobs_apply
          (fun descriptor (hdescriptor : descriptor ∈ x.manifest.fields.artifacts.take written) =>
            hartifacts descriptor (List.mem_of_mem_take hdescriptor)) h.hashed
        have hinterrupted :
          FilesystemFederationCacheStore.interrupt action peer config observedAt now
            written store =
              (storeBlobs bundle.artifacts (x.manifest.fields.artifacts.take written) store).2 := by
          simp only [FilesystemFederationCacheStore.interrupt, hadmission, hlease, hcheck, hraising,
            Except.ok_bind]
          rfl
        rw [hinterrupted, hstored]
        exact h.of_blobs hentries hhashed hkept

end FilesystemFederationCacheStore

end OnceMesh.Federation
