import OnceMesh.BlobStore
import OnceMesh.ExecutionCache.Lookup
import OnceMesh.Publication.NewestFirst

/-!
# Stores that bridges share

What the results about bridges rely on of a store: which of the values that have been published for
an action it lists, and in which order. The store in memory lists all of them, the last one first.
The store on a filesystem lists those with a new digest, by the text of their timestamps.
-/

namespace OnceMesh

open Python

variable [Sha256]

/-- A store that bridges publish to and look up in. -/
class BridgeStore (σ : Type) extends BlobStore σ where
  /-- Apart from blobs, the store has been given the manifests of some writes, the last one
  first. -/
  Took : σ → List CacheWrite → Prop
  /-- Of the writes for one digest, the last one first, those that are listed, in their order. -/
  order : List CacheWrite → List CacheWrite
  /-- Only writes are listed. -/
  order_subset : ∀ writes, order writes ⊆ writes
  /-- A new store has taken nothing. -/
  took_empty : ∀ name, Took (empty name) []
  /-- A blob is no write. -/
  took_putBlob : ∀ {store writes}, Took store writes → ∀ data,
    Took (puts.putBlob store data) writes
  /-- A manifest that is put is the last write. -/
  took_putResult : ∀ {store writes}, Took store writes → ∀ w : CacheWrite,
    Took (puts.putResult store w.manifest) (w :: writes)
  /-- A manifest that is put leaves the blobs as they are. -/
  getBlob_putResult : ∀ store manifest,
    (view (puts.putResult store manifest)).getBlob = (view store).getBlob
  /-- What is read for a digest has the fields of the writes that are listed. -/
  candidates_eq : ∀ {store writes}, Took store writes → ∀ digest, isDigest digest = true →
    ∃ read : List Manifest, (view store).candidates digest = .ok (read.map Manifest.document) ∧
      read.map Manifest.fields = (order (writes.filter fun w => w.digest = digest)).map fun w =>
        w.manifest.fields
  /-- There are no validation records. -/
  validations_eq : ∀ {store writes}, Took store writes → ∀ digest, isDigest digest = true →
    (view store).validations digest = .ok []
  /-- There are no invalidation records. -/
  invalidations_eq : ∀ {store writes}, Took store writes →
    ∀ reader ∈ (view store).invalidations, ∀ digest, isDigest digest = true →
      reader digest = .ok []

/-- The writes for one digest that a store lists. -/
abbrev listedBy (σ : Type) [BridgeStore σ] (writes : List CacheWrite) : List CacheWrite :=
  BridgeStore.order (σ := σ) writes

/-! ### The store in memory -/

/-- A store in memory has the manifests of some writes. -/
structure MemoryStore.Took (store : MemoryStore) (writes : List CacheWrite) : Prop where
  results : ∀ digest, newestFirst store.results digest =
    (writes.filter fun w => w.digest = digest).map CacheWrite.manifest
  validations : ∀ digest, newestFirst store.validations digest = []
  invalidations : ∀ digest, newestFirst store.invalidations digest = []

/-- The store in memory lists all writes, the last one first. -/
instance : BridgeStore MemoryStore where
  Took := MemoryStore.Took
  order writes := writes
  order_subset writes := List.Subset.refl writes
  took_empty name := ⟨fun _ => rfl, fun _ => rfl, fun _ => rfl⟩
  took_putBlob h data := ⟨h.results, h.validations, h.invalidations⟩
  took_putResult := by
    intro store writes h w
    refine ⟨fun digest => ?_, h.validations, h.invalidations⟩
    show MemoryStore.newestFirst (MemoryStore.append store.results w.digest w.manifest) digest = _
    rw [MemoryStore.newestFirst_append, h.results, List.filter_cons]
    by_cases hdigest : digest = w.digest
    · rw [if_pos hdigest, if_pos (decide_eq_true hdigest.symm)]
      rfl
    · rw [if_neg hdigest, if_neg (by simpa [eq_comm] using hdigest)]
  getBlob_putResult _ _ := rfl
  candidates_eq := by
    intro store writes h digest _
    refine ⟨(writes.filter fun w => w.digest = digest).map CacheWrite.manifest, ?_, ?_⟩
    · show Except.ok ((MemoryStore.newestFirst store.results digest).map Manifest.document) = _
      rw [h.results]
    · rw [List.map_map]
      rfl
  validations_eq h digest _ := congrArg Except.ok (h.validations digest)
  invalidations_eq := by
    rintro store writes h _ ⟨⟩ digest -
    exact congrArg Except.ok (h.invalidations digest)

/-- Nothing is left out or moved in memory. -/
theorem MemoryStore.listedBy_eq (writes : List CacheWrite) :
    listedBy MemoryStore writes = writes := rfl

/-! ### The store on a filesystem -/

/-- One more result is kept unless its digest has been seen. -/
theorem withNewDigest_concat (results : List Manifest) (m : Manifest) : ∀ seen : List Str,
    withNewDigest seen (results ++ [m]) = withNewDigest seen results ++
      if m.digest ∈ seen ∨ ∃ m' ∈ results, m'.digest = m.digest then [] else [m] := by
  induction results with
  | nil =>
    intro seen
    simp [withNewDigest]
  | cons m' rest ih =>
    intro seen
    rw [List.cons_append, withNewDigest, withNewDigest]
    split_ifs with hseen h h
    · rw [ih, if_pos]
      rcases h with h | h
      · exact .inl h
      · rcases (List.exists_mem_cons_iff _ _ _).mp h with h | h
        · exact .inl (h ▸ hseen)
        · exact .inr h
    · rw [ih, if_neg]
      rw [not_or] at h ⊢
      exact ⟨h.1, fun hmem => h.2 (List.exists_mem_cons_of_exists hmem)⟩
    · rw [ih, if_pos, List.cons_append]
      rcases h with h | h
      · exact .inl (List.mem_cons_of_mem _ h)
      · rcases (List.exists_mem_cons_iff _ _ _).mp h with h | h
        · exact .inl (h ▸ List.mem_cons_self)
        · exact .inr h
    · rw [ih, if_neg, List.cons_append]
      rw [not_or] at h ⊢
      refine ⟨fun hmem => ?_, fun hmem => h.2 (List.exists_mem_cons_of_exists hmem)⟩
      rcases List.mem_cons.mp hmem with hsame | hmem
      · exact h.2 ⟨m', List.mem_cons_self, hsame.symm⟩
      · exact h.1 hmem

omit [Sha256] in
/-- Records that are sorted by the text of their timestamps have their fields sorted by it. -/
theorem map_newestTextFirst {α : Type} (fields : α → ManifestFields) (records : List α) :
    (newestTextFirst (fun x => (fields x).producedAt.text) records).map fields =
      (records.map fields).insertionSort fun a b => b.producedAt.text ≤ a.producedAt.text := by
  rw [newestTextFirst, List.map_insertionSort _ (fun a b : ManifestFields =>
    b.producedAt.text ≤ a.producedAt.text) fields _ fun _ _ _ _ => Iff.rfl]

namespace ListedStore

variable {listing : Listing}

/-- The files for the digest of some writes, the last one first, in the order in which they were
made. -/
def filesOf (writes : List CacheWrite) : List Bytes :=
  (withNewDigest [] (writes.reverse.map CacheWrite.manifest)).map fun m =>
    canonicalBytes m.document

/-- The writes of the listed files, sorted by the text of their timestamps. -/
def order (listing : Listing) (writes : List CacheWrite) : List CacheWrite :=
  newestTextFirst (fun w => w.manifest.fields.producedAt.text)
    ((listing.list (filesOf writes)).filterMap fun data =>
      writes.find? fun w => canonicalBytes w.manifest.document = data)

/-- A store on a filesystem has the manifests of some writes. -/
structure Took (store : ListedStore listing) (writes : List CacheWrite) : Prop where
  files : ∀ digest, isDigest digest = true →
    filesIn store.files.actions (digestHex digest) =
      filesOf (writes.filter fun w => w.digest = digest)
  names : ∀ digest resultDigest, isDigest digest = true → isDigest resultDigest = true →
    (store.files.actions.contains (documentPath digest resultDigest) = true ↔
      ∃ w ∈ writes, w.digest = digest ∧ w.manifest.digest = resultDigest)
  validations : ∀ directory, filesIn store.files.validations directory = []
  invalidations : ∀ directory, filesIn store.files.invalidations directory = []

/-- Only writes are listed. -/
theorem order_subset (writes : List CacheWrite) : order listing writes ⊆ writes := by
  intro w hw
  have hmem := (perm_newestTextFirst _ _).mem_iff.mp hw
  obtain ⟨data, -, hfind⟩ := List.mem_filterMap.mp hmem
  exact List.mem_of_find?_eq_some hfind

/-- The digest of a write is one. -/
theorem isDigest_digest (w : CacheWrite) : isDigest w.digest = true := by
  rw [w.digest_eq.2]
  exact isDigest_digestBytes _

/-- A file is there after a result has been put just if it is the one of the result or was there. -/
theorem contains_putResult {store : ListedStore listing} {w : CacheWrite}
    {digest resultDigest : Str} (hdigest : isDigest digest = true)
    (hresult : isDigest resultDigest = true) :
    (store.files.putResult w.manifest).actions.contains (documentPath digest resultDigest) = true ↔
      (w.digest = digest ∧ w.manifest.digest = resultDigest) ∨
        store.files.actions.contains (documentPath digest resultDigest) = true := by
  rw [FilesystemStore.putResult]
  dsimp only
  rw [FilesystemStore.contains_writeOnce, Bool.or_eq_true, decide_eq_true_eq]
  refine or_congr_left ?_
  have hw : isDigest w.manifest.fields.actionDigest = true := isDigest_digest w
  have hm : isDigest w.manifest.digest = true := isDigest_digestBytes _
  rw [documentPath, documentPath, Prod.mk.injEq, List.append_cancel_right_eq,
    digestHex_inj hdigest hw, digestHex_inj hresult hm]
  exact and_congr eq_comm eq_comm

/-- A result is put into the directory of its action, unless it is there. -/
theorem Took.putResult {store : ListedStore listing} {writes : List CacheWrite}
    (h : store.Took writes) (w : CacheWrite) :
    Took (⟨store.files.putResult w.manifest⟩ : ListedStore listing) (w :: writes) := by
  refine ⟨fun digest hdigest => ?_, fun digest resultDigest hdigest hresult => ?_, h.validations,
    h.invalidations⟩
  · have hnew := h.names w.digest w.manifest.digest (isDigest_digest w) (isDigest_digestBytes _)
    show filesIn (writeOnce store.files.actions (documentPath w.digest w.manifest.digest)
      (canonicalBytes w.manifest.document)) (digestHex digest) = _
    rw [filesIn_writeOnce, h.files digest hdigest, endsWith_documentPath, List.filter_cons]
    by_cases hsame : w.digest = digest
    · subst hsame
      rw [if_pos (decide_eq_true rfl), filesOf, filesOf, List.reverse_cons, List.map_append,
        List.map_singleton, withNewDigest_concat, List.map_append]
      congr 1
      have hseen : (w.manifest.digest ∈ ([] : List Str) ∨
          ∃ m ∈ ((writes.filter fun v => v.digest = w.digest).reverse.map CacheWrite.manifest),
            m.digest = w.manifest.digest) ↔
          store.files.actions.contains (documentPath w.digest w.manifest.digest) = true := by
        rw [hnew]
        simp [and_assoc]
      cases hcontains :
          store.files.actions.contains (documentPath w.digest w.manifest.digest) with
      | true =>
        rw [if_pos (hseen.mpr hcontains)]
        simp
      | false =>
        rw [if_neg (mt hseen.mp (by rw [hcontains]; decide))]
        simp [documentPath]
    · have hother : (documentPath w.digest w.manifest.digest).1 ≠ digestHex digest := fun heq =>
        hsame ((digestHex_inj (isDigest_digest w) hdigest).mp heq)
      simp [hother, hsame]
  · show (store.files.putResult w.manifest).actions.contains _ = true ↔ _
    rw [contains_putResult hdigest hresult, h.names digest resultDigest hdigest hresult,
      List.exists_mem_cons_iff]

/-- The store lists what it has read of the files, sorted by the text of the timestamps. -/
theorem Took.candidates {store : ListedStore listing} {writes : List CacheWrite}
    (h : store.Took writes) (digest : Str) (hdigest : isDigest digest = true) :
    ∃ read : List Manifest,
      (store.files.view listing).candidates digest = .ok (read.map Manifest.document) ∧
        read.map Manifest.fields =
          (order listing (writes.filter fun w => w.digest = digest)).map fun w =>
            w.manifest.fields := by
  have hfiles := h.files digest hdigest
  generalize (writes.filter fun w => w.digest = digest) = ws at hfiles ⊢
  -- every listed file is the one of a write
  have hread : ∀ data ∈ listing.list (filesOf ws), ∃ x : Manifest × CacheWrite,
      Holds Manifest.ofValue data x.1 ∧ x.1.fields = x.2.manifest.fields ∧
        (ws.find? fun w => canonicalBytes w.manifest.document = data) = some x.2 := by
    intro data hdata
    have hdata := (listing.perm (filesOf ws)).mem_iff.mp hdata
    obtain ⟨m, hm, hbytes⟩ := List.mem_map.mp hdata
    obtain ⟨w, hw, rfl⟩ := List.mem_map.mp (mem_of_mem_withNewDigest hm)
    obtain ⟨v, hv⟩ := Option.isSome_iff_exists.mp (List.find?_isSome.mpr
      ⟨w, List.mem_reverse.mp hw, decide_eq_true hbytes⟩ :
        (ws.find? fun w => canonicalBytes w.manifest.document = data).isSome)
    have hsame : canonicalBytes v.manifest.document = data := by simpa using List.find?_some hv
    obtain ⟨m', hholds, hfields, -⟩ :=
      FilesystemStore.exists_holds_manifest v.actionDigest_action.2.storable
    rw [hsame] at hholds
    exact ⟨(m', v), hholds, hfields, hv⟩
  obtain ⟨found, hfound⟩ := exists_forall₂_iff.mpr hread
  refine ⟨newestTextFirst (fun m => m.fields.producedAt.text) (found.map Prod.fst), ?_, ?_⟩
  · have hok : readDocuments Manifest.ofValue (listing.list (filesOf ws)) =
        .ok (found.map Prod.fst) :=
      readDocuments_eq_ok.mpr (List.forall₂_map_right_iff.mpr (hfound.imp fun _ _ hx => hx.1))
    refine FilesystemStore.asReader_eq_ok.mpr ?_
    rw [FilesystemStore.candidates, hexDigest?_of_isDigest hdigest, Except.ok_bind, hfiles,
      guardRead_eq_ok.mpr hok]
    rfl
  · have hwrites : ((listing.list (filesOf ws)).filterMap fun data =>
        ws.find? fun w => canonicalBytes w.manifest.document = data) = found.map Prod.snd := by
      clear hread
      generalize listing.list (filesOf ws) = files at hfound ⊢
      induction hfound with
      | nil => rfl
      | cons hx _ ih => simp only [List.filterMap_cons, hx.2.2, ih, List.map_cons]
    have hfields : (found.map Prod.fst).map Manifest.fields =
        (found.map Prod.snd).map fun w => w.manifest.fields := by
      rw [List.map_map, List.map_map]
      refine List.map_congr_left fun x hx => ?_
      obtain ⟨data, -, hholds⟩ := exists_of_forall₂_right hfound hx
      exact hholds.2.1
    rw [order, hwrites, map_newestTextFirst Manifest.fields,
      map_newestTextFirst fun w : CacheWrite => w.manifest.fields, hfields]

omit [Sha256] in
/-- Nothing is read from an empty directory. -/
theorem list_nil : listing.list [] = [] := (listing.perm []).eq_nil

end ListedStore

/-- The store on a filesystem lists one write for each digest of a manifest, by timestamps. -/
instance (listing : Listing) : BridgeStore (ListedStore listing) where
  Took := ListedStore.Took
  order := ListedStore.order listing
  order_subset := ListedStore.order_subset
  took_empty name := by
    refine ⟨fun _ _ => rfl, fun digest resultDigest _ _ => iff_of_false ?_ (by simp),
      fun _ => rfl, fun _ => rfl⟩
    exact Bool.false_ne_true
  took_putBlob h data := ⟨h.files, h.names, h.validations, h.invalidations⟩
  took_putResult h w := h.putResult w
  getBlob_putResult _ _ := rfl
  candidates_eq h := h.candidates
  validations_eq := by
    intro store writes h digest hdigest
    refine FilesystemStore.asReader_eq_ok.mpr ?_
    rw [FilesystemStore.validationsOf, hexDigest?_of_isDigest hdigest, Except.ok_bind,
      h.validations, ListedStore.list_nil]
    rfl
  invalidations_eq := by
    rintro store writes h _ ⟨⟩ digest hdigest
    refine FilesystemStore.asReader_eq_ok.mpr ?_
    rw [FilesystemStore.invalidationsOf, hexDigest?_of_isDigest hdigest, Except.ok_bind,
      h.invalidations, ListedStore.list_nil]
    rfl

end OnceMesh
