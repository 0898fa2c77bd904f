import OnceMesh.Cache.Lookup
import OnceMesh.Cache.Sound
import OnceMesh.FilesystemStore
import OnceMesh.Publication
import OnceMesh.Python.Datetime.Order

/-!
# The order of candidates

The candidates of an action are to be listed newest first. `MemoryStore` lists them in the reverse
of the order they were published in, and `FilesystemStore` by the text of `produced_at`.
`memory_newestFirst_iff` and `filesystem_newestFirst_iff` say when that is the order of the
instants; then a lookup in the store returns the admissible result that was produced last.
-/

namespace OnceMesh

open Python

/-- When the result was produced. -/
def Manifest.produced (manifest : Manifest) : DateTime := manifest.fields.producedAt.instant

section

variable [Sha256] {σ : Type}

/-! ### Runs of publications -/

/-- The store after some calls of `publish_result` for one action. -/
def publishAll (writer : StoreWriter σ) (action : Value) (pubs : List ResultData) (store : σ) : σ :=
  pubs.foldl (fun store p => (publishResult writer action p store).2) store

/-- The manifests that the calls publish, in their order; the other calls raise. -/
def published (action : Value) (pubs : List ResultData) : List Manifest :=
  pubs.filterMap fun p => (p.toManifest action).toOption

variable {action : Value} {requested : Str}

/-- One call publishes a manifest, or raises. -/
theorem published_cons (p : ResultData) (pubs : List ResultData) :
    (∃ manifest, p.toManifest action = .ok manifest ∧
      published action (p :: pubs) = manifest :: published action pubs) ∨
    (∃ e, p.toManifest action = .error e) ∧
      published action (p :: pubs) = published action pubs := by
  unfold published
  rw [List.filterMap_cons]
  cases p.toManifest action with
  | ok manifest => exact .inl ⟨manifest, rfl, rfl⟩
  | error e => exact .inr ⟨⟨e, rfl⟩, rfl⟩

/-- What is published for an action is published as the arguments of a call. -/
theorem exists_publishedAs (haction : actionDigest action = .ok requested)
    {pubs : List ResultData} {manifest : Manifest} (h : manifest ∈ published action pubs) :
    ∃ p ∈ pubs, PublishedAs manifest requested p := by
  obtain ⟨p, hp, hmanifest⟩ := List.mem_filterMap.mp h
  obtain ⟨manifest', hok, rfl⟩ : ∃ m, p.toManifest action = .ok m ∧ m = manifest := by
    cases hm : p.toManifest action with
    | error e =>
      rw [hm] at hmanifest
      cases hmanifest
    | ok m =>
      rw [hm] at hmanifest
      exact ⟨m, rfl, Option.some.inj hmanifest⟩
  obtain ⟨requested', haction', hpublished⟩ := publishedAs_of_toManifest hok
  cases haction.symm.trans haction'
  exact ⟨p, hp, hpublished⟩

/-! ### What is to be listed -/

/-- A candidate of the store is admissible at the time of the policy. -/
def AcceptedCandidate (store : Store) (policy : Policy) (requested : Str) (manifest : Manifest) :
    Prop :=
  ∃ e, evaluate [store] policy (policy.maxDependencyDepth + 1) [] requested manifest.document store
    0 false = .ok e

/-- The store lists the published results in strictly decreasing order of the instants they were
produced at, and a lookup in the store returns the admissible one that was produced last. -/
structure NewestFirst (store : Store) (action : Value) (results : List Manifest) : Prop where
  listed : ∀ requested, actionDigest action = .ok requested → ∃ candidates : List Manifest,
    store.candidates requested = .ok (candidates.map Manifest.document) ∧
    candidates.Pairwise (fun a b => b.produced < a.produced) ∧
    ∀ digest, (∃ m ∈ candidates, m.digest = digest) ↔ ∃ m ∈ results, m.digest = digest
  latest : ∀ requested, actionDigest action = .ok requested → ∀ candidates : List Manifest,
    store.candidates requested = .ok (candidates.map Manifest.document) →
    ∀ policy, ∀ m ∈ candidates, AcceptedCandidate store policy requested m →
    ∃ hit rejections, reuse action [store] policy = .ok ⟨some hit, rejections⟩ ∧
      hit.manifest ∈ candidates ∧ m.produced ≤ hit.manifest.produced

/-- The first admissible candidate is the latest one, if the candidates are listed newest first. -/
theorem exists_reuse_of_pairwise {store : Store} (hsound : store.Sound)
    (haction : actionDigest action = .ok requested) {candidates : List Manifest}
    (hcandidates : store.candidates requested = .ok (candidates.map Manifest.document))
    (hnewest : candidates.Pairwise fun a b => b.produced < a.produced) {policy : Policy}
    {m : Manifest} (hm : m ∈ candidates) (haccepted : AcceptedCandidate store policy requested m) :
    ∃ hit rejections, reuse action [store] policy = .ok ⟨some hit, rejections⟩ ∧
      hit.manifest ∈ candidates ∧ m.produced ≤ hit.manifest.produced := by
  obtain ⟨e, he⟩ := haccepted
  have hattempts : attempts requested [store] =
      candidates.map fun c => Attempt.candidate store c.document := by
    rw [attempts, List.flatMap_singleton, hcandidates]
    exact List.map_map
  -- the attempt for `m` is not rejected
  have hnot : ∀ text, ¬(Attempt.candidate store m.document).Rejected [store] policy requested false
      text := by
    rintro text ⟨reason, hrun, -⟩
    rw [Attempt.run, he] at hrun
    cases hrun
  have hmem : Attempt.candidate store m.document ∈ attempts requested [store] := by
    rw [hattempts]
    exact List.mem_map.mpr ⟨m, hm, rfl⟩
  rw [reuse_eq_lookup, lookup_of_actionDigest haction, searchStores_eq_firstHit]
  obtain ⟨texts, hall, -⟩ | ⟨before, attempt, after, texts, hsplit, hbefore, hfirst⟩ :=
    @firstHit_cases _ [store] policy requested false (attempts requested [store])
  · obtain ⟨text, -, hrejected⟩ := exists_of_forall₂_left hall hmem
    exact absurd hrejected (hnot text)
  rw [hattempts] at hsplit
  obtain ⟨earlier, rest, rfl, hearlier, hrest⟩ := List.map_eq_append_iff.mp hsplit
  obtain ⟨c, later, rfl, rfl, -⟩ := List.map_eq_cons_iff.mp hrest
  have hle : m.produced ≤ c.produced := by
    rcases List.mem_append.mp hm with hm | hm
    · -- the attempts before the first hit have been rejected
      have hbad : Attempt.candidate store m.document ∈ before := by
        rw [← hearlier]
        exact List.mem_map.mpr ⟨m, hm, rfl⟩
      obtain ⟨text, -, hrejected⟩ := exists_of_forall₂_left hbefore hbad
      exact absurd hrejected (hnot text)
    · rcases List.mem_cons.mp hm with rfl | hm
      · exact le_rfl
      · have hpair := (List.pairwise_append.mp hnewest).2.1
        exact ((List.pairwise_cons.mp hpair).1 m hm).le
  rcases hfirst with ⟨hit, hrun, hhit⟩ | ⟨e', hrun, -⟩
  · refine ⟨hit, texts, hhit, ?_⟩
    obtain ⟨evaluation, hevaluation, hhit⟩ := Except.bind_eq_ok.mp hrun
    cases hhit
    have hmanifest : evaluation.manifest = c :=
      Manifest.ext_document (evaluate_document hevaluation)
    dsimp only
    rw [hmanifest]
    exact ⟨List.mem_append_right _ List.mem_cons_self, hle⟩
  · have hstores : ∀ s ∈ [store], s.Sound := by simpa using hsound
    have hraises := @raisesOnly_evaluate _ _ policy hstores (policy.maxDependencyDepth + 1) []
      requested c store List.mem_cons_self 0 false
    rcases Except.bind_eq_error.mp hrun with h | ⟨evaluation, -, h⟩
    · exact (hraises _ h).elim
    · cases h

/-- Whether a sound store lists the results newest first is decided by its list of candidates. -/
theorem newestFirst_iff_pairwise {store : Store} (hsound : store.Sound) {results : List Manifest}
    {candidates : Str → List Manifest}
    (hcandidates : ∀ requested, actionDigest action = .ok requested →
      store.candidates requested = .ok ((candidates requested).map Manifest.document) ∧
      ∀ digest, (∃ m ∈ candidates requested, m.digest = digest) ↔
        ∃ m ∈ results, m.digest = digest) :
    NewestFirst store action results ↔ ∀ requested, actionDigest action = .ok requested →
      (candidates requested).Pairwise fun a b => b.produced < a.produced := by
  have hunique : ∀ l l' : List Manifest, l.map Manifest.document = l'.map Manifest.document →
      l = l' := fun l l' h =>
    List.map_injective_iff.mpr (fun _ _ => Manifest.ext_document) h
  constructor
  · intro h requested haction
    obtain ⟨l, hl, hpairwise, -⟩ := h.listed requested haction
    obtain ⟨hread, -⟩ := hcandidates requested haction
    rw [hl] at hread
    rw [← hunique _ _ (Except.ok.inj hread)]
    exact hpairwise
  · intro h
    refine ⟨fun requested haction => ?_, ?_⟩
    · obtain ⟨hread, hdigests⟩ := hcandidates requested haction
      exact ⟨_, hread, h requested haction, hdigests⟩
    · intro requested haction l hl policy m hm haccepted
      have hread := hl.symm.trans (hcandidates requested haction).1
      have hpairwise := h requested haction
      rw [← hunique _ _ (Except.ok.inj hread)] at hpairwise
      exact exists_reuse_of_pairwise hsound haction hl hpairwise hm haccepted

/-- Nothing is published for an invalid action. -/
theorem pairwise_published_iff {r : Manifest → Manifest → Prop} {f : List Manifest → List Manifest}
    (hf : f [] = []) {pubs : List ResultData} :
    (∀ requested, actionDigest action = .ok requested → (f (published action pubs)).Pairwise r) ↔
      (f (published action pubs)).Pairwise r := by
  refine ⟨fun h => ?_, fun h _ _ => h⟩
  cases haction : actionDigest action with
  | ok requested => exact h requested haction
  | error e =>
    have hnone : published action pubs = [] := by
      refine List.filterMap_eq_nil_iff.mpr fun p _ => ?_
      rw [ResultData.toManifest, haction]
      rfl
    rw [hnone, hf]
    exact .nil

/-! ### In memory -/

/-- Blobs leave the results as they are. -/
theorem MemoryStore.results_putBlobs (p : ResultData) (store : MemoryStore) :
    (p.putBlobs MemoryStore.puts store).results = store.results := by
  unfold ResultData.putBlobs
  generalize sortedItems p.artifacts = items
  induction items generalizing store with
  | nil => rfl
  | cons item rest ih => exact ih _

/-- The candidates are the published results, the last one first. -/
theorem MemoryStore.newestFirst_publishAll (haction : actionDigest action = .ok requested)
    (pubs : List ResultData) (store : MemoryStore) :
    newestFirst (publishAll MemoryStore.writer action pubs store).results requested =
      (published action pubs).reverse ++ newestFirst store.results requested := by
  induction pubs generalizing store with
  | nil => rfl
  | cons p pubs ih =>
    rw [publishAll, List.foldl_cons, ← publishAll, ih]
    rcases @published_cons _ action p pubs with ⟨m, hm, hcons⟩ | ⟨⟨e, he⟩, hcons⟩
    · have hdigest : m.fields.actionDigest = requested := by
        obtain ⟨requested', haction', hpublished⟩ := publishedAs_of_toManifest hm
        cases haction.symm.trans haction'
        exact hpublished.actionDigest
      have hput : (publishResult MemoryStore.writer action p store).2.results =
          append store.results m.fields.actionDigest m := by
        rw [MemoryStore.writer, publishResult_of_ok hm]
        show append (p.putBlobs MemoryStore.puts store).results _ _ = _
        rw [MemoryStore.results_putBlobs]
      rw [hcons, hput, newestFirst_append, if_pos hdigest.symm, List.reverse_cons,
        List.append_assoc]
      rfl
    · rw [hcons, MemoryStore.writer, publishResult_of_error he]
      dsimp only
      rw [MemoryStore.results_putBlobs]

/-- A store in memory lists results newest first exactly when they were published in the order they
were produced. -/
theorem memory_newestFirst_iff (pubs : List ResultData) {store : MemoryStore}
    (hempty : ∀ requested, actionDigest action = .ok requested →
      MemoryStore.newestFirst store.results requested = []) :
    NewestFirst (publishAll MemoryStore.writer action pubs store).view action
        (published action pubs) ↔
      (published action pubs).Pairwise fun a b => a.produced < b.produced := by
  have hcandidates : ∀ requested, actionDigest action = .ok requested →
      (publishAll MemoryStore.writer action pubs store).view.candidates requested =
        .ok ((published action pubs).reverse.map Manifest.document) ∧
      ∀ digest, (∃ m ∈ (published action pubs).reverse, m.digest = digest) ↔
        ∃ m ∈ published action pubs, m.digest = digest := by
    intro requested haction
    refine ⟨?_, fun digest => by simp only [List.mem_reverse]⟩
    show Except.ok ((MemoryStore.newestFirst _ requested).map Manifest.document) = _
    rw [MemoryStore.newestFirst_publishAll haction, hempty requested haction, List.append_nil]
  rw [newestFirst_iff_pairwise (MemoryStore.sound_view _) hcandidates,
    pairwise_published_iff List.reverse_nil, List.pairwise_reverse]

/-! ### On a filesystem -/

/-- The results with a digest that has not been seen. -/
def withNewDigest (seen : List Str) : List Manifest → List Manifest
  | [] => []
  | m :: rest =>
    if m.digest ∈ seen then withNewDigest seen rest
    else m :: withNewDigest (m.digest :: seen) rest

/-- The digests that are new are those that have not been seen. -/
theorem exists_mem_withNewDigest {results : List Manifest} : ∀ {seen : List Str} {digest : Str},
    digest ∉ seen →
    ((∃ m ∈ withNewDigest seen results, m.digest = digest) ↔ ∃ m ∈ results, m.digest = digest) := by
  induction results with
  | nil => exact fun _ => Iff.rfl
  | cons m rest ih =>
    intro seen digest hnew
    unfold withNewDigest
    split_ifs with hseen
    · have hne : m.digest ≠ digest := fun h => hnew (h ▸ hseen)
      rw [ih hnew]
      simp [hne]
    · by_cases hdigest : m.digest = digest
      · simp [hdigest]
      · have hnew' : digest ∉ m.digest :: seen := by
          rw [List.mem_cons, not_or]
          exact ⟨Ne.symm hdigest, hnew⟩
        simpa [hdigest] using ih hnew'

/-- What has a new digest is one of the results. -/
theorem mem_of_mem_withNewDigest {results : List Manifest} {m : Manifest} :
    ∀ {seen : List Str}, m ∈ withNewDigest seen results → m ∈ results := by
  induction results with
  | nil => exact fun h => h
  | cons m' rest ih =>
    intro seen h
    unfold withNewDigest at h
    split_ifs at h
    · exact List.mem_cons_of_mem _ (ih h)
    · rcases List.mem_cons.mp h with rfl | h
      · exact List.mem_cons_self
      · exact List.mem_cons_of_mem _ (ih h)

namespace FilesystemStore

/-- Blobs leave the results as they are. -/
theorem actions_putBlobs (p : ResultData) (store : FilesystemStore) :
    (p.putBlobs FilesystemStore.puts store).actions = store.actions := by
  unfold ResultData.putBlobs
  generalize sortedItems p.artifacts = items
  induction items generalizing store with
  | nil => rfl
  | cons item rest ih => exact ih _

omit [Sha256] in
/-- A file is there after a write just if it is the written one or was there. -/
theorem contains_writeOnce (files : Files) (path path' : Str × Str) (data : Bytes) :
    (writeOnce files path data).contains path' = (path' = path || files.contains path') := by
  unfold writeOnce
  by_cases hpath : path' = path
  · subst hpath
    cases hcontains : files.contains path' with
    | true => simp [hcontains]
    | false => simp [Dict.contains]
  · split_ifs
    · simp [hpath]
    · simp [Dict.contains, hpath]

omit [Sha256] in
/-- Files of different documents have different names. -/
theorem documentPath_inj {directory digest digest' : Str} (h : isDigest digest = true)
    (h' : isDigest digest' = true) :
    documentPath directory digest = documentPath directory digest' ↔ digest = digest' := by
  rw [documentPath, documentPath, Prod.mk.injEq, List.append_cancel_right_eq,
    digestHex_inj h h']
  simp

/-- The files of an action hold the published results that have a new digest. -/
theorem filesIn_publishAll (haction : actionDigest action = .ok requested)
    (pubs : List ResultData) : ∀ (seen : List Str) (store : FilesystemStore),
      (∀ digest, isDigest digest = true →
        (store.actions.contains (documentPath requested digest) = true ↔ digest ∈ seen)) →
      filesIn (publishAll FilesystemStore.writer action pubs store).actions
          (digestHex requested) =
        filesIn store.actions (digestHex requested) ++
          (withNewDigest seen (published action pubs)).map
            fun m => canonicalBytes m.document := by
  induction pubs with
  | nil =>
    intro seen store _
    exact (List.append_nil _).symm
  | cons p pubs ih =>
    intro seen store hseen
    rw [publishAll, List.foldl_cons, ← publishAll]
    rcases @published_cons _ action p pubs with ⟨m, hm, hcons⟩ | ⟨⟨e, he⟩, hcons⟩
    · have hdigest : m.fields.actionDigest = requested := by
        obtain ⟨requested', haction', hpublished⟩ := publishedAs_of_toManifest hm
        cases haction.symm.trans haction'
        exact hpublished.actionDigest
      have hput : (publishResult FilesystemStore.writer action p store).2.actions =
          writeOnce store.actions (documentPath requested m.digest)
            (canonicalBytes m.document) := by
        rw [FilesystemStore.writer, publishResult_of_ok hm, ← hdigest]
        show writeOnce (p.putBlobs FilesystemStore.puts store).actions _ _ = _
        rw [actions_putBlobs]
      have hvalid : isDigest m.digest = true := isDigest_digestBytes _
      have hcontains := hseen m.digest hvalid
      rw [hcons, withNewDigest]
      by_cases hmem : m.digest ∈ seen
      · rw [ih seen, hput, if_pos hmem]
        · rw [filesIn_writeOnce, hcontains.mpr hmem]
          simp
        · intro digest hdigest'
          rw [hput, contains_writeOnce, ← hseen digest hdigest']
          simp only [Bool.or_eq_true, decide_eq_true_eq, or_iff_right_iff_imp,
            documentPath_inj hdigest' hvalid]
          rintro rfl
          exact hcontains.mpr hmem
      · have hnew : store.actions.contains (documentPath requested m.digest) = false := by
          rw [← Bool.not_eq_true, hcontains]
          exact hmem
        rw [ih (m.digest :: seen), hput, if_neg hmem]
        · rw [filesIn_writeOnce, hnew, endsWith_documentPath]
          simp [documentPath]
        · intro digest hdigest'
          rw [hput, contains_writeOnce]
          simp only [Bool.or_eq_true, decide_eq_true_eq, documentPath_inj hdigest' hvalid,
            hseen digest hdigest', List.mem_cons]
    · rw [hcons, FilesystemStore.writer, publishResult_of_error he]
      have hactions := actions_putBlobs p store
      rw [← hactions] at hseen ⊢
      exact ih seen _ hseen

/-- A store on a filesystem is sound. -/
theorem sound_view (store : FilesystemStore) (listing : Listing) : (store.view listing).Sound where
  getBlob digest hdigest := by
    refine ⟨store.blobs.get? (fanOut digest ""), asReader_eq_ok.mpr ?_⟩
    rw [getBlob, hexDigest?_of_isDigest hdigest]
    rfl
  result := by
    rintro _ ⟨⟩ digest value h
    have hread := asReader_eq_ok.mp h
    cases hresult : store.result digest with
    | error e =>
      rw [hresult] at hread
      cases hread
    | ok found =>
      rw [hresult] at hread
      obtain ⟨manifest, -, hdocument⟩ := Option.map_eq_some_iff.mp (Except.ok.inj hread)
      exact ⟨manifest, hdocument⟩

/-- The file of a manifest holds a manifest with the same fields and digest. -/
theorem exists_holds_manifest {m : Manifest} (h : Storable m.document) :
    ∃ m', Holds Manifest.ofValue (canonicalBytes m.document) m' ∧ m'.fields = m.fields ∧
      m'.digest = m.digest := by
  have hvalid := m.valid
  rw [← validateManifest_sortKeys h] at hvalid
  refine ⟨⟨m.document.sortKeys, m.fields, hvalid⟩, ⟨_, h.loadJson, ?_⟩, rfl, ?_⟩
  · exact Manifest.ofValue_eq_ok.mpr rfl
  · exact h.digestOf_sortKeys

/-- Some files that hold manifests are listed as candidates, sorted by the text of their
timestamps. -/
theorem exists_candidates {store : FilesystemStore} {listing : Listing} {results : List Manifest}
    (hrequested : isDigest requested = true)
    (hfiles : filesIn store.actions (digestHex requested) =
      results.map fun m => canonicalBytes m.document)
    (hstorable : ∀ m ∈ results, Storable m.document) :
    ∃ read listed : List Manifest, listed.Perm results ∧
      List.Forall₂ (fun m m' => m'.fields = m.fields ∧ m'.digest = m.digest) listed read ∧
      store.candidates listing requested =
        .ok (newestTextFirst (fun m => m.fields.producedAt.text) read) := by
  have hperm := listing.perm (filesIn store.actions (digestHex requested))
  rw [hfiles] at hperm
  -- a permutation of the files is the files of a permutation
  obtain ⟨listed, hlisted, hnames⟩ : ∃ listed : List Manifest, listed.Perm results ∧
      listing.list (filesIn store.actions (digestHex requested)) =
        listed.map fun m => canonicalBytes m.document := by
    have hmap := congrFun (congrFun (List.eq_map_comp_perm
      fun m : Manifest => canonicalBytes m.document)
      (listing.list (filesIn store.actions (digestHex requested)))) results
    rw [hfiles] at hmap ⊢
    obtain ⟨listed, heq, hlisted⟩ := hmap.mpr hperm
    exact ⟨listed, hlisted, heq⟩
  have hstorable' : ∀ m ∈ listed, ∃ m', Holds Manifest.ofValue (canonicalBytes m.document) m' ∧
      m'.fields = m.fields ∧ m'.digest = m.digest := fun m hm =>
    exists_holds_manifest (hstorable m (hlisted.mem_iff.mp hm))
  obtain ⟨read, hread⟩ := exists_forall₂_iff.mpr hstorable'
  refine ⟨read, listed, hlisted, hread.imp fun _ _ h => h.2, ?_⟩
  rw [candidates, hexDigest?_of_isDigest hrequested, Except.ok_bind, hnames]
  have hok : readDocuments Manifest.ofValue (listed.map fun m => canonicalBytes m.document) =
      .ok read := by
    rw [readDocuments_eq_ok, List.forall₂_map_left_iff]
    exact hread.imp fun _ _ h => h.1
  exact Except.bind_eq_ok.mpr ⟨read, guardRead_eq_ok.mpr hok, rfl⟩

end FilesystemStore

/-! ### Sorting by text -/

omit [Sha256] in
/-- The instants of two results differ, and they do not share a second at the start of which exactly
one of them was produced. -/
def TextOrdered (a b : Manifest) : Prop :=
  a.produced ≠ b.produced ∧ ¬DateTime.MixedSecond a.produced b.produced

omit [Sha256] in
/-- Sorting by text is sorting by instant exactly when no two results are in one second in the wrong
way. -/
theorem pairwise_newestTextFirst_iff {results : List Manifest}
    (htext : ∀ m ∈ results, m.fields.producedAt.text = m.produced.utcText) :
    (newestTextFirst (fun m : Manifest => m.fields.producedAt.text) results).Pairwise
        (fun a b => b.produced < a.produced) ↔
      results.Pairwise TextOrdered := by
  have hperm := perm_newestTextFirst (fun m : Manifest => m.fields.producedAt.text) results
  have hsorted : (newestTextFirst (fun m : Manifest => m.fields.producedAt.text) results).Pairwise
      fun a b => b.fields.producedAt.text ≤ a.fields.producedAt.text := by
    have : Std.Total fun a b : Manifest =>
        b.fields.producedAt.text ≤ a.fields.producedAt.text := ⟨fun a b => le_total _ _⟩
    have : IsTrans Manifest fun a b => b.fields.producedAt.text ≤ a.fields.producedAt.text :=
      ⟨fun _ _ _ hab hbc => le_trans hbc hab⟩
    exact List.pairwise_insertionSort _ results
  have hsymm : ∀ {a b : Manifest}, TextOrdered a b → TextOrdered b a := fun h =>
    ⟨h.1.symm, fun hmixed => h.2 hmixed.symm⟩
  rw [← hperm.pairwise_iff hsymm]
  -- for two results in the order of their texts the conditions are the same
  constructor
  · intro h
    refine (hsorted.and h).imp_of_mem fun {a b} ha hb hab => ?_
    have ha' := htext a (hperm.mem_iff.mp ha)
    have hb' := htext b (hperm.mem_iff.mp hb)
    refine ⟨hab.2.ne', fun hmixed => ?_⟩
    have hlt := hmixed.utcText_lt_iff_gt.mpr hab.2
    rw [← ha', ← hb'] at hlt
    exact absurd hab.1 (not_le.mpr hlt)
  · intro h
    refine (hsorted.and h).imp_of_mem fun {a b} ha hb hab => ?_
    have ha' := htext a (hperm.mem_iff.mp ha)
    have hb' := htext b (hperm.mem_iff.mp hb)
    obtain ⟨hle, hne, hmixed⟩ := hab
    refine lt_of_le_of_ne (not_lt.mp fun hlt => ?_) hne.symm
    have htexts := (DateTime.utcText_lt_iff_lt hmixed).mpr hlt
    rw [← ha', ← hb'] at htexts
    exact absurd hle (not_le.mpr htexts)

/-- Lists with the same fields, element by element, are sorted alike. -/
theorem pairwise_iff_of_fields {r : Manifest → Manifest → Prop}
    (hr : ∀ {a b a' b' : Manifest}, a'.fields = a.fields → b'.fields = b.fields →
      (r a' b' ↔ r a b)) {l l' : List Manifest}
    (h : List.Forall₂ (fun m m' : Manifest => m'.fields = m.fields ∧ m'.digest = m.digest) l l') :
    l'.Pairwise r ↔ l.Pairwise r := by
  induction h with
  | nil => simp
  | @cons m m' l l' hm hl ih =>
    rw [List.pairwise_cons, List.pairwise_cons, ih]
    refine and_congr_left fun _ => ⟨fun hall b hb => ?_, fun hall b hb => ?_⟩
    · obtain ⟨b', hb', heq⟩ := exists_of_forall₂_left hl hb
      exact (hr hm.1 heq.1).mp (hall b' hb')
    · obtain ⟨b', hb', heq⟩ := exists_of_forall₂_right hl hb
      exact (hr hm.1 heq.1).mpr (hall b' hb')

/-- A store on a filesystem lists results newest first exactly when no two of those that it keeps
were produced at one instant, or in one second at the start of which exactly one of them was
produced. -/
theorem filesystem_newestFirst_iff (pubs : List ResultData) {store : FilesystemStore}
    (listing : Listing) (hempty : ∀ requested, actionDigest action = .ok requested →
      filesIn store.actions (digestHex requested) = []) :
    NewestFirst ((publishAll FilesystemStore.writer action pubs store).view listing) action
        (published action pubs) ↔
      (withNewDigest [] (published action pubs)).Pairwise TextOrdered := by
  let after := publishAll FilesystemStore.writer action pubs store
  let kept := withNewDigest [] (published action pubs)
  have hsound := after.sound_view listing
  -- what is listed has the fields and digests of the results that are kept
  have hread : ∀ requested, actionDigest action = .ok requested →
      ∃ candidates : List Manifest, (after.view listing).candidates requested =
          .ok (candidates.map Manifest.document) ∧
        (∀ digest, (∃ m ∈ candidates, m.digest = digest) ↔
          ∃ m ∈ published action pubs, m.digest = digest) ∧
        (candidates.Pairwise (fun a b => b.produced < a.produced) ↔ kept.Pairwise TextOrdered) := by
    intro requested haction
    have hdigest : isDigest requested = true := by
      obtain ⟨-, hobject⟩ := Except.check_eq_ok.mp haction
      rw [(objectDigest_eq_ok.mp hobject).2]
      exact isDigest_digestBytes _
    have hfiles := FilesystemStore.filesIn_publishAll haction pubs [] store fun digest _ => by
      have hnone := hempty requested haction
      refine iff_of_false (fun hcontains => ?_) List.not_mem_nil
      obtain ⟨data, hdata⟩ := Option.isSome_iff_exists.mp hcontains
      have hmem := Dict.mem_entries_iff.mpr hdata
      have hfile : data ∈ filesIn store.actions (digestHex requested) :=
        List.mem_map.mpr ⟨_, List.mem_filter.mpr ⟨hmem, Bool.and_eq_true_iff.mpr
          ⟨decide_eq_true rfl, endsWith_documentPath _ _⟩⟩, rfl⟩
      rw [hnone] at hfile
      cases hfile
    rw [hempty requested haction, List.nil_append] at hfiles
    have hpublished : ∀ m ∈ kept, ∃ p ∈ pubs, PublishedAs m requested p := fun m hm =>
      exists_publishedAs haction (mem_of_mem_withNewDigest hm)
    obtain ⟨read, listed, hperm, hfields, hcandidates⟩ :=
      @FilesystemStore.exists_candidates _ requested after listing kept hdigest hfiles
        fun m hm => by
          obtain ⟨p, -, h⟩ := hpublished m hm
          exact h.storable
    have hsorted := perm_newestTextFirst (fun m : Manifest => m.fields.producedAt.text) read
    refine ⟨newestTextFirst (fun m => m.fields.producedAt.text) read,
      FilesystemStore.asReader_eq_ok.mpr (by rw [hcandidates]; rfl), ?_, ?_⟩
    · intro digest
      refine Iff.trans ?_ (exists_mem_withNewDigest (List.not_mem_nil : digest ∉ []))
      simp only [hsorted.mem_iff]
      constructor
      · rintro ⟨m', hm', hdigest'⟩
        obtain ⟨m, hm, -, heq⟩ := exists_of_forall₂_right hfields hm'
        exact ⟨m, hperm.mem_iff.mp hm, heq ▸ hdigest'⟩
      · rintro ⟨m, hm, hdigest'⟩
        obtain ⟨m', hm', -, heq⟩ := exists_of_forall₂_left hfields (hperm.mem_iff.mpr hm)
        exact ⟨m', hm', heq.trans hdigest'⟩
    · have hsymm : ∀ {a b : Manifest}, TextOrdered a b → TextOrdered b a := fun h =>
        ⟨h.1.symm, fun hmixed => h.2 hmixed.symm⟩
      rw [pairwise_newestTextFirst_iff, ← hperm.pairwise_iff hsymm]
      · refine pairwise_iff_of_fields (fun {a b a' b'} ha hb => ?_) hfields
        simp only [TextOrdered, Manifest.produced, ha, hb]
      · intro m' hm'
        obtain ⟨m, hm, heq, -⟩ := exists_of_forall₂_right hfields hm'
        obtain ⟨p, -, h⟩ := hpublished m (hperm.mem_iff.mp hm)
        rw [Manifest.produced, heq, h.producedAt_text, h.producedAt]
        rfl
  choose! candidates hcandidates using hread
  rw [newestFirst_iff_pairwise hsound fun requested haction =>
    ⟨(hcandidates requested haction).1, (hcandidates requested haction).2.1⟩]
  rw [← @pairwise_published_iff _ action TextOrdered (withNewDigest []) rfl]
  exact forall₂_congr fun requested haction => (hcandidates requested haction).2.2

/-- Stores without a result for an action list the results published for it newest first in these
cases: in memory, when they were published in the order they were produced; on a filesystem, when no
two of those that it keeps (all of them, unless digests collide) were produced at one instant, or in
one second at the start of which exactly one of them was produced. -/
theorem candidates_newestFirst_iff (action : Value) (pubs : List ResultData) :
    (∀ store : MemoryStore,
      (∀ requested, actionDigest action = .ok requested →
        MemoryStore.newestFirst store.results requested = []) →
      (NewestFirst (publishAll MemoryStore.writer action pubs store).view action
          (published action pubs) ↔
        (published action pubs).Pairwise fun a b => a.produced < b.produced)) ∧
    ∀ (store : FilesystemStore) (listing : Listing),
      (∀ requested, actionDigest action = .ok requested →
        filesIn store.actions (digestHex requested) = []) →
      (NewestFirst ((publishAll FilesystemStore.writer action pubs store).view listing) action
          (published action pubs) ↔
        (withNewDigest [] (published action pubs)).Pairwise TextOrdered) :=
  ⟨fun _ hempty => memory_newestFirst_iff pubs hempty,
    fun _ listing hempty => filesystem_newestFirst_iff pubs listing hempty⟩

end

/-! ### Two results of one second -/

/-- A publication without artifacts. -/
def examplePublication (produced : String) : ResultData where
  artifacts := .empty
  producer := lit "producer"
  producedAt := exampleTime produced
  freshUntil := none

/-- The first result is produced at the start of a second, the second one half a second later. -/
def exampleSecond : List ResultData :=
  [examplePublication "2026-01-01T12:00:00Z", examplePublication "2026-01-01T12:00:00.500000Z"]

/-- Among the published results the later one is the second. -/
theorem produced_exampleSecond :
    (@withNewDigest Sha256.standard [] (@published Sha256.standard exampleAction exampleSecond)).map
      Manifest.produced =
        [exampleTime "2026-01-01T12:00:00Z", exampleTime "2026-01-01T12:00:00.500000Z"] := by
  decide +kernel

/-- Published the other way, the later one is the first. -/
theorem produced_exampleSecond_reversed :
    (@published Sha256.standard exampleAction exampleSecond.reverse).map Manifest.produced =
      [exampleTime "2026-01-01T12:00:00.500000Z", exampleTime "2026-01-01T12:00:00Z"] := by
  decide +kernel

/-- Three results, of three seconds. -/
def exampleSeconds : List ResultData :=
  [examplePublication "2026-01-01T12:00:00Z", examplePublication "2026-01-01T12:00:01Z",
    examplePublication "2026-01-01T12:00:02.250000Z"]

/-- When the three results are produced. -/
theorem produced_exampleSeconds :
    (@published Sha256.standard exampleAction exampleSeconds).map Manifest.produced =
      [exampleTime "2026-01-01T12:00:00Z", exampleTime "2026-01-01T12:00:01Z",
        exampleTime "2026-01-01T12:00:02.250000Z"] := by
  decide +kernel

/-- When they are produced, published the other way. -/
theorem produced_exampleSeconds_reversed :
    (@withNewDigest Sha256.standard [] (@published Sha256.standard exampleAction
      exampleSeconds.reverse)).map Manifest.produced =
        [exampleTime "2026-01-01T12:00:02.250000Z", exampleTime "2026-01-01T12:00:01Z",
          exampleTime "2026-01-01T12:00:00Z"] := by
  decide +kernel

/-- Both stores list the three results newest first. In memory they are published in the order in
which they were produced, and on a filesystem in the opposite one. -/
theorem candidates_newestFirst_iff_example :
    @NewestFirst Sha256.standard
      (@publishAll Sha256.standard _ (@MemoryStore.writer Sha256.standard) exampleAction
        exampleSeconds (MemoryStore.empty (lit "local"))).view
      exampleAction (@published Sha256.standard exampleAction exampleSeconds) ∧
    @NewestFirst Sha256.standard
      (@FilesystemStore.view Sha256.standard
        (@publishAll Sha256.standard _ (@FilesystemStore.writer Sha256.standard) exampleAction
          exampleSeconds.reverse (FilesystemStore.empty (lit "local"))) Listing.asWritten)
      exampleAction (@published Sha256.standard exampleAction exampleSeconds.reverse) := by
  constructor
  · refine ((@candidates_newestFirst_iff Sha256.standard _ _).1 _ fun _ _ => rfl).mpr ?_
    rw [← List.pairwise_map, produced_exampleSeconds]
    decide +kernel
  · have hpairs : ((@withNewDigest Sha256.standard [] (@published Sha256.standard exampleAction
        exampleSeconds.reverse)).map Manifest.produced).Pairwise fun a b =>
          a ≠ b ∧ ¬DateTime.MixedSecond a b := by
      rw [produced_exampleSeconds_reversed]
      unfold DateTime.MixedSecond
      decide +kernel
    have hordered : (@withNewDigest Sha256.standard [] (@published Sha256.standard exampleAction
        exampleSeconds.reverse)).Pairwise TextOrdered := by
      rw [List.pairwise_map] at hpairs
      exact hpairs
    exact ((@candidates_newestFirst_iff Sha256.standard _ _).2 _ _ fun _ _ => rfl).mpr hordered

/-- Two results of one second are listed in the wrong order by the store on a filesystem, and in the
wrong order by the store in memory if they are published in that order. -/
theorem not_candidates_newestFirst :
    (exampleSecond.map ResultData.producedAt).Nodup ∧
    ¬@NewestFirst Sha256.standard
      (@FilesystemStore.view Sha256.standard
        (@publishAll Sha256.standard _ (@FilesystemStore.writer Sha256.standard) exampleAction
          exampleSecond (FilesystemStore.empty (lit "local"))) Listing.asWritten)
      exampleAction (@published Sha256.standard exampleAction exampleSecond) ∧
    ¬@NewestFirst Sha256.standard
      (@publishAll Sha256.standard _ (@MemoryStore.writer Sha256.standard) exampleAction
        exampleSecond.reverse (MemoryStore.empty (lit "local"))).view
      exampleAction (@published Sha256.standard exampleAction exampleSecond.reverse) := by
  refine ⟨by decide +kernel, ?_, ?_⟩
  · rw [@filesystem_newestFirst_iff Sha256.standard _ _ _ _ fun _ _ => rfl]
    intro h
    have hmixed : DateTime.MixedSecond (exampleTime "2026-01-01T12:00:00Z")
        (exampleTime "2026-01-01T12:00:00.500000Z") := by
      unfold DateTime.MixedSecond
      decide +kernel
    have hpairs : ((@withNewDigest Sha256.standard []
        (@published Sha256.standard exampleAction exampleSecond)).map Manifest.produced).Pairwise
          fun a b => a ≠ b ∧ ¬DateTime.MixedSecond a b := List.pairwise_map.mpr h
    rw [produced_exampleSecond] at hpairs
    exact ((List.pairwise_cons.mp hpairs).1 _ List.mem_cons_self).2 hmixed
  · rw [@memory_newestFirst_iff Sha256.standard _ _ _ fun _ _ => rfl]
    intro h
    have hlater : exampleTime "2026-01-01T12:00:00Z" <
        exampleTime "2026-01-01T12:00:00.500000Z" := by
      decide +kernel
    have hpairs : ((@published Sha256.standard exampleAction exampleSecond.reverse).map
        Manifest.produced).Pairwise fun a b => a < b := List.pairwise_map.mpr h
    rw [produced_exampleSecond_reversed] at hpairs
    exact absurd ((List.pairwise_cons.mp hpairs).1 _ List.mem_cons_self) (not_lt.mpr hlater.le)

end OnceMesh
