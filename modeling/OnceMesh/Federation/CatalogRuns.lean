import OnceMesh.BlobStore
import OnceMesh.Federation.Advertised
import OnceMesh.Federation.FirstEntry
import OnceMesh.Federation.Transport

/-!
# Runs of a catalog

An origin stores blobs, publishes results and withdraws them. After every run, its catalog
advertises what has been published and not withdrawn since, and serves all of it (`catalog_exact`).
A peer that knows the origin imports the least of the results that are published for its action, if
it admits that one (`imports_iff_least`).
-/

namespace OnceMesh.Federation

open Python

section

variable [Sha256]

/-- The catalog of a peer, with its store. -/
structure Origin (σ : Type) where
  store : σ
  catalog : PublicPeerCatalog

/-- A call on the store or on the catalog. -/
inductive OriginCall where
  | putBlob (data : Bytes)
  | publish (action manifest receipt : Value) (classification : Str)
  | withdraw (resultDigest : Str)

/-- The octets a call stores are of a set. -/
def OriginCall.Stores (stored : Set Bytes) : OriginCall → Prop
  | .putBlob data => data ∈ stored
  | _ => True

variable {σ : Type} [BlobStore σ]

namespace Origin

/-- What the catalog reads of the store. -/
def view (o : Origin σ) : Store := BlobStore.view o.store

/-- An origin with the keys of a catalog, before anything is stored or published. -/
def new (σ : Type) [BlobStore σ] (name : Str) (catalog : PublicPeerCatalog) : Origin σ :=
  ⟨BlobStore.empty name, { catalog with published := .empty }⟩

section

variable [Ed25519]

/-- The call publishes the result. -/
def Publishes (o : Origin σ) (call : OriginCall) (result : Published) : Prop :=
  ∃ action manifest receipt classification,
    call = .publish action manifest receipt classification ∧
    o.catalog.checkPublication o.view action manifest receipt classification = .ok result

/-- The origin after a call. -/
def perform (o : Origin σ) : OriginCall → Origin σ
  | .putBlob data => { o with store := BlobStore.puts.putBlob o.store data }
  | .publish action manifest receipt classification =>
    { o with catalog := (PublicPeerCatalog.publish o.view action manifest receipt
        classification o.catalog).2 }
  | .withdraw resultDigest => { o with catalog := (o.catalog.withdraw resultDigest).2 }

/-- The origin after a run of calls. -/
def performAll (o : Origin σ) (calls : List OriginCall) : Origin σ := calls.foldl perform o

/-- A result with this digest has been published in the run, and not withdrawn since. -/
def Offered (o : Origin σ) (calls : List OriginCall) (resultDigest : Str) : Prop :=
  ∃ before call after result, calls = before ++ call :: after ∧
    (o.performAll before).Publishes call result ∧ result.manifest.digest = resultDigest ∧
    .withdraw resultDigest ∉ after

/-! ### What is published -/

/-- A call publishes a result, withdraws one, or leaves the catalog as it is. -/
theorem catalog_perform (o : Origin σ) (call : OriginCall) :
    (∃ result, o.Publishes call result ∧ (o.perform call).catalog = o.catalog.setPublished result) ∨
    (∃ resultDigest, call = .withdraw resultDigest ∧
      (o.perform call).catalog = (o.catalog.withdraw resultDigest).2) ∨
    (∀ resultDigest, call ≠ .withdraw resultDigest) ∧ (∀ result, ¬o.Publishes call result) ∧
      (o.perform call).catalog = o.catalog := by
  cases call with
  | putBlob data =>
    refine .inr (.inr ⟨(fun _ h => by cases h), fun result h => ?_, rfl⟩)
    obtain ⟨_, _, _, _, hcall, -⟩ := h
    cases hcall
  | withdraw resultDigest => exact .inr (.inl ⟨resultDigest, rfl, rfl⟩)
  | publish action manifest receipt classification =>
    rw [perform, PublicPeerCatalog.publish]
    cases hcheck : o.catalog.checkPublication o.view action manifest receipt
      classification with
    | error e =>
      refine .inr (.inr ⟨(fun _ h => by cases h), fun result h => ?_, rfl⟩)
      obtain ⟨_, _, _, _, hcall, hresult⟩ := h
      cases hcall
      cases hcheck.symm.trans hresult
    | ok result => exact .inl ⟨result, ⟨_, _, _, _, rfl, hcheck⟩, rfl⟩

/-- A call that publishes a result sets it in the catalog. -/
theorem catalog_perform_of_publishes {o : Origin σ} {call : OriginCall} {result : Published}
    (h : o.Publishes call result) : (o.perform call).catalog = o.catalog.setPublished result := by
  obtain ⟨action, manifest, receipt, classification, rfl, hcheck⟩ := h
  rw [perform, PublicPeerCatalog.publish, hcheck]

/-- The last call is performed after the others. -/
theorem performAll_concat (o : Origin σ) (calls : List OriginCall) (call : OriginCall) :
    o.performAll (calls ++ [call]) = (o.performAll calls).perform call := by
  rw [performAll, List.foldl_append]
  rfl

/-- What is offered after one more call. -/
theorem offered_concat {o : Origin σ} {calls : List OriginCall} {call : OriginCall}
    {resultDigest : Str} :
    o.Offered (calls ++ [call]) resultDigest ↔
      (∃ result, (o.performAll calls).Publishes call result ∧
        result.manifest.digest = resultDigest) ∨
      o.Offered calls resultDigest ∧ call ≠ .withdraw resultDigest := by
  constructor
  · rintro ⟨before, published, after, result, hcalls, hresult, hdigest, hafter⟩
    rcases List.eq_nil_or_concat after with rfl | ⟨rest, last, rfl⟩
    · obtain ⟨rfl, hsame⟩ := List.append_inj' hcalls rfl
      cases hsame
      exact .inl ⟨result, hresult, hdigest⟩
    · rw [List.concat_eq_append] at hcalls hafter
      rw [← List.cons_append, ← List.append_assoc] at hcalls
      obtain ⟨rfl, hsame⟩ := List.append_inj' hcalls rfl
      cases hsame
      rw [List.mem_append, not_or, List.mem_singleton] at hafter
      exact .inr ⟨⟨before, published, rest, result, rfl, hresult, hdigest, hafter.1⟩,
        Ne.symm hafter.2⟩
  · rintro (⟨result, hresult, hdigest⟩ | ⟨⟨before, published, after, result, rfl, hresult, hdigest,
      hafter⟩, hcall⟩)
    · exact ⟨calls, call, [], result, rfl, hresult, hdigest, List.not_mem_nil⟩
    · refine ⟨before, published, after ++ [call], result, by simp, hresult, hdigest, ?_⟩
      rw [List.mem_append, not_or, List.mem_singleton]
      exact ⟨hafter, hcall.symm⟩

omit [Ed25519] in
/-- A withdrawal takes the result under its digest away, and leaves the others. -/
theorem get?_withdraw (catalog : PublicPeerCatalog) (resultDigest digest : Str) :
    (catalog.withdraw resultDigest).2.published.get? digest =
      if digest = resultDigest then none else catalog.published.get? digest := by
  apply Option.ext
  intro result
  rw [PublicPeerCatalog.withdraw, Dict.get?_filter_eq_some]
  split_ifs with h
  · simp [h]
  · simp [h]

/-- After a run, what is published is what is offered. -/
theorem isSome_published_iff (σ : Type) [BlobStore σ] (name : Str) (catalog : PublicPeerCatalog)
    (calls : List OriginCall) (resultDigest : Str) :
    (((new σ name catalog).performAll calls).catalog.published.get? resultDigest).isSome = true ↔
      (new σ name catalog).Offered calls resultDigest := by
  induction calls using List.reverseRecOn with
  | nil =>
    refine iff_of_false (by simp [performAll, new]) ?_
    rintro ⟨before, call, after, result, hcalls, -⟩
    cases List.append_eq_nil_iff.mp hcalls.symm |>.2
  | append_singleton calls call ih =>
    rw [offered_concat, ← ih, performAll_concat]
    rcases catalog_perform ((new σ name catalog).performAll calls) call with
      ⟨result, hresult, hcatalog⟩ | ⟨withdrawn, rfl, hcatalog⟩ | ⟨hwithdraw, hnone, hcatalog⟩
    · rw [hcatalog, PublicPeerCatalog.setPublished, Dict.get?_set]
      have honly : ∀ result', ((new σ name catalog).performAll calls).Publishes call result' →
          result' = result := by
        rintro result' ⟨_, _, _, _, rfl, hresult'⟩
        obtain ⟨_, _, _, _, hcall, hresult⟩ := hresult
        cases hcall
        exact Except.ok.inj (hresult'.symm.trans hresult)
      have hcall : call ≠ .withdraw resultDigest := by
        rintro rfl
        obtain ⟨_, _, _, _, hcall, -⟩ := hresult
        cases hcall
      split_ifs with hsame
      · exact iff_of_true rfl (.inl ⟨result, hresult, hsame.symm⟩)
      · refine ⟨fun h => .inr ⟨h, hcall⟩, ?_⟩
        rintro (⟨result', hresult', rfl⟩ | ⟨h, -⟩)
        · exact absurd (by rw [honly result' hresult']) hsame
        · exact h
    · have hpublishes : ∀ result,
          ¬((new σ name catalog).performAll calls).Publishes (.withdraw withdrawn) result := by
        rintro result ⟨_, _, _, _, hcall, -⟩
        cases hcall
      rw [hcatalog, get?_withdraw]
      split_ifs with hsame
      · refine iff_of_false Bool.false_ne_true ?_
        rintro (⟨result, hresult, -⟩ | ⟨-, hne⟩)
        · exact hpublishes result hresult
        · exact hne (by rw [hsame])
      · refine ⟨fun h => .inr ⟨h, fun hcall => hsame ?_⟩, ?_⟩
        · cases hcall
          rfl
        · rintro (⟨result, hresult, -⟩ | ⟨h, -⟩)
          · exact absurd hresult (hpublishes result)
          · exact h
    · rw [hcatalog]
      refine ⟨fun h => .inr ⟨h, hwithdraw _⟩, ?_⟩
      rintro (⟨result, hresult, -⟩ | ⟨h, -⟩)
      · exact absurd hresult (hnone result)
      · exact h

/-! ### What is served -/

/-- What is published is under its digest, with a receipt that the catalog trusts, and its blobs are
there. -/
structure Sound (o : Origin σ) : Prop where
  digest : ∀ e ∈ o.catalog.published.entries, e.1 = e.2.manifest.digest
  receipt : ∀ e ∈ o.catalog.published.entries, ∃ fields keyId publicKey,
    validateReceipt e.2.receipt true = .ok fields ∧ requireKeyId fields = .ok keyId ∧
    o.catalog.receiptKeys.get? keyId = some publicKey ∧
    verifyReceiptForManifest e.2.receipt e.2.manifest publicKey = .ok true
  present : ∀ e ∈ o.catalog.published.entries, ∀ descriptor ∈ e.2.manifest.fields.artifacts,
    ∃ data, o.view.getBlob descriptor.digest = .ok (some data)
  hashed : ∀ digest data, o.view.getBlob digest = .ok (some data) → digestBytes data = digest

/-- What is stored are octets of a set, and what is published has the size it says. -/
structure Intact (o : Origin σ) (stored : Set Bytes) : Prop where
  mem : ∀ digest data, o.view.getBlob digest = .ok (some data) → data ∈ stored
  size : ∀ e ∈ o.catalog.published.entries, ∀ descriptor ∈ e.2.manifest.fields.artifacts,
    ∀ data, o.view.getBlob descriptor.digest = .ok (some data) → data.length = descriptor.size

omit [Ed25519] in
/-- The blobs that `publish` has found. -/
theorem exists_of_checkBlobs {store : Store} {descriptors : List ArtifactDescriptor}
    (h : PublicPeerCatalog.checkBlobs store descriptors = .ok ()) :
    ∀ descriptor ∈ descriptors, ∃ data, store.getBlob descriptor.digest = .ok (some data) ∧
      data.length = descriptor.size ∧ digestBytes data = descriptor.digest := by
  induction descriptors with
  | nil => simp
  | cons descriptor rest ih =>
    obtain ⟨blob, hblob, h⟩ := Except.bind_eq_ok.mp h
    obtain ⟨hfound, h⟩ := Except.check_eq_ok.mp h
    refine List.forall_mem_cons.mpr ⟨?_, ih h⟩
    have hstored : store.getBlob descriptor.digest = .ok blob := mapError_eq_ok.mp hblob
    rw [raiseIf_eq_ok] at hfound
    cases blob with
    | none => cases hfound
    | some data =>
      simp only [Option.all_some, Bool.or_eq_false_iff, decide_eq_false_iff_not, not_not,
        ne_eq] at hfound
      exact ⟨data, hstored, hfound⟩

omit [Ed25519] in
/-- What has been withdrawn is gone, and the rest is as it was. -/
theorem mem_withdraw {catalog : PublicPeerCatalog} {resultDigest : Str} {e : Str × Published}
    (h : e ∈ (catalog.withdraw resultDigest).2.published.entries) :
    e ∈ catalog.published.entries := (List.mem_filter.mp h).1

/-- A result that is published has passed the checks of the catalog. -/
theorem accepted_of_publishes {o : Origin σ} {call : OriginCall} {result : Published}
    (h : o.Publishes call result) : ∃ action manifest receipt,
      PublicPeerCatalog.PublicationAccepted o.catalog o.view action manifest
        receipt result := by
  obtain ⟨_, _, _, _, -, hcheck⟩ := h
  exact ⟨_, _, _, (PublicPeerCatalog.checkPublication_eq_ok.mp hcheck).2⟩

/-- A call that changes the catalog leaves the store. -/
theorem store_perform (o : Origin σ) (call : OriginCall) :
    (∃ data, call = .putBlob data ∧
        o.perform call = { o with store := BlobStore.puts.putBlob o.store data }) ∨
      (o.perform call).view = o.view := by
  cases call with
  | putBlob data => exact .inl ⟨data, rfl, rfl⟩
  | _ => exact .inr rfl

/-- Each call keeps the catalog sound. -/
theorem Sound.perform {o : Origin σ} (h : o.Sound) (call : OriginCall) :
    (o.perform call).Sound := by
  rcases o.store_perform call with ⟨data, rfl, hafter⟩ | hstore
  · rw [hafter]
    refine ⟨h.digest, h.receipt, fun e he descriptor hdescriptor => ?_,
      fun digest found hfound => ?_⟩
    · obtain ⟨found, hfound⟩ := h.present e he descriptor hdescriptor
      exact BlobStore.exists_getBlob hfound data
    · rcases BlobStore.getBlob_putBlob hfound with ⟨hdigest, hsame⟩ | hfound
      · rw [hdigest, hsame]
      · exact h.hashed digest found hfound
  · rcases catalog_perform o call with
      ⟨result, hresult, hcatalog⟩ | ⟨resultDigest, -, hcatalog⟩ | ⟨-, -, hcatalog⟩
    · obtain ⟨_, _, _, haccepted⟩ := accepted_of_publishes hresult
      have hkeys : (o.perform call).catalog.receiptKeys = o.catalog.receiptKeys := by
        rw [hcatalog]
        rfl
      refine ⟨fun e he => ?_, fun e he => ?_, fun e he => ?_, by rw [hstore]; exact h.hashed⟩
      · rw [hcatalog] at he
        rcases mem_setItem he with hmem | rfl
        · exact h.digest e hmem
        · rfl
      · rw [hkeys]
        rw [hcatalog] at he
        rcases mem_setItem he with hmem | rfl
        · exact h.receipt e hmem
        · show ∃ fields keyId publicKey, validateReceipt result.receipt true = _ ∧ _
          rw [haccepted.sameReceipt]
          exact haccepted.trusted
      · rw [hstore]
        rw [hcatalog] at he
        rcases mem_setItem he with hmem | rfl
        · exact h.present e hmem
        · intro descriptor hdescriptor
          obtain ⟨data, hdata, -⟩ := exists_of_checkBlobs haccepted.blobs descriptor hdescriptor
          exact ⟨data, hdata⟩
    · refine ⟨?_, ?_, ?_, by rw [hstore]; exact h.hashed⟩ <;> rw [hcatalog]
      · exact fun e he => h.digest e (mem_withdraw he)
      · exact fun e he => h.receipt e (mem_withdraw he)
      · rw [hstore]
        exact fun e he => h.present e (mem_withdraw he)
    · refine ⟨?_, ?_, ?_, by rw [hstore]; exact h.hashed⟩ <;> rw [hcatalog]
      · exact h.digest
      · exact h.receipt
      · rw [hstore]
        exact h.present

/-- Any calls keep the catalog sound. -/
theorem Sound.performAll {o : Origin σ} (h : o.Sound) (calls : List OriginCall) :
    (o.performAll calls).Sound := by
  induction calls generalizing o with
  | nil => exact h
  | cons call rest ih => exact ih (h.perform call)

/-- A new catalog is sound. -/
theorem sound_new (σ : Type) [BlobStore σ] (name : Str) (catalog : PublicPeerCatalog) :
    (new σ name catalog).Sound where
  digest e he := by cases he
  receipt e he := by cases he
  present e he := by cases he
  hashed digest data h := absurd h (BlobStore.getBlob_empty name digest data)

/-- If no two of the octets that are stored have one digest, sizes stay as they are. -/
theorem Intact.perform {o : Origin σ} {stored : Set Bytes} (h : o.Intact stored) (hsound : o.Sound)
    (hinjective : Set.InjOn digestBytes stored) {call : OriginCall} (hcall : call.Stores stored) :
    (o.perform call).Intact stored := by
  rcases o.store_perform call with ⟨data, rfl, hafter⟩ | hstore
  · rw [hafter]
    refine ⟨fun digest found hfound => ?_, fun e he descriptor hdescriptor found hfound => ?_⟩
    · rcases BlobStore.getBlob_putBlob hfound with ⟨-, rfl⟩ | hfound
      · exact hcall
      · exact h.mem digest found hfound
    · rcases BlobStore.getBlob_putBlob hfound with ⟨hdigest, rfl⟩ | hfound
      · -- there were octets with this digest already, and they are the same
        obtain ⟨before, hbefore⟩ := hsound.present e he descriptor hdescriptor
        have hsame : before = found := by
          refine hinjective (h.mem _ _ hbefore) hcall ?_
          rw [hsound.hashed _ _ hbefore, hdigest]
        exact hsame ▸ h.size e he descriptor hdescriptor before hbefore
      · exact h.size e he descriptor hdescriptor found hfound
  · refine ⟨by rw [hstore]; exact h.mem, fun e he descriptor hdescriptor data hdata => ?_⟩
    rw [hstore] at hdata
    rcases catalog_perform o call with
      ⟨result, hresult, hcatalog⟩ | ⟨resultDigest, -, hcatalog⟩ | ⟨-, -, hcatalog⟩
    · rw [hcatalog] at he
      rcases mem_setItem he with hmem | rfl
      · exact h.size e hmem descriptor hdescriptor data hdata
      · obtain ⟨_, _, _, haccepted⟩ := accepted_of_publishes hresult
        obtain ⟨found, hfound, hsize, -⟩ :=
          exists_of_checkBlobs haccepted.blobs descriptor hdescriptor
        cases hfound.symm.trans hdata
        exact hsize
    · rw [hcatalog] at he
      exact h.size e (mem_withdraw he) descriptor hdescriptor data hdata
    · rw [hcatalog] at he
      exact h.size e he descriptor hdescriptor data hdata

/-- Without collisions, any calls keep the blobs of the published results. -/
theorem Intact.performAll {o : Origin σ} {stored : Set Bytes} (h : o.Intact stored)
    (hsound : o.Sound) (hinjective : Set.InjOn digestBytes stored) {calls : List OriginCall}
    (hcalls : ∀ call ∈ calls, call.Stores stored) : (o.performAll calls).Intact stored := by
  induction calls generalizing o with
  | nil => exact h
  | cons call rest ih =>
    rw [List.forall_mem_cons] at hcalls
    exact ih (h.perform hsound hinjective hcalls.1) (hsound.perform call) hcalls.2

omit [Ed25519] in
/-- A new catalog has no blobs to keep. -/
theorem intact_new (σ : Type) [BlobStore σ] (name : Str) (catalog : PublicPeerCatalog)
    (stored : Set Bytes) :
    (new σ name catalog).Intact stored where
  mem digest data h := absurd h (BlobStore.getBlob_empty name digest data)
  size e he := by cases he

/-- What is published can be fetched, with the blobs of its descriptors. -/
theorem Sound.exists_fetchBundle {o : Origin σ} (h : o.Sound) {e : Str × Published}
    (he : e ∈ o.catalog.published.entries) :
    ∃ bundle, o.catalog.fetchBundle o.view e.1 = .ok (some bundle) ∧
      bundle.manifest = e.2.manifest.document ∧ bundle.receipt = e.2.receipt ∧
      bundle.artifacts.entries.map Prod.fst =
        e.2.manifest.fields.artifacts.map ArtifactDescriptor.name ∧
      ∀ descriptor ∈ e.2.manifest.fields.artifacts, ∃ data,
        bundle.artifacts.get? descriptor.name = some data ∧
          o.view.getBlob descriptor.digest = .ok (some data) := by
  have hget : o.catalog.published.get? e.1 = some e.2 := Dict.mem_entries_iff.mp he
  obtain ⟨bundle, hbundle⟩ :
      ∃ bundle, o.catalog.fetchBundle o.view e.1 = .ok (some bundle) := by
    obtain ⟨artifacts, hartifacts⟩ := exists_forall₂_iff.mpr fun descriptor hdescriptor => by
      obtain ⟨data, hdata⟩ := h.present e he descriptor hdescriptor
      exact (⟨(descriptor.name, data), rfl, hdata⟩ : ∃ artifact : Str × Bytes,
        artifact.1 = descriptor.name ∧ o.view.getBlob descriptor.digest = .ok (some artifact.2))
    have hblobs : (e.2.manifest.fields.artifacts.mapM fun descriptor => do
        let blob ← PublicPeerCatalog.readBlob o.view descriptor.digest
        pure (blob.map fun data => (descriptor.name, data))) = .ok (artifacts.map some) := by
      refine Except.mapM_eq_ok.mpr (List.forall₂_map_right_iff.mpr (hartifacts.imp ?_))
      rintro descriptor ⟨name, data⟩ ⟨rfl, hdata⟩
      have hread : PublicPeerCatalog.readBlob o.view descriptor.digest = .ok (some data) :=
        mapError_eq_ok.mpr hdata
      rw [hread]
      rfl
    refine ⟨⟨e.2.manifest.document, e.2.receipt, .ofPairs artifacts⟩, ?_⟩
    rw [PublicPeerCatalog.fetchBundle, hget]
    dsimp only
    rw [hblobs, Except.ok_bind, PublicPeerCatalog.mapM_id_eq_some.mpr rfl]
    rfl
  obtain ⟨result, hresult, hmanifest, hreceipt, hblobs⟩ :=
    PublicPeerCatalog.exists_published_of_fetchBundle hbundle
  obtain rfl := Option.some.inj (hresult.symm.trans hget)
  refine ⟨bundle, hbundle, hmanifest, hreceipt, PublicPeerCatalog.names_of_fetchBundle hblobs,
    fun descriptor hdescriptor => ?_⟩
  obtain ⟨artifact, hartifact, hname, hdata⟩ := exists_of_forall₂_left hblobs hdescriptor
  exact ⟨artifact.2, hname ▸ Dict.mem_entries_iff.mp hartifact, hdata⟩

/-- The configuration of a catalog stays. -/
structure SameKeys (catalog catalog' : PublicPeerCatalog) : Prop where
  peerId : catalog'.peerId = catalog.peerId
  seed : catalog'.seed = catalog.seed
  receiptKeys : catalog'.receiptKeys = catalog.receiptKeys

/-- No call changes the keys of the catalog. -/
theorem sameKeys_performAll (σ : Type) [BlobStore σ] (name : Str) (catalog : PublicPeerCatalog)
    (calls : List OriginCall) :
    SameKeys catalog ((new σ name catalog).performAll calls).catalog := by
  induction calls using List.reverseRecOn with
  | nil => exact ⟨rfl, rfl, rfl⟩
  | append_singleton calls call ih =>
    rw [performAll_concat]
    rcases catalog_perform ((new σ name catalog).performAll calls) call with
      ⟨result, -, hcatalog⟩ | ⟨resultDigest, -, hcatalog⟩ | ⟨-, -, hcatalog⟩
    all_goals
      rw [hcatalog]
      exact ⟨ih.peerId, ih.seed, ih.receiptKeys⟩

/-- What can be fetched is what is published, and fetching it does not raise. -/
theorem Sound.fetchBundle {o : Origin σ} (h : o.Sound) (resultDigest : Str) :
    ((∃ bundle, o.catalog.fetchBundle o.view resultDigest = .ok (some bundle)) ↔
        (o.catalog.published.get? resultDigest).isSome = true) ∧
      (o.catalog.fetchBundle o.view resultDigest = .ok none ↔
        ¬(o.catalog.published.get? resultDigest).isSome = true) := by
  cases hresult : o.catalog.published.get? resultDigest with
  | none =>
    have hnone : o.catalog.fetchBundle o.view resultDigest = .ok none := by
      rw [PublicPeerCatalog.fetchBundle, hresult]
    simp [hnone]
  | some result =>
    obtain ⟨bundle, hbundle, -⟩ := h.exists_fetchBundle (Dict.mem_entries_iff.mpr hresult)
    simp [hbundle]

end

section

variable [LocalZone] [Ed25519Signing]

omit [LocalZone] [Ed25519Signing] in
/-- The digests of the results that are advertised. -/
theorem mem_advertised {catalog : PublicPeerCatalog} {now : DateTime}
    {signature : Option (Str × Bytes)} {resultDigest : Str} :
    resultDigest ∈ (catalog.advertised now signature).entries.map AvailabilityEntry.resultDigest ↔
      (catalog.published.get? resultDigest).isSome = true := by
  simp only [PublicPeerCatalog.advertised, List.map_map, List.mem_map, Function.comp_apply,
    PublicPeerCatalog.mem_listed, Option.isSome_iff_exists]
  constructor
  · rintro ⟨e, he, rfl⟩
    exact ⟨e.2, Dict.mem_entries_iff.mp he⟩
  · rintro ⟨result, hresult⟩
    exact ⟨(resultDigest, result), Dict.mem_entries_iff.mpr hresult, rfl⟩

/-- After every run a catalog advertises what has been published and not withdrawn since, once, in
order and under its key, and serves it: there is a manifest just if canonical JSON stores the name
of the peer and the numbers of octets. -/
theorem catalog_exact (name : Str) (catalog : PublicPeerCatalog) (calls : List OriginCall)
    (now : DateTime) :
    ((∃ document, ((new σ name catalog).performAll calls).catalog.availability now = .ok document) ↔
      Clean catalog.peerId ∧
        ∀ resultDigest result,
          ((new σ name catalog).performAll calls).catalog.published.get? resultDigest =
            some result →
            totalSize result.manifest.fields.artifacts ≤ 2 ^ 53 - 1) ∧
    (∀ document, ((new σ name catalog).performAll calls).catalog.availability now = .ok document →
      verifyAvailability document catalog.peerId (Ed25519Signing.publicKey catalog.seed) =
        .ok true ∧
      ∃ fields, validateAvailability document true = .ok fields ∧ fields.peerId = catalog.peerId ∧
        fields.generatedAt = now ∧
        (fields.entries.map AvailabilityEntry.identity).Pairwise identityLE ∧
        (fields.entries.map AvailabilityEntry.resultDigest).Nodup ∧
        ∀ resultDigest, resultDigest ∈ fields.entries.map AvailabilityEntry.resultDigest ↔
          (new σ name catalog).Offered calls resultDigest) ∧
    ∀ resultDigest,
      ((∃ bundle, ((new σ name catalog).performAll calls).catalog.fetchBundle
          ((new σ name catalog).performAll calls).view resultDigest = .ok (some bundle)) ↔
        (new σ name catalog).Offered calls resultDigest) ∧
      (((new σ name catalog).performAll calls).catalog.fetchBundle
          ((new σ name catalog).performAll calls).view resultDigest = .ok none ↔
        ¬(new σ name catalog).Offered calls resultDigest) := by
  have hsound := (sound_new σ name catalog).performAll calls
  obtain ⟨hpeer, hseed, -⟩ := sameKeys_performAll σ name catalog calls
  have hoffered := isSome_published_iff σ name catalog calls
  generalize (new σ name catalog).performAll calls = o at hsound hpeer hseed hoffered ⊢
  refine ⟨?_, fun document hdocument => ?_, fun resultDigest => ?_⟩
  · rw [← hpeer]
    constructor
    · rintro ⟨document, hdocument⟩
      obtain ⟨⟨hclean, hsizes⟩, -⟩ :=
        (PublicPeerCatalog.availability_eq_ok hsound.digest).mp hdocument
      refine ⟨hclean, fun resultDigest result hresult => ?_⟩
      exact hsizes (resultDigest, result) (Dict.mem_entries_iff.mpr hresult)
    · rintro ⟨hclean, hsizes⟩
      refine ⟨_, (PublicPeerCatalog.availability_eq_ok hsound.digest).mpr ⟨⟨hclean, ?_⟩, rfl⟩⟩
      exact fun e he => hsizes e.1 e.2 (Dict.mem_entries_iff.mp he)
  · obtain ⟨hvalid, -, hverified⟩ :=
      PublicPeerCatalog.advertised_of_availability hsound.digest hdocument
    rw [hpeer, hseed] at hverified
    refine ⟨hverified, _, hvalid, hpeer, rfl, ?_, ?_, fun resultDigest => ?_⟩
    · rw [PublicPeerCatalog.advertised, List.map_map]
      exact PublicPeerCatalog.pairwise_listed o.catalog
    · rw [PublicPeerCatalog.advertised, List.map_map]
      have hperm :
        (o.catalog.listed.map Prod.fst).Perm (o.catalog.published.entries.map Prod.fst) :=
        (List.perm_insertionSort _ _).map _
      exact hperm.nodup_iff.mpr o.catalog.published.nodup
    · rw [mem_advertised, hoffered]
  · rw [← hoffered]
    exact hsound.fetchBundle resultDigest

/-! ### What is imported -/

/-- A peer knows an origin: its name, and the keys of its manifests and of its receipts. -/
structure Trusts (config : FederationPeerConfig) (catalog : PublicPeerCatalog) : Prop where
  peerId : config.peerId = catalog.peerId
  availabilityKey : config.availabilityPublicKey = Ed25519Signing.publicKey catalog.seed
  receiptKeys : ∀ keyId publicKey, catalog.receiptKeys.get? keyId = some publicKey →
    config.receiptPublicKeys.get? keyId = some publicKey

/-- A peer admits a published result: its operation is the one of the action and allowed, its
producer is trusted, and it is within the limits. -/
structure Admits (config : FederationPeerConfig) (action : Value) (e : Str × Published) : Prop where
  entry : EntryAccepted config action (PublicPeerCatalog.entryOf e)
  producer : e.2.manifest.fields.producer ∈ config.trustedProducers
  size : ∀ descriptor ∈ e.2.manifest.fields.artifacts, descriptor.size ≤ config.maxArtifactBytes

omit [LocalZone] in
/-- What a peer fetches from an origin passes every check but those of its own limits. -/
theorem bundleAccepted_iff {o : Origin σ} {stored : Set Bytes} (hsound : o.Sound)
    (hintact : o.Intact stored) {config : FederationPeerConfig} (htrusts : Trusts config o.catalog)
    {e : Str × Published} (he : e ∈ o.catalog.published.entries) {bundle : FederationBundle}
    (hbundle : o.catalog.fetchBundle o.view e.1 = .ok (some bundle)) :
    (∃ manifest, BundleAccepted config e.2.manifest.fields.actionDigest
      (PublicPeerCatalog.entryOf e)
        bundle manifest) ↔
      e.2.manifest.fields.producer ∈ config.trustedProducers ∧
        ∀ descriptor ∈ e.2.manifest.fields.artifacts, descriptor.size ≤
          config.maxArtifactBytes := by
  obtain ⟨bundle', hbundle', hmanifest, hreceipt, hnames, hblobs⟩ := hsound.exists_fetchBundle he
  obtain rfl := Option.some.inj (Except.ok.inj (hbundle'.symm.trans hbundle))
  constructor
  · rintro ⟨manifest, haccepted⟩
    obtain rfl : manifest = e.2.manifest :=
      Manifest.ext_document (haccepted.document.trans hmanifest)
    refine ⟨haccepted.producer, fun descriptor hdescriptor => ?_⟩
    obtain ⟨blob, -, hlimit, hsize, -⟩ := haccepted.artifacts descriptor hdescriptor
    exact hsize ▸ hlimit
  · rintro ⟨hproducer, hlimits⟩
    obtain ⟨fields, keyId, publicKey, hfields, hkeyId, hkey, hverified⟩ := hsound.receipt e he
    obtain ⟨signature, hsignature⟩ := requireKeyId_eq_ok.mp hkeyId
    refine ⟨e.2.manifest, hmanifest.symm, e.2.federated, (hsound.digest e he).symm, rfl, hproducer,
      ?_, fun name => by rw [hnames], fun descriptor hdescriptor => ?_, rfl⟩
    · rw [hreceipt]
      exact ⟨fields, keyId, signature, publicKey, hfields, hsignature,
        htrusts.receiptKeys keyId publicKey hkey, hverified⟩
    · obtain ⟨data, hdata, hstored⟩ := hblobs descriptor hdescriptor
      have hsize := hintact.size e he descriptor hdescriptor data hstored
      exact ⟨data, hdata, hsize ▸ hlimits descriptor hdescriptor, hsize,
        hsound.hashed _ _ hstored⟩

/-- The window of a peer, and the end of a lease, are times. -/
structure InTime (config : FederationPeerConfig) (observedAt : DateTime) : Prop where
  oldest : ∃ oldest, observedAt.addSeconds (-config.maxAvailabilityAgeSeconds) = .ok oldest
  newest : ∃ newest, observedAt.addSeconds config.maxFutureClockSkewSeconds = .ok newest
  lease : ∃ retainUntil, observedAt.addSeconds config.retentionSeconds = .ok retainUntil

omit [LocalZone] [Ed25519Signing] in
/-- The first of the results for an action is the one with the least digest. -/
theorem find?_listed {catalog : PublicPeerCatalog} {requested : Str} {e : Str × Published} :
    (catalog.listed.find? fun e => e.2.manifest.fields.actionDigest = requested) = some e ↔
      e ∈ catalog.published.entries ∧ e.2.manifest.fields.actionDigest = requested ∧
        ∀ f ∈ catalog.published.entries, f.2.manifest.fields.actionDigest = requested →
          e.1 ≤ f.1 := by
  have hleast : ∀ e, (catalog.listed.find? fun e =>
      e.2.manifest.fields.actionDigest = requested) = some e →
        e ∈ catalog.published.entries ∧ e.2.manifest.fields.actionDigest = requested ∧
          ∀ f ∈ catalog.published.entries, f.2.manifest.fields.actionDigest = requested →
            e.1 ≤ f.1 := by
    intro e he
    have hfor : e.2.manifest.fields.actionDigest = requested := by simpa using List.find?_some he
    refine ⟨PublicPeerCatalog.mem_listed.mp (List.mem_of_find?_eq_some he), hfor,
      fun f hf hrequested => ?_⟩
    obtain ⟨-, before, after, hlisted, hbefore⟩ := List.find?_eq_some_iff_append.mp he
    have hordered := List.pairwise_map.mp (PublicPeerCatalog.pairwise_listed catalog)
    have hmem := PublicPeerCatalog.mem_listed.mpr hf
    rw [hlisted] at hordered hmem
    -- it is not before the first one
    rcases List.mem_append.mp hmem with hmem | hmem
    · exact absurd hrequested (by simpa using hbefore f hmem)
    · rcases List.mem_cons.mp hmem with rfl | hmem
      · exact le_rfl
      · have hle := (List.pairwise_cons.mp (List.pairwise_append.mp hordered).2.1).1 f hmem
        rcases hle with hlt | ⟨-, hle⟩
        · exact absurd (hfor.trans hrequested.symm) (ne_of_lt hlt)
        · exact hle
  refine ⟨hleast e, fun h => ?_⟩
  obtain ⟨he, hfor, hsmallest⟩ := h
  cases hfound : catalog.listed.find? fun e => e.2.manifest.fields.actionDigest = requested with
  | none =>
    have hnone := List.find?_eq_none.mp hfound e (PublicPeerCatalog.mem_listed.mpr he)
    exact absurd hfor (by simpa using hnone)
  | some f =>
    obtain ⟨hf, hfor', hleast⟩ := hleast f hfound
    have hsame : f.1 = e.1 := le_antisymm (hleast e he hfor) (hsmallest f hf hfor')
    have hresult : f.2 = e.2 := by
      have hget := Dict.mem_entries_iff.mp hf
      rw [hsame] at hget
      exact Option.some.inj (hget.symm.trans (Dict.mem_entries_iff.mp he))
    rw [Prod.ext hsame hresult]

/-- What a peer accepts of an origin is what the origin advertises, within the limits. -/
theorem availabilityAccepted_iff {o : Origin σ} (hsound : o.Sound) {config : FederationPeerConfig}
    (htrusts : Trusts config o.catalog) {observedAt : DateTime} {document : Value}
    (hdocument : o.catalog.availability observedAt = .ok document) {fields : AvailabilityFields} :
    AvailabilityAccepted config observedAt document fields ↔
      fields = o.catalog.advertised observedAt
        (some (o.catalog.keyId, o.catalog.signatureBytes observedAt)) ∧
      o.catalog.published.entries.length ≤ config.maxEntries ∧
      (∃ oldest, observedAt.addSeconds (-config.maxAvailabilityAgeSeconds) = .ok oldest) ∧
      ∃ newest, observedAt.addSeconds config.maxFutureClockSkewSeconds = .ok newest := by
  obtain ⟨hvalid, -, hverified⟩ :=
    PublicPeerCatalog.advertised_of_availability hsound.digest hdocument
  have hlength : (o.catalog.advertised observedAt
      (some (o.catalog.keyId, o.catalog.signatureBytes observedAt))).entries.length =
        o.catalog.published.entries.length := by
    rw [PublicPeerCatalog.advertised, List.length_map]
    exact (List.perm_insertionSort _ _).length_eq
  constructor
  · intro h
    obtain rfl := Except.ok.inj (hvalid.symm.trans h.valid)
    obtain ⟨oldest, holdest, -⟩ := h.recent
    obtain ⟨newest, hnewest, -⟩ := h.notAhead
    exact ⟨rfl, hlength ▸ h.limit, ⟨oldest, holdest⟩, newest, hnewest⟩
  · rintro ⟨rfl, hlimit, ⟨oldest, holdest⟩, newest, hnewest⟩
    -- the manifest is made at the time of the import
    have hbefore : oldest ≤ observedAt := by
      have := DateTime.addSeconds_eq_ok.mp holdest
      rw [DateTime.le_def]
      omega
    have hafter : observedAt ≤ newest := by
      have := DateTime.addSeconds_eq_ok.mp hnewest
      rw [DateTime.le_def]
      omega
    refine ⟨hvalid, hlength ▸ hlimit, ?_, ⟨oldest, holdest, hbefore⟩, newest, hnewest, hafter⟩
    rw [htrusts.peerId, htrusts.availabilityKey]
    exact hverified

/-- An import succeeds just if there is something to import and the end of its lease is a time. -/
theorem imports_iff_admission {action : Value} {peer : FederationPeer}
    {config : FederationPeerConfig}
    {observedAt : DateTime} {cache : FederationCacheStore} {resultDigest : Str} :
    Imports action peer config observedAt cache resultDigest ↔ ∃ entry bundle total retainUntil,
      admission action peer config observedAt = .ok (entry, bundle, total) ∧
        observedAt.addSeconds config.retentionSeconds = .ok retainUntil ∧
        entry.resultDigest = resultDigest := by
  constructor
  · rintro ⟨outcome, cache', himport, hhit, hresult⟩
    obtain ⟨entry, bundle, total, retainUntil, hadmission, hlease, rfl⟩ :=
      exists_admission_of_hit himport hhit
    exact ⟨entry, bundle, total, retainUntil, hadmission, hlease, Option.some.inj hresult⟩
  · rintro ⟨entry, bundle, total, retainUntil, hadmission, hlease, rfl⟩
    obtain ⟨_, -, himport⟩ := importFromPeer_of_admission hadmission hlease cache
    exact ⟨_, _, himport, rfl, rfl⟩

/-- An import from an origin succeeds just if the origin answers, within the limits of the peer, and
the least of the results that are published for the action is admitted; it is the one imported. -/
theorem imports_iff_least {stored : Set Bytes} (hinjective : Set.InjOn digestBytes stored)
    {calls : List OriginCall} (hcalls : ∀ call ∈ calls, call.Stores stored) (name : Str)
    (catalog : PublicPeerCatalog) {config : FederationPeerConfig} (htrusts : Trusts config catalog)
    (action : Value) (observedAt : DateTime) (cache : FederationCacheStore) (resultDigest : Str) :
    Imports action (((new σ name catalog).performAll calls).catalog.toPeer
        ((new σ name catalog).performAll calls).view) config observedAt cache resultDigest ↔
      (∃ document,
        ((new σ name catalog).performAll calls).catalog.availability observedAt = .ok document) ∧
      ((new σ name catalog).performAll calls).catalog.published.entries.length ≤ config.maxEntries ∧
      InTime config observedAt ∧
      ∃ requested e, actionDigest action = .ok requested ∧
        e ∈ ((new σ name catalog).performAll calls).catalog.published.entries ∧
        e.1 = resultDigest ∧ e.2.manifest.fields.actionDigest = requested ∧
        (∀ f ∈ ((new σ name catalog).performAll calls).catalog.published.entries,
          f.2.manifest.fields.actionDigest = requested → resultDigest ≤ f.1) ∧
        Admits config action e := by
  have hsound := (sound_new σ name catalog).performAll calls
  have hintact :=
    (intact_new σ name catalog stored).performAll (sound_new σ name catalog) hinjective hcalls
  have htrusts : Trusts config ((new σ name catalog).performAll calls).catalog := by
    obtain ⟨hpeer, hseed, hreceiptKeys⟩ := sameKeys_performAll σ name catalog calls
    refine ⟨hpeer ▸ htrusts.peerId, hseed ▸ htrusts.availabilityKey, ?_⟩
    rw [hreceiptKeys]
    exact htrusts.receiptKeys
  generalize (new σ name catalog).performAll calls = o at hsound hintact htrusts ⊢
  have hfind : ∀ requested, ((o.catalog.advertised observedAt
      (some (o.catalog.keyId, o.catalog.signatureBytes observedAt))).entries.find? fun entry =>
        entry.actionDigest = requested) = (o.catalog.listed.find? fun e =>
          e.2.manifest.fields.actionDigest = requested).map PublicPeerCatalog.entryOf :=
    fun requested => List.find?_map
  simp only [imports_iff_admission, admission_eq_ok]
  constructor
  · rintro ⟨_, bundle, total, retainUntil, ⟨document, fields, requested, manifest, hdocument,
      haccepted, hrequested, hfirst, hentry, hfetch, hbundle, -⟩, hlease, rfl⟩
    obtain ⟨rfl, hlimit, holdest, hnewest⟩ :=
      (availabilityAccepted_iff hsound htrusts hdocument).mp haccepted
    rw [hfind] at hfirst
    obtain ⟨e, hlisted, rfl⟩ := Option.map_eq_some_iff.mp hfirst
    obtain ⟨he, hfor, hleast⟩ := find?_listed.mp hlisted
    obtain ⟨hproducer, hsizes⟩ := (bundleAccepted_iff hsound hintact htrusts he hfetch).mp
      ⟨manifest, hfor ▸ hbundle⟩
    exact ⟨⟨document, hdocument⟩, hlimit, ⟨holdest, hnewest, retainUntil, hlease⟩, requested, e,
      hrequested, he, rfl, hfor, hleast, hentry, hproducer, hsizes⟩
  · rintro ⟨⟨document, hdocument⟩, hlimit, ⟨holdest, hnewest, retainUntil, hlease⟩, requested, e,
      hrequested, he, rfl, hfor, hleast, hadmits⟩
    obtain ⟨bundle, hfetch, -⟩ := hsound.exists_fetchBundle he
    obtain ⟨manifest, hbundle⟩ := (bundleAccepted_iff hsound hintact htrusts he hfetch).mpr
      ⟨hadmits.producer, hadmits.size⟩
    refine ⟨PublicPeerCatalog.entryOf e, bundle, _, retainUntil, ⟨document, _, requested, manifest,
      hdocument, (availabilityAccepted_iff hsound htrusts hdocument).mpr ⟨rfl, hlimit, holdest,
        hnewest⟩, hrequested, ?_, hadmits.entry, hfetch, hfor ▸ hbundle, rfl⟩, hlease, rfl⟩
    rw [hfind, find?_listed.mpr ⟨he, hfor, hleast⟩, Option.map_some]

end

end Origin

end

/-! ### A result is published and imported -/

namespace Example

attribute [local instance] zone Sha256.standard ed25519Signing

/-- The artifact is stored, the served result is published, and another one is withdrawn. -/
def originCalls : List OriginCall :=
  [.putBlob blob, .publish action manifest receipt (lit "public"), .withdraw withdrawnDigest]

/-- The origin after these calls. -/
def origin : Origin MemoryStore := (Origin.new MemoryStore (lit "m") catalog).performAll originCalls

/-- Nothing else is stored. -/
theorem stores_originCalls : ∀ call ∈ originCalls, call.Stores {blob} := by
  simp [originCalls, OriginCall.Stores]

/-- The receiver has the keys of the peer. -/
theorem trusts_config : Origin.Trusts config catalog := ⟨rfl, rfl, fun _ _ h => h⟩

/-- The times of the receiver can be computed at the moment of the manifest. -/
theorem inTime_config : Origin.InTime config observedAt := by
  obtain ⟨⟨oldest, holdest, -⟩, newest, hnewest, -⟩ := inWindow
  exact ⟨⟨oldest, holdest⟩, ⟨newest, hnewest⟩, exists_lease⟩

/-- What is published: the served result, for the action. -/
theorem exists_served : ∃ e, origin.catalog.published.entries = [e] ∧ e.1 = servedDigest ∧
    e.2.action = action ∧ e.2.manifest.document = manifest := by
  obtain ⟨result, hcheck, hdigest⟩ := exists_checkPublication
  obtain ⟨haction, hmanifest, -⟩ := PublicPeerCatalog.documents_of_checkPublication hcheck
  -- the state in which the result is published
  obtain ⟨stored, hstored⟩ : ∃ stored,
    stored = (Origin.new MemoryStore (lit "m") catalog).perform (.putBlob blob) :=
    ⟨_, rfl⟩
  have hpublishes : stored.Publishes (.publish action manifest receipt (lit "public")) result := by
    have hnew : stored.catalog = catalog := by
      rw [hstored]
      rfl
    have hstore : stored.view = peerStore := by
      rw [hstored]
      rfl
    refine ⟨_, _, _, _, rfl, ?_⟩
    rw [hnew, hstore]
    exact hcheck
  have hpublished := Origin.catalog_perform_of_publishes hpublishes
  have hother : servedDigest ≠ withdrawnDigest := by decide +kernel
  refine ⟨(servedDigest, result), ?_, rfl, haction, hmanifest⟩
  have horigin : origin.catalog = ((stored.perform
      (.publish action manifest receipt (lit "public"))).catalog.withdraw withdrawnDigest).2 := by
    -- what is published is not computed again
    rw [origin, originCalls, Origin.performAll, List.foldl_cons, List.foldl_cons, List.foldl_cons,
      List.foldl_nil, ← hstored]
    rfl
  have hentries : (stored.catalog.setPublished result).published.entries =
      [(result.manifest.digest, result)] := by
    rw [hstored]
    rfl
  rw [horigin, hpublished, PublicPeerCatalog.withdraw, Dict.filter]
  dsimp only
  rw [hentries, hdigest, List.filter_singleton, decide_eq_true hother]
  rfl

/-- The origin signs a manifest. -/
theorem exists_availability :
    ∃ document, origin.catalog.availability observedAt = .ok document := by
  obtain ⟨e, hentries, -, -, hmanifest⟩ := exists_served
  obtain ⟨-, -, hartifacts⟩ := fields_of_document hmanifest
  have hsound : origin.Sound := (Origin.sound_new _ (lit "m") catalog).performAll originCalls
  have hpeer : origin.catalog.peerId = lit "m" :=
    (Origin.sameKeys_performAll _ (lit "m") catalog originCalls).peerId
  refine ⟨_, (PublicPeerCatalog.availability_eq_ok hsound.digest).mpr ⟨⟨hpeer ▸ clean_lit _, ?_⟩,
    rfl⟩⟩
  intro f hf
  rw [hentries, List.mem_singleton] at hf
  rw [hf, totalSize, hartifacts]
  decide

end Example

open Example

attribute [local instance] zone Sha256.standard ed25519Signing

/-- The served result is imported from the origin. -/
theorem imports_iff_least_served :
    Imports action (origin.catalog.toPeer origin.view) config observedAt .empty
      servedDigest := by
  obtain ⟨e, hentries, hdigest, haction, hmanifest⟩ := exists_served
  obtain ⟨hrequested, hproducer, hartifacts⟩ := fields_of_document hmanifest
  have hentry : EntryAccepted config action (PublicPeerCatalog.entryOf e) := by
    have hread : PublicPeerCatalog.entryOf e = readEntry servedDigest := by
      rw [PublicPeerCatalog.entryOf, hrequested, hdigest, haction, totalSize, hartifacts]
      rfl
    exact hread ▸ entryAccepted servedDigest
  refine (Origin.imports_iff_least (Set.injOn_singleton _ _) stores_originCalls (lit "m") catalog
    trusts_config action observedAt .empty servedDigest).mpr ⟨exists_availability, ?_,
      inTime_config,
      requestedDigest, e, actionDigest_action, ?_, hdigest, hrequested, ?_, hentry, ?_, ?_⟩
  · show origin.catalog.published.entries.length ≤ 1000
    rw [hentries, List.length_singleton]
    decide
  · show e ∈ origin.catalog.published.entries
    rw [hentries]
    exact List.mem_singleton_self e
  · show ∀ f ∈ origin.catalog.published.entries, _
    rw [hentries]
    intro f hf _
    rw [List.mem_singleton.mp hf, hdigest]
  · rw [hproducer]
    exact List.mem_singleton_self _
  · intro descriptor hdescriptor
    rw [hartifacts, List.mem_singleton] at hdescriptor
    rw [hdescriptor]
    decide

end OnceMesh.Federation
