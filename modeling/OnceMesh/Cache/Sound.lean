import OnceMesh.Cache.ReadFailures

/-!
# Lookups that do not raise

A store is sound if it can read every blob it may be asked for, and returns valid manifests only. In
sound stores a candidate that is a valid manifest is accepted or rejected, and a lookup raises
nothing.
-/

namespace OnceMesh

open Python

variable [Sha256]

/-- Blobs can be read, and results are valid manifests. -/
structure Store.Sound (store : Store) : Prop where
  getBlob : ∀ digest, isDigest digest = true → ∃ blob, store.getBlob digest = .ok blob
  result : ∀ reader ∈ store.result, ∀ digest value, reader digest = .ok (some value) →
    ∃ manifest : Manifest, manifest.document = value

omit [Sha256] in
/-- A store in memory is sound. -/
theorem MemoryStore.sound_view (store : MemoryStore) : store.view.Sound where
  getBlob _ _ := ⟨_, rfl⟩
  result := by
    rintro _ ⟨⟩ digest value h
    obtain ⟨manifest, -, hdocument⟩ := Option.map_eq_some_iff.mp (Except.ok.inj h)
    exact ⟨manifest, hdocument⟩

omit [Sha256] in
/-- A valid manifest passes its check. -/
theorem raisesOnly_checkManifest_document (manifest : Manifest) (reason : String) :
    RaisesOnly Stop.IsRejection (checkManifest manifest.document reason) := by
  have hcheck : checkManifest manifest.document reason = .ok manifest :=
    checkManifest_eq_ok.mpr rfl
  rw [hcheck]
  exact .ok _

theorem raisesOnly_readArtifacts {store : Store} (hstore : store.Sound)
    {descriptors : List ArtifactDescriptor}
    (hdigests : ∀ d ∈ descriptors, isDigest d.digest = true) (names : List Str) :
    RaisesOnly Stop.IsRejection (readArtifacts store names descriptors) := by
  induction descriptors generalizing names with
  | nil => exact .ok _
  | cons descriptor rest ih =>
    rw [List.forall_mem_cons] at hdigests
    obtain ⟨blob, hblob⟩ := hstore.getBlob descriptor.digest hdigests.1
    unfold readArtifacts
    refine .bind (raisesOnly_rejectIf _ _) fun _ _ => ?_
    rw [hblob]
    cases blob with
    | none => exact raisesOnly_reject _
    | some data =>
      refine .bind (raisesOnly_rejectIf _ _) fun _ _ => ?_
      exact .bind (ih hdigests.2 _) fun artifacts _ => .pure _

theorem raisesOnly_checkResult {store : Store} (hstore : store.Sound) (policy : Policy)
    (manifest : Manifest) (dependency ignoreFreshness : Bool) :
    RaisesOnly Stop.IsRejection
      (checkResult policy manifest store dependency ignoreFreshness) := by
  unfold checkResult
  refine .bind (raisesOnly_rejectIf _ _) fun _ _ => ?_
  refine .bind (raisesOnly_effectiveInvalidated _ _ _ _) fun _ _ => ?_
  refine .bind ?_ fun validation _ => ?_
  · cases ignoreFreshness
    · exact raisesOnly_checkFreshness _ _ _
    · exact .ok none
  exact .bind (raisesOnly_readArtifacts hstore manifest.isDigest_artifact _) fun _ _ => .pure _

variable {stores : List Store}

theorem raisesOnly_locateResult_of_sound (hstores : ∀ s ∈ stores, s.Sound) (digest : Str)
    (readFailed supported : Bool) :
    RaisesOnly Stop.IsRejection (locateResult digest readFailed supported stores) := by
  induction stores generalizing readFailed supported with
  | nil =>
    unfold locateResult
    split_ifs
    all_goals exact raisesOnly_reject _
  | cons store rest ih =>
    rw [List.forall_mem_cons] at hstores
    unfold locateResult
    split
    · exact ih hstores.2 _ _
    next reader hreader =>
      split
      · exact ih hstores.2 _ _
      · exact ih hstores.2 _ _
      next value hvalue =>
        obtain ⟨manifest, rfl⟩ := hstores.1.result reader hreader digest value hvalue
        refine .bind (raisesOnly_checkManifest_document _ _) fun manifest _ => ?_
        exact .bind (raisesOnly_rejectIf _ _) fun _ _ => .pure _

omit [Sha256] in
theorem raisesOnly_propagate {α : Type} {x : Except Stop α} (h : RaisesOnly Stop.IsRejection x) :
    RaisesOnly Stop.IsRejection (propagate x) := by
  unfold propagate
  split
  · exact .error trivial
  · exact h

theorem raisesOnly_evaluateDependencies {policy : Policy}
    {child : Manifest → Store → ℕ → Except Stop Evaluation} (hstores : ∀ s ∈ stores, s.Sound)
    (hchild : ∀ manifest, ∀ store ∈ stores, ∀ k,
      RaisesOnly Stop.IsRejection (child manifest store k))
    (dependencies : List Dependency) (k : ℕ) :
    RaisesOnly Stop.IsRejection (evaluateDependencies child stores policy dependencies k) := by
  induction dependencies generalizing k with
  | nil => exact .ok _
  | cons dependency rest ih =>
    unfold evaluateDependencies
    refine .bind (raisesOnly_rejectIf _ _) fun _ _ => ?_
    refine .bind (raisesOnly_locateResult_of_sound hstores _ _ _) fun located hlocated => ?_
    have hmem : located.2 ∈ stores := by
      obtain ⟨before, after, hsplit, -⟩ := (locateResult_eq_located.mp hlocated).first
      rw [hsplit]
      exact List.mem_append_right _ List.mem_cons_self
    refine .bind (raisesOnly_propagate (hchild _ _ hmem _)) fun e _ => ?_
    exact ih _

/-- In sound stores a valid manifest is accepted or rejected: by induction on the levels left. -/
theorem raisesOnly_evaluate {policy : Policy} (hstores : ∀ s ∈ stores, s.Sound) {levels : ℕ} :
    ∀ (active : List Str) (requested : Str) (manifest : Manifest), ∀ store ∈ stores,
      ∀ (k : ℕ) (ignoreFreshness : Bool), RaisesOnly Stop.IsRejection
        (evaluate stores policy levels active requested manifest.document store k
          ignoreFreshness) := by
  have hheader : ∀ requested (manifest : Manifest),
      RaisesOnly Stop.IsRejection (checkHeader policy requested manifest.document) := by
    intro requested manifest
    refine .bind (raisesOnly_checkManifest_document _ _) fun m _ => ?_
    exact .bind (raisesOnly_rejectIf _ _) fun _ _ => .bind (raisesOnly_rejectIf _ _) fun _ _ =>
      .pure _
  induction levels with
  | zero =>
    intro active requested manifest store hstore k ignoreFreshness
    exact .bind (hheader _ _) fun _ _ => raisesOnly_reject _
  | succ levels ih =>
    intro active requested manifest store hstore k ignoreFreshness
    unfold evaluate
    refine .bind (hheader _ _) fun m _ => ?_
    refine .bind (raisesOnly_rejectIf _ _) fun _ _ => ?_
    refine .bind (raisesOnly_checkResult (hstores store hstore) _ _ _ _) fun result _ => ?_
    obtain ⟨artifacts, validation⟩ := result
    dsimp only
    split
    · exact .bind (.pure _) fun edges _ => .pure _
    · refine .bind ?_ fun edges _ => .pure _
      exact raisesOnly_evaluateDependencies hstores
        (fun child s hs k => ih _ _ child s hs k false) _ _

/-! ### Readable stores -/

/-- A sound store whose candidates are valid manifests as well. -/
structure Store.Readable (store : Store) : Prop extends Store.Sound store where
  candidates : ∀ digest values, store.candidates digest = .ok values → ∀ value ∈ values,
    ∃ manifest : Manifest, manifest.document = value

omit [Sha256] in
/-- A store in memory is readable. -/
theorem MemoryStore.readable_view (store : MemoryStore) : store.view.Readable where
  toSound := store.sound_view
  candidates := by
    rintro digest _ ⟨⟩ value hvalue
    obtain ⟨manifest, -, hdocument⟩ := List.mem_map.mp hvalue
    exact ⟨manifest, hdocument⟩

/-- A lookup in readable stores returns. -/
theorem exists_lookup_of_readable {action : Value} {requested : Str}
    (haction : actionDigest action = .ok requested) (hstores : ∀ s ∈ stores, s.Readable)
    (policy : Policy) (ignoreFreshness : Bool) :
    ∃ outcome, lookup ignoreFreshness action stores policy = .ok outcome := by
  cases h : lookup ignoreFreshness action stores policy with
  | ok outcome => exact ⟨outcome, rfl⟩
  | error e =>
    rw [lookup_eq haction] at h
    obtain ⟨before, attempt, after, -, hattempts, hrun, -⟩ := firstHit_eq_error.mp h
    have hmem : attempt ∈ attempts requested stores := by
      rw [hattempts]
      exact List.mem_append_right _ List.mem_cons_self
    obtain ⟨store, hstore, hattempt⟩ := List.mem_flatMap.mp hmem
    cases hcandidates : store.candidates requested with
    | error message =>
      rw [hcandidates] at hattempt
      rw [List.mem_singleton.mp hattempt] at hrun
      cases hrun
    | ok values =>
      rw [hcandidates] at hattempt
      obtain ⟨value, hvalue, rfl⟩ := List.mem_map.mp hattempt
      obtain ⟨manifest, rfl⟩ := (hstores store hstore).candidates _ _ hcandidates value hvalue
      -- a valid manifest is accepted or rejected
      obtain hraised | ⟨_, -, hraised⟩ := Except.bind_eq_error.mp hrun
      · exact absurd (raisesOnly_evaluate (fun s hs => (hstores s hs).toSound) _ _ manifest store
          hstore _ _ _ hraised) id
      · cases hraised

end OnceMesh
