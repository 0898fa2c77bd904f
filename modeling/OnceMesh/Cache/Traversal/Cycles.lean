import OnceMesh.Cache.Traversal

/-!
# Cycles

A traversal stops at a cycle when a digest repeats on the path (`Repeats`), and at nothing else: a
result that is shared by several others is evaluated for each of them.
-/

namespace OnceMesh

open Python DependencyTraversal

section

variable [Sha256] {stores : List Store} {policy : Policy}

/-! ### Stops that are not about cycles -/

/-- The stop neither says that there is a cycle nor becomes such a stop for a result above. -/
def Stop.NoCycle (stop : Stop) : Prop :=
  stop ≠ .rejected (lit "dependency_cycle") ∧ stop ≠ .rejected (lit "cycle")

omit [Sha256] in
/-- An exception is not a cycle. -/
theorem Stop.noCycle_raised (e : PyError) : (Stop.raised e).NoCycle :=
  ⟨nofun, nofun⟩

omit [Sha256] in
/-- A rejection for another reason is not a cycle. -/
theorem Stop.noCycle_rejected {reason : String}
    (h : reason ≠ "dependency_cycle" ∧ reason ≠ "cycle") :
    (Stop.rejected (lit reason)).NoCycle := by
  simpa [Stop.NoCycle, lit_inj] using h

omit [Sha256] in
/-- A rejection for another reason is not a cycle. -/
theorem noCycle_reject {α : Type} {reason : String}
    (h : reason ≠ "dependency_cycle" ∧ reason ≠ "cycle" := by decide) :
    RaisesOnly Stop.NoCycle (reject reason : Except Stop α) :=
  .error (Stop.noCycle_rejected h)

omit [Sha256] in
/-- A check that rejects for another reason finds no cycle. -/
theorem noCycle_rejectIf (condition : Bool) {reason : String}
    (h : reason ≠ "dependency_cycle" ∧ reason ≠ "cycle" := by decide) :
    RaisesOnly Stop.NoCycle (rejectIf condition reason) := by
  cases condition
  · exact .ok ()
  · exact noCycle_reject h

omit [Sha256] in
/-- The check of a manifest finds no cycle. -/
theorem noCycle_checkManifest (value : Value) {reason : String}
    (h : reason ≠ "dependency_cycle" ∧ reason ≠ "cycle" := by decide) :
    RaisesOnly Stop.NoCycle (checkManifest value reason) := by
  unfold checkManifest
  split
  · exact .ok _
  · split_ifs
    · exact noCycle_reject h
    · exact .error (Stop.noCycle_raised _)

omit [Sha256] in
/-- The check of the header of a result finds no cycle. -/
theorem noCycle_checkHeader (requested : Str) (value : Value) :
    RaisesOnly Stop.NoCycle (checkHeader policy requested value) :=
  .bind (noCycle_checkManifest _) fun _ _ => .bind (noCycle_rejectIf _) fun _ _ =>
    .bind (noCycle_rejectIf _) fun _ _ => .pure _

/-- Reading the invalidations finds no cycle. -/
theorem noCycle_effectiveInvalidated (manifest : Manifest) (store : Store) (required : Bool) :
    RaisesOnly Stop.NoCycle (effectiveInvalidated manifest store policy required) := by
  unfold effectiveInvalidated
  split
  · exact noCycle_rejectIf _
  · split
    · exact noCycle_reject
    · exact noCycle_rejectIf _

/-- The check of the freshness finds no cycle. -/
theorem noCycle_checkFreshness (manifest : Manifest) (store : Store) :
    RaisesOnly Stop.NoCycle (checkFreshness manifest store policy) := by
  unfold checkFreshness
  split
  · exact .ok _
  · split
    · exact noCycle_reject
    · split
      · exact .ok _
      · split
        · exact noCycle_reject
        · split_ifs
          · exact .ok _
          · exact noCycle_reject

/-- Reading the artifacts finds no cycle. -/
theorem noCycle_readArtifacts (store : Store) (names : List Str)
    (descriptors : List ArtifactDescriptor) :
    RaisesOnly Stop.NoCycle (readArtifacts store names descriptors) := by
  induction descriptors generalizing names with
  | nil => exact .ok _
  | cons descriptor rest ih =>
    unfold readArtifacts
    refine .bind (noCycle_rejectIf _) fun _ _ => ?_
    split
    · exact .error (Stop.noCycle_raised _)
    · exact noCycle_reject
    · exact .bind (noCycle_rejectIf _) fun _ _ => .bind (ih _) fun _ _ => .pure _

/-- The checks of a result of its own find no cycle. -/
theorem noCycle_checkResult (manifest : Manifest) (store : Store)
    (dependency ignoreFreshness : Bool) :
    RaisesOnly Stop.NoCycle (checkResult policy manifest store dependency ignoreFreshness) := by
  refine .bind (noCycle_rejectIf _) fun _ _ =>
    .bind (noCycle_effectiveInvalidated _ _ _) fun _ _ => .bind ?_ fun _ _ =>
    .bind (noCycle_readArtifacts _ _ _) fun _ _ => .pure _
  cases ignoreFreshness
  · exact noCycle_checkFreshness _ _
  · exact .ok _

/-- Locating a result finds no cycle. -/
theorem noCycle_locateResult (digest : Str) (readFailed supported : Bool) (stores : List Store) :
    RaisesOnly Stop.NoCycle (locateResult digest readFailed supported stores) := by
  induction stores generalizing readFailed supported with
  | nil =>
    unfold locateResult
    split_ifs
    all_goals exact noCycle_reject
  | cons store rest ih =>
    unfold locateResult
    split
    · exact ih _ _
    · split
      · exact ih _ _
      · exact ih _ _
      · exact .bind (noCycle_checkManifest _) fun _ _ =>
          .bind (noCycle_rejectIf _) fun _ _ => .pure _

omit [Sha256] in
/-- The result above a cycle is rejected for the cycle, and only such a result is. -/
theorem propagate_eq_cycle {α : Type} {x : Except Stop α} :
    propagate x = .error (.rejected (lit "dependency_cycle")) ↔
      x = .error (.rejected (lit "dependency_cycle")) ∨ x = .error (.rejected (lit "cycle")) := by
  have hlit : lit "dependency_cycle" = lit "dependency_" ++ lit "cycle" := by decide +kernel
  unfold propagate
  split
  next reason =>
    simp only [Except.error.injEq, Stop.rejected.injEq]
    split_ifs with hstarts
    · refine ⟨.inl, fun h => h.resolve_right ?_⟩
      rintro rfl
      exact absurd hstarts (by decide +kernel)
    · rw [hlit, List.append_cancel_left_eq, or_iff_right]
      rintro rfl
      exact hstarts (by decide +kernel)
  next hnot =>
    refine ⟨.inl, fun h => h.resolve_right ?_⟩
    exact fun h => hnot _ h


omit [Sha256] in
/-- A caller reports the cycle of a dependency under another reason. -/
theorem propagate_ne_cycle {α : Type} {x : Except Stop α} :
    propagate x ≠ .error (.rejected (lit "cycle")) := by
  unfold propagate
  split
  next reason =>
    simp only [ne_eq, Except.error.injEq, Stop.rejected.injEq]
    split_ifs with hstarts
    · rintro rfl
      exact absurd hstarts (by decide +kernel)
    · intro h
      have hshort : lit "dependency_" <+: lit "cycle" := ⟨reason, h⟩
      exact absurd hshort (by decide +kernel)
  next hnot => exact fun h => hnot _ h

/-! ### Repetitions -/

/-- Below a path, the digest of a result repeats: it is on the path, or that of a result it depends
on repeats below the path that it extends. -/
inductive Repeats (stores : List Store) : Finset Str → SuppliedResult → Prop
  | here {path : Finset Str} {n : SuppliedResult} (mem : n.1.digest ∈ path) : Repeats stores path n
  | deeper {path : Finset Str} {n child : SuppliedResult} (dependsOn : DependsOn stores n child)
      (repeats : Repeats stores (insert n.1.digest path) child) : Repeats stores path n

/-- Some result in the lineage depends, directly or not, on one with the same digest. -/
def Cyclic (stores : List Store) (n : SuppliedResult) : Prop :=
  ∃ n' m, Lineage stores n n' ∧ Relation.TransGen (DependsOn stores) n' m ∧
    n'.1.digest = m.1.digest

/-- What repeats is on the path to begin with, or makes the lineage cyclic. -/
theorem Repeats.cyclic {path : Finset Str} {n : SuppliedResult} (h : Repeats stores path n) :
    (∃ m, Lineage stores n m ∧ m.1.digest ∈ path) ∨ Cyclic stores n := by
  induction h with
  | @here path n mem => exact .inl ⟨n, .refl, mem⟩
  | @deeper path n child dependsOn repeats ih =>
    obtain ⟨m, hlineage, hmem⟩ | ⟨n', m, hlineage, hdepends, hdigest⟩ := ih
    · obtain hdigest | hmem := Finset.mem_insert.mp hmem
      · exact .inr ⟨n, m, .refl, .head' dependsOn hlineage, hdigest.symm⟩
      · exact .inl ⟨m, .head dependsOn hlineage, hmem⟩
    · exact .inr ⟨n', m, .head dependsOn hlineage, hdepends, hdigest⟩

/-! ### How an evaluation stops -/

/-- A loop over dependencies stops for a reason of its own, or because the evaluation of one
stops. -/
theorem followDependencies_stop
    {child : Manifest → Store → Stateful Stop DependencyTraversal Accepted}
    (hactive : ∀ manifest store t, (child manifest store t).2.active = t.active)
    {dependencies : List Dependency} {t : DependencyTraversal} {stop : Stop}
    (h : (followDependencies child stores policy dependencies t).1 = .error stop) :
    stop.NoCycle ∨ ∃ dependency ∈ dependencies, ∃ manifest source t', t'.active = t.active ∧
      locateResult dependency.resultDigest false false stores = .ok (manifest, source) ∧
      propagate (child manifest source t').1 = .error stop := by
  induction dependencies generalizing t with
  | nil => cases h
  | cons dependency rest ih =>
    rw [followDependencies_cons] at h
    split_ifs at h with hcount
    · cases h
      exact .inl (Stop.noCycle_rejected (by decide))
    · split at h
      next manifest source hlocated =>
        let counted : DependencyTraversal :=
          { t with edges := t.edges + 1, followed := t.followed + 1 }
        have hcounted : (child manifest source counted).2.active = t.active := hactive _ _ _
        dsimp only at h
        cases hchild : propagate (child manifest source counted).1 with
        | ok accepted =>
          -- the dependency is accepted, and one of the others stops
          rw [hchild] at h
          refine (ih h).imp_right ?_
          rintro ⟨dependency', hmem, manifest', source', t', hactive', hrest⟩
          exact ⟨dependency', List.mem_cons_of_mem _ hmem, manifest', source', t',
            hactive'.trans hcounted, hrest⟩
        | error e =>
          rw [hchild] at h
          cases h
          exact .inr ⟨dependency, List.mem_cons_self, manifest, source, counted, rfl, hlocated,
            hchild⟩
      next e hlocate =>
        cases h
        exact .inl (noCycle_locateResult _ _ _ _ _ hlocate)

section

variable {levels : ℕ} {requested : Str} {value : Value} {store : Store} {ignoreFreshness : Bool}
  {t : DependencyTraversal} {stop : Stop}

/-- An evaluation stops for a reason that is not about cycles, because the result is on the path, or
because the evaluation of a dependency, below the longer path, stops. -/
theorem evaluateLevels_stop
    (h : (evaluateLevels stores policy levels requested value store ignoreFreshness t).1 =
      .error stop) :
    stop.NoCycle ∨ ∃ manifest : Manifest, manifest.document = value ∧
      (manifest.digest ∈ t.active ∧ stop = .rejected (lit "dependency_cycle") ∨
        ∃ below child source t', levels = below + 1 ∧
          DependsOn stores (manifest, store) (child, source) ∧
          t'.active = insert manifest.digest t.active ∧
          propagate (evaluateLevels stores policy below child.fields.actionDigest child.document
            source false t').1 = .error stop) := by
  cases levels with
  | zero =>
    rw [evaluateLevels, Stateful.bind_liftM_apply] at h
    cases hheader : checkHeader policy requested value with
    | error e =>
      rw [hheader] at h
      cases h
      exact .inl (noCycle_checkHeader _ _ _ hheader)
    | ok manifest =>
      rw [hheader] at h
      cases h
      exact .inl (Stop.noCycle_rejected (by decide))
  | succ levels =>
    rw [evaluateLevels_succ] at h
    cases hheader : checkHeader policy requested value with
    | error e =>
      rw [hheader] at h
      cases h
      exact .inl (noCycle_checkHeader _ _ _ hheader)
    | ok manifest =>
      simp only [hheader] at h
      have hdocument : manifest.document = value := (checkHeader_eq_ok.mp hheader).1
      split_ifs at h with hmem
      · cases h
        exact .inr ⟨manifest, hdocument, .inl ⟨hmem, rfl⟩⟩
      cases hresult : checkResult policy manifest store (levels < policy.maxDependencyDepth)
          ignoreFreshness with
      | error e =>
        rw [hresult] at h
        cases h
        exact .inl (noCycle_checkResult _ _ _ _ _ hresult)
      | ok result =>
        obtain ⟨artifacts, validation⟩ := result
        simp only [hresult] at h
        cases hdependencies : manifest.fields.dependencies with
        | none =>
          rw [hdependencies] at h
          cases h
        | some dependencies =>
          have hkeeps := keeps_followDependencies stores (fun dependency source t =>
            @keeps_evaluateLevels _ stores policy levels dependency.fields.actionDigest
              dependency.document source false t) dependencies
            { t with active := insert manifest.digest t.active }
          simp only [hdependencies, leave_of_keeps hmem hkeeps] at h
          refine (followDependencies_stop (fun _ _ t => (keeps_evaluateLevels t).active)
            (Except.map_eq_error.mp h)).imp_right ?_
          rintro ⟨dependency, hdependency, child, source, t', hactive, hlocated, hchild⟩
          refine ⟨manifest, hdocument, .inr ⟨levels, child, source, t', rfl, ⟨dependency, ?_, ?_⟩,
            hactive, hchild⟩⟩
          · rw [hdependencies]
            exact hdependency
          · exact locateResult_eq_located.mp hlocated

/-- What is not about a cycle does not look like one to the result above. -/
theorem evaluateLevels_ne_cycle :
    (evaluateLevels stores policy levels requested value store ignoreFreshness t).1 ≠
      .error (.rejected (lit "cycle")) := by
  intro h
  obtain hnot | ⟨_, -, ⟨-, hcycle⟩ | ⟨_, _, _, _, -, -, -, hchild⟩⟩ := evaluateLevels_stop h
  · exact hnot.2 rfl
  · simp [lit_inj] at hcycle
  · exact propagate_ne_cycle hchild

/-- An evaluation stops at a cycle only if a digest repeats below its path. -/
theorem repeats_of_evaluateLevels
    (h : (evaluateLevels stores policy levels requested value store ignoreFreshness t).1 =
      .error (.rejected (lit "dependency_cycle"))) :
    ∃ manifest : Manifest, manifest.document = value ∧
      Repeats stores t.active (manifest, store) := by
  induction levels generalizing requested value store ignoreFreshness t with
  | zero =>
    obtain hnot | ⟨manifest, hdocument, ⟨hmem, -⟩ | ⟨_, _, _, _, hlevels, -⟩⟩ :=
      evaluateLevels_stop h
    · exact absurd rfl hnot.1
    · exact ⟨manifest, hdocument, .here hmem⟩
    · cases hlevels
  | succ levels ih =>
    obtain hnot | ⟨manifest, hdocument, ⟨hmem, -⟩ |
      ⟨below, child, source, t', hlevels, hdepends, hactive, hchild⟩⟩ := evaluateLevels_stop h
    · exact absurd rfl hnot.1
    · exact ⟨manifest, hdocument, .here hmem⟩
    · -- the stop of the dependency is about a cycle as well
      cases hlevels
      have hcycle := (propagate_eq_cycle.mp hchild).resolve_right evaluateLevels_ne_cycle
      obtain ⟨child', hdocument', hrepeats⟩ := ih hcycle
      have hsame : child' = child := Manifest.ext_document hdocument'
      rw [hsame, hactive] at hrepeats
      exact ⟨manifest, hdocument, .deeper hdepends hrepeats⟩

end

/-- The recursion of a traversal goes one level deeper at a time, down to the maximal depth, and so
defines a total function. It follows at most as many dependencies as the budget has edges left, and
leaves the path as it was. It stops at a cycle only if a digest repeats on the path, and never in a
lineage without cycles. -/
theorem traversal_sound (stores : List Store) (policy : Policy) :
    (∀ f g depth, (depth ≤ policy.maxDependencyDepth → f (depth + 1) = g (depth + 1)) →
      evaluateBody stores policy f depth = evaluateBody stores policy g depth) ∧
    (∃! evaluate, evaluate = evaluateBody stores policy evaluate) ∧
    ∀ evaluate, evaluate = evaluateBody stores policy evaluate →
      ∀ depth requested value store ignoreFreshness t result t',
        evaluate depth requested value store ignoreFreshness t = (result, t') →
        t'.active = t.active ∧
        t'.followed ≤ t.followed + (policy.maxDependencyCount - t.edges) ∧
        (result = .error (.rejected (lit "dependency_cycle")) →
          ∃ manifest : Manifest, manifest.document = value ∧
            Repeats stores t.active (manifest, store) ∧
            (t.active = ∅ → Cyclic stores (manifest, store))) := by
  refine ⟨fun _ _ _ => evaluateBody_congr,
    ⟨evaluateAt stores policy, evaluateAt_eq stores policy, fun _ => eq_evaluateAt_of_body⟩, ?_⟩
  intro evaluate hbody depth requested value store ignoreFreshness t result t' h
  rw [eq_evaluateAt_of_body hbody] at h
  have hkeeps : Keeps policy t t' := by
    have hevaluated : t' = _ := (congrArg Prod.snd h).symm
    rw [hevaluated]
    exact keeps_evaluateLevels t
  refine ⟨hkeeps.active, ?_, ?_⟩
  · have hbudget := hkeeps.budget
    omega
  · rintro rfl
    obtain ⟨manifest, hdocument, hrepeats⟩ := repeats_of_evaluateLevels (congrArg Prod.fst h)
    refine ⟨manifest, hdocument, hrepeats, fun hempty => ?_⟩
    refine hrepeats.cyclic.resolve_left ?_
    rintro ⟨m, -, hm⟩
    rw [hempty] at hm
    exact Finset.notMem_empty _ hm

end

end OnceMesh
