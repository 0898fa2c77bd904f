import OnceMesh.Cache.Lineage
import OnceMesh.Python.Stateful.Finally

/-!
# The traversal object

`_evaluate` shares a mutable object among the calls of one traversal: the set of the results on the
current path, which every call restores in a `finally` clause, and the number of edges so far.
`evaluateAt` follows the source in this; `evaluate` is the same function with the path as an
argument (`evaluateAt_refines`).
-/

namespace OnceMesh

open Python

/-- `_DependencyTraversal`. The source has no `followed`: it is the number of dependencies that have
been located and evaluated. -/
structure DependencyTraversal where
  active : Finset Str := ∅
  edges : ℕ := 0
  followed : ℕ := 0

namespace DependencyTraversal

/-- `traversal.edges += 1`. -/
def countEdge : Stateful Stop DependencyTraversal Unit :=
  Stateful.modify fun t => { t with edges := t.edges + 1 }

/-- A dependency is about to be evaluated. -/
def countFollowed : Stateful Stop DependencyTraversal Unit :=
  Stateful.modify fun t => { t with followed := t.followed + 1 }

/-- `traversal.active.add(digest)`. -/
def enter (digest : Str) : Stateful Stop DependencyTraversal Unit :=
  Stateful.modify fun t => { t with active := insert digest t.active }

/-- `traversal.active.remove(digest)`. -/
def leave (digest : Str) : Stateful Stop DependencyTraversal Unit := do
  let t ← Stateful.get
  if digest ∈ t.active then Stateful.modify fun t => { t with active := t.active.erase digest }
  else Stateful.ofExcept (.error (.raised (.keyError digest)))

end DependencyTraversal

open DependencyTraversal

section

variable [Sha256]

/-- What `_evaluate` returns for an admissible candidate. -/
structure Accepted where
  manifest : Manifest
  artifacts : List (Str × Bytes)
  validation : Option SourceValidation

/-- An evaluation without its edges. -/
def Evaluation.accepted (e : Evaluation) : Accepted where
  manifest := e.manifest
  artifacts := e.artifacts
  validation := e.validation

/-- The rejection of a dependency rejects the result that depends on it. -/
def propagating {α : Type} (x : Stateful Stop DependencyTraversal α) :
    Stateful Stop DependencyTraversal α := fun t =>
  (propagate (x t).1, (x t).2)

/-- The loop over the dependencies, with the evaluation of one. -/
def followDependencies (child : Manifest → Store → Stateful Stop DependencyTraversal Accepted)
    (stores : List Store) (policy : Policy) :
    List Dependency → Stateful Stop DependencyTraversal Unit
  | [] => pure ()
  | dependency :: rest => do
    countEdge
    let t ← Stateful.get
    rejectIf (policy.maxDependencyCount < t.edges) "dependency_count_exceeded"
    let (manifest, store) ← locateResult dependency.resultDigest false false stores
    countFollowed
    let _ ← propagating (child manifest store)
    followDependencies child stores policy rest

/-- `_evaluate`, with `levels` calls below one another left: at depth
`max_dependency_depth + 1 - levels`. -/
def evaluateLevels (stores : List Store) (policy : Policy) : (levels : ℕ) → (requested : Str) →
    Value → Store → (ignoreFreshness : Bool) → Stateful Stop DependencyTraversal Accepted
  | 0, requested, value, _, _ => do
    let _ ← checkHeader policy requested value
    reject "dependency_depth_exceeded"
  | levels + 1, requested, value, store, ignoreFreshness => do
    let manifest ← checkHeader policy requested value
    let t ← Stateful.get
    rejectIf (manifest.digest ∈ t.active) "dependency_cycle"
    let (artifacts, validation) ← checkResult policy manifest store
      (levels < policy.maxDependencyDepth) ignoreFreshness
    match manifest.fields.dependencies with
    | none => pure ⟨manifest, artifacts, validation⟩
    | some dependencies => do
      enter manifest.digest
      (followDependencies (fun dependency source =>
          evaluateLevels stores policy levels dependency.fields.actionDigest dependency.document
            source false)
        stores policy dependencies).tryFinally (leave manifest.digest)
      pure ⟨manifest, artifacts, validation⟩

/-- A function such as `_evaluate`: of the depth and its other arguments. -/
abbrev Evaluator := (depth : ℕ) → (requested : Str) → Value → Store → (ignoreFreshness : Bool) →
  Stateful Stop DependencyTraversal Accepted

/-- The body of `_evaluate`, with the function it calls for the dependencies. -/
def evaluateBody (stores : List Store) (policy : Policy) (evaluate : Evaluator) : Evaluator :=
  fun depth requested value store ignoreFreshness => do
    let manifest ← checkHeader policy requested value
    if policy.maxDependencyDepth < depth then reject "dependency_depth_exceeded"
    else
      let t ← Stateful.get
      rejectIf (manifest.digest ∈ t.active) "dependency_cycle"
      let (artifacts, validation) ← checkResult policy manifest store (0 < depth) ignoreFreshness
      match manifest.fields.dependencies with
      | none => pure ⟨manifest, artifacts, validation⟩
      | some dependencies => do
        enter manifest.digest
        (followDependencies (fun dependency source =>
            evaluate (depth + 1) dependency.fields.actionDigest dependency.document source false)
          stores policy dependencies).tryFinally (leave manifest.digest)
        pure ⟨manifest, artifacts, validation⟩

/-- `_evaluate`. -/
def evaluateAt (stores : List Store) (policy : Policy) : Evaluator :=
  fun depth requested value store ignoreFreshness =>
    evaluateLevels stores policy (policy.maxDependencyDepth + 1 - depth) requested value store
      ignoreFreshness

/-- The function is the recursion of the source: one level deeper for a dependency, up to the
maximal depth. -/
theorem evaluateAt_eq (stores : List Store) (policy : Policy) :
    evaluateAt stores policy = evaluateBody stores policy (evaluateAt stores policy) := by
  funext depth requested value store ignoreFreshness
  by_cases h : policy.maxDependencyDepth < depth
  · have hlevels : policy.maxDependencyDepth + 1 - depth = 0 := by omega
    simp only [evaluateAt, evaluateBody, hlevels, h, if_true]
    rfl
  · have hlevels : policy.maxDependencyDepth + 1 - depth =
        policy.maxDependencyDepth - depth + 1 := by
      omega
    have hdepth : (decide (policy.maxDependencyDepth - depth < policy.maxDependencyDepth)) =
        decide (0 < depth) := by
      have := policy.depth_pos
      rw [decide_eq_decide]
      omega
    simp only [evaluateAt, evaluateBody, hlevels, h, if_false, Nat.add_sub_add_right]
    rw [evaluateLevels, hdepth]

/-- The body calls the function one level deeper only, and below the maximal depth not at all. -/
theorem evaluateBody_congr {stores : List Store} {policy : Policy} {f g : Evaluator} {depth : ℕ}
    (h : depth ≤ policy.maxDependencyDepth → f (depth + 1) = g (depth + 1)) :
    evaluateBody stores policy f depth = evaluateBody stores policy g depth := by
  funext requested value store ignoreFreshness
  by_cases hdepth : policy.maxDependencyDepth < depth
  · simp only [evaluateBody, hdepth, if_true]
  · simp only [evaluateBody, h (not_lt.mp hdepth)]

/-- The recursion ends: there is no other function with the body. By induction on the distance to
the maximal depth. -/
theorem eq_evaluateAt_of_body {stores : List Store} {policy : Policy} {evaluate : Evaluator}
    (h : evaluate = evaluateBody stores policy evaluate) : evaluate = evaluateAt stores policy := by
  have hlevel : ∀ levels depth, policy.maxDependencyDepth + 1 - depth = levels →
      evaluate depth = evaluateAt stores policy depth := by
    intro levels
    induction levels with
    | zero =>
      intro depth hdepth
      rw [h, evaluateAt_eq]
      exact evaluateBody_congr fun hle => absurd hle (by omega)
    | succ levels ih =>
      intro depth hdepth
      rw [h, evaluateAt_eq]
      exact evaluateBody_congr fun _ => ih (depth + 1) (by omega)
  funext depth
  exact hlevel _ depth rfl

/-! ### One step -/

variable {stores : List Store} {policy : Policy}

/-- What one dependency does, and then the rest. -/
theorem followDependencies_cons {child : Manifest → Store →
    Stateful Stop DependencyTraversal Accepted}
    (dependency : Dependency) (rest : List Dependency) (t : DependencyTraversal) :
    followDependencies child stores policy (dependency :: rest) t =
      if policy.maxDependencyCount < t.edges + 1 then
        (reject "dependency_count_exceeded", { t with edges := t.edges + 1 })
      else
        match locateResult dependency.resultDigest false false stores with
        | .ok (manifest, store) =>
          let evaluated := child manifest store
            { t with edges := t.edges + 1, followed := t.followed + 1 }
          match propagate evaluated.1 with
          | .ok _ => followDependencies child stores policy rest evaluated.2
          | .error e => (.error e, evaluated.2)
        | .error e => (.error e, { t with edges := t.edges + 1 }) := by
  have hcount : countEdge t = (.ok (), { t with edges := t.edges + 1 }) := rfl
  rw [followDependencies, Stateful.bind_apply_of_ok hcount,
    Stateful.bind_apply_of_ok (Stateful.get_apply _), Stateful.bind_liftM_apply, rejectIf]
  by_cases hexceeded : policy.maxDependencyCount < t.edges + 1
  · simp [hexceeded, reject]
  · simp only [hexceeded, decide_false, Bool.false_eq_true, if_false]
    rw [Stateful.bind_liftM_apply]
    cases locateResult dependency.resultDigest false false stores with
    | error e => rfl
    | ok located =>
      have hfollowed : countFollowed { t with edges := t.edges + 1 } =
          (.ok (), { t with edges := t.edges + 1, followed := t.followed + 1 }) := rfl
      dsimp only
      rw [Stateful.bind_apply_of_ok hfollowed, Stateful.bind_apply, propagating]
      dsimp only
      cases propagate (child located.1 located.2
          { t with edges := t.edges + 1, followed := t.followed + 1 }).1 with
      | ok _ => rfl
      | error _ => rfl

/-- The cases of an evaluation. -/
theorem evaluateLevels_succ {levels : ℕ} {requested : Str} {value : Value} {store : Store}
    {ignoreFreshness : Bool} (t : DependencyTraversal) :
    evaluateLevels stores policy (levels + 1) requested value store ignoreFreshness t =
      match checkHeader policy requested value with
      | .error e => (.error e, t)
      | .ok manifest =>
        if manifest.digest ∈ t.active then (reject "dependency_cycle", t)
        else
          match checkResult policy manifest store (levels < policy.maxDependencyDepth)
              ignoreFreshness with
          | .error e => (.error e, t)
          | .ok (artifacts, validation) =>
            match manifest.fields.dependencies with
            | none => (.ok ⟨manifest, artifacts, validation⟩, t)
            | some dependencies =>
              let followed := followDependencies (fun dependency source =>
                  evaluateLevels stores policy levels dependency.fields.actionDigest
                    dependency.document source false)
                stores policy dependencies { t with active := insert manifest.digest t.active }
              match leave manifest.digest followed.2 with
              | (.error e, t') => (.error e, t')
              | (.ok _, t') => (followed.1.map fun _ => ⟨manifest, artifacts, validation⟩, t') := by
  rw [evaluateLevels, Stateful.bind_liftM_apply]
  cases checkHeader policy requested value with
  | error e => rfl
  | ok manifest =>
    dsimp only
    rw [Stateful.bind_apply_of_ok (Stateful.get_apply _), Stateful.bind_liftM_apply, rejectIf]
    by_cases hcycle : manifest.digest ∈ t.active
    · simp [hcycle, reject]
    · simp only [hcycle, decide_false, Bool.false_eq_true, if_false]
      rw [Stateful.bind_liftM_apply]
      cases checkResult policy manifest store (levels < policy.maxDependencyDepth)
          ignoreFreshness with
      | error e => rfl
      | ok result =>
        obtain ⟨artifacts, validation⟩ := result
        dsimp only
        cases manifest.fields.dependencies with
        | none => rfl
        | some dependencies =>
          have henter : enter manifest.digest t =
              (.ok (), { t with active := insert manifest.digest t.active }) := rfl
          dsimp only
          rw [Stateful.bind_apply_of_ok henter, Stateful.bind_apply, Stateful.tryFinally]
          cases leave manifest.digest (followDependencies _ stores policy dependencies
              { t with active := insert manifest.digest t.active }).2 with
          | mk left t' =>
            cases left with
            | error e => rfl
            | ok _ =>
              dsimp only
              cases (followDependencies _ stores policy dependencies
                  { t with active := insert manifest.digest t.active }).1 with
              | ok _ => rfl
              | error e => rfl

/-! ### What an evaluation leaves behind -/

/-- The path is restored, and the dependencies followed are paid for out of the budget of edges. -/
structure Keeps (policy : Policy) (t t' : DependencyTraversal) : Prop where
  active : t'.active = t.active
  budget : t'.followed + (policy.maxDependencyCount - t'.edges) ≤
    t.followed + (policy.maxDependencyCount - t.edges)

omit [Sha256] in
theorem Keeps.refl (t : DependencyTraversal) : Keeps policy t t := ⟨rfl, le_rfl⟩

omit [Sha256] in
theorem Keeps.trans {t t' t'' : DependencyTraversal} (h : Keeps policy t t')
    (h' : Keeps policy t' t'') : Keeps policy t t'' :=
  ⟨h'.active.trans h.active, h'.budget.trans h.budget⟩

omit [Sha256] in
/-- What has entered a path it was not on can leave it, if the path was kept meanwhile. -/
theorem leave_of_keeps {digest : Str} {t t' : DependencyTraversal} (hnew : digest ∉ t.active)
    (h : Keeps policy { t with active := insert digest t.active } t') :
    leave digest t' = (.ok (), { t' with active := t.active }) := by
  have hactive : t'.active = insert digest t.active := h.active
  have hmem : digest ∈ t'.active := hactive ▸ Finset.mem_insert_self _ _
  rw [leave, Stateful.bind_apply_of_ok (Stateful.get_apply _), if_pos hmem]
  show (Except.ok (), { t' with active := t'.active.erase digest }) = _
  rw [hactive, Finset.erase_insert hnew]

/-- The loop over the dependencies keeps what the evaluation of one keeps. -/
theorem keeps_followDependencies (stores : List Store)
    {child : Manifest → Store → Stateful Stop DependencyTraversal Accepted}
    (hchild : ∀ manifest store t, Keeps policy t (child manifest store t).2)
    (dependencies : List Dependency) (t : DependencyTraversal) :
    Keeps policy t (followDependencies child stores policy dependencies t).2 := by
  induction dependencies generalizing t with
  | nil => exact .refl t
  | cons dependency rest ih =>
    rw [followDependencies_cons]
    have hcounted : Keeps policy t { t with edges := t.edges + 1 } := ⟨rfl, by dsimp only; omega⟩
    split_ifs with hcount
    · exact hcounted
    · split
      next manifest store _ =>
        -- the edge pays for the dependency that is followed
        have hfollowed :
            Keeps policy t { t with edges := t.edges + 1, followed := t.followed + 1 } :=
          ⟨rfl, by dsimp only; omega⟩
        have hevaluated := hfollowed.trans (hchild manifest store _)
        dsimp only
        split
        · exact hevaluated.trans (ih _)
        · exact hevaluated
      · exact hcounted

/-- An evaluation restores the path on every exit: what it has entered is what it leaves. -/
theorem keeps_evaluateLevels {levels : ℕ} {requested : Str} {value : Value} {store : Store}
    {ignoreFreshness : Bool} (t : DependencyTraversal) :
    Keeps policy t
      (evaluateLevels stores policy levels requested value store ignoreFreshness t).2 := by
  induction levels generalizing requested value store ignoreFreshness t with
  | zero =>
    rw [evaluateLevels, Stateful.bind_liftM_apply]
    cases checkHeader policy requested value <;> exact .refl t
  | succ levels ih =>
    rw [evaluateLevels_succ]
    split
    · exact .refl t
    next manifest _ =>
      split_ifs with hcycle
      · exact .refl t
      split
      · exact .refl t
      · split
        · exact .refl t
        next dependencies _ =>
          have hfollowed := keeps_followDependencies stores (fun dependency source t =>
            @ih dependency.fields.actionDigest dependency.document source false t) dependencies
            { t with active := insert manifest.digest t.active }
          dsimp only
          rw [leave_of_keeps hcycle hfollowed]
          exact ⟨rfl, hfollowed.budget⟩

/-! ### The path as an argument -/

/-- A function on traversal objects computes the same as one on paths and edges. -/
structure Refines (policy : Policy) (path : List Str)
    (inObject : Stateful Stop DependencyTraversal Accepted) (pure : ℕ → Except Stop Evaluation) :
    Prop where
  result : ∀ t, path.toFinset = t.active →
    (inObject t).1 = (pure t.edges).map Evaluation.accepted
  edges : ∀ t, path.toFinset = t.active → ∀ e, pure t.edges = .ok e → (inObject t).2.edges = e.edges
  keeps : ∀ t, Keeps policy t (inObject t).2

omit [Sha256] in
theorem propagate_map {α β : Type} (f : α → β) (x : Except Stop α) :
    propagate (x.map f) = (propagate x).map f := by
  cases x with
  | ok a => rfl
  | error e => cases e <;> rfl

/-- The loops over the dependencies do the same if the evaluations of one do. -/
theorem followDependencies_refines (stores : List Store) {path : List Str}
    {childIn : Manifest → Store → Stateful Stop DependencyTraversal Accepted}
    {child : Manifest → Store → ℕ → Except Stop Evaluation}
    (hchild : ∀ manifest store, Refines policy path (childIn manifest store) (child manifest store))
    (dependencies : List Dependency) (t : DependencyTraversal) (ht : path.toFinset = t.active) :
    (followDependencies childIn stores policy dependencies t).1 =
        (evaluateDependencies child stores policy dependencies t.edges).map (fun _ => ()) ∧
      ∀ k, evaluateDependencies child stores policy dependencies t.edges = .ok k →
        (followDependencies childIn stores policy dependencies t).2.edges = k := by
  induction dependencies generalizing t with
  | nil => exact ⟨rfl, fun k hk => Except.ok.inj hk⟩
  | cons dependency rest ih =>
    rw [followDependencies_cons, evaluateDependencies, rejectIf]
    by_cases hcount : policy.maxDependencyCount < t.edges + 1
    · simp only [hcount, decide_true, if_true]
      exact ⟨rfl, fun k hk => by cases hk⟩
    · simp only [hcount, decide_false, if_false, Bool.false_eq_true, Except.ok_bind]
      cases locateResult dependency.resultDigest false false stores with
      | error e => exact ⟨rfl, fun k hk => by cases hk⟩
      | ok located =>
        obtain ⟨manifest, store⟩ := located
        have hrefines := hchild manifest store
        have hactive : path.toFinset =
            DependencyTraversal.active
              { t with edges := t.edges + 1, followed := t.followed + 1 } := ht
        have hresult := hrefines.result _ hactive
        have hedges := hrefines.edges _ hactive
        have hkeeps := hrefines.keeps { t with edges := t.edges + 1, followed := t.followed + 1 }
        dsimp only [Except.ok_bind] at hresult hedges ⊢
        rw [hresult, propagate_map]
        cases hpropagate : propagate (child manifest store (t.edges + 1)) with
        | error e => exact ⟨rfl, fun k hk => by cases hk⟩
        | ok e =>
          have hevaluated := hedges e (propagate_eq_ok.mp hpropagate)
          have hrest := ih _ (hactive.trans hkeeps.active.symm)
          rw [hevaluated] at hrest
          exact hrest

/-- The evaluation with the object returns what the one with the path does. -/
theorem evaluateLevels_refines {levels : ℕ} {path : List Str} {requested : Str} {value : Value}
    {store : Store} {ignoreFreshness : Bool} :
    Refines policy path
      (evaluateLevels stores policy levels requested value store ignoreFreshness)
      fun k => evaluate stores policy levels path requested value store k ignoreFreshness := by
  induction levels generalizing path requested value store ignoreFreshness with
  | zero =>
    refine ⟨fun t _ => ?_, fun t _ e h => ?_, keeps_evaluateLevels⟩
    · rw [evaluateLevels, Stateful.bind_liftM_apply, evaluate]
      cases checkHeader policy requested value <;> rfl
    · rw [evaluate] at h
      obtain ⟨_, -, h⟩ := Except.bind_eq_ok.mp h
      cases h
  | succ levels ih =>
    have hboth : ∀ t : DependencyTraversal, path.toFinset = t.active →
        (evaluateLevels stores policy (levels + 1) requested value store ignoreFreshness t).1 =
          (evaluate stores policy (levels + 1) path requested value store t.edges
            ignoreFreshness).map Evaluation.accepted ∧
        ∀ e, evaluate stores policy (levels + 1) path requested value store t.edges
            ignoreFreshness = .ok e →
          (evaluateLevels stores policy (levels + 1) requested value store ignoreFreshness
            t).2.edges = e.edges := by
      intro t ht
      rw [evaluateLevels_succ, evaluate]
      cases checkHeader policy requested value with
      | error e => exact ⟨rfl, fun e h => by cases h⟩
      | ok manifest =>
        have hmem : manifest.digest ∈ t.active ↔ manifest.digest ∈ path := by
          rw [← ht, List.mem_toFinset]
        simp only [Except.ok_bind, hmem, rejectIf]
        by_cases hcycle : manifest.digest ∈ path
        · simp only [hcycle, decide_true, if_true]
          exact ⟨rfl, fun e h => by cases h⟩
        simp only [hcycle, decide_false, if_false, Bool.false_eq_true, Except.ok_bind]
        cases checkResult policy manifest store (levels < policy.maxDependencyDepth)
            ignoreFreshness with
        | error e => exact ⟨rfl, fun e h => by cases h⟩
        | ok result =>
          obtain ⟨artifacts, validation⟩ := result
          simp only [Except.ok_bind]
          cases manifest.fields.dependencies with
          | none => exact ⟨rfl, fun e h => (congrArg Evaluation.edges (Except.ok.inj h))⟩
          | some dependencies =>
            -- the dependencies are evaluated below the manifest, which then leaves the path
            have hpath : (manifest.digest :: path).toFinset = insert manifest.digest t.active := by
              rw [List.toFinset_cons, ht]
            obtain ⟨hresult, hedges⟩ := followDependencies_refines stores
              (fun dependency source => @ih (manifest.digest :: path) dependency.fields.actionDigest
                dependency.document source false) dependencies
              { t with active := insert manifest.digest t.active } hpath
            have hnew : manifest.digest ∉ t.active := hmem.not.mpr hcycle
            have hkeeps := keeps_followDependencies stores (fun dependency source =>
              (@ih (manifest.digest :: path) dependency.fields.actionDigest
                dependency.document source false).keeps) dependencies
              { t with active := insert manifest.digest t.active }
            dsimp only
            rw [leave_of_keeps hnew hkeeps, hresult]
            cases hdependencies : evaluateDependencies (fun dependency source edges =>
                evaluate stores policy levels (manifest.digest :: path)
                  dependency.fields.actionDigest dependency.document source edges false)
                stores policy dependencies t.edges with
            | error e => exact ⟨rfl, fun e h => by cases h⟩
            | ok k =>
              refine ⟨rfl, fun e h => ?_⟩
              rw [← Except.ok.inj h]
              exact hedges k hdependencies
    exact ⟨fun t ht => (hboth t ht).1, fun t ht => (hboth t ht).2, keeps_evaluateLevels⟩

end

end OnceMesh
