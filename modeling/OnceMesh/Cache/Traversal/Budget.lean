import OnceMesh.Cache.Traversal

/-!
# The budget of a lookup

A lookup has a budget of dependency edges, which the traversal object counts. `reuse` gives each
candidate a traversal object of its own, so that each candidate has the whole budget: it follows the
edges of its lineage up to `max_dependency_count` of them (`Attempt.edges`), and a lookup follows as
many as all the candidates it tries together.
-/

namespace OnceMesh

open Python DependencyTraversal

section

variable [Sha256]

/-! ### The lineage of a result -/

/-- A walk over a lineage: the dependencies that are located on it, one after the other, and whether
it goes through to the end or meets a result that is missing or not accepted. -/
structure Walk where
  edges : ℕ
  complete : Bool

/-- The walk over some dependencies, with the walk below one of them. -/
def walkDependencies (child : Manifest → Store → Walk) (stores : List Store) :
    List Dependency → Walk
  | [] => ⟨0, true⟩
  | dependency :: rest =>
    match locateResult dependency.resultDigest false false stores with
    | .error _ => ⟨0, false⟩
    | .ok (manifest, store) =>
      let below := child manifest store
      if below.complete then
        let after := walkDependencies child stores rest
        ⟨1 + below.edges + after.edges, after.complete⟩
      else ⟨1 + below.edges, false⟩

/-- The walk over the lineage of a result, which has no budget. -/
def walkLineage (stores : List Store) (policy : Policy) : (levels : ℕ) → (active : List Str) →
    (requested : Str) → Value → Store → (ignoreFreshness : Bool) → Walk
  | 0, _, _, _, _, _ => ⟨0, false⟩
  | levels + 1, active, requested, value, store, ignoreFreshness =>
    match checkHeader policy requested value with
    | .error _ => ⟨0, false⟩
    | .ok manifest =>
      if manifest.digest ∈ active then ⟨0, false⟩
      else
        match checkResult policy manifest store (levels < policy.maxDependencyDepth)
            ignoreFreshness with
        | .error _ => ⟨0, false⟩
        | .ok _ =>
          match manifest.fields.dependencies with
          | none => ⟨0, true⟩
          | some dependencies =>
            walkDependencies
              (fun dependency source => walkLineage stores policy levels (manifest.digest :: active)
                dependency.fields.actionDigest dependency.document source false)
              stores dependencies

variable {stores : List Store} {policy : Policy}

/-- What a traversal does with a budget: it follows the edges of the walk until the budget is used
up, and returns if the walk is complete within it. -/
structure Follows {α : Type} (policy : Policy) (t : DependencyTraversal) (walk : Walk)
    (traversed : Except Stop α × DependencyTraversal) : Prop where
  followed : traversed.2.followed =
    t.followed + min walk.edges (policy.maxDependencyCount - t.edges)
  isOk : traversed.1.isOk = true ↔
    walk.complete = true ∧ t.edges + walk.edges ≤ policy.maxDependencyCount
  edges : traversed.1.isOk = true → traversed.2.edges = t.edges + walk.edges

section

variable {α : Type} {t t' : DependencyTraversal} {walk : Walk} {e : Stop}

omit [Sha256] in
/-- What stops at once has followed nothing. -/
theorem Follows.stop (hfollowed : t'.followed = t.followed) :
    Follows policy t ⟨0, false⟩ ((.error e, t') : Except Stop α × DependencyTraversal) where
  followed := by
    dsimp only
    omega
  isOk := ⟨fun h => (by cases h), fun h => (by cases h.1)⟩
  edges h := by cases h

omit [Sha256] in
/-- Where the budget is used up, so it is for whatever is located next. -/
theorem Follows.exhausted (hwalk : 0 < walk.edges) (hedges : policy.maxDependencyCount ≤ t.edges)
    (hfollowed : t'.followed = t.followed) :
    Follows policy t walk ((.error e, t') : Except Stop α × DependencyTraversal) where
  followed := by
    dsimp only
    omega
  isOk := ⟨fun h => (by cases h), fun h => absurd h.2 (by omega)⟩
  edges h := by cases h

omit [Sha256] in
/-- What follows after some edges that have been paid for. -/
theorem Follows.after {before : ℕ} {traversed : Except Stop α × DependencyTraversal}
    (h : Follows policy t' walk traversed) (hfollowed : t'.followed = t.followed + before)
    (hedges : t'.edges = t.edges + before) (hbudget : t'.edges ≤ policy.maxDependencyCount) :
    Follows policy t ⟨before + walk.edges, walk.complete⟩ traversed where
  followed := by
    rw [h.followed, hfollowed, hedges]
    dsimp only
    omega
  isOk := by
    rw [h.isOk, hedges, Nat.add_assoc]
  edges hok := by rw [h.edges hok, hedges, Nat.add_assoc]

end

omit [Sha256] in
/-- A rejection is passed on as one. -/
theorem isOk_propagate {α : Type} (x : Except Stop α) : (propagate x).isOk = x.isOk := by
  cases x with
  | ok a => rfl
  | error e => cases e <;> rfl

/-- A loop over dependencies follows the walk over them, if the evaluation of each does. -/
theorem follows_followDependencies {path : List Str}
    {childIn : Manifest → Store → Stateful Stop DependencyTraversal Accepted}
    {child : Manifest → Store → Walk}
    (hkeeps : ∀ manifest store t, Keeps policy t (childIn manifest store t).2)
    (hchild : ∀ manifest store t, path.toFinset = t.active →
      t.edges ≤ policy.maxDependencyCount →
      Follows policy t (child manifest store) (childIn manifest store t))
    (dependencies : List Dependency) (t : DependencyTraversal) (ht : path.toFinset = t.active)
    (hedges : t.edges ≤ policy.maxDependencyCount) :
    Follows policy t (walkDependencies child stores dependencies)
      (followDependencies childIn stores policy dependencies t) := by
  induction dependencies generalizing t with
  | nil =>
    refine ⟨(Nat.zero_min _).symm ▸ rfl, ⟨fun _ => ⟨rfl, hedges⟩, fun _ => rfl⟩, fun _ => rfl⟩
  | cons dependency rest ih =>
    rw [followDependencies_cons, walkDependencies]
    cases locateResult dependency.resultDigest false false stores with
    | error e =>
      dsimp only
      split_ifs
      · exact .stop rfl
      · exact .stop rfl
    | ok located =>
      obtain ⟨manifest, store⟩ := located
      dsimp only
      by_cases hexceeded : policy.maxDependencyCount < t.edges + 1
      · rw [if_pos hexceeded]
        refine .exhausted ?_ (by omega) rfl
        split_ifs <;> dsimp only <;> omega
      rw [if_neg hexceeded]
      -- the edge is paid for, and what is below it comes next
      obtain ⟨counted, hcounted⟩ : ∃ counted : DependencyTraversal,
          counted = { t with edges := t.edges + 1, followed := t.followed + 1 } := ⟨_, rfl⟩
      rw [← hcounted]
      have htc : path.toFinset = counted.active := by rw [hcounted, ht]
      have hcountedEdges : counted.edges = t.edges + 1 := by rw [hcounted]
      have hcountedFollowed : counted.followed = t.followed + 1 := by rw [hcounted]
      have hbelow := hchild manifest store counted htc (by omega)
      have hfollowed := hbelow.followed
      have hok := hbelow.isOk
      rw [← isOk_propagate] at hok
      cases hrun : propagate (childIn manifest store counted).1 with
      | error e =>
        rw [hrun] at hok
        have hstops := hok.not.mp (by simp [Except.isOk, Except.toBool])
        dsimp only
        split_ifs with hcomplete
        · have hover := not_le.mp fun hle => hstops ⟨hcomplete, hle⟩
          refine ⟨?_, ⟨fun h => (by cases h), fun h => ?_⟩, fun h => (by cases h)⟩
          · dsimp only
            omega
          · have hle := h.2
            dsimp only at hle
            omega
        · refine ⟨?_, ⟨fun h => (by cases h), fun h => (by cases h.1)⟩, fun h => (by cases h)⟩
          dsimp only
          omega
      | ok a =>
        rw [hrun] at hok
        obtain ⟨hcomplete, hbudget⟩ := hok.mp rfl
        have hbelowEdges := hbelow.edges (by rw [← isOk_propagate, hrun]; rfl)
        have hactive : path.toFinset = (childIn manifest store counted).2.active :=
          htc.trans (hkeeps manifest store counted).active.symm
        dsimp only
        rw [if_pos hcomplete]
        exact (ih _ hactive (by omega)).after (by omega) (by omega) (by omega)

/-- An evaluation follows the walk over the lineage of the result. -/
theorem follows_evaluateLevels {levels : ℕ} {path : List Str} {requested : Str} {value : Value}
    {store : Store} {ignoreFreshness : Bool} (t : DependencyTraversal)
    (ht : path.toFinset = t.active) (hedges : t.edges ≤ policy.maxDependencyCount) :
    Follows policy t (walkLineage stores policy levels path requested value store ignoreFreshness)
      (evaluateLevels stores policy levels requested value store ignoreFreshness t) := by
  induction levels generalizing path requested value store ignoreFreshness t with
  | zero =>
    rw [evaluateLevels, Stateful.bind_liftM_apply]
    cases checkHeader policy requested value with
    | error e => exact .stop rfl
    | ok manifest => exact .stop rfl
  | succ levels ih =>
    rw [evaluateLevels_succ, walkLineage]
    cases checkHeader policy requested value with
    | error e => exact .stop rfl
    | ok manifest =>
      have hmem : manifest.digest ∈ t.active ↔ manifest.digest ∈ path := by
        rw [← ht, List.mem_toFinset]
      simp only [hmem]
      split_ifs with hcycle
      · exact .stop rfl
      cases checkResult policy manifest store (levels < policy.maxDependencyDepth)
          ignoreFreshness with
      | error e => exact .stop rfl
      | ok result =>
        obtain ⟨artifacts, validation⟩ := result
        cases manifest.fields.dependencies with
        | none =>
          refine ⟨(Nat.zero_min _).symm ▸ rfl, ⟨fun _ => ⟨rfl, hedges⟩, fun _ => rfl⟩, fun _ => rfl⟩
        | some dependencies =>
          have hpath : (manifest.digest :: path).toFinset = insert manifest.digest t.active := by
            rw [List.toFinset_cons, ht]
          have hkeeps := fun (dependency : Manifest) source t =>
            @keeps_evaluateLevels _ stores policy levels dependency.fields.actionDigest
              dependency.document source false t
          have hbelow := @follows_followDependencies _ stores policy (manifest.digest :: path) _ _
            hkeeps (fun _ _ t ht hedges => ih t ht hedges) dependencies
            { t with active := insert manifest.digest t.active } hpath hedges
          dsimp only
          rw [leave_of_keeps (hmem.not.mpr hcycle)
            (keeps_followDependencies stores hkeeps dependencies _)]
          refine ⟨hbelow.followed, ?_, ?_⟩
          · rw [← hbelow.isOk]
            cases (followDependencies _ stores policy dependencies _).1 <;> rfl
          · intro hok
            refine hbelow.edges ?_
            revert hok
            cases (followDependencies _ stores policy dependencies _).1 <;> exact id

/-! ### The edges of a lookup -/

/-- The evaluation of one candidate, with a traversal object of its own. The state is the number of
edges that a lookup has followed. -/
def inFreshTraversal (x : Stateful Stop DependencyTraversal Accepted) :
    Stateful PyError ℕ (Except Stop Accepted) := fun total =>
  (.ok (x {}).1, total + (x {}).2.followed)

/-- The loop of `reuse` over the candidates of one store. -/
def searchCandidates (stores : List Store) (policy : Policy) (requested : Str) (store : Store) :
    List Value → List Str → Stateful PyError ℕ (Option Hit × List Str)
  | [], rejections => pure (none, rejections)
  | value :: rest, rejections => do
    match ← inFreshTraversal (evaluateAt stores policy 0 requested value store false) with
    | .ok a => pure (some ⟨store.name, a.manifest, a.artifacts, a.validation⟩, rejections)
    | .error (.rejected reason) =>
      searchCandidates stores policy requested store rest
        (rejections ++ [store.name ++ lit ":" ++ reason])
    | .error (.raised e) => Stateful.ofExcept (.error e)

/-- The loop of `reuse` over the stores. -/
def searchTiers (all : List Store) (policy : Policy) (requested : Str) :
    List Store → List Str → Stateful PyError ℕ LookupOutcome
  | [], rejections => pure ⟨none, rejections⟩
  | store :: rest, rejections =>
    match store.candidates requested with
    | .error message =>
      searchTiers all policy requested rest (rejections ++ [store.name ++ lit ":" ++ message])
    | .ok values => do
      let (found, rejections) ← searchCandidates all policy requested store values rejections
      match found with
      | some hit => pure ⟨some hit, rejections⟩
      | none => searchTiers all policy requested rest rejections

/-- `reuse`, with the traversal objects. -/
def reuseCounting (action : Value) (stores : List Store) (policy : Policy) :
    Stateful PyError ℕ LookupOutcome := do
  let requested ← actionDigest action
  searchTiers stores policy requested stores []

/-- The attempts of a lookup up to the first that is not rejected. -/
def tried (stores : List Store) (policy : Policy) (requested : Str) : List Attempt → List Attempt
  | [] => []
  | attempt :: rest =>
    match attempt.run stores policy requested false with
    | .error (.rejected _) => attempt :: tried stores policy requested rest
    | _ => [attempt]

/-- The edges of the lineage that an attempt leads to. -/
def Attempt.lineageEdges (stores : List Store) (policy : Policy) (requested : Str) : Attempt → ℕ
  | .tier _ _ => 0
  | .candidate store value =>
    (walkLineage stores policy (policy.maxDependencyDepth + 1) [] requested value store false).edges

/-- The edges that an attempt follows: those of its lineage, as far as its budget goes. -/
def Attempt.edges (stores : List Store) (policy : Policy) (requested : Str)
    (attempt : Attempt) : ℕ :=
  min (attempt.lineageEdges stores policy requested) policy.maxDependencyCount

/-- The edges that the attempts follow together. -/
def triedEdges (stores : List Store) (policy : Policy) (requested : Str) (l : List Attempt) : ℕ :=
  ((tried stores policy requested l).map (Attempt.edges stores policy requested)).sum

variable {requested : Str}

/-- What an attempt at a candidate gives is what its evaluation does. -/
theorem evaluateAt_eq_evaluate (value : Value) (store : Store) :
    (evaluateAt stores policy 0 requested value store false {}).1 =
      (evaluate stores policy (policy.maxDependencyDepth + 1) [] requested value store 0 false).map
        Evaluation.accepted :=
  evaluateLevels_refines.result {} rfl

/-- The loop over the candidates of one store finds what the lookup does, and follows the edges of
the candidates that are tried. -/
theorem searchCandidates_eq (store : Store) (values : List Value) (rejections : List Str)
    (total : ℕ) :
    searchCandidates stores policy requested store values rejections total =
      (searchStore stores policy requested false store values rejections,
        total + triedEdges stores policy requested (values.map (Attempt.candidate store))) := by
  induction values generalizing rejections total with
  | nil => rfl
  | cons value rest ih =>
    have hfresh : inFreshTraversal (evaluateAt stores policy 0 requested value store false) total =
        (.ok ((evaluate stores policy (policy.maxDependencyDepth + 1) [] requested value store 0
            false).map Evaluation.accepted),
          total + Attempt.edges stores policy requested (.candidate store value)) := by
      rw [inFreshTraversal, evaluateAt_eq_evaluate]
      refine congrArg (Prod.mk _) (congrArg (total + ·) ?_)
      have hfollows := @follows_evaluateLevels _ stores policy (policy.maxDependencyDepth + 1) []
        requested value store false {} rfl (Nat.zero_le _)
      exact hfollows.followed.trans (Nat.zero_add _)
    rw [searchCandidates, Stateful.bind_apply_of_ok hfresh, searchStore, triedEdges, List.map_cons,
      tried, Attempt.run]
    cases evaluate stores policy (policy.maxDependencyDepth + 1)
      [] requested value store 0 false with
    | ok e => rfl
    | error stop =>
      cases stop with
      | raised e => rfl
      | rejected reason =>
        simp only [Except.map]
        rw [ih]
        refine congrArg (Prod.mk _) ?_
        rw [triedEdges, Nat.add_assoc]
        rfl

/-- An attempt that is rejected is tried, and then the others. -/
theorem triedEdges_cons_of_rejected {attempt : Attempt} {reason : Str}
    (h : attempt.run stores policy requested false = .error (.rejected reason))
    (rest : List Attempt) :
    triedEdges stores policy requested (attempt :: rest) =
      attempt.edges stores policy requested + triedEdges stores policy requested rest := by
  rw [triedEdges, tried, h]
  rfl

/-- An attempt that is not rejected is the last. -/
theorem triedEdges_cons_of_not_rejected {attempt : Attempt}
    (h : ∀ reason, attempt.run stores policy requested false ≠ .error (.rejected reason))
    (rest : List Attempt) :
    triedEdges stores policy requested (attempt :: rest) =
      attempt.edges stores policy requested := by
  rw [triedEdges, tried]
  split
  next reason hrun => exact absurd hrun (h reason)
  next => rfl

/-- The attempts after the candidates of a store are tried if the search in the store finds
nothing. -/
theorem triedEdges_append (store : Store) (values : List Value) (rejections : List Str)
    (rest : List Attempt) :
    triedEdges stores policy requested (values.map (Attempt.candidate store) ++ rest) =
      triedEdges stores policy requested (values.map (Attempt.candidate store)) +
        match searchStore stores policy requested false store values rejections with
        | .ok (none, _) => triedEdges stores policy requested rest
        | _ => 0 := by
  induction values generalizing rejections with
  | nil => exact (Nat.zero_add _).symm
  | cons value values ih =>
    rw [List.map_cons, List.cons_append, searchStore]
    cases he : evaluate stores policy (policy.maxDependencyDepth + 1) [] requested value store 0
        false with
    | ok e =>
      have hrun : ∀ reason, (Attempt.candidate store value).run stores policy requested false ≠
          .error (.rejected reason) := by
        intro reason
        simp [Attempt.run, he]
      rw [triedEdges_cons_of_not_rejected hrun, triedEdges_cons_of_not_rejected hrun]
      rfl
    | error stop =>
      cases stop with
      | raised e =>
        have hrun : ∀ reason, (Attempt.candidate store value).run stores policy requested false ≠
            .error (.rejected reason) := by
          intro reason
          simp [Attempt.run, he]
        rw [triedEdges_cons_of_not_rejected hrun, triedEdges_cons_of_not_rejected hrun]
        rfl
      | rejected reason =>
        have hrun : (Attempt.candidate store value).run stores policy requested false =
            .error (.rejected reason) := by
          rw [Attempt.run, he]
          rfl
        rw [triedEdges_cons_of_rejected hrun, triedEdges_cons_of_rejected hrun, ih, Nat.add_assoc]

/-- The loop over the stores finds what the lookup does, and follows the edges of the attempts. -/
theorem searchTiers_eq (searched : List Store) (rejections : List Str) (total : ℕ) :
    searchTiers stores policy requested searched rejections total =
      (searchStores stores policy requested false searched rejections,
        total + triedEdges stores policy requested (attempts requested searched)) := by
  induction searched generalizing rejections total with
  | nil => rfl
  | cons store rest ih =>
    rw [searchTiers, searchStores, attempts, List.flatMap_cons, ← attempts]
    cases store.candidates requested with
    | error message =>
      dsimp only
      rw [ih, List.singleton_append, triedEdges_cons_of_rejected rfl, Attempt.edges,
        Attempt.lineageEdges, Nat.zero_min, Nat.zero_add]
    | ok values =>
      dsimp only
      rw [Stateful.bind_apply, searchCandidates_eq, triedEdges_append store values rejections]
      cases searchStore stores policy requested false store values rejections with
      | error e => rfl
      | ok found =>
        obtain ⟨hit, rejections'⟩ := found
        cases hit with
        | some hit => rfl
        | none =>
          dsimp only
          rw [ih, Nat.add_assoc]
          rfl

/-- A lookup returns what `reuse` does, and follows the edges of the attempts. -/
theorem reuseCounting_eq (action : Value) :
    reuseCounting action stores policy 0 =
      (reuse action stores policy,
        match actionDigest action with
        | .error _ => 0
        | .ok requested => triedEdges stores policy requested (attempts requested stores)) := by
  rw [reuseCounting, Stateful.bind_liftM_apply, reuse]
  cases actionDigest action with
  | error e => rfl
  | ok requested =>
    dsimp only
    rw [searchTiers_eq, Nat.zero_add]
    rfl

/-- A lookup keeps to its budget exactly when at most one of the candidates that it tries depends on
something that is located, or the lineages of all of them together are within the budget. -/
theorem reuse_withinBudget_iff (action : Value) (stores : List Store) (policy : Policy) :
    (reuseCounting action stores policy 0).1 = reuse action stores policy ∧
    ((reuseCounting action stores policy 0).2 ≤ policy.maxDependencyCount ↔
      ∀ requested, actionDigest action = .ok requested →
        ((tried stores policy requested (attempts requested stores)).countP fun attempt =>
          0 < attempt.lineageEdges stores policy requested) ≤ 1 ∨
        ((tried stores policy requested (attempts requested stores)).map
          (Attempt.lineageEdges stores policy requested)).sum ≤ policy.maxDependencyCount) := by
  rw [reuseCounting_eq]
  refine ⟨rfl, ?_⟩
  cases actionDigest action with
  | error e => simp
  | ok requested =>
    have hcut := @sum_map_min_le_iff policy.maxDependencyCount policy.count_pos
      ((tried stores policy requested (attempts requested stores)).map
        (Attempt.lineageEdges stores policy requested))
    rw [List.map_map, List.countP_map] at hcut
    simp only [Except.ok.injEq, forall_eq']
    exact hcut

end

/-! ### Two candidates -/

/-- A result of octet 1 by somebody else. -/
def exampleForeign : Value :=
  exampleManifest "mallory"
    (exampleDigest 0x4bf5122f344554c53bde2ebb8cd2b7e3d1600ad631c385a5d7cce23c7785459a) []

/-- The result of octet 1, deriving from the foreign one. -/
def exampleForeignFirst : Value :=
  exampleManifest "alice"
    (exampleDigest 0x4bf5122f344554c53bde2ebb8cd2b7e3d1600ad631c385a5d7cce23c7785459a)
    [exampleDigest 0x495d1815f45747f1c7acc35106cb0ae9184183a20b28696fa2a29df9c0effe07]

/-- The result of octet 2, deriving from the foreign one. -/
def exampleForeignSecond : Value :=
  exampleManifest "alice"
    (exampleDigest 0xdbc1b4c900ffe48d575b5da5c638040125f65db0fe3e24494b76ea986457d986)
    [exampleDigest 0x495d1815f45747f1c7acc35106cb0ae9184183a20b28696fa2a29df9c0effe07]

/-- Alice is trusted, and a lookup may follow one edge. -/
def exampleBudget : Policy where
  now := exampleTime "2027-01-01T00:00:00Z"
  trustedProducers := some {lit "alice"}
  maxDependencyCount := 1

/-- A lookup with a budget of one edge follows two, one for each candidate. -/
theorem not_reuse_withinBudget :
    ¬(@reuseCounting Sha256.standard exampleAction
      [(exampleStore [[1], [2]] [exampleForeign, exampleForeignFirst,
        exampleForeignSecond]).view] exampleBudget
      0).2 ≤ exampleBudget.maxDependencyCount := by
  decide +kernel

end OnceMesh
