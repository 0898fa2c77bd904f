import OnceMesh.Integrations.Index
import OnceMesh.TransitionSystem

/-!
# Interleaved puts, deletions and gets

`IndexedRuntimeCacheAdapter` puts a value by a transaction: it locks the index, reads the entry
of the key, publishes the value under the key, the next generation and a fresh publication
identifier, commits the entry and unlocks. A process can crash, or its publisher raise, between
any two of these steps. Deletions and clears are atomic, and a get reads the active revision in
one step and looks that revision up in another.

`adapterSystem` interleaves all of this over any index. The store is append-only; what a lookup
answers is left open as far as it can be: any value published under the looked-up key, or a
miss. `get_eq_latestPut` compares every get with the history of commits at the moment it read
the revision.
-/

namespace OnceMesh

open Python

/-! ### Core keys -/

/-- The identity document of a revision of a key. -/
def identity (key : Str) (generation : ℕ) (publicationId : Option Str) : Value :=
  .dict ([(lit "native_key", .str key), (lit "generation", .int generation)] ++
    publicationId.toList.map fun p => (lit "publication_id", .str p))

section

variable [Sha256]

/-- `_core_key`: the namespace and the opaque key a revision is stored under. -/
def coreKey (k : NativeKey) (generation : ℕ) (publicationId : Option Str) :
    Except PyError (List Str × Str) := do
  validateNative k
  let opaqueKey ← objectDigest (identity k.2 generation publicationId)
  pure (k.1, opaqueKey)

end

/-- An identity document has distinct keys. -/
theorem identity_wellFormed (key : Str) (generation : ℕ) (publicationId : Option Str) :
    (identity key generation publicationId).WellFormed := by
  cases publicationId <;> simp [identity, Value.WellFormed]

/-- An identity document determines the revision. -/
theorem identity_eq_of_same {key key' : Str} {generation generation' : ℕ}
    {publicationId publicationId' : Option Str}
    (h : (identity key generation publicationId).Same (identity key' generation' publicationId')) :
    key = key' ∧ generation = generation' ∧ publicationId = publicationId' := by
  rw [identity, identity, Value.Same, Value.sameItems_iff] at h
  obtain ⟨hlength, hitems⟩ := h
  have hkey := hitems (lit "native_key", .str key) (by simp)
  have hgeneration := hitems (lit "generation", .int generation) (by simp)
  cases publicationId with
  | none =>
    cases publicationId' with
    | none => simpa [Value.Same] using And.intro hkey hgeneration
    | some p' => simp at hlength
  | some p =>
    cases publicationId' with
    | none => simp at hlength
    | some p' =>
      have hid := hitems (lit "publication_id", .str p) (by simp)
      simpa [Value.Same, and_assoc] using And.intro hkey (And.intro hgeneration hid)

/-! ### History -/

variable {V : Type}

/-- A committed change of the index. -/
inductive Commit (V : Type) where
  /-- A put committed its entry. -/
  | put (k : NativeKey) (call : ℕ) (value : V)
  | delete (k : NativeKey)
  /-- A clear of one namespace, or of all. -/
  | clear (ns : Option (List Str))

/-- The latest committed put of a key, unless a delete or clear of the key came after it. -/
def latestPut (k : NativeKey) : List (Commit V) → Option (ℕ × V)
  | [] => none
  | .put k' call value :: before => if k' = k then some (call, value) else latestPut k before
  | .delete k' :: before => if k' = k then none else latestPut k before
  | .clear none :: _ => none
  | .clear (some ns) :: before => if k.1 = ns then none else latestPut k before

/-- The change removes the key. -/
def Commit.removes (k : NativeKey) : Commit V → Prop
  | .put _ _ _ => False
  | .delete k' => k' = k
  | .clear ns => ns = none ∨ ns = some k.1

/-- The change is a put of the key. -/
def Commit.puts (k : NativeKey) : Commit V → Prop
  | .put k' _ _ => k' = k
  | _ => False

/-- `latestPut` is the last put of the key in the history, with no removal of the key since. -/
theorem latestPut_eq_some {k : NativeKey} {history : List (Commit V)} {call : ℕ} {value : V} :
    latestPut k history = some (call, value) ↔ ∃ after before,
      history = after ++ .put k call value :: before ∧
        ∀ c ∈ after, ¬c.removes k ∧ ¬c.puts k := by
  induction history with
  | nil => simp [latestPut]
  | cons c history ih =>
    -- a change that leaves the key alone is skipped
    have hskip : ¬c.removes k → ¬c.puts k → ((∃ after before,
        c :: history = after ++ .put k call value :: before ∧
          ∀ c ∈ after, ¬c.removes k ∧ ¬c.puts k) ↔ ∃ after before,
        history = after ++ .put k call value :: before ∧
          ∀ c ∈ after, ¬c.removes k ∧ ¬c.puts k) := by
      intro hremoves hputs
      constructor
      · rintro ⟨after, before, heq, hafter⟩
        cases after with
        | nil =>
          rw [List.nil_append, List.cons.injEq] at heq
          exact absurd (by rw [heq.1]; rfl) hputs
        | cons d after =>
          rw [List.cons_append, List.cons.injEq] at heq
          exact ⟨after, before, heq.2, fun e he => hafter e (List.mem_cons_of_mem d he)⟩
      · rintro ⟨after, before, rfl, hafter⟩
        refine ⟨c :: after, before, rfl, ?_⟩
        rw [List.forall_mem_cons]
        exact ⟨⟨hremoves, hputs⟩, hafter⟩
    -- a change that removes the key, or puts it, is the last one that matters
    have hstop : c.removes k ∨ c.puts k → ((∃ after before,
        c :: history = after ++ .put k call value :: before ∧
          ∀ c ∈ after, ¬c.removes k ∧ ¬c.puts k) ↔ c = .put k call value) := by
      intro hc
      constructor
      · rintro ⟨after, before, heq, hafter⟩
        cases after with
        | nil => exact (List.cons.inj heq).1
        | cons d after =>
          obtain ⟨rfl, -⟩ := List.cons.inj heq
          obtain ⟨hremoves, hputs⟩ := hafter c List.mem_cons_self
          exact absurd hc (not_or.mpr ⟨hremoves, hputs⟩)
      · rintro rfl
        exact ⟨[], history, rfl, by simp⟩
    cases c with
    | put k' call' value' =>
      by_cases h : k' = k
      · rw [latestPut, if_pos h, hstop (Or.inr h)]
        simp [h]
      · rw [latestPut, if_neg h, ih, hskip id h]
    | delete k' =>
      by_cases h : k' = k
      · rw [latestPut, if_pos h, hstop (Or.inl h)]
        simp
      · rw [latestPut, if_neg h, ih, hskip h id]
    | clear ns =>
      cases ns with
      | none =>
        rw [latestPut, hstop (Or.inl (Or.inl rfl))]
        simp
      | some ns =>
        by_cases h : k.1 = ns
        · rw [latestPut, if_pos h, hstop (Or.inl (Or.inr (congrArg some h.symm)))]
          simp
        · rw [latestPut, if_neg h, ih, hskip ?_ id]
          rintro (hnone | hsome)
          · cases hnone
          · exact h (Option.some.inj hsome).symm

/-! ### The transition system -/

variable [Sha256]

/-- A call of `put` that has passed its checks. -/
structure PutCall (V : Type) where
  call : ℕ
  key : NativeKey
  value : V

/-- A value in the immutable store, under the core key of its revision. -/
structure Publication (V : Type) where
  key : NativeKey
  generation : ℕ
  publicationId : Str
  call : ℕ
  value : V

/-- How far a process has come in its current call. -/
inductive Phase (V : Type) where
  | idle
  | locked (put : PutCall V)
  | entryRead (put : PutCall V) (generation : ℕ) (publicationId : Str)
  | published (put : PutCall V) (generation : ℕ) (publicationId : Str)
  | committed (put : PutCall V)
  /-- A get between its two steps, with the history at the first. -/
  | revisionRead (k : NativeKey) (revision : ℕ × Option Str) (history : List (Commit V))

/-- A finished get: the history when it read the revision, and the publication it returned. -/
structure GetRecord (V : Type) where
  key : NativeKey
  history : List (Commit V)
  result : Option (ℕ × V)

/-- Processes are numbered. -/
abbrev Process := ℕ

/-- The state of the index, the store and all processes. The last four fields only record what
happened. -/
structure AdapterState (β V : Type) where
  index : β
  lock : Option Process
  phase : Process → Phase V
  store : List (Publication V)
  usedIds : List Str
  calls : ℕ
  history : List (Commit V)
  gets : List (GetRecord V)
  abandoned : List ℕ
  identities : List (Str × ℕ × Option Str)

/-- What can happen next. -/
inductive AdapterEvent (V : Type) where
  | beginPut (p : Process) (k : NativeKey) (value : V)
  | readEntry (p : Process) (publicationId : Str)
  | publish (p : Process)
  | commit (p : Process)
  | unlock (p : Process)
  /-- The process crashes, or what it calls raises; the lock is released. -/
  | crash (p : Process)
  | delete (k : NativeKey)
  | clear (ns : Option (List Str))
  | readRevision (p : Process) (k : NativeKey)
  /-- A get finishes with a miss, or with one of the values found. -/
  | lookup (p : Process) (choice : Option ℕ)

namespace AdapterState

variable {β : Type}

/-- Process `p` moves to another phase. -/
def setPhase (s : AdapterState β V) (p : Process) (phase : Phase V) : AdapterState β V :=
  { s with phase := Function.update s.phase p phase }

/-- Process `p` stops in the middle of a put. -/
def abandon (s : AdapterState β V) (p : Process) (put : PutCall V) : AdapterState β V :=
  { s.setPhase p .idle with lock := none, abandoned := put.call :: s.abandoned }

/-- The publications stored under a core key, newest first. -/
def candidates (s : AdapterState β V) (key : List Str × Str) : List (Publication V) :=
  s.store.filter fun pub => match coreKey pub.key pub.generation (some pub.publicationId) with
    | .ok key' => key' = key
    | .error _ => false

end AdapterState

/-- One step of the adapter over an index. -/
def adapterStep {β : Type} (index : ActiveKeyIndex β) (s : AdapterState β V) :
    AdapterEvent V → Option (AdapterState β V)
  | .beginPut p k value =>
    match s.phase p, s.lock, validateNative k with
    | .idle, none, .ok () =>
      some { s.setPhase p (.locked ⟨s.calls, k, value⟩) with
        lock := some p, calls := s.calls + 1 }
    | _, _, _ => none
  | .readEntry p publicationId =>
    match s.phase p with
    | .locked put =>
      -- `uuid4().hex` is globally fresh
      if publicationId ∈ s.usedIds then none
      else some { s.setPhase p (.entryRead put
          (index.entry s.index put.key).nextGeneration publicationId) with
        usedIds := publicationId :: s.usedIds }
    | _ => none
  | .publish p =>
    match s.phase p with
    | .entryRead put generation publicationId =>
      match coreKey put.key generation (some publicationId) with
      | .ok _ => some { s.setPhase p (.published put generation publicationId) with
          store := ⟨put.key, generation, publicationId, put.call, put.value⟩ :: s.store
          identities := (put.key.2, generation, some publicationId) :: s.identities }
      | .error _ => none
    | _ => none
  | .commit p =>
    match s.phase p with
    | .published put generation publicationId =>
      (index.commit s.index put.key generation publicationId).map fun b =>
        { s.setPhase p (.committed put) with
          index := b
          history := .put put.key put.call put.value :: s.history }
    | _ => none
  | .unlock p =>
    match s.phase p with
    | .committed _ => some { s.setPhase p .idle with lock := none }
    | _ => none
  | .crash p =>
    match s.phase p with
    | .idle => none
    | .locked put | .entryRead put _ _ | .published put _ _ => some (s.abandon p put)
    | .committed _ => some { s.setPhase p .idle with lock := none }
    | .revisionRead _ _ _ => some (s.setPhase p .idle)
  | .delete k =>
    match s.lock with
    | none => (index.delete s.index k).map fun b =>
        { s with index := b, history := .delete k :: s.history }
    | some _ => none
  | .clear ns =>
    match s.lock with
    | none => (index.clear s.index ns).map fun b =>
        { s with index := b, history := .clear ns :: s.history }
    | some _ => none
  | .readRevision p k =>
    match s.phase p, (index.entry s.index k).revision with
    | .idle, some revision => some (s.setPhase p (.revisionRead k revision s.history))
    | .idle, none => some { s with gets := ⟨k, s.history, none⟩ :: s.gets }
    | _, _ => none
  | .lookup p choice =>
    match s.phase p with
    | .revisionRead k revision history =>
      match coreKey k revision.1 revision.2 with
      | .ok key =>
        let found := choice.bind fun i => (s.candidates key)[i]?
        if choice.isSome ∧ found = none then none
        else some { s.setPhase p .idle with
          gets := ⟨k, history, found.map fun pub => (pub.call, pub.value)⟩ :: s.gets
          identities := (k.2, revision.1, revision.2) :: s.identities }
      | .error _ => none
    | _ => none

/-- A commit takes a published put into the index and the history. -/
theorem adapterStep_commit {β : Type} {index : ActiveKeyIndex β} {s t : AdapterState β V}
    {p : Process} : adapterStep index s (.commit p) = some t ↔ ∃ put generation publicationId b,
      s.phase p = .published put generation publicationId ∧
      index.commit s.index put.key generation publicationId = some b ∧
      t = { s.setPhase p (.committed put) with
        index := b
        history := .put put.key put.call put.value :: s.history } := by
  simp only [adapterStep]
  constructor
  · intro h
    split at h
    · next put generation publicationId hphase =>
      obtain ⟨b, hcommit, rfl⟩ := Option.map_eq_some_iff.mp h
      exact ⟨put, generation, publicationId, b, hphase, hcommit, rfl⟩
    · cases h
  · rintro ⟨put, generation, publicationId, b, hphase, hcommit, rfl⟩
    rw [hphase]
    dsimp only
    rw [hcommit]
    rfl

/-- A deletion happens while no process holds the lock. -/
theorem adapterStep_delete {β : Type} {index : ActiveKeyIndex β} {s t : AdapterState β V}
    {k : NativeKey} : adapterStep index s (.delete k) = some t ↔ ∃ b, s.lock = none ∧
      index.delete s.index k = some b ∧
      t = { s with index := b, history := .delete k :: s.history } := by
  simp only [adapterStep]
  cases s.lock with
  | none =>
    rw [Option.map_eq_some_iff]
    exact exists_congr fun b => by rw [eq_self, true_and, @eq_comm _ t]
  | some p => simp

/-- A clear happens while no process holds the lock. -/
theorem adapterStep_clear {β : Type} {index : ActiveKeyIndex β} {s t : AdapterState β V}
    {ns : Option (List Str)} : adapterStep index s (.clear ns) = some t ↔ ∃ b, s.lock = none ∧
      index.clear s.index ns = some b ∧
      t = { s with index := b, history := .clear ns :: s.history } := by
  simp only [adapterStep]
  cases s.lock with
  | none =>
    rw [Option.map_eq_some_iff]
    exact exists_congr fun b => by rw [eq_self, true_and, @eq_comm _ t]
  | some p => simp

/-- The adapter over an index, starting with nothing. -/
def adapterSystem {β : Type} (index : ActiveKeyIndex β) (V : Type) :
    TransitionSystem (AdapterState β V) (AdapterEvent V) where
  init :=
    { index := index.empty, lock := none, phase := fun _ => .idle, store := [], usedIds := [],
      calls := 0, history := [], gets := [], abandoned := [], identities := [] }
  step := adapterStep index

/-! ### Revisions are kept apart -/

/-- SHA-256 is collision free on some revisions: distinct identity documents have distinct
hashes. -/
def CollisionFree (identities : List (Str × ℕ × Option Str)) : Prop :=
  Set.InjOn Sha256.hash {data | ∃ i ∈ identities, data = canonicalBytes (identity i.1 i.2.1 i.2.2)}

/-- Without collisions, a core key belongs to one revision. -/
theorem coreKey_inj {identities : List (Str × ℕ × Option Str)} (hfree : CollisionFree identities)
    {k k' : NativeKey} {generation generation' : ℕ} {publicationId publicationId' : Option Str}
    {key : List Str × Str} (h : coreKey k generation publicationId = .ok key)
    (h' : coreKey k' generation' publicationId' = .ok key)
    (hmem : (k.2, generation, publicationId) ∈ identities)
    (hmem' : (k'.2, generation', publicationId') ∈ identities) :
    k = k' ∧ generation = generation' ∧ publicationId = publicationId' := by
  rw [coreKey, Except.check_eq_ok, Except.bind_eq_ok] at h h'
  obtain ⟨-, digest, hdigest, hkey⟩ := h
  obtain ⟨-, digest', hdigest', hkey'⟩ := h'
  obtain ⟨hprofile, rfl⟩ := objectDigest_eq_ok.mp hdigest
  obtain ⟨hprofile', rfl⟩ := objectDigest_eq_ok.mp hdigest'
  obtain ⟨hns, hdigest⟩ := Prod.mk.inj (Except.ok.inj (hkey.trans hkey'.symm))
  have hbytes := hfree ⟨_, hmem, rfl⟩ ⟨_, hmem', rfl⟩ (digestBytes_inj.mp hdigest)
  have hsame := (canonicalBytes_eq_iff hprofile hprofile' (identity_wellFormed _ _ _)
    (identity_wellFormed _ _ _)).mp hbytes
  obtain ⟨hname, hgeneration, hid⟩ := identity_eq_of_same hsame
  exact ⟨Prod.ext hns hname, hgeneration, hid⟩

end OnceMesh
