import OnceMesh.Integrations.Generations
import OnceMesh.Integrations.NoResurrection

/-!
# The adapter over the three indexes

`IndexImplementation.activeKeyIndex` is an index as the adapter uses it, over its valid states: a
commit is what `publish_and_activate` does once its publisher has returned. The results about the
adapter are about every such index, so that they hold of the indexes in memory, in a file and in a
database (`indexes_getsLatest`).

While a put holds the lock, the entry of its key stays as the put has read it (`PutsHold`).
A commit therefore fails only where the index itself refuses the call (`isSome_commit_iff`).
-/

namespace OnceMesh

open Python

namespace IndexImplementation

variable {β : Type} {I : IndexImplementation β}

/-- The state after a call, if the call returns. -/
def after (I : IndexImplementation β) (b : {b // I.Valid b}) (c : IndexCall) :
    Option {b // I.Valid b} :=
  if (I.call c b.1).1.isOk then some ⟨(I.call c b.1).2, valid_call b.2 c⟩ else none

/-- The entry of a key in an index that has gone through some calls. -/
theorem entry_of_after {b b' : {b // I.Valid b}} {c : IndexCall} (h : I.after b c = some b') :
    I.entry b'.1 = c.apply (I.entry b.1) := by
  rw [after] at h
  split_ifs at h with hok
  cases h
  rw [entry_call b.2, if_pos hok]

/-- The end of `publish_and_activate`, for a put that has read the entry of its key. -/
def commit (I : IndexImplementation β) (b : {b // I.Valid b}) (k : NativeKey) (generation : ℕ)
    (publicationId : Str) : Option {b // I.Valid b} :=
  if h : isPublicationId publicationId = true ∧ generation = (I.entry b.1 k).nextGeneration then
    I.after b (.publishAndActivate k ⟨publicationId, h.1⟩ fun _ _ => .ok ())
  else none

/-- The index as the adapter uses it. -/
def activeKeyIndex (I : IndexImplementation β) : ActiveKeyIndex {b // I.Valid b} where
  empty := ⟨I.empty, I.valid_empty⟩
  entry b := I.entry b.1
  commit := I.commit
  delete b k := I.after b (.delete k)
  clearNamespace b ns := I.after b (.clearNamespace ns)
  clearAll b := I.after b .clearAll
  entry_empty := I.entry_empty
  entry_commit := by
    intro b k generation publicationId b' h k'
    rw [commit] at h
    split_ifs at h with hvalid
    have hread := hvalid.2
    subst hread
    rw [entry_of_after h, IndexCall.apply]
    split_ifs with hk
    · rw [hk]
      rfl
    · rfl
  entry_delete := by
    intro b k b' h k'
    rw [entry_of_after h, IndexCall.apply]
    split_ifs with hk
    · rw [hk]
    · rfl
  entry_clearNamespace := by
    intro b ns b' h k
    rw [entry_of_after h, IndexCall.apply]
  entry_clearAll := by
    intro b b' h k
    rw [entry_of_after h, IndexCall.apply]

end IndexImplementation

section

variable {V β : Type} [Sha256]

/-! ### The generation that a put has read -/

/-- The phase of a put that has read the entry of its key: it would read the same again. -/
def Phase.Holds {γ : Type} (index : ActiveKeyIndex γ) (b : γ) : Phase V → Prop
  | .entryRead put generation _ | .published put generation _ =>
    generation = (index.entry b put.key).nextGeneration
  | _ => True

/-- Every put that has read the entry of its key would read the same again. -/
def PutsHold {γ : Type} (index : ActiveKeyIndex γ) (s : AdapterState γ V) : Prop :=
  ∀ p, (s.phase p).Holds index s.index

omit [Sha256] in
/-- A process that does not hold the lock has read no entry. -/
theorem Phase.holds_of_lock_ne {γ : Type} {index : ActiveKeyIndex γ} {s : AdapterState γ V}
    {p : Process} {phase : Phase V} (h : PhaseInvariant s p phase) (hlock : s.lock ≠ some p)
    (b : γ) : phase.Holds index b := by
  cases phase with
  | entryRead put generation publicationId => exact absurd h.1 hlock
  | published put generation publicationId => exact absurd h.1 hlock
  | _ => trivial

omit [Sha256] in
/-- While the index stays, only the process that moves may have read something new. -/
theorem PutsHold.setPhase {γ : Type} {index : ActiveKeyIndex γ} {s t : AdapterState γ V}
    (h : PutsHold index s) {p : Process} {phase : Phase V} (hindex : t.index = s.index)
    (hphase : t.phase = Function.update s.phase p phase) (hp : phase.Holds index s.index) :
    PutsHold index t := by
  intro q
  rw [hindex, hphase, Function.update_apply]
  split_ifs
  · exact hp
  · exact h q

/-- The index changes only when no other put has read an entry. -/
theorem PutsHold.step {γ : Type} {index : ActiveKeyIndex γ} {s t : AdapterState γ V}
    (hholds : PutsHold index s) (hinv : AdapterInvariant index s) {e : AdapterEvent V}
    (h : adapterStep index s e = some t) : PutsHold index t := by
  cases e with
  | commit p =>
    obtain ⟨put, _, _, b, hphase, -, rfl⟩ := adapterStep_commit.mp h
    have hlock : s.lock = some p := by
      have hp := hinv.phases p
      rw [hphase] at hp
      exact hp.1
    intro q
    show (Function.update s.phase p (.committed put) q).Holds index b
    rw [Function.update_apply]
    split_ifs with hq
    · trivial
    · exact Phase.holds_of_lock_ne (hinv.phases q) (lock_ne hlock hq) b
  | delete k =>
    obtain ⟨b, hlock, -, rfl⟩ := adapterStep_delete.mp h
    exact fun q => Phase.holds_of_lock_ne (hinv.phases q) (by simp [hlock]) b
  | clear ns =>
    obtain ⟨b, hlock, -, rfl⟩ := adapterStep_clear.mp h
    exact fun q => Phase.holds_of_lock_ne (hinv.phases q) (by simp [hlock]) b
  | publish p =>
    simp only [adapterStep] at h
    split at h
    · next put generation publicationId hphase =>
      split at h
      · cases h
        have hp := hholds p
        rw [hphase] at hp
        exact hholds.setPhase rfl rfl hp
      · cases h
    · cases h
  | readRevision p k =>
    simp only [adapterStep] at h
    split at h
    · cases h
      exact hholds.setPhase rfl rfl trivial
    · cases h
      exact hholds
    · cases h
  | _ =>
    simp only [adapterStep] at h
    (repeat' split at h) <;> cases h <;>
      first
        | exact hholds.setPhase rfl rfl trivial
        | exact hholds.setPhase rfl rfl rfl

/-- In every run, the entry of a key stays as a put in its transaction has read it. -/
theorem putsHold_of_run {γ : Type} {index : ActiveKeyIndex γ} {events : List (AdapterEvent V)}
    {s : AdapterState γ V} (hrun : (adapterSystem index V).run events = some s) :
    PutsHold index s := by
  have hboth : AdapterInvariant index s ∧ PutsHold index s := by
    refine TransitionSystem.run_induction
      (P := fun s => AdapterInvariant index s ∧ PutsHold index s)
      ⟨AdapterInvariant.init, fun _ => trivial⟩ ?_ hrun
    rintro s e t ⟨hinv, hholds⟩ hstep
    exact ⟨hinv.step hstep, hholds.step hinv hstep⟩
  exact hboth.2

/-- After every run, a put that has published its value can commit it exactly if the index accepts
the publication of its key. -/
theorem isSome_commit_iff {I : IndexImplementation β} {events : List (AdapterEvent V)}
    {s : AdapterState {b // I.Valid b} V}
    (hrun : (adapterSystem I.activeKeyIndex V).run events = some s) {p : Process} {put : PutCall V}
    {generation : ℕ} {publicationId : PublicationId}
    (hphase : s.phase p = .published put generation publicationId.hex) :
    (adapterStep I.activeKeyIndex s (.commit p)).isSome = true ↔
      (I.call (.publishAndActivate put.key publicationId fun _ _ => .ok ()) s.index.1).1.isOk =
        true := by
  have hread : generation = (I.entry s.index.1 put.key).nextGeneration := by
    have hp := putsHold_of_run hrun p
    rw [hphase] at hp
    exact hp
  have hcommit : I.activeKeyIndex.commit s.index put.key generation publicationId.hex =
      I.after s.index (.publishAndActivate put.key publicationId fun _ _ => .ok ()) :=
    dif_pos ⟨publicationId.valid, hread⟩
  simp only [adapterStep]
  rw [hphase]
  dsimp only
  rw [hcommit, Option.isSome_map, IndexImplementation.after]
  split_ifs with hok
  · exact iff_of_true rfl hok
  · exact iff_of_false Bool.false_ne_true hok

/-! ### Every index -/

/-- In every run over the index, the entry of each key agrees with the history of commits, and every
get missed or returned the latest put of its key. -/
def LatestGets (I : IndexImplementation β) (V : Type) : Prop :=
  ∀ (events : List (AdapterEvent V)) (s : AdapterState {b // I.Valid b} V),
    (adapterSystem I.activeKeyIndex V).run events = some s → CollisionFree s.identities →
      AdapterInvariant I.activeKeyIndex s ∧ GetsLatest s

/-- Over each of the three indexes, no value is resurrected. -/
theorem indexes_latestGets (V : Type) :
    LatestGets memoryIndex V ∧ LatestGets filesystemIndex V ∧ LatestGets sqliteIndex V :=
  ⟨fun _ _ => getsLatest_of_run, fun _ _ => getsLatest_of_run, fun _ _ => getsLatest_of_run⟩

end

/-- The value of a put is found through the file and through the database. -/
example :
    ((@adapterSystem Sha256.standard _ filesystemIndex.activeKeyIndex ℕ).run putThenGet).map
        (fun s => s.gets.map GetRecord.result) = some [some (0, 7)] ∧
      ((@adapterSystem Sha256.standard _ sqliteIndex.activeKeyIndex ℕ).run putThenGet).map
        (fun s => s.gets.map GetRecord.result) = some [some (0, 7)] := by
  decide +kernel

end OnceMesh
