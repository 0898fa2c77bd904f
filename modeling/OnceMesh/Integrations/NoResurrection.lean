import OnceMesh.Integrations.Interleaving

/-!
# No resurrection

Whatever the interleaving and wherever processes crash, a get returns a miss or the latest
committed put of its key at the moment it read the revision. `AdapterInvariant` is what every
step preserves: the entry of each key agrees with the history of commits, and each process in
the middle of a call still has what it relies on. Old values stay in the store for ever; they
are invisible because an entry names a generation together with a publication identifier, and
no identifier is used twice.
-/

namespace OnceMesh

open Python

variable {V β : Type}

/-! ### The invariant -/

/-- The number of the put a change commits. -/
def Commit.call? : Commit V → Option ℕ
  | .put _ call _ => some call
  | _ => none

/-- The put has a number of its own: neither abandoned nor committed. -/
structure Pending (s : AdapterState β V) (put : PutCall V) : Prop where
  lt : put.call < s.calls
  notAbandoned : put.call ∉ s.abandoned
  notCommitted : ∀ c ∈ s.history, c.call? ≠ some put.call

/-- The publication is the latest put of its key in a history. -/
structure IsLatest (s : AdapterState β V) (k : NativeKey) (generation : ℕ)
    (publicationId : Option Str) (history : List (Commit V)) (pub : Publication V) : Prop where
  stored : pub ∈ s.store
  key : pub.key = k
  generation : pub.generation = generation
  publicationId : some pub.publicationId = publicationId
  latest : latestPut k history = some (pub.call, pub.value)

/-- What a process relies on in the middle of a call. -/
def PhaseInvariant (s : AdapterState β V) (p : Process) : Phase V → Prop
  | .idle => True
  | .locked put => s.lock = some p ∧ Pending s put
  | .entryRead put _ publicationId =>
    s.lock = some p ∧ Pending s put ∧ publicationId ∈ s.usedIds ∧
      ∀ pub ∈ s.store, pub.publicationId ≠ publicationId
  | .published put generation publicationId =>
    s.lock = some p ∧ Pending s put ∧
      ⟨put.key, generation, publicationId, put.call, put.value⟩ ∈ s.store
  | .committed _ => s.lock = some p
  | .revisionRead k revision history =>
    (∃ after, s.history = after ++ history) ∧
      ∃ pub, IsLatest s k revision.1 revision.2 history pub

/-- The invariant of the adapter over an index. -/
structure AdapterInvariant (index : ActiveKeyIndex β) (s : AdapterState β V) : Prop where
  /-- An inactive key has no latest put. -/
  inactive : ∀ k, (index.entry s.index k).active = false → latestPut k s.history = none
  /-- The entry of an active key points to the publication of its latest put. -/
  active : ∀ k, (index.entry s.index k).active = true → ∃ pub,
    IsLatest s k (index.entry s.index k).generation (index.entry s.index k).publicationId
      s.history pub
  /-- Publication identifiers are used once. -/
  distinct : (s.store.map Publication.publicationId).Nodup
  usedIds : ∀ pub ∈ s.store, pub.publicationId ∈ s.usedIds
  identities : ∀ pub ∈ s.store,
    (pub.key.2, pub.generation, some pub.publicationId) ∈ s.identities
  phases : ∀ p, PhaseInvariant s p (s.phase p)
  /-- A put that was abandoned is never committed. -/
  abandoned : ∀ n ∈ s.abandoned, n < s.calls ∧ ∀ c ∈ s.history, c.call? ≠ some n
  committed : ∀ c ∈ s.history, ∀ n, c.call? = some n → n < s.calls
  /-- A get has read the history as it was at some moment. -/
  gets : ∀ r ∈ s.gets, ∃ after, s.history = after ++ r.history

/-! ### What a step leaves alone -/

/-- A latest publication stays one as the store grows. -/
theorem IsLatest.mono {s t : AdapterState β V} {k : NativeKey} {generation : ℕ}
    {publicationId : Option Str} {history : List (Commit V)} {pub : Publication V}
    (h : IsLatest s k generation publicationId history pub) (hstore : s.store ⊆ t.store) :
    IsLatest t k generation publicationId history pub :=
  ⟨hstore h.stored, h.key, h.generation, h.publicationId, h.latest⟩

/-- A process without the lock is not disturbed by commits and publications. -/
theorem PhaseInvariant.of_unlocked {s t : AdapterState β V} {q : Process} {phase : Phase V}
    (h : PhaseInvariant s q phase) (hlock : s.lock ≠ some q) (hstore : s.store ⊆ t.store)
    (hhistory : ∃ after, t.history = after ++ s.history) : PhaseInvariant t q phase := by
  cases phase with
  | idle => trivial
  | locked put => exact absurd h.1 hlock
  | entryRead put generation publicationId => exact absurd h.1 hlock
  | published put generation publicationId => exact absurd h.1 hlock
  | committed put => exact absurd h hlock
  | revisionRead k revision history =>
    obtain ⟨⟨after, hafter⟩, pub, hpub⟩ := h
    obtain ⟨after', hafter'⟩ := hhistory
    exact ⟨⟨after' ++ after, by rw [hafter', hafter, List.append_assoc]⟩, pub, hpub.mono hstore⟩

/-- A process is not disturbed by a change of what it does not look at. -/
theorem PhaseInvariant.congr {s t : AdapterState β V} {q : Process} {phase : Phase V}
    (h : PhaseInvariant s q phase) (hlock : t.lock = s.lock) (hstore : t.store = s.store)
    (hhistory : t.history = s.history) (hused : t.usedIds = s.usedIds)
    (hcalls : t.calls = s.calls) (habandoned : t.abandoned = s.abandoned) :
    PhaseInvariant t q phase := by
  obtain ⟨index, lock, phases, store, usedIds, calls, history, gets, abandoned, identities⟩ := t
  simp only at hlock hstore hhistory hused hcalls habandoned
  subst hlock hstore hhistory hused hcalls habandoned
  let t : AdapterState β V := ⟨index, s.lock, phases, s.store, s.usedIds, s.calls, s.history, gets,
    s.abandoned, identities⟩
  have hpending : ∀ {put}, Pending s put → Pending t put := fun h => ⟨h.1, h.2, h.3⟩
  cases phase with
  | idle => trivial
  | locked put => exact ⟨h.1, hpending h.2⟩
  | entryRead put generation publicationId => exact ⟨h.1, hpending h.2.1, h.2.2⟩
  | published put generation publicationId => exact ⟨h.1, hpending h.2.1, h.2.2⟩
  | committed put => exact h
  | revisionRead k revision history =>
    obtain ⟨hsuffix, pub, hpub⟩ := h
    exact ⟨hsuffix, pub, hpub.mono (by simp)⟩

/-- After process `p` has moved, every process has what it relies on, if `p` has in its new phase
and the others keep it. -/
theorem phases_setPhase {s t : AdapterState β V} {p : Process} {phase : Phase V}
    (hphase : t.phase = Function.update s.phase p phase) (hp : PhaseInvariant t p phase)
    (hothers : ∀ q, q ≠ p → PhaseInvariant t q (s.phase q)) :
    ∀ q, PhaseInvariant t q (t.phase q) := by
  intro q
  rw [hphase]
  by_cases hq : q = p
  · subst hq
    rwa [Function.update_self]
  · rw [Function.update_of_ne hq]
    exact hothers q hq

/-- Only one process has the lock. -/
theorem lock_ne {s : AdapterState β V} {p q : Process} (h : s.lock = some p) (hq : q ≠ p) :
    s.lock ≠ some q := by
  rw [h]
  exact fun heq => hq (Option.some.inj heq).symm

/-- A removed key has no latest put. -/
theorem latestPut_of_removes {c : Commit V} {k : NativeKey} (h : c.removes k)
    (history : List (Commit V)) : latestPut k (c :: history) = none := by
  cases c with
  | put k' call value => exact absurd h id
  | delete k' => exact if_pos h
  | clear ns =>
    rcases h with rfl | rfl
    · rfl
    · rw [latestPut, if_pos rfl]

/-- The removal of other keys does not change the latest put. -/
theorem latestPut_of_not_removes {c : Commit V} {k : NativeKey} (h : ¬c.removes k)
    (hcall : c.call? = none) (history : List (Commit V)) :
    latestPut k (c :: history) = latestPut k history := by
  cases c with
  | put k' call value => cases hcall
  | delete k' => exact if_neg h
  | clear ns =>
    cases ns with
    | none => exact absurd (Or.inl rfl) h
    | some ns => rw [latestPut, if_neg fun heq => h (Or.inr (congrArg some heq.symm))]

/-- A deleted entry is inactive. -/
theorem IndexEntry.deleted_active (e : IndexEntry) : e.deleted.active = false := by
  unfold deleted
  split_ifs with h
  · rfl
  · simpa using h

/-! ### Each step preserves the invariant -/

section

variable {index : ActiveKeyIndex β} {s t : AdapterState β V}

/-- Releasing the lock after the commit. -/
theorem AdapterInvariant.release (hinv : AdapterInvariant index s) {p : Process}
    (hlock : s.lock = some p) :
    AdapterInvariant index { s.setPhase p .idle with lock := none } where
  inactive := hinv.inactive
  active k hk := (hinv.active k hk).imp fun _ hpub => hpub.mono (List.Subset.refl _)
  distinct := hinv.distinct
  usedIds := hinv.usedIds
  identities := hinv.identities
  phases := phases_setPhase rfl trivial fun q hq =>
    (hinv.phases q).of_unlocked (lock_ne hlock hq) (List.Subset.refl _) ⟨[], rfl⟩
  abandoned := hinv.abandoned
  committed := hinv.committed
  gets := hinv.gets

/-- Stopping before the commit. -/
theorem AdapterInvariant.abandon (hinv : AdapterInvariant index s) {p : Process} {put : PutCall V}
    (hlock : s.lock = some p) (hput : Pending s put) :
    AdapterInvariant index (s.abandon p put) where
  inactive := hinv.inactive
  active k hk := (hinv.active k hk).imp fun _ hpub => hpub.mono (List.Subset.refl _)
  distinct := hinv.distinct
  usedIds := hinv.usedIds
  identities := hinv.identities
  phases := phases_setPhase rfl trivial fun q hq =>
    (hinv.phases q).of_unlocked (lock_ne hlock hq) (List.Subset.refl _) ⟨[], rfl⟩
  abandoned := List.forall_mem_cons.mpr ⟨⟨hput.lt, hput.notCommitted⟩, hinv.abandoned⟩
  committed := hinv.committed
  gets := hinv.gets

/-- A change that deactivates the keys it removes and leaves the others alone. -/
theorem AdapterInvariant.remove (hinv : AdapterInvariant index s) {index' : β} {c : Commit V}
    (hlock : s.lock = none) (hcall : c.call? = none)
    (hremoved : ∀ k, c.removes k → (index.entry index' k).active = false)
    (hkept : ∀ k, ¬c.removes k → index.entry index' k = index.entry s.index k) :
    AdapterInvariant index { s with index := index', history := c :: s.history } where
  inactive k hk := by
    by_cases hr : c.removes k
    · exact latestPut_of_removes hr _
    · rw [latestPut_of_not_removes hr hcall]
      exact hinv.inactive k (hkept k hr ▸ hk)
  active k hk := by
    by_cases hr : c.removes k
    · rw [hremoved k hr] at hk
      cases hk
    · simp only [hkept k hr] at hk ⊢
      obtain ⟨pub, hpub⟩ := hinv.active k hk
      refine ⟨pub, hpub.stored, hpub.key, hpub.generation, hpub.publicationId, ?_⟩
      rw [latestPut_of_not_removes hr hcall]
      exact hpub.latest
  distinct := hinv.distinct
  usedIds := hinv.usedIds
  identities := hinv.identities
  phases q := (hinv.phases q).of_unlocked (by simp [hlock]) (List.Subset.refl _) ⟨[c], rfl⟩
  abandoned n hn := ⟨(hinv.abandoned n hn).1, List.forall_mem_cons.mpr
    ⟨by simp [hcall], (hinv.abandoned n hn).2⟩⟩
  committed := List.forall_mem_cons.mpr ⟨by simp [hcall], hinv.committed⟩
  gets r hr := by
    obtain ⟨after, hafter⟩ := hinv.gets r hr
    exact ⟨c :: after, congrArg _ hafter⟩

variable [Sha256]

/-- Nothing has happened yet. -/
theorem AdapterInvariant.init : AdapterInvariant index (adapterSystem index V).init where
  inactive _ _ := rfl
  active k h := by
    rw [show index.entry (adapterSystem index V).init.index k = .absent from index.entry_empty k]
      at h
    cases h
  distinct := List.nodup_nil
  usedIds _ h := by cases h
  identities _ h := by cases h
  phases _ := trivial
  abandoned _ h := by cases h
  committed _ h := by cases h
  gets _ h := by cases h

/-- Taking the lock for a put. -/
theorem AdapterInvariant.beginPut (hinv : AdapterInvariant index s) {p : Process} {k : NativeKey}
    {value : V} (h : adapterStep index s (.beginPut p k value) = some t) :
    AdapterInvariant index t := by
  simp only [adapterStep] at h
  split at h
  · next hphase hlock _ =>
    cases h
    have hfree : ∀ q, s.lock ≠ some q := by simp [hlock]
    exact
      { inactive := hinv.inactive
        active := fun k hk => (hinv.active k hk).imp fun _ hpub => hpub.mono (List.Subset.refl _)
        distinct := hinv.distinct
        usedIds := hinv.usedIds
        identities := hinv.identities
        phases := phases_setPhase rfl
          ⟨rfl, Nat.lt_succ_self _, fun hmem => (hinv.abandoned _ hmem).1.false,
            fun c hc hcall => (hinv.committed c hc _ hcall).false⟩
          fun q _ => (hinv.phases q).of_unlocked (hfree q) (List.Subset.refl _) ⟨[], rfl⟩
        abandoned := fun n hn => ⟨Nat.lt_succ_of_lt (hinv.abandoned n hn).1,
          (hinv.abandoned n hn).2⟩
        committed := fun c hc n hn => Nat.lt_succ_of_lt (hinv.committed c hc n hn)
        gets := hinv.gets }
  · cases h

/-- Reading the entry, with a fresh publication identifier. -/
theorem AdapterInvariant.readEntry (hinv : AdapterInvariant index s) {p : Process}
    {publicationId : Str} (h : adapterStep index s (.readEntry p publicationId) = some t) :
    AdapterInvariant index t := by
  simp only [adapterStep] at h
  split at h
  · next put hphase =>
    split at h
    · cases h
    · next hfresh =>
      cases h
      obtain ⟨hlock, hlt, hab, hcom⟩ : PhaseInvariant s p (.locked put) :=
        hphase ▸ hinv.phases p
      exact
        { inactive := hinv.inactive
          active := fun k hk =>
            (hinv.active k hk).imp fun _ hpub => hpub.mono (List.Subset.refl _)
          distinct := hinv.distinct
          usedIds := fun pub hpub => List.mem_cons_of_mem _ (hinv.usedIds pub hpub)
          identities := hinv.identities
          phases := phases_setPhase rfl
            ⟨hlock, ⟨hlt, hab, hcom⟩, List.mem_cons_self,
              fun pub hpub heq => hfresh (heq ▸ hinv.usedIds pub hpub)⟩
            fun q hq => (hinv.phases q).of_unlocked (lock_ne hlock hq) (List.Subset.refl _)
              ⟨[], rfl⟩
          abandoned := hinv.abandoned
          committed := hinv.committed
          gets := hinv.gets }
  · cases h

/-- Publishing the value under its revision. -/
theorem AdapterInvariant.publish (hinv : AdapterInvariant index s) {p : Process}
    (h : adapterStep index s (.publish p) = some t) : AdapterInvariant index t := by
  simp only [adapterStep] at h
  split at h
  · next put generation publicationId hphase =>
    split at h
    · cases h
      obtain ⟨hlock, ⟨hlt, hab, hcom⟩, hused, hfresh⟩ :
          PhaseInvariant s p (.entryRead put generation publicationId) := hphase ▸ hinv.phases p
      exact
        { inactive := hinv.inactive
          active := fun k hk =>
            (hinv.active k hk).imp fun _ hpub => hpub.mono (List.subset_cons_self _ _)
          distinct := by
            refine List.nodup_cons.mpr ⟨fun hmem => ?_, hinv.distinct⟩
            obtain ⟨pub, hpub, hid⟩ := List.mem_map.mp hmem
            exact hfresh pub hpub hid
          usedIds := List.forall_mem_cons.mpr ⟨hused, hinv.usedIds⟩
          identities := List.forall_mem_cons.mpr ⟨List.mem_cons_self,
            fun pub hpub => List.mem_cons_of_mem _ (hinv.identities pub hpub)⟩
          phases := phases_setPhase rfl ⟨hlock, ⟨hlt, hab, hcom⟩, List.mem_cons_self⟩
            fun q hq => (hinv.phases q).of_unlocked (lock_ne hlock hq)
              (List.subset_cons_self _ _) ⟨[], rfl⟩
          abandoned := hinv.abandoned
          committed := hinv.committed
          gets := hinv.gets }
    · cases h
  · cases h

/-- Committing the entry. -/
theorem AdapterInvariant.commit (hinv : AdapterInvariant index s) {p : Process}
    (h : adapterStep index s (.commit p) = some t) : AdapterInvariant index t := by
  obtain ⟨put, generation, publicationId, b, hphase, hcommit, rfl⟩ := adapterStep_commit.mp h
  obtain ⟨hlock, ⟨hlt, hab, hcom⟩, hstored⟩ :
      PhaseInvariant s p (.published put generation publicationId) := hphase ▸ hinv.phases p
  have hentry := index.entry_commit hcommit
  exact
    { inactive := fun k hk => by
        simp only [hentry] at hk ⊢
        split_ifs at hk with hkey
        rw [latestPut, if_neg (Ne.symm hkey)]
        exact hinv.inactive k hk
      active := fun k hk => by
        simp only [hentry] at hk ⊢
        by_cases hkey : k = put.key
        · subst hkey
          rw [if_pos rfl]
          exact ⟨_, hstored, rfl, rfl, rfl, by rw [latestPut, if_pos rfl]⟩
        · rw [if_neg hkey] at hk ⊢
          obtain ⟨pub, hpub⟩ := hinv.active k hk
          refine ⟨pub, hpub.stored, hpub.key, hpub.generation, hpub.publicationId, ?_⟩
          rw [latestPut, if_neg (Ne.symm hkey)]
          exact hpub.latest
      distinct := hinv.distinct
      usedIds := hinv.usedIds
      identities := hinv.identities
      phases := phases_setPhase rfl hlock
        fun q hq => (hinv.phases q).of_unlocked (lock_ne hlock hq) (List.Subset.refl _)
          ⟨[_], rfl⟩
      abandoned := fun n hn => ⟨(hinv.abandoned n hn).1, List.forall_mem_cons.mpr
        ⟨fun heq => hab (Option.some.inj heq ▸ hn), (hinv.abandoned n hn).2⟩⟩
      committed := List.forall_mem_cons.mpr
        ⟨fun n hn => Option.some.inj hn ▸ hlt, hinv.committed⟩
      gets := fun r hr => by
        obtain ⟨after, hafter⟩ := hinv.gets r hr
        exact ⟨_ :: after, congrArg _ hafter⟩ }

/-- A crash, at any point of a call. -/
theorem AdapterInvariant.crash (hinv : AdapterInvariant index s) {p : Process}
    (h : adapterStep index s (.crash p) = some t) : AdapterInvariant index t := by
  have hp := hinv.phases p
  simp only [adapterStep] at h
  split at h
  · cases h
  · next put hphase =>
    cases h
    rw [hphase] at hp
    exact hinv.abandon hp.1 hp.2
  · next put _ _ hphase =>
    cases h
    rw [hphase] at hp
    exact hinv.abandon hp.1 hp.2.1
  · next put _ _ hphase =>
    cases h
    rw [hphase] at hp
    exact hinv.abandon hp.1 hp.2.1
  · next hphase =>
    cases h
    rw [hphase] at hp
    exact hinv.release hp
  · cases h
    exact
      { inactive := hinv.inactive
        active := fun k hk => (hinv.active k hk).imp fun _ hpub => hpub.mono (List.Subset.refl _)
        distinct := hinv.distinct
        usedIds := hinv.usedIds
        identities := hinv.identities
        phases := phases_setPhase rfl trivial fun q _ =>
          (hinv.phases q).congr rfl rfl rfl rfl rfl rfl
        abandoned := hinv.abandoned
        committed := hinv.committed
        gets := hinv.gets }

/-- A process gives the lock back. -/
theorem AdapterInvariant.unlock (hinv : AdapterInvariant index s) {p : Process}
    (h : adapterStep index s (.unlock p) = some t) : AdapterInvariant index t := by
  have hp := hinv.phases p
  simp only [adapterStep] at h
  split at h
  · next hphase =>
    cases h
    rw [hphase] at hp
    exact hinv.release hp
  · cases h

/-- A key is deleted. -/
theorem AdapterInvariant.delete (hinv : AdapterInvariant index s) {k : NativeKey}
    (h : adapterStep index s (.delete k) = some t) : AdapterInvariant index t := by
  obtain ⟨b, hlock, hdelete, rfl⟩ := adapterStep_delete.mp h
  refine hinv.remove hlock rfl ?_ ?_
  · rintro k' rfl
    rw [index.entry_delete hdelete, if_pos rfl]
    exact IndexEntry.deleted_active _
  · intro k' hk'
    rw [index.entry_delete hdelete, if_neg (Ne.symm hk')]

/-- The keys of a namespace, or all keys, are cleared. -/
theorem AdapterInvariant.clear (hinv : AdapterInvariant index s) {ns : Option (List Str)}
    (h : adapterStep index s (.clear ns) = some t) : AdapterInvariant index t := by
  obtain ⟨b, hlock, hclear, rfl⟩ := adapterStep_clear.mp h
  cases ns with
  | none =>
    refine hinv.remove hlock rfl ?_ ?_
    · intro k _
      rw [index.entry_clearAll hclear]
      exact IndexEntry.deleted_active _
    · intro k hk
      exact absurd (Or.inl rfl) hk
  | some ns =>
    refine hinv.remove hlock rfl ?_ ?_
    · rintro k (hnone | hsome)
      · cases hnone
      · rw [index.entry_clearNamespace hclear, if_pos (Option.some.inj hsome).symm]
        exact IndexEntry.deleted_active _
    · intro k hk
      rw [index.entry_clearNamespace hclear, if_neg fun heq => hk (Or.inr (congrArg some heq.symm))]

/-- Reading the active revision. -/
theorem AdapterInvariant.readRevision (hinv : AdapterInvariant index s) {p : Process}
    {k : NativeKey} (h : adapterStep index s (.readRevision p k) = some t) :
    AdapterInvariant index t := by
  simp only [adapterStep] at h
  split at h
  · next revision hphase hrevision =>
    cases h
    unfold IndexEntry.revision at hrevision
    split at hrevision
    · next hactive =>
      cases hrevision
      obtain ⟨pub, hpub⟩ := hinv.active k hactive
      exact
        { inactive := hinv.inactive
          active := fun k hk =>
            (hinv.active k hk).imp fun _ hpub => hpub.mono (List.Subset.refl _)
          distinct := hinv.distinct
          usedIds := hinv.usedIds
          identities := hinv.identities
          phases := phases_setPhase rfl
            ⟨⟨[], rfl⟩, pub, hpub.mono (List.Subset.refl _)⟩ fun q _ =>
            (hinv.phases q).congr rfl rfl rfl rfl rfl rfl
          abandoned := hinv.abandoned
          committed := hinv.committed
          gets := hinv.gets }
    · cases hrevision
  · cases h
    exact
      { inactive := hinv.inactive
        active := fun k hk => (hinv.active k hk).imp fun _ hpub => hpub.mono (List.Subset.refl _)
        distinct := hinv.distinct
        usedIds := hinv.usedIds
        identities := hinv.identities
        phases := fun q => (hinv.phases q).congr rfl rfl rfl rfl rfl rfl
        abandoned := hinv.abandoned
        committed := hinv.committed
        gets := List.forall_mem_cons.mpr ⟨⟨[], rfl⟩, hinv.gets⟩ }
  · cases h

/-- Looking the revision up. -/
theorem AdapterInvariant.lookup (hinv : AdapterInvariant index s) {p : Process}
    {choice : Option ℕ} (h : adapterStep index s (.lookup p choice) = some t) :
    AdapterInvariant index t := by
  have hp := hinv.phases p
  simp only [adapterStep] at h
  split at h
  · next k revision history hphase =>
    rw [hphase] at hp
    split at h
    · split at h
      · cases h
      · cases h
        exact
          { inactive := hinv.inactive
            active := fun k hk =>
              (hinv.active k hk).imp fun _ hpub => hpub.mono (List.Subset.refl _)
            distinct := hinv.distinct
            usedIds := hinv.usedIds
            identities := fun pub hpub => List.mem_cons_of_mem _ (hinv.identities pub hpub)
            phases := phases_setPhase rfl trivial fun q _ =>
              (hinv.phases q).congr rfl rfl rfl rfl rfl rfl
            abandoned := hinv.abandoned
            committed := hinv.committed
            gets := List.forall_mem_cons.mpr ⟨hp.1, hinv.gets⟩ }
    · cases h
  · cases h

/-- Every step preserves the invariant. -/
theorem AdapterInvariant.step (hinv : AdapterInvariant index s) {e : AdapterEvent V}
    (h : adapterStep index s e = some t) : AdapterInvariant index t := by
  cases e with
  | beginPut p k value => exact hinv.beginPut h
  | readEntry p publicationId => exact hinv.readEntry h
  | publish p => exact hinv.publish h
  | commit p => exact hinv.commit h
  | unlock p => exact hinv.unlock h
  | crash p => exact hinv.crash h
  | delete k => exact hinv.delete h
  | clear ns => exact hinv.clear h
  | readRevision p k => exact hinv.readRevision h
  | lookup p choice => exact hinv.lookup h

/-! ### What a get returns -/

/-- Every finished get missed, or returned the latest put of its key in the history it read. -/
def GetsLatest (s : AdapterState β V) : Prop :=
  ∀ r ∈ s.gets, r.result = none ∨ r.result = latestPut r.key r.history

/-- The revisions whose digests were taken are kept. -/
theorem identities_subset {e : AdapterEvent V} (h : adapterStep index s e = some t) :
    s.identities ⊆ t.identities := by
  cases e with
  | commit p =>
    obtain ⟨_, _, _, _, -, -, rfl⟩ := adapterStep_commit.mp h
    exact List.Subset.refl _
  | delete k =>
    obtain ⟨_, -, -, rfl⟩ := adapterStep_delete.mp h
    exact List.Subset.refl _
  | clear ns =>
    obtain ⟨_, -, -, rfl⟩ := adapterStep_clear.mp h
    exact List.Subset.refl _
  | _ =>
    simp only [adapterStep] at h
    (repeat' split at h) <;> cases h <;>
      first
        | exact List.Subset.refl _
        | exact List.subset_cons_self _ _

/-- A publication found under the core key of a revision is the one the revision names: the key
determines the revision, and a publication identifier is used once. -/
theorem AdapterInvariant.candidate_eq (hinv : AdapterInvariant index s) {k : NativeKey}
    {revision : ℕ × Option Str} {history : List (Commit V)} {latest pub : Publication V}
    (hlatest : IsLatest s k revision.1 revision.2 history latest) {key : List Str × Str}
    (hkey : coreKey k revision.1 revision.2 = .ok key) (hpub : pub ∈ s.candidates key)
    (hfree : CollisionFree ((k.2, revision.1, revision.2) :: s.identities)) : pub = latest := by
  obtain ⟨hstored, hmatch⟩ := List.mem_filter.mp hpub
  have hsame : coreKey pub.key pub.generation (some pub.publicationId) = .ok key := by
    split at hmatch
    · next key' hkey' => rw [hkey', of_decide_eq_true hmatch]
    · cases hmatch
  obtain ⟨-, -, hid⟩ := coreKey_inj hfree hsame hkey
    (List.mem_cons_of_mem _ (hinv.identities pub hstored)) List.mem_cons_self
  have hsameId : pub.publicationId = latest.publicationId :=
    Option.some.inj (hid.trans hlatest.publicationId.symm)
  exact List.inj_on_of_nodup_map hinv.distinct hstored hlatest.stored hsameId

/-- Every step keeps the gets right, while no two revisions collide. -/
theorem GetsLatest.step (hgets : GetsLatest s) (hinv : AdapterInvariant index s)
    {e : AdapterEvent V} (h : adapterStep index s e = some t) (hfree : CollisionFree t.identities) :
    GetsLatest t := by
  cases e with
  | readRevision p k =>
    simp only [adapterStep] at h
    split at h
    · cases h
      exact hgets
    · cases h
      exact List.forall_mem_cons.mpr ⟨Or.inl rfl, hgets⟩
    · cases h
  | lookup p choice =>
    have hp := hinv.phases p
    simp only [adapterStep] at h
    split at h
    · next k revision history hphase =>
      rw [hphase] at hp
      obtain ⟨-, latest, hlatest⟩ := hp
      split at h
      · next key hkey =>
        split at h
        · cases h
        · cases h
          refine List.forall_mem_cons.mpr ⟨?_, hgets⟩
          cases hfound : choice.bind fun i => (s.candidates key)[i]? with
          | none =>
            left
            rfl
          | some pub =>
            right
            -- whichever value the lookup answered, it is the one the revision names
            have hmem : pub ∈ s.candidates key := by
              obtain ⟨i, -, hi⟩ := Option.bind_eq_some_iff.mp hfound
              exact List.mem_of_getElem? hi
            simp only [Option.map_some, hinv.candidate_eq hlatest hkey hmem hfree]
            exact hlatest.latest.symm
      · cases h
    · cases h
  | commit p =>
    obtain ⟨_, _, _, _, -, -, rfl⟩ := adapterStep_commit.mp h
    exact hgets
  | delete k =>
    obtain ⟨_, -, -, rfl⟩ := adapterStep_delete.mp h
    exact hgets
  | clear ns =>
    obtain ⟨_, -, -, rfl⟩ := adapterStep_clear.mp h
    exact hgets
  | _ =>
    simp only [adapterStep] at h
    (repeat' split at h) <;> cases h <;> exact hgets

/-- After every run, every get missed or returned the latest put of its key. -/
theorem getsLatest_of_run {events : List (AdapterEvent V)}
    (hrun : (adapterSystem index V).run events = some s) (hfree : CollisionFree s.identities) :
    AdapterInvariant index s ∧ GetsLatest s := by
  have hinit : AdapterInvariant index (adapterSystem index V).init ∧
      (CollisionFree (adapterSystem index V).init.identities →
        GetsLatest (adapterSystem index V).init) :=
    ⟨AdapterInvariant.init, fun _ r hr => by cases hr⟩
  have hrunFree : AdapterInvariant index s ∧ (CollisionFree s.identities → GetsLatest s) := by
    refine TransitionSystem.run_induction
      (P := fun s => AdapterInvariant index s ∧ (CollisionFree s.identities → GetsLatest s))
      hinit ?_ hrun
    rintro s e t ⟨hinv, hgets⟩ hstep
    refine ⟨hinv.step hstep, fun hfree => ?_⟩
    have hbefore : CollisionFree s.identities := by
      refine hfree.mono ?_
      rintro data ⟨i, hi, hdata⟩
      exact ⟨i, identities_subset hstep hi, hdata⟩
    exact (hgets hbefore).step hinv hstep hfree
  exact ⟨hrunFree.1, hrunFree.2 hfree⟩

/-- The publication identifier of a put. -/
def examplePublicationId : Str := lit "0123456789abcdef0123456789abcdef"

/-- A process puts a value, and another gets it. -/
def putThenGet : List (AdapterEvent ℕ) :=
  [.beginPut 0 ([lit "threads"], lit "greeting") 7, .readEntry 0 examplePublicationId, .publish 0,
    .commit 0, .unlock 0, .readRevision 1 ([lit "threads"], lit "greeting"), .lookup 1 (some 0)]

/-- In every run of the adapter over any index, with crashes anywhere: the history a get read is
one the index went through, and the get missed, or returned the value of the last committed put
of its key in it, with no later put or removal of the key and by a call that was never
abandoned. -/
theorem get_eq_latestPut {events : List (AdapterEvent V)}
    (hrun : (adapterSystem index V).run events = some s) (hfree : CollisionFree s.identities)
    {r : GetRecord V} (hr : r ∈ s.gets) :
    (∃ after, s.history = after ++ r.history) ∧ ∀ call value, r.result = some (call, value) →
      call ∉ s.abandoned ∧ ∃ after before,
        r.history = after ++ .put r.key call value :: before ∧
          ∀ c ∈ after, ¬c.removes r.key ∧ ¬c.puts r.key := by
  obtain ⟨hinv, hgets⟩ := getsLatest_of_run hrun hfree
  obtain ⟨later, hlater⟩ := hinv.gets r hr
  refine ⟨⟨later, hlater⟩, fun call value hresult => ?_⟩
  have hlatest : latestPut r.key r.history = some (call, value) := by
    rcases hgets r hr with hmiss | hget
    · rw [hmiss] at hresult
      cases hresult
    · rw [← hget, hresult]
  obtain ⟨after, before, hhistory, hafter⟩ := latestPut_eq_some.mp hlatest
  refine ⟨fun habandoned => ?_, after, before, hhistory, hafter⟩
  -- an abandoned call is not in the history
  refine (hinv.abandoned call habandoned).2 (.put r.key call value) ?_ rfl
  rw [hlater, hhistory]
  simp

end

/-- The get of `putThenGet` returns the value of its put. -/
theorem get_eq_latestPut_putThenGet :
    ∃ (_ : Sha256) (s : AdapterState MemoryEntries ℕ), ∃ r ∈ s.gets,
      (adapterSystem memoryActiveKeyIndex ℕ).run putThenGet = some s ∧ r.result = some (0, 7) ∧
      0 ∉ s.abandoned ∧ ∃ after before,
        r.history = after ++ .put r.key 0 7 :: before ∧
          ∀ c ∈ after, ¬c.removes r.key ∧ ¬c.puts r.key := by
  refine ⟨Sha256.standard, ?_⟩
  let revision : Str × ℕ × Option Str := (lit "greeting", 0, some examplePublicationId)
  have hrevisions : (@TransitionSystem.run _ _ (@adapterSystem Sha256.standard _
      memoryActiveKeyIndex ℕ) putThenGet).map (·.identities) = some [revision, revision] := by
    decide +kernel
  have hresults : (@TransitionSystem.run _ _ (@adapterSystem Sha256.standard _
      memoryActiveKeyIndex ℕ) putThenGet).map (·.gets.map (·.result)) = some [some (0, 7)] := by
    decide +kernel
  obtain ⟨s, hrun, hidentities⟩ := Option.map_eq_some_iff.mp hrevisions
  rw [hrun, Option.map_some, Option.some.injEq] at hresults
  obtain ⟨r, hr, hseven⟩ := List.map_eq_singleton_iff.mp hresults
  have hmem : r ∈ s.gets := by simp [hr]
  have hfree : @CollisionFree Sha256.standard s.identities := by
    rw [hidentities]
    rintro _ ⟨i, hi, rfl⟩ _ ⟨j, hj, rfl⟩ -
    rw [show i = revision by simpa using hi, show j = revision by simpa using hj]
  exact ⟨s, r, hmem, hrun, hseven,
    (@get_eq_latestPut _ _ _ _ Sha256.standard _ hrun hfree r hmem).2 0 7 hseven⟩

end OnceMesh
