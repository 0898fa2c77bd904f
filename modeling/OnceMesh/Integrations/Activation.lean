import OnceMesh.Integrations.NoResurrection

/-!
# Activation and the switch of the bridge

A put reads twice whether its bridge is enabled: before its transaction, and again in the publisher
that runs inside of it, which returns without a publication when the bridge has been disabled in
between. The transaction commits either way. `switchedSystem` adds the switches of the bridges to
`adapterSystem`; an active revision is one of a published value in every run in which each
publisher finds its bridge enabled (`activationSound_of_run`).
-/

namespace OnceMesh

open Python

variable {V β : Type}

/-! ### Committed puts -/

/-- The value of every committed put is in the store. -/
def CommitsPublished (s : AdapterState β V) : Prop :=
  ∀ k call value, Commit.put k call value ∈ s.history →
    ∃ pub ∈ s.store, pub.key = k ∧ pub.call = call ∧ pub.value = value

/-- Without a new put in the history, the store may grow. -/
theorem CommitsPublished.mono {s t : AdapterState β V} (h : CommitsPublished s)
    (hhistory : ∀ k call value, Commit.put k call value ∈ t.history →
      Commit.put k call value ∈ s.history) (hstore : s.store ⊆ t.store) : CommitsPublished t := by
  intro k call value hmem
  obtain ⟨pub, hpub, hfields⟩ := h k call value (hhistory k call value hmem)
  exact ⟨pub, hstore hpub, hfields⟩

/-! ### The system -/

/-- The adapter, the switches of the bridges, and the puts that wait for the lock. -/
structure SwitchedState (β V : Type) where
  adapter : AdapterState β V
  enabled : ℕ → Bool
  waiting : Process → Option (NativeKey × V)

/-- What can happen next. -/
inductive SwitchedEvent (V : Type) where
  /-- `set_enabled` of a bridge. -/
  | setEnabled (bridge : ℕ) (enabled : Bool)
  /-- A put finds its bridge enabled. -/
  | checkEnabled (p : Process) (k : NativeKey) (value : V)
  /-- A put that has done so takes the lock. -/
  | beginPut (p : Process)
  /-- The publisher runs. -/
  | publish (p : Process)
  /-- Any other event of the adapter. -/
  | other (event : AdapterEvent V)

section

variable [Sha256]

/-- The publisher of `p` returns without a publication; the core key has been computed. -/
def skipPublish (s : AdapterState β V) (p : Process) : Option (AdapterState β V) :=
  match s.phase p with
  | .entryRead put generation publicationId =>
    match coreKey put.key generation (some publicationId) with
    | .ok _ => some { s.setPhase p (.published put generation publicationId) with
        identities := (put.key.2, generation, some publicationId) :: s.identities }
    | .error _ => none
  | _ => none

/-- One step, where `bridge` says which bridge a process has. -/
def switchedStep (index : ActiveKeyIndex β) (bridge : Process → ℕ) (s : SwitchedState β V) :
    SwitchedEvent V → Option (SwitchedState β V)
  | .setEnabled b enabled => some { s with enabled := Function.update s.enabled b enabled }
  | .checkEnabled p k value =>
    match s.adapter.phase p, s.waiting p, s.enabled (bridge p) with
    | .idle, none, true => some { s with waiting := Function.update s.waiting p (some (k, value)) }
    | _, _, _ => none
  | .beginPut p =>
    match s.waiting p with
    | some (k, value) => (adapterStep index s.adapter (.beginPut p k value)).map fun adapter =>
        { s with adapter := adapter, waiting := Function.update s.waiting p none }
    | none => none
  | .publish p =>
    -- the second check
    (if s.enabled (bridge p) then adapterStep index s.adapter (.publish p)
      else skipPublish s.adapter p).map fun adapter => { s with adapter := adapter }
  | .other (.beginPut _ _ _) | .other (.publish _) => none
  | .other event => (adapterStep index s.adapter event).map fun adapter =>
      { s with adapter := adapter }

/-- The adapter over an index with the switches of its bridges, which are `enabled` at first. -/
def switchedSystem (index : ActiveKeyIndex β) (bridge : Process → ℕ) (enabled : ℕ → Bool)
    (V : Type) : TransitionSystem (SwitchedState β V) (SwitchedEvent V) where
  init := { adapter := (adapterSystem index V).init, enabled, waiting := fun _ => none }
  step := switchedStep index bridge

/-- A publisher that runs finds its bridge enabled. -/
def PublisherEnabled (bridge : Process → ℕ) (s : SwitchedState β V) : SwitchedEvent V → Prop
  | .publish p => s.enabled (bridge p) = true
  | _ => True

/-! ### Activation implies publication -/

/-- What the index has activated has been published. -/
structure ActivationSound (index : ActiveKeyIndex β) (s : AdapterState β V) : Prop where
  /-- The value of a committed put is in the store. -/
  committed : ∀ k call value, Commit.put k call value ∈ s.history →
    ∃ pub ∈ s.store, pub.key = k ∧ pub.call = call ∧ pub.value = value
  /-- The active revision of a key is the one under which the value of its latest put is found. -/
  active : ∀ k revision, (index.entry s.index k).revision = some revision →
    ∃ pub, IsLatest s k revision.1 revision.2 s.history pub ∧
      ∀ key, coreKey k revision.1 revision.2 = .ok key → pub ∈ s.candidates key

/-- A publication is found under its core key. -/
theorem IsLatest.mem_candidates {s : AdapterState β V} {k : NativeKey} {generation : ℕ}
    {publicationId : Option Str} {history : List (Commit V)} {pub : Publication V}
    (h : IsLatest s k generation publicationId history pub) {key : List Str × Str}
    (hkey : coreKey k generation publicationId = .ok key) : pub ∈ s.candidates key := by
  have hpub : coreKey pub.key pub.generation (some pub.publicationId) = .ok key := by
    rw [h.key, h.generation, h.publicationId, hkey]
  exact List.mem_filter.mpr ⟨h.stored, by simp [hpub]⟩

/-- If every commit has been published, what is active can be read. -/
theorem AdapterInvariant.activationSound {index : ActiveKeyIndex β} {s : AdapterState β V}
    (hinv : AdapterInvariant index s) (hcommits : CommitsPublished s) :
    ActivationSound index s where
  committed := hcommits
  active := by
    intro k revision hrevision
    rw [IndexEntry.revision] at hrevision
    split at hrevision
    · next hactive =>
      cases hrevision
      obtain ⟨pub, hpub⟩ := hinv.active k hactive
      exact ⟨pub, hpub, fun key hkey => hpub.mem_candidates hkey⟩
    · cases hrevision

/-- A step of the adapter commits what has been published. -/
theorem CommitsPublished.step {index : ActiveKeyIndex β} {s t : AdapterState β V}
    {e : AdapterEvent V} (hcommits : CommitsPublished s) (hinv : AdapterInvariant index s)
    (h : adapterStep index s e = some t) : CommitsPublished t := by
  cases e with
  | publish p =>
    simp only [adapterStep] at h
    split at h
    · split at h
      · cases h
        exact hcommits.mono (fun _ _ _ hmem => hmem) (List.subset_cons_self _ _)
      · cases h
    · cases h
  | commit p =>
    obtain ⟨put, generation, publicationId, b, hphase, -, rfl⟩ := adapterStep_commit.mp h
    have hp := hinv.phases p
    -- the invariant of the phase is that the value has been published
    rw [hphase] at hp
    obtain ⟨-, -, hstored⟩ := hp
    intro k call value hmem
    rcases List.mem_cons.mp hmem with hnew | hold
    · cases hnew
      exact ⟨_, hstored, rfl, rfl, rfl⟩
    · exact hcommits k call value hold
  | delete k =>
    obtain ⟨_, -, -, rfl⟩ := adapterStep_delete.mp h
    exact hcommits.mono (fun _ _ _ hmem => by simpa using hmem) (List.Subset.refl _)
  | clear ns =>
    obtain ⟨_, -, -, rfl⟩ := adapterStep_clear.mp h
    exact hcommits.mono (fun _ _ _ hmem => by simpa using hmem) (List.Subset.refl _)
  | _ =>
    simp only [adapterStep] at h
    (repeat' split at h) <;> cases h <;> exact hcommits

/-- A step in which no publisher finds its bridge disabled is a step of the adapter, or leaves the
adapter alone. -/
theorem exists_adapterStep {index : ActiveKeyIndex β} {bridge : Process → ℕ}
    {s t : SwitchedState β V} {e : SwitchedEvent V} (hmeets : PublisherEnabled bridge s e)
    (h : switchedStep index bridge s e = some t) :
    t.adapter = s.adapter ∨ ∃ event, adapterStep index s.adapter event = some t.adapter := by
  cases e with
  | setEnabled b enabled =>
    cases h
    exact Or.inl rfl
  | checkEnabled p k value =>
    simp only [switchedStep] at h
    split at h
    · cases h
      exact Or.inl rfl
    · cases h
  | beginPut p =>
    simp only [switchedStep] at h
    split at h
    · next k value _ =>
      obtain ⟨adapter, hstep, rfl⟩ := Option.map_eq_some_iff.mp h
      exact Or.inr ⟨_, hstep⟩
    · cases h
  | publish p =>
    have henabled : s.enabled (bridge p) = true := hmeets
    rw [switchedStep, if_pos henabled] at h
    obtain ⟨adapter, hstep, rfl⟩ := Option.map_eq_some_iff.mp h
    exact Or.inr ⟨_, hstep⟩
  | other event =>
    cases event with
    | beginPut p k value => cases h
    | publish p => cases h
    | _ =>
      obtain ⟨adapter, hstep, rfl⟩ := Option.map_eq_some_iff.mp h
      exact Or.inr ⟨_, hstep⟩

/-- In every run of puts, gets, deletions, clears and switches of bridges, with crashes anywhere: as
long as each publisher that runs finds its bridge enabled, what the index has activated has been
published, in every state that is reached. -/
theorem activationSound_of_run {index : ActiveKeyIndex β} {bridge : Process → ℕ}
    {enabled : ℕ → Bool} {events : List (SwitchedEvent V)} {s : SwitchedState β V}
    (hrun : (switchedSystem index bridge enabled V).run events = some s)
    (hmeets : (switchedSystem index bridge enabled V).Meets (PublisherEnabled bridge)
      (switchedSystem index bridge enabled V).init events) :
    ActivationSound index s.adapter := by
  have hsound : AdapterInvariant index s.adapter ∧ CommitsPublished s.adapter := by
    refine TransitionSystem.runFrom_induction_of_meets
      (P := fun s => AdapterInvariant index s.adapter ∧
        CommitsPublished s.adapter) ?_ hmeets ?_ hrun
    · rintro s e t ⟨hinv, hcommits⟩ hpublisher hstep
      rcases exists_adapterStep hpublisher hstep with hsame | ⟨event, hevent⟩
      · rw [hsame]
        exact ⟨hinv, hcommits⟩
      · exact ⟨hinv.step hevent, hcommits.step hinv hevent⟩
    · exact ⟨AdapterInvariant.init, fun _ _ _ hmem => absurd hmem List.not_mem_nil⟩
  exact hsound.1.activationSound hsound.2

/-- A switch that is never turned off is on when a publisher runs. -/
theorem meets_of_never_disabled {index : ActiveKeyIndex β} {bridge : Process → ℕ}
    {events : List (SwitchedEvent V)} (h : ∀ b, .setEnabled b false ∉ events) :
    (switchedSystem index bridge (fun _ => true) V).Meets (PublisherEnabled bridge)
      (switchedSystem index bridge (fun _ => true) V).init events := by
  refine TransitionSystem.meets_of_invariant (P := fun s => ∀ b, s.enabled b = true) ?_ ?_
    fun _ => rfl
  · rintro s e he t henabled hstep b
    cases e with
    | setEnabled b' enabled =>
      cases hstep
      cases enabled with
      | false => exact absurd he (h b')
      | true =>
        show Function.update s.enabled b' true b = true
        rw [Function.update_apply]
        split_ifs
        · rfl
        · exact henabled b
    | other event =>
      cases event with
      | beginPut _ _ _ | publish _ => cases hstep
      | _ =>
        obtain ⟨adapter, -, rfl⟩ := Option.map_eq_some_iff.mp hstep
        exact henabled b
    | publish p =>
      obtain ⟨adapter, -, rfl⟩ := Option.map_eq_some_iff.mp hstep
      exact henabled b
    | checkEnabled p k value =>
      simp only [switchedSystem, switchedStep] at hstep
      split at hstep
      · cases hstep
        exact henabled b
      · cases hstep
    | beginPut p =>
      simp only [switchedSystem, switchedStep] at hstep
      split at hstep
      · obtain ⟨adapter, -, rfl⟩ := Option.map_eq_some_iff.mp hstep
        exact henabled b
      · cases hstep
  · rintro s e - henabled
    cases e with
    | publish p => exact henabled _
    | _ => trivial

end

/-! ### Two puts -/

/-- A process with an enabled bridge puts a value. -/
def putEvents (value : ℕ) (publicationId : String) : List (SwitchedEvent ℕ) :=
  [.checkEnabled 0 ([lit "threads"], lit "greeting") value, .beginPut 0,
    .other (.readEntry 0 (lit publicationId)), .publish 0, .other (.commit 0), .other (.unlock 0)]

/-- The same, but the bridge is disabled inside of the transaction. -/
def disabledPutEvents (value : ℕ) (publicationId : String) : List (SwitchedEvent ℕ) :=
  [.checkEnabled 0 ([lit "threads"], lit "greeting") value, .beginPut 0,
    .other (.readEntry 0 (lit publicationId)), .setEnabled 0 false, .publish 0, .other (.commit 0)]

/-- After one put, its revision is active and sound. -/
theorem activationSound_of_run_put :
    ∃ (_ : Sha256) (s : SwitchedState MemoryEntries ℕ),
      (switchedSystem memoryActiveKeyIndex (fun _ => 0) (fun _ => true) ℕ).run
        (putEvents 7 "01") = some s ∧
      (memoryActiveKeyIndex.entry s.adapter.index ([lit "threads"], lit "greeting")).revision =
        some (0, some (lit "01")) ∧
      ActivationSound memoryActiveKeyIndex s.adapter := by
  refine ⟨Sha256.standard, ?_⟩
  have hrevision : (@TransitionSystem.run _ _ (@switchedSystem _ Sha256.standard
      memoryActiveKeyIndex (fun _ => 0) (fun _ => true) ℕ) (putEvents 7 "01")).map
      (fun s => (memoryActiveKeyIndex.entry s.adapter.index
        ([lit "threads"], lit "greeting")).revision) = some (some (0, some (lit "01"))) := by
    decide +kernel
  obtain ⟨s, hrun, hactive⟩ := Option.map_eq_some_iff.mp hrevision
  refine ⟨s, hrun, hactive, @activationSound_of_run _ _ Sha256.standard _ _ _ _ _ hrun ?_⟩
  exact @meets_of_never_disabled _ _ Sha256.standard _ _ _ (by simp [putEvents])

/-- A second put whose bridge is disabled inside of its transaction activates a revision of which
nothing has been published, and the value of the first is hidden. -/
theorem not_activationSound :
    ¬∀ (_ : Sha256) (β V : Type) (index : ActiveKeyIndex β) (bridge : Process → ℕ)
      (enabled : ℕ → Bool) (events : List (SwitchedEvent V)) (s : SwitchedState β V),
      (switchedSystem index bridge enabled V).run events = some s →
      ActivationSound index s.adapter := by
  intro h
  have hrun : (@TransitionSystem.run _ _ (@switchedSystem _ Sha256.standard
      memoryActiveKeyIndex (fun _ => 0) (fun _ => true) ℕ)
      (putEvents 7 "01" ++ disabledPutEvents 8 "02")).map (fun s =>
        ((memoryActiveKeyIndex.entry s.adapter.index
          ([lit "threads"], lit "greeting")).revision,
        s.adapter.store.map Publication.publicationId)) =
      some (some (1, some (lit "02")), [lit "01"]) := by
    decide +kernel
  obtain ⟨s, hrun, hstate⟩ := Option.map_eq_some_iff.mp hrun
  obtain ⟨hactive, hstore⟩ := Prod.mk.inj hstate
  obtain ⟨pub, hpub, -⟩ := @ActivationSound.active _ _ Sha256.standard _ _
    (h Sha256.standard _ _ _ _ _ _ s hrun) _ _ hactive
  have hmem := List.mem_map_of_mem (f := Publication.publicationId) hpub.stored
  have hid : pub.publicationId = lit "02" := Option.some.inj hpub.publicationId
  rw [hstore, hid] at hmem
  exact absurd hmem (by decide)

end OnceMesh
