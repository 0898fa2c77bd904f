import OnceMesh.ExecutionCache.Interleaving
import OnceMesh.ExecutionCache.LastWrite

/-!
# Clears are barriers

Whatever the interleaving, a get returns a value whose set has read its epochs after the same clears
of the namespace as the get (`GetsCurrent`): a value from before a clear stays in the store, but the
get asks for other epochs. A clear of some namespaces leaves the others alone: two runs that differ
in such a clear agree on what the gets of all other namespaces return (`Agree`).
-/

namespace OnceMesh

open Python

/-! ### Clears in a history -/

/-- Of the clears that cover a namespace, two moments have the same ones behind them. -/
def SameClears (ns : List Str) (clears clears' : List Cleared) : Prop :=
  ∀ c earlier, c.Covers ns → (c :: earlier <:+ clears ↔ c :: earlier <:+ clears')

/-- A clear that comes after `earlier` comes after it among the later ones. -/
theorem mem_of_cons_suffix {c : Cleared} {before later earlier : List Cleared}
    (h : c :: before <:+ later ++ earlier) : c :: before <:+ earlier ∨ c ∈ later := by
  rcases List.suffix_or_suffix_of_suffix h (List.suffix_append later earlier) with
    hearlier | ⟨middle, hmiddle⟩
  · exact .inl hearlier
  · cases middle with
    | nil => exact .inl (hmiddle ▸ List.suffix_refl _)
    | cons c' middle =>
      obtain ⟨first, hfirst⟩ := h
      rw [← hmiddle, ← List.append_assoc, List.append_left_inj] at hfirst
      have hsame : c' = c := (List.cons.inj hmiddle).1
      refine .inr ?_
      rw [← hfirst, hsame]
      exact List.mem_append_right _ List.mem_cons_self

/-- Two moments of a history with the same epochs have the same clears behind them. -/
theorem sameClears_of_epochs_eq {ns : List Str} {clears clears' history : List Cleared}
    (h : clears <:+ history) (h' : clears' <:+ history)
    (hepochs : epochsAfter clears ns = epochsAfter clears' ns) : SameClears ns clears clears' := by
  have hwhen : ∀ {earlier later : List Cleared}, earlier <:+ later →
      epochsAfter later ns = epochsAfter earlier ns → SameClears ns earlier later := by
    rintro earlier _ ⟨later, rfl⟩ hsame c before hcovers
    have hnone := epochsAfter_append_eq.mp hsame
    refine ⟨fun hsuffix => hsuffix.trans (List.suffix_append _ _), fun hsuffix => ?_⟩
    rcases mem_of_cons_suffix hsuffix with hearlier | hmem
    · exact hearlier
    · exact absurd hcovers (hnone c hmem)
  rcases List.suffix_or_suffix_of_suffix h h' with hsuffix | hsuffix
  · exact hwhen hsuffix hepochs.symm
  · exact fun c before hcovers => (hwhen hsuffix hepochs c before hcovers).symm

/-! ### The invariant -/

/-- The epochs of a namespace were read at some moment of a history. -/
structure Reading.Of (reading : Reading) (ns : List Str) (history : List Cleared) : Prop where
  epochs_eq : reading.epochs = epochsAfter reading.clears ns
  suffix : reading.clears <:+ history

theorem Reading.Of.mono {reading : Reading} {ns : List Str} {history history' : List Cleared}
    (h : reading.Of ns history) (hsuffix : history <:+ history') : reading.Of ns history' :=
  ⟨h.epochs_eq, h.suffix.trans hsuffix⟩

/-- What a process has read, if it is in the middle of a call. -/
def CallPhase.Valid (history : List Cleared) : CallPhase → Prop
  | idle => True
  | setting call _ reading => reading.Of call.key.ns history
  | getting call reading => reading.Of call.key.ns history

theorem CallPhase.Valid.mono {history history' : List Cleared} {phase : CallPhase}
    (h : phase.Valid history) (hsuffix : history <:+ history') : phase.Valid history' := by
  cases phase with
  | idle => trivial
  | setting call ttl reading => exact Reading.Of.mono h hsuffix
  | getting call reading => exact Reading.Of.mono h hsuffix

/-- When one process has moved, every process is in a valid phase. -/
theorem valid_update {phases : ProcessId → CallPhase} {history : List Cleared}
    (h : ∀ p, (phases p).Valid history) (p : ProcessId) {phase : CallPhase}
    (hphase : phase.Valid history) : ∀ q, (Function.update phases p phase q).Valid history := by
  intro q
  by_cases hq : q = p
  · rw [hq, Function.update_self]
    exact hphase
  · rw [Function.update_of_ne hq]
    exact h q

theorem mem_toOption_toList {α ε : Type} {a : α} {result : Except ε α} :
    a ∈ result.toOption.toList ↔ result = .ok a := by
  cases result with
  | error e => simp [Except.toOption]
  | ok b => simp [Except.toOption, eq_comm]

section

variable [Sha256] {σ β : Type} [BridgeStore σ]

/-- The invariant of the bridges over a registry and a store. -/
structure SharedInvariant (registry : EpochRegistry β) (s : SharedState σ β) : Prop where
  standsFor : registry.StandsFor s.registry (epochsAfter s.clears)
  recorded : Recorded s.store (s.writes.map SharedWrite.write) s.hashed
  phases : ∀ p, (s.phase p).Valid s.clears
  writes : ∀ w ∈ s.writes, Reading.Of ⟨w.write.epochs, w.clears⟩ w.write.key.ns s.clears
  gets : ∀ g ∈ s.gets, g.reading.Of g.call.key.ns s.clears

section

variable {registry : EpochRegistry β} {s t : SharedState σ β}

/-- A process reads the epochs of the moment. -/
theorem SharedInvariant.epochs_eq (hinv : SharedInvariant registry s) (key : ExecutionCacheKey) :
    registry.epochs s.registry key.ns = .ok (epochsAfter s.clears key.ns) :=
  registry.epochs_eq hinv.standsFor key.ns key.ns_valid

/-- A process reads its epochs. -/
theorem SharedInvariant.setPhase (hinv : SharedInvariant registry s) (p : ProcessId)
    {phase : CallPhase} (hphase : phase.Valid s.clears) :
    SharedInvariant registry (s.setPhase p phase) :=
  { hinv with phases := valid_update hinv.phases p hphase }

theorem SharedInvariant.init (name : Str) :
    SharedInvariant registry (sharedSystem σ registry name).init where
  standsFor := registry.init_standsFor
  recorded := Recorded.empty name
  phases _ := trivial
  writes _ h := by cases h
  gets _ h := by cases h

/-- A set publishes under the epochs it has read. -/
theorem SharedInvariant.publish (hinv : SharedInvariant registry s) {p : ProcessId} {call : SetCall}
    {ttl : Option ℤ} {reading : Reading} (hphase : s.phase p = .setting call ttl reading)
    (h : sharedStep registry s (.publish p) = some t) : SharedInvariant registry t := by
  have hreading : reading.Of call.key.ns s.clears := by
    have hvalid := hinv.phases p
    rw [hphase] at hvalid
    exact hvalid
  simp only [sharedStep, hphase] at h
  cases h
  refine
    { standsFor := hinv.standsFor
      recorded := ?_
      phases := valid_update hinv.phases p trivial
      writes := fun w hw => ?_
      gets := hinv.gets }
  · have hpublished := hinv.recorded.publishValue call.bridge reading.epochs call.key call.value
      call.now ttl
    simp only [List.map_append, List.map_map, Function.comp_def, List.map_id']
    exact hpublished
  · rcases List.mem_append.mp hw with hnew | hold
    · obtain ⟨w', hmake, rfl⟩ := List.mem_map.mp hnew
      have hmade := CacheWrite.madeOf_of_make (mem_toOption_toList.mp hmake)
      show Reading.Of ⟨w'.epochs, reading.clears⟩ w'.key.ns s.clears
      rw [hmade.epochs_eq, hmade.key_eq]
      exact ⟨hreading.epochs_eq, hreading.suffix⟩
    · exact hinv.writes w hold

/-- A get looks up under the epochs it has read. -/
theorem SharedInvariant.lookUp (hinv : SharedInvariant registry s) {p : ProcessId} {call : GetCall}
    {reading : Reading} (hphase : s.phase p = .getting call reading)
    (h : sharedStep registry s (.lookUp p) = some t) : SharedInvariant registry t := by
  have hreading : reading.Of call.key.ns s.clears := by
    have hvalid := hinv.phases p
    rw [hphase] at hvalid
    exact hvalid
  simp only [sharedStep, hphase] at h
  cases h
  exact
    { standsFor := hinv.standsFor
      recorded := hinv.recorded.mono (List.subset_cons_self _ _)
      phases := valid_update hinv.phases p trivial
      writes := hinv.writes
      gets := List.forall_mem_cons.mpr ⟨hreading, hinv.gets⟩ }

/-- A clear moves the epochs, and every process keeps those it has read. -/
theorem SharedInvariant.clear (hinv : SharedInvariant registry s)
    {namespaces : Option (List (List Str))} {returns : Bool}
    (h : sharedStep registry s (.clear namespaces returns) = some t) :
    SharedInvariant registry t := by
  simp only [sharedStep] at h
  split_ifs at h with hreturns
  cases h
  have hstands := registry.clear_standsFor hinv.standsFor namespaces
  rw [hreturns] at hstands
  have hsuffix : s.clears <:+ registry.cleared namespaces returns ++ s.clears :=
    List.suffix_append _ _
  exact
    { standsFor := hstands
      recorded := hinv.recorded
      phases := fun p => (hinv.phases p).mono hsuffix
      writes := fun w hw => (hinv.writes w hw).mono hsuffix
      gets := fun g hg => (hinv.gets g hg).mono hsuffix }

/-- Every step preserves the invariant. -/
theorem SharedInvariant.step (hinv : SharedInvariant registry s) {e : SharedEvent}
    (h : sharedStep registry s e = some t) : SharedInvariant registry t := by
  cases e with
  | beginSet p call =>
    simp only [sharedStep, hinv.epochs_eq] at h
    split at h
    · split at h
      · cases h
        exact hinv.setPhase p ⟨rfl, List.suffix_refl _⟩
      · cases h
        exact hinv
    · cases h
  | publish p =>
    cases hphase : s.phase p with
    | setting call ttl reading => exact hinv.publish hphase h
    | _ =>
      simp only [sharedStep, hphase] at h
      cases h
  | beginGet p call =>
    simp only [sharedStep, hinv.epochs_eq] at h
    split at h
    · split_ifs at h
      · cases h
        exact hinv.setPhase p ⟨rfl, List.suffix_refl _⟩
      · cases h
        exact hinv
    · cases h
  | lookUp p =>
    cases hphase : s.phase p with
    | getting call reading => exact hinv.lookUp hphase h
    | _ =>
      simp only [sharedStep, hphase] at h
      cases h
  | clear namespaces returns => exact hinv.clear h

/-- What has been hashed stays so. -/
theorem hashed_subset {e : SharedEvent} (h : sharedStep registry s e = some t) :
    s.hashed ⊆ t.hashed := by
  cases e with
  | publish p =>
    simp only [sharedStep] at h
    split at h <;> cases h
    exact List.subset_append_right _ _
  | lookUp p =>
    simp only [sharedStep] at h
    split at h <;> cases h
    exact List.subset_cons_self _ _
  | _ =>
    simp only [sharedStep] at h
    (repeat' split at h) <;> cases h <;> exact List.Subset.refl _

/-! ### What a get returns -/

/-- A value that a get returns was set for the same key, by a bridge with the same identity and
producer, has not expired, and its set had the same clears of the namespace behind it. -/
structure SharedWrite.CurrentFor (w : SharedWrite) (g : FinishedGet)
    (value : EncodedExecutionValue) :
    Prop where
  value_eq : w.write.value = value
  key_eq : w.write.key = g.call.key
  identity_eq : w.write.bridge.identity = g.call.bridge.identity
  accepted : w.write.accepted g.call.bridge g.call.now = true
  sameClears : SameClears g.call.key.ns w.clears g.reading.clears

/-- Every get that has returned a value returned a current one. -/
def GetsCurrent (s : SharedState σ β) : Prop :=
  ∀ g ∈ s.gets, ∀ value, g.result = .ok (some value) → ∃ w ∈ s.writes, w.CurrentFor g value

/-- Without collisions, a lookup under some epochs returns what was written for the key under the
same epochs. -/
theorem SharedInvariant.lookUp_eq (hinv : SharedInvariant registry s)
    (bridge : ExecutionCacheBridge) (now : DateTime) (epochs : Epochs) (key : ExecutionCacheKey)
    (hfree : CollisionFreeOn
      {data | data ∈ canonicalBytes (bridge.actionFor epochs key) :: s.hashed}) :
    bridge.lookUp [BlobStore.view s.store] now (bridge.actionFor epochs key) =
      match actionDigest (bridge.actionFor epochs key) with
      | .error e => .error e
      | .ok _ => .ok (((listedBy σ ((s.writes.map SharedWrite.write).filter fun w =>
          w.isFor bridge epochs key)).find? fun w => w.accepted bridge now).map
            CacheWrite.value) := by
  have hrecorded := hinv.recorded.mono (List.subset_cons_self
    (canonicalBytes (bridge.actionFor epochs key)) s.hashed)
  cases haction : actionDigest (bridge.actionFor epochs key) with
  | error e => exact lookUp_of_actionDigest_error bridge now haction _
  | ok digest =>
    exact lookUp_eq_find? bridge now (hrecorded.holdsWrites hfree) hfree
      (fun w hw => (hrecorded.hashed w hw).2) List.mem_cons_self haction

/-- A get that finishes now returns a current value, if any. -/
theorem SharedInvariant.currentFor (hinv : SharedInvariant registry s) {call : GetCall}
    {reading : Reading} (hreading : reading.Of call.key.ns s.clears)
    (hfree : CollisionFreeOn {data | data ∈
      canonicalBytes (call.bridge.actionFor reading.epochs call.key) :: s.hashed})
    {result : Except PyError (Option EncodedExecutionValue)}
    (hresult : call.bridge.lookUp [BlobStore.view s.store] call.now
      (call.bridge.actionFor reading.epochs call.key) = result) {value : EncodedExecutionValue}
    (hvalue : result = .ok (some value)) :
    ∃ w ∈ s.writes, w.CurrentFor ⟨call, reading, result⟩ value := by
  rw [hinv.lookUp_eq call.bridge call.now reading.epochs call.key hfree] at hresult
  rw [hvalue] at hresult
  split at hresult
  · cases hresult
  · obtain ⟨w, hfind, hw⟩ := Option.map_eq_some_iff.mp (Except.ok.inj hresult)
    have haccepted := List.find?_some hfind
    obtain ⟨hmem, hfor⟩ :=
      List.mem_filter.mp (BridgeStore.order_subset _ (List.mem_of_find?_eq_some hfind))
    obtain ⟨hidentity, hepochs, hkey⟩ := CacheWrite.isFor_eq_true.mp hfor
    obtain ⟨w, hset, rfl⟩ := List.mem_map.mp hmem
    have hwritten := hinv.writes w hset
    rw [hkey] at hwritten
    -- the same epochs, and so the same clears
    refine ⟨w, hset, hw, hkey, hidentity, haccepted, ?_⟩
    refine sameClears_of_epochs_eq hwritten.suffix hreading.suffix ?_
    rw [← hwritten.epochs_eq, ← hreading.epochs_eq]
    exact hepochs

/-- Every step keeps the gets current, without collisions. -/
theorem GetsCurrent.step (hgets : GetsCurrent s) (hinv : SharedInvariant registry s)
    {e : SharedEvent} (h : sharedStep registry s e = some t)
    (hfree : CollisionFreeOn {data | data ∈ t.hashed}) : GetsCurrent t := by
  cases e with
  | publish p =>
    simp only [sharedStep] at h
    split at h
    · cases h
      intro g hg value hvalue
      obtain ⟨w, hw, hcurrent⟩ := hgets g hg value hvalue
      exact ⟨w, List.mem_append_right _ hw, hcurrent⟩
    · cases h
  | lookUp p =>
    simp only [sharedStep] at h
    split at h
    next call reading hphase =>
      have hreading : reading.Of call.key.ns s.clears := by
        have hvalid := hinv.phases p
        rw [hphase] at hvalid
        exact hvalid
      cases h
      exact List.forall_mem_cons.mpr
        ⟨fun value hvalue => hinv.currentFor hreading hfree rfl hvalue, hgets⟩
    · cases h
  | _ =>
    simp only [sharedStep] at h
    (repeat' split at h) <;> cases h <;> exact hgets

/-- After every run, the invariant holds, and without collisions the gets are current. -/
theorem getsCurrent_of_run {name : Str} {events : List SharedEvent}
    (hrun : (sharedSystem σ registry name).run events = some s) :
    SharedInvariant registry s ∧ (CollisionFreeOn {data | data ∈ s.hashed} → GetsCurrent s) := by
  refine TransitionSystem.run_induction
    (P := fun s => SharedInvariant registry s ∧
      (CollisionFreeOn {data | data ∈ s.hashed} → GetsCurrent s))
    ⟨SharedInvariant.init name, fun _ g hg => by cases hg⟩ ?_ hrun
  rintro s e t ⟨hinv, hgets⟩ hstep
  refine ⟨hinv.step hstep, fun hfree => ?_⟩
  have hbefore : CollisionFreeOn {data | data ∈ s.hashed} :=
    hfree.mono fun data hdata => hashed_subset hstep hdata
  exact (hgets hbefore).step hinv hstep hfree

end

/-! ### Two runs that differ in a clear -/

omit [Sha256] in
/-- Two phases of a process differ at most in the epochs of a namespace that was named. -/
inductive CallPhase.Agree (named : List (List Str)) : CallPhase → CallPhase → Prop
  | idle : Agree named idle idle
  | setting {call : SetCall} {ttl : Option ℤ} {reading reading' : Reading}
      (h : call.key.ns ∉ named → reading.epochs = reading'.epochs) :
      Agree named (setting call ttl reading) (setting call ttl reading')
  | getting {call : GetCall} {reading reading' : Reading}
      (h : call.key.ns ∉ named → reading.epochs = reading'.epochs) :
      Agree named (getting call reading) (getting call reading')

/-- Two gets are the same call, with the same result unless its namespace was named. -/
def FinishedGet.Agree (named : List (List Str)) (g g' : FinishedGet) : Prop :=
  g.call = g'.call ∧ (g.call.key.ns ∉ named → g.result = g'.result)

/-- The writes to all namespaces that were not named. -/
def SharedState.writesOutside (s : SharedState σ β) (named : List (List Str)) : List CacheWrite :=
  (s.writes.map SharedWrite.write).filter fun w => w.key.ns ∉ named

/-- Two states differ at most in what concerns the namespaces that were named. -/
structure SharedState.Agree (named : List (List Str)) (s s' : SharedState σ β) : Prop where
  epochs : ∀ ns ∉ named, epochsAfter s.clears ns = epochsAfter s'.clears ns
  phases : ∀ p, (s.phase p).Agree named (s'.phase p)
  writes : s.writesOutside named = s'.writesOutside named
  gets : List.Forall₂ (FinishedGet.Agree named) s.gets s'.gets

section

variable {registry : EpochRegistry β} {s s' t t' : SharedState σ β} {named : List (List Str)}

omit [Sha256] in
/-- One more clear moves the epochs of the same namespaces. -/
theorem epochsAfter_cleared (namespaces : Option (List (List Str))) (returned : Bool)
    {clears clears' : List Cleared}
    (h : ∀ ns ∉ named, epochsAfter clears ns = epochsAfter clears' ns) :
    ∀ ns ∉ named, epochsAfter (registry.cleared namespaces returned ++ clears) ns =
      epochsAfter (registry.cleared namespaces returned ++ clears') ns := by
  intro ns hns
  cases namespaces with
  | none =>
    cases returned with
    | false => exact h ns hns
    | true =>
      show Epochs.rotateAll (epochsAfter clears) ns = Epochs.rotateAll (epochsAfter clears') ns
      rw [Epochs.rotateAll, Epochs.rotateAll, h ns hns]
  | some others =>
    show Epochs.rotate (registry.moved others returned) (epochsAfter clears) ns =
      Epochs.rotate (registry.moved others returned) (epochsAfter clears') ns
    rw [Epochs.rotate, Epochs.rotate, h ns hns]

/-- A state agrees with the one after a clear, outside the namespaces that it named. -/
theorem SharedState.Agree.of_clear {returns : Bool}
    (h : sharedStep registry s (.clear (some named) returns) = some t) :
    SharedState.Agree named t s := by
  simp only [sharedStep] at h
  split_ifs at h
  cases h
  refine ⟨fun ns hns => ?_, fun p => ?_, rfl, ?_⟩
  · refine epochsAfter_append_eq.mpr ?_
    rintro c (_ | ⟨_, ⟨⟩⟩) hcovers
    exact hns (registry.moved_subset named returns hcovers)
  · show (s.phase p).Agree named (s.phase p)
    cases s.phase p with
    | idle => exact .idle
    | setting call ttl reading => exact .setting fun _ => rfl
    | getting call reading => exact .getting fun _ => rfl
  · exact List.forall₂_same.mpr fun g _ => ⟨rfl, fun _ => rfl⟩

omit [Sha256] in
/-- A process moves in two states. -/
theorem agree_update {phases phases' : ProcessId → CallPhase}
    (h : ∀ p, (phases p).Agree named (phases' p)) (p : ProcessId) {phase phase' : CallPhase}
    (hphase : phase.Agree named phase') :
    ∀ q, (Function.update phases p phase q).Agree named (Function.update phases' p phase' q) := by
  intro q
  by_cases hq : q = p
  · rw [hq, Function.update_self, Function.update_self]
    exact hphase
  · rw [Function.update_of_ne hq, Function.update_of_ne hq]
    exact h q

/-- What is written outside the namespaces that were named. -/
theorem writesOutside_publish {call : SetCall} {ttl : Option ℤ} {epochs epochs' : Epochs}
    (hepochs : call.key.ns ∉ named → epochs = epochs') :
    ((CacheWrite.make call.bridge epochs call.key call.value call.now ttl).toOption.toList.filter
        fun w => w.key.ns ∉ named) =
      (CacheWrite.make call.bridge epochs' call.key call.value call.now ttl).toOption.toList.filter
        fun w => w.key.ns ∉ named := by
  by_cases hns : call.key.ns ∈ named
  · -- whatever is written is written to a namespace that was named
    have hnone : ∀ epochs, ((CacheWrite.make call.bridge epochs call.key call.value call.now
        ttl).toOption.toList.filter fun w => w.key.ns ∉ named) = [] := by
      intro epochs
      refine List.filter_eq_nil_iff.mpr fun w hw => ?_
      rw [(CacheWrite.madeOf_of_make (mem_toOption_toList.mp hw)).key_eq]
      simpa using hns
    rw [hnone, hnone]
  · rw [hepochs hns]

/-- A lookup outside the namespaces that were named. -/
theorem SharedState.Agree.lookUp_eq (h : s.Agree named s') (hinv : SharedInvariant registry s)
    (hinv' : SharedInvariant registry s') (call : GetCall) {epochs epochs' : Epochs}
    (hepochs : epochs = epochs') (hns : call.key.ns ∉ named)
    (hfree : CollisionFreeOn {data | data ∈
      canonicalBytes (call.bridge.actionFor epochs call.key) :: s.hashed})
    (hfree' : CollisionFreeOn {data | data ∈
      canonicalBytes (call.bridge.actionFor epochs' call.key) :: s'.hashed}) :
    call.bridge.lookUp [BlobStore.view s.store] call.now (call.bridge.actionFor epochs call.key) =
      call.bridge.lookUp [BlobStore.view s'.store] call.now
        (call.bridge.actionFor epochs' call.key) := by
  subst hepochs
  -- only what is written outside counts
  have houtside : ∀ s : SharedState σ β, ((s.writes.map SharedWrite.write).filter fun w =>
      w.isFor call.bridge epochs call.key) = (s.writesOutside named).filter fun w =>
        w.isFor call.bridge epochs call.key := by
    intro s
    rw [SharedState.writesOutside, List.filter_filter]
    refine List.filter_congr fun w _ => ?_
    rw [Bool.eq_iff_iff, Bool.and_eq_true, decide_eq_true_eq]
    refine (and_iff_left_of_imp fun hfor => ?_).symm
    rw [(CacheWrite.isFor_eq_true.mp hfor).2.2]
    exact hns
  rw [hinv.lookUp_eq call.bridge call.now epochs call.key hfree,
    hinv'.lookUp_eq call.bridge call.now epochs call.key hfree', houtside s, houtside s', h.writes]

/-- Two states keep agreeing when the same happens in both. -/
theorem SharedState.Agree.step (h : s.Agree named s') (hinv : SharedInvariant registry s)
    (hinv' : SharedInvariant registry s') {e : SharedEvent}
    (hstep : sharedStep registry s e = some t) (hstep' : sharedStep registry s' e = some t')
    (hfree : CollisionFreeOn {data | data ∈ t.hashed})
    (hfree' : CollisionFreeOn {data | data ∈ t'.hashed}) : t.Agree named t' := by
  cases e with
  | beginSet p call =>
    simp only [sharedStep, hinv.epochs_eq] at hstep
    simp only [sharedStep, hinv'.epochs_eq] at hstep'
    split at hstep
    next hphase =>
      split at hstep'
      next hphase' =>
        split at hstep
        next hon httl =>
          simp only [hon, httl] at hstep'
          cases hstep
          cases hstep'
          exact { h with phases := agree_update h.phases p (.setting fun hns => h.epochs _ hns) }
        next hnot =>
          split at hstep'
          next hon httl => exact absurd httl (hnot _ hon)
          · cases hstep
            cases hstep'
            exact h
      · cases hstep'
    · cases hstep
  | publish p =>
    simp only [sharedStep] at hstep hstep'
    have hphases := h.phases p
    split at hstep
    next call ttl reading hphase =>
      split at hstep'
      next call' ttl' reading' hphase' =>
        rw [hphase, hphase'] at hphases
        cases hphases with
        | setting hepochs =>
          cases hstep
          cases hstep'
          refine ⟨h.epochs, agree_update h.phases p .idle, ?_, h.gets⟩
          simp only [SharedState.writesOutside, List.map_append, List.map_map, Function.comp_def,
            List.map_id', List.filter_append]
          rw [writesOutside_publish hepochs]
          exact congrArg _ h.writes
      · cases hstep'
    · cases hstep
  | beginGet p call =>
    simp only [sharedStep, hinv.epochs_eq] at hstep
    simp only [sharedStep, hinv'.epochs_eq] at hstep'
    split at hstep
    next hphase =>
      split at hstep'
      next hphase' =>
        split_ifs at hstep hstep'
        · cases hstep
          cases hstep'
          exact { h with phases := agree_update h.phases p (.getting fun hns => h.epochs _ hns) }
        · cases hstep
          cases hstep'
          exact h
      · cases hstep'
    · cases hstep
  | lookUp p =>
    simp only [sharedStep] at hstep hstep'
    have hphases := h.phases p
    split at hstep
    next call reading hphase =>
      split at hstep'
      next call' reading' hphase' =>
        rw [hphase, hphase'] at hphases
        cases hphases with
        | getting hepochs =>
          cases hstep
          cases hstep'
          refine ⟨h.epochs, agree_update h.phases p .idle, h.writes,
            .cons ⟨rfl, fun hns => ?_⟩ h.gets⟩
          exact h.lookUp_eq hinv hinv' call (hepochs hns) hns hfree hfree'
      · cases hstep'
    · cases hstep
  | clear namespaces returns =>
    simp only [sharedStep] at hstep hstep'
    split_ifs at hstep hstep'
    cases hstep
    cases hstep'
    exact { h with epochs := epochsAfter_cleared namespaces returns h.epochs }

/-- Two runs that differ in a clear of some namespaces agree outside these. -/
theorem agree_of_runs {name : Str} {before after : List SharedEvent} {returns : Bool}
    (hrun : (sharedSystem σ registry name).run (before ++ .clear (some named) returns :: after) =
      some s)
    (hrun' : (sharedSystem σ registry name).run (before ++ after) = some s')
    (hfree : CollisionFreeOn {data | data ∈ s.hashed})
    (hfree' : CollisionFreeOn {data | data ∈ s'.hashed}) : s.Agree named s' := by
  obtain ⟨u, hbefore, hafter⟩ := TransitionSystem.runFrom_append_eq_some.mp hrun
  obtain ⟨u', hbefore', hafter'⟩ := TransitionSystem.runFrom_append_eq_some.mp hrun'
  -- the runs part at the clear
  cases hbefore.symm.trans hbefore'
  obtain ⟨v, hclear, hafter⟩ := TransitionSystem.runFrom_cons_eq_some.mp hafter
  have hinv : SharedInvariant registry u := (getsCurrent_of_run hbefore).1
  have hcleared : sharedStep registry u (.clear (some named) returns) = some v := hclear
  have hboth := TransitionSystem.runFrom_induction₂
    (R := fun s s' => SharedInvariant registry s ∧ SharedInvariant registry s' ∧
      (CollisionFreeOn {data | data ∈ s.hashed} → CollisionFreeOn {data | data ∈ s'.hashed} →
        s.Agree named s'))
    ?_ ⟨hinv.step hcleared, hinv, fun _ _ => .of_clear hcleared⟩ hafter hafter'
  · exact hboth.2.2 hfree hfree'
  · rintro s s' e t t' ⟨hinv, hinv', hagree⟩ hstep hstep'
    refine ⟨hinv.step hstep, hinv'.step hstep', fun hfree hfree' => ?_⟩
    have hagreed := hagree (hfree.mono fun data hdata => hashed_subset hstep hdata)
      (hfree'.mono fun data hdata => hashed_subset hstep' hdata)
    exact hagreed.step hinv hinv' hstep hstep' hfree hfree'

end

/-- In every run over a registry and a store: a get that has returned a value returned one of a set
for the same key, and every clear of its namespace that came before the get read its epochs came
before the set read its own; and when the same events happen with and without a clear of some
namespaces, the gets of all other namespaces return the same. -/
theorem clear_barrier (σ : Type) [BridgeStore σ] (registry : EpochRegistry β) (name : Str) :
    (∀ events s, (sharedSystem σ registry name).run events = some s →
      CollisionFreeOn {data | data ∈ s.hashed} →
      ∀ g ∈ s.gets, ∀ value, g.result = .ok (some value) → ∃ w ∈ s.writes,
        w.write.key = g.call.key ∧ w.write.value = value ∧
        ∀ c earlier, c.Covers g.call.key.ns → c :: earlier <:+ g.reading.clears →
          c :: earlier <:+ w.clears) ∧
    ∀ before named returns after s s',
      (sharedSystem σ registry name).run (before ++ .clear (some named) returns :: after) = some s →
      (sharedSystem σ registry name).run (before ++ after) = some s' →
      CollisionFreeOn {data | data ∈ s.hashed} → CollisionFreeOn {data | data ∈ s'.hashed} →
      List.Forall₂ (fun g g' => g.call = g'.call ∧ (g.call.key.ns ∉ named → g.result = g'.result))
        s.gets s'.gets := by
  constructor
  · intro events s hrun hfree g hg value hvalue
    obtain ⟨w, hw, hcurrent⟩ := (getsCurrent_of_run hrun).2 hfree g hg value hvalue
    exact ⟨w, hw, hcurrent.key_eq, hcurrent.value_eq,
      fun c earlier hcovers => (hcurrent.sameClears c earlier hcovers).mpr⟩
  · intro before named returns after s s' hrun hrun' hfree hfree'
    exact (agree_of_runs hrun hrun' hfree hfree').gets

/-! ### A set and a get -/

/-- In memory, a get returns the newest value, if it is for its key and has not expired. -/
theorem SharedInvariant.lookUp_newest {registry : EpochRegistry β} {s : SharedState MemoryStore β}
    (hinv : SharedInvariant registry s) {w : SharedWrite} {writes : List SharedWrite}
    (hwrites : s.writes = w :: writes) {bridge : ExecutionCacheBridge} {now : DateTime}
    {epochs : Epochs} {key : ExecutionCacheKey} (hfor : w.write.isFor bridge epochs key = true)
    (haccepted : w.write.accepted bridge now = true)
    (hfree : CollisionFreeOn
      {data | data ∈ canonicalBytes (bridge.actionFor epochs key) :: s.hashed}) :
    bridge.lookUp [s.store.view] now (bridge.actionFor epochs key) =
      .ok (some w.write.value) := by
  have haction := w.write.actionDigest_action.1
  rw [CacheWrite.action_of_isFor hfor] at haction
  have hlookUp := hinv.lookUp_eq bridge now epochs key hfree
  rw [haction, hwrites, MemoryStore.listedBy_eq, List.map_cons, List.filter_cons, if_pos hfor,
    List.find?_cons, haccepted] at hlookUp
  exact hlookUp

/-- A set of a value that does not expire. -/
def exampleSet : SetCall := ⟨exampleBridge, exampleKey, exampleValue 1, .none, setTime⟩

/-- A get of the value. -/
def exampleGet : GetCall := ⟨exampleBridge, exampleKey, setTime⟩

/-- A process sets a value. -/
def setFirst : List SharedEvent := [.beginSet 0 exampleSet, .publish 0]

/-- Another process gets it. -/
def getLater : List SharedEvent := [.beginGet 1 exampleGet, .lookUp 1]

/-- Another namespace is cleared. -/
def clearOther : SharedEvent := .clear (some [[lit "other"]]) true

/-- The get returns the value, whether or not the other namespace is cleared in between. -/
theorem exists_run_setFirst {w : CacheWrite}
    (hmake : CacheWrite.make exampleBridge (0, 0) exampleKey (exampleValue 1) setTime none = .ok w)
    (hfree : CollisionFreeOn {data | data ∈ overwriteData}) {between : List SharedEvent}
    (hbetween : between = [clearOther] ∨ between = []) :
    ∃ s, (sharedSystem MemoryStore memoryEpochRegistry (lit "local")).run
      (setFirst ++ (between ++ getLater)) =
        some s ∧ CollisionFreeOn {data | data ∈ s.hashed} ∧
      ∃ g ∈ s.gets, g.call = exampleGet ∧ g.result = .ok (some (exampleValue 1)) := by
  have hmade := CacheWrite.madeOf_of_make hmake
  -- the state when the get has read its epochs
  obtain ⟨t, clears, hrun, hphase, hwrites, hhashed⟩ : ∃ t clears,
      (sharedSystem MemoryStore memoryEpochRegistry (lit "local")).run (setFirst ++
        (between ++ [.beginGet 1
        exampleGet])) = some t ∧ t.phase 1 = .getting exampleGet ⟨(0, 0), clears⟩ ∧
      t.writes = (CacheWrite.make exampleBridge (0, 0) exampleKey (exampleValue 1) setTime
        none).toOption.toList.map (fun w => ⟨w, []⟩) ++ [] ∧
      t.hashed = hashedFor exampleBridge (0, 0) exampleKey (exampleValue 1) ++ [] := by
    rcases hbetween with rfl | rfl
    · exact ⟨_, _, rfl, rfl, rfl, rfl⟩
    · exact ⟨_, _, rfl, rfl, rfl, rfl⟩
  have hsubset : ∀ data ∈ canonicalBytes (exampleBridge.actionFor (0, 0) exampleKey) :: t.hashed,
      data ∈ overwriteData := by
    have hsame : hashedFor exampleBridge (0, 0) exampleKey (exampleValue 1) =
        [[0, 0, 0, 1, 116, 1], canonicalBytes (exampleBridge.actionFor (0, 0) exampleKey)] := rfl
    rw [hhashed, hsame]
    simp [overwriteData]
  have hnow : CollisionFreeOn {data | data ∈
      canonicalBytes (exampleBridge.actionFor (0, 0) exampleKey) :: t.hashed} :=
    hfree.mono hsubset
  rw [hmake] at hwrites
  have hfor : w.isFor exampleBridge (0, 0) exampleKey = true := by
    rw [CacheWrite.isFor, hmade.bridge_eq, hmade.epochs_eq, hmade.key_eq]
    simp
  have hnever : w.freshUntil = none := (Except.ok.inj hmade.freshUntil_eq).symm
  have haccepted : w.accepted exampleBridge setTime = true := by
    rw [CacheWrite.accepted, hmade.bridge_eq, hnever]
    simp
  have hlookUp := (getsCurrent_of_run hrun).1.lookUp_newest hwrites hfor haccepted hnow
  rw [hmade.value_eq] at hlookUp
  obtain ⟨u, hstep, hgets, hmore⟩ : ∃ u, sharedStep memoryEpochRegistry t (.lookUp 1) = some u ∧
      u.gets = ⟨exampleGet, ⟨(0, 0), clears⟩, exampleBridge.lookUp [t.store.view] setTime
        (exampleBridge.actionFor (0, 0) exampleKey)⟩ :: t.gets ∧
      u.hashed = canonicalBytes (exampleBridge.actionFor (0, 0) exampleKey) :: t.hashed := by
    rw [sharedStep, hphase]
    exact ⟨_, rfl, rfl, rfl⟩
  rw [← hmore] at hnow
  have hget : ∃ g ∈ u.gets, g.call = exampleGet ∧ g.result = .ok (some (exampleValue 1)) := by
    rw [hgets, hlookUp]
    exact List.exists_mem_cons_of _ ⟨rfl, rfl⟩
  refine ⟨u, ?_, hnow, hget⟩
  have hsplit : setFirst ++ (between ++ getLater) =
      (setFirst ++ (between ++ [.beginGet 1 exampleGet])) ++ [.lookUp 1] := by
    simp [getLater]
  rw [hsplit]
  exact TransitionSystem.runFrom_append_eq_some.mpr
    ⟨t, hrun, TransitionSystem.runFrom_cons_eq_some.mpr ⟨_, hstep, rfl⟩⟩

end

/-- The value can be published. -/
theorem isOk_make_exampleValue : (@CacheWrite.make Sha256.standard exampleBridge (0, 0) exampleKey
    (exampleValue 1) setTime none).isOk = true := by
  decide +kernel

/-- With and without the clear of the other namespace, the get returns the value that was set. -/
theorem clear_barrier_setFirst :
    ∃ (_ : Sha256) (s s' : SharedState MemoryStore MemoryEpochRegistry),
      (sharedSystem MemoryStore memoryEpochRegistry (lit "local")).run
        (setFirst ++ clearOther :: getLater) =
        some s ∧
      (sharedSystem MemoryStore memoryEpochRegistry (lit "local")).run (setFirst ++ getLater) =
        some s' ∧
      (∃ g ∈ s.gets, g.result = .ok (some (exampleValue 1)) ∧ ∃ w ∈ s.writes,
        w.write.key = exampleKey ∧ w.write.value = exampleValue 1) ∧
      List.Forall₂ (fun g g' => g.call = g'.call ∧
        (g.call.key.ns ∉ [[lit "other"]] → g.result = g'.result)) s.gets s'.gets := by
  refine ⟨Sha256.standard, ?_⟩
  obtain ⟨w, hmake⟩ := Except.exists_of_isOk isOk_make_exampleValue
  have hfree : @CollisionFreeOn Sha256.standard {data | data ∈ overwriteData} :=
    collisionFreeOn_overwriteData fun data hdata => hdata
  obtain ⟨s, hrun, hs, g, hg, hcall, hresult⟩ :=
    @exists_run_setFirst Sha256.standard w hmake hfree _ (.inl rfl)
  obtain ⟨s', hrun', hs', -⟩ := @exists_run_setFirst Sha256.standard w hmake hfree _ (.inr rfl)
  obtain ⟨hcurrent, hexact⟩ :=
    @clear_barrier Sha256.standard _ MemoryStore _ memoryEpochRegistry (lit "local")
  obtain ⟨w', hw', hkey, hvalue, -⟩ := hcurrent _ s hrun hs g hg (exampleValue 1) hresult
  rw [hcall] at hkey
  exact ⟨s, s', hrun, hrun', ⟨g, hg, hresult, w', hw', hkey, hvalue⟩,
    hexact setFirst [[lit "other"]] true getLater s s' hrun hrun' hs hs'⟩

end OnceMesh
