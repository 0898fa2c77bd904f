import OnceMesh.ExecutionCache.Writes

/-!
# Overwritten values

A bridge reads from one store in memory and publishes to it. `Session` is the state after some
calls, with a history of what has been written and cleared. The store only ever gains results, and a
lookup passes over those that have expired: a get returns the value of the latest write of the key
that has not expired, since its namespace was cleared (`get_iff_latestUnexpired`). A value that was
overwritten comes back when the value written over it expires first (`get_returns_overwritten`).
-/

namespace OnceMesh

open Python

/-- A call of a bridge. -/
inductive BridgeCall where
  | get (now : DateTime) (keys : List ExecutionCacheKey)
  | set (now : DateTime) (pairs : Dict ExecutionCacheKey (EncodedExecutionValue × Value))
  | clear (namespaces : Option (List (List Str)))
  | setEnabled (enabled : Bool)

section

variable [Sha256]

/-! ### History -/

/-- What has happened to the cache. -/
inductive CacheEvent where
  | wrote (w : CacheWrite)
  | cleared (c : Cleared)

/-- The writes of a history, the last one first. -/
def writesOf (history : List CacheEvent) : List CacheWrite :=
  history.filterMap fun e =>
    match e with
    | .wrote w => some w
    | .cleared _ => none

/-- The clears of a history, the last one first. -/
def clearsOf (history : List CacheEvent) : List Cleared :=
  history.filterMap fun e =>
    match e with
    | .wrote _ => none
    | .cleared c => some c

/-- The value has not expired. -/
def CacheWrite.unexpired (w : CacheWrite) (now : DateTime) : Bool :=
  w.freshUntil.all fun boundary => now ≤ boundary

/-- The write is the latest one of its key that has not expired, and its namespace has not been
cleared since. -/
structure LatestUnexpired (history : List CacheEvent) (now : DateTime) (w : CacheWrite) : Prop where
  unexpired : w.unexpired now = true
  latest : ∃ after before, history = after ++ .wrote w :: before ∧
    (∀ w' ∈ writesOf after, w'.key = w.key → w'.unexpired now = false) ∧
    ∀ c ∈ clearsOf after, ¬c.Covers w.key.ns

/-- The writes of a call of `set`, the last one first, and what it hashes, before older ones. -/
def recordPairs (bridge : ExecutionCacheBridge) (epochs : List Str → Epochs) (now : DateTime) :
    List (ExecutionCacheKey × EncodedExecutionValue × Value) → List CacheWrite → List Bytes →
    List CacheWrite × List Bytes
  | [], writes, hashed => (writes, hashed)
  | (key, value, ttl) :: rest, writes, hashed =>
    match checkTtl ttl with
    | .error _ => (writes, hashed)
    | .ok none => recordPairs bridge epochs now rest writes hashed
    | .ok (some ttl) =>
      match CacheWrite.make bridge (epochs key.ns) key value now ttl with
      | .ok w => recordPairs bridge epochs now rest (w :: writes)
          (hashedFor bridge (epochs key.ns) key value ++ hashed)
      | .error _ => (writes, hashedFor bridge (epochs key.ns) key value ++ hashed)

/-! ### Sessions -/

/-- The state of a bridge, its registry and its store. The last two fields only record what
happened. -/
structure Session (β : Type) where
  registry : β
  store : MemoryStore
  enabled : Bool
  history : List CacheEvent
  hashed : List Bytes

namespace Session

variable {β : Type} (bridge : ExecutionCacheBridge) (registry : EpochRegistry β)

/-- The bridge, as it is switched now. -/
def bridgeNow (s : Session β) : ExecutionCacheBridge := { bridge with enabled := s.enabled }

/-- The epochs of a namespace, by the history. -/
def epochs (s : Session β) : List Str → Epochs := epochsAfter (clearsOf s.history)

/-- A call of `get` returns, or raises. -/
def get (s : Session β) (now : DateTime) (keys : List ExecutionCacheKey) :
    Except PyError (Dict ExecutionCacheKey EncodedExecutionValue) :=
  (s.bridgeNow bridge).get registry s.registry [s.store.view] now keys

/-- A call of `set` returns, or raises. -/
def set (s : Session β) (now : DateTime)
    (pairs : Dict ExecutionCacheKey (EncodedExecutionValue × Value)) :
    Except PyError Unit × MemoryStore :=
  (s.bridgeNow bridge).set registry s.registry MemoryStore.writer now pairs s.store

/-- What a call of `set` writes and hashes. -/
def recordSet (s : Session β) (now : DateTime)
    (pairs : Dict ExecutionCacheKey (EncodedExecutionValue × Value)) :
    List CacheWrite × List Bytes :=
  if s.enabled then recordPairs (s.bridgeNow bridge) s.epochs now pairs.entries [] s.hashed
  else ([], s.hashed)

/-- The state after a call, whether it returned or raised. -/
def perform (s : Session β) : BridgeCall → Session β
  | .get _ _ => s
  | .set now pairs =>
    { s with
      store := (s.set bridge registry now pairs).2
      history := (s.recordSet bridge now pairs).1.map .wrote ++ s.history
      hashed := (s.recordSet bridge now pairs).2 }
  | .clear namespaces =>
    { s with
      registry := (registry.clear namespaces s.registry).2
      history := (registry.cleared namespaces (registry.clear namespaces s.registry).1.isOk).map
        .cleared ++ s.history }
  | .setEnabled enabled => { s with enabled }

/-- A new bridge over an empty store. -/
def start (name : Str) : Session β := ⟨registry.init, .empty name, bridge.enabled, [], []⟩

/-- The state after some calls of a new bridge. -/
def run (name : Str) (calls : List BridgeCall) : Session β :=
  calls.foldl (perform bridge registry) (start bridge registry name)

end Session

/-! ### What a call of `set` writes -/

/-- The writes of a history are those of its two parts. -/
@[simp]
theorem writesOf_append (later earlier : List CacheEvent) :
    writesOf (later ++ earlier) = writesOf later ++ writesOf earlier := List.filterMap_append

/-- The clears of a history are those of its two parts. -/
@[simp]
theorem clearsOf_append (later earlier : List CacheEvent) :
    clearsOf (later ++ earlier) = clearsOf later ++ clearsOf earlier := List.filterMap_append

/-- The writes of a history of writes. -/
@[simp]
theorem writesOf_map_wrote (writes : List CacheWrite) :
    writesOf (writes.map .wrote) = writes := by
  induction writes with
  | nil => rfl
  | cons w writes ih => exact congrArg (w :: ·) ih

/-- A history of writes has no clears. -/
@[simp]
theorem clearsOf_map_wrote (writes : List CacheWrite) : clearsOf (writes.map .wrote) = [] := by
  induction writes with
  | nil => rfl
  | cons w writes ih => exact ih

/-- A history of clears has no writes. -/
@[simp]
theorem writesOf_map_cleared (clears : List Cleared) : writesOf (clears.map .cleared) = [] := by
  induction clears with
  | nil => rfl
  | cons c clears ih => exact ih

/-- The clears of a history of clears. -/
@[simp]
theorem clearsOf_map_cleared (clears : List Cleared) :
    clearsOf (clears.map .cleared) = clears := by
  induction clears with
  | nil => rfl
  | cons c clears ih => exact congrArg (c :: ·) ih

section

variable {bridge : ExecutionCacheBridge} {epochs : List Str → Epochs} {now : DateTime}

/-- The pair of a write, and its TTL. -/
def IsWriteOf (bridge : ExecutionCacheBridge) (epochs : List Str → Epochs) (now : DateTime)
    (w : CacheWrite) (pair : ExecutionCacheKey × EncodedExecutionValue × Value) : Prop :=
  ∃ ttl, checkTtl pair.2.2 = .ok (some ttl) ∧
    w.MadeOf bridge (epochs pair.1.ns) pair.1 pair.2.1 now ttl

/-- Every write is a write of a pair. -/
theorem exists_pair_of_mem_recordPairs
    {pairs : List (ExecutionCacheKey × EncodedExecutionValue × Value)} :
    ∀ {writes : List CacheWrite} {hashed : List Bytes},
      ∀ w ∈ (recordPairs bridge epochs now pairs writes hashed).1,
        w ∈ writes ∨ ∃ pair ∈ pairs, IsWriteOf bridge epochs now w pair := by
  induction pairs with
  | nil => exact fun w hw => .inl hw
  | cons pair rest ih =>
    obtain ⟨key, value, ttl⟩ := pair
    intro writes hashed w hw
    have hrest : (∃ pair ∈ rest, IsWriteOf bridge epochs now w pair) →
        ∃ pair ∈ (key, value, ttl) :: rest, IsWriteOf bridge epochs now w pair := by
      rintro ⟨pair, hpair, h⟩
      exact ⟨pair, List.mem_cons_of_mem _ hpair, h⟩
    rw [recordPairs] at hw
    split at hw
    · exact .inl hw
    · exact (ih w hw).imp_right hrest
    next seconds hseconds =>
      split at hw
      next w' hw' =>
        rcases ih w hw with hmem | hpair
        · rcases List.mem_cons.mp hmem with rfl | hmem
          · exact .inr ⟨_, List.mem_cons_self, seconds, hseconds, CacheWrite.madeOf_of_make hw'⟩
          · exact .inl hmem
        · exact .inr (hrest hpair)
      · exact .inl hw

/-- The loop of `set` puts the writes into the store, and writes every pair unless it raises. -/
theorem setEach_recorded {β : Type} {registry : EpochRegistry β} {b : β}
    (hepochs : registry.StandsFor b epochs) {base : List CacheWrite}
    {pairs : List (ExecutionCacheKey × EncodedExecutionValue × Value)} :
    ∀ {store : MemoryStore} {writes : List CacheWrite} {hashed : List Bytes},
      Recorded store (writes ++ base) hashed →
      Recorded (bridge.setEach registry b MemoryStore.writer now pairs store).2
        ((recordPairs bridge epochs now pairs writes hashed).1 ++ base)
        (recordPairs bridge epochs now pairs writes hashed).2 ∧
      ((bridge.setEach registry b MemoryStore.writer now pairs store).1 = .ok () →
        (∀ w ∈ writes, w ∈ (recordPairs bridge epochs now pairs writes hashed).1) ∧
        ∀ pair ∈ pairs, checkTtl pair.2.2 ≠ .ok none →
          ∃ w ∈ (recordPairs bridge epochs now pairs writes hashed).1,
            IsWriteOf bridge epochs now w pair) := by
  induction pairs with
  | nil => exact fun h => ⟨h, fun _ => ⟨fun w hw => hw, by simp⟩⟩
  | cons pair rest ih =>
    obtain ⟨key, value, ttl⟩ := pair
    intro store writes hashed h
    rw [ExecutionCacheBridge.setEach, recordPairs]
    cases httl : checkTtl ttl with
    | error e => exact ⟨h, by rintro ⟨⟩⟩
    | ok checked =>
      have hchecked : (liftM (Except.ok checked : Except PyError (Option (Option ℤ))) :
          Stateful PyError MemoryStore (Option (Option ℤ))) store = (.ok checked, store) := rfl
      rw [Stateful.bind_apply_of_ok hchecked]
      cases checked with
      | none =>
        obtain ⟨hrecorded, hwrites⟩ := @ih store writes hashed h
        refine ⟨hrecorded, fun hok => ⟨(hwrites hok).1, ?_⟩⟩
        exact List.forall_mem_cons.mpr ⟨fun hne => absurd httl hne, (hwrites hok).2⟩
      | some seconds =>
        have hread : (liftM (registry.epochs b key.ns) :
            Stateful PyError MemoryStore Epochs) store = (.ok (epochs key.ns), store) := by
          rw [registry.epochs_eq hepochs key.ns key.ns_valid]
          rfl
        dsimp only
        rw [Stateful.bind_apply_of_ok hread]
        have hnext : Recorded (bridge.publishValue MemoryStore.puts.writer now
            (bridge.actionFor (epochs key.ns) key) value seconds store).2 _ _ :=
          h.publishValue bridge (epochs key.ns) key value now seconds
        rcases @publishValue_cases _ _ bridge (epochs key.ns) key value now seconds
            MemoryStore.puts store with ⟨w, hmake, hpublish⟩ | ⟨e, hmake, hpublish⟩
        · rw [hpublish, hmake] at hnext
          rw [MemoryStore.writer, Stateful.bind_apply_of_ok hpublish, hmake]
          obtain ⟨hrecorded, hwrites⟩ := @ih _ (w :: writes) _ hnext
          refine ⟨hrecorded, fun hok => ?_⟩
          obtain ⟨hkept, hpairs⟩ := hwrites hok
          rw [List.forall_mem_cons] at hkept
          refine ⟨hkept.2, List.forall_mem_cons.mpr ⟨fun _ => ?_, hpairs⟩⟩
          exact ⟨w, hkept.1, seconds, httl, CacheWrite.madeOf_of_make hmake⟩
        · rw [hmake] at hnext
          rw [MemoryStore.writer, hmake]
          rcases hpublish with hpublish | ⟨envelope, -, hpublish⟩
          all_goals
            rw [hpublish] at hnext
            rw [Stateful.bind_apply_of_error hpublish]
            exact ⟨hnext, by rintro ⟨⟩⟩

end

/-! ### What holds after every call -/

/-- Every write was made by the bridge, under the epochs of its time. -/
def WroteUnder (bridge : ExecutionCacheBridge) : List CacheEvent → Prop
  | [] => True
  | .wrote w :: before =>
    (w.epochs = epochsAfter (clearsOf before) w.key.ns ∧ w.bridge.identity = bridge.identity ∧
      w.bridge.producer = bridge.producer) ∧ WroteUnder bridge before
  | .cleared _ :: before => WroteUnder bridge before

/-- Writes under the epochs of now continue a history. -/
theorem WroteUnder.append {bridge : ExecutionCacheBridge} {history : List CacheEvent}
    (h : WroteUnder bridge history) {writes : List CacheWrite}
    (hwrites : ∀ w ∈ writes, w.epochs = epochsAfter (clearsOf history) w.key.ns ∧
      w.bridge.identity = bridge.identity ∧ w.bridge.producer = bridge.producer) :
    WroteUnder bridge (writes.map .wrote ++ history) := by
  induction writes with
  | nil => exact h
  | cons w writes ih =>
    rw [List.forall_mem_cons] at hwrites
    refine ⟨?_, ih hwrites.2⟩
    show w.epochs = epochsAfter (clearsOf (writes.map .wrote ++ history)) w.key.ns ∧ _
    rw [clearsOf_append, clearsOf_map_wrote]
    exact hwrites.1

/-- A clear makes no write. -/
theorem WroteUnder.append_cleared {bridge : ExecutionCacheBridge} {history : List CacheEvent}
    (h : WroteUnder bridge history) (clears : List Cleared) :
    WroteUnder bridge (clears.map .cleared ++ history) := by
  induction clears with
  | nil => exact h
  | cons c clears ih => exact ih

/-- A write of a history was made under the epochs of an earlier point of it. -/
theorem WroteUnder.exists_epochs {bridge : ExecutionCacheBridge} {history : List CacheEvent}
    (h : WroteUnder bridge history) {w : CacheWrite} (hw : w ∈ writesOf history) :
    ∃ later earlier, clearsOf history = later ++ earlier ∧
      w.epochs = epochsAfter earlier w.key.ns := by
  induction history with
  | nil => cases hw
  | cons e before ih =>
    cases e with
    | wrote w' =>
      rcases List.mem_cons.mp hw with rfl | hw
      · exact ⟨[], _, rfl, h.1.1⟩
      · exact ih h.2 hw
    | cleared c =>
      obtain ⟨later, earlier, hsplit, heq⟩ := ih h hw
      exact ⟨c :: later, earlier, congrArg (c :: ·) hsplit, heq⟩

namespace Session

variable {β : Type} {bridge : ExecutionCacheBridge} {registry : EpochRegistry β} {s : Session β}

/-- The history describes the registry and the store. -/
structure Consistent (bridge : ExecutionCacheBridge) (registry : EpochRegistry β) (s : Session β) :
    Prop where
  standsFor : registry.StandsFor s.registry s.epochs
  recorded : Recorded s.store (writesOf s.history) s.hashed
  wroteUnder : WroteUnder bridge s.history

/-- The bridge starts with nothing written. -/
theorem consistent_start (name : Str) :
    Consistent bridge registry (start bridge registry name) where
  standsFor := registry.init_standsFor
  recorded := Recorded.empty name
  wroteUnder := trivial

/-- What a call of `set` does to the store, and what it writes. -/
theorem Consistent.set_recorded (h : Consistent bridge registry s) (now : DateTime)
    (pairs : Dict ExecutionCacheKey (EncodedExecutionValue × Value)) :
    Recorded (s.set bridge registry now pairs).2
      ((s.recordSet bridge now pairs).1 ++ writesOf s.history) (s.recordSet bridge now pairs).2 ∧
    (∀ w ∈ (s.recordSet bridge now pairs).1, ∃ pair ∈ pairs.entries,
      IsWriteOf (s.bridgeNow bridge) s.epochs now w pair) ∧
    ((s.set bridge registry now pairs).1 = .ok () → s.enabled = true →
      ∀ pair ∈ pairs.entries, checkTtl pair.2.2 ≠ .ok none →
        ∃ w ∈ (s.recordSet bridge now pairs).1,
          IsWriteOf (s.bridgeNow bridge) s.epochs now w pair) := by
  have henabled : (s.bridgeNow bridge).enabled = s.enabled := rfl
  rw [set, recordSet, ExecutionCacheBridge.set, henabled]
  by_cases hon : s.enabled = true
  · rw [if_pos hon, if_pos hon]
    obtain ⟨hrecorded, hwrites⟩ :=
      @setEach_recorded _ (s.bridgeNow bridge) s.epochs now β registry s.registry h.standsFor
        (writesOf s.history) pairs.entries s.store [] s.hashed h.recorded
    refine ⟨hrecorded, fun w hw => ?_, fun hok _ => (hwrites hok).2⟩
    rcases exists_pair_of_mem_recordPairs w hw with hmem | hpair
    · cases hmem
    · exact hpair
  · rw [if_neg hon, if_neg hon]
    refine ⟨h.recorded, by simp, fun _ hon' => absurd hon' hon⟩

/-- Every call keeps the history right. -/
theorem Consistent.perform (h : Consistent bridge registry s) (call : BridgeCall) :
    Consistent bridge registry (s.perform bridge registry call) := by
  cases call with
  | get now keys => exact h
  | setEnabled enabled => exact ⟨h.standsFor, h.recorded, h.wroteUnder⟩
  | clear namespaces =>
    refine ⟨?_, ?_, h.wroteUnder.append_cleared _⟩
    · have hcleared := registry.clear_standsFor h.standsFor namespaces
      rw [epochs, Session.perform, clearsOf_append, clearsOf_map_cleared]
      exact hcleared
    · rw [Session.perform, writesOf_append, writesOf_map_cleared]
      exact h.recorded
  | set now pairs =>
    obtain ⟨hrecorded, hpairs, -⟩ := h.set_recorded now pairs
    refine ⟨?_, ?_, h.wroteUnder.append fun w hw => ?_⟩
    · rw [epochs, Session.perform, clearsOf_append, clearsOf_map_wrote]
      exact h.standsFor
    · rw [Session.perform, writesOf_append, writesOf_map_wrote]
      exact hrecorded
    · obtain ⟨pair, -, ttl, -, hmade⟩ := hpairs w hw
      rw [hmade.epochs_eq, hmade.key_eq, hmade.bridge_eq]
      exact ⟨rfl, rfl, rfl⟩

/-- After any calls, the session agrees with its history. -/
theorem consistent_run (name : Str) (calls : List BridgeCall) :
    Consistent bridge registry (run bridge registry name calls) := by
  have hfold : ∀ (calls : List BridgeCall) (s : Session β), Consistent bridge registry s →
      Consistent bridge registry (calls.foldl (perform bridge registry) s) := by
    intro calls
    induction calls with
    | nil => exact fun s h => h
    | cons call calls ih => exact fun s h => ih _ (h.perform call)
  exact hfold calls _ (consistent_start name)

end Session

/-! ### What a get returns -/

section

variable {history : List CacheEvent} {now : DateTime} {w : CacheWrite}

/-- An earlier write counts when the last one is for another key, or has expired. -/
theorem latestUnexpired_wrote_cons {w' : CacheWrite} :
    LatestUnexpired (.wrote w' :: history) now w ↔
      (w' = w ∧ w.unexpired now = true) ∨
        (w'.key = w.key → w'.unexpired now = false) ∧ LatestUnexpired history now w := by
  constructor
  · rintro ⟨hunexpired, after, before, hsplit, hwrites, hclears⟩
    cases after with
    | nil =>
      obtain ⟨hw, -⟩ := List.cons.inj hsplit
      exact .inl ⟨CacheEvent.wrote.inj hw, hunexpired⟩
    | cons e after =>
      obtain ⟨rfl, hrest⟩ := List.cons.inj hsplit
      have hwrites' : ∀ w'' ∈ w' :: writesOf after, w''.key = w.key → w''.unexpired now = false :=
        hwrites
      rw [List.forall_mem_cons] at hwrites'
      exact .inr ⟨hwrites'.1, hunexpired, after, before, hrest, hwrites'.2, hclears⟩
  · rintro (⟨rfl, hunexpired⟩ | ⟨hexpired, hunexpired, after, before, rfl, hwrites, hclears⟩)
    · exact ⟨hunexpired, [], history, rfl, by simp [writesOf], by simp [clearsOf]⟩
    · exact ⟨hunexpired, .wrote w' :: after, before, rfl,
        List.forall_mem_cons.mpr ⟨hexpired, hwrites⟩, hclears⟩

/-- A write counts until a clear covers its namespace. -/
theorem latestUnexpired_cleared_cons {c : Cleared} :
    LatestUnexpired (.cleared c :: history) now w ↔
      ¬c.Covers w.key.ns ∧ LatestUnexpired history now w := by
  constructor
  · rintro ⟨hunexpired, after, before, hsplit, hwrites, hclears⟩
    cases after with
    | nil => cases hsplit
    | cons e after =>
      obtain ⟨rfl, hrest⟩ := List.cons.inj hsplit
      have hclears' : ∀ c' ∈ c :: clearsOf after, ¬c'.Covers w.key.ns := hclears
      rw [List.forall_mem_cons] at hclears'
      exact ⟨hclears'.1, hunexpired, after, before, hrest, hwrites, hclears'.2⟩
  · rintro ⟨hcovers, hunexpired, after, before, rfl, hwrites, hclears⟩
    exact ⟨hunexpired, .cleared c :: after, before, rfl, hwrites,
      List.forall_mem_cons.mpr ⟨hcovers, hclears⟩⟩

variable {bridge : ExecutionCacheBridge} {key : ExecutionCacheKey}

/-- The first accepted write under the epochs of now is the latest one that has not expired: by
induction on the history, whose clears keep older writes apart. -/
theorem find?_eq_some_iff_latestUnexpired (h : WroteUnder bridge history) :
    (((writesOf history).find? fun w =>
        w.isFor bridge (epochsAfter (clearsOf history) key.ns) key && w.accepted bridge now) =
        some w) ↔
      w.key = key ∧ LatestUnexpired history now w := by
  induction history with
  | nil =>
    refine iff_of_false (by simp [writesOf]) ?_
    rintro ⟨-, -, after, before, hsplit, -⟩
    cases after <;> cases hsplit
  | cons e before ih =>
    cases e with
    | wrote w' =>
      obtain ⟨⟨hepochs, hidentity, hproducer⟩, hbefore⟩ := h
      have hclears : clearsOf (.wrote w' :: before) = clearsOf before := rfl
      have hwrites : writesOf (.wrote w' :: before) = w' :: writesOf before := rfl
      have haccepted : w'.accepted bridge now = w'.unexpired now := by
        simp [CacheWrite.accepted, CacheWrite.unexpired, hproducer]
      rw [latestUnexpired_wrote_cons, hclears, hwrites, List.find?_cons, haccepted]
      by_cases hkey : w'.key = key
      · have hfor : w'.isFor bridge (epochsAfter (clearsOf before) key.ns) key = true :=
          CacheWrite.isFor_eq_true.mpr ⟨hidentity, by rw [hepochs, hkey], hkey⟩
        rw [hfor, Bool.true_and]
        cases hunexpired : w'.unexpired now with
        | true =>
          simp only [Option.some.injEq]
          constructor
          · rintro rfl
            exact ⟨hkey, .inl ⟨rfl, hunexpired⟩⟩
          · rintro ⟨hw, ⟨rfl, -⟩ | ⟨hexpired, -⟩⟩
            · rfl
            · cases hexpired (hkey.trans hw.symm)
        | false =>
          dsimp only
          rw [ih hbefore]
          refine and_congr_right fun hw => ?_
          constructor
          · exact fun hlatest => .inr ⟨fun _ => rfl, hlatest⟩
          · rintro (⟨rfl, hnot⟩ | ⟨-, hlatest⟩)
            · rw [hunexpired] at hnot
              cases hnot
            · exact hlatest
      · have hfor : w'.isFor bridge (epochsAfter (clearsOf before) key.ns) key = false := by
          rw [Bool.eq_false_iff]
          exact fun htrue => hkey (CacheWrite.isFor_eq_true.mp htrue).2.2
        rw [hfor, Bool.false_and]
        dsimp only
        rw [ih hbefore]
        refine and_congr_right fun hw => ?_
        constructor
        · exact fun hlatest => .inr ⟨fun heq => absurd (heq.trans hw) hkey, hlatest⟩
        · rintro (⟨rfl, -⟩ | ⟨-, hlatest⟩)
          · exact absurd hw hkey
          · exact hlatest
    | cleared c =>
      have hbefore : WroteUnder bridge before := h
      have hclears : clearsOf (.cleared c :: before) = [c] ++ clearsOf before := rfl
      have hwrites : writesOf (.cleared c :: before) = writesOf before := rfl
      rw [latestUnexpired_cleared_cons, hclears, hwrites]
      by_cases hcovers : c.Covers key.ns
      · -- no older write is under the epochs of now
        refine iff_of_false (fun hfound => ?_) fun hlatest => ?_
        · have hmem := List.mem_of_find?_eq_some hfound
          have hfor := List.find?_some hfound
          rw [Bool.and_eq_true] at hfor
          obtain ⟨-, hnow, hkey⟩ := CacheWrite.isFor_eq_true.mp hfor.1
          obtain ⟨later, earlier, hsplit, hepochs⟩ := hbefore.exists_epochs hmem
          rw [hepochs, hkey, hsplit, ← List.append_assoc, eq_comm, epochsAfter_append_eq] at hnow
          exact hnow c (List.mem_append_left _ (List.mem_singleton_self c)) hcovers
        · obtain ⟨rfl, hnot, -⟩ := hlatest
          exact hnot hcovers
      · have hsame : epochsAfter ([c] ++ clearsOf before) key.ns =
            epochsAfter (clearsOf before) key.ns :=
          epochsAfter_append_eq.mpr (by simpa using hcovers)
        rw [hsame, ih hbefore]
        refine and_congr_right fun hw => ?_
        rw [hw]
        exact (and_iff_right hcovers).symm

end

/-- The loop of `get`, when every lookup returns. -/
theorem getEach_of_lookUp {β : Type} {bridge : ExecutionCacheBridge} {registry : EpochRegistry β}
    {b : β} {stores : List Store} {now : DateTime} {epochs : List Str → Epochs}
    (hepochs : registry.StandsFor b epochs)
    {found : ExecutionCacheKey → Option EncodedExecutionValue} {keys : List ExecutionCacheKey}
    (hfound : ∀ key ∈ keys,
      bridge.lookUp stores now (bridge.actionFor (epochs key.ns) key) = .ok (found key)) :
    ∀ results : Dict ExecutionCacheKey EncodedExecutionValue, ∃ results',
      bridge.getEach registry b stores now keys results = .ok results' ∧
      ∀ key, results'.get? key =
        if key ∈ keys then (found key).or (results.get? key) else results.get? key := by
  induction keys with
  | nil => exact fun results => ⟨results, rfl, fun key => by simp⟩
  | cons key rest ih =>
    intro results
    rw [List.forall_mem_cons] at hfound
    obtain ⟨results', hrest, hget⟩ :=
      ih hfound.2 ((found key).elim results fun value => results.set key value)
    refine ⟨results', ?_, fun key' => ?_⟩
    · rw [ExecutionCacheBridge.getEach, registry.epochs_eq hepochs key.ns key.ns_valid,
        Except.ok_bind, hfound.1]
      exact hrest
    · have hset : ((found key).elim results fun value => results.set key value).get? key' =
          if key' = key then (found key).or (results.get? key') else results.get? key' := by
        cases found key with
        | none => simp
        | some value => simp
      rw [hget, hset]
      by_cases heq : key' = key
      · subst heq
        cases found key' <;> simp
      · simp [heq]

/-- The loop of `get` raises when a lookup does. -/
theorem exists_getEach_error {β : Type} {bridge : ExecutionCacheBridge} {registry : EpochRegistry β}
    {b : β} {stores : List Store} {now : DateTime} {epochs : List Str → Epochs}
    (hepochs : registry.StandsFor b epochs) {keys : List ExecutionCacheKey}
    (hraises : ∃ key ∈ keys, ∃ e,
      bridge.lookUp stores now (bridge.actionFor (epochs key.ns) key) = .error e) :
    ∀ results, ∃ e, bridge.getEach registry b stores now keys results = .error e := by
  induction keys with
  | nil =>
    obtain ⟨key, hkey, -⟩ := hraises
    cases hkey
  | cons first rest ih =>
    intro results
    rw [ExecutionCacheBridge.getEach, registry.epochs_eq hepochs first.ns first.ns_valid,
      Except.ok_bind]
    obtain ⟨key, hkey, e, he⟩ := hraises
    rcases List.mem_cons.mp hkey with rfl | hkey
    · rw [he]
      exact ⟨e, rfl⟩
    · cases bridge.lookUp stores now (bridge.actionFor (epochs first.ns) first) with
      | error e => exact ⟨e, rfl⟩
      | ok found => exact ih ⟨key, hkey, e, he⟩ _

namespace Session

variable {β : Type} {bridge : ExecutionCacheBridge} {registry : EpochRegistry β} {s : Session β}

/-- What is hashed up to a get of some keys. -/
def hashedWith (bridge : ExecutionCacheBridge) (s : Session β) (keys : List ExecutionCacheKey) :
    Set Bytes :=
  {data | data ∈ s.hashed ∨ ∃ key ∈ keys,
    data = canonicalBytes (bridge.actionFor (s.epochs key.ns) key)}

/-- A key has a digest if it has been written since its namespace was last cleared. -/
theorem Consistent.exists_actionDigest (h : Consistent bridge registry s) {w : CacheWrite}
    {after before : List CacheEvent} (hsplit : s.history = after ++ .wrote w :: before)
    (hclears : ∀ c ∈ clearsOf after, ¬c.Covers w.key.ns) :
    ∃ digest, actionDigest (bridge.actionFor (s.epochs w.key.ns) w.key) = .ok digest := by
  have hwrote : ∀ after, WroteUnder bridge (after ++ .wrote w :: before) →
      w.epochs = epochsAfter (clearsOf before) w.key.ns ∧ w.bridge.identity = bridge.identity := by
    intro after
    induction after with
    | nil => exact fun h => ⟨h.1.1, h.1.2.1⟩
    | cons e after ih =>
      cases e with
      | wrote w' => exact fun h => ih h.2
      | cleared c => exact ih
  have hunder := h.wroteUnder
  rw [hsplit] at hunder
  obtain ⟨hepochs, hidentity⟩ := hwrote after hunder
  have hnow : s.epochs w.key.ns = w.epochs := by
    rw [epochs, hsplit, clearsOf_append, hepochs]
    exact epochsAfter_append_eq.mpr hclears
  have hfor : w.isFor bridge (s.epochs w.key.ns) w.key = true :=
    CacheWrite.isFor_eq_true.mpr ⟨hidentity, hnow.symm, rfl⟩
  rw [← CacheWrite.action_of_isFor hfor]
  exact ⟨w.digest, w.actionDigest_action.1⟩

/-- A lookup of a key with a digest finds the latest write that has not expired. -/
theorem Consistent.lookUp_eq (h : Consistent bridge registry s) (now : DateTime)
    {keys : List ExecutionCacheKey} (hfree : CollisionFreeOn (s.hashedWith bridge keys))
    {key : ExecutionCacheKey} (hkey : key ∈ keys) {digest : Str}
    (haction : actionDigest (bridge.actionFor (s.epochs key.ns) key) = .ok digest) :
    bridge.lookUp [s.store.view] now (bridge.actionFor (s.epochs key.ns) key) =
      .ok (((writesOf s.history).find? fun w =>
        w.isFor bridge (s.epochs key.ns) key && w.accepted bridge now).map CacheWrite.value) := by
  have hstored : CollisionFreeOn {data | data ∈ s.hashed} :=
    hfree.mono fun data hdata => .inl hdata
  have hlookUp := lookUp_eq_find? bridge now (h.recorded.holdsWrites hstored) hfree
    (fun w hw => .inl (h.recorded.hashed w hw).2) (.inr ⟨key, hkey, rfl⟩) haction
  -- the store in memory lists all writes, the last one first
  rw [MemoryStore.listedBy_eq, List.find?_filter] at hlookUp
  simp only [Bool.decide_and, Bool.decide_eq_true] at hlookUp
  exact hlookUp

/-- Whether it is switched on does not matter to a lookup. -/
theorem get_eq (now : DateTime) (keys : List ExecutionCacheKey) :
    s.get bridge registry now keys =
      if s.enabled then bridge.getEach registry s.registry [s.store.view] now keys .empty
      else .ok .empty := by
  have hsame : ∀ keys results,
      (s.bridgeNow bridge).getEach registry s.registry [s.store.view] now keys results =
        bridge.getEach registry s.registry [s.store.view] now keys results := by
    intro keys
    induction keys with
    | nil => exact fun results => rfl
    | cons key rest ih =>
      intro results
      rw [ExecutionCacheBridge.getEach, ExecutionCacheBridge.getEach]
      refine bind_congr fun epochs => bind_congr fun found => ?_
      exact ih _
  rw [get, ExecutionCacheBridge.get, hsame]
  rfl

/-- What a get returns, and when it raises. -/
theorem Consistent.get_iff (h : Consistent bridge registry s) {now : DateTime}
    {keys : List ExecutionCacheKey} (hfree : CollisionFreeOn (s.hashedWith bridge keys)) :
    (∀ results, s.get bridge registry now keys = .ok results → ∀ key value,
      results.get? key = some value ↔ s.enabled = true ∧ key ∈ keys ∧
        ∃ w, w.key = key ∧ w.value = value ∧ LatestUnexpired s.history now w) ∧
    ∀ e, s.get bridge registry now keys = .error e → ∃ key ∈ keys, ∀ w after before,
      s.history = after ++ .wrote w :: before → w.key = key → ∃ c ∈ clearsOf after,
        c.Covers key.ns := by
  rw [get_eq]
  by_cases hon : s.enabled = true
  · rw [if_pos hon]
    by_cases hall : ∀ key ∈ keys, ∃ digest,
        actionDigest (bridge.actionFor (s.epochs key.ns) key) = .ok digest
    · -- every key is looked up
      obtain ⟨results, hok, hresults⟩ := getEach_of_lookUp h.standsFor
        (fun key hkey => by
          obtain ⟨digest, hdigest⟩ := hall key hkey
          exact h.lookUp_eq now hfree hkey hdigest) .empty
      rw [hok]
      refine ⟨?_, by rintro _ ⟨⟩⟩
      rintro _ ⟨⟩ key value
      rw [hresults key, Dict.get?_empty, Option.or_none]
      split_ifs with hkey
      · rw [Option.map_eq_some_iff]
        refine Iff.trans ?_ (and_iff_right hon).symm
        rw [and_iff_right hkey]
        refine exists_congr fun w => ?_
        rw [epochs, find?_eq_some_iff_latestUnexpired h.wroteUnder]
        tauto
      · exact iff_of_false (by simp) fun hget => hkey hget.2.1
    · -- a key without a digest has not been written since it was cleared
      push Not at hall
      obtain ⟨key, hkey, hnone⟩ := hall
      have hraises : ∃ e, actionDigest (bridge.actionFor (s.epochs key.ns) key) = .error e := by
        cases hdigest : actionDigest (bridge.actionFor (s.epochs key.ns) key) with
        | ok digest => exact absurd hdigest (hnone digest)
        | error e => exact ⟨e, rfl⟩
      obtain ⟨e, he⟩ := hraises
      obtain ⟨e', he'⟩ := exists_getEach_error h.standsFor
        ⟨key, hkey, e, lookUp_of_actionDigest_error bridge now he [s.store.view]⟩ .empty
      rw [he']
      refine ⟨by rintro _ ⟨⟩, fun _ _ => ⟨key, hkey, ?_⟩⟩
      rintro w after before hsplit rfl
      by_contra hclears
      push Not at hclears
      obtain ⟨digest, hdigest⟩ := h.exists_actionDigest hsplit hclears
      exact hnone digest hdigest
  · rw [if_neg hon]
    refine ⟨?_, by rintro _ ⟨⟩⟩
    rintro _ ⟨⟩ key value
    exact iff_of_false (by simp) fun hget => hon hget.1

end Session

/-- After every sequence of calls: a get that returns has, for each of its keys, the value of the
latest write of the key that has not expired, since the namespace was last cleared, and nothing when
there is none; a get raises only over a key that has not been written since its namespace was last
cleared; and a set that returns has written every pair whose TTL is not zero or negative. -/
theorem get_iff_latestUnexpired {β : Type} (bridge : ExecutionCacheBridge)
    (registry : EpochRegistry β) (name : Str) (calls : List BridgeCall) {s : Session β}
    (hs : Session.run bridge registry name calls = s) :
    (∀ now keys, CollisionFreeOn (s.hashedWith bridge keys) →
      (∀ results, s.get bridge registry now keys = .ok results → ∀ key value,
        results.get? key = some value ↔ s.enabled = true ∧ key ∈ keys ∧
          ∃ w, w.key = key ∧ w.value = value ∧ LatestUnexpired s.history now w) ∧
      ∀ e, s.get bridge registry now keys = .error e → ∃ key ∈ keys, ∀ w after before,
        s.history = after ++ .wrote w :: before → w.key = key → ∃ c ∈ clearsOf after,
          c.Covers key.ns) ∧
    ∀ now pairs, (s.set bridge registry now pairs).1 = .ok () → s.enabled = true →
      ∀ pair ∈ pairs.entries, checkTtl pair.2.2 ≠ .ok none → ∃ w after before,
        (s.perform bridge registry (.set now pairs)).history =
          after ++ .wrote w :: before ++ s.history ∧
        IsWriteOf (s.bridgeNow bridge) s.epochs now w pair := by
  have hconsistent : Session.Consistent bridge registry s := by
    rw [← hs]
    exact Session.consistent_run name calls
  refine ⟨fun now keys hfree => hconsistent.get_iff hfree,
    fun now pairs hok hon pair hpair httl => ?_⟩
  obtain ⟨-, -, hwrites⟩ := hconsistent.set_recorded now pairs
  obtain ⟨w, hw, hwrite⟩ := hwrites hok hon pair hpair httl
  obtain ⟨later, earlier, hsplit⟩ := List.append_of_mem hw
  refine ⟨w, later.map .wrote, earlier.map .wrote, ?_, hwrite⟩
  rw [Session.perform, hsplit]
  simp

end

/-! ### A value that comes back -/

section

variable [Sha256]

/-- A set of one value returns when the value can be published, and writes it. -/
theorem Session.set_of_make {β : Type} {bridge : ExecutionCacheBridge} {registry : EpochRegistry β}
    {s : Session β} (h : Consistent bridge registry s) (hbridge : s.bridgeNow bridge = bridge)
    (hon : s.enabled = true) {key : ExecutionCacheKey} {value : EncodedExecutionValue}
    {now : DateTime} {ttl : Value} {seconds : Option ℤ} (httl : checkTtl ttl = .ok (some seconds))
    {w : CacheWrite}
    (hmake : CacheWrite.make bridge (s.epochs key.ns) key value now seconds = .ok w) :
    (s.set bridge registry now (.ofPairs [(key, (value, ttl))])).1 = .ok () ∧
    (s.perform bridge registry (.set now (.ofPairs [(key, (value, ttl))]))).history =
      .wrote w :: s.history ∧
    (s.perform bridge registry (.set now (.ofPairs [(key, (value, ttl))]))).hashed =
      hashedFor bridge (s.epochs key.ns) key value ++ s.hashed := by
  have hentries : (Dict.ofPairs [(key, (value, ttl))]).entries = [(key, value, ttl)] := rfl
  have henabled : bridge.enabled = true := by
    rw [← hbridge]
    exact hon
  have hread : (liftM (registry.epochs s.registry key.ns) :
      Stateful PyError MemoryStore Epochs) s.store = (.ok (s.epochs key.ns), s.store) := by
    rw [registry.epochs_eq h.standsFor key.ns key.ns_valid]
    rfl
  have hchecked : (liftM (Except.ok (some seconds) : Except PyError (Option (Option ℤ))) :
      Stateful PyError MemoryStore (Option (Option ℤ))) s.store =
        (.ok (some seconds), s.store) := rfl
  refine ⟨?_, ?_⟩
  · rw [set, hbridge, ExecutionCacheBridge.set, if_pos henabled, hentries,
      ExecutionCacheBridge.setEach, httl, Stateful.bind_apply_of_ok hchecked]
    dsimp only
    rw [Stateful.bind_apply_of_ok hread]
    rcases @publishValue_cases _ _ bridge (s.epochs key.ns) key value now seconds MemoryStore.puts
        s.store with ⟨w', -, hpublish⟩ | ⟨e, herror, -⟩
    · rw [MemoryStore.writer, Stateful.bind_apply_of_ok hpublish]
      rfl
    · cases hmake.symm.trans herror
  · have hrecord : s.recordSet bridge now (.ofPairs [(key, (value, ttl))]) =
        ([w], hashedFor bridge (s.epochs key.ns) key value ++ s.hashed) := by
      rw [recordSet, if_pos hon, hbridge, hentries, recordPairs, httl]
      dsimp only
      rw [hmake]
      rfl
    rw [perform, hrecord]
    exact ⟨rfl, rfl⟩

/-- A key without a namespace. -/
def exampleKey : ExecutionCacheKey := ⟨[], lit "k", validateNamespace_nil, by simp⟩

/-- A bridge. -/
def exampleBridge : ExecutionCacheBridge where
  runtime := lit "r"
  serializer := lit "s"
  authorizationPartition := lit "hmac-sha256:" ++ List.replicate 64 (digit 0)
  producer := lit "p"
  runtime_nonempty := by simp
  serializer_nonempty := by simp
  partition_valid := by decide
  producer_nonempty := by simp

/-- A value of one octet. -/
def exampleValue (b : UInt8) : EncodedExecutionValue := ⟨lit "t", [b], by decide⟩

/-- When the values are set. -/
def setTime : DateTime := exampleTime "2026-01-01T00:00:00Z"

/-- A value for some seconds. -/
def examplePair (b : UInt8) (ttl : ℤ) : Dict ExecutionCacheKey (EncodedExecutionValue × Value) :=
  .ofPairs [(exampleKey, (exampleValue b, .int ttl))]

/-- The session after a value is set for 100 seconds. -/
def setOnce : Session MemoryEpochRegistry :=
  (Session.start exampleBridge memoryEpochRegistry (lit "local")).perform exampleBridge
    memoryEpochRegistry (.set setTime (examplePair 1 100))

/-- The session after the value is at once overwritten for 10 seconds. -/
def overwritten : Session MemoryEpochRegistry :=
  setOnce.perform exampleBridge memoryEpochRegistry (.set setTime (examplePair 2 10))

/-- What the session hashes. -/
def overwriteData : List Bytes :=
  [[0, 0, 0, 1, 116, 1], [0, 0, 0, 1, 116, 2],
    canonicalBytes (exampleBridge.actionFor (0, 0) exampleKey)]

/-- The values can be published. -/
def examplePublished (b : UInt8) (ttl : ℤ) : Except PyError CacheWrite :=
  CacheWrite.make exampleBridge (0, 0) exampleKey (exampleValue b) setTime (some ttl)

/-- Both sets return, and the history holds both writes. -/
theorem history_overwritten {first second : CacheWrite}
    (hfirst : examplePublished 1 100 = .ok first) (hsecond : examplePublished 2 10 = .ok second) :
    (setOnce.set exampleBridge memoryEpochRegistry setTime (examplePair 2 10)).1 = .ok () ∧
      overwritten.history = [.wrote second, .wrote first] ∧
      ∀ data ∈ overwritten.hashedWith exampleBridge [exampleKey], data ∈ overwriteData := by
  have hhashed : ∀ b, hashedFor exampleBridge (0, 0) exampleKey (exampleValue b) =
      [[0, 0, 0, 1, 116, b], canonicalBytes (exampleBridge.actionFor (0, 0) exampleKey)] :=
    fun b => rfl
  have hstart : Session.Consistent exampleBridge memoryEpochRegistry
      (.start exampleBridge memoryEpochRegistry (lit "local")) := Session.consistent_start _
  obtain ⟨-, honce, hhashed₁⟩ := @Session.set_of_make _ _ _ _ _ hstart rfl rfl exampleKey
    (exampleValue 1) setTime (.int 100) (some 100) rfl first hfirst
  have hepochs : setOnce.epochs = fun _ => (0, 0) := by
    rw [Session.epochs, setOnce, examplePair, honce]
    rfl
  have hsecond' : CacheWrite.make exampleBridge (setOnce.epochs exampleKey.ns) exampleKey
      (exampleValue 2) setTime (some 10) = .ok second := by
    rw [hepochs]
    exact hsecond
  obtain ⟨hreturned, htwice, hhashed₂⟩ :=
    @Session.set_of_make _ _ _ _ setOnce (hstart.perform _) rfl
    rfl exampleKey (exampleValue 2) setTime (.int 10) (some 10) rfl second hsecond'
  have hhistory : overwritten.history = [.wrote second, .wrote first] := by
    rw [overwritten, examplePair, htwice, setOnce, examplePair, honce]
    rfl
  refine ⟨hreturned, hhistory, ?_⟩
  have hboth : overwritten.hashed = hashedFor exampleBridge (0, 0) exampleKey (exampleValue 2) ++
      (hashedFor exampleBridge (0, 0) exampleKey (exampleValue 1) ++ []) := by
    rw [overwritten, examplePair, hhashed₂, hepochs, setOnce, examplePair, hhashed₁]
    rfl
  intro data hdata
  have hcases : data ∈ overwritten.hashed ∨ ∃ key ∈ [exampleKey],
      data = canonicalBytes (exampleBridge.actionFor (overwritten.epochs key.ns) key) := hdata
  rcases hcases with hmem | ⟨key, hkey, hdata⟩
  · rw [hboth, hhashed, hhashed] at hmem
    simp only [List.cons_append, List.nil_append, List.mem_cons, List.not_mem_nil, or_false] at hmem
    simp only [overwriteData, List.mem_cons, List.not_mem_nil, or_false]
    rcases hmem with h | h | h | h
    · exact .inr (.inl h)
    · exact .inr (.inr h)
    · exact .inl h
    · exact .inr (.inr h)
  · rw [hdata, List.mem_singleton.mp hkey, Session.epochs, hhistory]
    exact List.mem_cons_of_mem _ (List.mem_cons_of_mem _ List.mem_cons_self)

end

/-- The hashes of the example are distinct. -/
theorem nodup_overwriteData : (overwriteData.map (@Sha256.hash Sha256.standard)).Nodup := by
  decide +kernel

/-- The first value of the example is published. -/
theorem isOk_examplePublished_first : (@examplePublished Sha256.standard 1 100).isOk = true := by
  decide +kernel

/-- The second value of the example is published. -/
theorem isOk_examplePublished_second : (@examplePublished Sha256.standard 2 10).isOk = true := by
  decide +kernel

/-- After 50 seconds the first value is the latest that has not expired. -/
theorem latestUnexpired_overwritten [Sha256] {first second : CacheWrite}
    (hfirst : examplePublished 1 100 = .ok first) (hsecond : examplePublished 2 10 = .ok second) :
    first.key = exampleKey ∧ first.value = exampleValue 1 ∧
      LatestUnexpired [.wrote second, .wrote first] (exampleTime "2026-01-01T00:00:50Z") first := by
  have hmade := CacheWrite.madeOf_of_make hfirst
  have hover := CacheWrite.madeOf_of_make hsecond
  have hlater : ∀ ttl boundary, ttlBoundary setTime (some ttl) = .ok boundary →
      boundary.all (fun t => decide (exampleTime "2026-01-01T00:00:50Z" ≤ t)) =
        ((ttlBoundary setTime (some ttl)).toOption.getD none).all
          fun t => decide (exampleTime "2026-01-01T00:00:50Z" ≤ t) := by
    intro ttl boundary h
    rw [h]
    rfl
  have hfresh : first.unexpired (exampleTime "2026-01-01T00:00:50Z") = true := by
    rw [CacheWrite.unexpired, hlater _ _ hmade.freshUntil_eq]
    decide +kernel
  have hexpired : second.unexpired (exampleTime "2026-01-01T00:00:50Z") = false := by
    rw [CacheWrite.unexpired, hlater _ _ hover.freshUntil_eq]
    decide +kernel
  refine ⟨hmade.key_eq, hmade.value_eq,
    latestUnexpired_wrote_cons.mpr (.inr ⟨fun _ => hexpired, ?_⟩)⟩
  exact latestUnexpired_wrote_cons.mpr (.inl ⟨rfl, hfresh⟩)

/-- What the session hashes does not collide. -/
theorem collisionFreeOn_overwriteData {data : Set Bytes} (h : ∀ d ∈ data, d ∈ overwriteData) :
    @CollisionFreeOn Sha256.standard data := by
  intro a ha b hb hab
  exact List.inj_on_of_nodup_map nodup_overwriteData (h a ha) (h b hb) hab

/-- The value that was overwritten is returned once the value written over it has expired. -/
theorem get_returns_overwritten :
    (@Session.set Sha256.standard _ exampleBridge memoryEpochRegistry (@setOnce Sha256.standard)
      setTime (examplePair 2 10)).1 = .ok () ∧
    ∃ results, @Session.get Sha256.standard _ exampleBridge memoryEpochRegistry
        (@overwritten Sha256.standard) (exampleTime "2026-01-01T00:00:50Z") [exampleKey] =
          .ok results ∧ results.get? exampleKey = some (exampleValue 1) := by
  obtain ⟨first, hfirst⟩ := Except.exists_of_isOk isOk_examplePublished_first
  obtain ⟨second, hsecond⟩ := Except.exists_of_isOk isOk_examplePublished_second
  obtain ⟨hreturned, hhistory, hdata⟩ :=
    @history_overwritten Sha256.standard first second hfirst hsecond
  obtain ⟨hkey, hvalue, hlatest⟩ :=
    @latestUnexpired_overwritten Sha256.standard first second hfirst hsecond
  have hconsistent : @Session.Consistent Sha256.standard _ exampleBridge memoryEpochRegistry
      (@overwritten Sha256.standard) :=
    @Session.consistent_run Sha256.standard _ _ _ (lit "local")
      [.set setTime (examplePair 1 100), .set setTime (examplePair 2 10)]
  obtain ⟨hget, hraises⟩ := @Session.Consistent.get_iff Sha256.standard _ _ _ _ hconsistent
    (exampleTime "2026-01-01T00:00:50Z") [exampleKey] (collisionFreeOn_overwriteData hdata)
  refine ⟨hreturned, ?_⟩
  cases hresults : @Session.get Sha256.standard _ exampleBridge memoryEpochRegistry
      (@overwritten Sha256.standard) (exampleTime "2026-01-01T00:00:50Z") [exampleKey] with
  | ok results =>
    refine ⟨results, rfl, (hget results hresults exampleKey _).mpr ?_⟩
    rw [hhistory]
    exact ⟨rfl, List.mem_singleton_self _, first, hkey, hvalue, hlatest⟩
  | error e =>
    -- the key has just been written
    obtain ⟨key, hmem, hnone⟩ := hraises e hresults
    obtain ⟨c, hc, -⟩ := hnone first [@CacheEvent.wrote Sha256.standard second] [] hhistory
      (hkey.trans (List.mem_singleton.mp hmem).symm)
    cases hc

/-- The get returns the first value, by the general statement. -/
theorem get_iff_latestUnexpired_overwritten :
    ∃ results, @Session.get Sha256.standard _ exampleBridge memoryEpochRegistry
        (@overwritten Sha256.standard) (exampleTime "2026-01-01T00:00:50Z") [exampleKey] =
          .ok results ∧ results.get? exampleKey = some (exampleValue 1) := by
  obtain ⟨first, hfirst⟩ := Except.exists_of_isOk isOk_examplePublished_first
  obtain ⟨second, hsecond⟩ := Except.exists_of_isOk isOk_examplePublished_second
  obtain ⟨-, hhistory, hdata⟩ := @history_overwritten Sha256.standard first second hfirst hsecond
  obtain ⟨hkey, hvalue, hlatest⟩ :=
    @latestUnexpired_overwritten Sha256.standard first second hfirst hsecond
  obtain ⟨hget, hraises⟩ := (@get_iff_latestUnexpired Sha256.standard _ exampleBridge
    memoryEpochRegistry (lit "local") [.set setTime (examplePair 1 100),
      .set setTime (examplePair 2 10)] (@overwritten Sha256.standard) rfl).1
    (exampleTime "2026-01-01T00:00:50Z") [exampleKey] (collisionFreeOn_overwriteData hdata)
  cases hresults : @Session.get Sha256.standard _ exampleBridge memoryEpochRegistry
      (@overwritten Sha256.standard) (exampleTime "2026-01-01T00:00:50Z") [exampleKey] with
  | ok results =>
    refine ⟨results, rfl, (hget results hresults exampleKey _).mpr ?_⟩
    rw [hhistory]
    exact ⟨rfl, List.mem_singleton_self _, first, hkey, hvalue, hlatest⟩
  | error e =>
    obtain ⟨key, hmem, hnone⟩ := hraises e hresults
    obtain ⟨c, hc, -⟩ := hnone first [@CacheEvent.wrote Sha256.standard second] [] hhistory
      (hkey.trans (List.mem_singleton.mp hmem).symm)
    cases hc

end OnceMesh
