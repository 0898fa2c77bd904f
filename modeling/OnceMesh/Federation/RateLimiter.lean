import OnceMesh.Python.Datetime
import OnceMesh.Python.Dict
import OnceMesh.SlidingWindow

/-!
# The rate limiter of federation requests

The server keeps a queue of the instants at which it allowed the requests of each peer. A call drops
those that have left the window, and is allowed if there are fewer than `max_requests` left.

The queue of a peer is that of a sliding window over the calls of that peer (`events_run`), which is
what makes the limit exact and keeps the peers apart (`rateLimit_exact`).
-/

namespace OnceMesh.Federation

open Python

/-- `FederationRequestRateLimiter`. -/
structure FederationRequestRateLimiter where
  maxRequests : ℕ
  windowSeconds : ℕ
  maxRequests_range : 1 ≤ maxRequests ∧ maxRequests ≤ 1000000
  windowSeconds_range : 1 ≤ windowSeconds ∧ windowSeconds ≤ 3600

namespace FederationRequestRateLimiter

/-- `_requests`: a `defaultdict(deque)`. -/
abbrev Requests := Dict Str (List DateTime)

/-- `self._requests[peer_id]`. -/
def events (requests : Requests) (peerId : Str) : List DateTime := (requests.get? peerId).getD []

/-- `while events and events[0] <= boundary: events.popleft()`. -/
def popExpired (boundary : DateTime) : List DateTime → List DateTime
  | [] => []
  | event :: events => if event ≤ boundary then popExpired boundary events else event :: events

variable (limiter : FederationRequestRateLimiter)

/-- `observed_at - timedelta(seconds=self.window_seconds)`: where the window starts. -/
def boundary (observedAt : DateTime) : Except PyError DateTime :=
  observedAt.addSeconds (-limiter.windowSeconds)

/-- `allow`, with the clock at `observed_at`: the answer, and the queues after. -/
def allow (requests : Requests) (peerId : Str) (observedAt : DateTime) :
    Except PyError Bool × Requests :=
  match limiter.boundary observedAt with
  -- the subtraction can leave the range of `datetime`, before the queues are read
  | .error e => (.error e, requests)
  | .ok boundary =>
    let kept := popExpired boundary (events requests peerId)
    if limiter.maxRequests ≤ kept.length then (.ok false, requests.set peerId kept)
    else (.ok true, requests.set peerId (kept ++ [observedAt]))

/-- A call of `allow`, and what the clock says then. -/
structure Call where
  peerId : Str
  observedAt : DateTime
  deriving DecidableEq

/-- The queues after some calls. -/
def run (calls : List Call) : Requests :=
  calls.foldl (fun requests call => (limiter.allow requests call.peerId call.observedAt).2) .empty

/-- The answer to a call that follows others. -/
def decision (before : List Call) (call : Call) : Except PyError Bool :=
  (limiter.allow (limiter.run before) call.peerId call.observedAt).1

/-- The calls that are allowed when `calls` follow `before`. -/
def allowedAfter (before : List Call) : List Call → List Call
  | [] => []
  | call :: calls =>
    match limiter.decision before call with
    | .ok true => call :: allowedAfter (before ++ [call]) calls
    | _ => allowedAfter (before ++ [call]) calls

/-- The calls that are allowed. -/
def allowed (calls : List Call) : List Call := limiter.allowedAfter [] calls

/-- The calls of a peer that are allowed in the half-open window `(until - window, until]`, with
`until` in microseconds. -/
def allowedWithin (calls : List Call) (peerId : Str) (last : ℤ) : List Call :=
  (limiter.allowed calls).filter fun call =>
    call.peerId = peerId ∧ last - limiter.windowSeconds * 1000000 < call.observedAt.micros ∧
      call.observedAt.micros ≤ last

/-! ### One peer -/

/-- When the calls of a peer take place. -/
def times (peerId : Str) (calls : List Call) : List DateTime :=
  (calls.filter fun call => call.peerId = peerId).map Call.observedAt

theorem popExpired_eq_kept (boundary : DateTime) (events : List DateTime) :
    popExpired boundary events = SlidingWindow.kept boundary events := by
  induction events with
  | nil => rfl
  | cons event events ih =>
    rw [popExpired, SlidingWindow.kept, List.dropWhile_cons]
    by_cases h : event ≤ boundary
    · rw [if_pos h, if_pos (decide_eq_true h)]
      exact ih
    · rw [if_neg h, if_neg (by simpa using h)]

variable {limiter}

/-- A call is answered from the queue of its peer. -/
theorem allow_answer (requests : Requests) (peerId : Str) (observedAt : DateTime) :
    (limiter.allow requests peerId observedAt).1 =
      (SlidingWindow.admission limiter.maxRequests (limiter.boundary observedAt) observedAt
        (events requests peerId)).1 := by
  unfold allow SlidingWindow.admission
  cases limiter.boundary observedAt with
  | error e => rfl
  | ok b =>
    dsimp only
    rw [popExpired_eq_kept]
    split_ifs <;> rfl

/-- A call changes the queue of its peer, and no other. -/
theorem events_allow (requests : Requests) (peerId peerId' : Str) (observedAt : DateTime) :
    events (limiter.allow requests peerId observedAt).2 peerId' =
      if peerId' = peerId then
        (SlidingWindow.admission limiter.maxRequests (limiter.boundary observedAt) observedAt
          (events requests peerId)).2
      else events requests peerId' := by
  unfold allow SlidingWindow.admission
  cases limiter.boundary observedAt with
  | error e =>
    dsimp only
    split_ifs with h
    · rw [h]
    · rfl
  | ok b =>
    dsimp only
    rw [popExpired_eq_kept]
    generalize SlidingWindow.kept b (events requests peerId) = remaining
    unfold events
    split_ifs with hfull h h <;> rw [Dict.get?_set] <;> simp [h]

theorem run_concat (calls : List Call) (call : Call) :
    limiter.run (calls ++ [call]) =
      (limiter.allow (limiter.run calls) call.peerId call.observedAt).2 := by
  simp [run]

theorem times_concat (peerId : Str) (calls : List Call) (call : Call) :
    times peerId (calls ++ [call]) =
      if call.peerId = peerId then times peerId calls ++ [call.observedAt]
      else times peerId calls := by
  by_cases h : call.peerId = peerId <;> simp [times, h]

/-- The queue of a peer is that of a sliding window over its calls. -/
theorem events_run (calls : List Call) (peerId : Str) :
    events (limiter.run calls) peerId =
      SlidingWindow.queue limiter.maxRequests limiter.boundary (times peerId calls) := by
  induction calls using List.reverseRecOn with
  | nil => rfl
  | append_singleton calls call ih =>
    rw [run_concat, events_allow, times_concat]
    by_cases h : call.peerId = peerId
    · rw [if_pos h.symm, if_pos h, SlidingWindow.queue_concat, h, ih]
    · rw [if_neg (Ne.symm h), if_neg h, ih]

/-- A call is answered as the sliding window over the calls of its peer answers it. -/
theorem decision_eq (before : List Call) (call : Call) :
    limiter.decision before call = SlidingWindow.answer limiter.maxRequests limiter.boundary
      (times call.peerId before) call.observedAt := by
  rw [decision, allow_answer, events_run]
  rfl

/-- The calls of a peer that are allowed are those the sliding window over its calls admits. -/
theorem times_allowedAfter (peerId : Str) (before calls : List Call) :
    times peerId (limiter.allowedAfter before calls) =
      SlidingWindow.admittedAfter limiter.maxRequests limiter.boundary (times peerId before)
        (times peerId calls) := by
  induction calls generalizing before with
  | nil => rfl
  | cons call calls ih =>
    have ih := ih (before ++ [call])
    rw [times_concat] at ih
    have hdecision := limiter.decision_eq before call
    rw [allowedAfter]
    by_cases h : call.peerId = peerId
    · have htimes : times peerId (call :: calls) = call.observedAt :: times peerId calls := by
        simp [times, h]
      rw [if_pos h] at ih
      rw [h] at hdecision
      rw [htimes, SlidingWindow.admittedAfter, ← hdecision, ← ih]
      cases limiter.decision before call with
      | ok allowed => cases allowed <;> simp [times, h, SlidingWindow.admittedBy]
      | error e => simp [SlidingWindow.admittedBy]
    · have htimes : times peerId (call :: calls) = times peerId calls := by
        simp [times, h]
      rw [if_neg h] at ih
      rw [htimes, ← ih]
      cases limiter.decision before call with
      | ok allowed => cases allowed <;> simp [times, h]
      | error e => rfl

/-- A later window starts later. -/
theorem boundary_mono {t t' b b' : DateTime} (h : t ≤ t') (hb : limiter.boundary t = .ok b)
    (hb' : limiter.boundary t' = .ok b') : b ≤ b' := by
  rw [boundary, DateTime.addSeconds_eq_ok] at hb hb'
  rw [DateTime.le_def] at h ⊢
  omega

/-- The calls of one peer are in order when all are. -/
theorem pairwise_times {calls : List Call}
    (h : (calls.map Call.observedAt).Pairwise (· ≤ ·)) (peerId : Str) :
    (times peerId calls).Pairwise (· ≤ ·) :=
  h.sublist (List.filter_sublist.map _)

/-- The number of calls of a peer that are allowed in a window. -/
theorem length_allowedWithin (calls : List Call) (peerId : Str) (last : ℤ) :
    (limiter.allowedWithin calls peerId last).length =
      ((SlidingWindow.admitted limiter.maxRequests limiter.boundary (times peerId calls)).filter
        fun t : DateTime => decide (last - limiter.windowSeconds * 1000000 < t.micros ∧
          t.micros ≤ last)).length := by
  have hallowed := limiter.times_allowedAfter peerId [] calls
  rw [SlidingWindow.admitted, ← show times peerId [] = [] from rfl, ← hallowed, times,
    List.filter_map, List.length_map, List.filter_filter, allowedWithin, allowed]
  congr 1
  apply List.filter_congr
  intro call _
  rw [Bool.eq_iff_iff]
  simp [and_comm]

/-- The allowed calls that count against a call are those in the window that ends at it. -/
theorem decision_eq_decide {before : List Call} {call : Call} {b : DateTime}
    (hbefore : (before.map Call.observedAt).Pairwise (· ≤ ·))
    (hlatest : ∀ other ∈ before, other.observedAt ≤ call.observedAt)
    (hb : limiter.boundary call.observedAt = .ok b) :
    limiter.decision before call = .ok (decide
      ((limiter.allowedWithin before call.peerId call.observedAt.micros).length <
        limiter.maxRequests)) := by
  have htimes : ∀ t ∈ times call.peerId before, t ≤ call.observedAt := by
    intro t ht
    obtain ⟨other, hother, rfl⟩ := List.mem_map.mp ht
    exact hlatest other (List.mem_of_mem_filter hother)
  rw [decision_eq, SlidingWindow.answer_eq (fun _ _ _ _ => boundary_mono)
    (pairwise_times hbefore call.peerId) htimes hb, length_allowedWithin]
  congr 3
  apply congrArg List.length
  apply List.filter_congr
  intro t ht
  have hle : t ≤ call.observedAt := htimes t ((SlidingWindow.admitted_sublist _).subset ht)
  rw [boundary, DateTime.addSeconds_eq_ok] at hb
  rw [DateTime.le_def] at hle
  rw [decide_eq_decide, DateTime.lt_def]
  omega

/-- No window holds more than `max_requests` allowed calls of a peer. -/
theorem length_allowedWithin_le {calls : List Call}
    (hclock : (calls.map Call.observedAt).Pairwise (· ≤ ·)) (peerId : Str) (last : ℤ) :
    (limiter.allowedWithin calls peerId last).length ≤ limiter.maxRequests := by
  rw [length_allowedWithin]
  apply SlidingWindow.length_filter_admitted_le (fun _ _ _ _ => boundary_mono)
    (pairwise_times hclock peerId)
  intro t t' b ht ht' hb
  rw [boundary, DateTime.addSeconds_eq_ok] at hb
  rw [DateTime.lt_def]
  simp only [decide_eq_true_eq] at ht ht'
  omega

/-- The limit is exact. On a clock that does not decrease, every window holds at most `max_requests`
allowed calls of a peer; a call is refused only when its window already holds that many; and a call
is answered as if no other peer had called. -/
theorem rateLimit_exact (limiter : FederationRequestRateLimiter) (calls : List Call)
    (hclock : (calls.map Call.observedAt).Pairwise (· ≤ ·)) :
    (∀ peerId last, (limiter.allowedWithin calls peerId last).length ≤ limiter.maxRequests) ∧
    (∀ before call after, calls = before ++ call :: after →
      limiter.decision before call = .ok false →
      (limiter.allowedWithin before call.peerId call.observedAt.micros).length =
        limiter.maxRequests) ∧
    ∀ before call after, calls = before ++ call :: after →
      limiter.decision before call =
        limiter.decision (before.filter fun other => other.peerId = call.peerId) call := by
  refine ⟨length_allowedWithin_le hclock, ?_, ?_⟩
  · rintro before call after rfl hrefused
    rw [List.map_append, List.map_cons, List.pairwise_append] at hclock
    obtain ⟨hbefore, -, hlatest⟩ := hclock
    have hlatest : ∀ other ∈ before, other.observedAt ≤ call.observedAt := fun other hother =>
      hlatest _ (List.mem_map_of_mem hother) _ List.mem_cons_self
    apply le_antisymm (length_allowedWithin_le hbefore _ _)
    cases hb : limiter.boundary call.observedAt with
    | error e =>
      -- without a boundary the call raises
      rw [decision, allow, hb] at hrefused
      cases hrefused
    | ok b =>
      rw [decision_eq_decide hbefore hlatest hb] at hrefused
      simpa using hrefused
  · rintro before call after -
    rw [decision_eq, decision_eq]
    congr 1
    rw [times, times, List.filter_filter]
    simp

/-- One request a second. -/
def onePerSecond : FederationRequestRateLimiter := ⟨1, 1, by decide, by decide⟩

/-- A call of the peer `a`, so many microseconds after the first of January 2026. -/
def callAt (micros : ℕ) (h : micros < 1000000 := by decide) : Call :=
  ⟨lit "a", 63902822400000000 + micros, by rw [maxOrdinal, microsPerDay]; omega⟩

/-- A second call at the last microsecond of the window of the first is refused, on the ground of
the first alone. -/
theorem rateLimit_exact_second :
    (onePerSecond.allowedWithin [callAt 0] (lit "a") (callAt 999999).observedAt.micros).length =
      1 :=
  (rateLimit_exact onePerSecond [callAt 0, callAt 999999] (by decide +kernel)).2.1 [callAt 0]
    (callAt 999999) [] rfl (by decide +kernel)

end FederationRequestRateLimiter

end OnceMesh.Federation
