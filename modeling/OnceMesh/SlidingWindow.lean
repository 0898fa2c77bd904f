import Mathlib.Order.Lattice
import Mathlib.Data.List.Basic
import Mathlib.Data.List.Induction

/-!
# Sliding windows

A sliding-window limiter keeps a queue of the instants it admitted. `admission` drops those up to
the boundary of the window, and admits the instant offered if there is room. The queue forgets no
admitted instant that still counts (`filter_queue`), so a set of instants that lie within one window
of each other holds at most `capacity` of them (`length_filter_admitted_le`).

`boundary now` is where the window ending at `now` starts; its computation can fail.
-/

namespace SlidingWindow

variable {τ ε : Type} [LinearOrder τ]

/-- Drop the instants up to the boundary from the front of the queue. -/
def kept (boundary : τ) (events : List τ) : List τ := events.dropWhile (· ≤ boundary)

/-- Offer an instant: whether it is admitted, and the queue after. -/
def admission (capacity : ℕ) (boundary : Except ε τ) (now : τ) (events : List τ) :
    Except ε Bool × List τ :=
  match boundary with
  | .error e => (.error e, events)
  | .ok b =>
    if capacity ≤ (kept b events).length then (.ok false, kept b events)
    else (.ok true, kept b events ++ [now])

variable (capacity : ℕ) (boundary : τ → Except ε τ)

/-- The queue after some instants have been offered. -/
def queue (times : List τ) : List τ :=
  times.foldl (fun events now => (admission capacity (boundary now) now events).2) []

/-- The answer to an instant that is offered after others. -/
def answer (before : List τ) (now : τ) : Except ε Bool :=
  (admission capacity (boundary now) now (queue capacity boundary before)).1

/-- The instant that an answer admits. -/
def admittedBy (now : τ) : Except ε Bool → List τ
  | .ok true => [now]
  | _ => []

/-- The instants that are admitted when `times` are offered after `before`. -/
def admittedAfter (before : List τ) : List τ → List τ
  | [] => []
  | now :: times =>
    admittedBy now (answer capacity boundary before now) ++ admittedAfter (before ++ [now]) times

/-- The instants that are admitted. -/
def admitted (times : List τ) : List τ := admittedAfter capacity boundary [] times

variable {capacity boundary}

/-! ### The queue and the admitted instants -/

/-- The front of a sorted queue is all that the boundary drops. -/
theorem kept_eq_filter {events : List τ} (h : events.Pairwise (· ≤ ·)) (b : τ) :
    kept b events = events.filter (b < ·) := by
  induction events with
  | nil => rfl
  | cons x events ih =>
    obtain ⟨hx, hrest⟩ := List.pairwise_cons.mp h
    by_cases hxb : x ≤ b
    · rw [kept, List.dropWhile_cons_of_pos (by simpa using hxb),
        List.filter_cons_of_neg (by simpa using hxb)]
      exact ih hrest
    · rw [kept, List.dropWhile_cons_of_neg (by simpa using hxb), eq_comm, List.filter_eq_self]
      rintro y hy
      rcases List.mem_cons.mp hy with rfl | hy
      · simpa using hxb
      · simpa using lt_of_lt_of_le (not_le.mp hxb) (hx y hy)

theorem queue_concat (times : List τ) (now : τ) :
    queue capacity boundary (times ++ [now]) =
      (admission capacity (boundary now) now (queue capacity boundary times)).2 := by
  simp [queue]

theorem admittedAfter_append (before times rest : List τ) :
    admittedAfter capacity boundary before (times ++ rest) =
      admittedAfter capacity boundary before times ++
        admittedAfter capacity boundary (before ++ times) rest := by
  induction times generalizing before with
  | nil => simp [admittedAfter]
  | cons now times ih =>
    simp only [List.cons_append, admittedAfter, ih, List.append_assoc, List.nil_append]

theorem admitted_concat (times : List τ) (now : τ) :
    admitted capacity boundary (times ++ [now]) = admitted capacity boundary times ++
      admittedBy now (answer capacity boundary times now) := by
  simp [admitted, admittedAfter_append, admittedAfter]

/-- What one more instant does: it is refused for want of a boundary, refused for want of room, or
admitted. -/
theorem concat_cases (times : List τ) (now : τ) :
    (∃ e, boundary now = .error e ∧ answer capacity boundary times now = .error e ∧
      queue capacity boundary (times ++ [now]) = queue capacity boundary times) ∨
    ∃ b, boundary now = .ok b ∧
      ((capacity ≤ (kept b (queue capacity boundary times)).length ∧
          answer capacity boundary times now = .ok false ∧
          queue capacity boundary (times ++ [now]) = kept b (queue capacity boundary times)) ∨
        ((kept b (queue capacity boundary times)).length < capacity ∧
          answer capacity boundary times now = .ok true ∧
          queue capacity boundary (times ++ [now]) =
            kept b (queue capacity boundary times) ++ [now])) := by
  rw [queue_concat]
  unfold answer admission
  cases boundary now with
  | error e => exact .inl ⟨e, rfl, rfl, rfl⟩
  | ok b =>
    refine .inr ⟨b, rfl, ?_⟩
    dsimp only
    split_ifs with hfull
    · exact .inl ⟨hfull, rfl, rfl⟩
    · exact .inr ⟨Nat.not_le.mp hfull, rfl, rfl⟩

/-- The queue holds admitted instants, in their order. -/
theorem queue_sublist_admitted (times : List τ) :
    (queue capacity boundary times).Sublist (admitted capacity boundary times) := by
  induction times using List.reverseRecOn with
  | nil => exact List.nil_sublist _
  | append_singleton times now ih =>
    rw [admitted_concat]
    rcases @concat_cases _ _ _ capacity boundary times now with
      ⟨e, -, hanswer, hqueue⟩ | ⟨b, -, ⟨-, hanswer, hqueue⟩ | ⟨-, hanswer, hqueue⟩⟩
    · rw [hqueue, hanswer]
      exact ih.trans (List.sublist_append_left _ _)
    · rw [hqueue, hanswer]
      exact ((List.dropWhile_sublist _).trans ih).trans (List.sublist_append_left _ _)
    · rw [hqueue, hanswer]
      exact ((List.dropWhile_sublist _).trans ih).append (List.Sublist.refl _)

/-- The admitted instants are offered instants, in their order. -/
theorem admitted_sublist (times : List τ) : (admitted capacity boundary times).Sublist times := by
  induction times using List.reverseRecOn with
  | nil => exact List.nil_sublist _
  | append_singleton times now ih =>
    rw [admitted_concat]
    apply ih.append
    match answer capacity boundary times now with
    | .ok true => exact List.Sublist.refl _
    | .ok false | .error _ => exact List.nil_sublist _

/-! ### Instants that do not decrease -/

variable (hmono : ∀ t t' b b', t ≤ t' → boundary t = .ok b → boundary t' = .ok b' → b ≤ b')

include hmono

/-- The queue holds every admitted instant that still counts. -/
theorem filter_queue {times : List τ} (htimes : times.Pairwise (· ≤ ·)) {now b : τ}
    (hnow : ∀ t ∈ times, t ≤ now) (hb : boundary now = .ok b) :
    (queue capacity boundary times).filter (b < ·) =
      (admitted capacity boundary times).filter (b < ·) := by
  induction times using List.reverseRecOn with
  | nil => rfl
  | append_singleton times latest ih =>
    obtain ⟨hpair, -, -⟩ := List.pairwise_append.mp htimes
    have ih := ih hpair fun t ht => hnow t (List.mem_append_left _ ht)
    have hsorted : (queue capacity boundary times).Pairwise (· ≤ ·) :=
      hpair.sublist ((queue_sublist_admitted times).trans (admitted_sublist times))
    -- what an earlier boundary drops does not count now
    have hdrop : ∀ b', boundary latest = .ok b' →
        (kept b' (queue capacity boundary times)).filter (b < ·) =
          (queue capacity boundary times).filter (b < ·) := by
      intro b' hb'
      have hle : b' ≤ b := hmono latest now b' b (hnow latest (by simp)) hb' hb
      rw [kept_eq_filter hsorted, List.filter_filter]
      apply List.filter_congr
      intro t _
      simpa using fun hlt : b < t => lt_of_le_of_lt hle hlt
    rw [admitted_concat, List.filter_append]
    rcases @concat_cases _ _ _ capacity boundary times latest with
      ⟨e, -, hanswer, hqueue⟩ | ⟨b', hb', ⟨-, hanswer, hqueue⟩ | ⟨-, hanswer, hqueue⟩⟩
    · rw [hqueue, hanswer, ih]
      simp [admittedBy]
    · rw [hqueue, hanswer, hdrop b' hb', ih]
      simp [admittedBy]
    · rw [hqueue, hanswer, List.filter_append, hdrop b' hb', ih]
      rfl

/-- An instant is answered by how many of the admitted instants still count. -/
theorem answer_eq {before : List τ} (hbefore : before.Pairwise (· ≤ ·)) {now b : τ}
    (hnow : ∀ t ∈ before, t ≤ now) (hb : boundary now = .ok b) :
    answer capacity boundary before now =
      .ok (decide (((admitted capacity boundary before).filter (b < ·)).length < capacity)) := by
  have hsorted : (queue capacity boundary before).Pairwise (· ≤ ·) :=
    hbefore.sublist ((queue_sublist_admitted before).trans (admitted_sublist before))
  rw [← filter_queue hmono hbefore hnow hb, ← kept_eq_filter hsorted, answer, hb, admission]
  split_ifs with hfull
  · rw [decide_eq_false (Nat.not_lt.mpr hfull)]
  · rw [decide_eq_true (Nat.not_le.mp hfull)]

/-- Instants that lie in the window of each of them are admitted at most `capacity` times. -/
theorem length_filter_admitted_le {times : List τ} (htimes : times.Pairwise (· ≤ ·))
    (window : τ → Bool) (hwindow : ∀ t t' b, window t = true → window t' = true →
      boundary t' = .ok b → b < t) :
    ((admitted capacity boundary times).filter window).length ≤ capacity := by
  induction times using List.reverseRecOn with
  | nil => exact Nat.zero_le _
  | append_singleton times now ih =>
    obtain ⟨hpair, -, hnow⟩ := List.pairwise_append.mp htimes
    have hnow : ∀ t ∈ times, t ≤ now := fun t ht => hnow t ht now (by simp)
    have ih := ih hpair
    rw [admitted_concat, List.filter_append, List.length_append]
    cases hb : boundary now with
    | error e =>
      have hanswer : answer capacity boundary times now = .error e := by rw [answer, hb, admission]
      rw [hanswer]
      exact ih
    | ok b =>
      rw [answer_eq hmono hpair hnow hb]
      by_cases hroom : ((admitted capacity boundary times).filter (b < ·)).length < capacity
      · rw [decide_eq_true hroom]
        by_cases hin : window now = true
        · -- the window of `now` holds the admitted instants that are in `window`
          have hsub : ((admitted capacity boundary times).filter window).length ≤
              ((admitted capacity boundary times).filter (b < ·)).length := by
            apply List.Sublist.length_le
            apply List.monotone_filter_right
            intro t ht
            exact decide_eq_true (hwindow t now b ht hin hb)
          have hone : ((admittedBy now (.ok true : Except ε Bool)).filter window).length = 1 := by
            simp [admittedBy, hin]
          omega
        · simpa [admittedBy, hin] using ih
      · rw [decide_eq_false hroom]
        exact ih

end SlidingWindow
