import Mathlib.Data.Finset.Basic
import OnceMesh.Python.Text
import OnceMesh.TransitionSystem

/-!
# Single flight

`SingleFlightRevalidator` keeps the set of keys in flight. A caller of `submit` adds its key to the
set in one critical section, hands its work to the executor outside the lock, and takes the key back
in a second one if the executor raises; the job takes the key back in a third one, after its work.
Everything between these sections interleaves, and a job may be over before its `submit` returns.

A submission is a call of `submit`, from the moment it finds its key: what the caller and the job
have come to (`Submission`). It is in flight from the reservation of its key until the executor has
refused its work and the key is released, or its job is over. The set of keys always is that of the
submissions in flight, one for each key (`Invariant`), from which the guarantees follow
(`singleFlight_sound`).

The executor either runs an accepted job once or rejects it by raising.
-/

namespace OnceMesh.SingleFlightRevalidator

open Python

/-! ### Submissions -/

/-- What a caller of `submit` has come to. -/
inductive Caller where
  /-- The key is in the set, and the executor has not answered. -/
  | reserved
  /-- The executor has accepted the job, and `submit` has not returned. -/
  | accepted
  /-- The executor has raised, and the key is still in the set. -/
  | rejected
  | returned (answer : Bool)
  | raised
  deriving DecidableEq, Repr

/-- What the job of a submission has come to. -/
inductive Job where
  /-- It has not been enqueued. -/
  | absent
  | queued
  | running
  /-- The work has returned or raised, and the key is still in the set. -/
  | finishing
  | ended
  deriving DecidableEq, Repr

/-- Whether the job is queued or running, its `finally` included. -/
def Job.live : Job → Bool
  | .queued | .running | .finishing => true
  | .absent | .ended => false

/-- A call of `submit`. -/
structure Submission where
  key : Str
  caller : Caller
  job : Job
  deriving DecidableEq, Repr

/-- What happens to a submission after it has reserved its key. -/
inductive Action where
  /-- `self._executor.submit(guarded)` enqueues the job. -/
  | accept
  /-- `self._executor.submit(guarded)` raises. -/
  | reject
  /-- The critical section of `except BaseException`, and `raise`. -/
  | release
  /-- `return True`. -/
  | respond
  /-- A worker takes the job from the queue. -/
  | start
  /-- `work()` returns, or raises. -/
  | finish (failed : Bool)
  /-- The critical section of `finally` in `guarded`. -/
  | discard
  deriving DecidableEq, Repr

/-- Whether the action is a critical section that discards the key. -/
def Action.discards : Action → Bool
  | .release | .discard => true
  | _ => false

/-- A submission after an action, if the action can happen. -/
def Submission.act (submission : Submission) (action : Action) : Option Submission :=
  match action, submission.caller, submission.job with
  | .accept, .reserved, _ => some { submission with caller := .accepted, job := .queued }
  | .reject, .reserved, _ => some { submission with caller := .rejected }
  | .release, .rejected, _ => some { submission with caller := .raised }
  | .respond, .accepted, _ => some { submission with caller := .returned true }
  | .start, _, .queued => some { submission with job := .running }
  | .finish _, _, .running => some { submission with job := .finishing }
  | .discard, _, .finishing => some { submission with job := .ended }
  | _, _, _ => none

/-- The submission is in flight: it has reserved its key, which has not been discarded. When the
executor refuses the job, this lasts until the refusal is rolled back: another caller of the key can
get `False` though no job of the key is queued or running. -/
def Submission.InFlight (submission : Submission) : Prop :=
  submission.caller = .reserved ∨ submission.caller = .rejected ∨ submission.job.live = true

/-- A caller returns `True` when its job has been enqueued, and otherwise returns `False` or
raises. -/
def Submission.Consistent (submission : Submission) : Prop :=
  submission.job ≠ .absent ↔
    submission.caller = .accepted ∨ submission.caller = .returned true

/-! ### The revalidator -/

/-- The keys in flight, and every submission so far. -/
structure State where
  inflight : Finset Str
  submissions : List Submission

/-- What happens to the revalidator. -/
inductive Event where
  /-- The first critical section of `submit`. -/
  | submit (key : Str)
  /-- An action of the submission with this number. -/
  | act (i : ℕ) (action : Action)
  /-- `wait_for_idle` returns, holding the lock. -/
  | waitForIdle (answer : Bool)

/-- `SingleFlightRevalidator`. -/
def singleFlightRevalidator : TransitionSystem State Event where
  init := ⟨∅, []⟩
  step s
    | .submit key =>
      if key ∈ s.inflight then
        some ⟨s.inflight, s.submissions ++ [⟨key, .returned false, .absent⟩]⟩
      else some ⟨insert key s.inflight, s.submissions ++ [⟨key, .reserved, .absent⟩]⟩
    | .act i action => do
      let submission ← s.submissions[i]?
      let after ← submission.act action
      some ⟨if action.discards then s.inflight.erase submission.key else s.inflight,
        s.submissions.set i after⟩
    -- `wait_for` returns what the predicate was when it was last evaluated
    | .waitForIdle answer => if answer = decide (s.inflight = ∅) then some s else none

/-- A submission of the key is in flight. -/
def State.KeyInFlight (s : State) (key : Str) : Prop :=
  ∃ (i : ℕ) (a : Submission), s.submissions[i]? = some a ∧ a.key = key ∧ a.InFlight

/-- The set holds the keys of the submissions in flight, and each key has one at most. -/
structure Invariant (s : State) : Prop where
  mem_inflight_iff : ∀ key, key ∈ s.inflight ↔ s.KeyInFlight key
  unique : ∀ (i j : ℕ) (a b : Submission), s.submissions[i]? = some a → s.submissions[j]? = some b →
    a.InFlight → b.InFlight → a.key = b.key → i = j
  consistent : ∀ (i : ℕ) (a : Submission), s.submissions[i]? = some a → a.Consistent

/-! ### One action -/

/-- An action keeps the key, and what the caller and the job are to each other. A submission is in
flight after it when it was before, unless the action discards the key; only a key in flight is
discarded. -/
theorem Submission.act_spec {a b : Submission} {action : Action} (ha : a.Consistent)
    (h : a.act action = some b) :
    b.key = a.key ∧ b.Consistent ∧ (b.InFlight ↔ a.InFlight ∧ action.discards = false) ∧
      (action.discards = true → a.InFlight) := by
  obtain ⟨key, caller, job⟩ := a
  unfold Submission.act at h
  unfold Submission.Consistent at ha ⊢
  unfold Submission.InFlight
  split at h <;> cases h <;> cases caller <;> simp_all [Action.discards, Job.live]

/-- What an event does: a submission finds its key, and is coalesced or reserves it; a submission
acts; or nothing changes. -/
theorem step_cases {s t : State} {e : Event} (h : singleFlightRevalidator.step s e = some t) :
    (∃ key, e = .submit key ∧ key ∈ s.inflight ∧
      t = ⟨s.inflight, s.submissions ++ [⟨key, .returned false, .absent⟩]⟩) ∨
    (∃ key, e = .submit key ∧ key ∉ s.inflight ∧
      t = ⟨insert key s.inflight, s.submissions ++ [⟨key, .reserved, .absent⟩]⟩) ∨
    (∃ i action a b, e = .act i action ∧ s.submissions[i]? = some a ∧ a.act action = some b ∧
      t = ⟨if action.discards then s.inflight.erase a.key else s.inflight,
        s.submissions.set i b⟩) ∨
    ∃ answer, e = .waitForIdle answer ∧ answer = decide (s.inflight = ∅) ∧ t = s := by
  cases e with
  | submit key =>
    by_cases hkey : key ∈ s.inflight
    · exact .inl ⟨key, rfl, hkey, by simpa [singleFlightRevalidator, hkey] using h.symm⟩
    · exact .inr (.inl ⟨key, rfl, hkey, by simpa [singleFlightRevalidator, hkey] using h.symm⟩)
  | act i action =>
    obtain ⟨a, ha, h⟩ := Option.bind_eq_some_iff.mp h
    obtain ⟨b, hb, h⟩ := Option.bind_eq_some_iff.mp h
    exact .inr (.inr (.inl ⟨i, action, a, b, rfl, ha, hb, (Option.some.inj h).symm⟩))
  | waitForIdle answer =>
    by_cases hidle : answer = decide (s.inflight = ∅)
    · have hsame : t = s := by simpa [singleFlightRevalidator, hidle] using h.symm
      exact .inr (.inr (.inr ⟨answer, rfl, hidle, hsame⟩))
    · simp [singleFlightRevalidator, hidle] at h

/-! ### The invariant -/

/-- An element of a list after one more has been added. -/
theorem getElem?_concat_eq_some {α : Type} {l : List α} {x a : α} {i : ℕ} :
    (l ++ [x])[i]? = some a ↔ l[i]? = some a ∨ i = l.length ∧ a = x := by
  rcases Nat.lt_trichotomy i l.length with h | h | h
  · rw [List.getElem?_append_left h]
    simp [h.ne]
  · subst h
    simp [eq_comm]
  · rw [List.getElem?_append_right h.le, List.getElem?_eq_none (by simp; omega),
      List.getElem?_eq_none h.le]
    simp [h.ne']

/-- An element of a list after one has been replaced. -/
theorem getElem?_set_eq_some {α : Type} {l : List α} {a b c : α} {i j : ℕ} (ha : l[i]? = some a) :
    (l.set i b)[j]? = some c ↔ j = i ∧ c = b ∨ j ≠ i ∧ l[j]? = some c := by
  obtain ⟨hi, -⟩ := List.getElem?_eq_some_iff.mp ha
  rw [List.getElem?_set]
  by_cases h : i = j
  · subst h
    simp [hi, eq_comm]
  · simp [h, Ne.symm h]

namespace Invariant

theorem init : Invariant singleFlightRevalidator.init where
  mem_inflight_iff key := by simp [singleFlightRevalidator, State.KeyInFlight]
  unique i j a b ha := by simp [singleFlightRevalidator] at ha
  consistent i a ha := by simp [singleFlightRevalidator] at ha

variable {s : State}

/-- A submission that is not in flight can be added. -/
theorem append (h : Invariant s) (new : Submission) (hnew : ¬new.InFlight)
    (hconsistent : new.Consistent) : Invariant ⟨s.inflight, s.submissions ++ [new]⟩ := by
  -- what is in flight was there before
  have hold : ∀ (i : ℕ) (a : Submission), (s.submissions ++ [new])[i]? = some a → a.InFlight →
      s.submissions[i]? = some a := by
    intro i a ha hflight
    rcases getElem?_concat_eq_some.mp ha with ha | ⟨-, rfl⟩
    · exact ha
    · exact absurd hflight hnew
  refine ⟨?_, ?_, ?_⟩
  · intro key
    rw [h.mem_inflight_iff]
    constructor
    · rintro ⟨i, a, ha, hkey, hflight⟩
      exact ⟨i, a, getElem?_concat_eq_some.mpr (.inl ha), hkey, hflight⟩
    · rintro ⟨i, a, ha, hkey, hflight⟩
      exact ⟨i, a, hold i a ha hflight, hkey, hflight⟩
  · intro i j a b ha hb hfa hfb
    exact h.unique i j a b (hold i a ha hfa) (hold j b hb hfb) hfa hfb
  · intro i a ha
    rcases getElem?_concat_eq_some.mp ha with ha | ⟨-, rfl⟩
    · exact h.consistent i a ha
    · exact hconsistent

/-- A submission in flight can be added when its key has none. -/
theorem append_inFlight (h : Invariant s) (new : Submission) (hnew : new.InFlight)
    (hconsistent : new.Consistent) (hfree : new.key ∉ s.inflight) :
    Invariant ⟨insert new.key s.inflight, s.submissions ++ [new]⟩ := by
  have hother : ∀ (i : ℕ) (a : Submission), s.submissions[i]? = some a → a.InFlight →
      a.key ≠ new.key := by
    intro i a ha hflight hkey
    exact hfree ((h.mem_inflight_iff _).mpr ⟨i, a, ha, hkey, hflight⟩)
  refine ⟨?_, ?_, ?_⟩
  · intro key
    rw [Finset.mem_insert, h.mem_inflight_iff]
    constructor
    · rintro (rfl | ⟨i, a, ha, hkey, hflight⟩)
      · exact ⟨_, new, getElem?_concat_eq_some.mpr (.inr ⟨rfl, rfl⟩), rfl, hnew⟩
      · exact ⟨i, a, getElem?_concat_eq_some.mpr (.inl ha), hkey, hflight⟩
    · rintro ⟨i, a, ha, hkey, hflight⟩
      rcases getElem?_concat_eq_some.mp ha with ha | ⟨-, rfl⟩
      · exact .inr ⟨i, a, ha, hkey, hflight⟩
      · exact .inl hkey.symm
  · intro i j a b ha hb hfa hfb hkey
    rcases getElem?_concat_eq_some.mp ha with ha' | ⟨hi, rfl⟩ <;>
      rcases getElem?_concat_eq_some.mp hb with hb' | ⟨hj, rfl⟩
    · exact h.unique i j a b ha' hb' hfa hfb hkey
    · exact absurd hkey (hother i a ha' hfa)
    · exact absurd hkey.symm (hother j b hb' hfb)
    · rw [hi, hj]
  · intro i a ha
    rcases getElem?_concat_eq_some.mp ha with ha | ⟨-, rfl⟩
    · exact h.consistent i a ha
    · exact hconsistent

/-- A submission can act. -/
theorem set (h : Invariant s) {i : ℕ} {a b : Submission} {action : Action}
    (ha : s.submissions[i]? = some a) (hact : a.act action = some b) :
    Invariant ⟨if action.discards then s.inflight.erase a.key else s.inflight,
      s.submissions.set i b⟩ := by
  obtain ⟨hkey, hconsistent, hflight, hdiscards⟩ := Submission.act_spec (h.consistent i a ha) hact
  -- what is in flight is an older submission, or this one, which was in flight
  have hold : ∀ (j : ℕ) (c : Submission), (s.submissions.set i b)[j]? = some c → c.InFlight →
      ∃ d : Submission, s.submissions[j]? = some d ∧ d.key = c.key ∧ d.InFlight := by
    intro j c hc hfc
    rcases (getElem?_set_eq_some ha).mp hc with ⟨rfl, rfl⟩ | ⟨-, hc⟩
    · exact ⟨a, ha, hkey.symm, (hflight.mp hfc).1⟩
    · exact ⟨c, hc, rfl, hfc⟩
  refine ⟨?_, ?_, ?_⟩
  · intro key
    by_cases hdiscard : action.discards = true
    · -- the only submission of the key in flight was this one
      have hover : ¬b.InFlight := by simp [hflight, hdiscard]
      rw [if_pos hdiscard, Finset.mem_erase, h.mem_inflight_iff]
      constructor
      · rintro ⟨hne, j, c, hc, rfl, hfc⟩
        have hji : j ≠ i := by
          rintro rfl
          exact hne (congrArg Submission.key (Option.some.inj (hc.symm.trans ha)))
        exact ⟨j, c, (getElem?_set_eq_some ha).mpr (.inr ⟨hji, hc⟩), rfl, hfc⟩
      · rintro ⟨j, c, hc, rfl, hfc⟩
        rcases (getElem?_set_eq_some ha).mp hc with ⟨-, rfl⟩ | ⟨hji, hc⟩
        · exact absurd hfc hover
        · refine ⟨?_, j, c, hc, rfl, hfc⟩
          intro hsame
          exact hji (h.unique j i c a hc ha hfc (hdiscards hdiscard) hsame)
    · have hgoes : b.InFlight ↔ a.InFlight := by simp [hflight, hdiscard]
      rw [if_neg hdiscard, h.mem_inflight_iff]
      constructor
      · rintro ⟨j, c, hc, rfl, hfc⟩
        by_cases hji : j = i
        · subst hji
          obtain rfl := Option.some.inj (hc.symm.trans ha)
          exact ⟨j, b, (getElem?_set_eq_some ha).mpr (.inl ⟨rfl, rfl⟩), hkey, hgoes.mpr hfc⟩
        · exact ⟨j, c, (getElem?_set_eq_some ha).mpr (.inr ⟨hji, hc⟩), rfl, hfc⟩
      · rintro ⟨j, c, hc, rfl, hfc⟩
        obtain ⟨d, hd, hdkey, hfd⟩ := hold j c hc hfc
        exact ⟨j, d, hd, hdkey, hfd⟩
  · intro j k c d hc hd hfc hfd hsame
    obtain ⟨c', hc', hckey, hfc'⟩ := hold j c hc hfc
    obtain ⟨d', hd', hdkey, hfd'⟩ := hold k d hd hfd
    exact h.unique j k c' d' hc' hd' hfc' hfd' (hckey.trans (hsame.trans hdkey.symm))
  · intro j c hc
    rcases (getElem?_set_eq_some ha).mp hc with ⟨-, rfl⟩ | ⟨-, hc⟩
    · exact hconsistent
    · exact h.consistent j c hc

theorem step {t : State} {e : Event} (h : Invariant s)
    (hstep : singleFlightRevalidator.step s e = some t) : Invariant t := by
  obtain ⟨key, rfl, hkey, rfl⟩ | ⟨key, rfl, hkey, rfl⟩ | ⟨i, action, a, b, rfl, ha, hact, rfl⟩ |
    ⟨answer, rfl, -, rfl⟩ := step_cases hstep
  · apply h.append
    · simp [Submission.InFlight, Job.live]
    · simp [Submission.Consistent]
  · apply h.append_inFlight ⟨key, .reserved, .absent⟩ (.inl rfl) _ hkey
    simp [Submission.Consistent]
  · exact h.set ha hact
  · exact h

/-- Every run keeps the set and the submissions in step. -/
theorem of_run {events : List Event} (hrun : singleFlightRevalidator.run events = some s) :
    Invariant s :=
  TransitionSystem.run_induction init (fun _ _ _ h => h.step) hrun

end Invariant

/-! ### The guarantees -/

/-- A submission whose caller has been told of the rejection does not act any more. -/
theorem act_of_raised {a : Submission} (hraised : a.caller = .raised) (hjob : a.job = .absent)
    (action : Action) : a.act action = none := by
  obtain ⟨key, caller, job⟩ := a
  cases hraised
  cases hjob
  cases action <;> rfl

/-- It stays as it is, whatever happens later. -/
theorem runFrom_raised {s t : State} {events : List Event} {i : ℕ} {a : Submission}
    (ha : s.submissions[i]? = some a) (hraised : a.caller = .raised) (hjob : a.job = .absent)
    (hrun : singleFlightRevalidator.runFrom s events = some t) : t.submissions[i]? = some a := by
  refine TransitionSystem.runFrom_induction (P := fun u => u.submissions[i]? = some a) ?_ ha hrun
  intro u e v hu hstep
  obtain ⟨key, -, -, rfl⟩ | ⟨key, -, -, rfl⟩ | ⟨j, action, b, c, -, hb, hact, rfl⟩ |
    ⟨answer, -, -, rfl⟩ := step_cases hstep
  · exact getElem?_concat_eq_some.mpr (.inl hu)
  · exact getElem?_concat_eq_some.mpr (.inl hu)
  · apply (getElem?_set_eq_some hb).mpr
    refine .inr ⟨?_, hu⟩
    rintro rfl
    obtain rfl := Option.some.inj (hb.symm.trans hu)
    rw [act_of_raised hraised hjob] at hact
    cases hact
  · exact hu

/-- A key that is free can be submitted: the submission reserves it, and if the executor accepts the
job, `submit` returns `True`. -/
theorem submit_free {s : State} {key : Str} (h : key ∉ s.inflight) :
    ∃ t, singleFlightRevalidator.runFrom s [.submit key, .act s.submissions.length .accept,
        .act s.submissions.length .respond] = some t ∧
      t.submissions = s.submissions ++ [⟨key, .returned true, .queued⟩] := by
  refine ⟨⟨insert key s.inflight, _⟩, ?_, rfl⟩
  simp [TransitionSystem.runFrom, singleFlightRevalidator, h, Submission.act, Action.discards]

/-- Discarding a key frees it. -/
theorem notMem_inflight_of_discards {s t : State} {i : ℕ} {a : Submission} {action : Action}
    (ha : s.submissions[i]? = some a) (hdiscards : action.discards = true)
    (hstep : singleFlightRevalidator.step s (.act i action) = some t) : a.key ∉ t.inflight := by
  obtain ⟨key, hevent, -⟩ | ⟨key, hevent, -⟩ | ⟨j, action', b, c, hevent, hb, -, rfl⟩ |
    ⟨answer, hevent, -⟩ := step_cases hstep
  · cases hevent
  · cases hevent
  · cases hevent
    obtain rfl := Option.some.inj (hb.symm.trans ha)
    simp [hdiscards]
  · cases hevent

/-- Single flight, in every state that a run reaches.

* Jobs of one key that are queued or running are one job. * `submit` has returned `True` exactly
when its job has been enqueued, and a submission whose job has been enqueued has returned `True` or
is about to. * A call of `submit` is coalesced exactly when a submission of its key is in flight. *
When `submit` has raised, its job is never enqueued, however the run goes on. * A job whose work is
over and a submission that is rejected can discard their key, and when they have, the next `submit`
of the key is not coalesced, and returns `True` if the executor accepts it. * `wait_for_idle`
returns `True` only when no key is in flight. -/
theorem singleFlight_sound {events : List Event} {s : State}
    (hrun : singleFlightRevalidator.run events = some s) :
    (∀ (i j : ℕ) (a b : Submission), s.submissions[i]? = some a → s.submissions[j]? = some b →
      a.job.live = true → b.job.live = true → a.key = b.key → i = j) ∧
    (∀ (i : ℕ) (a : Submission), s.submissions[i]? = some a →
      (∀ answer, a.caller = .returned answer → (answer = true ↔ a.job ≠ .absent)) ∧
        (a.job ≠ .absent → a.caller = .accepted ∨ a.caller = .returned true)) ∧
    (∀ key t, singleFlightRevalidator.step s (.submit key) = some t →
      (t.submissions = s.submissions ++ [⟨key, .returned false, .absent⟩] ↔ s.KeyInFlight key)) ∧
    (∀ (i : ℕ) (a : Submission), s.submissions[i]? = some a → a.caller = .raised →
      a.job = .absent ∧ ∀ later t, singleFlightRevalidator.runFrom s later = some t →
        t.submissions[i]? = some a) ∧
    (∀ (i : ℕ) (a : Submission), s.submissions[i]? = some a →
      (a.job = .finishing → ∃ t, singleFlightRevalidator.step s (.act i .discard) = some t) ∧
      (a.caller = .rejected → ∃ t, singleFlightRevalidator.step s (.act i .release) = some t) ∧
      ∀ action t, action.discards = true →
        singleFlightRevalidator.step s (.act i action) = some t →
        ∃ u, singleFlightRevalidator.runFrom t [.submit a.key, .act t.submissions.length .accept,
            .act t.submissions.length .respond] = some u ∧
          u.submissions = t.submissions ++ [⟨a.key, .returned true, .queued⟩]) ∧
    (∀ t, singleFlightRevalidator.step s (.waitForIdle true) = some t →
      ∀ key, ¬s.KeyInFlight key) := by
  have hinv := Invariant.of_run hrun
  refine ⟨?_, ?_, ?_, ?_, ?_, ?_⟩
  · intro i j a b ha hb hlive hlive' hkey
    exact hinv.unique i j a b ha hb (.inr (.inr hlive)) (.inr (.inr hlive')) hkey
  · intro i a ha
    have hconsistent : a.job ≠ .absent ↔ a.caller = .accepted ∨ a.caller = .returned true :=
      hinv.consistent i a ha
    refine ⟨?_, hconsistent.mp⟩
    intro answer hanswer
    rw [hconsistent, hanswer]
    simp
  · intro key t hstep
    rw [← hinv.mem_inflight_iff]
    obtain ⟨key', hevent, hkey, rfl⟩ | ⟨key', hevent, hkey, rfl⟩ | ⟨_, _, _, _, hevent, -⟩ |
      ⟨_, hevent, -⟩ := step_cases hstep <;> cases hevent
    · simp [hkey]
    · simp [hkey]
  · intro i a ha hraised
    have hjob : a.job = .absent := by
      have hconsistent := hinv.consistent i a ha
      simpa [Submission.Consistent, hraised] using hconsistent
    exact ⟨hjob, fun later t hlater => runFrom_raised ha hraised hjob hlater⟩
  · intro i a ha
    refine ⟨?_, ?_, ?_⟩
    · intro hfinishing
      obtain ⟨key, caller, job⟩ := a
      cases hfinishing
      exact ⟨_, Option.bind_eq_some_iff.mpr ⟨_, ha, rfl⟩⟩
    · intro hrejected
      obtain ⟨key, caller, job⟩ := a
      cases hrejected
      exact ⟨_, Option.bind_eq_some_iff.mpr ⟨_, ha, rfl⟩⟩
    · intro action t hdiscards hstep
      exact submit_free (notMem_inflight_of_discards ha hdiscards hstep)
  · intro t hidle key hflight
    obtain ⟨_, hevent, -⟩ | ⟨_, hevent, -⟩ | ⟨_, _, _, _, hevent, -⟩ |
      ⟨answer, hevent, hempty, -⟩ := step_cases hidle <;> cases hevent
    rw [eq_comm, decide_eq_true_iff] at hempty
    have hmem := (hinv.mem_inflight_iff key).mpr hflight
    rw [hempty] at hmem
    exact absurd hmem (Finset.notMem_empty key)

/-- While the job of `a` runs, a submission of `a` would be coalesced: its key is in flight. -/
theorem singleFlight_sound_running :
    (State.mk {lit "a"} [⟨lit "a", .returned true, .running⟩]).KeyInFlight (lit "a") := by
  have hrun : singleFlightRevalidator.run
      [.submit (lit "a"), .act 0 .accept, .act 0 .start, .act 0 .respond] =
        some ⟨{lit "a"}, [⟨lit "a", .returned true, .running⟩]⟩ := rfl
  exact ((singleFlight_sound hrun).2.2.1 (lit "a") _ rfl).mp rfl

end OnceMesh.SingleFlightRevalidator
