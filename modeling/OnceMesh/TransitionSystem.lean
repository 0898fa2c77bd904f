import Mathlib.Data.List.Basic

/-!
# Transition systems

A transition system is an initial state and a guarded step: an event is enabled in a state when
the step is defined there. `run` replays a list of events, and `run_induction` is the rule every
safety result uses: what holds at the start and is preserved by each enabled event holds after
every run. `runFrom_induction_of_meets` is the rule for runs whose events all meet a condition, and
`runFrom_induction₂` compares two runs of the same events.
-/

/-- An initial state and a guarded step function. -/
structure TransitionSystem (σ ε : Type*) where
  /-- The state every run starts in. -/
  init : σ
  /-- The state after an event, if the event is enabled. -/
  step : σ → ε → Option σ

namespace TransitionSystem

variable {σ ε : Type*} (sys : TransitionSystem σ ε)

/-- Replay events from a state; `none` when one of them is disabled. -/
def runFrom (s : σ) (events : List ε) : Option σ := events.foldlM sys.step s

/-- Replay events from the initial state. -/
def run (events : List ε) : Option σ := sys.runFrom sys.init events

variable {sys}

@[simp]
theorem runFrom_nil (s : σ) : sys.runFrom s [] = some s := rfl

/-- A run starts with an enabled event. -/
theorem runFrom_cons_eq_some {s t : σ} {e : ε} {events : List ε} :
    sys.runFrom s (e :: events) = some t ↔
      ∃ u, sys.step s e = some u ∧ sys.runFrom u events = some t := by
  rw [runFrom, List.foldlM_cons, Option.bind_eq_bind, Option.bind_eq_some_iff]
  rfl

/-- What each enabled event preserves, a run preserves. -/
theorem runFrom_induction {P : σ → Prop} (hstep : ∀ s e t, P s → sys.step s e = some t → P t)
    {s t : σ} {events : List ε} (hs : P s) (hrun : sys.runFrom s events = some t) : P t := by
  induction events generalizing s with
  | nil =>
    cases hrun
    exact hs
  | cons e events ih =>
    obtain ⟨u, hu, hrest⟩ := runFrom_cons_eq_some.mp hrun
    exact ih (hstep s e u hs hu) hrest

/-- `C` holds of every event of a run from `s` in the state that the event meets. -/
def Meets (sys : TransitionSystem σ ε) (C : σ → ε → Prop) (s : σ) (events : List ε) : Prop :=
  ∀ before e after u, events = before ++ e :: after → sys.runFrom s before = some u → C u e

theorem Meets.head {C : σ → ε → Prop} {s : σ} {e : ε} {events : List ε}
    (h : sys.Meets C s (e :: events)) : C s e :=
  h [] e events s rfl rfl

theorem Meets.tail {C : σ → ε → Prop} {s u : σ} {e : ε} {events : List ε}
    (h : sys.Meets C s (e :: events)) (hstep : sys.step s e = some u) : sys.Meets C u events := by
  rintro before e' after t rfl hrun
  exact h (e :: before) e' after t rfl (runFrom_cons_eq_some.mpr ⟨u, hstep, hrun⟩)

/-- What each enabled event of which `C` holds preserves, a run of such events preserves. -/
theorem runFrom_induction_of_meets {P : σ → Prop} {C : σ → ε → Prop}
    (hstep : ∀ s e t, P s → C s e → sys.step s e = some t → P t)
    {s t : σ} {events : List ε} (hmeets : sys.Meets C s events) (hs : P s)
    (hrun : sys.runFrom s events = some t) : P t := by
  induction events generalizing s with
  | nil =>
    cases hrun
    exact hs
  | cons e events ih =>
    obtain ⟨u, hu, hrest⟩ := runFrom_cons_eq_some.mp hrun
    exact ih (hmeets.tail hu) (hstep s e u hs hmeets.head hu) hrest

theorem Meets.cons {C : σ → ε → Prop} {s : σ} {e : ε} {events : List ε} (hhead : C s e)
    (htail : ∀ u, sys.step s e = some u → sys.Meets C u events) : sys.Meets C s (e :: events) := by
  rintro before e' after t hevents hrun
  cases before with
  | nil =>
    cases hevents
    cases hrun
    exact hhead
  | cons d before =>
    obtain ⟨u, hu, hrest⟩ := runFrom_cons_eq_some.mp hrun
    cases hevents
    exact htail u hu before e' after t rfl hrest

/-- What an invariant of the events implies of each of them, their run meets. -/
theorem meets_of_invariant {P : σ → Prop} {C : σ → ε → Prop} {s : σ} {events : List ε}
    (hstep : ∀ s, ∀ e ∈ events, ∀ t, P s → sys.step s e = some t → P t)
    (hmeets : ∀ s, ∀ e ∈ events, P s → C s e) (hs : P s) : sys.Meets C s events := by
  induction events generalizing s with
  | nil =>
    rintro before e after u hevents
    cases List.append_eq_nil_iff.mp hevents.symm |>.2
  | cons e events ih =>
    apply Meets.cons (hmeets s e List.mem_cons_self hs)
    intro u hu
    exact ih (fun s e' he' => hstep s e' (List.mem_cons_of_mem e he'))
      (fun s e' he' => hmeets s e' (List.mem_cons_of_mem e he'))
      (hstep s e List.mem_cons_self u hs hu)

/-- A run of some events and then others. -/
theorem runFrom_append_eq_some {s t : σ} {first second : List ε} :
    sys.runFrom s (first ++ second) = some t ↔
      ∃ u, sys.runFrom s first = some u ∧ sys.runFrom u second = some t := by
  rw [runFrom, List.foldlM_append, Option.bind_eq_bind, Option.bind_eq_some_iff]
  rfl

/-- What a run meets, its beginning meets. -/
theorem Meets.left {C : σ → ε → Prop} {s : σ} {first second : List ε}
    (h : sys.Meets C s (first ++ second)) : sys.Meets C s first := by
  rintro before e after u rfl hrun
  exact h before e (after ++ second) u (by simp) hrun

/-- What a run meets, its end meets. -/
theorem Meets.right {C : σ → ε → Prop} {s t : σ} {first second : List ε}
    (h : sys.Meets C s (first ++ second)) (hfirst : sys.runFrom s first = some t) :
    sys.Meets C t second := by
  rintro before e after u rfl hrun
  exact h (first ++ before) e after u (by simp) (runFrom_append_eq_some.mpr ⟨t, hfirst, hrun⟩)

/-- A run that meets it goes on with one that does. -/
theorem Meets.append {C : σ → ε → Prop} {s : σ} {first second : List ε}
    (hfirst : sys.Meets C s first)
    (hsecond : ∀ t, sys.runFrom s first = some t → sys.Meets C t second) :
    sys.Meets C s (first ++ second) := by
  induction first generalizing s with
  | nil => exact hsecond s rfl
  | cons e rest ih =>
    refine Meets.cons hfirst.head fun u hu => ih (hfirst.tail hu) fun t ht => ?_
    exact hsecond t (runFrom_cons_eq_some.mpr ⟨u, hu, ht⟩)

/-- A relation that each event preserves is preserved by two runs of the same events. -/
theorem runFrom_induction₂ {R : σ → σ → Prop}
    (hstep : ∀ s s' e t t', R s s' → sys.step s e = some t → sys.step s' e = some t' → R t t')
    {s s' t t' : σ} {events : List ε} (hs : R s s') (hrun : sys.runFrom s events = some t)
    (hrun' : sys.runFrom s' events = some t') : R t t' := by
  induction events generalizing s s' with
  | nil =>
    cases hrun
    cases hrun'
    exact hs
  | cons e events ih =>
    obtain ⟨u, hu, hrest⟩ := runFrom_cons_eq_some.mp hrun
    obtain ⟨u', hu', hrest'⟩ := runFrom_cons_eq_some.mp hrun'
    exact ih (hstep s s' e u u' hs hu hu') hrest hrest'

/-- What holds initially and is preserved by each enabled event holds after every run. -/
theorem run_induction {P : σ → Prop} (hinit : P sys.init)
    (hstep : ∀ s e t, P s → sys.step s e = some t → P t) {t : σ} {events : List ε}
    (hrun : sys.run events = some t) : P t :=
  runFrom_induction hstep hinit hrun

end TransitionSystem
