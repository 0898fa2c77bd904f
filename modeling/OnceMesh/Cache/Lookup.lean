import OnceMesh.Cache

/-!
# The order of a lookup

A lookup tries one thing after the other: every candidate of every readable store, and every store
whose candidates cannot be read. `attempts` lists them, and `searchStores_eq_firstHit` says that a
lookup returns the first attempt that is accepted, with a rejection for every attempt before it.
-/

namespace OnceMesh

open Python

section

variable [Sha256]

/-- The lookup behind `reuse` and, without freshness, behind `candidate_for_revalidation`. -/
def lookup (ignoreFreshness : Bool) (action : Value) (stores : List Store) (policy : Policy) :
    Except PyError LookupOutcome := do
  let requested ← actionDigest action
  searchStores stores policy requested ignoreFreshness stores []

theorem reuse_eq_lookup : reuse = lookup false := rfl

theorem candidateForRevalidation_eq_lookup : candidateForRevalidation = lookup true := rfl

/-- A lookup needs the digest of the action, and then searches. -/
theorem lookup_of_actionDigest {ignoreFreshness : Bool} {action : Value} {stores : List Store}
    {policy : Policy} {requested : Str} (h : actionDigest action = .ok requested) :
    lookup ignoreFreshness action stores policy =
      searchStores stores policy requested ignoreFreshness stores [] := by
  rw [lookup, h]
  rfl

/-! ### Attempts -/

omit [Sha256] in
/-- One thing a lookup tries. -/
inductive Attempt where
  /-- A store whose candidates cannot be read. -/
  | tier (store : Store) (message : StoreReadError)
  | candidate (store : Store) (value : Value)

namespace Attempt

omit [Sha256] in
/-- The store the attempt is about. -/
def store : Attempt → Store
  | tier store _ => store
  | candidate store _ => store

/-- What comes of an attempt. -/
def run (stores : List Store) (policy : Policy) (requested : Str) (ignoreFreshness : Bool) :
    Attempt → Except Stop Hit
  | tier _ message => .error (.rejected message)
  | candidate store value => do
    let e ← evaluate stores policy (policy.maxDependencyDepth + 1) [] requested value store 0
      ignoreFreshness
    pure ⟨store.name, e.manifest, e.artifacts, e.validation⟩

/-- The attempt is rejected, and leaves a text among the rejections. -/
def Rejected (stores : List Store) (policy : Policy) (requested : Str) (ignoreFreshness : Bool)
    (attempt : Attempt) (text : Str) : Prop :=
  ∃ reason, attempt.run stores policy requested ignoreFreshness = .error (.rejected reason) ∧
    text = attempt.store.name ++ lit ":" ++ reason

end Attempt

omit [Sha256] in
/-- The attempts of a lookup, in its order. -/
def attempts (requested : Str) (stores : List Store) : List Attempt :=
  stores.flatMap fun store =>
    match store.candidates requested with
    | .error message => [.tier store message]
    | .ok values => values.map (.candidate store)

/-- The first attempt that is accepted, after some rejections. -/
def firstHit (stores : List Store) (policy : Policy) (requested : Str) (ignoreFreshness : Bool) :
    List Attempt → List Str → Except PyError LookupOutcome
  | [], rejections => .ok ⟨none, rejections⟩
  | attempt :: rest, rejections =>
    match attempt.run stores policy requested ignoreFreshness with
    | .ok hit => .ok ⟨some hit, rejections⟩
    | .error (.rejected reason) =>
      firstHit stores policy requested ignoreFreshness rest
        (rejections ++ [attempt.store.name ++ lit ":" ++ reason])
    | .error (.raised e) => .error e

variable {stores : List Store} {policy : Policy} {requested : Str} {ignoreFreshness : Bool}

/-- The candidates of one store, and then other attempts. -/
theorem firstHit_map_append {store : Store} {values : List Value} {rest : List Attempt}
    {rejections : List Str} :
    firstHit stores policy requested ignoreFreshness
        (values.map (Attempt.candidate store) ++ rest) rejections =
      (do
        let (found, rejections) ←
          searchStore stores policy requested ignoreFreshness store values rejections
        match found with
        | some hit => pure ⟨some hit, rejections⟩
        | none => firstHit stores policy requested ignoreFreshness rest rejections) := by
  induction values generalizing rejections with
  | nil => rfl
  | cons value values ih =>
    rw [List.map_cons, List.cons_append, firstHit, searchStore, Attempt.run]
    cases evaluate stores policy (policy.maxDependencyDepth + 1) [] requested value store 0
        ignoreFreshness with
    | ok e => rfl
    | error stop =>
      cases stop with
      | raised e => rfl
      | rejected reason => exact ih

/-- A search is the search for the first hit among the attempts. -/
theorem searchStores_eq_firstHit {searched : List Store} {rejections : List Str} :
    searchStores stores policy requested ignoreFreshness searched rejections =
      firstHit stores policy requested ignoreFreshness (attempts requested searched)
        rejections := by
  induction searched generalizing rejections with
  | nil => rfl
  | cons store rest ih =>
    rw [searchStores, attempts, List.flatMap_cons]
    cases h : store.candidates requested with
    | error message => exact ih
    | ok values =>
      dsimp only
      rw [firstHit_map_append]
      refine bind_congr fun found => ?_
      obtain ⟨hit, rejections⟩ := found
      cases hit with
      | some hit => rfl
      | none => exact ih

/-! ### The first hit -/

/-- Rejected attempts are passed over, and each leaves its text. -/
theorem firstHit_append_of_rejected {before : List Attempt} {texts : List Str}
    (h : List.Forall₂ (Attempt.Rejected stores policy requested ignoreFreshness) before texts)
    {rest : List Attempt} {rejections : List Str} :
    firstHit stores policy requested ignoreFreshness (before ++ rest) rejections =
      firstHit stores policy requested ignoreFreshness rest (rejections ++ texts) := by
  induction h generalizing rejections with
  | nil => rw [List.nil_append, List.append_nil]
  | cons hrejected _ ih =>
    obtain ⟨reason, hrun, rfl⟩ := hrejected
    rw [List.cons_append, firstHit, hrun]
    dsimp only
    rw [ih, List.append_assoc, List.singleton_append]

/-- Attempts are rejected up to the first that is not. -/
theorem exists_rejected_before (l : List Attempt) :
    (∃ texts, List.Forall₂ (Attempt.Rejected stores policy requested ignoreFreshness) l texts) ∨
    ∃ before attempt after texts, l = before ++ attempt :: after ∧
      List.Forall₂ (Attempt.Rejected stores policy requested ignoreFreshness) before texts ∧
      ∀ text, ¬attempt.Rejected stores policy requested ignoreFreshness text := by
  induction l with
  | nil => exact .inl ⟨[], .nil⟩
  | cons a l ih =>
    by_cases ha : ∃ text, a.Rejected stores policy requested ignoreFreshness text
    · obtain ⟨text, ha⟩ := ha
      obtain ⟨texts, hl⟩ | ⟨before, attempt, after, texts, rfl, hbefore, hattempt⟩ := ih
      · exact .inl ⟨text :: texts, .cons ha hl⟩
      · exact .inr ⟨a :: before, attempt, after, text :: texts, rfl, .cons ha hbefore, hattempt⟩
    · exact .inr ⟨[], a, l, [], rfl, .nil, not_exists.mp ha⟩

/-- A search misses with every attempt rejected, or answers with the first that is not. -/
theorem firstHit_cases (l : List Attempt) :
    (∃ texts, List.Forall₂ (Attempt.Rejected stores policy requested ignoreFreshness) l texts ∧
      firstHit stores policy requested ignoreFreshness l [] = .ok ⟨none, texts⟩) ∨
    ∃ before attempt after texts, l = before ++ attempt :: after ∧
      List.Forall₂ (Attempt.Rejected stores policy requested ignoreFreshness) before texts ∧
      ((∃ hit, attempt.run stores policy requested ignoreFreshness = .ok hit ∧
          firstHit stores policy requested ignoreFreshness l [] = .ok ⟨some hit, texts⟩) ∨
        ∃ e, attempt.run stores policy requested ignoreFreshness = .error (.raised e) ∧
          firstHit stores policy requested ignoreFreshness l [] = .error e) := by
  obtain ⟨texts, hl⟩ | ⟨before, attempt, after, texts, rfl, hbefore, hattempt⟩ :=
    @exists_rejected_before _ stores policy requested ignoreFreshness l
  · refine .inl ⟨texts, hl, ?_⟩
    rw [← List.append_nil l, firstHit_append_of_rejected hl]
    rfl
  · refine .inr ⟨before, attempt, after, texts, rfl, hbefore, ?_⟩
    rw [firstHit_append_of_rejected hbefore, firstHit, List.nil_append]
    cases hrun : attempt.run stores policy requested ignoreFreshness with
    | ok hit => exact .inl ⟨hit, rfl, rfl⟩
    | error stop =>
      cases stop with
      | raised e => exact .inr ⟨e, rfl, rfl⟩
      | rejected reason => exact absurd ⟨reason, hrun, rfl⟩ (hattempt _)

/-- A search finds a hit exactly when it is the first attempt that is not rejected. -/
theorem firstHit_eq_hit {l : List Attempt} {hit : Hit} {rejections : List Str} :
    firstHit stores policy requested ignoreFreshness l [] = .ok ⟨some hit, rejections⟩ ↔
      ∃ before attempt after, l = before ++ attempt :: after ∧
        attempt.run stores policy requested ignoreFreshness = .ok hit ∧
        List.Forall₂ (Attempt.Rejected stores policy requested ignoreFreshness) before
          rejections := by
  constructor
  · intro h
    obtain ⟨texts, -, hmiss⟩ | ⟨before, attempt, after, texts, hl, hbefore,
        ⟨found, hrun, hhit⟩ | ⟨e, -, herror⟩⟩ :=
      @firstHit_cases _ stores policy requested ignoreFreshness l
    · cases hmiss.symm.trans h
    · cases hhit.symm.trans h
      exact ⟨before, attempt, after, hl, hrun, hbefore⟩
    · cases herror.symm.trans h
  · rintro ⟨before, attempt, after, rfl, hrun, hbefore⟩
    rw [firstHit_append_of_rejected hbefore, firstHit, hrun]
    rfl

/-- A search misses exactly when every attempt is rejected. -/
theorem firstHit_eq_miss {l : List Attempt} {rejections : List Str} :
    firstHit stores policy requested ignoreFreshness l [] = .ok ⟨none, rejections⟩ ↔
      List.Forall₂ (Attempt.Rejected stores policy requested ignoreFreshness) l rejections := by
  constructor
  · intro h
    obtain ⟨texts, hl, hmiss⟩ | ⟨before, attempt, after, texts, -, -,
        ⟨found, -, hhit⟩ | ⟨e, -, herror⟩⟩ :=
      @firstHit_cases _ stores policy requested ignoreFreshness l
    · cases hmiss.symm.trans h
      exact hl
    · cases hhit.symm.trans h
    · cases herror.symm.trans h
  · intro hl
    rw [← List.append_nil l, firstHit_append_of_rejected hl]
    rfl

/-- A search raises what the first attempt that is not rejected raises. -/
theorem firstHit_eq_error {l : List Attempt} {e : PyError} :
    firstHit stores policy requested ignoreFreshness l [] = .error e ↔
      ∃ before attempt after texts, l = before ++ attempt :: after ∧
        attempt.run stores policy requested ignoreFreshness = .error (.raised e) ∧
        List.Forall₂ (Attempt.Rejected stores policy requested ignoreFreshness) before texts := by
  constructor
  · intro h
    obtain ⟨texts, -, hmiss⟩ | ⟨before, attempt, after, texts, hl, hbefore,
        ⟨found, -, hhit⟩ | ⟨e', hrun, herror⟩⟩ :=
      @firstHit_cases _ stores policy requested ignoreFreshness l
    · cases hmiss.symm.trans h
    · cases hhit.symm.trans h
    · cases herror.symm.trans h
      exact ⟨before, attempt, after, texts, hl, hrun, hbefore⟩
  · rintro ⟨before, attempt, after, texts, rfl, hrun, hbefore⟩
    rw [firstHit_append_of_rejected hbefore, firstHit, hrun]

end

end OnceMesh
