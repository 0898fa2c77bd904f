import OnceMesh.Integrations.FilesystemIndex
import OnceMesh.Integrations.SqliteIndex

/-!
# Generations

A call that ends an active value advances the generation of its key by one, and no other call
changes it (`IndexCall.generation_apply`). The generation therefore counts how often an active value
has ended, and two active values of a key with different revisions have different generations.

`RevisionsAdvance` states this for an index and all sequences of calls. It holds of every
implementation.
-/

namespace OnceMesh

open Python

/-! ### One call -/

namespace IndexCall

/-- The call ends the active value of the key, if it returns. -/
def ends (call : IndexCall) (k : NativeKey) : Bool :=
  match call with
  | generation _ | isActive _ | activeRevision _ | activate _ | activeKeys _ => false
  | preparePut k' | publishAndActivate k' _ _ | delete k' => k = k'
  | clearNamespace ns => k.1 = ns
  | clearAll => true

/-- The entry after a call that does not end an active value: it may have become active. -/
theorem apply_of_not_ends {c : IndexCall} {k : NativeKey} (h : c.ends k = false)
    (entry : NativeKey → IndexEntry) :
    c.apply entry k = entry k ∨ c.apply entry k = (entry k).activated := by
  cases c with
  | generation _ | isActive _ | activeRevision _ | activeKeys _ => exact .inl rfl
  | activate k' =>
    rw [apply]
    split_ifs
    · exact .inr rfl
    · exact .inl rfl
  | preparePut k' | publishAndActivate k' _ _ | delete k' | clearNamespace ns =>
    exact .inl (if_neg (of_decide_eq_false h))
  | clearAll => cases h

/-- The generation after a call. -/
theorem generation_apply (c : IndexCall) (entry : NativeKey → IndexEntry) (k : NativeKey) :
    (c.apply entry k).generation =
      (entry k).generation + if c.ends k && (entry k).active then 1 else 0 := by
  cases hends : c.ends k with
  | false =>
    rw [Bool.false_and, if_neg Bool.false_ne_true, Nat.add_zero]
    rcases apply_of_not_ends hends entry with h | h <;> rw [h]
    rfl
  | true =>
    rw [Bool.true_and]
    have hdeleted : (entry k).deleted.generation =
        (entry k).generation + if (entry k).active then 1 else 0 := by
      rw [IndexEntry.deleted]
      split_ifs <;> rfl
    cases c with
    | generation _ | isActive _ | activeRevision _ | activeKeys _ | activate _ => cases hends
    | preparePut k' | publishAndActivate k' _ _ =>
      rw [apply, if_pos (of_decide_eq_true hends)]
      rfl
    | delete k' | clearNamespace ns =>
      rw [apply, if_pos (of_decide_eq_true hends)]
      exact hdeleted
    | clearAll => exact hdeleted

end IndexCall

/-! ### Runs -/

namespace IndexImplementation

variable {β : Type} (I : IndexImplementation β)

/-- The state after some calls, whether they return or raise. -/
def run (b : β) (calls : List IndexCall) : β := calls.foldl (fun b c => (I.call c b).2) b

/-- How many of the calls return. -/
def returned : β → List IndexCall → ℕ
  | _, [] => 0
  | b, c :: calls =>
    (if (I.call c b).1.isOk then 1 else 0) + returned (I.call c b).2 calls

/-- How many of the calls return and end an active value of the key. -/
def ended (k : NativeKey) : β → List IndexCall → ℕ
  | _, [] => 0
  | b, c :: calls =>
    (if (I.call c b).1.isOk && c.ends k && (I.entry b k).active then 1 else 0) +
      ended k (I.call c b).2 calls

variable {I}

theorem valid_call {b : β} (h : I.Valid b) (c : IndexCall) : I.Valid (I.call c b).2 := by
  rcases I.call_cases c h with ⟨_, _, hcall, hvalid, -, -⟩ | ⟨_, hcall⟩
  · rwa [hcall]
  · rwa [hcall]

theorem valid_run {b : β} (h : I.Valid b) (calls : List IndexCall) : I.Valid (I.run b calls) := by
  induction calls generalizing b with
  | nil => exact h
  | cons c calls ih => exact ih (valid_call h c)

/-- The entries after a call. -/
theorem entry_call {b : β} (h : I.Valid b) (c : IndexCall) :
    I.entry (I.call c b).2 = if (I.call c b).1.isOk then c.apply (I.entry b) else I.entry b := by
  rcases I.call_cases c h with ⟨_, _, hcall, -, -, hentry⟩ | ⟨_, hcall⟩
  · rw [hcall]
    exact hentry
  · rw [hcall]
    rfl

/-- The generation counts the ends of active values. -/
theorem generation_run {b : β} (h : I.Valid b) (calls : List IndexCall) (k : NativeKey) :
    (I.entry (I.run b calls) k).generation = (I.entry b k).generation + I.ended k b calls := by
  induction calls generalizing b with
  | nil => rfl
  | cons c calls ih =>
    have hrun : I.run b (c :: calls) = I.run (I.call c b).2 calls := rfl
    rw [hrun, ih (valid_call h c), entry_call h, ended]
    cases (I.call c b).1.isOk with
    | false => simp
    | true =>
      rw [if_pos rfl, IndexCall.generation_apply, Bool.true_and]
      omega

/-- An entry whose revision is the given one, or whose generation is past it. -/
def FromRevision (r : ℕ × Option Str) (e : IndexEntry) : Prop :=
  e.revision = some r ∨ r.1 < e.generation

theorem fromRevision_apply {r : ℕ × Option Str} {entry : NativeKey → IndexEntry} {k : NativeKey}
    (h : FromRevision r (entry k)) (c : IndexCall) : FromRevision r (c.apply entry k) := by
  rcases h with hsame | hpast
  · -- the entry is active, so that activating it changes nothing
    rw [IndexEntry.revision] at hsame
    split_ifs at hsame with hactive
    cases hends : c.ends k with
    | false =>
      have hactivated : (entry k).activated = entry k := by
        rw [IndexEntry.activated, ← hactive]
      rcases IndexCall.apply_of_not_ends hends entry with h | h
      · exact .inl (by rw [h, IndexEntry.revision, if_pos hactive, hsame])
      · exact .inl (by rw [h, hactivated, IndexEntry.revision, if_pos hactive, hsame])
    | true =>
      right
      rw [IndexCall.generation_apply, hends, hactive, ← Option.some.inj hsame]
      exact Nat.lt_succ_self _
  · right
    rw [IndexCall.generation_apply]
    omega

theorem fromRevision_run {r : ℕ × Option Str} {b : β} (hvalid : I.Valid b) {k : NativeKey}
    (h : FromRevision r (I.entry b k)) (calls : List IndexCall) :
    FromRevision r (I.entry (I.run b calls) k) := by
  induction calls generalizing b with
  | nil => exact h
  | cons c calls ih =>
    apply ih (valid_call hvalid c)
    rw [entry_call hvalid]
    split_ifs
    · exact fromRevision_apply h c
    · exact h

end IndexImplementation

/-! ### Every index -/

/-- What a publication does to the key it publishes. -/
def IndexCall.publishes (c : IndexCall) (k : NativeKey) : Prop :=
  ∃ publicationId publisher, c = .publishAndActivate k publicationId publisher

/-- The revisions of an index never repeat. -/
structure RevisionsAdvance {β : Type} (I : IndexImplementation β) : Prop where
  /-- The generation never decreases. -/
  monotone : ∀ {b}, I.Valid b → ∀ calls k,
    (I.entry b k).generation ≤ (I.entry (I.run b calls) k).generation
  /-- Ending an active value advances the generation by one. -/
  advances : ∀ {b}, I.Valid b → ∀ calls c k, c.ends k = true →
    (I.entry (I.run b calls) k).active = true →
    ∀ {answer after}, I.call c (I.run b calls) = (.ok answer, after) →
      (I.entry after k).generation = (I.entry (I.run b calls) k).generation + 1
  /-- A call that raises changes nothing. -/
  raises : ∀ {b}, I.Valid b → ∀ calls c {e after},
    I.call c (I.run b calls) = (.error e, after) → after = I.run b calls
  /-- A later active revision is the same, or of a later generation. -/
  revision_lt : ∀ {b}, I.Valid b → ∀ before after k {r r'},
    (I.entry (I.run b before) k).revision = some r →
    (I.entry (I.run b (before ++ after)) k).revision = some r' → r ≠ r' → r.1 < r'.1
  /-- Publications of an active key advance its generation by one each. -/
  publications : ∀ {b}, I.Valid b → ∀ calls k, (∀ c ∈ calls, c.publishes k) →
    (I.entry b k).active = true →
      (I.entry (I.run b calls) k).generation = (I.entry b k).generation + I.returned b calls

namespace IndexImplementation

variable {β : Type} {I : IndexImplementation β}

theorem run_append (b : β) (before after : List IndexCall) :
    I.run b (before ++ after) = I.run (I.run b before) after := List.foldl_append

/-- Publications of an active key end an active value each. -/
theorem ended_publications {b : β} (h : I.Valid b) {k : NativeKey} {calls : List IndexCall}
    (hcalls : ∀ c ∈ calls, c.publishes k) (hactive : (I.entry b k).active = true) :
    I.ended k b calls = I.returned b calls := by
  induction calls generalizing b with
  | nil => rfl
  | cons c calls ih =>
    rw [List.forall_mem_cons] at hcalls
    obtain ⟨publicationId, publisher, rfl⟩ := hcalls.1
    have hafter : (I.entry (I.call (.publishAndActivate k publicationId publisher) b).2 k).active =
        true := by
      rw [entry_call h]
      split_ifs
      · rw [IndexCall.apply, if_pos rfl]
        rfl
      · exact hactive
    rw [ended, returned, ih (valid_call h _) hcalls.2 hafter, hactive]
    simp [IndexCall.ends]

/-- The revisions of every implementation advance. -/
theorem revisionsAdvance (I : IndexImplementation β) : RevisionsAdvance I where
  monotone := by
    intro b h calls k
    rw [generation_run h]
    exact Nat.le_add_right _ _
  advances := by
    intro b h calls c k hends hactive answer after hcall
    have hentry := entry_call (valid_run h calls) c
    rw [hcall] at hentry
    calc
      (I.entry after k).generation = (c.apply (I.entry (I.run b calls)) k).generation := by
        rw [show I.entry after = _ from hentry]
        rfl
      _ = (I.entry (I.run b calls) k).generation + 1 := by
        rw [IndexCall.generation_apply, hends, hactive]
        rfl
  raises := by
    intro b h calls c e after hcall
    rcases I.call_cases c (valid_run h calls) with ⟨_, _, hok, -, -, -⟩ | ⟨_, herror⟩
    · rw [hok] at hcall
      cases hcall
    · rw [herror] at hcall
      exact (Prod.mk.inj hcall).2.symm
  revision_lt := by
    intro b h before after k r r' hr hr' hne
    rw [run_append] at hr'
    rcases fromRevision_run (valid_run h before) (.inl hr) after with hsame | hpast
    · rw [hsame] at hr'
      exact absurd (Option.some.inj hr') hne
    · rw [IndexEntry.revision] at hr'
      split_ifs at hr'
      rwa [← Option.some.inj hr']
  publications := by
    intro b h calls k hcalls hactive
    rw [generation_run h, ended_publications h hcalls hactive]

end IndexImplementation

/-- The revisions of the three indexes never repeat. -/
theorem indexes_revisionsAdvance :
    RevisionsAdvance memoryIndex ∧ RevisionsAdvance filesystemIndex ∧
    RevisionsAdvance sqliteIndex :=
  ⟨memoryIndex.revisionsAdvance, filesystemIndex.revisionsAdvance, sqliteIndex.revisionsAdvance⟩

end OnceMesh
