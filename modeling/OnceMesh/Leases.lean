import Mathlib.Data.List.Basic
import Mathlib.Data.List.Induction
import Mathlib.Order.Lattice

/-!
# Leases

Items are admitted under a key, each with the end of its lease. From then on this is the end of the
lease for all items under the key, also where the lease of the others would have been longer.
Pruning drops the items whose lease has ended.

After a run, there is something under a key just if every pruning since the last admission of the
key came before the end of its lease (`leases_run_iff`). Nothing changes in this if an item takes
the place of the others under its key (`runNewest`).
-/

/-- The last element with a property, and what comes after it. -/
theorem exists_last_of_mem {α : Type*} {p : α → Prop} {l : List α} {a : α} (ha : a ∈ l) (hp : p a) :
    ∃ before b after, l = before ++ b :: after ∧ p b ∧ ∀ c ∈ after, ¬p c := by
  induction l generalizing a with
  | nil => cases ha
  | cons c rest ih =>
    by_cases hrest : ∃ b ∈ rest, p b
    · obtain ⟨b, hb, hpb⟩ := hrest
      obtain ⟨before, b, after, rfl, hlast⟩ := ih hb hpb
      exact ⟨c :: before, b, after, rfl, hlast⟩
    · have hnone : ∀ b ∈ rest, ¬p b := fun b hb hpb => hrest ⟨b, hb, hpb⟩
      obtain rfl : a = c := (List.mem_cons.mp ha).resolve_right fun hmem => hnone a hmem hp
      exact ⟨[], a, rest, rfl, hp, hnone⟩

/-- A value under a key, with the end of its lease. -/
@[ext]
structure Leased (κ α τ : Type*) where
  key : κ
  value : α
  ends : τ

/-- What happens to leased items. -/
inductive LeaseEvent (κ α τ : Type*) where
  | grant (item : Leased κ α τ)
  | prune (now : τ)

/-- The event with its value changed. -/
def LeaseEvent.map {κ α β τ : Type*} (f : α → β) : LeaseEvent κ α τ → LeaseEvent κ β τ
  | .grant item => .grant ⟨item.key, f item.value, item.ends⟩
  | .prune now => .prune now

namespace Leased

variable {κ α τ : Type*} [DecidableEq κ] [LinearOrder τ]

/-- The items with the end of the lease for one key. -/
def renew (k : κ) (ends : τ) (items : List (Leased κ α τ)) : List (Leased κ α τ) :=
  items.map fun x => if x.key = k then { x with ends := ends } else x

/-- An item is admitted: it is the newest, and its lease is that of its key. -/
def grant (item : Leased κ α τ) (items : List (Leased κ α τ)) : List (Leased κ α τ) :=
  renew item.key item.ends items ++ [item]

/-- The items whose lease has not ended. -/
def live (now : τ) (items : List (Leased κ α τ)) : List (Leased κ α τ) :=
  items.filter fun x => now < x.ends

/-- The items after an event. -/
def step (items : List (Leased κ α τ)) : LeaseEvent κ α τ → List (Leased κ α τ)
  | .grant item => grant item items
  | .prune now => live now items

/-- The items after a run of events. -/
def run (events : List (LeaseEvent κ α τ)) (items : List (Leased κ α τ)) : List (Leased κ α τ) :=
  events.foldl step items

/-- Items under one key have one lease. -/
def Uniform (items : List (Leased κ α τ)) : Prop :=
  ∀ x ∈ items, ∀ y ∈ items, x.key = y.key → x.ends = y.ends

variable {items : List (Leased κ α τ)} {item x : Leased κ α τ} {now : τ}

omit [DecidableEq κ] in
/-- The items that are left are those whose lease has not ended. -/
theorem mem_live : x ∈ live now items ↔ x ∈ items ∧ now < x.ends := by
  simp [live]

/-! ### Admission -/

omit [LinearOrder τ] in
/-- A renewal changes the ends of the leases under its key, and nothing else. -/
theorem mem_renew {k : κ} {ends : τ} :
    x ∈ renew k ends items ↔ ∃ y ∈ items, x.key = y.key ∧ x.value = y.value ∧
      x.ends = if y.key = k then ends else y.ends := by
  rw [renew, List.mem_map]
  refine exists_congr fun y => and_congr_right fun _ => ?_
  by_cases h : y.key = k
  · rw [if_pos h, if_pos h, Leased.ext_iff]
    simp only [eq_comm]
  · rw [if_neg h, if_neg h, Leased.ext_iff]
    simp only [eq_comm]

omit [LinearOrder τ] in
/-- Renewing a lease keeps keys and values, and whatever is asked of them. -/
theorem map_filter_renew {β : Type*} (k : κ) (ends : τ) (keep : κ → α → Bool) (f : κ → α → β) :
    ((renew k ends items).filter fun x => keep x.key x.value).map (fun x => f x.key x.value) =
      (items.filter fun x => keep x.key x.value).map fun x => f x.key x.value := by
  have hkey : ∀ x : Leased κ α τ, (if x.key = k then { x with ends := ends } else x).key = x.key :=
    fun x => by split <;> rfl
  have hvalue : ∀ x : Leased κ α τ,
      (if x.key = k then { x with ends := ends } else x).value = x.value :=
    fun x => by split <;> rfl
  rw [renew, List.filter_map, List.map_map]
  simp only [Function.comp_def, hkey, hvalue]

omit [LinearOrder τ] in
/-- After an admission, there are the items with their leases renewed, and the new one. -/
theorem mem_grant : x ∈ grant item items ↔ x ∈ renew item.key item.ends items ∨ x = item := by
  rw [grant, List.mem_append, List.mem_singleton]

omit [LinearOrder τ] in
/-- The lease of a key that is admitted. -/
theorem ends_of_mem_grant (h : x ∈ grant item items) (hkey : x.key = item.key) :
    x.ends = item.ends := by
  rcases mem_grant.mp h with hrenew | rfl
  · obtain ⟨y, -, hsame, -, hends⟩ := mem_renew.mp hrenew
    rw [hends, if_pos (hsame ▸ hkey)]
  · rfl

omit [LinearOrder τ] in
/-- The admission of another key keeps an item. -/
theorem mem_grant_of_ne (hkey : x.key ≠ item.key) : x ∈ grant item items ↔ x ∈ items := by
  rw [mem_grant, or_iff_left (fun h => hkey (congrArg key h)), mem_renew]
  constructor
  · rintro ⟨y, hy, hsame, hvalue, hends⟩
    rw [if_neg (hsame ▸ hkey)] at hends
    rwa [Leased.ext hsame hvalue hends]
  · exact fun h => ⟨x, h, rfl, rfl, (if_neg hkey).symm⟩

/-! ### Uniform leases -/

omit [DecidableEq κ] [LinearOrder τ] in
/-- Where there is nothing, the leases of a key are the same. -/
theorem uniform_nil : Uniform ([] : List (Leased κ α τ)) := fun _ h => absurd h List.not_mem_nil

omit [LinearOrder τ] in
/-- An admission gives all items under its key one lease. -/
theorem Uniform.grant (h : Uniform items) (item : Leased κ α τ) :
    Uniform (Leased.grant item items) := by
  intro x hx y hy hkey
  by_cases hitem : x.key = item.key
  · rw [ends_of_mem_grant hx hitem, ends_of_mem_grant hy (hkey ▸ hitem)]
  · exact h x ((mem_grant_of_ne hitem).mp hx) y ((mem_grant_of_ne (hkey ▸ hitem)).mp hy) hkey

omit [DecidableEq κ] in
/-- Pruning keeps the leases of a key the same. -/
theorem Uniform.live (h : Uniform items) (now : τ) : Uniform (Leased.live now items) :=
  fun x hx y hy => h x (mem_live.mp hx).1 y (mem_live.mp hy).1

/-- Every run leaves uniform leases. -/
theorem Uniform.run (h : Uniform items) (events : List (LeaseEvent κ α τ)) :
    Uniform (Leased.run events items) := by
  induction events generalizing items with
  | nil => exact h
  | cons event rest ih =>
    cases event with
    | grant item => exact ih (h.grant item)
    | prune now => exact ih (h.live now)

/-! ### Runs -/

/-- A run of events and then others. -/
theorem run_append (first second : List (LeaseEvent κ α τ)) (items : List (Leased κ α τ)) :
    run (first ++ second) items = run second (run first items) :=
  List.foldl_append

variable {events : List (LeaseEvent κ α τ)}

/-- What holds of every key and lease that is admitted holds of those that are there. -/
theorem forall_mem_run {p : κ → τ → Prop} (hitems : ∀ x ∈ items, p x.key x.ends)
    (hevents : ∀ y, .grant y ∈ events → p y.key y.ends) :
    ∀ x ∈ run events items, p x.key x.ends := by
  induction events generalizing items with
  | nil => exact hitems
  | cons event rest ih =>
    refine ih ?_ fun y hy => hevents y (List.mem_cons_of_mem _ hy)
    intro x hx
    cases event with
    | grant item =>
      have hitem := hevents item List.mem_cons_self
      by_cases hkey : x.key = item.key
      · rw [ends_of_mem_grant hx hkey, hkey]
        exact hitem
      · exact hitems x ((mem_grant_of_ne hkey).mp hx)
    | prune now => exact hitems x (mem_live.mp hx).1

/-- As long as its key is not admitted again, an item is there until its lease ends. -/
theorem mem_run_iff (hkey : ∀ y, .grant y ∈ events → y.key ≠ x.key) :
    x ∈ run events items ↔ x ∈ items ∧ ∀ now, .prune now ∈ events → now < x.ends := by
  induction events generalizing items with
  | nil => simp [run]
  | cons event rest ih =>
    have hrest : ∀ y, .grant y ∈ rest → y.key ≠ x.key :=
      fun y hy => hkey y (List.mem_cons_of_mem _ hy)
    rw [run, List.foldl_cons, ← run, ih hrest]
    cases event with
    | grant item =>
      rw [step, mem_grant_of_ne (hkey item List.mem_cons_self).symm]
      simp
    | prune now =>
      rw [step, mem_live]
      simp [and_assoc]

/-- What is there has been admitted. -/
theorem exists_grant_of_mem_run (h : x ∈ run events []) :
    ∃ y, .grant y ∈ events ∧ y.key = x.key := by
  by_contra hnone
  have hkey : ∀ y, .grant y ∈ events → y.key ≠ x.key := fun y hy hsame => hnone ⟨y, hy, hsame⟩
  exact absurd ((mem_run_iff hkey).mp h).1 List.not_mem_nil

/-- Where no admission is under a key, all items under the key keep the one lease that they have. -/
theorem ends_of_mem_run {k : κ} {ends : τ} (hkey : ∀ y, .grant y ∈ events → y.key ≠ k)
    (hends : ∀ y ∈ items, y.key = k → y.ends = ends) (hx : x ∈ run events items)
    (hxkey : x.key = k) : x.ends = ends := by
  refine hends x ?_ hxkey
  exact ((mem_run_iff (fun y hy => hxkey ▸ hkey y hy)).mp hx).1

/-- Some item has this key and this lease. -/
def Leases (items : List (Leased κ α τ)) (k : κ) (ends : τ) : Prop :=
  ∃ x ∈ items, x.key = k ∧ x.ends = ends

omit [DecidableEq κ] in
/-- A lease is left by pruning just if it has not ended. -/
theorem leases_live_iff {k : κ} {ends : τ} : Leases (live now items) k ends ↔
    Leases items k ends ∧ now < ends := by
  constructor
  · rintro ⟨x, hx, hxkey, rfl⟩
    exact ⟨⟨x, (mem_live.mp hx).1, hxkey, rfl⟩, (mem_live.mp hx).2⟩
  · rintro ⟨⟨x, hx, hxkey, rfl⟩, hnow⟩
    exact ⟨x, mem_live.mpr ⟨hx, hnow⟩, hxkey, rfl⟩

/-- The lease of a key is that of its last admission, and is there until a pruning finds it
ended. -/
theorem leases_run_iff {k : κ} {ends : τ} : Leases (run events []) k ends ↔
    ∃ before item after, events = before ++ .grant item :: after ∧ item.key = k ∧ item.ends = ends ∧
      (∀ y, .grant y ∈ after → y.key ≠ k) ∧ ∀ t, .prune t ∈ after → t < ends := by
  constructor
  · rintro ⟨x, hx, rfl, rfl⟩
    obtain ⟨y, hy, hykey⟩ := exists_grant_of_mem_run hx
    obtain ⟨before, event, after, rfl, ⟨item, rfl, hitem⟩, hlast⟩ := @exists_last_of_mem _
      (fun event => ∃ item, event = .grant item ∧ item.key = x.key) _ _ hy ⟨y, rfl, hykey⟩
    have hafter : ∀ y, .grant y ∈ after → y.key ≠ x.key :=
      fun y hy hsame => hlast _ hy ⟨y, rfl, hsame⟩
    rw [run_append, run, List.foldl_cons, ← run] at hx
    have hends : x.ends = item.ends := ends_of_mem_run hafter
      (fun y hy hsame => ends_of_mem_grant hy (hsame.trans hitem.symm)) hx rfl
    obtain ⟨-, hprunes⟩ := (mem_run_iff hafter).mp hx
    exact ⟨before, item, after, rfl, hitem, hends.symm, hafter, hprunes⟩
  · rintro ⟨before, item, after, rfl, rfl, rfl, hafter, hprunes⟩
    refine ⟨item, ?_, rfl, rfl⟩
    rw [run_append, run, List.foldl_cons, ← run]
    exact (mem_run_iff hafter).mpr ⟨mem_grant.mpr (.inr rfl), hprunes⟩

/-! ### Replacement -/

/-- An item takes the place of the others under its key. -/
def replace (item : Leased κ α τ) (items : List (Leased κ α τ)) : List (Leased κ α τ) :=
  items.filter (fun x => x.key ≠ item.key) ++ [item]

/-- The items after an event, if an item replaces the others under its key. -/
def stepNewest (items : List (Leased κ α τ)) : LeaseEvent κ α τ → List (Leased κ α τ)
  | .grant item => replace item items
  | .prune now => live now items

/-- The items after a run of events, if an item replaces the others under its key. -/
def runNewest (events : List (LeaseEvent κ α τ)) (items : List (Leased κ α τ)) :
    List (Leased κ α τ) :=
  events.foldl stepNewest items

omit [LinearOrder τ] in
/-- After a replacement, there are the items under other keys, and the new one. -/
theorem mem_replace : x ∈ replace item items ↔ x ∈ items ∧ x.key ≠ item.key ∨ x = item := by
  simp [replace]

omit [LinearOrder τ] in
/-- A replacement keeps the keys distinct. -/
theorem nodup_keys_replace (h : (items.map key).Nodup) (item : Leased κ α τ) :
    ((replace item items).map key).Nodup := by
  have hfilter : ((items.filter fun x => x.key ≠ item.key).map key).Nodup :=
    h.sublist (List.filter_sublist.map key)
  rw [replace, List.map_append, List.nodup_append]
  refine ⟨hfilter, by simp, ?_⟩
  intro k hk k' hk' heq
  obtain ⟨x, hx, rfl⟩ := List.mem_map.mp hk
  rw [List.map_singleton, List.mem_singleton] at hk'
  exact of_decide_eq_true (List.mem_filter.mp hx).2 (heq.trans hk')

omit [DecidableEq κ] in
/-- Pruning keeps the keys distinct. -/
theorem nodup_keys_live (h : (items.map key).Nodup) (now : τ) : ((live now items).map key).Nodup :=
  h.sublist (List.filter_sublist.map key)

omit [LinearOrder τ] in
/-- Replacing the others under a key leaves the same leases as adding to them. -/
theorem leases_replace_iff {β : Type*} {items' : List (Leased κ β τ)} {item' : Leased κ β τ}
    (h : ∀ k ends, Leases items k ends ↔ Leases items' k ends) (hkey : item.key = item'.key)
    (hends : item.ends = item'.ends) (k : κ) (ends : τ) :
    Leases (replace item items) k ends ↔ Leases (grant item' items') k ends := by
  by_cases hk : k = item.key
  · -- under the key of the item, there is its lease only
    have hreplace : Leases (replace item items) k ends ↔ ends = item.ends := by
      constructor
      · rintro ⟨x, hx, hxkey, rfl⟩
        rcases mem_replace.mp hx with ⟨-, hne⟩ | rfl
        · exact absurd (hxkey.trans hk) hne
        · rfl
      · rintro rfl
        exact ⟨item, mem_replace.mpr (.inr rfl), hk.symm, rfl⟩
    have hgrant : Leases (grant item' items') k ends ↔ ends = item'.ends := by
      constructor
      · rintro ⟨x, hx, hxkey, rfl⟩
        exact ends_of_mem_grant hx (hxkey.trans (hk.trans hkey))
      · rintro rfl
        exact ⟨item', mem_grant.mpr (.inr rfl), hkey.symm.trans hk.symm, rfl⟩
    rw [hreplace, hgrant, hends]
  · have hreplace : Leases (replace item items) k ends ↔ Leases items k ends := by
      constructor
      · rintro ⟨x, hx, hxkey, hxends⟩
        rcases mem_replace.mp hx with ⟨hx, -⟩ | rfl
        · exact ⟨x, hx, hxkey, hxends⟩
        · exact absurd hxkey.symm hk
      · rintro ⟨x, hx, hxkey, hxends⟩
        exact ⟨x, mem_replace.mpr (.inl ⟨hx, fun hsame => hk (hxkey.symm.trans hsame)⟩), hxkey,
          hxends⟩
    have hgrant : Leases (grant item' items') k ends ↔ Leases items' k ends := by
      refine exists_congr fun x => ?_
      constructor
      · rintro ⟨hx, hxkey, hxends⟩
        exact ⟨(mem_grant_of_ne (fun hsame => hk (hxkey.symm.trans (hsame.trans hkey.symm)))).mp hx,
          hxkey, hxends⟩
      · rintro ⟨hx, hxkey, hxends⟩
        exact ⟨(mem_grant_of_ne
          (fun hsame => hk (hxkey.symm.trans (hsame.trans hkey.symm)))).mpr hx, hxkey, hxends⟩
    rw [hreplace, hgrant, h]

/-- After every run of events, replacing leaves the same leases as adding. -/
theorem leases_runNewest_iff {β : Type*} (f : α → β) (events : List (LeaseEvent κ α τ)) (k : κ)
    (ends : τ) : Leases (runNewest events []) k ends ↔
      Leases (run (events.map (LeaseEvent.map f)) []) k ends := by
  induction events using List.reverseRecOn generalizing k ends with
  | nil =>
    refine iff_of_false ?_ ?_
    all_goals
      rintro ⟨x, hx, -⟩
      cases hx
  | append_singleton events event ih =>
    rw [runNewest, List.foldl_append, ← runNewest, List.map_append, run_append]
    cases event with
    | grant item => exact leases_replace_iff ih rfl rfl k ends
    | prune now =>
      show Leases (live now (runNewest events [])) k ends ↔ Leases (live now (run _ [])) k ends
      rw [leases_live_iff, leases_live_iff, ih]

end Leased
