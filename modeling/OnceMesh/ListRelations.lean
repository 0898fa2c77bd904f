import Mathlib.Algebra.BigOperators.Group.List.Basic
import Mathlib.Algebra.GroupWithZero.Nat
import Mathlib.Algebra.Order.Group.Nat
import Mathlib.Data.List.Forall2

/-!
# Lists related element by element

A loop that turns every element of a list into something related to it, or stops, relates its input
and its output by `List.Forall₂`.

Where every element of a list of numbers is cut off at the same bound, `sum_map_min_le_iff` says
when the sum keeps to the bound.
-/

namespace OnceMesh

/-- Lists that are related element by element exist when the elements do. -/
theorem exists_forall₂_iff {α β : Type} {r : α → β → Prop} {l : List α} :
    (∃ l', List.Forall₂ r l l') ↔ ∀ a ∈ l, ∃ b, r a b := by
  induction l with
  | nil => exact ⟨fun _ _ ha => absurd ha List.not_mem_nil, fun _ => ⟨[], .nil⟩⟩
  | cons a l ih =>
    rw [List.forall_mem_cons, ← ih]
    constructor
    · rintro ⟨_, hcons⟩
      obtain ⟨b, l', hab, hl, -⟩ := List.forall₂_cons_left_iff.mp hcons
      exact ⟨⟨b, hab⟩, ⟨l', hl⟩⟩
    · rintro ⟨⟨b, hab⟩, ⟨l', hl⟩⟩
      exact ⟨b :: l', .cons hab hl⟩

/-- Every element of the first list has its partner in the second. -/
theorem exists_of_forall₂_left {α β : Type} {r : α → β → Prop} {l : List α} {l' : List β}
    (h : List.Forall₂ r l l') {a : α} (ha : a ∈ l) : ∃ b ∈ l', r a b := by
  induction h with
  | nil => cases ha
  | cons hab _ ih =>
    rcases List.mem_cons.mp ha with rfl | hrest
    · exact ⟨_, List.mem_cons_self, hab⟩
    · obtain ⟨b, hb, hr⟩ := ih hrest
      exact ⟨b, List.mem_cons_of_mem _ hb, hr⟩

/-- Every element of the second list has its partner in the first. -/
theorem exists_of_forall₂_right {α β : Type} {r : α → β → Prop} {l : List α} {l' : List β}
    (h : List.Forall₂ r l l') {b : β} (hb : b ∈ l') : ∃ a ∈ l, r a b :=
  exists_of_forall₂_left h.flip hb

/-! ### Numbers that are cut off -/

section

variable {b : ℕ}

theorem sum_map_min_le (l : List ℕ) : (l.map (min · b)).sum ≤ l.sum := by
  induction l with
  | nil => exact le_rfl
  | cons x l ih =>
    rw [List.map_cons, List.sum_cons, List.sum_cons]
    exact Nat.add_le_add (Nat.min_le_left x b) ih

/-- Below the bound, nothing has been cut off. -/
theorem sum_map_min_of_lt {l : List ℕ} (h : (l.map (min · b)).sum < b) :
    (l.map (min · b)).sum = l.sum := by
  induction l with
  | nil => rfl
  | cons x l ih =>
    rw [List.map_cons, List.sum_cons] at h
    rw [List.map_cons, List.sum_cons, List.sum_cons, ih (by omega)]
    omega

theorem sum_map_min_eq_zero_iff (hb : 0 < b) {l : List ℕ} :
    (l.map (min · b)).sum = 0 ↔ l.countP (0 < ·) = 0 := by
  induction l with
  | nil => simp
  | cons x l ih =>
    rw [List.map_cons, List.sum_cons, Nat.add_eq_zero_iff, ih, List.countP_cons]
    by_cases hx : 0 < x
    · simp only [hx, decide_true, if_true]
      omega
    · simp only [hx, decide_false, Bool.false_eq_true, if_false]
      omega

/-- The sum keeps to the bound if at most one of the numbers counts, or if all of them do
together. -/
theorem sum_map_min_le_iff (hb : 0 < b) {l : List ℕ} :
    (l.map (min · b)).sum ≤ b ↔ l.countP (0 < ·) ≤ 1 ∨ l.sum ≤ b := by
  induction l with
  | nil => simp
  | cons x l ih =>
    rw [List.map_cons, List.sum_cons, List.sum_cons, List.countP_cons]
    rcases Nat.eq_zero_or_pos x with rfl | hx
    · simpa using ih
    have hzero := @sum_map_min_eq_zero_iff b hb l
    have hle := @sum_map_min_le b l
    simp only [hx, decide_true, if_true]
    constructor
    · intro h
      rcases Nat.eq_zero_or_pos (l.map (min · b)).sum with hrest | hrest
      · exact .inl (by omega)
      · have hsum := @sum_map_min_of_lt b l (by omega)
        exact .inr (by omega)
    · rintro (hcount | hsum)
      · have hrest := hzero.mpr (by omega)
        omega
      · omega

end

end OnceMesh
