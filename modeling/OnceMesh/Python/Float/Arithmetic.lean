import Mathlib.Algebra.Order.Field.Basic
import Mathlib.Algebra.Order.Ring.Rat
import Mathlib.Tactic.Linarith
import Mathlib.Tactic.Positivity
import OnceMesh.Python.Error
import OnceMesh.Python.Float

/-!
# Arithmetic on binary64 numbers

Comparison, multiplication by an integer, and `round`. The integers below 2⁵¹ are binary64 numbers,
so rounding a number between two of them, to a binary64 number and then to an integer, stays between
them (`PyFloat.round_ofFraction`).
-/

namespace Python

/-! ### Definitions -/

namespace PyFloat

/-- The value of `±mantissa · 2 ^ exponent`. -/
def ratio (negative : Bool) (mantissa : ℕ) (exponent : ℤ) : ℚ :=
  (if negative then -(mantissa : ℚ) else mantissa) * 2 ^ exponent

/-- `x < y`. -/
def lt : PyFloat → PyFloat → Bool
  | nan, _ | _, nan => false
  | infinity negative, infinity negative' => negative && !negative'
  | infinity negative, finite .. => negative
  | finite .., infinity negative => !negative
  | finite n m e, finite n' m' e' => decide (ratio n m e < ratio n' m' e')

/-- The binary64 number nearest to `±mantissa · 2 ^ exponent`. -/
def ofScaled (negative : Bool) (mantissa : ℕ) (exponent : ℤ) : PyFloat :=
  if 0 ≤ exponent then ofFraction negative (mantissa * 2 ^ exponent.toNat) 1
  else ofFraction negative mantissa (2 ^ (-exponent).toNat)

/-- `x * n` for a positive integer `n` that is a binary64 number. -/
def mulNat (x : PyFloat) (n : ℕ) : PyFloat :=
  match x with
  | finite negative mantissa exponent => ofScaled negative (mantissa * n) exponent
  | x => x

/-- `round(x)`. -/
def round : PyFloat → Except PyError ℤ
  | finite negative mantissa exponent =>
    let magnitude : ℤ :=
      if 0 ≤ exponent then mantissa * 2 ^ exponent.toNat
      else roundHalfEven mantissa (2 ^ (-exponent).toNat)
    .ok (if negative then -magnitude else magnitude)
  | infinity _ => .error .overflowError
  | nan => raiseValueError "cannot convert float NaN to integer"

end PyFloat

/-! ### Rounding to an integer -/

theorem le_roundHalfEven {n d lo : ℕ} (hd : 0 < d) (h : lo * d ≤ n) : lo ≤ roundHalfEven n d := by
  have hquotient : lo ≤ n / d := (Nat.le_div_iff_mul_le hd).mpr h
  simp only [roundHalfEven]
  split_ifs <;> omega

theorem roundHalfEven_le {n d hi : ℕ} (hd : 0 < d) (h : n ≤ hi * d) : roundHalfEven n d ≤ hi := by
  have hquotient : n / d ≤ hi := Nat.div_le_of_le_mul (by rwa [Nat.mul_comm])
  rcases hquotient.lt_or_eq with hlt | heq
  · simp only [roundHalfEven]
    split_ifs <;> omega
  · -- the fraction is the integer `hi`
    have hremainder : n % d = 0 := by
      have := Nat.div_add_mod n d
      rw [heq, Nat.mul_comm] at this
      omega
    simp [roundHalfEven, hremainder, hd, heq]

theorem floorLog2_le {n d k : ℕ} (hn : n ≠ 0) (h : n < 2 ^ k * d) : floorLog2 n d ≤ k := by
  have hd : d ≠ 0 := by
    rintro rfl
    simp at h
  have hpow : 2 ^ n.log2 < 2 ^ (k + (d.log2 + 1)) := calc
    2 ^ n.log2 ≤ n := Nat.log2_self_le hn
    _ < 2 ^ k * d := h
    _ ≤ 2 ^ k * 2 ^ (d.log2 + 1) := Nat.mul_le_mul_left _ Nat.lt_log2_self.le
    _ = 2 ^ (k + (d.log2 + 1)) := (Nat.pow_add ..).symm
  have hlog : n.log2 < k + (d.log2 + 1) := (Nat.pow_lt_pow_iff_right (by decide)).mp hpow
  simp only [floorLog2]
  split_ifs <;> omega

namespace PyFloat

/-- A fraction between two small integers is rounded to an integer between them. -/
theorem round_ofFraction {n d lo hi : ℕ} (hd : 0 < d) (hlo : lo * d ≤ n) (hhi : n ≤ hi * d)
    (hsmall : hi < 2 ^ 51) :
    ∃ k : ℤ, (ofFraction false n d).round = .ok k ∧ lo ≤ k ∧ k ≤ hi := by
  by_cases hn : n = 0
  · subst hn
    have hzero : lo = 0 := by
      rcases Nat.mul_eq_zero.mp (Nat.le_zero.mp hlo) with h | h
      · exact h
      · omega
    exact ⟨0, by simp [ofFraction, round], by omega, by omega⟩
  · have hlog : floorLog2 n d ≤ 51 :=
      floorLog2_le hn (lt_of_le_of_lt hhi (Nat.mul_lt_mul_of_pos_right hsmall hd))
    -- the unit in the last place is below 1
    obtain ⟨e, he⟩ : ∃ e, e = max (floorLog2 n d - 52) (-1074) := ⟨_, rfl⟩
    have hneg : ¬0 ≤ e := by omega
    obtain ⟨m, hm⟩ : ∃ m, m = roundHalfEven (n * 2 ^ (-e).toNat) d := ⟨_, rfl⟩
    have hmlo : lo * 2 ^ (-e).toNat ≤ m := by
      rw [hm]
      apply le_roundHalfEven hd
      calc lo * 2 ^ (-e).toNat * d = lo * d * 2 ^ (-e).toNat := by ring
        _ ≤ n * 2 ^ (-e).toNat := Nat.mul_le_mul_right _ hlo
    have hmhi : m ≤ hi * 2 ^ (-e).toNat := by
      rw [hm]
      apply roundHalfEven_le hd
      calc n * 2 ^ (-e).toNat ≤ hi * d * 2 ^ (-e).toNat := Nat.mul_le_mul_right _ hhi
        _ = hi * 2 ^ (-e).toNat * d := by ring
    have hfinite : ¬(m : ℤ) * 2 ^ (e + 1074).toNat ≥ 2 ^ (1024 + 1074) := by
      have hbound : m * 2 ^ (e + 1074).toNat < 2 ^ (1024 + 1074) := calc
        m * 2 ^ (e + 1074).toNat ≤ hi * 2 ^ (-e).toNat * 2 ^ (e + 1074).toNat :=
          Nat.mul_le_mul_right _ hmhi
        _ = hi * 2 ^ ((-e).toNat + (e + 1074).toNat) := by rw [Nat.mul_assoc, ← Nat.pow_add]
        _ < 2 ^ 51 * 2 ^ ((-e).toNat + (e + 1074).toNat) := by gcongr
        _ = 2 ^ (51 + ((-e).toNat + (e + 1074).toNat)) := (Nat.pow_add ..).symm
        _ ≤ 2 ^ (1024 + 1074) := Nat.pow_le_pow_right (by decide) (by omega)
      exact not_le.mpr (by exact_mod_cast hbound)
    have hvalue : ofFraction false n d = finite false m e := by
      simp only [ofFraction, if_neg hn, ← he, if_neg hneg, ← hm, if_neg hfinite]
    refine ⟨roundHalfEven m (2 ^ (-e).toNat), ?_, ?_, ?_⟩
    · simp [hvalue, round, hneg]
    · exact_mod_cast le_roundHalfEven (Nat.two_pow_pos _) hmlo
    · exact_mod_cast roundHalfEven_le (Nat.two_pow_pos _) hmhi

/-- A product between two small integers is rounded to an integer between them. -/
theorem round_mulNat {mantissa n lo hi : ℕ} {exponent : ℤ}
    (hlo : (lo : ℚ) ≤ ratio false mantissa exponent * n)
    (hhi : ratio false mantissa exponent * n ≤ hi) (hsmall : hi < 2 ^ 51) :
    ∃ k : ℤ, (mulNat (finite false mantissa exponent) n).round = .ok k ∧ lo ≤ k ∧ k ≤ hi := by
  simp only [ratio, Bool.false_eq_true, if_false] at hlo hhi
  simp only [mulNat, ofScaled]
  split_ifs with h
  · obtain ⟨k, rfl⟩ := Int.eq_ofNat_of_zero_le h
    rw [zpow_natCast] at hlo hhi
    apply round_ofFraction Nat.one_pos _ _ hsmall
    · have : (lo : ℚ) ≤ mantissa * n * 2 ^ k := by linarith
      rw [Int.toNat_natCast, Nat.mul_one]
      exact_mod_cast this
    · have : (mantissa * n * 2 ^ k : ℚ) ≤ hi := by linarith
      rw [Int.toNat_natCast, Nat.mul_one]
      exact_mod_cast this
  · obtain ⟨k, hk⟩ : ∃ k : ℕ, exponent = -k := ⟨(-exponent).toNat, by omega⟩
    subst hk
    rw [zpow_neg, zpow_natCast] at hlo hhi
    have hpos : (0 : ℚ) < 2 ^ k := by positivity
    have hcancel : (mantissa : ℚ) * (2 ^ k)⁻¹ * n * 2 ^ k = mantissa * n := by
      rw [mul_right_comm, inv_mul_cancel_right₀ hpos.ne']
    apply round_ofFraction (Nat.two_pow_pos _) _ _ hsmall
    · have : (lo : ℚ) * 2 ^ k ≤ mantissa * n :=
        (mul_le_mul_of_nonneg_right hlo hpos.le).trans_eq hcancel
      rw [neg_neg, Int.toNat_natCast]
      exact_mod_cast this
    · have : (mantissa * n : ℚ) ≤ hi * 2 ^ k :=
        hcancel.symm.trans_le (mul_le_mul_of_nonneg_right hhi hpos.le)
      rw [neg_neg, Int.toNat_natCast]
      exact_mod_cast this

/-- What is not below a positive number is positive. -/
theorem eq_false_of_ratio_pos {negative : Bool} {mantissa : ℕ} {exponent : ℤ}
    (h : 0 < ratio negative mantissa exponent) : negative = false := by
  by_contra hnegative
  have hpos : (0 : ℚ) ≤ mantissa * 2 ^ exponent :=
    mul_nonneg (Nat.cast_nonneg _) (zpow_nonneg zero_le_two _)
  simp only [ratio, Bool.not_eq_false] at h hnegative
  rw [if_pos hnegative] at h
  linarith

end PyFloat

end Python
