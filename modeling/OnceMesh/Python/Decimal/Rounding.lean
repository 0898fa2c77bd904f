import Mathlib.Algebra.Order.Field.Power
import Mathlib.Algebra.Order.Floor.Semifield
import Mathlib.Data.Int.Log
import Mathlib.Data.Nat.Cast.Field
import Mathlib.Data.Nat.Digits.Lemmas
import Mathlib.Data.Rat.Floor
import Mathlib.Tactic.FieldSimp
import Mathlib.Tactic.Linarith
import Mathlib.Tactic.Positivity
import Mathlib.Tactic.Ring
import OnceMesh.Python.Decimal
import OnceMesh.Python.Float.Arithmetic

/-!
# Rounding in the default context

A result of the default context is the multiple of a power of ten nearest to the exact one, an even
multiple between two of them (`Decimal.nearestEven_fix`, `Decimal.nearestEven_div`). An even
multiple is reached from half a unit below (`NearestEven.le_iff`).
-/

namespace Python

/-! ### Nearest multiples -/

/-- `r` is the multiple of `u` that is nearest to `q`, and an even multiple between two of them. -/
def NearestEven (u q r : ℚ) : Prop :=
  ∃ n : ℤ, r = n * u ∧ |q - r| * 2 ≤ u ∧ (|q - r| * 2 = u → Even n)

namespace NearestEven

variable {u q r : ℚ}

/-- A multiple is nearest to itself. -/
theorem of_multiple (hu : 0 < u) (n : ℤ) : NearestEven u (n * u) (n * u) := by
  refine ⟨n, rfl, ?_, ?_⟩
  · rw [sub_self, abs_zero, zero_mul]
    exact hu.le
  · intro h
    rw [sub_self, abs_zero, zero_mul] at h
    exact absurd h hu.ne

/-- Scaling changes the unit. -/
theorem mul (h : NearestEven u q r) {k : ℚ} (hk : 0 < k) : NearestEven (u * k) (q * k) (r * k) := by
  obtain ⟨n, rfl, hle, heven⟩ := h
  have hscaled : |q * k - n * u * k| * 2 = |q - n * u| * 2 * k := by
    rw [← sub_mul, abs_mul, abs_of_pos hk]
    ring
  refine ⟨n, by ring, ?_, fun htie => heven ?_⟩
  · rw [hscaled]
    exact mul_le_mul_of_nonneg_right hle hk.le
  · rw [hscaled] at htie
    exact mul_right_cancel₀ hk.ne' htie

/-- An even multiple is reached from half a unit below it. -/
theorem le_iff (h : NearestEven u q r) {m : ℤ} (hm : Even m) : m * u ≤ r ↔ m * u - u / 2 ≤ q := by
  obtain ⟨n, rfl, hle, heven⟩ := h
  have hu : 0 ≤ u := le_trans (mul_nonneg (abs_nonneg _) zero_le_two) hle
  have hbounds := abs_le.mp (show |q - n * u| ≤ u / 2 by linarith)
  constructor
  · intro h
    linarith [hbounds.1]
  · intro h
    by_contra hlt
    push Not at hlt
    have hnm : n < m := by
      by_contra hge
      push Not at hge
      have hcast : (m : ℚ) ≤ n := by exact_mod_cast hge
      exact absurd (mul_le_mul_of_nonneg_right hcast hu) (not_le.mpr hlt)
    have hstep : (n : ℚ) + 1 ≤ m := by exact_mod_cast hnm
    have hnext := mul_le_mul_of_nonneg_right hstep hu
    -- so `q` is half way to the next multiple, which would be odd
    have htie : q - n * u = u / 2 := by linarith [hbounds.2]
    have hodd : (n : ℚ) * u + u = m * u := by linarith
    have hn : Even n := heven (by rw [htie, abs_of_nonneg (by linarith)]; ring)
    have hpos : 0 < u := by
      rcases hu.lt_or_eq with hpos | hzero
      · exact hpos
      · rw [← hzero] at hlt
        simp at hlt
    have hsucc : n + 1 = m := by
      have hfactor : ((n : ℚ) + 1) * u = m * u := by linarith
      exact_mod_cast mul_right_cancel₀ hpos.ne' hfactor
    exact absurd hm (by rw [← hsucc]; exact Int.not_even_iff_odd.mpr hn.add_one)

/-- `roundHalfEven` gives the nearest multiple. -/
theorem of_roundHalfEven (c : ℕ) {d : ℕ} (hd : 0 < d) :
    NearestEven d c (roundHalfEven c d * d) := by
  have hparts : (c : ℚ) = (c / d : ℕ) * d + (c % d : ℕ) := by
    exact_mod_cast (Nat.div_add_mod' c d).symm
  have hrest : c % d < d := Nat.mod_lt c hd
  have hrestQ : ((c % d : ℕ) : ℚ) < d := by exact_mod_cast hrest
  have hnonneg : (0 : ℚ) ≤ (c % d : ℕ) := by positivity
  -- below, at and above the middle
  have hdown : 2 * (c % d) ≤ d → (2 * (c % d) = d → Even ((c / d : ℕ) : ℤ)) →
      NearestEven d c ((c / d : ℕ) * d) := by
    intro hle heven
    have habs : |(c : ℚ) - (c / d : ℕ) * d| = (c % d : ℕ) := by
      rw [hparts, add_sub_cancel_left, abs_of_nonneg hnonneg]
    refine ⟨(c / d : ℕ), by push_cast; rfl, ?_, ?_⟩
    · rw [habs]
      exact_mod_cast (by omega : c % d * 2 ≤ d)
    · rw [habs]
      intro htie
      exact heven (by exact_mod_cast (by linarith : (2 : ℚ) * (c % d : ℕ) = d))
  have hup : d ≤ 2 * (c % d) → (2 * (c % d) = d → Even ((c / d + 1 : ℕ) : ℤ)) →
      NearestEven d c ((c / d + 1 : ℕ) * d) := by
    intro hle heven
    have habs : |(c : ℚ) - (c / d + 1 : ℕ) * d| = d - (c % d : ℕ) := by
      rw [hparts, Nat.cast_add, Nat.cast_one, abs_of_nonpos (by linarith)]
      ring
    refine ⟨(c / d + 1 : ℕ), by push_cast; rfl, ?_, ?_⟩
    · rw [habs]
      have hcast : (d : ℚ) ≤ 2 * (c % d : ℕ) := by exact_mod_cast hle
      linarith
    · rw [habs]
      intro htie
      exact heven (by exact_mod_cast (by linarith : (2 : ℚ) * (c % d : ℕ) = d))
  simp only [roundHalfEven]
  split_ifs with hlt hgt heven
  · exact hdown hlt.le fun h => absurd h hlt.ne
  · exact hup (le_of_lt hgt) fun h => absurd h (ne_of_gt hgt)
  · exact hdown (not_lt.mp hgt) fun _ => by exact_mod_cast Nat.even_iff.mpr heven
  · refine hup (not_lt.mp hlt) fun _ => ?_
    have hodd : Odd (c / d) := Nat.odd_iff.mpr (by omega)
    exact_mod_cast hodd.add_one

/-- A number that no multiple of 5 separates from `c` has the same nearest multiple of `10 * w`: the
last digit of `c` says that something follows it. -/
theorem of_sticky {w c : ℕ} {x r : ℚ} (h : NearestEven (10 * w : ℕ) c r) (hsticky : c % 5 ≠ 0)
    (hx : |x - c| < 1) : NearestEven (10 * w : ℕ) x r := by
  obtain ⟨n, rfl, hle, -⟩ := h
  have hbounds := abs_le.mp (show |(c : ℚ) - n * (10 * w : ℕ)| ≤ 5 * w by
    push_cast at hle ⊢
    linarith)
  -- as integers, and not at the ends
  have hlow : n * (10 * w) - 5 * w ≤ (c : ℤ) := by
    have hcast : (n : ℚ) * (10 * w) - 5 * w ≤ c := by
      have := hbounds.1
      push_cast at this
      linarith
    exact_mod_cast hcast
  have hhigh : (c : ℤ) ≤ n * (10 * w) + 5 * w := by
    have hcast : (c : ℚ) ≤ n * (10 * w) + 5 * w := by
      have := hbounds.2
      push_cast at this
      linarith
    exact_mod_cast hcast
  have hne : ∀ m : ℤ, (c : ℤ) ≠ 5 * m := by
    intro m hm
    omega
  have hlow' : n * (10 * w) - 5 * w + 1 ≤ (c : ℤ) := by
    have := hne (n * (2 * w) - w)
    have hfactor : 5 * (n * (2 * w) - w) = n * (10 * w) - 5 * (w : ℤ) := by ring
    omega
  have hhigh' : (c : ℤ) + 1 ≤ n * (10 * w) + 5 * w := by
    have := hne (n * (2 * w) + w)
    have hfactor : 5 * (n * (2 * w) + w) = n * (10 * w) + 5 * (w : ℤ) := by ring
    omega
  have hlowQ : (n : ℚ) * (10 * w) - 5 * w + 1 ≤ c := by exact_mod_cast hlow'
  have hhighQ : (c : ℚ) + 1 ≤ n * (10 * w) + 5 * w := by exact_mod_cast hhigh'
  obtain ⟨hleft, hright⟩ := abs_lt.mp hx
  have hstrict : |x - n * (10 * w : ℕ)| * 2 < (10 * w : ℕ) := by
    have habs : |x - n * (10 * w : ℕ)| < 5 * w := by
      rw [abs_lt]
      push_cast
      constructor
      · linarith
      · linarith
    push_cast at habs ⊢
    linarith
  exact ⟨n, rfl, hstrict.le, fun htie => absurd htie hstrict.ne⟩

end NearestEven

namespace Decimal

/-! ### Digits -/

theorem value_pos {d : Decimal} (h : 0 < d.coefficient) : 0 < d.value := by
  have hcoefficient : (0 : ℚ) < d.coefficient := by exact_mod_cast h
  exact mul_pos hcoefficient (zpow_pos (by norm_num) _)

/-- A positive number lies between two powers of ten, by its number of digits. -/
theorem length_intRepr {n : ℕ} (h : 0 < n) :
    0 < (intRepr n).length ∧ 10 ^ ((intRepr n).length - 1) ≤ n ∧ n < 10 ^ (intRepr n).length := by
  have hne : n ≠ 0 := h.ne'
  have hlength : (intRepr n).length = Nat.log 10 n + 1 := by
    have hnonneg : ¬(n : ℤ) < 0 := by omega
    rw [intRepr, if_neg hnonneg, if_neg (by exact_mod_cast hne), List.nil_append, List.length_map,
      List.length_reverse, Int.natAbs_natCast, Nat.length_digits 10 n (by decide) hne]
  rw [hlength]
  exact ⟨Nat.succ_pos _, Nat.pow_log_le_self 10 hne, Nat.lt_pow_succ_log_self (by decide) n⟩

/-- The place of the first digit. -/
theorem log_value {d : Decimal} (h : 0 < d.coefficient) :
    Int.log 10 d.value + 1 = d.digits.length + d.exponent := by
  obtain ⟨hpos, hle, hlt⟩ := length_intRepr h
  change 0 < d.digits.length at hpos
  have hten : (0 : ℚ) < 10 := by norm_num
  have hscale : (0 : ℚ) < 10 ^ d.exponent := zpow_pos hten _
  have hlow : (10 : ℚ) ^ ((d.digits.length : ℤ) - 1 + d.exponent) ≤ d.value := by
    rw [zpow_add₀ hten.ne', value]
    refine mul_le_mul_of_nonneg_right ?_ hscale.le
    have hcast : (10 : ℚ) ^ (d.digits.length - 1) ≤ d.coefficient := by exact_mod_cast hle
    rw [← Nat.cast_pred hpos, zpow_natCast]
    exact hcast
  have hhigh : d.value < (10 : ℚ) ^ ((d.digits.length : ℤ) + d.exponent) := by
    rw [zpow_add₀ hten.ne', value]
    refine mul_lt_mul_of_pos_right ?_ hscale
    rw [zpow_natCast]
    exact_mod_cast hlt
  have hge : (d.digits.length : ℤ) - 1 + d.exponent ≤ Int.log 10 d.value :=
    (Int.zpow_le_iff_le_log (show 1 < 10 by decide) (value_pos h)).mp (by exact_mod_cast hlow)
  have hlog : Int.log 10 d.value < (d.digits.length : ℤ) + d.exponent :=
    (Int.lt_zpow_iff_log_lt (show 1 < 10 by decide) (value_pos h)).mp (by exact_mod_cast hhigh)
  omega

/-- The place of the last digit of a result near a positive number. -/
def lastPlace (q : ℚ) : ℤ := max (Int.log 10 q + 1 - precision) tinyExponent

/-! ### Results -/

/-- A result is nearest to the exact one. -/
theorem nearestEven_fix {d r : Decimal} (hpos : 0 < d.coefficient) (h : fix d = .ok r) :
    NearestEven (10 ^ lastPlace d.value) d.value r.value := by
  have hten : (10 : ℚ) ≠ 0 := by norm_num
  have hplace : lastPlace d.value =
      max (d.digits.length + d.exponent - precision) tinyExponent := by
    rw [lastPlace, log_value hpos]
  obtain ⟨least, hleast⟩ : ∃ least, least = lastPlace d.value := ⟨_, rfl⟩
  rw [← hleast] at hplace ⊢
  unfold fix at h
  rw [if_neg hpos.ne'] at h
  dsimp only at h
  rw [← hplace] at h
  obtain ⟨-, -, hdigits⟩ := length_intRepr hpos
  obtain ⟨unit, hunit⟩ : ∃ unit, unit = 10 ^ (least - d.exponent).toNat := ⟨_, rfl⟩
  have hunitPos : 0 < unit := by
    rw [hunit]
    positivity
  rw [← hunit] at h
  have hrounded : least > d.exponent → NearestEven (10 ^ least) d.value
      (roundHalfEven d.coefficient unit * 10 ^ least) := by
    intro hgt
    have hscale : (unit : ℚ) * 10 ^ d.exponent = 10 ^ least := by
      rw [hunit, Nat.cast_pow, Nat.cast_ofNat, ← zpow_natCast (10 : ℚ),
        Int.toNat_of_nonneg (by omega), ← zpow_add₀ hten, sub_add_cancel]
    have hnearest := (NearestEven.of_roundHalfEven d.coefficient hunitPos).mul
      (zpow_pos (by norm_num : (0 : ℚ) < 10) d.exponent)
    rwa [mul_assoc, hscale] at hnearest
  split_ifs at h with htop hexact hfits htop'
  · cases h
  · -- the digits are all kept
    cases h
    have hmultiple : d.value = ((d.coefficient * 10 ^ (d.exponent - least).toNat : ℕ) : ℤ) *
        (10 : ℚ) ^ least := by
      push_cast
      rw [value, ← zpow_natCast (10 : ℚ) (d.exponent - least).toNat, Int.toNat_of_nonneg (by omega),
        mul_assoc, ← zpow_add₀ hten, sub_add_cancel]
    rw [hmultiple]
    exact .of_multiple (zpow_pos (by norm_num) _) _
  · cases h
    exact hrounded (not_le.mp hexact)
  · cases h
  · cases h
    -- the digits were nines
    have hle : roundHalfEven d.coefficient unit ≤ 10 ^ precision := by
      apply roundHalfEven_le hunitPos
      have hexponent : d.digits.length ≤ precision + (least - d.exponent).toNat := by
        have hmax := le_max_left ((d.digits.length : ℤ) + d.exponent - precision) tinyExponent
        omega
      calc d.coefficient ≤ 10 ^ d.digits.length := hdigits.le
        _ ≤ 10 ^ (precision + (least - d.exponent).toNat) :=
          Nat.pow_le_pow_right (by decide) hexponent
        _ = 10 ^ precision * unit := by rw [hunit, Nat.pow_add]
    have heq : roundHalfEven d.coefficient unit = 10 ^ precision :=
      le_antisymm hle (not_lt.mp hfits)
    have hvalue : (⟨roundHalfEven d.coefficient unit / 10, least + 1⟩ : Decimal).value =
        roundHalfEven d.coefficient unit * 10 ^ least := by
      rw [value, heq, zpow_add_one₀ hten]
      norm_num [precision]
      ring
    rw [hvalue]
    exact hrounded (not_le.mp hexact)

/-- A number with few digits before its point does not overflow. -/
theorem exists_fix {d : Decimal} (hpos : 0 < d.coefficient)
    (hle : Int.log 10 d.value < maxExponent) :
    ∃ r, fix d = .ok r := by
  have hlog : (d.digits.length : ℤ) + d.exponent ≤ maxExponent := by
    have := log_value hpos
    omega
  simp only [maxExponent] at hlog
  unfold fix
  rw [if_neg hpos.ne']
  dsimp only
  have hleast : ¬topExponent < (d.digits.length : ℤ) + d.exponent - precision := by
    simp only [topExponent, maxExponent, precision]
    omega
  have hnext : ¬topExponent <
      max ((d.digits.length : ℤ) + d.exponent - precision) tinyExponent + 1 := by
    simp only [topExponent, tinyExponent, maxExponent, precision]
    omega
  rw [if_neg hleast, if_neg hnext]
  split_ifs
  · exact ⟨_, rfl⟩
  · exact ⟨_, rfl⟩
  · exact ⟨_, rfl⟩

/-! ### Quotients -/

/-- Removing zeros changes no value. -/
theorem value_stripZeros (count : ℕ) (d : Decimal) : (stripZeros count d).value = d.value := by
  induction count generalizing d with
  | zero => rfl
  | succ count ih =>
    rw [stripZeros]
    split_ifs with hzero
    · rw [ih, value, value, zpow_add_one₀ (by norm_num)]
      have hcast : (d.coefficient : ℚ) = (d.coefficient / 10 : ℕ) * 10 := by
        exact_mod_cast (Nat.div_mul_cancel (Nat.dvd_of_mod_eq_zero hzero)).symm
      rw [hcast]
      ring
    · rfl

theorem coefficient_stripZeros_pos {count : ℕ} {d : Decimal} (h : 0 < d.coefficient) :
    0 < (stripZeros count d).coefficient := by
  by_contra hzero
  have hvalue := value_stripZeros count d
  rw [value, Nat.eq_zero_of_not_pos hzero, Nat.cast_zero, zero_mul] at hvalue
  exact absurd (value_pos h) (by rw [← hvalue]; exact lt_irrefl 0)

/-- What `div` divides has one digit more than a result, or two. -/
theorem exists_scaled (d : Decimal) {n : ℕ} (hd : 0 < d.coefficient) (hn : 0 < n) :
    ∃ (shift : ℤ) (numerator denominator : ℕ),
      shift = (intRepr n).length - d.digits.length + precision + 1 ∧
      numerator = d.coefficient * 10 ^ shift.toNat ∧ denominator = n * 10 ^ (-shift).toNat ∧
      0 < denominator ∧ 10 ^ precision * denominator ≤ numerator ∧
      d.value / n = numerator / denominator * 10 ^ (d.exponent - shift) := by
  obtain ⟨hlength, hlow, -⟩ := length_intRepr hd
  obtain ⟨-, -, hhigh⟩ := length_intRepr hn
  obtain ⟨shift, hshift⟩ : ∃ shift : ℤ,
    shift = (intRepr n).length - d.digits.length + precision + 1 := ⟨_, rfl⟩
  change 0 < d.digits.length at hlength
  change 10 ^ (d.digits.length - 1) ≤ d.coefficient at hlow
  refine ⟨shift, _, _, hshift, rfl, rfl, by positivity, ?_, ?_⟩
  · calc 10 ^ precision * (n * 10 ^ (-shift).toNat)
        ≤ 10 ^ precision * (10 ^ (intRepr n).length * 10 ^ (-shift).toNat) := by gcongr
      _ = 10 ^ (precision + (intRepr n).length + (-shift).toNat) := by ring
      _ = 10 ^ (d.digits.length - 1 + shift.toNat) := by
        congr 1
        omega
      _ = 10 ^ (d.digits.length - 1) * 10 ^ shift.toNat := by ring
      _ ≤ d.coefficient * 10 ^ shift.toNat := Nat.mul_le_mul_right _ hlow
  · have hten : (10 : ℚ) ≠ 0 := by norm_num
    have hne : (n : ℚ) ≠ 0 := by exact_mod_cast hn.ne'
    have hpowers : (10 : ℚ) ^ shift.toNat = 10 ^ shift * 10 ^ (-shift).toNat := by
      rw [← zpow_natCast, ← zpow_natCast, ← zpow_add₀ hten]
      congr 1
      omega
    push_cast
    rw [value, hpowers, zpow_sub₀ hten]
    field_simp

/-- The digits of a quotient, the last of which says whether something follows. -/
theorem abs_sub_sticky_lt {numerator denominator : ℕ} (hd : 0 < denominator)
    (hrest : numerator % denominator ≠ 0) :
    |(numerator : ℚ) / denominator - (if numerator / denominator % 5 = 0
      then numerator / denominator + 1 else numerator / denominator : ℕ)| < 1 := by
  have hpos : (0 : ℚ) < denominator := by exact_mod_cast hd
  have hlow : ((numerator / denominator : ℕ) : ℚ) < (numerator : ℚ) / denominator := by
    rw [lt_div_iff₀ hpos]
    have hlt : numerator / denominator * denominator < numerator := by
      have := Nat.div_add_mod' numerator denominator
      omega
    exact_mod_cast hlt
  have hhigh : (numerator : ℚ) / denominator < (numerator / denominator : ℕ) + 1 := by
    rw [div_lt_iff₀ hpos]
    have hlt : numerator < (numerator / denominator + 1) * denominator := by
      have := Nat.div_add_mod' numerator denominator
      have := Nat.mod_lt numerator hd
      rw [Nat.add_mul]
      omega
    exact_mod_cast hlt
  split_ifs
  · rw [abs_lt]
    push_cast
    constructor
    · linarith
    · linarith
  · rw [abs_lt]
    constructor
    · linarith
    · linarith

theorem log_mul_zpow {x : ℚ} (hx : 0 < x) (k : ℤ) : Int.log 10 (x * 10 ^ k) = Int.log 10 x + k := by
  have hten : (0 : ℚ) < 10 := by norm_num
  have hone : 1 < 10 := by decide
  have hscale : (0 : ℚ) < 10 ^ k := zpow_pos hten k
  apply eq_of_forall_le_iff
  intro z
  have hleft := Int.zpow_le_iff_le_log (R := ℚ) hone (x := z) (mul_pos hx hscale)
  have hright := Int.zpow_le_iff_le_log (R := ℚ) hone (x := z - k) hx
  rw [← hleft, ← sub_le_iff_le_add, ← hright, zpow_sub₀ (by exact_mod_cast hten.ne'),
    Nat.cast_ofNat, div_le_iff₀ hscale]

/-- The last digit changes no other. -/
theorem log_sticky {c : ℕ} (hc : 0 < c) :
    Nat.log 10 (if c % 5 = 0 then c + 1 else c) = Nat.log 10 c := by
  split_ifs with hfive
  · apply le_antisymm
    · have hpow := Nat.pow_log_le_self 10 (Nat.succ_ne_zero c)
      apply Nat.le_log_of_pow_le (by decide)
      rcases hpow.lt_or_eq with hlt | heq
      · exact Nat.le_of_lt_succ hlt
      · -- a power of ten is no multiple of 5 and 1
        exfalso
        cases hlog : Nat.log 10 (c + 1) with
        | zero =>
          rw [hlog] at heq
          omega
        | succ k =>
          rw [hlog, Nat.pow_succ] at heq
          omega
    · exact Nat.log_mono_right (Nat.le_succ c)
  · rfl

/-- A quotient is a number, rounded, whose digits say on which side of it the exact one is. -/
theorem exists_fix_eq_div {d : Decimal} {n : ℕ} (hd : 0 < d.coefficient) (hn : 0 < n) :
    ∃ x, d.div n = fix x ∧ 0 < x.coefficient ∧ Int.log 10 x.value = Int.log 10 (d.value / n) ∧
      ∀ r, NearestEven (10 ^ lastPlace (d.value / n)) x.value r →
        NearestEven (10 ^ lastPlace (d.value / n)) (d.value / n) r := by
  obtain ⟨shift, numerator, denominator, hshift, hnumerator, hdenominator, hpos, hscaled,
    hquotient⟩ :=
    exists_scaled d hd hn
  have hlarge : 10 ^ precision ≤ numerator / denominator :=
    (Nat.le_div_iff_mul_le hpos).mpr hscaled
  have hlargePos : 0 < numerator / denominator := lt_of_lt_of_le (by positivity) hlarge
  unfold div
  rw [if_neg hd.ne']
  dsimp only
  rw [← hshift, ← hnumerator, ← hdenominator]
  by_cases hexact : numerator % denominator = 0
  · -- nothing is left over, and the zeros at the end go
    rw [if_pos hexact]
    have hvalue : (stripZeros (d.exponent - (d.exponent - shift)).toNat
        ⟨numerator / denominator, d.exponent - shift⟩).value = d.value / n := by
      rw [value_stripZeros, hquotient, value, Nat.cast_div (Nat.dvd_of_mod_eq_zero hexact)
        (by exact_mod_cast hpos.ne')]
    exact ⟨_, rfl, coefficient_stripZeros_pos hlargePos, by rw [hvalue],
      fun r hr => by rwa [hvalue] at hr⟩
  · rw [if_neg hexact]
    obtain ⟨c, hc⟩ : ∃ c, c = if numerator / denominator % 5 = 0 then numerator / denominator + 1
      else numerator / denominator := ⟨_, rfl⟩
    have hnear := abs_sub_sticky_lt hpos hexact
    have hsticky : c % 5 ≠ 0 := by
      rw [hc]
      split_ifs <;> omega
    have hcPos : 0 < c := by
      rw [hc]
      split_ifs <;> omega
    rw [← hc] at hnear ⊢
    have hten : (0 : ℚ) < 10 := by norm_num
    have hone : (1 : ℚ) ≤ numerator / denominator := by
      rw [one_le_div (by exact_mod_cast hpos)]
      exact_mod_cast (Nat.le_mul_of_pos_left denominator (by positivity)).trans hscaled
    have hxPos : (0 : ℚ) < numerator / denominator := lt_of_lt_of_le one_pos hone
    -- the quotient and its digits have the same places
    have hlogs : Int.log 10 (c : ℚ) = Int.log 10 ((numerator : ℚ) / denominator) := by
      rw [Int.log_natCast, Int.log_of_one_le_right 10 hone, Nat.floor_div_eq_div, hc,
        log_sticky hlargePos]
    have hplace : Int.log 10 (⟨c, d.exponent - shift⟩ : Decimal).value =
        Int.log 10 (d.value / n) := by
      rw [hquotient, value, log_mul_zpow hxPos, log_mul_zpow (by exact_mod_cast hcPos), hlogs]
    refine ⟨_, rfl, hcPos, hplace, fun r hfixed => ?_⟩
    -- in units of the last digit of the quotient
    obtain ⟨e, he⟩ : ∃ e, e = d.exponent - shift := ⟨_, rfl⟩
    obtain ⟨place, hplaced⟩ : ∃ place, place = lastPlace (d.value / n) := ⟨_, rfl⟩
    rw [← he] at hfixed hquotient
    rw [← hplaced] at hfixed ⊢
    have hbelow : e + 1 ≤ place := by
      have hdigits : (precision : ℤ) ≤ Int.log 10 ((numerator : ℚ) / denominator) := by
        rw [← hlogs, Int.log_natCast]
        have hle : precision ≤ Nat.log 10 c :=
          Nat.le_log_of_pow_le (by decide) (hlarge.trans (by rw [hc]; split_ifs <;> omega))
        exact_mod_cast hle
      rw [hplaced, lastPlace, hquotient, log_mul_zpow hxPos]
      exact le_max_of_le_left (by omega)
    have hunit : (10 : ℚ) ^ place * 10 ^ (-e) = (10 * 10 ^ (place - e - 1).toNat : ℕ) := by
      push_cast
      rw [← zpow_add₀ hten.ne', ← zpow_natCast (10 : ℚ), Int.toNat_of_nonneg (by omega),
        ← zpow_one_add₀ hten.ne']
      congr 1
      omega
    have hcancel : (10 : ℚ) ^ e * 10 ^ (-e) = 1 := by
      rw [← zpow_add₀ hten.ne', add_neg_cancel, zpow_zero]
    have hscaledDown := hfixed.mul (zpow_pos hten (-e))
    rw [hunit, value, mul_assoc, hcancel, mul_one] at hscaledDown
    have hjammed := (hscaledDown.of_sticky hsticky hnear).mul (zpow_pos hten e)
    rw [← hunit, mul_assoc, mul_comm (10 ^ (-e) : ℚ), hcancel, mul_one, ← hquotient, mul_assoc,
      mul_comm (10 ^ (-e) : ℚ), hcancel, mul_one] at hjammed
    exact hjammed

/-- A quotient is nearest to the exact one. -/
theorem nearestEven_div {d r : Decimal} {n : ℕ} (hd : 0 < d.coefficient) (hn : 0 < n)
    (h : d.div n = .ok r) : NearestEven (10 ^ lastPlace (d.value / n)) (d.value / n) r.value := by
  obtain ⟨x, hdiv, hpos, hlog, hnearest⟩ := exists_fix_eq_div hd hn
  have hfixed := nearestEven_fix hpos (hdiv ▸ h)
  rw [lastPlace, hlog, ← lastPlace] at hfixed
  exact hnearest r.value hfixed

/-- A quotient with few digits before its point does not overflow. -/
theorem exists_div {d : Decimal} {n : ℕ} (hd : 0 < d.coefficient) (hn : 0 < n)
    (hle : Int.log 10 (d.value / n) < maxExponent) : ∃ r, d.div n = .ok r := by
  obtain ⟨x, hdiv, hpos, hlog, -⟩ := exists_fix_eq_div hd hn
  rw [hdiv]
  exact exists_fix hpos (hlog ▸ hle)

end Decimal

end Python
