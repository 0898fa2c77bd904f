import Mathlib.Algebra.Group.Int.Defs
import Mathlib.Algebra.Group.Nat.Defs
import Mathlib.Data.Nat.Log

/-!
# Binary64 literals

The value a decimal literal denotes as a Python `float`: the nearest binary64 number, ties to
even, with gradual underflow and overflow to infinity.
-/

namespace Python

/-- A Python `float`: `±mantissa · 2 ^ exponent`, an infinity, or not a number. -/
inductive PyFloat where
  | finite (negative : Bool) (mantissa : ℕ) (exponent : ℤ)
  | infinity (negative : Bool)
  | nan
  deriving DecidableEq, Repr

/-- `numerator / denominator` rounded to an integer, ties to even. -/
def roundHalfEven (numerator denominator : ℕ) : ℕ :=
  let q := numerator / denominator
  let r := numerator % denominator
  if 2 * r < denominator then q
  else if 2 * r > denominator then q + 1
  else if q % 2 = 0 then q else q + 1

/-- `⌊log₂ (numerator / denominator)⌋` of a positive fraction. -/
def floorLog2 (numerator denominator : ℕ) : ℤ :=
  let k : ℤ := (Nat.log2 numerator : ℤ) - Nat.log2 denominator
  let below : Bool :=
    if 0 ≤ k then numerator < denominator * 2 ^ k.toNat
    else numerator * 2 ^ (-k).toNat < denominator
  if below then k - 1 else k

/-- The binary64 number nearest to `±numerator / denominator`. -/
def PyFloat.ofFraction (negative : Bool) (numerator denominator : ℕ) : PyFloat :=
  if numerator = 0 then .finite negative 0 0
  else
    let e : ℤ := max (floorLog2 numerator denominator - 52) (-1074)
    let m :=
      if 0 ≤ e then roundHalfEven numerator (denominator * 2 ^ e.toNat)
      else roundHalfEven (numerator * 2 ^ (-e).toNat) denominator
    if (m : ℤ) * 2 ^ (e + 1074).toNat ≥ 2 ^ (1024 + 1074) then .infinity negative
    else .finite negative m e

/-- The value of the literal `±digits · 10 ^ exponent`. -/
def PyFloat.ofDecimal (negative : Bool) (digits : ℕ) (exponent : ℤ) : PyFloat :=
  if 0 ≤ exponent then .ofFraction negative (digits * 10 ^ exponent.toNat) 1
  else .ofFraction negative digits (10 ^ (-exponent).toNat)

/-- `bool(x)`: false at zero only. -/
def PyFloat.truthy : PyFloat → Bool
  | .finite _ mantissa _ => mantissa ≠ 0
  | _ => true

/-- `x == n` for an integer `n`. -/
def PyFloat.eqInt (x : PyFloat) (n : ℤ) : Bool :=
  match x with
  | .finite negative mantissa exponent =>
    let m : ℤ := if negative then -mantissa else mantissa
    if 0 ≤ exponent then m * 2 ^ exponent.toNat = n else m = n * 2 ^ (-exponent).toNat
  | _ => false

end Python
