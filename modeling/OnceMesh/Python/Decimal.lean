import Mathlib.Data.Rat.Defs
import OnceMesh.Python.Json

/-!
# Decimal numbers

`decimal.Decimal` for finite numbers that are not negative, in the default context: results have 28
significant digits, ties to even, and an overflow raises. Comparisons and the constructor are exact.
-/

namespace Python

/-- `coefficient · 10 ^ exponent`. Zeros at the end of the coefficient count. -/
structure Decimal where
  coefficient : ℕ
  exponent : ℤ
  deriving DecidableEq, Repr

namespace Decimal

/-- The number. -/
def value (d : Decimal) : ℚ := d.coefficient * 10 ^ d.exponent

/-- Decimals are compared as numbers. -/
instance : LE Decimal := ⟨fun a b => a.value ≤ b.value⟩

instance (a b : Decimal) : Decidable (a ≤ b) := inferInstanceAs (Decidable (a.value ≤ b.value))

theorem le_def {a b : Decimal} : a ≤ b ↔ a.value ≤ b.value := Iff.rfl

/-- `Decimal(n)`. -/
def ofNat (n : ℕ) : Decimal := ⟨n, 0⟩

/-- The digits of the coefficient. -/
def digits (d : Decimal) : Str := intRepr d.coefficient

/-! ### Texts -/

/-- `Decimal(text)` for a text `digits[.digits][E[sign]digits]`. -/
def ofText? (text : Str) : Option Decimal :=
  let whole := text.takeWhile isDigit
  let rest := text.dropWhile isDigit
  let fraction := if rest.head? = some 0x2E then rest.tail.takeWhile isDigit else []
  let rest := if rest.head? = some 0x2E then rest.tail.dropWhile isDigit else rest
  let number (exponent : ℤ) : Option Decimal :=
    if whole ++ fraction = [] then none
    else some ⟨Json.natOfDigits (whole ++ fraction), exponent - fraction.length⟩
  match rest with
  | [] => number 0
  | 0x45 :: sign :: power =>
    if power = [] ∨ !power.all isDigit then none
    else if sign = 0x2B then number (Json.natOfDigits power)
    else if sign = 0x2D then number (-Json.natOfDigits power)
    else none
  | _ => none

/-- `format(d, "f")`. -/
def toFixed (d : Decimal) : Str :=
  let digits := if d.coefficient = 0 ∧ 0 < d.exponent then lit "0" else d.digits
  let exponent := if d.coefficient = 0 ∧ 0 < d.exponent then 0 else d.exponent
  let left := exponent + digits.length
  if left < 0 then lit "0." ++ List.replicate (-left).toNat 0x30 ++ digits
  else
    let whole := digits.take left.toNat ++ List.replicate (left.toNat - digits.length) 0x30
    let fraction := digits.drop left.toNat
    (if whole = [] then lit "0" else whole) ++ if fraction = [] then [] else lit "." ++ fraction

/-- `str(d)`. -/
def toText (d : Decimal) : Str :=
  let left := d.exponent + d.digits.length
  -- the point stays in reach of the digits, or goes after the first
  let point : ℤ := if d.exponent ≤ 0 ∧ -6 < left then left else 1
  (if point ≤ 0 then lit "0." ++ List.replicate (-point).toNat 0x30 ++ d.digits
    else
      d.digits.take point.toNat ++ List.replicate (point.toNat - d.digits.length) 0x30 ++
        let fraction := d.digits.drop point.toNat
        if fraction = [] then [] else lit "." ++ fraction) ++
    if left = point then []
    else lit "E" ++ (if left < point then [] else lit "+") ++ intRepr (left - point)

/-! ### Arithmetic -/

/-- The significant digits of a result. -/
def precision : ℕ := 28

/-- `Emax`. -/
def maxExponent : ℤ := 999999

/-- `Etop`: the largest exponent of a coefficient with all the digits. -/
def topExponent : ℤ := maxExponent - precision + 1

/-- `Etiny`. -/
def tinyExponent : ℤ := -maxExponent - precision + 1

/-- `decimal.Overflow`. -/
def overflow {α : Type} : Except PyError α := .error (.other (lit "Overflow") (lit "above Emax"))

/-- `_fix`: a result in the default context. -/
def fix (d : Decimal) : Except PyError Decimal :=
  if d.coefficient = 0 then .ok ⟨0, min (max d.exponent tinyExponent) maxExponent⟩
  else
    let least : ℤ := d.digits.length + d.exponent - precision
    if topExponent < least then overflow
    else
      let least := max least tinyExponent
      if least ≤ d.exponent then .ok d
      else
        let rounded := roundHalfEven d.coefficient (10 ^ (least - d.exponent).toNat)
        -- rounding up can give one digit more, which is a zero
        if rounded < 10 ^ precision then .ok ⟨rounded, least⟩
        else if topExponent < least + 1 then overflow
        else .ok ⟨rounded / 10, least + 1⟩

/-- `a + b`. -/
def add (a b : Decimal) : Except PyError Decimal :=
  let least := min a.exponent b.exponent
  fix ⟨a.coefficient * 10 ^ (a.exponent - least).toNat +
    b.coefficient * 10 ^ (b.exponent - least).toNat, least⟩

/-- `sum(ds, Decimal(0))`. -/
def sum (ds : List Decimal) : Except PyError Decimal := ds.foldlM add (ofNat 0)

/-- Removes zeros at the end of a coefficient, up to a number of them. -/
def stripZeros : ℕ → Decimal → Decimal
  | 0, d => d
  | count + 1, d =>
    if d.coefficient % 10 = 0 then stripZeros count ⟨d.coefficient / 10, d.exponent + 1⟩ else d

/-- `d / n` for a positive integer. -/
def div (d : Decimal) (n : ℕ) : Except PyError Decimal :=
  if d.coefficient = 0 then fix d
  else
    let shift : ℤ := (intRepr n).length - d.digits.length + precision + 1
    let numerator := d.coefficient * 10 ^ shift.toNat
    let denominator := n * 10 ^ (-shift).toNat
    let quotient := numerator / denominator
    let exponent := d.exponent - shift
    if numerator % denominator = 0 then
      fix (stripZeros (d.exponent - exponent).toNat ⟨quotient, exponent⟩)
    else fix ⟨if quotient % 5 = 0 then quotient + 1 else quotient, exponent⟩

example :
    (div ⟨2, 0⟩ 3).map toText = .ok (lit "0.6666666666666666666666666667") := by decide +kernel

example : ((sum [⟨15, -1⟩, ⟨150, -2⟩]).map toFixed) = .ok (lit "3.00") := by decide +kernel

end Decimal

end Python
