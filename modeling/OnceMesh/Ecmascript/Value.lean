import Mathlib.Data.List.Sort
import OnceMesh.Ecmascript.Text
import OnceMesh.Python.Error

/-!
# ECMAScript values

The values `JSON.parse` returns, and what a serializer asks of them: whether a number is an
integer, `JSON.stringify` of a string, the keys of an object in the order `Object.keys` gives
them, and `Array.prototype.sort` with a comparison that may throw. A `Number` is a binary64
value, as a Python `float` is.
-/

namespace Ecmascript

open Python

/-! ### Numbers -/

/-- An ECMAScript `Number`. -/
abbrev Number := PyFloat

/-- An integer with a sign. -/
def signed (negative : Bool) (n : ℕ) : ℤ := if negative then -n else n

/-- The integer a number is, if it is one; both zeros are `0`. -/
def integerValue? : Number → Option ℤ
  | .finite negative mantissa exponent =>
    if 0 ≤ exponent then some (signed negative (mantissa * 2 ^ exponent.toNat))
    else if mantissa % 2 ^ (-exponent).toNat = 0 then
      some (signed negative (mantissa / 2 ^ (-exponent).toNat))
    else none
  | .infinity _ | .nan => none

/-- `Number.isInteger`. -/
def isInteger (x : Number) : Bool := (integerValue? x).isSome

/-- `Number.isSafeInteger`. -/
def isSafeInteger (x : Number) : Bool :=
  (integerValue? x).any fun n => decide (n.natAbs ≤ 2 ^ 53 - 1)

/-- `String(x)` of a safe integer; the numbers it is not called on have no text. -/
def numberToString (x : Number) : JsString := encode (((integerValue? x).map intRepr).getD [])

/-- The number an integer literal denotes. -/
def ofInteger (negative : Bool) (n : ℕ) : Number := .ofFraction negative n 1

theorem natAbs_signed (negative : Bool) (n : ℕ) : (signed negative n).natAbs = n := by
  cases negative <;> simp [signed]

/-- `floorLog2` of a positive integer is its logarithm. -/
theorem floorLog2_one {n : ℕ} (hn : n ≠ 0) : floorLog2 n 1 = Nat.log2 n := by
  have hle := Nat.log2_self_le hn
  have hone : Nat.log2 1 = 0 := by decide
  simp [floorLog2, hone, hle]

theorem roundHalfEven_one (n : ℕ) : roundHalfEven n 1 = n := by
  simp [roundHalfEven, Nat.mod_one]

/-- A safe integer literal denotes itself. -/
theorem integerValue?_ofInteger {negative : Bool} {n : ℕ} (h : n ≤ 2 ^ 53 - 1) :
    integerValue? (ofInteger negative n) = some (signed negative n) := by
  rcases Nat.eq_zero_or_pos n with rfl | hpos
  · cases negative <;> rfl
  have hn : n ≠ 0 := by omega
  -- below `2 ^ 53` the exponent is not positive, and the mantissa is `n` scaled up exactly
  have hlog : Nat.log2 n < 53 := (Nat.log2_lt hn).mpr (by omega)
  obtain ⟨k, hk, hk52⟩ : ∃ k : ℕ, (max ((Nat.log2 n : ℤ) - 52) (-1074) : ℤ) = -(k : ℤ) ∧ k ≤ 52 :=
    ⟨52 - Nat.log2 n, by omega, by omega⟩
  have hm : (if (0 : ℤ) ≤ -(k : ℤ) then roundHalfEven n (1 * 2 ^ (-(k : ℤ)).toNat)
      else roundHalfEven (n * 2 ^ (- -(k : ℤ)).toNat) 1) = n * 2 ^ k := by
    split_ifs with hzero
    · have : k = 0 := by omega
      subst this
      simp [roundHalfEven_one]
    · simp [roundHalfEven_one]
  have hsmall : ¬((n * 2 ^ k : ℕ) : ℤ) * 2 ^ (-(k : ℤ) + 1074).toNat ≥ 2 ^ (1024 + 1074) := by
    have hexp : (-(k : ℤ) + 1074).toNat = 1074 - k := by omega
    have hsafe : ∀ a, n * 2 ^ a < 2 ^ (1024 + a) := fun a =>
      calc n * 2 ^ a < 2 ^ 53 * 2 ^ a := Nat.mul_lt_mul_of_pos_right (by omega) (by positivity)
        _ = 2 ^ (53 + a) := (pow_add 2 53 a).symm
        _ ≤ 2 ^ (1024 + a) := Nat.pow_le_pow_right (by omega) (by omega)
    have hscaled : ∀ a, k ≤ a → n * 2 ^ k * 2 ^ (a - k) < 2 ^ (1024 + a) := by
      intro a ha
      rw [mul_assoc, ← pow_add, Nat.add_sub_cancel' ha]
      exact hsafe a
    rw [hexp, not_le]
    exact_mod_cast hscaled 1074 (by omega)
  rw [ofInteger, PyFloat.ofFraction, if_neg hn, floorLog2_one hn]
  simp only [hk, hm, if_neg hsmall, integerValue?]
  split_ifs with hzero hdvd
  · have : k = 0 := by omega
    subst this
    simp
  · rw [neg_neg, Int.toNat_natCast, Nat.mul_div_cancel _ (by positivity)]
  · rw [neg_neg, Int.toNat_natCast] at hdvd
    exact absurd (Nat.mul_mod_left _ _) hdvd

/-- An integer literal out of the safe range denotes no safe integer. -/
theorem isSafeInteger_ofInteger {negative : Bool} {n : ℕ} (h : ¬n ≤ 2 ^ 53 - 1) :
    isSafeInteger (ofInteger negative n) = false := by
  have hn : n ≠ 0 := by omega
  have hlog : 53 ≤ Nat.log2 n := (Nat.le_log2 hn).mpr (by omega)
  obtain ⟨k, hk, hk1, hkn⟩ : ∃ k : ℕ, (max ((Nat.log2 n : ℤ) - 52) (-1074) : ℤ) = k ∧ 1 ≤ k ∧
      k + 52 = Nat.log2 n := ⟨Nat.log2 n - 52, by omega, by omega, by omega⟩
  have hm : 2 ^ 52 ≤ roundHalfEven n (1 * 2 ^ k) := by
    have hquot : 2 ^ 52 ≤ n / (1 * 2 ^ k) := by
      rw [one_mul, Nat.le_div_iff_mul_le (by positivity), ← pow_add, add_comm, hkn]
      exact Nat.log2_self_le hn
    simp only [roundHalfEven]
    split_ifs <;> omega
  rw [ofInteger, PyFloat.ofFraction, if_neg hn, floorLog2_one hn]
  simp only [hk, Nat.cast_nonneg, ↓reduceIte, Int.toNat_natCast]
  split_ifs
  · rfl
  · have hlarge : 2 ^ 53 ≤ roundHalfEven n (1 * 2 ^ k) * 2 ^ k :=
      calc 2 ^ 53 = 2 ^ 52 * 2 ^ 1 := by norm_num
        _ ≤ _ := Nat.mul_le_mul hm (Nat.pow_le_pow_right (by omega) hk1)
    simp only [isSafeInteger, integerValue?, Nat.cast_nonneg, ↓reduceIte, Int.toNat_natCast,
      Option.any_some, natAbs_signed, decide_eq_false_iff_not]
    omega

/-! ### Strings -/

/-- `\u` and four lowercase hexadecimal digits. -/
def unicodeEscape (c : CodePoint) : Str :=
  [Json.reverseSolidus, Json.letterU, hexDigit (c.val / 4096), hexDigit (c.val / 256),
    hexDigit (c.val / 16), hexDigit c.val]

/-- What `QuoteJSONString` writes for one code point: the table of short escapes, then numeric
escapes for the other control characters and for lone surrogates. -/
def escapePoint (c : CodePoint) : Str :=
  if c = 0x08 then [Json.reverseSolidus, 0x62]
  else if c = 0x09 then [Json.reverseSolidus, 0x74]
  else if c = 0x0A then [Json.reverseSolidus, 0x6E]
  else if c = 0x0C then [Json.reverseSolidus, 0x66]
  else if c = 0x0D then [Json.reverseSolidus, 0x72]
  else if c = 0x22 then [Json.reverseSolidus, 0x22]
  else if c = 0x5C then [Json.reverseSolidus, 0x5C]
  else if c.val < 0x20 ∨ isSurrogate c then unicodeEscape c
  else [c]

/-- `QuoteJSONString`. -/
def quoteJsonString (s : JsString) : JsString :=
  encode (Json.quotationMark :: (codePoints s).flatMap escapePoint ++ [Json.quotationMark])

/-- Outside the surrogates, both languages escape a code point alike. -/
theorem escapePoint_eq {c : CodePoint} (hc : isSurrogate c = false) :
    escapePoint c = Json.escapeChar c := by
  by_cases hshort : c ∈ ([0x08, 0x09, 0x0A, 0x0C, 0x0D, 0x22, 0x5C] : List CodePoint)
  · simp only [List.mem_cons, List.not_mem_nil, or_false] at hshort
    rcases hshort with rfl | rfl | rfl | rfl | rfl | rfl | rfl <;> rfl
  · simp only [List.mem_cons, List.not_mem_nil, or_false, not_or] at hshort
    obtain ⟨h₁, h₂, h₃, h₄, h₅, h₆, h₇⟩ := hshort
    simp only [escapePoint, Json.escapeChar, Json.quotationMark, Json.reverseSolidus, h₁, h₂, h₃,
      h₄, h₅, h₆, h₇, hc, ↓reduceIte, Bool.false_eq_true, or_false]
    split_ifs with hcontrol
    · have hhigh : c.val / 4096 = 0 ∧ c.val / 256 = 0 := by omega
      rw [unicodeEscape, hhigh.1, hhigh.2]
      rfl
    · rfl

/-- On text without surrogates `JSON.stringify` of a string is the UTF-16 form of what
`json.dumps` writes. -/
theorem quoteJsonString_eq {s : JsString} (h : ∀ c ∈ codePoints s, isSurrogate c = false) :
    quoteJsonString s = encode (Json.quote (codePoints s)) := by
  rw [quoteJsonString, Json.quote, List.flatMap_congr fun c hc => escapePoint_eq (h c hc)]

/-! ### Values -/

/-- A value of `JSON.parse`; an object keeps its own properties in the order they were made. -/
inductive JsValue where
  | null
  | boolean (b : Bool)
  | number (x : Number)
  | string (s : JsString)
  | array (items : List JsValue)
  | object (members : List (JsString × JsValue))

/-- The number of a key that is an array index: decimal, without a leading zero, at most
`2 ^ 32 - 2`. -/
def arrayIndex? (key : JsString) : Option ℕ :=
  let digits := codePoints key
  let n := Json.natOfDigits digits
  if digits ≠ [] ∧ digits.all isDigit ∧ (digits.head? = some 0x30 → digits.length = 1) ∧
    n < 2 ^ 32 - 1 then some n else none

/-- Array indices in ascending order. -/
def indexLE (a b : JsString) : Prop := (arrayIndex? a).getD 0 ≤ (arrayIndex? b).getD 0

instance : DecidableRel indexLE := fun a b =>
  inferInstanceAs (Decidable ((arrayIndex? a).getD 0 ≤ (arrayIndex? b).getD 0))

/-- `Object.keys`: the array indices in ascending order, then the other keys as they were made. -/
def objectKeys {α : Type} (members : List (JsString × α)) : List JsString :=
  let keys := members.map Prod.fst
  (keys.filter fun key => (arrayIndex? key).isSome).insertionSort indexLE ++
    keys.filter fun key => !(arrayIndex? key).isSome

theorem objectKeys_perm {α : Type} (members : List (JsString × α)) :
    (objectKeys members).Perm (members.map Prod.fst) :=
  ((List.perm_insertionSort _ _).append_right _).trans (List.filter_append_perm _ _)

/-! ### Arrays -/

section Arrays

variable {ε α β : Type}

variable (compare : α → α → Except ε ℤ)

/-- Puts `x` before the first element that does not come before it. -/
def insertBy (x : α) : List α → Except ε (List α)
  | [] => .ok [x]
  | y :: ys => do
    let order ← compare x y
    if order ≤ 0 then pure (x :: y :: ys)
    else do
      let rest ← insertBy x ys
      pure (y :: rest)

/-- `Array.prototype.sort` with a comparison that may throw. Which comparisons an engine makes is
its own choice; every element is compared once at least when there are two of them. -/
def sortBy : List α → Except ε (List α)
  | [] => .ok []
  | x :: xs => do
    let rest ← sortBy xs
    insertBy compare x rest

variable {compare} {r : α → α → Prop} [DecidableRel r]

theorem insertBy_eq_ok {x : α} {ys : List α}
    (h : ∀ y ∈ ys, ∃ order, compare x y = .ok order ∧ (order ≤ 0 ↔ r x y)) :
    insertBy compare x ys = .ok (ys.orderedInsert r x) := by
  induction ys with
  | nil => rfl
  | cons y ys ih =>
    rw [List.forall_mem_cons] at h
    obtain ⟨⟨order, horder, hr⟩, hys⟩ := h
    rw [insertBy, horder, Except.ok_bind, List.orderedInsert_cons, ih hys]
    by_cases hxy : r x y
    · rw [if_pos hxy, if_pos (hr.mpr hxy)]
      rfl
    · rw [if_neg hxy, if_neg (mt hr.mp hxy)]
      rfl

/-- Where the comparison never throws and answers as `r` does, the array is sorted by `r`. -/
theorem sortBy_eq_ok {xs : List α}
    (h : ∀ x ∈ xs, ∀ y ∈ xs, ∃ order, compare x y = .ok order ∧ (order ≤ 0 ↔ r x y)) :
    sortBy compare xs = .ok (xs.insertionSort r) := by
  induction xs with
  | nil => rfl
  | cons x xs ih =>
    have htail := ih fun y hy z hz => h y (List.mem_cons_of_mem _ hy) z (List.mem_cons_of_mem _ hz)
    rw [sortBy, htail, Except.ok_bind, List.insertionSort_cons]
    apply insertBy_eq_ok
    intro y hy
    exact h x List.mem_cons_self y
      (List.mem_cons_of_mem _ ((List.perm_insertionSort r xs).mem_iff.mp hy))

theorem insertBy_perm {x : α} {ys zs : List α} (h : insertBy compare x ys = .ok zs) :
    zs.Perm (x :: ys) := by
  induction ys generalizing zs with
  | nil =>
    cases h
    exact .refl _
  | cons y ys ih =>
    obtain ⟨order, -, h⟩ := Except.bind_eq_ok.mp h
    split at h
    · cases h
      exact .refl _
    · obtain ⟨rest, hrest, h⟩ := Except.bind_eq_ok.mp h
      cases h
      exact ((ih hrest).cons y).trans (.swap x y ys)

/-- Sorting loses nothing. -/
theorem sortBy_perm {xs zs : List α} (h : sortBy compare xs = .ok zs) : zs.Perm xs := by
  induction xs generalizing zs with
  | nil =>
    cases h
    exact .refl _
  | cons x xs ih =>
    obtain ⟨rest, hrest, h⟩ := Except.bind_eq_ok.mp h
    exact (insertBy_perm h).trans ((ih hrest).cons x)

end Arrays

end Ecmascript
