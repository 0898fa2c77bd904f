import Mathlib.Order.Lattice
import OnceMesh.Python.Text
import OnceMesh.Python.Error

/-!
# Python datetimes

A `DateTime` is an aware `datetime` in UTC, counted in microseconds from the first instant of
year 1. Dates are proleptic Gregorian; `toOrdinal` and `ofOrdinal` are `_ymd2ord` and
`_ord2ymd`, and `toOrdinal_ofOrdinal` says that the second inverts the first.
-/

namespace Python

/-! ### Calendar -/

/-- `_is_leap`. -/
def isLeap (year : ℕ) : Bool := year % 4 = 0 && (year % 100 ≠ 0 || year % 400 = 0)

/-- `_days_before_year`: the days of all years before `year`. -/
def daysBeforeYear (year : ℕ) : ℕ :=
  (year - 1) * 365 + (year - 1) / 4 - (year - 1) / 100 + (year - 1) / 400

/-- `_days_in_month`. -/
def daysInMonth (year month : ℕ) : ℕ :=
  if month = 2 then if isLeap year then 29 else 28
  else if month = 4 ∨ month = 6 ∨ month = 9 ∨ month = 11 then 30
  else 31

/-- `_days_before_month`: the days of the months of `year` before `month`. -/
def daysBeforeMonth (year month : ℕ) : ℕ :=
  ((List.range month).tail.map (daysInMonth year)).sum

/-- A calendar date. -/
structure Date where
  year : ℕ
  month : ℕ
  day : ℕ
  deriving DecidableEq, Repr

/-- `_check_date_fields`. -/
def Date.Valid (d : Date) : Prop :=
  1 ≤ d.year ∧ d.year ≤ 9999 ∧ 1 ≤ d.month ∧ d.month ≤ 12 ∧ 1 ≤ d.day ∧
    d.day ≤ daysInMonth d.year d.month

instance (d : Date) : Decidable d.Valid := by
  unfold Date.Valid
  infer_instance

/-- `_ymd2ord`: day 1 is the first day of year 1. -/
def Date.toOrdinal (d : Date) : ℕ :=
  daysBeforeYear d.year + daysBeforeMonth d.year d.month + d.day

/-- The ordinal of the last day of year 9999. -/
def maxOrdinal : ℕ := 3652059

/-- The year of a day: the last one that starts before it. -/
def yearOfOrdinal (n : ℕ) : ℕ :=
  Nat.findGreatest (fun y => daysBeforeYear y < n) (n / 365 + 1)

/-- The month of the `n`-th day of a year: the last one that starts before it. -/
def monthOfDay (year n : ℕ) : ℕ :=
  Nat.findGreatest (fun m => daysBeforeMonth year m < n) 12

/-- `_ord2ymd`. -/
def Date.ofOrdinal (n : ℕ) : Date :=
  let year := yearOfOrdinal n
  let dayOfYear := n - daysBeforeYear year
  let month := monthOfDay year dayOfYear
  ⟨year, month, dayOfYear - daysBeforeMonth year month⟩

/-- The leap days up to a year: one more in a leap year. -/
theorem leapDays_succ (y : ℕ) :
    (y + 1) / 4 - (y + 1) / 100 + (y + 1) / 400 =
      y / 4 - y / 100 + y / 400 + if isLeap (y + 1) then 1 else 0 := by
  have hle : y / 100 ≤ y / 4 := by omega
  have h₁ : (y + 1) % 400 = 0 → (y + 1) % 100 = 0 := by omega
  have h₂ : (y + 1) % 100 = 0 → (y + 1) % 4 = 0 := by omega
  rw [Nat.succ_div, Nat.succ_div, Nat.succ_div]
  simp only [Nat.dvd_iff_mod_eq_zero, isLeap, Bool.and_eq_true, Bool.or_eq_true,
    decide_eq_true_eq]
  by_cases h4 : (y + 1) % 4 = 0
  · by_cases h100 : (y + 1) % 100 = 0
    · by_cases h400 : (y + 1) % 400 = 0
      · simp only [h4, h100, h400, ↓reduceIte, ne_eq, not_true_eq_false, or_true, and_self]
        omega
      · simp only [h4, h100, h400, ↓reduceIte, ne_eq, not_true_eq_false, or_self, and_false]
        omega
    · have h400 : ¬(y + 1) % 400 = 0 := fun h => h100 (h₁ h)
      simp only [h4, h100, h400, ↓reduceIte, ne_eq, not_false_eq_true, true_or, and_self]
      omega
  · have h100 : ¬(y + 1) % 100 = 0 := fun h => h4 (h₂ h)
    have h400 : ¬(y + 1) % 400 = 0 := fun h => h100 (h₁ h)
    simp only [h4, h100, h400, ↓reduceIte, false_and]
    omega

/-- The years follow each other without a gap. -/
theorem daysBeforeYear_succ {year : ℕ} (h : 1 ≤ year) :
    daysBeforeYear (year + 1) = daysBeforeYear year + if isLeap year then 366 else 365 := by
  obtain ⟨y, rfl⟩ : ∃ y, year = y + 1 := ⟨year - 1, by omega⟩
  have hleap := leapDays_succ y
  have h₁ : y / 100 ≤ y / 4 := by omega
  have h₂ : (y + 1) / 100 ≤ (y + 1) / 4 := by omega
  simp only [daysBeforeYear, Nat.add_sub_cancel]
  split_ifs at hleap ⊢ <;> omega

/-- A year starts before the day it is found for, and the next one does not. -/
theorem yearOfOrdinal_spec {n : ℕ} (h : 1 ≤ n) :
    1 ≤ yearOfOrdinal n ∧ daysBeforeYear (yearOfOrdinal n) < n ∧
      n ≤ daysBeforeYear (yearOfOrdinal n + 1) := by
  have hone : daysBeforeYear 1 < n := h
  have hle : 1 ≤ yearOfOrdinal n := Nat.le_findGreatest (by omega) hone
  refine ⟨hle, Nat.findGreatest_spec (P := fun y => daysBeforeYear y < n) (by omega) hone, ?_⟩
  by_contra hlt
  rcases Nat.lt_or_ge (n / 365 + 1) (yearOfOrdinal n + 1) with hbig | hsmall
  · -- past the search bound, a year starts after the day
    have hstart : n ≤ daysBeforeYear (yearOfOrdinal n + 1) := by
      unfold daysBeforeYear
      omega
    exact hlt hstart
  · exact Nat.findGreatest_is_greatest (Nat.lt_succ_self _) hsmall (not_le.mp hlt)

/-- The days before each month of a common and of a leap year. -/
theorem daysBeforeMonth_thirteen (year : ℕ) :
    daysBeforeMonth year 13 = if isLeap year then 366 else 365 := by
  cases h : isLeap year <;> simp [daysBeforeMonth, daysInMonth, h, List.range_succ]

/-- The months follow each other without a gap. -/
theorem daysBeforeMonth_succ (year : ℕ) {month : ℕ} (h : 1 ≤ month) :
    daysBeforeMonth year (month + 1) = daysBeforeMonth year month + daysInMonth year month := by
  obtain ⟨m, rfl⟩ : ∃ m, month = m + 1 := ⟨month - 1, by omega⟩
  rw [daysBeforeMonth, daysBeforeMonth, List.range_succ (n := m + 1), List.tail_append_of_ne_nil
    (by simp [List.range_succ]), List.map_append, List.sum_append]
  simp

/-- A month starts before the day it is found for, and the next one does not. -/
theorem monthOfDay_spec {year n : ℕ} (hn : 1 ≤ n) (hlast : n ≤ daysBeforeMonth year 13) :
    1 ≤ monthOfDay year n ∧ monthOfDay year n ≤ 12 ∧
      daysBeforeMonth year (monthOfDay year n) < n ∧
      n ≤ daysBeforeMonth year (monthOfDay year n + 1) := by
  have hone : daysBeforeMonth year 1 < n := hn
  have hbound : monthOfDay year n ≤ 12 := Nat.findGreatest_le 12
  refine ⟨Nat.le_findGreatest (by omega) hone, hbound,
    Nat.findGreatest_spec (P := fun m => daysBeforeMonth year m < n) (by omega) hone, ?_⟩
  rcases hbound.eq_or_lt with heq | hlt
  · rw [heq]
    exact hlast
  · by_contra hgt
    exact Nat.findGreatest_is_greatest (Nat.lt_succ_self _) hlt (not_le.mp hgt)

/-- Every day of the calendar is the ordinal of a valid date. -/
theorem toOrdinal_ofOrdinal {n : ℕ} (h₁ : 1 ≤ n) (h₂ : n ≤ maxOrdinal) :
    (Date.ofOrdinal n).Valid ∧ (Date.ofOrdinal n).toOrdinal = n := by
  obtain ⟨hyear, hstart, hnext⟩ := yearOfOrdinal_spec h₁
  have hlast : yearOfOrdinal n ≤ 9999 := by
    by_contra hbig
    have : maxOrdinal ≤ daysBeforeYear (yearOfOrdinal n) := by
      unfold daysBeforeYear maxOrdinal
      omega
    omega
  rw [daysBeforeYear_succ hyear, ← daysBeforeMonth_thirteen] at hnext
  obtain ⟨hmonth, htwelve, hfirst, hfollow⟩ :=
    @monthOfDay_spec (yearOfOrdinal n) (n - daysBeforeYear (yearOfOrdinal n)) (by omega)
      (by omega)
  rw [daysBeforeMonth_succ _ hmonth] at hfollow
  have hday : n - daysBeforeYear (yearOfOrdinal n) ≤ n := Nat.sub_le _ _
  refine ⟨?_, ?_⟩
  · refine ⟨hyear, hlast, hmonth, htwelve, ?_, ?_⟩
    · change 1 ≤ n - daysBeforeYear (yearOfOrdinal n) - _
      omega
    · change n - daysBeforeYear (yearOfOrdinal n) - _ ≤ daysInMonth (yearOfOrdinal n)
        (monthOfDay (yearOfOrdinal n) (n - daysBeforeYear (yearOfOrdinal n)))
      omega
  · simp only [Date.ofOrdinal, Date.toOrdinal]
    omega

/-! ### Instants -/

/-- Microseconds in a day. -/
def microsPerDay : ℕ := 86400000000

/-- An aware `datetime`, in UTC. -/
structure DateTime where
  /-- Microseconds since `0001-01-01T00:00:00Z`. -/
  micros : ℕ
  /-- The year is at most 9999. -/
  inRange : micros < maxOrdinal * microsPerDay
  deriving DecidableEq, Repr

namespace DateTime

/-- The first instant is in range. -/
theorem zero_inRange : 0 < maxOrdinal * microsPerDay := by decide

theorem micros_injective : Function.Injective micros := by
  rintro ⟨a, ha⟩ ⟨b, hb⟩ rfl
  rfl

@[ext]
theorem ext {a b : DateTime} (h : a.micros = b.micros) : a = b := micros_injective h

/-- `datetime`s are compared as instants. -/
instance : LinearOrder DateTime := LinearOrder.lift' micros micros_injective

theorem le_def {a b : DateTime} : a ≤ b ↔ a.micros ≤ b.micros := Iff.rfl

theorem lt_def {a b : DateTime} : a < b ↔ a.micros < b.micros := Iff.rfl

/-- An instant, if it falls into the years 1 to 9999. -/
def ofMicros? (micros : ℤ) : Option DateTime :=
  if h : 0 ≤ micros ∧ micros.toNat < maxOrdinal * microsPerDay then some ⟨micros.toNat, h.2⟩
  else none

/-- `value + timedelta(seconds=seconds)`. -/
def addSeconds (value : DateTime) (seconds : ℤ) : Except PyError DateTime :=
  match ofMicros? (value.micros + seconds * 1000000) with
  | some t => .ok t
  | none => .error .overflowError

/-- A sum is in range, and that many seconds later. -/
theorem addSeconds_eq_ok {value t : DateTime} {seconds : ℤ} :
    value.addSeconds seconds = .ok t ↔ (t.micros : ℤ) = value.micros + seconds * 1000000 := by
  unfold addSeconds ofMicros?
  split_ifs with h
  · simp only [Except.ok.injEq, DateTime.ext_iff]
    omega
  · have hlt := t.inRange
    simp only [false_iff]
    omega

end DateTime

end Python
