import OnceMesh.Python.Datetime.Utc

/-!
# The order of timestamp texts

Texts are ordered by code point. The fields of a timestamp have a fixed width, down to the seconds,
so that two timestamps of different seconds are ordered like the instants they denote. The fraction
of the second is written only when it is not zero, and `.` comes before `Z`: of two timestamps of
one second, the one without a fraction has the larger text. `utcText_lt_utcText` is the whole
comparison.
-/

namespace Python

/-! ### Fields of fixed width -/

/-- Texts with a first part of the same length are ordered by the first part, and then by the
rest. -/
theorem append_lt_append_iff {a b s t : Str} (h : a.length = b.length) :
    a ++ s < b ++ t ↔ a < b ∨ a = b ∧ s < t := by
  induction a generalizing b with
  | nil =>
    have hb : b = [] := List.length_eq_zero_iff.mp h.symm
    simp [hb]
  | cons c a ih =>
    cases b with
    | nil => cases h
    | cons d b =>
      rw [List.cons_append, List.cons_append, List.cons_lt_cons_iff, List.cons_lt_cons_iff,
        ih (Nat.succ.inj h), List.cons.injEq]
      tauto

/-- A common first part does not matter. -/
@[simp]
theorem append_lt_append_left {a s t : Str} : a ++ s < a ++ t ↔ s < t := by
  rw [append_lt_append_iff rfl]
  simp

theorem digit_lt_digit {m n : ℕ} : digit m < digit n ↔ m % 10 < n % 10 := by
  rw [Fin.lt_def]
  show 0x30 + m % 10 < 0x30 + n % 10 ↔ _
  omega

/-- Padded decimals of one width are equal only for equal numbers. -/
theorem padded_inj {width m n : ℕ} (hm : m < 10 ^ width) (hn : n < 10 ^ width) :
    padded width m = padded width n ↔ m = n := by
  refine ⟨fun h => ?_, fun h => by rw [h]⟩
  have hread := takeDigits_padded hm []
  rw [h, takeDigits_padded hn] at hread
  exact (Prod.mk.inj (Option.some.inj hread)).1.symm

/-- Padded decimals of one width are ordered like the numbers. -/
theorem padded_lt_padded {width m n : ℕ} (hm : m < 10 ^ width) (hn : n < 10 ^ width) :
    padded width m < padded width n ↔ m < n := by
  induction width generalizing m n with
  | zero =>
    rw [pow_zero, Nat.lt_one_iff] at hm hn
    simp [hm, hn]
  | succ width ih =>
    rw [pow_succ] at hm hn
    have hm' : m / 10 < 10 ^ width := by omega
    have hn' : n / 10 < 10 ^ width := by omega
    have hlast : [digit m] < [digit n] ↔ m % 10 < n % 10 := by
      rw [List.cons_lt_cons_iff, digit_lt_digit]
      simp
    rw [padded, padded, append_lt_append_iff (by simp), ih hm' hn', padded_inj hm' hn', hlast]
    omega

/-- A padded decimal, before other text, is compared first. -/
theorem padded_append_lt {width m n : ℕ} {s t : Str} (hm : m < 10 ^ width) (hn : n < 10 ^ width) :
    padded width m ++ s < padded width n ++ t ↔ m < n ∨ m = n ∧ s < t := by
  rw [append_lt_append_iff (by simp), padded_lt_padded hm hn, padded_inj hm hn]

/-! ### Dates and times of day -/

/-- A later day is in a later year, or in a later month, or later in the month. -/
theorem ofOrdinal_lt {m n : ℕ} (hm : 1 ≤ m) (hn : n ≤ maxOrdinal) (h : m < n) :
    let a := Date.ofOrdinal m
    let b := Date.ofOrdinal n
    a.year < b.year ∨
      a.year = b.year ∧ (a.month < b.month ∨ a.month = b.month ∧ a.day < b.day) := by
  dsimp only
  have hordinal : ∀ k, 1 ≤ k → k ≤ maxOrdinal →
      (Date.ofOrdinal k).toOrdinal = k := fun k h₁ h₂ => (toOrdinal_ofOrdinal h₁ h₂).2
  have hyear : yearOfOrdinal m ≤ yearOfOrdinal n := by
    have hbefore : ∀ y, daysBeforeYear y < m → daysBeforeYear y < n := fun y hy => hy.trans h
    exact Nat.findGreatest_mono hbefore (by omega)
  rcases hyear.lt_or_eq with hlt | heq
  · exact .inl hlt
  have hmonth : (Date.ofOrdinal m).month ≤ (Date.ofOrdinal n).month := by
    have hbefore : ∀ month, daysBeforeMonth (yearOfOrdinal m) month <
        m - daysBeforeYear (yearOfOrdinal m) →
        daysBeforeMonth (yearOfOrdinal n) month < n - daysBeforeYear (yearOfOrdinal n) := by
      intro month hlt
      rw [heq] at hlt
      omega
    exact Nat.findGreatest_mono hbefore le_rfl
  refine .inr ⟨heq, ?_⟩
  rcases hmonth.lt_or_eq with hlt | hmonth
  · exact .inl hlt
  · refine .inr ⟨hmonth, ?_⟩
    have hmday := hordinal m hm (by omega)
    have hnday := hordinal n (by omega) hn
    rw [Date.toOrdinal, show (Date.ofOrdinal m).year = (Date.ofOrdinal n).year from heq, hmonth]
      at hmday
    rw [Date.toOrdinal] at hnday
    omega

namespace DateTime

/-- The second the instant falls into. -/
def second (t : DateTime) : ℕ := t.micros / 1000000

/-- The microseconds since the second began. -/
def microsecond (t : DateTime) : ℕ := t.micros % 1000000

/-- Everything in the text of an instant before the fraction of the second. -/
def secondText (t : DateTime) : Str :=
  let date := Date.ofOrdinal (t.micros / microsPerDay + 1)
  let time := TimeFields.ofMicros (t.micros % microsPerDay)
  padded 4 date.year ++ (lit "-" ++ (padded 2 date.month ++ (lit "-" ++ (padded 2 date.day ++
    (lit "T" ++ (padded 2 time.hour ++ (lit ":" ++ (padded 2 time.minute ++ (lit ":" ++
      padded 2 time.second)))))))))

/-- The fraction of the second, and the zone. -/
def fractionText (t : DateTime) : Str :=
  (if t.microsecond = 0 then [] else lit "." ++ padded 6 t.microsecond) ++ [0x5A]

theorem utcText_eq_append (t : DateTime) : t.utcText = t.secondText ++ t.fractionText := by
  have hmicro : (TimeFields.ofMicros (t.micros % microsPerDay)).microsecond = t.microsecond := by
    show t.micros % microsPerDay % 1000000 = t.micros % 1000000
    unfold microsPerDay
    omega
  rw [utcText_eq, isoBody, secondText, fractionText]
  simp only [hmicro, List.append_assoc]

/-- The fields of the text before the fraction are in range. -/
theorem fields_lt (t : DateTime) :
    let date := Date.ofOrdinal (t.micros / microsPerDay + 1)
    let time := TimeFields.ofMicros (t.micros % microsPerDay)
    date.year < 10 ^ 4 ∧ date.month < 10 ^ 2 ∧ date.day < 10 ^ 2 ∧ time.hour < 10 ^ 2 ∧
      time.minute < 10 ^ 2 ∧ time.second < 10 ^ 2 := by
  dsimp only
  have hday : t.micros / microsPerDay < maxOrdinal :=
    Nat.div_lt_of_lt_mul (by rw [Nat.mul_comm]; exact t.inRange)
  obtain ⟨-, hyear, -, hmonth, -, hdays⟩ :=
    (toOrdinal_ofOrdinal (Nat.le_add_left 1 (t.micros / microsPerDay)) hday).1
  have hmod : t.micros % microsPerDay < microsPerDay := Nat.mod_lt _ (by decide)
  obtain ⟨hhour, hminute, hsecond, -⟩ := (TimeFields.toMicros_ofMicros hmod).1
  have hlength : ∀ year month, daysInMonth year month ≤ 31 := by
    intro year month
    unfold daysInMonth
    split_ifs <;> omega
  have hshort := hlength (Date.ofOrdinal (t.micros / microsPerDay + 1)).year
    (Date.ofOrdinal (t.micros / microsPerDay + 1)).month
  omega

/-- Of two instants in different seconds, the later one has the larger text. -/
theorem secondText_lt {a b : DateTime} (h : a.second < b.second) : a.secondText < b.secondText := by
  obtain ⟨hay, ham, had, hah, hai, has⟩ := a.fields_lt
  obtain ⟨hby, hbm, hbd, hbh, hbi, hbs⟩ := b.fields_lt
  have hday : b.micros / microsPerDay < maxOrdinal :=
    Nat.div_lt_of_lt_mul (by rw [Nat.mul_comm]; exact b.inRange)
  rw [secondText, secondText, padded_append_lt hay hby, append_lt_append_left,
    padded_append_lt ham hbm,
    append_lt_append_left, padded_append_lt had hbd, append_lt_append_left,
    padded_append_lt hah hbh, append_lt_append_left, padded_append_lt hai hbi,
    append_lt_append_left, padded_lt_padded has hbs]
  unfold second at h
  by_cases hsame : a.micros / microsPerDay = b.micros / microsPerDay
  · -- on one day the times of day decide
    rw [hsame]
    refine .inr ⟨rfl, .inr ⟨rfl, .inr ⟨rfl, ?_⟩⟩⟩
    simp only [TimeFields.ofMicros, microsPerDay] at hsame ⊢
    omega
  · have hlt : a.micros / microsPerDay + 1 < b.micros / microsPerDay + 1 := by
      unfold microsPerDay at *
      omega
    rcases ofOrdinal_lt (Nat.succ_pos _) hday hlt with h | ⟨hyear, h | ⟨hmonth, h⟩⟩
    · exact .inl h
    · exact .inr ⟨hyear, .inl h⟩
    · exact .inr ⟨hyear, .inr ⟨hmonth, .inl h⟩⟩

/-- Instants in one second share the text before the fraction. -/
theorem secondText_congr {a b : DateTime} (h : a.second = b.second) :
    a.secondText = b.secondText := by
  unfold second at h
  have hday : a.micros / microsPerDay = b.micros / microsPerDay := by
    unfold microsPerDay
    omega
  have hhour : a.micros % microsPerDay / 3600000000 = b.micros % microsPerDay / 3600000000 := by
    unfold microsPerDay
    omega
  have hminute : a.micros % microsPerDay / 60000000 % 60 =
      b.micros % microsPerDay / 60000000 % 60 := by
    unfold microsPerDay
    omega
  have hsecond : a.micros % microsPerDay / 1000000 % 60 =
      b.micros % microsPerDay / 1000000 % 60 := by
    unfold microsPerDay
    omega
  simp only [secondText, TimeFields.ofMicros, hday, hhour, hminute, hsecond]

theorem length_secondText (t : DateTime) : t.secondText.length = 19 := by
  simp [secondText, lit_hyphen, lit_T, lit_colon]

/-- Of two timestamps in one second, one without a fraction comes last. -/
theorem fractionText_lt_fractionText {a b : DateTime} : a.fractionText < b.fractionText ↔
    a.microsecond ≠ 0 ∧ (b.microsecond = 0 ∨ a.microsecond < b.microsecond) := by
  have ha : a.microsecond < 10 ^ 6 := Nat.mod_lt _ (by decide)
  have hb : b.microsecond < 10 ^ 6 := Nat.mod_lt _ (by decide)
  have hpoint : (0x2E : CodePoint) < 0x5A := by decide
  have hnot : ¬(0x5A : CodePoint) < 0x2E := by decide
  have hne : (0x5A : CodePoint) ≠ 0x2E := by decide
  unfold fractionText
  by_cases ha₀ : a.microsecond = 0
  · by_cases hb₀ : b.microsecond = 0
    · simp [ha₀, hb₀]
    · simp [ha₀, hb₀, lit_point, List.cons_lt_cons_iff, hnot, hne]
  · by_cases hb₀ : b.microsecond = 0
    · simp [ha₀, hb₀, lit_point, List.cons_lt_cons_iff, hpoint]
    · rw [if_neg ha₀, if_neg hb₀, List.append_assoc, List.append_assoc, append_lt_append_left,
        padded_append_lt ha hb]
      simp [ha₀, hb₀]

/-- Texts of instants are compared by the second, and within one second by the fraction. -/
theorem utcText_lt_utcText {a b : DateTime} : a.utcText < b.utcText ↔ a.second < b.second ∨
    a.second = b.second ∧
      a.microsecond ≠ 0 ∧ (b.microsecond = 0 ∨ a.microsecond < b.microsecond) := by
  rw [utcText_eq_append, utcText_eq_append,
    append_lt_append_iff (by rw [length_secondText, length_secondText]),
    fractionText_lt_fractionText]
  rcases lt_trichotomy a.second b.second with h | h | h
  · simp [h, secondText_lt h]
  · simp [h, secondText_congr h]
  · have hgt := secondText_lt h
    simp [h.not_gt, h.ne', hgt.not_gt, hgt.ne']

/-! ### Whole seconds and fractions -/

/-- The instants fall into one second, at the start of which is exactly one of them. -/
def MixedSecond (a b : DateTime) : Prop :=
  a.second = b.second ∧ (a.microsecond = 0 ↔ b.microsecond ≠ 0)

theorem lt_iff_second {a b : DateTime} : a < b ↔ a.second < b.second ∨
    a.second = b.second ∧ a.microsecond < b.microsecond := by
  rw [lt_def]
  unfold second microsecond
  omega

theorem MixedSecond.symm {a b : DateTime} (h : MixedSecond a b) : MixedSecond b a := by
  unfold MixedSecond at *
  omega

/-- Outside of mixed seconds, texts are ordered like instants. -/
theorem utcText_lt_iff_lt {a b : DateTime} (h : ¬MixedSecond a b) :
    a.utcText < b.utcText ↔ a < b := by
  rw [utcText_lt_utcText, lt_iff_second]
  unfold MixedSecond at h
  omega

/-- In a mixed second, texts are ordered the wrong way around. -/
theorem MixedSecond.utcText_lt_iff_gt {a b : DateTime} (h : MixedSecond a b) :
    a.utcText < b.utcText ↔ b < a := by
  rw [utcText_lt_utcText, lt_iff_second]
  unfold MixedSecond at h
  omega

end DateTime

end Python
