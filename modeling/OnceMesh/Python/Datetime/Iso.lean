import OnceMesh.Python.Datetime

/-!
# ISO 8601 text of datetimes

`fromIsoFormat` is `datetime.fromisoformat` of Python 3.11: dates by month or by week, in the
basic or the extended format, any single character between the date and the time, an optional
offset from UTC. `fromIsoFormat_isoformat` says that it reads back what `isoformat` writes.
-/

namespace Python

/-! ### Decimal fields -/

/-- `n` in decimal, with `width` digits. -/
def padded : ℕ → ℕ → Str
  | 0, _ => []
  | width + 1, n => padded width (n / 10) ++ [digit n]

/-- The number exactly `width` leading digits denote, and what follows them. -/
def takeDigits : ℕ → Str → Option (ℕ × Str)
  | 0, s => some (0, s)
  | width + 1, s =>
    match takeDigits width s with
    | some (n, c :: rest) => if isDigit c then some (10 * n + digitVal c, rest) else none
    | _ => none

/-- Padded decimals are read back. -/
theorem takeDigits_padded {width n : ℕ} (h : n < 10 ^ width) (rest : Str) :
    takeDigits width (padded width n ++ rest) = some (n, rest) := by
  induction width generalizing n rest with
  | zero =>
    have hzero : n = 0 := by simpa using h
    simp [takeDigits, padded, hzero]
  | succ width ih =>
    have hdiv : n / 10 < 10 ^ width := by
      rw [pow_succ] at h
      omega
    rw [padded, takeDigits, List.append_assoc, ih hdiv]
    simp only [List.singleton_append, isDigit_digit, ↓reduceIte, digitVal_digit]
    rw [Nat.div_add_mod]

/-- Hours, minutes, seconds and microseconds. -/
structure TimeFields where
  hour : ℕ
  minute : ℕ
  second : ℕ
  microsecond : ℕ
  deriving DecidableEq, Repr

namespace TimeFields

/-- `_check_time_fields`. -/
def Valid (t : TimeFields) : Prop :=
  t.hour < 24 ∧ t.minute < 60 ∧ t.second < 60 ∧ t.microsecond < 1000000

instance (t : TimeFields) : Decidable t.Valid := by
  unfold Valid
  infer_instance

/-- The microseconds the fields count. -/
def toMicros (t : TimeFields) : ℕ :=
  ((t.hour * 60 + t.minute) * 60 + t.second) * 1000000 + t.microsecond

/-- The fields of a time of day. -/
def ofMicros (micros : ℕ) : TimeFields :=
  ⟨micros / 3600000000, micros / 60000000 % 60, micros / 1000000 % 60, micros % 1000000⟩

/-- Every time of day has valid fields. -/
theorem toMicros_ofMicros {micros : ℕ} (h : micros < microsPerDay) :
    (ofMicros micros).Valid ∧ (ofMicros micros).toMicros = micros := by
  unfold microsPerDay at h
  simp only [Valid, toMicros, ofMicros]
  omega

end TimeFields

/-- `:` -/
@[simp]
abbrev colonSign : CodePoint := 0x3A

/-- `-` -/
@[simp]
abbrev hyphen : CodePoint := 0x2D

/-- `datetime.isoformat()` of an aware datetime in UTC. -/
def DateTime.isoformat (t : DateTime) : Str :=
  let date := Date.ofOrdinal (t.micros / microsPerDay + 1)
  let time := TimeFields.ofMicros (t.micros % microsPerDay)
  padded 4 date.year ++ lit "-" ++ padded 2 date.month ++ lit "-" ++ padded 2 date.day ++
    lit "T" ++ padded 2 time.hour ++ lit ":" ++ padded 2 time.minute ++ lit ":" ++
    padded 2 time.second ++
    (if time.microsecond = 0 then [] else lit "." ++ padded 6 time.microsecond) ++ lit "+00:00"

/-- `_isoweek1monday`: the ordinal of the Monday of the first week of a year. -/
def isoWeek1Monday (year : ℕ) : ℤ :=
  let firstDay : ℤ := daysBeforeYear year + 1
  let firstWeekday := (firstDay + 6) % 7
  if firstWeekday > 3 then firstDay - firstWeekday + 7 else firstDay - firstWeekday

/-- `_isoweek_to_gregorian`: the ordinal of a day of an ISO week. -/
def isoWeekToOrdinal (year week day : ℕ) : Option ℕ :=
  let firstWeekday := (daysBeforeYear year + 1) % 7
  let longYear := firstWeekday = 4 ∨ (firstWeekday = 3 ∧ isLeap year)
  let ordinal := isoWeek1Monday year + (week - 1) * 7 + (day - 1)
  if 1 ≤ year ∧ year ≤ 9999 ∧ 1 ≤ week ∧ (week ≤ 52 ∨ week = 53 ∧ longYear) ∧ 1 ≤ day ∧
      day ≤ 7 ∧ 1 ≤ ordinal ∧ ordinal.toNat ≤ maxOrdinal then
    some ordinal.toNat
  else none

/-- `_find_isoformat_datetime_separator`: where the date ends. -/
def findSeparator (s : Str) : ℕ :=
  if s.length = 7 then 7
  else if s[4]? = some hyphen then
    if s[5]? = some 0x57 then
      -- `YYYY-Www` and `YYYY-Www-D`; a digit after the second hyphen decides for the shorter
      if s[8]? = some hyphen then
        if s.length > 10 ∧ (s[10]?.map isDigit).getD false then 8 else 10
      else 8
    else 10
  else if s[4]? = some 0x57 then
    -- `YYYYWww` and `YYYYWwwd`: the parity of the run of digits decides
    let index := 7 + ((s.drop 7).takeWhile isDigit).length
    if index < 9 then index else if index % 2 = 0 then 7 else 8
  else 8

/-- `_parse_isoformat_date`: the ordinal of a date. -/
def parseIsoDate (s : Str) : Option ℕ := do
  let (year, rest) ← takeDigits 4 s
  let hasSep := rest.head? = some hyphen
  let rest := if hasSep then rest.tail else rest
  if rest.head? = some 0x57 then
    let (week, rest) ← takeDigits 2 rest.tail
    if rest = [] then isoWeekToOrdinal year week 1
    else if (rest.head? = some hyphen) ≠ hasSep then none
    else
      let (day, _) ← takeDigits 1 (if hasSep then rest.tail else rest)
      isoWeekToOrdinal year week day
  else
    let (month, rest) ← takeDigits 2 rest
    if (rest.head? = some hyphen) ≠ hasSep then none
    else
      let (day, _) ← takeDigits 2 (if hasSep then rest.tail else rest)
      let date : Date := ⟨year, month, day⟩
      if date.Valid then some date.toOrdinal else none

/-- The microseconds of a fraction of a second; digits after the sixth are dropped. -/
def parseFraction : Str → Option ℕ
  | [] => some 0
  | point :: digits =>
    if (point = 0x2E ∨ point = 0x2C) ∧ digits ≠ [] ∧ digits.all isDigit then
      (takeDigits 6 (digits.take 6 ++ List.replicate (6 - digits.length) 0x30)).map Prod.fst
    else none

/-- `_parse_hh_mm_ss_ff`. -/
def parseTimeFields (s : Str) : Option TimeFields := do
  let (hour, rest) ← takeDigits 2 s
  let hasSep := rest.head? = some colonSign
  if rest = [] then pure ⟨hour, 0, 0, 0⟩
  else
    let (minute, rest) ← takeDigits 2 (if hasSep then rest.tail else rest)
    if rest = [] then pure ⟨hour, minute, 0, 0⟩
    else if hasSep ∧ rest.head? ≠ some colonSign then none
    else
      let (second, rest) ← takeDigits 2 (if hasSep then rest.tail else rest)
      let microsecond ← parseFraction rest
      pure ⟨hour, minute, second, microsecond⟩

/-- Whether a character starts a time zone. -/
def startsZone (c : CodePoint) : Bool := c = 0x2B || c = hyphen || c = 0x5A

/-- The offset of a time zone in microseconds, from its sign or `Z` on. -/
def parseZone : Str → Option ℤ
  | [] => none
  | sign :: zone =>
    if sign = 0x5A then if zone = [] then some 0 else none
    else if zone.length = 0 ∨ zone.length = 1 ∨ zone.length = 3 then none
    else do
      let offset ← parseTimeFields zone
      let micros : ℤ := offset.toMicros
      if micros < microsPerDay then some (if sign = hyphen then -micros else micros) else none

/-- `_parse_isoformat_time`: the time of day, and the offset of the time zone if there is one. -/
def parseIsoTime (s : Str) : Option (TimeFields × Option ℤ) := do
  let time ← parseTimeFields (s.takeWhile fun c => !startsZone c)
  let zone := s.dropWhile fun c => !startsZone c
  if ¬time.Valid then none
  else if zone = [] then pure (time, none)
  else
    let offset ← parseZone zone
    pure (time, some offset)

/-- What `datetime.fromisoformat` returns: the local time in microseconds, and its offset from
UTC unless the datetime is naive. -/
structure ParsedDateTime where
  localMicros : ℕ
  offset : Option ℤ
  deriving DecidableEq, Repr

/-- `datetime.fromisoformat`; `none` stands for `ValueError`. -/
def fromIsoFormat (s : Str) : Option ParsedDateTime :=
  if s.length < 7 then none
  else do
    let separator := findSeparator s
    let ordinal ← parseIsoDate (s.take separator)
    let time := s.drop (separator + 1)
    let (fields, offset) ← if time = [] then pure (⟨0, 0, 0, 0⟩, none) else parseIsoTime time
    pure ⟨(ordinal - 1) * microsPerDay + fields.toMicros, offset⟩

/-! ### The text of an instant is read back -/

@[simp]
theorem length_padded (width n : ℕ) : (padded width n).length = width := by
  induction width generalizing n with
  | zero => rfl
  | succ width ih => rw [padded, List.length_append, ih, List.length_singleton]

theorem isDigit_of_mem_padded {width n : ℕ} {c : CodePoint} (h : c ∈ padded width n) :
    isDigit c = true := by
  induction width generalizing n with
  | zero => simp [padded] at h
  | succ width ih =>
    rw [padded, List.mem_append, List.mem_singleton] at h
    rcases h with h | rfl
    · exact ih h
    · exact isDigit_digit n

/-- A digit is no separator. -/
theorem ne_of_isDigit {c d : CodePoint} (hc : isDigit c = true) (hd : isDigit d = false) :
    c ≠ d := by
  rintro rfl
  rw [hc] at hd
  exact absurd hd (by decide)

theorem padded_two (n : ℕ) : padded 2 n = [digit (n / 10), digit n] := rfl

theorem padded_four (n : ℕ) :
    padded 4 n = [digit (n / 10 / 10 / 10), digit (n / 10 / 10), digit (n / 10), digit n] := rfl

/-- A date in the extended format is read back. -/
theorem parseIsoDate_padded {d : Date} (h : d.Valid) :
    parseIsoDate (padded 4 d.year ++ hyphen :: (padded 2 d.month ++ hyphen :: padded 2 d.day)) =
      some d.toOrdinal := by
  obtain ⟨hyear, hyear', hmonth, hmonth', hday, hday'⟩ := id h
  have hthirtyOne : daysInMonth d.year d.month ≤ 31 := by
    unfold daysInMonth
    split_ifs <;> omega
  have hweek : digit (d.month / 10) ≠ 0x57 := ne_of_isDigit (isDigit_digit _) (by decide)
  have hmonthText := @takeDigits_padded 2 d.month (by omega)
    (hyphen :: padded 2 d.day)
  have hdayText := @takeDigits_padded 2 d.day (by omega) []
  rw [List.append_nil] at hdayText
  unfold parseIsoDate
  rw [takeDigits_padded (by omega)]
  simp only [Option.bind_eq_bind, Option.bind_some, List.head?_cons, ↓reduceIte, List.tail_cons]
  rw [show (padded 2 d.month ++ hyphen :: padded 2 d.day).head? = some (digit (d.month / 10))
    from rfl, if_neg (by simpa using hweek), hmonthText]
  simp only [Option.bind_some, List.head?_cons, List.tail_cons, hdayText, ne_eq,
    not_true_eq_false, ↓reduceIte, h]

/-- A fraction of six digits is read back. -/
theorem parseFraction_padded {n : ℕ} (h : n < 1000000) :
    parseFraction (if n = 0 then [] else lit "." ++ padded 6 n) = some n := by
  split_ifs with hzero
  · rw [hzero]
    rfl
  · have hpoint : lit "." = [0x2E] := by decide
    have hall : (padded 6 n).all isDigit = true := by
      rw [List.all_eq_true]
      exact fun c hc => isDigit_of_mem_padded hc
    have hne : padded 6 n ≠ [] := by
      rw [← List.length_pos_iff, length_padded]
      omega
    have htake : (padded 6 n).take 6 = padded 6 n := List.take_of_length_le (by simp)
    have hread := @takeDigits_padded 6 n (by omega) []
    rw [hpoint, List.singleton_append, parseFraction, if_pos ⟨Or.inl rfl, hne, hall⟩, htake,
      length_padded]
    simp only [Nat.sub_self, List.replicate_zero, hread, Option.map_some]

/-- A time of day in the extended format is read back. -/
theorem parseTimeFields_padded {t : TimeFields} (h : t.Valid) :
    parseTimeFields (padded 2 t.hour ++ colonSign :: (padded 2 t.minute ++ colonSign ::
      (padded 2 t.second ++ if t.microsecond = 0 then [] else lit "." ++ padded 6 t.microsecond))) =
      some t := by
  obtain ⟨hhour, hminute, hsecond, hmicro⟩ := h
  unfold parseTimeFields
  rw [takeDigits_padded (by omega)]
  simp only [Option.bind_eq_bind, Option.bind_some, List.head?_cons, ↓reduceIte,
    List.tail_cons, reduceCtorEq]
  rw [takeDigits_padded (by omega)]
  simp only [Option.bind_some, List.head?_cons, List.tail_cons, ↓reduceIte, reduceCtorEq, ne_eq,
    not_true_eq_false, and_false]
  rw [takeDigits_padded (by omega)]
  simp only [Option.bind_some, parseFraction_padded hmicro, Option.pure_def]

/-- The time of day of an instant, followed by the offset zero, is read back. -/
theorem parseIsoTime_padded {t : TimeFields} (h : t.Valid) :
    parseIsoTime (padded 2 t.hour ++ colonSign :: (padded 2 t.minute ++ colonSign ::
      (padded 2 t.second ++ ((if t.microsecond = 0 then [] else lit "." ++ padded 6 t.microsecond)
        ++ lit "+00:00")))) = some (t, some 0) := by
  obtain ⟨text, htext⟩ : ∃ text, text = padded 2 t.hour ++ colonSign :: (padded 2 t.minute ++
      colonSign :: (padded 2 t.second ++
        if t.microsecond = 0 then [] else lit "." ++ padded 6 t.microsecond)) := ⟨_, rfl⟩
  have hsplit : padded 2 t.hour ++ colonSign :: (padded 2 t.minute ++ colonSign ::
      (padded 2 t.second ++ ((if t.microsecond = 0 then [] else lit "." ++ padded 6 t.microsecond)
        ++ lit "+00:00"))) = text ++ lit "+00:00" := by
    simp [htext]
  have hdigit : ∀ {c : CodePoint}, isDigit c = true → (!startsZone c) = true := by
    intro c hc
    have h₁ := ne_of_isDigit hc (d := 0x2B) (by decide)
    have h₂ := ne_of_isDigit hc (d := hyphen) (by decide)
    have h₃ := ne_of_isDigit hc (d := 0x5A) (by decide)
    simp [startsZone, h₁, h₃, show c ≠ 0x2D from h₂]
  -- no character of the time of day starts a zone
  have hbefore : ∀ c ∈ text, (!startsZone c) = true := by
    intro c hc
    simp only [htext, List.mem_append, List.mem_cons] at hc
    rcases hc with hc | rfl | hc | rfl | hc | hc
    · exact hdigit (isDigit_of_mem_padded hc)
    · decide
    · exact hdigit (isDigit_of_mem_padded hc)
    · decide
    · exact hdigit (isDigit_of_mem_padded hc)
    · split_ifs at hc
      · simp at hc
      · rcases List.mem_append.mp hc with hc | hc
        · have hpoint : lit "." = [0x2E] := by decide
          rw [hpoint, List.mem_singleton] at hc
          rw [hc]
          decide
        · exact hdigit (isDigit_of_mem_padded hc)
  have hzone : (lit "+00:00").takeWhile (fun c => !startsZone c) = [] ∧
      (lit "+00:00").dropWhile (fun c => !startsZone c) = lit "+00:00" := by decide
  have hparse : parseZone (lit "+00:00") = some 0 := by decide
  rw [hsplit]
  unfold parseIsoTime
  rw [List.takeWhile_append_of_pos hbefore, List.dropWhile_append_of_pos hbefore, hzone.1,
    hzone.2, List.append_nil, htext, parseTimeFields_padded h]
  simp [h, hparse]

/-- `datetime.fromisoformat` inverts `isoformat`. -/
theorem fromIsoFormat_isoformat (t : DateTime) :
    fromIsoFormat t.isoformat = some ⟨t.micros, some 0⟩ := by
  have hpos : 0 < microsPerDay := by decide
  have hday : t.micros / microsPerDay < maxOrdinal :=
    (Nat.div_lt_iff_lt_mul hpos).mpr t.inRange
  obtain ⟨hdate, hordinal⟩ := toOrdinal_ofOrdinal (n := t.micros / microsPerDay + 1)
    (Nat.le_add_left 1 _) hday
  obtain ⟨htime, hmicros⟩ := TimeFields.toMicros_ofMicros (Nat.mod_lt t.micros hpos)
  have hlits : lit "-" = [hyphen] ∧ lit "T" = [0x54] ∧ lit ":" = [colonSign] := by decide
  obtain ⟨date, hdateEq⟩ : ∃ d, Date.ofOrdinal (t.micros / microsPerDay + 1) = d := ⟨_, rfl⟩
  obtain ⟨time, htimeEq⟩ : ∃ f, TimeFields.ofMicros (t.micros % microsPerDay) = f := ⟨_, rfl⟩
  rw [hdateEq] at hdate hordinal
  rw [htimeEq] at htime hmicros
  -- the text is a date of ten characters, a separator, and a time
  have htext : t.isoformat = (padded 4 date.year ++ hyphen :: (padded 2 date.month ++ hyphen ::
      padded 2 date.day)) ++ 0x54 :: (padded 2 time.hour ++ colonSign :: (padded 2 time.minute ++
      colonSign :: (padded 2 time.second ++
      ((if time.microsecond = 0 then [] else lit "." ++ padded 6 time.microsecond)
        ++ lit "+00:00")))) := by
    simp [DateTime.isoformat, hdateEq, htimeEq, hlits]
  have hread := parseIsoTime_padded htime
  generalize (padded 2 time.hour ++ colonSign :: (padded 2 time.minute ++
      colonSign :: (padded 2 time.second ++
      ((if time.microsecond = 0 then [] else lit "." ++ padded 6 time.microsecond)
        ++ lit "+00:00")))) = timeText at htext hread
  have hlength : (padded 4 date.year ++ hyphen :: (padded 2 date.month ++ hyphen ::
      padded 2 date.day)).length = 10 := by
    simp
  have hseparator : findSeparator t.isoformat = 10 := by
    have hweek : digit (date.month / 10) ≠ 0x57 := ne_of_isDigit (isDigit_digit _) (by decide)
    rw [htext, findSeparator, padded_four, padded_two, padded_two]
    simp [hweek]
  have htimeText : timeText ≠ [] := by
    rintro rfl
    simp [parseIsoTime, parseTimeFields, takeDigits] at hread
  have hdrop : t.isoformat.drop 11 = timeText := by
    rw [htext, List.drop_append, hlength]
    simp
  have htake : t.isoformat.take 10 = padded 4 date.year ++ hyphen :: (padded 2 date.month ++
      hyphen :: padded 2 date.day) := by
    rw [htext, List.take_append_of_le_length hlength.ge, List.take_of_length_le hlength.le]
  have hlong : ¬t.isoformat.length < 7 := by
    rw [htext, List.length_append, hlength]
    omega
  unfold fromIsoFormat
  rw [if_neg hlong]
  simp only [hseparator, htake, parseIsoDate_padded hdate, Option.bind_eq_bind, Option.bind_some,
    hdrop, htimeText, ↓reduceIte, hread, Option.pure_def]
  rw [hordinal, hmicros, Nat.add_sub_cancel, Nat.mul_comm, Nat.div_add_mod]

/-- `parsed.astimezone(timezone.utc)` of an aware datetime. -/
def utcOf (localMicros : ℕ) (offset : ℤ) : Except PyError DateTime :=
  match DateTime.ofMicros? (localMicros - offset) with
  | some t => .ok t
  | none => .error .overflowError

/-- The time zone of the system, which naive datetimes are read in. -/
class LocalZone where
  /-- The instant of a local time. -/
  toUtc : ℕ → Except PyError DateTime

/-- `parsed.astimezone(timezone.utc)`. -/
def ParsedDateTime.toUtc [LocalZone] (parsed : ParsedDateTime) : Except PyError DateTime :=
  match parsed.offset with
  | some offset => utcOf parsed.localMicros offset
  | none => LocalZone.toUtc parsed.localMicros

/-- With the offset zero, the local time is the instant. -/
@[simp]
theorem utcOf_micros (t : DateTime) : utcOf t.micros 0 = .ok t := by
  simp [utcOf, DateTime.ofMicros?, t.inRange]

end Python
