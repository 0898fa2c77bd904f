import OnceMesh.Python.Datetime.Iso

/-!
# UTC timestamps

Timestamps in documents are texts `YYYY-MM-DDThh:mm:ss[.f…]Z`. A text that matches the pattern and
that `datetime.fromisoformat` accepts, with `+00:00` for `Z`, denotes an instant; the text written
for an instant matches the pattern and denotes it.
-/

namespace Python

/-! ### Texts -/

/-- A run of digits and `Z`: `\d*Z`. -/
def isDigitsZ : Str → Bool
  | [] => false
  | c :: s => if isDigit c then isDigitsZ s else c = 0x5A && s = []

/-- `(?:\.\d+)?Z`. -/
def isFractionZ : Str → Bool
  | 0x2E :: c :: s => isDigit c && isDigitsZ s
  | s => s = [0x5A]

/-- `UTC_TIMESTAMP_PATTERN.fullmatch`. -/
def isUtcTimestampText : Str → Bool
  | y₁ :: y₂ :: y₃ :: y₄ :: hyphen₁ :: m₁ :: m₂ :: hyphen₂ :: d₁ :: d₂ :: t ::
      h₁ :: h₂ :: colon₁ :: i₁ :: i₂ :: colon₂ :: s₁ :: s₂ :: rest =>
    [y₁, y₂, y₃, y₄, m₁, m₂, d₁, d₂, h₁, h₂, i₁, i₂, s₁, s₂].all isDigit &&
      (hyphen₁ = hyphen && hyphen₂ = hyphen && t = 0x54 && colon₁ = colonSign &&
        colon₂ = colonSign) && isFractionZ rest
  | _ => false

/-- `str.replace(old, new)`, with the number of characters still to skip. -/
def replaceFrom (old new : Str) : ℕ → Str → Str
  | _, [] => []
  | skip + 1, _ :: s => replaceFrom old new skip s
  | 0, c :: s =>
    if startsWith (c :: s) old then new ++ replaceFrom old new (old.length - 1) s
    else c :: replaceFrom old new 0 s

/-- `str.replace(old, new)`. -/
def replace (s old new : Str) : Str := replaceFrom old new 0 s

/-- `value.isoformat().replace("+00:00", "Z")`. -/
def DateTime.utcText (t : DateTime) : Str := replace t.isoformat (lit "+00:00") (lit "Z")

/-- `datetime.fromisoformat(text.replace("Z", "+00:00"))`. -/
def fromUtcText (text : Str) : Option ParsedDateTime :=
  fromIsoFormat (replaceChar text 0x5A (lit "+00:00"))

/-! ### A timestamp denotes an instant -/

theorem replaceChar_append (s t : Str) (old : CodePoint) (new : Str) :
    replaceChar (s ++ t) old new = replaceChar s old new ++ replaceChar t old new :=
  List.flatMap_append

/-- Text without the character is left alone. -/
theorem replaceChar_of_notMem {s : Str} {old : CodePoint} (h : old ∉ s) (new : Str) :
    replaceChar s old new = s := by
  induction s with
  | nil => rfl
  | cons c s ih =>
    rw [List.mem_cons, not_or] at h
    rw [replaceChar, List.flatMap_cons, if_neg (Ne.symm h.1), ← replaceChar, ih h.2]
    rfl

/-- The tail of a timestamp is a fraction, without a character that starts a zone, and `Z`. -/
theorem eq_append_of_isFractionZ {s : Str} (h : isFractionZ s = true) :
    ∃ fraction, s = fraction ++ [0x5A] ∧ ∀ c ∈ fraction, startsZone c = false := by
  have hdigits : ∀ s, isDigitsZ s = true →
      ∃ digits, s = digits ++ [0x5A] ∧ ∀ c ∈ digits, startsZone c = false := by
    intro s
    induction s with
    | nil => intro h; cases h
    | cons c s ih =>
      intro h
      rw [isDigitsZ] at h
      split_ifs at h with hdigit
      · obtain ⟨digits, rfl, hzone⟩ := ih h
        refine ⟨c :: digits, rfl, List.forall_mem_cons.mpr ⟨?_, hzone⟩⟩
        have h₁ := ne_of_isDigit hdigit (d := 0x2B) (by decide)
        have h₂ := ne_of_isDigit hdigit (d := hyphen) (by decide)
        have h₃ := ne_of_isDigit hdigit (d := 0x5A) (by decide)
        simp [startsZone, h₁, h₂, h₃]
      · obtain ⟨rfl, rfl⟩ : c = 0x5A ∧ s = [] := by simpa using h
        exact ⟨[], rfl, by simp⟩
  unfold isFractionZ at h
  split at h
  · next c s =>
    rw [Bool.and_eq_true] at h
    have hc : isDigitsZ (c :: s) = true := by rw [isDigitsZ, if_pos h.1, h.2]
    obtain ⟨digits, hs, hzone⟩ := hdigits _ hc
    exact ⟨0x2E :: digits, by rw [hs]; rfl, List.forall_mem_cons.mpr ⟨by decide, hzone⟩⟩
  · exact ⟨[], by simpa using h, by simp⟩

/-- A date in range is a day of the calendar. -/
theorem Date.toOrdinal_le {d : Date} (h : d.Valid) :
    1 ≤ d.toOrdinal ∧ d.toOrdinal ≤ maxOrdinal := by
  obtain ⟨hyear, hlast, hmonth, htwelve, hday, hdays⟩ := h
  have hmonths : ∀ n, 1 ≤ n → n ≤ 12 →
      daysBeforeMonth d.year n + daysInMonth d.year n ≤ daysBeforeMonth d.year 13 := by
    intro n hn hle
    rw [← daysBeforeMonth_succ d.year hn]
    have hmono : ∀ k, n + 1 + k ≤ 13 →
        daysBeforeMonth d.year (n + 1) ≤ daysBeforeMonth d.year (n + 1 + k) := by
      intro k
      induction k with
      | zero => exact fun _ => le_rfl
      | succ k ih =>
        intro hk
        have hstep := daysBeforeMonth_succ d.year (show 1 ≤ n + 1 + k by omega)
        have hbefore := ih (by omega)
        rw [← Nat.add_assoc]
        omega
    have := hmono (12 - n) (by omega)
    rwa [show n + 1 + (12 - n) = 13 by omega] at this
  have hend := hmonths d.month hmonth htwelve
  rw [daysBeforeMonth_thirteen] at hend
  have hnext := daysBeforeYear_succ hyear
  have hcalendar : daysBeforeYear (d.year + 1) ≤ maxOrdinal := by
    unfold daysBeforeYear maxOrdinal
    omega
  unfold Date.toOrdinal
  omega

/-- A day of an ISO week is a day of the calendar. -/
theorem isoWeekToOrdinal_range {year week day n : ℕ} (h : isoWeekToOrdinal year week day = some n) :
    1 ≤ n ∧ n ≤ maxOrdinal := by
  unfold isoWeekToOrdinal at h
  simp only at h
  split_ifs at h with hrange
  cases h
  omega

/-- A parsed date is a day of the calendar. -/
theorem parseIsoDate_range {s : Str} {n : ℕ} (h : parseIsoDate s = some n) :
    1 ≤ n ∧ n ≤ maxOrdinal := by
  unfold parseIsoDate at h
  simp only [Option.bind_eq_bind, Option.bind_eq_some_iff] at h
  obtain ⟨⟨year, rest⟩, -, h⟩ := h
  -- with or without separators, a week date or a calendar date
  split_ifs at h
  all_goals
    obtain ⟨⟨second, rest⟩, -, h⟩ := Option.bind_eq_some_iff.mp h
    split_ifs at h
  all_goals first
    | exact isoWeekToOrdinal_range h
    | obtain ⟨⟨day, rest⟩, -, h⟩ := Option.bind_eq_some_iff.mp h
  all_goals first
    | exact isoWeekToOrdinal_range h
    | split_ifs at h with hvalid
      cases h
      exact Date.toOrdinal_le hvalid

/-- A time of day with the zone `+00:00` has no offset from UTC. -/
theorem parseIsoTime_utc {time : Str} {fields : TimeFields} {offset : Option ℤ}
    (htime : ∀ c ∈ time, startsZone c = false)
    (h : parseIsoTime (time ++ lit "+00:00") = some (fields, offset)) :
    fields.toMicros < microsPerDay ∧ offset = some 0 := by
  have hbefore : ∀ c ∈ time, (!startsZone c) = true := fun c hc => by rw [htime c hc]; rfl
  have hzone : (lit "+00:00").takeWhile (fun c => !startsZone c) = [] ∧
      (lit "+00:00").dropWhile (fun c => !startsZone c) = lit "+00:00" := by decide
  have hparse : parseZone (lit "+00:00") = some 0 := by decide
  have hzoneText : lit "+00:00" ≠ [] := by decide
  unfold parseIsoTime at h
  rw [List.takeWhile_append_of_pos hbefore, List.dropWhile_append_of_pos hbefore, hzone.1,
    hzone.2] at h
  simp only [Option.bind_eq_bind, Option.bind_eq_some_iff] at h
  obtain ⟨fields', -, h⟩ := h
  split_ifs at h with hvalid
  rw [hparse] at h
  cases h
  refine ⟨?_, rfl⟩
  obtain ⟨hhour, hminute, hsecond, hmicrosecond⟩ := hvalid
  unfold TimeFields.toMicros microsPerDay
  omega

/-- A timestamp that is a valid datetime is one in UTC. -/
theorem utc_of_fromUtcText {s : Str} {parsed : ParsedDateTime} (hs : isUtcTimestampText s = true)
    (h : fromUtcText s = some parsed) :
    parsed.offset = some 0 ∧ parsed.localMicros < maxOrdinal * microsPerDay := by
  unfold isUtcTimestampText at hs
  split at hs
  · next y₁ y₂ y₃ y₄ hyphen₁ m₁ m₂ hyphen₂ d₁ d₂ t h₁ h₂ colon₁ i₁ i₂ colon₂ s₁ s₂ rest =>
    simp only [Bool.and_eq_true, List.all_cons, List.all_nil, and_true, decide_eq_true_eq] at hs
    obtain ⟨⟨⟨hy₁, hy₂, hy₃, hy₄, hm₁, hm₂, hd₁, hd₂, hh₁, hh₂, hi₁, hi₂, hs₁, hs₂⟩, ⟨⟨⟨rfl, rfl⟩,
      rfl⟩, rfl⟩, rfl⟩, hrest⟩ := hs
    obtain ⟨fraction, rfl, hfraction⟩ := eq_append_of_isFractionZ hrest
    have hdigit : ∀ c, isDigit c = true → c ≠ 0x5A ∧ startsZone c = false := by
      intro c hc
      have hplus := ne_of_isDigit hc (d := 0x2B) (by decide)
      have hminus := ne_of_isDigit hc (d := hyphen) (by decide)
      have hzulu := ne_of_isDigit hc (d := 0x5A) (by decide)
      exact ⟨hzulu, by simp [startsZone, hplus, hminus, hzulu]⟩
    have hfractionZ : (0x5A : CodePoint) ∉ fraction := fun hmem => by
      have hstarts := hfraction _ hmem
      revert hstarts
      decide
    -- only the last character is replaced
    have htext : replaceChar (y₁ :: y₂ :: y₃ :: y₄ :: hyphen :: m₁ :: m₂ :: hyphen :: d₁ :: d₂ ::
        0x54 :: h₁ :: h₂ :: colonSign :: i₁ :: i₂ :: colonSign :: s₁ :: s₂ ::
        (fraction ++ [0x5A])) 0x5A (lit "+00:00") =
        [y₁, y₂, y₃, y₄, hyphen, m₁, m₂, hyphen, d₁, d₂] ++ 0x54 ::
        ([h₁, h₂, colonSign, i₁, i₂, colonSign, s₁, s₂] ++ fraction ++ lit "+00:00") := by
      have hfront : (0x5A : CodePoint) ∉ [y₁, y₂, y₃, y₄, hyphen, m₁, m₂, hyphen, d₁, d₂, 0x54,
          h₁, h₂, colonSign, i₁, i₂, colonSign, s₁, s₂] ++ fraction := by
        simp [hfractionZ, (hdigit _ hy₁).1.symm, (hdigit _ hy₂).1.symm, (hdigit _ hy₃).1.symm,
          (hdigit _ hy₄).1.symm, (hdigit _ hm₁).1.symm, (hdigit _ hm₂).1.symm,
          (hdigit _ hd₁).1.symm, (hdigit _ hd₂).1.symm, (hdigit _ hh₁).1.symm,
          (hdigit _ hh₂).1.symm, (hdigit _ hi₁).1.symm, (hdigit _ hi₂).1.symm,
          (hdigit _ hs₁).1.symm, (hdigit _ hs₂).1.symm]
      have hsplit := replaceChar_append ([y₁, y₂, y₃, y₄, hyphen, m₁, m₂, hyphen, d₁, d₂, 0x54,
        h₁, h₂, colonSign, i₁, i₂, colonSign, s₁, s₂] ++ fraction) [0x5A] 0x5A (lit "+00:00")
      rw [replaceChar_of_notMem hfront] at hsplit
      simpa [replaceChar] using hsplit
    have htime : ∀ c ∈ [h₁, h₂, colonSign, i₁, i₂, colonSign, s₁, s₂] ++ fraction,
        startsZone c = false := by
      have hcolon : startsZone colonSign = false := by decide
      simp only [List.forall_mem_append, List.forall_mem_cons]
      exact ⟨⟨(hdigit _ hh₁).2, (hdigit _ hh₂).2, hcolon, (hdigit _ hi₁).2, (hdigit _ hi₂).2,
        hcolon, (hdigit _ hs₁).2, (hdigit _ hs₂).2, by simp⟩, hfraction⟩
    have hweek : m₁ ≠ 0x57 := ne_of_isDigit hm₁ (by decide)
    have hseparator : ∀ time : Str,
      findSeparator ([y₁, y₂, y₃, y₄, hyphen, m₁, m₂, hyphen, d₁, d₂] ++
        0x54 :: time) = 10 := by
      intro time
      simp [findSeparator, hweek]
    rw [fromUtcText, htext, fromIsoFormat, if_neg (by simp)] at h
    simp only [hseparator, Option.bind_eq_bind, Option.bind_eq_some_iff] at h
    obtain ⟨ordinal, hordinal, h⟩ := h
    rw [if_neg (by simp)] at h
    obtain ⟨⟨fields, offset⟩, hparsed, h⟩ := Option.bind_eq_some_iff.mp h
    obtain ⟨hday, rfl⟩ := parseIsoTime_utc htime (by simpa using hparsed)
    obtain ⟨hfirst, hlast⟩ := parseIsoDate_range hordinal
    cases h
    refine ⟨rfl, ?_⟩
    show (ordinal - 1) * microsPerDay + fields.toMicros < maxOrdinal * microsPerDay
    unfold maxOrdinal microsPerDay at *
    omega
  · cases hs

/-! ### The text of an instant -/

theorem lit_hyphen : lit "-" = [hyphen] := by decide

theorem lit_T : lit "T" = [0x54] := by decide

theorem lit_colon : lit ":" = [colonSign] := by decide

theorem lit_point : lit "." = [0x2E] := by decide

/-- Everything in the text of an instant but its zone. -/
def DateTime.isoBody (t : DateTime) : Str :=
  let date := Date.ofOrdinal (t.micros / microsPerDay + 1)
  let time := TimeFields.ofMicros (t.micros % microsPerDay)
  padded 4 date.year ++ lit "-" ++ padded 2 date.month ++ lit "-" ++ padded 2 date.day ++
    lit "T" ++ padded 2 time.hour ++ lit ":" ++ padded 2 time.minute ++ lit ":" ++
    padded 2 time.second ++
      (if time.microsecond = 0 then [] else lit "." ++ padded 6 time.microsecond)

theorem isoformat_eq (t : DateTime) : t.isoformat = t.isoBody ++ lit "+00:00" := rfl

/-- Neither `+` nor `Z` occurs before the zone. -/
theorem ne_of_mem_isoBody {t : DateTime} {c : CodePoint} (h : c ∈ t.isoBody) :
    c ≠ 0x2B ∧ c ≠ 0x5A := by
  have hpadded : ∀ width n, c ∈ padded width n → c ≠ 0x2B ∧ c ≠ 0x5A := fun width n hc =>
    ⟨ne_of_isDigit (isDigit_of_mem_padded hc) (by decide),
      ne_of_isDigit (isDigit_of_mem_padded hc) (by decide)⟩
  have hmark : ∀ d : CodePoint, c = d → (d ≠ 0x2B ∧ d ≠ 0x5A) → c ≠ 0x2B ∧ c ≠ 0x5A :=
    fun d hcd hd => hcd ▸ hd
  simp only [DateTime.isoBody, lit_hyphen, lit_T, lit_colon, lit_point, List.mem_append,
    List.mem_singleton] at h
  rcases h with ((((((((((h | h) | h) | h) | h) | h) | h) | h) | h) | h) | h) | h
  case inr =>
    split_ifs at h
    · cases h
    · rcases List.mem_append.mp h with h | h
      · exact hmark 0x2E (List.mem_singleton.mp h) (by decide)
      · exact hpadded _ _ h
  all_goals first
    | exact hpadded _ _ h
    | exact hmark _ h (by decide)

/-- Text without the first character of `old` is copied. -/
theorem replaceFrom_append {s : Str} {c : CodePoint} (h : c ∉ s) (old new rest : Str) :
    replaceFrom (c :: old) new 0 (s ++ rest) = s ++ replaceFrom (c :: old) new 0 rest := by
  induction s with
  | nil => rfl
  | cons d s ih =>
    rw [List.mem_cons, not_or] at h
    have hstart : startsWith (d :: (s ++ rest)) (c :: old) = false := by
      simp [startsWith, List.isPrefixOf, h.1]
    rw [List.cons_append, replaceFrom, hstart, if_neg Bool.false_ne_true, ih h.2]
    rfl

theorem utcText_eq (t : DateTime) : t.utcText = t.isoBody ++ [0x5A] := by
  have hplus : (0x2B : CodePoint) ∉ t.isoBody := fun h => (ne_of_mem_isoBody h).1 rfl
  have hzone : replaceFrom (lit "+00:00") (lit "Z") 0 (lit "+00:00") = [0x5A] := by decide
  have hcons : lit "+00:00" = 0x2B :: lit "00:00" := by decide
  rw [DateTime.utcText, replace, isoformat_eq, ← hzone]
  nth_rewrite 1 [hcons]
  rw [replaceFrom_append hplus, ← hcons]

/-- The text of an instant is read back. -/
@[simp]
theorem fromUtcText_utcText (t : DateTime) : fromUtcText t.utcText = some ⟨t.micros, some 0⟩ := by
  have hzulu : (0x5A : CodePoint) ∉ t.isoBody := fun h => (ne_of_mem_isoBody h).2 rfl
  have hzone : replaceChar [0x5A] 0x5A (lit "+00:00") = lit "+00:00" := by decide
  rw [fromUtcText, utcText_eq, replaceChar_append, replaceChar_of_notMem hzulu, hzone,
    ← isoformat_eq, fromIsoFormat_isoformat]

theorem isDigitsZ_append {s : Str} (h : ∀ c ∈ s, isDigit c = true) :
    isDigitsZ (s ++ [0x5A]) = true := by
  induction s with
  | nil => decide
  | cons c s ih =>
    rw [List.forall_mem_cons] at h
    rw [List.cons_append, isDigitsZ, if_pos h.1, ih h.2]

/-- The text of an instant matches the pattern. -/
@[simp]
theorem isUtcTimestampText_utcText (t : DateTime) : isUtcTimestampText t.utcText = true := by
  have hfraction : ∀ n, isFractionZ ((if n = 0 then [] else [0x2E] ++ padded 6 n) ++ [0x5A]) =
      true := by
    intro n
    split_ifs
    · decide
    · obtain ⟨c, s, hs⟩ : ∃ c s, padded 6 n = c :: s := ⟨_, _, rfl⟩
      have hdigits : ∀ d ∈ c :: s, isDigit d = true := fun d hd =>
        isDigit_of_mem_padded (hs ▸ hd)
      rw [hs]
      rw [List.forall_mem_cons] at hdigits
      simp [isFractionZ, hdigits.1, isDigitsZ_append hdigits.2]
  rw [utcText_eq, DateTime.isoBody]
  simp only [lit_hyphen, lit_T, lit_colon, lit_point, padded_four, padded_two]
  simpa [isUtcTimestampText] using hfraction _

end Python
