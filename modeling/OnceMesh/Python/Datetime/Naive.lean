import Mathlib.Data.List.TakeWhile
import OnceMesh.Python.Datetime.Utc

/-!
# Naive datetimes

Text that ends in `Z` is read as a datetime with `+00:00` in the place of each `Z`. Where nothing
but a date stands before the final `Z`, the `+` is taken for the separator of date and time, and
`00:00` for the time of day: such a datetime is naive, and every other one is aware.
-/

namespace Python

/-- `+` -/
@[simp]
abbrev plusSign : CodePoint := 0x2B

/-- The text is a date alone, followed by `Z`. -/
def isDateZ (text : Str) : Bool :=
  findSeparator (replaceChar text 0x5A (lit "+00:00")) + 1 = text.length

/-! ### The characters of a date -/

/-- The digits that are read stand at the front of the text. -/
theorem eq_append_of_takeDigits {width n : ℕ} {s rest : Str}
    (h : takeDigits width s = some (n, rest)) :
    ∃ digits, s = digits ++ rest ∧ digits.length = width ∧ plusSign ∉ digits := by
  induction width generalizing n rest with
  | zero =>
    cases h
    exact ⟨[], rfl, rfl, List.not_mem_nil⟩
  | succ width ih =>
    rw [takeDigits] at h
    split at h
    next m c tail hinit =>
      split_ifs at h with hdigit
      cases h
      obtain ⟨digits, rfl, hlength, hplus⟩ := ih hinit
      have hc : plusSign ≠ c := (ne_of_isDigit hdigit (by decide)).symm
      refine ⟨digits ++ [c], by simp, by simp [hlength], ?_⟩
      rw [List.mem_append, List.mem_singleton, not_or]
      exact ⟨hplus, hc⟩
    · cases h

/-- An optional hyphen is skipped. -/
theorem eq_append_of_skipHyphen (s : Str) :
    ∃ skipped, s = skipped ++ (if s.head? = some hyphen then s.tail else s) ∧
      skipped.length = (if s.head? = some hyphen then 1 else 0) ∧ plusSign ∉ skipped := by
  split_ifs with h
  · obtain ⟨c, tail, rfl⟩ : ∃ c tail, s = c :: tail := by
      cases s with
      | nil => cases h
      | cons c tail => exact ⟨c, tail, rfl⟩
    obtain rfl : c = hyphen := Option.some.inj h
    exact ⟨[hyphen], rfl, rfl, by decide⟩
  · exact ⟨[], rfl, rfl, List.not_mem_nil⟩

/-- A date is read from the front of the text. Where text is left over, the date has eight
characters, or ten in the extended format. -/
theorem eq_append_of_parseIsoDate {s : Str} {n : ℕ} (h : parseIsoDate s = some n) :
    ∃ date rest, s = date ++ rest ∧ plusSign ∉ date ∧ 7 ≤ date.length ∧
      (rest ≠ [] → 8 ≤ date.length ∧ (s[4]? = some hyphen → date.length = 10)) := by
  unfold parseIsoDate at h
  simp only [Option.bind_eq_bind, Option.bind_eq_some_iff] at h
  obtain ⟨⟨year, tail⟩, hyear, h⟩ := h
  obtain ⟨yearDigits, rfl, hyearLength, hyearPlus⟩ := eq_append_of_takeDigits hyear
  obtain ⟨first, hfirst, hfirstLength, hfirstPlus⟩ := eq_append_of_skipHyphen tail
  have hfour : (yearDigits ++ tail)[4]? = tail.head? := by
    rw [List.getElem?_append_right hyearLength.le, hyearLength, List.head?_eq_getElem?]
  rw [hfour]
  generalize hafter : (if tail.head? = some hyphen then tail.tail else tail) = after at h hfirst
  by_cases hweek : after.head? = some 0x57
  · rw [if_pos hweek] at h
    obtain ⟨⟨week, behind⟩, hdigits, h⟩ := Option.bind_eq_some_iff.mp h
    obtain ⟨weekDigits, hweekDigits, hweekLength, hweekPlus⟩ := eq_append_of_takeDigits hdigits
    have hletter := List.eq_cons_of_mem_head? hweek
    by_cases hend : behind = []
    · -- a week alone takes up the whole text
      refine ⟨yearDigits ++ tail, [], by simp, ?_, ?_, fun hne => absurd rfl hne⟩
      · rw [hfirst, hletter, hweekDigits, hend]
        simp [hyearPlus, hfirstPlus, hweekPlus]
      · rw [hfirst, hletter, hweekDigits]
        simp only [List.length_append, List.length_cons]
        omega
    · rw [if_neg hend] at h
      split at h
      · cases h
      next hsame =>
        obtain ⟨⟨day, rest⟩, hday, -⟩ := Option.bind_eq_some_iff.mp h
        obtain ⟨second, hsecond, hsecondLength, hsecondPlus⟩ := eq_append_of_skipHyphen behind
        have hsame : (behind.head? = some hyphen) = (tail.head? = some hyphen) := not_not.mp hsame
        simp only [hsame] at hsecond hsecondLength hday
        obtain ⟨dayDigits, hdayDigits, hdayLength, hdayPlus⟩ := eq_append_of_takeDigits hday
        refine ⟨yearDigits ++ first ++ [0x57] ++ weekDigits ++ second ++ dayDigits, rest, ?_, ?_,
          ?_⟩
        · rw [hdayDigits] at hsecond
          rw [hfirst, hletter, hweekDigits, hsecond]
          simp
        · simp [hyearPlus, hfirstPlus, hweekPlus, hsecondPlus, hdayPlus]
        · simp only [List.length_append, List.length_singleton, hyearLength, hfirstLength,
            hweekLength, hsecondLength, hdayLength]
          split_ifs with hhyphen
          · simp
          · exact ⟨by omega, fun _ => ⟨by omega, fun h => absurd h hhyphen⟩⟩
  · rw [if_neg hweek] at h
    obtain ⟨⟨month, behind⟩, hdigits, h⟩ := Option.bind_eq_some_iff.mp h
    obtain ⟨monthDigits, hmonthDigits, hmonthLength, hmonthPlus⟩ := eq_append_of_takeDigits hdigits
    split at h
    · cases h
    next hsame =>
      obtain ⟨⟨day, rest⟩, hday, -⟩ := Option.bind_eq_some_iff.mp h
      obtain ⟨second, hsecond, hsecondLength, hsecondPlus⟩ := eq_append_of_skipHyphen behind
      have hsame : (behind.head? = some hyphen) = (tail.head? = some hyphen) := not_not.mp hsame
      simp only [hsame] at hsecond hsecondLength hday
      obtain ⟨dayDigits, hdayDigits, hdayLength, hdayPlus⟩ := eq_append_of_takeDigits hday
      refine ⟨yearDigits ++ first ++ monthDigits ++ second ++ dayDigits, rest, ?_, ?_, ?_⟩
      · rw [hdayDigits] at hsecond
        rw [hfirst, hmonthDigits, hsecond]
        simp
      · simp [hyearPlus, hfirstPlus, hmonthPlus, hsecondPlus, hdayPlus]
      · simp only [List.length_append, hyearLength, hfirstLength, hmonthLength, hsecondLength,
          hdayLength]
        split_ifs with hhyphen
        · simp
        · exact ⟨by omega, fun _ => ⟨by omega, fun h => absurd h hhyphen⟩⟩

/-- The date ends after seven or eight characters, or after ten in the extended format. -/
theorem findSeparator_cases (s : Str) :
    findSeparator s ≤ 8 ∨ findSeparator s = 10 ∧ s[4]? = some hyphen := by
  unfold findSeparator
  simp only
  split_ifs
  all_goals first
    | exact Or.inr ⟨rfl, by assumption⟩
    | exact Or.inl (by omega)

/-- No `+` stands in the date of a datetime. -/
theorem plusSign_notMem_date {s : Str} {n : ℕ}
    (h : parseIsoDate (s.take (findSeparator s)) = some n) :
    plusSign ∉ s.take (findSeparator s) := by
  obtain ⟨date, rest, htake, hplus, hseven, hrest⟩ := eq_append_of_parseIsoDate h
  have hlength : date.length + rest.length ≤ findSeparator s := by
    rw [← List.length_append, ← htake]
    exact List.length_take_le _ _
  -- everything up to the separator belongs to the date
  have hempty : rest = [] := by
    by_contra hne
    have hpos : 0 < rest.length := List.length_pos_iff.mpr hne
    obtain ⟨height, hten⟩ := hrest hne
    rcases findSeparator_cases s with hle | ⟨heq, hhyphen⟩
    · omega
    · have hten := hten (by rw [heq, List.getElem?_take_of_lt (by decide), hhyphen])
      omega
  rw [htake, hempty, List.append_nil]
  exact hplus

/-! ### The range of local times -/

/-- The fields of a time of day count less than a day. -/
theorem TimeFields.Valid.toMicros_lt {fields : TimeFields} (h : fields.Valid) :
    fields.toMicros < microsPerDay := by
  obtain ⟨hhour, hminute, hsecond, hmicrosecond⟩ := h
  unfold TimeFields.toMicros microsPerDay
  omega

/-- A parsed time of day counts less than a day. -/
theorem toMicros_lt_of_parseIsoTime {s : Str} {fields : TimeFields} {offset : Option ℤ}
    (h : parseIsoTime s = some (fields, offset)) : fields.toMicros < microsPerDay := by
  unfold parseIsoTime at h
  simp only [Option.bind_eq_bind, Option.bind_eq_some_iff] at h
  obtain ⟨time, -, h⟩ := h
  split_ifs at h with hvalid hzone
  · cases h
    exact hvalid.toMicros_lt
  · obtain ⟨micros, -, h⟩ := Option.bind_eq_some_iff.mp h
    cases h
    exact hvalid.toMicros_lt

/-- A local time lies in the years 1 to 9999. -/
theorem localMicros_lt {s : Str} {parsed : ParsedDateTime} (h : fromIsoFormat s = some parsed) :
    parsed.localMicros < maxOrdinal * microsPerDay := by
  unfold fromIsoFormat at h
  split_ifs at h with hshort
  obtain ⟨ordinal, hordinal, h⟩ := Option.bind_eq_some_iff.mp h
  obtain ⟨hfirst, hlast⟩ := parseIsoDate_range hordinal
  have hmicros : ∃ fields : TimeFields, fields.toMicros < microsPerDay ∧
      parsed.localMicros = (ordinal - 1) * microsPerDay + fields.toMicros := by
    dsimp only at h
    split_ifs at h
    · cases h
      exact ⟨⟨0, 0, 0, 0⟩, by decide, rfl⟩
    · obtain ⟨⟨fields, offset⟩, htime, h⟩ := Option.bind_eq_some_iff.mp h
      cases h
      exact ⟨fields, toMicros_lt_of_parseIsoTime htime, rfl⟩
  obtain ⟨fields, hday, hmicros⟩ := hmicros
  rw [hmicros]
  unfold maxOrdinal microsPerDay at *
  omega

/-! ### Which datetimes are naive -/

/-- A time of day has an offset from UTC exactly if a zone starts in its text. -/
theorem offset_eq_none_iff {s : Str} {fields : TimeFields} {offset : Option ℤ}
    (h : parseIsoTime s = some (fields, offset)) :
    offset = none ↔ ∀ c ∈ s, startsZone c = false := by
  unfold parseIsoTime at h
  simp only [Option.bind_eq_bind, Option.bind_eq_some_iff] at h
  obtain ⟨time, -, h⟩ := h
  have hnil : s.dropWhile (fun c => !startsZone c) = [] ↔ ∀ c ∈ s, startsZone c = false := by
    simp [List.dropWhile_eq_nil_iff]
  rw [← hnil]
  split_ifs at h with hvalid hzone
  · cases h
    simp [hzone]
  · obtain ⟨micros, -, h⟩ := Option.bind_eq_some_iff.mp h
    cases h
    simp [hzone]

/-- Text put in the place of single characters does not shorten the whole. -/
theorem length_le_length_replaceChar {s : Str} {old : CodePoint} {new : Str} (h : 1 ≤ new.length) :
    s.length ≤ (replaceChar s old new).length := by
  induction s with
  | nil => exact Nat.le_refl 0
  | cons c s ih =>
    rw [replaceChar, List.flatMap_cons, List.length_append, ← replaceChar, List.length_cons]
    split_ifs
    · omega
    · rw [List.length_singleton]
      omega

/-- A `Z` in front of the final one leaves a `+` within the length of the text. -/
theorem plusSign_mem_take {body : Str} (h : 0x5A ∈ body) (rest : Str) :
    plusSign ∈ (replaceChar body 0x5A (lit "+00:00") ++ rest).take body.length := by
  obtain ⟨before, after, rfl, hbefore⟩ := List.eq_append_cons_of_mem h
  have hzone : lit "+00:00" = plusSign :: lit "00:00" := by decide
  rw [replaceChar_append, replaceChar_of_notMem hbefore, replaceChar, List.flatMap_cons,
    if_pos rfl, hzone, List.append_assoc, List.take_append, List.length_append, List.length_cons,
    Nat.add_sub_cancel_left, List.cons_append, List.cons_append, List.take_succ_cons]
  simp

/-- A datetime read from text that ends in `Z` is naive exactly if the text is a date alone,
followed by `Z`. -/
theorem naive_iff_isDateZ {text : Str} {parsed : ParsedDateTime}
    (hzulu : endsWith text (lit "Z") = true) (h : fromUtcText text = some parsed) :
    parsed.offset = none ↔ isDateZ text = true := by
  have hlitZ : lit "Z" = [0x5A] := by decide
  obtain ⟨body, rfl⟩ : ∃ body, text = body ++ [0x5A] := by
    rw [endsWith, List.isSuffixOf_iff_suffix, hlitZ] at hzulu
    obtain ⟨body, hbody⟩ := hzulu
    exact ⟨body, hbody.symm⟩
  have hzone : lit "+00:00" = plusSign :: lit "00:00" := by decide
  have hreplaced : replaceChar (body ++ [0x5A]) 0x5A (lit "+00:00") =
      replaceChar body 0x5A (lit "+00:00") ++ lit "+00:00" := by
    have hfinal : replaceChar [0x5A] 0x5A (lit "+00:00") = lit "+00:00" := by decide
    rw [replaceChar_append, hfinal]
  have hlonger : body.length ≤ (replaceChar body 0x5A (lit "+00:00")).length :=
    length_le_length_replaceChar (by decide)
  have hkept := fun hmem => @plusSign_mem_take body hmem (lit "+00:00")
  have hsame := fun hmem => @replaceChar_of_notMem body 0x5A hmem (lit "+00:00")
  rw [fromUtcText, hreplaced] at h
  rw [isDateZ, decide_eq_true_eq, hreplaced, List.length_append, List.length_singleton,
    Nat.add_right_cancel_iff]
  generalize replaceChar body 0x5A (lit "+00:00") = front at *
  unfold fromIsoFormat at h
  split_ifs at h with hshort
  simp only [Option.bind_eq_bind, Option.bind_eq_some_iff] at h
  obtain ⟨ordinal, hordinal, h⟩ := h
  have hplus := plusSign_notMem_date hordinal
  generalize findSeparator (front ++ lit "+00:00") = separator at *
  -- the `+` of the zone does not belong to the date
  have hle : separator ≤ front.length := by
    by_contra hgt
    obtain ⟨k, hk⟩ : ∃ k, separator - front.length = k + 1 :=
      ⟨separator - front.length - 1, by omega⟩
    apply hplus
    rw [List.take_append, hk, hzone, List.take_succ_cons]
    simp
  -- no `Z` stands in a date
  have hbody : body.length ≤ separator → front = body := by
    intro hlong
    refine hsame fun hmem => hplus ?_
    exact (List.take_sublist_take_left hlong).subset (hkept hmem)
  rcases hle.eq_or_lt with heq | hlt
  · -- the separator is the `+` of the zone
    have htime : (front ++ lit "+00:00").drop (separator + 1) = lit "00:00" := by
      rw [heq, hzone, List.drop_append]
      simp
    have hparse : parseIsoTime (lit "00:00") = some (⟨0, 0, 0, 0⟩, none) := by decide
    rw [htime, if_neg (by decide), hparse] at h
    cases h
    have hfront := hbody (heq ▸ hlonger)
    simp [heq, hfront]
  · have htime : (front ++ lit "+00:00").drop (separator + 1) =
        front.drop (separator + 1) ++ lit "+00:00" :=
      List.drop_append_of_le_length hlt
    rw [htime, if_neg (by simp [hzone])] at h
    obtain ⟨⟨fields, offset⟩, hparsed, h⟩ := Option.bind_eq_some_iff.mp h
    have haware := offset_eq_none_iff hparsed
    cases h
    have hstarts : offset ≠ none := by
      intro hnone
      have hnever := haware.mp hnone plusSign (by simp [hzone])
      exact absurd hnever (by decide)
    refine ⟨fun hnone => absurd hnone hstarts, fun hlength => ?_⟩
    have hfront := hbody hlength.ge
    rw [hfront] at hlt
    omega

end Python
