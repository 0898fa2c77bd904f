import OnceMesh.Documents
import OnceMesh.Federation.Request
import OnceMesh.Python.Datetime.Naive

/-!
# The meaning of federation timestamps

Federation documents are read with `_parse_time`, which asks for a final `Z` and leaves the rest to
`datetime.fromisoformat`; the documents of a cache are checked with `_require_utc_timestamp`, which
also asks for the RFC 3339 pattern. `oneMeaning_iff` says that the two agree on a text that the
first accepts exactly if the text matches the pattern, and that the local time zone of the process
decides about the instant exactly if the text is a date alone.
-/

namespace OnceMesh.Federation

open Python

/-- The text is read as a timestamp that `_require_utc_timestamp` accepts, as the same instant
there, and in the same way in every local time zone. -/
def OneMeaning (text : Str) : Prop :=
  (∀ (zone : LocalZone) (instant : DateTime) (label : String),
    @parseTime zone text = .ok instant →
      ∃ timestamp, requireUtcTimestamp (.str text) label = .ok timestamp ∧
        timestamp.instant = instant) ∧
  ∀ zone zone' : LocalZone, @parseTime zone text = @parseTime zone' text

/-- The local time zone at a fixed offset from UTC, in microseconds. -/
abbrev zoneAt (offset : ℤ) : LocalZone := ⟨fun micros => utcOf micros offset⟩

/-- An accepted text ends in `Z`, and is a datetime with an offset or in the local time. -/
theorem parseTime_eq_ok [LocalZone] {text : Str} {instant : DateTime} :
    parseTime text = .ok instant ↔ endsWith text (lit "Z") = true ∧
      ∃ parsed, fromUtcText text = some parsed ∧ parsed.toUtc = .ok instant := by
  unfold parseTime
  rw [← fromUtcText]
  simp only [Except.bind_eq_ok, raiseIf_eq_ok, Bool.not_eq_false', exists_const]
  cases fromUtcText text with
  | none => simp [raiseValueError]
  | some parsed => simp

/-- Text that ends in `Z` is read as the datetime it denotes. -/
theorem parseTime_eq_toUtc [LocalZone] {text : Str} {parsed : ParsedDateTime}
    (hzulu : endsWith text (lit "Z") = true) (hparsed : fromUtcText text = some parsed) :
    parseTime text = parsed.toUtc := by
  rw [parseTime, ← fromUtcText, hzulu, hparsed]
  rfl

/-! ### Texts that match the pattern -/

/-- A text that matches the pattern ends in `Z`. -/
theorem endsWith_of_isUtcTimestampText {text : Str} (h : isUtcTimestampText text = true) :
    endsWith text (lit "Z") = true := by
  have hlitZ : lit "Z" = [0x5A] := by decide
  unfold isUtcTimestampText at h
  split at h
  next y₁ y₂ y₃ y₄ hyphen₁ m₁ m₂ hyphen₂ d₁ d₂ t h₁ h₂ colon₁ i₁ i₂ colon₂ s₁ s₂ rest =>
    obtain ⟨fraction, rfl, -⟩ := eq_append_of_isFractionZ (Bool.and_eq_true_iff.mp h).2
    rw [endsWith, List.isSuffixOf_iff_suffix, hlitZ]
    exact ⟨[y₁, y₂, y₃, y₄, hyphen₁, m₁, m₂, hyphen₂, d₁, d₂, t, h₁, h₂, colon₁, i₁, i₂, colon₂,
      s₁, s₂] ++ fraction, by simp⟩
  · cases h

/-- On a text that matches the pattern, the federation and the cache read the same. -/
theorem parseTime_eq_of_isUtcTimestampText [LocalZone] {text : Str}
    (h : isUtcTimestampText text = true) : parseTime text = OnceMesh.parseTime text := by
  rw [parseTime, OnceMesh.parseTime, ← fromUtcText, endsWith_of_isUtcTimestampText h]
  cases hparsed : fromUtcText text with
  | none => rfl
  | some parsed =>
    obtain ⟨hoffset, -⟩ := utc_of_fromUtcText h hparsed
    simp [raiseIf, ParsedDateTime.toUtc, hoffset]

/-- `_require_utc_timestamp` accepts the datetimes among the texts that match the pattern. -/
theorem exists_requireUtcTimestamp {text : Str} {instant : DateTime}
    (hpattern : isUtcTimestampText text = true) (h : OnceMesh.parseTime text = .ok instant)
    (label : String) :
    ∃ timestamp, requireUtcTimestamp (.str text) label = .ok timestamp ∧
      timestamp.instant = instant := by
  have hne : text ≠ [] := by
    rintro rfl
    cases hpattern
  have hfound : ∃ timestamp, Timestamp.ofText? text hpattern = some timestamp := by
    unfold Timestamp.ofText?
    split
    next hnone =>
      rw [OnceMesh.parseTime, hnone] at h
      cases h
    next parsed hsome => exact ⟨_, rfl⟩
  obtain ⟨timestamp, hfound⟩ := hfound
  have haccepted : requireUtcTimestamp (.str text) label = .ok timestamp := by
    rw [requireUtcTimestamp, requireNonemptyString, if_neg hne, Except.ok_bind, dif_pos hpattern,
      hfound]
    rfl
  refine ⟨timestamp, haccepted, ?_⟩
  have hparse := timestamp.parseTime_eq
  rw [text_of_requireUtcTimestamp haccepted, h] at hparse
  exact (Except.ok.inj hparse).symm

/-! ### The local time zone -/

/-- Two time zones an hour apart read a local time differently. -/
theorem utcOf_ne_utcOf {micros : ℕ} (h : micros < maxOrdinal * microsPerDay) :
    utcOf micros 0 ≠ utcOf micros 3600000000 := by
  intro hsame
  have hfirst : utcOf micros 0 = .ok ⟨micros, h⟩ := utcOf_micros ⟨micros, h⟩
  rw [hfirst] at hsame
  unfold utcOf DateTime.ofMicros? at hsame
  split_ifs at hsame with hrange
  · have hmicros := congrArg DateTime.micros (Except.ok.inj hsame)
    dsimp only at hmicros
    omega

/-- The local time zone decides about an accepted text exactly if it is a date alone. -/
theorem exists_parseTime_ne_iff [LocalZone] {text : Str} {instant : DateTime}
    (h : parseTime text = .ok instant) :
    (∃ zone zone' : LocalZone, @parseTime zone text ≠ @parseTime zone' text) ↔
      isDateZ text = true := by
  obtain ⟨hzulu, parsed, hparsed, -⟩ := parseTime_eq_ok.mp h
  have hread := fun zone : LocalZone => @parseTime_eq_toUtc zone _ _ hzulu hparsed
  simp only [hread]
  rw [← naive_iff_isDateZ hzulu hparsed]
  constructor
  · rintro ⟨zone, zone', hne⟩
    by_contra haware
    obtain ⟨offset, hoffset⟩ := Option.ne_none_iff_exists'.mp haware
    simp [ParsedDateTime.toUtc, hoffset] at hne
  · intro hnaive
    refine ⟨zoneAt 0, zoneAt 3600000000, ?_⟩
    simp only [ParsedDateTime.toUtc, hnaive]
    exact utcOf_ne_utcOf (localMicros_lt hparsed)

/-! ### Where the timestamps have one meaning -/

/-- A text that the federation accepts has one meaning exactly if it matches the pattern that the
cache asks for; it means different instants in different local time zones exactly if it is a date
alone. -/
theorem oneMeaning_iff [LocalZone] {text : Str} {instant : DateTime}
    (h : parseTime text = .ok instant) :
    (OneMeaning text ↔ isUtcTimestampText text = true) ∧
    ((∃ zone zone' : LocalZone, @parseTime zone text ≠ @parseTime zone' text) ↔
      isDateZ text = true) := by
  refine ⟨⟨fun hmeaning => ?_, fun hpattern => ⟨?_, ?_⟩⟩, exists_parseTime_ne_iff h⟩
  · obtain ⟨timestamp, haccepted, -⟩ := hmeaning.1 inferInstance instant "" h
    rw [← text_of_requireUtcTimestamp haccepted]
    exact timestamp.matches_pattern
  · intro zone instant' label h'
    rw [parseTime_eq_of_isUtcTimestampText hpattern] at h'
    exact exists_requireUtcTimestamp hpattern h' label
  · intro zone zone'
    rw [@parseTime_eq_of_isUtcTimestampText zone _ hpattern,
      @parseTime_eq_of_isUtcTimestampText zone' _ hpattern]

/-! ### Example -/

/-- Midnight of an example day. -/
abbrev exampleMidnight : DateTime := ⟨63923126400000000, by decide⟩

theorem parseTime_exampleDay (offset : ℤ) :
    @parseTime (zoneAt offset) (lit "2026-08-24Z") = utcOf exampleMidnight.micros offset := by
  have hzulu : endsWith (lit "2026-08-24Z") (lit "Z") = true := by decide
  have hparsed : fromUtcText (lit "2026-08-24Z") = some ⟨exampleMidnight.micros, none⟩ := by
    decide +kernel
  exact @parseTime_eq_toUtc (zoneAt offset) _ _ hzulu hparsed

/-- An hour of the example day, with the pattern. -/
theorem oneMeaning_iff_example :
    (OneMeaning (lit "2026-08-24T00:00:00Z") ↔
      isUtcTimestampText (lit "2026-08-24T00:00:00Z") = true) ∧
    ((∃ zone zone' : LocalZone, @parseTime zone (lit "2026-08-24T00:00:00Z") ≠
        @parseTime zone' (lit "2026-08-24T00:00:00Z")) ↔
      isDateZ (lit "2026-08-24T00:00:00Z") = true) := by
  have hzulu : endsWith (lit "2026-08-24T00:00:00Z") (lit "Z") = true := by decide
  have hparsed : fromUtcText (lit "2026-08-24T00:00:00Z") =
      some ⟨exampleMidnight.micros, some 0⟩ := by
    decide +kernel
  have hmidnight : @parseTime (zoneAt 0) (lit "2026-08-24T00:00:00Z") = .ok exampleMidnight :=
    (@parseTime_eq_ok (zoneAt 0) _ _).mpr ⟨hzulu, _, hparsed, utcOf_micros exampleMidnight⟩
  exact @oneMeaning_iff (zoneAt 0) _ _ hmidnight

/-- A date alone is an accepted timestamp. It is midnight in UTC, two hours earlier in a zone two
hours ahead, and no timestamp of the cache. -/
theorem not_oneMeaning_exampleDay :
    (∃ earlier, earlier ≠ exampleMidnight ∧
      @parseTime (zoneAt 0) (lit "2026-08-24Z") = .ok exampleMidnight ∧
      @parseTime (zoneAt 7200000000) (lit "2026-08-24Z") = .ok earlier) ∧
    (∃ e, requireUtcTimestamp (.str (lit "2026-08-24Z")) "generated_at" = .error e) ∧
    ¬OneMeaning (lit "2026-08-24Z") := by
  have hmidnight : @parseTime (zoneAt 0) (lit "2026-08-24Z") = .ok exampleMidnight := by
    rw [parseTime_exampleDay, utcOf_micros]
  have hearlier : @parseTime (zoneAt 7200000000) (lit "2026-08-24Z") =
      .ok ⟨63923119200000000, by decide⟩ := by
    rw [parseTime_exampleDay]
    decide +kernel
  have hrefused : ∃ e, requireUtcTimestamp (.str (lit "2026-08-24Z")) "generated_at" = .error e :=
    ⟨_, by rw [requireUtcTimestamp, requireNonemptyString, if_neg (by decide), Except.ok_bind,
      dif_neg (by decide)]; rfl⟩
  refine ⟨⟨⟨63923119200000000, by decide⟩, by decide, hmidnight, hearlier⟩, hrefused, ?_⟩
  intro hmeaning
  obtain ⟨e, hrefused⟩ := hrefused
  obtain ⟨timestamp, haccepted, -⟩ := hmeaning.1 (zoneAt 0) _ "generated_at" hmidnight
  rw [hrefused] at haccepted
  cases haccepted

end OnceMesh.Federation
