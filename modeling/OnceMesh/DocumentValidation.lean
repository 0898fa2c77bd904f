import OnceMesh.Documents
import OnceMesh.Python.Datetime.Order

/-!
# Shared validators of public documents

`exact_keys`, and timestamps in canonical UTC, which have whole seconds. The text of an instant
denotes the second it is in (`parseCanonicalUtc_formatCanonicalUtc`).
-/

namespace OnceMesh.DocumentValidation

open Python

/-- `exact_keys`. -/
def exactKeys (value : Value) (expected : List Str) (label : String) : Except PyError Unit :=
  if value.hasExactKeys expected then .ok ()
  else .error (.valueError (lit (label ++ " must contain exactly ")) [sortedTexts expected])

/-- `value.replace(microsecond=0)`. -/
def wholeSecond (t : DateTime) : DateTime where
  micros := t.micros / 1000000 * 1000000
  inRange := lt_of_le_of_lt (Nat.div_mul_le_self _ _) t.inRange

/-- `format_canonical_utc`. -/
def formatCanonicalUtc (t : DateTime) : Str := (wholeSecond t).utcText

/-- `CANONICAL_UTC_PATTERN.fullmatch`. -/
def isCanonicalUtcText (text : Str) : Bool := isUtcTimestampText text && text.length = 20

/-- `parse_canonical_utc`. -/
def parseCanonicalUtc (value : Value) (label : String) : Except PyError DateTime :=
  match value with
  | .str text =>
    if isCanonicalUtcText text then
      match fromUtcText text with
      | none => raiseValueError (label ++ " is not a valid timestamp")
      | some parsed => do
        let t ← utcOf parsed.localMicros (parsed.offset.getD 0)
        if formatCanonicalUtc t = text then pure t
        else raiseValueError (label ++ " must be a canonical UTC timestamp")
    else raiseValueError (label ++ " must be a canonical UTC timestamp")
  | _ => raiseValueError (label ++ " must be a canonical UTC timestamp")

/-- A second starts before the instants in it, and seconds are in the order of their instants. -/
theorem wholeSecond_le_wholeSecond {a b : DateTime} (h : a ≤ b) :
    wholeSecond a ≤ wholeSecond b := by
  rw [DateTime.le_def] at h ⊢
  exact Nat.mul_le_mul_right _ (Nat.div_le_div_right h)

theorem wholeSecond_wholeSecond (t : DateTime) : wholeSecond (wholeSecond t) = wholeSecond t := by
  apply DateTime.ext
  show t.micros / 1000000 * 1000000 / 1000000 * 1000000 = t.micros / 1000000 * 1000000
  rw [Nat.mul_div_cancel _ (by decide)]

/-- The text of a second has twenty characters. -/
theorem length_formatCanonicalUtc (t : DateTime) : (formatCanonicalUtc t).length = 20 := by
  have hfraction : (wholeSecond t).fractionText = [0x5A] := by
    have hmicros : (wholeSecond t).microsecond = 0 := Nat.mul_mod_left _ _
    simp [DateTime.fractionText, hmicros]
  rw [formatCanonicalUtc, DateTime.utcText_eq_append, List.length_append,
    DateTime.length_secondText, hfraction]
  rfl

/-- A text in the pattern is read as the instant whose text it is. -/
theorem parseCanonicalUtc_eq_ok {text : Str} {parsed : ParsedDateTime} {t : DateTime}
    (hpattern : isCanonicalUtcText text = true) (hparsed : fromUtcText text = some parsed)
    (hutc : utcOf parsed.localMicros (parsed.offset.getD 0) = .ok t)
    (htext : formatCanonicalUtc t = text) (label : String) :
    parseCanonicalUtc (.str text) label = .ok t := by
  rw [parseCanonicalUtc, if_pos hpattern, hparsed]
  dsimp only
  rw [hutc, Except.ok_bind, if_pos htext]
  rfl

/-- What is written is read back, as the second. -/
theorem parseCanonicalUtc_formatCanonicalUtc (t : DateTime) (label : String) :
    parseCanonicalUtc (.str (formatCanonicalUtc t)) label = .ok (wholeSecond t) := by
  have hparsed : fromUtcText (formatCanonicalUtc t) = some ⟨(wholeSecond t).micros, some 0⟩ := by
    rw [formatCanonicalUtc, fromUtcText_utcText]
  refine parseCanonicalUtc_eq_ok ?_ hparsed ?_ ?_ label
  · rw [isCanonicalUtcText, length_formatCanonicalUtc, formatCanonicalUtc,
      isUtcTimestampText_utcText]
    rfl
  · exact utcOf_micros _
  · rw [formatCanonicalUtc, wholeSecond_wholeSecond, formatCanonicalUtc]

end OnceMesh.DocumentValidation
