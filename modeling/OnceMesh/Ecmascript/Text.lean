import OnceMesh.Python.Json

/-!
# ECMAScript text

An ECMAScript string is a sequence of UTF-16 code units. `codePoints` is how the language reads
one: a high surrogate and the low one after it are one code point, any other surrogate is a
code point by itself. `encode` is UTF-16 of a Python text; on text without surrogates the two
undo each other.
-/

namespace Ecmascript

open Python

/-- A UTF-16 code unit. -/
abbrev CodeUnit := Fin 0x10000

/-- An ECMAScript `String`. -/
abbrev JsString := List CodeUnit

/-- `U+D800`–`U+DBFF`. -/
def isHigh (u : CodeUnit) : Bool := decide (0xD800 ≤ u.val ∧ u.val ≤ 0xDBFF)

/-- `U+DC00`–`U+DFFF`. -/
def isLow (u : CodeUnit) : Bool := decide (0xDC00 ≤ u.val ∧ u.val ≤ 0xDFFF)

/-- A code unit as a code point by itself. -/
def CodeUnit.point (u : CodeUnit) : CodePoint := ⟨u.val, by omega⟩

/-- `StringToCodePoints`. -/
def codePoints : JsString → Str
  | [] => []
  | [u] => [u.point]
  | u :: v :: rest =>
    if isHigh u ∧ isLow v then Json.joinSurrogates u.val v.val :: codePoints rest
    else u.point :: codePoints (v :: rest)

/-- `UTF16EncodeCodePoint`. -/
def encodePoint (c : CodePoint) : JsString :=
  if h : c.val < 0x10000 then [⟨c.val, h⟩]
  else [⟨0xD800 + (c.val - 0x10000) / 0x400, by omega⟩,
    ⟨0xDC00 + (c.val - 0x10000) % 0x400, by omega⟩]

/-- UTF-16. -/
def encode (s : Str) : JsString := s.flatMap encodePoint

@[simp]
theorem encode_nil : encode [] = [] := rfl

@[simp]
theorem encode_cons (c : CodePoint) (s : Str) : encode (c :: s) = encodePoint c ++ encode s := rfl

@[simp]
theorem encode_append (s t : Str) : encode (s ++ t) = encode s ++ encode t :=
  List.flatMap_append

/-- A code point of the basic plane is one unit. -/
theorem encodePoint_of_lt {c : CodePoint} (h : c.val < 0x10000) : encodePoint c = [⟨c.val, h⟩] :=
  dif_pos h

/-- The code point of a pair. -/
theorem joinSurrogates_val {u v : CodeUnit} (hu : isHigh u = true) (hv : isLow v = true) :
    (Json.joinSurrogates u.val v.val).val =
      0x10000 + (u.val - 0xD800) * 0x400 + (v.val - 0xDC00) := by
  simp only [isHigh, isLow, decide_eq_true_eq] at hu hv
  apply Nat.mod_eq_of_lt
  omega

/-- A unit that starts no pair is read by itself. -/
theorem codePoints_cons_of_not_high {u : CodeUnit} (h : isHigh u = false) (rest : JsString) :
    codePoints (u :: rest) = u.point :: codePoints rest := by
  cases rest with
  | nil => rfl
  | cons v rest => rw [codePoints, if_neg (by simp [h])]

/-- A pair is read as one code point. -/
theorem codePoints_pair {u v : CodeUnit} (hu : isHigh u = true) (hv : isLow v = true)
    (rest : JsString) :
    codePoints (u :: v :: rest) = Json.joinSurrogates u.val v.val :: codePoints rest := by
  rw [codePoints, if_pos ⟨hu, hv⟩]

/-- A unit that no low surrogate follows is read by itself. -/
theorem codePoints_cons_of_not_low {u v : CodeUnit} (h : isLow v = false) (rest : JsString) :
    codePoints (u :: v :: rest) = u.point :: codePoints (v :: rest) := by
  rw [codePoints, if_neg (by simp [h])]

theorem isSurrogate_point (u : CodeUnit) : isSurrogate u.point = (isHigh u || isLow u) := by
  have hrange : (0xD800 ≤ u.val ∧ u.val ≤ 0xDFFF) ↔
      (0xD800 ≤ u.val ∧ u.val ≤ 0xDBFF) ∨ (0xDC00 ≤ u.val ∧ u.val ≤ 0xDFFF) := by omega
  rw [isSurrogate, isHigh, isLow, ← Bool.decide_or]
  exact decide_eq_decide.mpr hrange

/-- A pair is no surrogate. -/
theorem isSurrogate_joinSurrogates {u v : CodeUnit} (hu : isHigh u = true) (hv : isLow v = true) :
    isSurrogate (Json.joinSurrogates u.val v.val) = false := by
  apply decide_eq_false
  rw [joinSurrogates_val hu hv]
  omega

/-- The units of a code point that is no surrogate are read as that code point. -/
theorem codePoints_encodePoint_append {c : CodePoint} (hc : isSurrogate c = false)
    (rest : JsString) : codePoints (encodePoint c ++ rest) = c :: codePoints rest := by
  simp only [isSurrogate, decide_eq_false_iff_not] at hc
  by_cases h : c.val < 0x10000
  · rw [encodePoint_of_lt h, List.singleton_append]
    apply codePoints_cons_of_not_high
    exact decide_eq_false fun hhigh => hc ⟨hhigh.1, hhigh.2.trans (by decide)⟩
  · have hlt := c.isLt
    have hhigh : isHigh ⟨0xD800 + (c.val - 0x10000) / 0x400, by omega⟩ = true :=
      decide_eq_true (by constructor <;> simp only <;> omega)
    have hlow : isLow ⟨0xDC00 + (c.val - 0x10000) % 0x400, by omega⟩ = true :=
      decide_eq_true (by constructor <;> simp only <;> omega)
    rw [encodePoint, dif_neg h, List.cons_append, List.singleton_append,
      codePoints_pair hhigh hlow]
    refine congrArg (· :: codePoints rest) (Fin.ext ?_)
    rw [joinSurrogates_val hhigh hlow]
    simp only
    omega

/-- Reading undoes encoding on text without surrogates. -/
theorem codePoints_encode {s : Str} (h : ∀ c ∈ s, isSurrogate c = false) :
    codePoints (encode s) = s := by
  induction s with
  | nil => rfl
  | cons c s ih =>
    rw [List.forall_mem_cons] at h
    rw [encode_cons, codePoints_encodePoint_append h.1, ih h.2]

/-- Encoding undoes reading. -/
theorem encode_codePoints (u : JsString) : encode (codePoints u) = u := by
  have hpoint : ∀ v : CodeUnit, encodePoint v.point = [v] := fun v => encodePoint_of_lt v.isLt
  fun_induction codePoints u with
  | case1 => rfl
  | case2 u => exact congrArg (· ++ []) (hpoint u)
  | case3 u v rest h ih =>
    have hval := joinSurrogates_val h.1 h.2
    simp only [isHigh, isLow, decide_eq_true_eq] at h
    obtain ⟨hu, hv⟩ := h
    rw [encode_cons, ih, encodePoint, dif_neg (by omega), List.cons_append, List.singleton_append]
    refine congrArg₂ (fun first second => first :: second :: rest) (Fin.ext ?_) (Fin.ext ?_)
    · simp only [hval]
      omega
    · simp only [hval]
      omega
  | case4 u v rest h ih => rw [encode_cons, hpoint, ih, List.singleton_append]

/-- A string is determined by its code points. -/
theorem codePoints_injective : Function.Injective codePoints :=
  Function.LeftInverse.injective encode_codePoints

/-- The bytes `EF BF BD` of the replacement character. -/
def replacement : Bytes := [0xEF, 0xBF, 0xBD]

/-- `Buffer.from(text, "utf8")`. -/
def bufferFrom (text : JsString) : Bytes :=
  (codePoints text).flatMap fun c => ((toChar? c).map String.utf8EncodeChar).getD replacement

/-- UTF-8 of a text without surrogates is what `Buffer.from` makes of its UTF-16 form. -/
theorem bufferFrom_encode {s : Str} {data : Bytes} (h : encodeUtf8 s = some data) :
    bufferFrom (encode s) = data := by
  have hclean := encodeUtf8_isSome_iff.mp (Option.isSome_of_eq_some h)
  obtain ⟨chars, hchars, rfl⟩ := Option.map_eq_some_iff.mp h
  rw [mapM_toChar?_eq_some] at hchars
  rw [bufferFrom, codePoints_encode hclean, hchars, List.flatMap_map]
  simp

end Ecmascript
