import Mathlib.Data.List.Lemmas
import Mathlib.Data.Nat.Digits.Defs
import Mathlib.Data.List.Lex
import Mathlib.Order.Fin.Basic

/-!
# Python text and bytes

Python `str` is a sequence of Unicode code points, surrogates included, ordered
lexicographically by code point; `bytes` is a sequence of octets. Text that comes out of
`json.loads` may hold a lone surrogate, which is why `Str` is not Lean's `String`.

UTF-8 is the strict codec of `str.encode` and `bytes.decode`, taken from Lean's own.
-/

namespace Python

/-- A Unicode code point, surrogates included. -/
abbrev CodePoint := Fin 0x110000

/-- A Python `str`. -/
abbrev Str := List CodePoint

/-- A Python `bytes`. -/
abbrev Bytes := List UInt8

-- literals and comparisons of texts find these at once
instance codePoints_neZero : NeZero (0x110000 : ℕ) := ⟨by decide⟩

instance codePoint_lawfulBEq : LawfulBEq CodePoint := inferInstance

instance str_lawfulBEq : LawfulBEq Str := inferInstance

instance strPair_lawfulBEq : LawfulBEq (Str × Str) := inferInstance

/-- The surrogate range `U+D800`–`U+DFFF`. -/
def isSurrogate (c : CodePoint) : Bool :=
  decide (0xD800 ≤ c.val ∧ c.val ≤ 0xDFFF)

/-- The code point of a Unicode scalar value. -/
def ofChar (c : Char) : CodePoint :=
  ⟨c.toNat, by
    have hvalid : c.toNat < 0xD800 ∨ 0xDFFF < c.toNat ∧ c.toNat < 0x110000 := c.valid
    omega⟩

/-- The scalar value at a code point, if it is not a surrogate. -/
def toChar? (c : CodePoint) : Option Char :=
  if isSurrogate c then none else some (Char.ofNat c.val)

/-- A string literal of the source. -/
def lit (s : String) : Str := s.toList.map ofChar

/-- A bytes literal, of characters below 256. -/
def ascii (s : String) : Bytes := s.toList.map fun c => UInt8.ofNat c.toNat

/-- Distinct scalar values have distinct code points. -/
theorem ofChar_injective : Function.Injective ofChar := by
  intro a b h
  have hval : a.toNat = b.toNat := congrArg (fun p : CodePoint => p.val) h
  calc
    a = Char.ofNat a.toNat := (Char.ofNat_toNat a).symm
    _ = Char.ofNat b.toNat := by rw [hval]
    _ = b := Char.ofNat_toNat b

/-- Distinct literals denote distinct texts. -/
@[simp]
theorem lit_inj {s t : String} : lit s = lit t ↔ s = t := by
  constructor
  · intro h
    exact String.toList_inj.mp (List.map_injective_iff.mpr ofChar_injective h)
  · rintro rfl
    rfl

/-- A literal is empty only when it is `""`. -/
@[simp]
theorem lit_eq_nil {s : String} : lit s = [] ↔ s = "" := by
  simp [lit]

/-- The code point of a scalar value is not a surrogate. -/
theorem isSurrogate_ofChar (c : Char) : isSurrogate (ofChar c) = false := by
  have hvalid : c.toNat < 0xD800 ∨ 0xDFFF < c.toNat ∧ c.toNat < 0x110000 := c.valid
  apply decide_eq_false
  rintro ⟨hlow, hhigh⟩
  change 0xD800 ≤ c.toNat at hlow
  change c.toNat ≤ 0xDFFF at hhigh
  omega

/-- A scalar value is recovered from its code point. -/
@[simp]
theorem toChar?_ofChar (c : Char) : toChar? (ofChar c) = some c := by
  simp only [toChar?, isSurrogate_ofChar, Bool.false_eq_true, ↓reduceIte, Option.some.injEq]
  exact Char.ofNat_toNat c

/-- A code point that is not a surrogate is the code point of the scalar value there. -/
theorem ofChar_of_toChar? {c : CodePoint} {ch : Char} (h : toChar? c = some ch) :
    ofChar ch = c := by
  unfold toChar? at h
  split at h
  · cases h
  · next hs =>
    cases h
    have hvalid : c.val.isValidChar := by
      simp only [isSurrogate, decide_eq_true_eq, not_and, not_le] at hs
      have hlt := c.isLt
      rcases Nat.lt_or_ge c.val 0xD800 with hlow | hlow
      · exact Or.inl hlow
      · exact Or.inr ⟨hs hlow, hlt⟩
    apply Fin.ext
    show (Char.ofNat c.val).toNat = c.val
    rw [Char.ofNat, dif_pos hvalid]
    rfl

/-! ### UTF-8 -/

/-- `bytes.decode("utf-8")`; `none` stands for `UnicodeDecodeError`. -/
def decodeUtf8 (data : Bytes) : Option Str :=
  data.toByteArray.utf8Decode?.map fun chars => chars.toList.map ofChar

/-- `str.encode("utf-8")`; `none` stands for `UnicodeEncodeError`. -/
def encodeUtf8 (s : Str) : Option Bytes :=
  (s.mapM toChar?).map fun chars => chars.flatMap String.utf8EncodeChar

/-- Text without surrogates is the image of a list of scalar values. -/
theorem mapM_toChar?_eq_some {s : Str} {chars : List Char} :
    s.mapM toChar? = some chars ↔ s = chars.map ofChar := by
  induction s generalizing chars with
  | nil => cases chars <;> simp
  | cons c s ih =>
    constructor
    · intro h
      simp only [List.mapM_cons, Option.bind_eq_bind, Option.bind_eq_some_iff, Option.pure_def,
        Option.some.injEq] at h
      obtain ⟨ch, hch, rest, hrest, rfl⟩ := h
      rw [ih.mp hrest, List.map_cons, ofChar_of_toChar? hch]
    · intro h
      cases chars with
      | nil => cases h
      | cons ch rest =>
        simp only [List.map_cons, List.cons.injEq] at h
        obtain ⟨rfl, hrest⟩ := h
        simp [List.mapM_cons, ih.mpr hrest]

/-- Text is encodable exactly when it holds no surrogate. -/
theorem encodeUtf8_isSome_iff {s : Str} :
    (encodeUtf8 s).isSome ↔ ∀ c ∈ s, isSurrogate c = false := by
  simp only [encodeUtf8, Option.isSome_map]
  induction s with
  | nil => simp
  | cons c s ih =>
    rw [List.mapM_cons]
    cases hc : isSurrogate c <;> simp [toChar?, hc, Option.isSome_bind, ← ih,
      Option.isSome_iff_exists]

/-- Decoding undoes encoding. -/
theorem decodeUtf8_of_encodeUtf8 {s : Str} {data : Bytes} (h : encodeUtf8 s = some data) :
    decodeUtf8 data = some s := by
  simp only [encodeUtf8, Option.map_eq_some_iff] at h
  obtain ⟨chars, hchars, rfl⟩ := h
  rw [mapM_toChar?_eq_some] at hchars
  subst hchars
  have hbytes : (chars.flatMap String.utf8EncodeChar).toByteArray = chars.utf8Encode := rfl
  rw [decodeUtf8, hbytes, List.utf8Decode?_utf8Encode]
  simp

/-- Encoding undoes decoding: the strict decoder accepts one encoding of each text. -/
theorem encodeUtf8_of_decodeUtf8 {data : Bytes} {s : Str} (h : decodeUtf8 data = some s) :
    encodeUtf8 s = some data := by
  obtain ⟨chars, hchars, rfl⟩ := Option.map_eq_some_iff.mp h
  have hsome : data.toByteArray.utf8Decode?.isSome = true := by rw [hchars]; rfl
  have hget : data.toByteArray.utf8Decode?.get hsome = chars := by simp [hchars]
  have hbytes : chars.toList.utf8Encode = data.toByteArray := by
    rw [← hget]
    exact ByteArray.utf8Encode_get_utf8Decode?
  have hscalars : (chars.toList.map ofChar).mapM toChar? = some chars.toList :=
    mapM_toChar?_eq_some.mpr rfl
  rw [encodeUtf8, hscalars, Option.map_some]
  exact congrArg some (List.toByteArray_inj.mp hbytes)

/-- Encoding is injective on the text it accepts. -/
theorem encodeUtf8_injective {s t : Str} {data : Bytes} (hs : encodeUtf8 s = some data)
    (ht : encodeUtf8 t = some data) : s = t :=
  Option.some.inj ((decodeUtf8_of_encodeUtf8 hs).symm.trans (decodeUtf8_of_encodeUtf8 ht))

/-- Texts are encoded one after the other. -/
theorem encodeUtf8_append {s t : Str} {data rest : Bytes} (hs : encodeUtf8 s = some data)
    (ht : encodeUtf8 t = some rest) : encodeUtf8 (s ++ t) = some (data ++ rest) := by
  simp only [encodeUtf8, Option.map_eq_some_iff] at hs ht
  obtain ⟨chars, hchars, rfl⟩ := hs
  obtain ⟨chars', hchars', rfl⟩ := ht
  have happend : (s ++ t).mapM toChar? = some (chars ++ chars') := by
    rw [mapM_toChar?_eq_some] at hchars hchars' ⊢
    rw [hchars, hchars', List.map_append]
  rw [encodeUtf8, happend, Option.map_some, List.flatMap_append]

/-! ### Character classes and slices -/

/-- `U+0030`–`U+0039`. -/
def isDigit (c : CodePoint) : Bool := decide (0x30 ≤ c.val ∧ c.val ≤ 0x39)

/-- The value of a decimal digit. -/
def digitVal (c : CodePoint) : ℕ := c.val - 0x30

/-- The decimal digit of `n % 10`. -/
def digit (n : ℕ) : CodePoint := ⟨0x30 + n % 10, by omega⟩

/-- The lowercase hexadecimal digit of `n % 16`. -/
def hexDigit (n : ℕ) : CodePoint :=
  ⟨if n % 16 < 10 then 0x30 + n % 16 else 0x61 + (n % 16 - 10), by split <;> omega⟩

/-- `[0-9a-f]`. -/
def isLowerHex (c : CodePoint) : Bool :=
  decide (0x30 ≤ c.val ∧ c.val ≤ 0x39 ∨ 0x61 ≤ c.val ∧ c.val ≤ 0x66)

/-- A hexadecimal digit of `n % 16` is one. -/
@[simp]
theorem isLowerHex_hexDigit (n : ℕ) : isLowerHex (hexDigit n) = true := by
  apply decide_eq_true
  simp only [hexDigit]
  split <;> omega

@[simp]
theorem isDigit_digit (n : ℕ) : isDigit (digit n) = true := by
  apply decide_eq_true
  simp only [digit]
  omega

@[simp]
theorem digitVal_digit (n : ℕ) : digitVal (digit n) = n % 10 := by
  simp [digitVal, digit]

/-- `bytes.hex()`. -/
def hex (data : Bytes) : Str :=
  data.flatMap fun b => [hexDigit (b.toNat / 16), hexDigit b.toNat]

/-- Two hexadecimal digits for each octet. -/
@[simp]
theorem length_hex (data : Bytes) : (hex data).length = 2 * data.length := by
  induction data with
  | nil => rfl
  | cons b data ih => simp only [hex, List.flatMap_cons, List.length_append, List.length_cons,
      List.length_nil] at *; omega

/-- A hexadecimal text holds only hexadecimal digits. -/
theorem isLowerHex_of_mem_hex {data : Bytes} {c : CodePoint} (h : c ∈ hex data) :
    isLowerHex c = true := by
  simp only [hex, List.mem_flatMap, List.mem_cons, List.not_mem_nil, or_false] at h
  obtain ⟨b, -, rfl | rfl⟩ := h <;> simp

/-- A hexadecimal digit determines the half octet. -/
theorem hexDigit_inj {m n : ℕ} : hexDigit m = hexDigit n ↔ m % 16 = n % 16 := by
  constructor
  · intro h
    have hval := congrArg (fun c : CodePoint => c.val) h
    simp only [hexDigit] at hval
    split_ifs at hval <;> omega
  · intro h
    simp only [hexDigit, h]

/-- Octets are determined by their hexadecimal text. -/
theorem hex_injective : Function.Injective hex := by
  intro a b h
  induction a generalizing b with
  | nil =>
    cases b with
    | nil => rfl
    | cons y ys => simp [hex] at h
  | cons x xs ih =>
    cases b with
    | nil => simp [hex] at h
    | cons y ys =>
      simp only [hex, List.flatMap_cons, List.cons_append, List.nil_append, List.cons.injEq,
        hexDigit_inj] at h
      obtain ⟨hhigh, hlow, hrest⟩ := h
      have hx := x.toNat_lt
      have hy := y.toNat_lt
      have heq : x = y := UInt8.toNat_inj.mp (by omega)
      rw [heq, ih hrest]

/-- `str.startswith`. -/
def startsWith (s pre : Str) : Bool := pre.isPrefixOf s

/-- `str.endswith`. -/
def endsWith (s suffix : Str) : Bool := suffix.isSuffixOf s

/-- `text in s`. -/
def containsText (s text : Str) : Bool := s.tails.any fun t => startsWith t text

/-- `str.replace(old, new)` for a one-character `old`. -/
def replaceChar (s : Str) (old : CodePoint) (new : Str) : Str :=
  s.flatMap fun c => if c = old then new else [c]

/-- `s.partition(separator)`: what stands before the separator, whether there is one, and what
stands behind it. -/
def partition (s : Str) (separator : CodePoint) : Str × Bool × Str :=
  (s.takeWhile (· ≠ separator), decide (separator ∈ s), (s.dropWhile (· ≠ separator)).tail)

/-- The characters `str.strip()` removes: `str.isspace` of one character. -/
def isSpace (c : CodePoint) : Bool :=
  decide (0x09 ≤ c.val ∧ c.val ≤ 0x0D ∨ 0x1C ≤ c.val ∧ c.val ≤ 0x20 ∨ c.val = 0x85 ∨
    c.val = 0xA0 ∨ c.val = 0x1680 ∨ 0x2000 ≤ c.val ∧ c.val ≤ 0x200A ∨ c.val = 0x2028 ∨
    c.val = 0x2029 ∨ c.val = 0x202F ∨ c.val = 0x205F ∨ c.val = 0x3000)

/-- `str.strip()`. -/
def strip (s : Str) : Str :=
  ((s.dropWhile isSpace).reverse.dropWhile isSpace).reverse

/-- `str.lower()` on ASCII. Outside ASCII only `U+212A` (to `k`) and `U+0130` (to `i` and a
combining dot) lower to a text with an ASCII letter. -/
def lower (s : Str) : Str :=
  s.map fun c => if h : 0x41 ≤ c.val ∧ c.val ≤ 0x5A then ⟨c.val + 0x20, by omega⟩ else c

/-- The line ends of text read from a file: `\r\n` and `\r` become `\n`. -/
def universalNewlines : Str → Str
  | [] => []
  | [c] => [if c = 0x0D then 0x0A else c]
  | c :: d :: rest =>
    if c = 0x0D then
      if d = 0x0A then 0x0A :: universalNewlines rest else 0x0A :: universalNewlines (d :: rest)
    else c :: universalNewlines (d :: rest)

/-- Text without carriage returns is read as it is. -/
theorem universalNewlines_of_notMem {s : Str} (h : (0x0D : CodePoint) ∉ s) :
    universalNewlines s = s := by
  fun_induction universalNewlines s with
  | case1 => rfl
  | case2 c =>
    have hc : ¬c = 0x0D := by simpa [eq_comm] using h
    rw [if_neg hc]
  | case3 | case4 => simp at h
  | case5 c d rest hc ih => rw [ih fun hmem => h (List.mem_cons_of_mem _ hmem)]

/-- `str(n)` for an integer. -/
def intRepr (n : ℤ) : Str :=
  (if n < 0 then lit "-" else []) ++
    (if n = 0 then lit "0" else (Nat.digits 10 n.natAbs).reverse.map digit)

end Python
