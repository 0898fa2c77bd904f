import OnceMesh.Python.Text
import Mathlib.Data.List.DropRight

/-!
# URL-safe base64

`urlsafeEncode` is `base64.urlsafe_b64encode(data).rstrip(b"=")`; `urlsafeDecode` is
`base64.b64decode(text + padding, altchars=b"-_", validate=True)` of an unpadded text, which
drops the bits left over after the last whole octet (`b64decode_append_padding`). The encoding of
some octets is the one text that decodes to them and is the encoding of what it decodes to
(`canonical_iff`).
-/

namespace Python.Base64

/-- The character of a sextet. -/
def ofSextet (n : ℕ) : CodePoint :=
  let k := n % 64
  if h₁ : k < 26 then ⟨0x41 + k, by omega⟩
  else if h₂ : k < 52 then ⟨0x61 + (k - 26), by omega⟩
  else if h₃ : k < 62 then ⟨0x30 + (k - 52), by omega⟩
  else if k = 62 then 0x2D
  else 0x5F

/-- The sextet of a character of the alphabet `[A-Za-z0-9_-]`. -/
def toSextet? (c : CodePoint) : Option ℕ :=
  if 0x41 ≤ c.val ∧ c.val ≤ 0x5A then some (c.val - 0x41)
  else if 0x61 ≤ c.val ∧ c.val ≤ 0x7A then some (c.val - 0x61 + 26)
  else if 0x30 ≤ c.val ∧ c.val ≤ 0x39 then some (c.val - 0x30 + 52)
  else if c = 0x2D then some 62
  else if c = 0x5F then some 63
  else none

/-- `[A-Za-z0-9_-]`. -/
def isUrlsafe (c : CodePoint) : Bool := (toSextet? c).isSome

/-- Unpadded URL-safe base64. -/
def urlsafeEncode : Bytes → Str
  | a :: b :: c :: rest =>
    let n := a.toNat * 65536 + b.toNat * 256 + c.toNat
    ofSextet (n / 262144) :: ofSextet (n / 4096) :: ofSextet (n / 64) :: ofSextet n ::
      urlsafeEncode rest
  | [a, b] =>
    let n := a.toNat * 1024 + b.toNat * 4
    [ofSextet (n / 4096), ofSextet (n / 64), ofSextet n]
  | [a] => [ofSextet (a.toNat / 4), ofSextet (a.toNat * 16)]
  | [] => []

/-- The octets of a run of sextets. -/
def ofSextets : List ℕ → Bytes
  | a :: b :: c :: d :: rest =>
    let n := a * 262144 + b * 4096 + c * 64 + d
    UInt8.ofNat (n / 65536) :: UInt8.ofNat (n / 256) :: UInt8.ofNat n :: ofSextets rest
  | [a, b, c] =>
    let n := a * 4096 + b * 64 + c
    [UInt8.ofNat (n / 1024), UInt8.ofNat (n / 4)]
  | [a, b] => [UInt8.ofNat ((a * 64 + b) / 16)]
  | _ => []

/-- The decoder; a character outside the alphabet and a single left-over character are
`binascii.Error`s. -/
def urlsafeDecode (s : Str) : Option Bytes :=
  if s.length % 4 = 1 then none else (s.mapM toSextet?).map ofSextets

/-! ### The round trip -/

theorem toSextet?_ofSextet (n : ℕ) : toSextet? (ofSextet n) = some (n % 64) := by
  have hmod : ofSextet n = ofSextet (n % 64) := by simp only [ofSextet, Nat.mod_mod]
  have hall : ∀ k : Fin 64, toSextet? (ofSextet k) = some k.val := by decide
  rw [hmod]
  exact hall ⟨n % 64, Nat.mod_lt n (by decide)⟩

/-- Octets are determined by their number. -/
theorem ofNat_eq_of_mod {n : ℕ} {a : UInt8} (h : n % 256 = a.toNat) : UInt8.ofNat n = a := by
  rw [← UInt8.toNat_inj, UInt8.toNat_ofNat', h]

/-- The sextets of the characters give the octets back. -/
theorem exists_sextets (data : Bytes) :
    ∃ sextets, (urlsafeEncode data).mapM toSextet? = some sextets ∧ ofSextets sextets = data := by
  fun_induction urlsafeEncode data with
  | case1 a b c rest n ih =>
    obtain ⟨sextets, hsextets, hrest⟩ := ih
    have ha := a.toNat_lt
    have hb := b.toNat_lt
    have hc := c.toNat_lt
    refine ⟨n / 262144 % 64 :: n / 4096 % 64 :: n / 64 % 64 :: n % 64 :: sextets, ?_, ?_⟩
    · simp [toSextet?_ofSextet, hsextets]
    · rw [ofSextets, hrest]
      simp only [List.cons.injEq, and_true]
      refine ⟨ofNat_eq_of_mod ?_, ofNat_eq_of_mod ?_, ofNat_eq_of_mod ?_⟩
      all_goals omega
  | case2 a b n =>
    have ha := a.toNat_lt
    have hb := b.toNat_lt
    refine ⟨[n / 4096 % 64, n / 64 % 64, n % 64], ?_, ?_⟩
    · simp [toSextet?_ofSextet]
    · rw [ofSextets]
      simp only [List.cons.injEq, and_true]
      refine ⟨ofNat_eq_of_mod ?_, ofNat_eq_of_mod ?_⟩
      all_goals omega
  | case3 a =>
    have ha := a.toNat_lt
    refine ⟨[a.toNat / 4 % 64, a.toNat * 16 % 64], ?_, ?_⟩
    · simp [toSextet?_ofSextet]
    · rw [ofSextets]
      simp only [List.cons.injEq, and_true]
      apply ofNat_eq_of_mod
      omega
  | case4 => exact ⟨[], rfl, rfl⟩

/-- No number of octets leaves a single character over. -/
theorem length_urlsafeEncode_mod (data : Bytes) : (urlsafeEncode data).length % 4 ≠ 1 := by
  fun_induction urlsafeEncode data with
  | case1 a b c rest n ih =>
    simp only [List.length_cons]
    omega
  | _ => simp

/-- Octets of any number are decoded from their encoding. -/
theorem urlsafeDecode_urlsafeEncode (data : Bytes) :
    urlsafeDecode (urlsafeEncode data) = some data := by
  obtain ⟨sextets, hsextets, hdata⟩ := exists_sextets data
  rw [urlsafeDecode, if_neg (length_urlsafeEncode_mod data), hsextets, Option.map_some, hdata]

/-- The encoding is in the alphabet. -/
theorem all_isUrlsafe_urlsafeEncode (data : Bytes) : (urlsafeEncode data).all isUrlsafe = true := by
  have hchar : ∀ n, isUrlsafe (ofSextet n) = true := by
    intro n
    rw [isUrlsafe, toSextet?_ofSextet, Option.isSome_some]
  fun_induction urlsafeEncode data with
  | case1 a b c rest n ih => simp [hchar, ih]
  | _ => simp [hchar]

/-- A text that is the encoding of what it decodes to is the encoding of some octets. -/
theorem canonical_iff {s : Str} {data : Bytes} :
    urlsafeDecode s = some data ∧ urlsafeEncode data = s ↔ s = urlsafeEncode data := by
  constructor
  · intro h
    exact h.2.symm
  · intro h
    rw [h]
    exact ⟨urlsafeDecode_urlsafeEncode data, rfl⟩

/-- Four characters for every three octets, and one more than the octets that are left over. -/
theorem length_urlsafeEncode (data : Bytes) :
    (urlsafeEncode data).length = (4 * data.length + 2) / 3 := by
  fun_induction urlsafeEncode data with
  | case1 a b c rest n ih =>
    simp only [List.length_cons, ih]
    omega
  | _ => simp

/-! ### Padding -/

/-- `"=" * (-len(s) % 4)`. -/
def padding (s : Str) : Str := List.replicate ((4 - s.length % 4) % 4) 0x3D

/-- The sextet of a character for `b64decode`: the characters that `altchars` stands for are read
too. -/
def readSextet? (c : CodePoint) : Option ℕ :=
  if c = 0x2B then some 62 else if c = 0x2F then some 63 else toSextet? c

/-- `base64.b64decode(s, altchars=b"-_", validate=True)`: the padding completes the last four
characters, and nothing else is outside the alphabet. -/
def b64decode (s : Str) : Option Bytes :=
  let text := s.rdropWhile (· = 0x3D)
  if s.length % 4 ≠ 0 ∨ 2 < s.length - text.length then none
  else (text.mapM readSextet?).map ofSextets

/-- In the alphabet, no other character is read. -/
theorem mapM_readSextet? {s : Str} (h : ∀ c ∈ s, isUrlsafe c = true) :
    s.mapM readSextet? = s.mapM toSextet? := by
  induction s with
  | nil => rfl
  | cons c rest ih =>
    rw [List.forall_mem_cons] at h
    have hplus : c ≠ 0x2B := by
      rintro rfl
      exact absurd h.1 (by decide)
    have hslash : c ≠ 0x2F := by
      rintro rfl
      exact absurd h.1 (by decide)
    rw [List.mapM_cons, List.mapM_cons, readSextet?, if_neg hplus, if_neg hslash, ih h.2]

/-- The decoder of an unpadded text in the alphabet is that of the text with its padding. -/
theorem b64decode_append_padding {s : Str} (halphabet : s.all isUrlsafe = true)
    (hlength : s.length % 4 ≠ 1) : b64decode (s ++ padding s) = urlsafeDecode s := by
  have hsafe : ∀ c ∈ s, isUrlsafe c = true := List.all_eq_true.mp halphabet
  -- the padding is what is dropped at the end
  have htext : (s ++ padding s).rdropWhile (· = 0x3D) = s := by
    have hpadding : ∀ c ∈ (padding s).reverse, decide (c = 0x3D) = true := by
      intro c hc
      rw [List.mem_reverse] at hc
      exact decide_eq_true (List.eq_of_mem_replicate hc)
    have hend : s.rdropWhile (· = 0x3D) = s := by
      rw [List.rdropWhile_eq_self_iff]
      intro hne hequals
      have hmem := hsafe _ (List.getLast_mem hne)
      rw [of_decide_eq_true hequals] at hmem
      exact absurd hmem (by decide)
    rw [List.rdropWhile, List.reverse_append, List.dropWhile_append_of_pos hpadding,
      ← List.rdropWhile, hend]
  have hsextets : s.mapM readSextet? = s.mapM toSextet? := mapM_readSextet? hsafe
  have hpadded : (padding s).length = (4 - s.length % 4) % 4 := List.length_replicate ..
  rw [b64decode, htext, List.length_append, hpadded, if_neg (by omega), urlsafeDecode,
    if_neg hlength, hsextets]

end Python.Base64
