import OnceMesh.Python.Text

/-!
# The order of UTF-8

Texts without surrogates compare by code point as their encodings compare by octet
(`encode_lt_encode_iff`).
-/

namespace Python

/-! ### One scalar value -/

/-- Four digits in base 64 compare as the numbers do; what follows decides between equal numbers. -/
theorem digits_lt {m n : ℕ} (h : m < n) (hn : n < 2 ^ 21) (P : Prop) :
    m / 0x40000 % 0x08 + 0xf0 < n / 0x40000 % 0x08 + 0xf0 ∨
      m / 0x40000 % 0x08 + 0xf0 = n / 0x40000 % 0x08 + 0xf0 ∧
        (m / 0x1000 % 0x40 + 0x80 < n / 0x1000 % 0x40 + 0x80 ∨
          m / 0x1000 % 0x40 + 0x80 = n / 0x1000 % 0x40 + 0x80 ∧
            (m / 0x40 % 0x40 + 0x80 < n / 0x40 % 0x40 + 0x80 ∨
              m / 0x40 % 0x40 + 0x80 = n / 0x40 % 0x40 + 0x80 ∧
                (m % 0x40 + 0x80 < n % 0x40 + 0x80 ∨ m % 0x40 + 0x80 = n % 0x40 + 0x80 ∧ P))) := by
  have hm : m = ((m / 0x40000 % 8 * 64 + m / 0x1000 % 64) * 64 + m / 0x40 % 64) * 64 + m % 64 := by
    omega
  have hn : n = ((n / 0x40000 % 8 * 64 + n / 0x1000 % 64) * 64 + n / 0x40 % 64) * 64 + n % 64 := by
    omega
  have hdigit (x : ℕ) : x % 64 < 64 := Nat.mod_lt _ (by decide)
  have hm₁ := hdigit (m / 0x1000)
  have hm₂ := hdigit (m / 0x40)
  have hm₃ := hdigit m
  have hn₁ := hdigit (n / 0x1000)
  have hn₂ := hdigit (n / 0x40)
  have hn₃ := hdigit n
  rw [hm, hn] at h
  clear hm hn hdigit
  generalize m / 0x40000 % 8 = m₀ at *
  generalize n / 0x40000 % 8 = n₀ at *
  generalize m / 0x1000 % 64 = m₁ at *
  generalize n / 0x1000 % 64 = n₁ at *
  generalize m / 0x40 % 64 = m₂ at *
  generalize n / 0x40 % 64 = n₂ at *
  generalize m % 64 = m₃ at *
  generalize n % 64 = n₃ at *
  omega

theorem toNat_lt_two_pow (c : Char) : c.toNat < 2 ^ 21 := by
  have hvalid : c.toNat < 0xD800 ∨ 0xDFFF < c.toNat ∧ c.toNat < 0x110000 := c.valid
  omega

/-- The encoding of a smaller scalar value is smaller, whatever follows. -/
theorem utf8EncodeChar_append_lt {c d : Char} (h : c.toNat < d.toNat) (s t : Bytes) :
    String.utf8EncodeChar c ++ s < String.utf8EncodeChar d ++ t := by
  have hd : d.val.toNat < 2 ^ 21 := toNat_lt_two_pow d
  have hc : c.val.toNat < 2 ^ 21 := toNat_lt_two_pow c
  change c.val.toNat < d.val.toNat at h
  unfold String.utf8EncodeChar
  generalize c.val.toNat = m at *
  generalize d.val.toNat = n at *
  -- no octet overflows
  have hlast (x : ℕ) : (x % 0x40 + 0x80) % 2 ^ 8 = x % 0x40 + 0x80 := by omega
  have htwo (x : ℕ) : (x % 0x20 + 0xc0) % 2 ^ 8 = x % 0x20 + 0xc0 := by omega
  have hthree (x : ℕ) : (x % 0x10 + 0xe0) % 2 ^ 8 = x % 0x10 + 0xe0 := by omega
  have hfour (x : ℕ) : (x % 0x08 + 0xf0) % 2 ^ 8 = x % 0x08 + 0xf0 := by omega
  -- the first octet tells encodings of different lengths apart
  dsimp only
  split_ifs <;>
    simp only [List.cons_append, List.nil_append, List.cons_lt_cons_iff, UInt8.lt_iff_toNat_lt,
      ← UInt8.toNat_inj, UInt8.toNat_ofNat', hlast, htwo, hthree, hfour] <;>
    first
    | exact digits_lt h hd _
    | omega

/-! ### Texts -/

/-- The encoding of scalar values, one after the other. -/
theorem flatMap_utf8EncodeChar_lt {a b : List Char} (h : a.map ofChar < b.map ofChar) :
    a.flatMap String.utf8EncodeChar < b.flatMap String.utf8EncodeChar := by
  induction a generalizing b with
  | nil =>
    cases b with
    | nil => exact absurd h (List.not_lt_nil _)
    | cons d b =>
      rw [List.flatMap_cons]
      cases henc : String.utf8EncodeChar d with
      | nil => exact absurd henc String.utf8EncodeChar_ne_nil
      | cons x xs => exact List.nil_lt_cons x _
  | cons c a ih =>
    cases b with
    | nil => exact absurd h (List.not_lt_nil _)
    | cons d b =>
      rw [List.flatMap_cons, List.flatMap_cons]
      rcases List.cons_lt_cons_iff.mp h with hlt | ⟨heq, hrest⟩
      · exact utf8EncodeChar_append_lt hlt _ _
      · rw [ofChar_injective heq]
        exact List.append_left_lt (ih hrest)

/-- Texts compare as their encodings do. -/
theorem encode_lt_encode_iff {s t : Str} {a b : Bytes} (hs : encodeUtf8 s = some a)
    (ht : encodeUtf8 t = some b) : a < b ↔ s < t := by
  have hmono : ∀ {s t : Str} {a b : Bytes}, encodeUtf8 s = some a → encodeUtf8 t = some b →
      s < t → a < b := by
    intro s t a b hs ht h
    obtain ⟨x, hx, rfl⟩ := Option.map_eq_some_iff.mp hs
    obtain ⟨y, hy, rfl⟩ := Option.map_eq_some_iff.mp ht
    rw [mapM_toChar?_eq_some.mp hx, mapM_toChar?_eq_some.mp hy] at h
    exact flatMap_utf8EncodeChar_lt h
  refine ⟨fun h => ?_, hmono hs ht⟩
  by_contra hnot
  rcases (not_lt.mp hnot).lt_or_eq with hlt | rfl
  · exact List.lt_asymm h (hmono ht hs hlt)
  · rw [Option.some.inj (hs.symm.trans ht)] at h
    exact List.lt_irrefl _ h

end Python
