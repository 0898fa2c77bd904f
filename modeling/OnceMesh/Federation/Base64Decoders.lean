import OnceMesh.Federation.Identity
import OnceMesh.Federation.Http

/-!
# The decoders of base64url

Blobs, signatures and keys are decoded by functions that differ in their patterns, their padding and
the lengths they ask for. Each accepts exactly the encodings of octets of its length
(`Decoder.decode_eq_ok`), so no two texts stand for the same octets.
-/

namespace OnceMesh.Federation

open Python

/-! ### Octets of a fixed number -/

/-- The shape the decoders of signatures and keys share: a pattern, the decoder, a test of the
number of octets and of the encoding, and a message for each. -/
def decodeSized (pattern : Str → Bool) (size : ℕ) (malformed invalid mismatch : String)
    (value : Value) : Except PyError Bytes :=
  match value with
  | .str s =>
    if pattern s then
      match Base64.urlsafeDecode s with
      | none => raiseValueError invalid
      | some decoded =>
        if decoded.length ≠ size ∨ Base64.urlsafeEncode decoded ≠ s then raiseValueError mismatch
        else .ok decoded
    else raiseValueError malformed
  | _ => raiseValueError malformed

theorem decodeSized_eq_ok {pattern : Str → Bool} {size : ℕ} {malformed invalid mismatch : String}
    (hpattern : ∀ data, data.length = size → pattern (Base64.urlsafeEncode data) = true)
    {value : Value} {data : Bytes} :
    decodeSized pattern size malformed invalid mismatch value = .ok data ↔
      value = .str (Base64.urlsafeEncode data) ∧ data.length = size := by
  constructor
  · intro h
    unfold decodeSized at h
    split at h
    next s =>
      split_ifs at h
      · split at h
        · cases h
        next decoded hdecoded =>
          split_ifs at h with hwrong
          · cases h
          · cases h
            push Not at hwrong
            rw [hwrong.2]
            exact ⟨rfl, hwrong.1⟩
      · cases h
    next => cases h
  · rintro ⟨rfl, hlength⟩
    rw [decodeSized, hpattern data hlength, if_pos rfl, Base64.urlsafeDecode_urlsafeEncode]
    exact if_neg (not_or.mpr ⟨not_not.mpr hlength, not_not.mpr rfl⟩)

/-- The encoding of 64 octets passes the pattern of signatures. -/
theorem isSignatureText_urlsafeEncode (data : Bytes) (h : data.length = 64) :
    isSignatureText (Base64.urlsafeEncode data) = true := by
  rw [isSignatureText, Base64.length_urlsafeEncode, h, Base64.all_isUrlsafe_urlsafeEncode]
  rfl

/-- The encoding of 32 octets passes the pattern of keys. -/
theorem isPublicKeyText_urlsafeEncode (data : Bytes) (h : data.length = 32) :
    isPublicKeyText (Base64.urlsafeEncode data) = true := by
  rw [isPublicKeyText, Base64.length_urlsafeEncode, h, Base64.all_isUrlsafe_urlsafeEncode]
  rfl

/-! ### Octets of any number -/

/-- The shape the decoders of blobs share, with a message for each check. -/
def decodeUnsized (alphabet length invalid mismatch : String) (value : Value) :
    Except PyError Bytes :=
  match value with
  | .str s =>
    if !s.all Base64.isUrlsafe then raiseValueError alphabet
    else if s.length % 4 = 1 then raiseValueError length
    else
      match Base64.urlsafeDecode s with
      | none => raiseValueError invalid
      | some decoded =>
        if Base64.urlsafeEncode decoded ≠ s then raiseValueError mismatch else .ok decoded
  | _ => raiseValueError alphabet

theorem decodeUnsized_eq_ok {alphabet length invalid mismatch : String} {value : Value}
    {data : Bytes} :
    decodeUnsized alphabet length invalid mismatch value = .ok data ↔
      value = .str (Base64.urlsafeEncode data) := by
  constructor
  · intro h
    unfold decodeUnsized at h
    split at h
    next s =>
      split_ifs at h
      · cases h
      · cases h
      · split at h
        · cases h
        next decoded hdecoded =>
          split_ifs at h with hwrong
          · cases h
          · cases h
            rw [not_not.mp hwrong]
    next => cases h
  · rintro rfl
    rw [decodeUnsized, Base64.all_isUrlsafe_urlsafeEncode, if_neg (by decide),
      if_neg (Base64.length_urlsafeEncode_mod data), Base64.urlsafeDecode_urlsafeEncode]
    exact if_neg (not_not.mpr rfl)

/-- The pilot tools make one check of the first two, and add the padding. -/
theorem decodePilotBlob_eq (value : Value) (label : String) : decodePilotBlob value label =
    decodeUnsized (label ++ " must be canonical unpadded base64url")
      (label ++ " must be canonical unpadded base64url") (label ++ " is invalid base64url")
      (label ++ " is not canonical base64url") value := by
  cases value with
  | str s =>
    rw [decodePilotBlob, decodeUnsized]
    by_cases halphabet : s.all Base64.isUrlsafe = true
    · by_cases hlength : s.length % 4 = 1
      · simp [halphabet, hlength]
      · simp only [halphabet, hlength, Base64.b64decode_append_padding halphabet hlength]
        rfl
    · simp [halphabet]
  | _ => rfl

/-! ### The decoders -/

/-- The decoders of base64url. The last two are the pilot tools', which name what they decode. -/
inductive Decoder where
  | bundleBlob
  | receiptSignature
  | availabilitySignature
  | requestSignature
  | registryKey
  | pilotKey (label : String)
  | pilotBlob (label : String)

namespace Decoder

/-- The function that decodes, with the pattern its caller applies. -/
def decode : Decoder → Value → Except PyError Bytes
  | bundleBlob => decodeBlob
  | receiptSignature => decodeReceiptValue
  | availabilitySignature => decodeAvailabilitySignature
  | requestSignature => decodeSignature
  | registryKey => decodePublicKey
  | pilotKey label => fun value => decode32 value label
  | pilotBlob label => fun value => decodePilotBlob value label

/-- The number of octets it asks for; a blob may have any. -/
def size? : Decoder → Option ℕ
  | bundleBlob | pilotBlob _ => none
  | receiptSignature | availabilitySignature | requestSignature => some 64
  | registryKey | pilotKey _ => some 32

/-- A number of octets that it accepts. -/
def Admits (d : Decoder) (length : ℕ) : Prop := ∀ size ∈ d.size?, length = size

theorem decode_bundleBlob (value : Value) : bundleBlob.decode value =
    decodeUnsized "artifact is not base64url" "artifact base64url length is invalid"
      "invalid base64"
      "artifact base64url is not canonical" value := by
  cases value <;> rfl

/-- What is accepted is the encoding of some octets of the right number. -/
theorem decode_eq_ok (d : Decoder) {value : Value} {data : Bytes} :
    d.decode value = .ok data ↔
      value = .str (Base64.urlsafeEncode data) ∧ d.Admits data.length := by
  have hsignature : ∀ malformed invalid mismatch,
      decodeSized isSignatureText 64 malformed invalid mismatch value = .ok data ↔
        value = .str (Base64.urlsafeEncode data) ∧ data.length = 64 := fun _ _ _ =>
    decodeSized_eq_ok isSignatureText_urlsafeEncode
  have hkey : ∀ malformed invalid mismatch,
      decodeSized isPublicKeyText 32 malformed invalid mismatch value = .ok data ↔
        value = .str (Base64.urlsafeEncode data) ∧ data.length = 32 := fun _ _ _ =>
    decodeSized_eq_ok isPublicKeyText_urlsafeEncode
  cases d with
  | bundleBlob =>
    rw [decode_bundleBlob, decodeUnsized_eq_ok]
    simp [Admits, size?]
  | pilotBlob label =>
    show decodePilotBlob value label = .ok data ↔ _
    rw [decodePilotBlob_eq, decodeUnsized_eq_ok]
    simp [Admits, size?]
  | receiptSignature =>
    have heq : receiptSignature.decode value = decodeSized isSignatureText 64
        "receipt signature value is not canonical base64url"
        "receipt signature value is invalid base64url"
        "receipt signature must be canonical encoding of 64 bytes" value := by cases value <;> rfl
    rw [heq, hsignature]
    simp [Admits, size?]
  | availabilitySignature =>
    have heq : availabilitySignature.decode value = decodeSized isSignatureText 64
        "availability signature is not canonical base64url" "invalid base64"
        "availability signature must encode 64 bytes" value := by cases value <;> rfl
    rw [heq, hsignature]
    simp [Admits, size?]
  | requestSignature =>
    have heq : requestSignature.decode value = decodeSized isSignatureText 64
        "request signature is not canonical base64url" "invalid base64"
        "request signature must encode 64 bytes" value := by cases value <;> rfl
    rw [heq, hsignature]
    simp [Admits, size?]
  | registryKey =>
    have heq : registryKey.decode value = decodeSized isPublicKeyText 32
        "public_key must be canonical unpadded base64url" "public_key is invalid base64url"
        "public_key must encode exactly 32 bytes" value := by cases value <;> rfl
    rw [heq, hkey]
    simp [Admits, size?]
  | pilotKey label =>
    have heq : (pilotKey label).decode value = decodeSized isPublicKeyText 32
        (label ++ " must be canonical unpadded base64url") (label ++ " is invalid base64url")
        (label ++ " must encode exactly 32 bytes") value := by cases value <;> rfl
    rw [heq, hkey]
    simp [Admits, size?]

/-- Every decoder accepts exactly the canonical encodings, so no two texts stand for the same
octets, and octets of its number are decoded from their encoding. A decoder of an unpadded text
stands for `b64decode` of the text with the padding that the code adds. -/
theorem decode_canonical (d : Decoder) :
    (∀ value data, d.decode value = .ok data ↔
        value = .str (Base64.urlsafeEncode data) ∧ d.Admits data.length) ∧
      (∀ s s' data, d.decode (.str s) = .ok data → d.decode (.str s') = .ok data → s = s') ∧
      (∀ data, d.Admits data.length → d.decode (.str (Base64.urlsafeEncode data)) = .ok data) ∧
      ∀ s, s.all Base64.isUrlsafe = true → s.length % 4 ≠ 1 →
        Base64.b64decode (s ++ Base64.padding s) = Base64.urlsafeDecode s := by
  refine ⟨fun value data => d.decode_eq_ok, fun s s' data h h' => ?_,
    fun data h => d.decode_eq_ok.mpr ⟨rfl, h⟩,
    fun s halphabet hlength => Base64.b64decode_append_padding halphabet hlength⟩
  obtain ⟨hs, -⟩ := d.decode_eq_ok.mp h
  obtain ⟨hs', -⟩ := d.decode_eq_ok.mp h'
  exact Value.str.inj (hs.trans hs'.symm)

end Decoder

end OnceMesh.Federation
