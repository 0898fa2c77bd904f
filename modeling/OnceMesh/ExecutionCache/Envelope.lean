import OnceMesh.Canonical

/-!
# The value envelope

A value of the execution cache is a type tag and a payload. It is stored as the length of the tag in
four octets, the tag in UTF-8, and the payload.
-/

namespace OnceMesh

open Python

/-- `MAX_TYPE_TAG_BYTES`. -/
def maxTypeTagBytes : ℕ := 1024

/-- `_validate_type_tag`. -/
def validateTypeTag (typeTag : Str) : Except PyError Bytes := do
  raiseIf (typeTag = []) "type tag must be a non-empty string"
  let encoded ← encodeStrict typeTag
  raiseIf (maxTypeTagBytes < encoded.length || (0 : CodePoint) ∈ typeTag) "type tag is invalid"
  pure encoded

/-- `EncodedExecutionValue`. -/
structure EncodedExecutionValue where
  typeTag : Str
  payload : Bytes
  valid : (validateTypeTag typeTag).isOk = true

namespace EncodedExecutionValue

@[ext]
theorem ext {v w : EncodedExecutionValue} (htag : v.typeTag = w.typeTag)
    (hpayload : v.payload = w.payload) : v = w := by
  obtain ⟨tag, payload, _⟩ := v
  obtain ⟨tag', payload', _⟩ := w
  cases htag
  cases hpayload
  rfl

instance : DecidableEq EncodedExecutionValue := fun v w =>
  decidable_of_iff (v.typeTag = w.typeTag ∧ v.payload = w.payload)
    ⟨fun h => ext h.1 h.2, fun h => by rw [h]; exact ⟨rfl, rfl⟩⟩

/-- `EncodedExecutionValue(type_tag, payload)`. -/
def make (typeTag : Str) (payload : Bytes) : Except PyError EncodedExecutionValue :=
  match h : validateTypeTag typeTag with
  | .ok _ => .ok ⟨typeTag, payload, by rw [h]; rfl⟩
  | .error e => .error e

theorem make_self (v : EncodedExecutionValue) : make v.typeTag v.payload = .ok v := by
  obtain ⟨encoded, hencoded⟩ := Except.exists_of_isOk v.valid
  unfold make
  split
  · rfl
  · next e he => cases hencoded.symm.trans he

end EncodedExecutionValue

/-- `int.to_bytes(4, "big")` of a number below `2 ^ 32`. -/
def toBytes4 (n : ℕ) : Bytes :=
  [UInt8.ofNat (n / 2 ^ 24), UInt8.ofNat (n / 2 ^ 16), UInt8.ofNat (n / 2 ^ 8), UInt8.ofNat n]

/-- `int.from_bytes(data, "big")`. -/
def fromBytes (data : Bytes) : ℕ := data.foldl (fun n b => n * 256 + b.toNat) 0

theorem fromBytes_toBytes4 {n : ℕ} (h : n < 2 ^ 32) : fromBytes (toBytes4 n) = n := by
  simp only [fromBytes, toBytes4, List.foldl_cons, List.foldl_nil, UInt8.toNat_ofNat']
  omega

/-- Four octets are the length they encode. -/
theorem toBytes4_fromBytes {data : Bytes} (h : data.length = 4) :
    toBytes4 (fromBytes data) = data := by
  match data, h with
  | [a, b, c, d], _ =>
    have hvalue : fromBytes [a, b, c, d] =
        ((a.toNat * 256 + b.toNat) * 256 + c.toNat) * 256 + d.toNat := by
      simp [fromBytes]
    rw [hvalue, toBytes4]
    have ha := a.toNat_lt
    have hb := b.toNat_lt
    have hc := c.toNat_lt
    have hd := d.toNat_lt
    congr 1 <;> [skip; congr 1 <;> [skip; congr 1 <;> [skip; congr 1]]]
    all_goals
      apply UInt8.toNat_inj.mp
      rw [UInt8.toNat_ofNat']
      omega

/-- `pack_execution_value`. -/
def packExecutionValue (value : EncodedExecutionValue) : Except PyError Bytes := do
  let tag ← validateTypeTag value.typeTag
  pure (toBytes4 tag.length ++ tag ++ value.payload)

/-- `unpack_execution_value`. -/
def unpackExecutionValue (data : Bytes) : Except PyError EncodedExecutionValue := do
  raiseIf (data.length < 5) "execution cache value envelope is truncated"
  let tagSize := fromBytes (data.take 4)
  raiseIf (tagSize < 1 || maxTypeTagBytes < tagSize || data.length < 4 + tagSize)
    "execution cache value envelope has an invalid type tag length"
  match decodeUtf8 ((data.drop 4).take tagSize) with
  | none => raiseValueError "execution cache value type tag is not UTF-8"
  | some tag => EncodedExecutionValue.make tag (data.drop (4 + tagSize))

/-! ### Packing and unpacking -/

/-- A valid tag has between one and `MAX_TYPE_TAG_BYTES` octets. -/
theorem encodeUtf8_of_validateTypeTag {typeTag : Str} {encoded : Bytes}
    (h : validateTypeTag typeTag = .ok encoded) :
    encodeUtf8 typeTag = some encoded ∧ 1 ≤ encoded.length ∧ encoded.length ≤ maxTypeTagBytes := by
  obtain ⟨hnonempty, h⟩ := Except.check_eq_ok.mp h
  obtain ⟨encoded', hencoded, h⟩ := Except.bind_eq_ok.mp h
  obtain ⟨hsize, hpure⟩ := Except.check_eq_ok.mp h
  cases hpure
  rw [raiseIf_eq_ok, decide_eq_false_iff_not] at hnonempty
  rw [raiseIf_eq_ok, Bool.or_eq_false_iff, decide_eq_false_iff_not, not_lt] at hsize
  have hutf8 : encodeUtf8 typeTag = some encoded := by
    unfold encodeStrict at hencoded
    split at hencoded
    · next data hdata =>
      rw [hdata, Except.ok.inj hencoded]
    · cases hencoded
  refine ⟨hutf8, Nat.one_le_iff_ne_zero.mpr fun hzero => hnonempty ?_, hsize.1⟩
  -- only the empty text has an empty encoding
  have hdecoded := decodeUtf8_of_encodeUtf8 hutf8
  rw [List.length_eq_zero_iff.mp hzero] at hdecoded
  exact (Option.some.inj hdecoded).symm

/-- Every value is packed. -/
theorem exists_packExecutionValue (value : EncodedExecutionValue) :
    ∃ data, packExecutionValue value = .ok data := by
  obtain ⟨encoded, hencoded⟩ := Except.exists_of_isOk value.valid
  exact ⟨_, Except.bind_eq_ok.mpr ⟨encoded, hencoded, rfl⟩⟩

/-- Unpacking undoes packing. -/
theorem unpackExecutionValue_of_pack {value : EncodedExecutionValue} {data : Bytes}
    (h : packExecutionValue value = .ok data) : unpackExecutionValue data = .ok value := by
  obtain ⟨tag, htag, hdata⟩ := Except.bind_eq_ok.mp h
  obtain ⟨hutf8, hpos, hmax⟩ := encodeUtf8_of_validateTypeTag htag
  have hfour : (toBytes4 tag.length).length = 4 := rfl
  have hsplit : data = toBytes4 tag.length ++ (tag ++ value.payload) := by
    rw [← List.append_assoc]
    exact (Except.ok.inj hdata).symm
  have hsize : fromBytes (data.take 4) = tag.length := by
    rw [hsplit, List.take_left' hfour]
    exact fromBytes_toBytes4 (by unfold maxTypeTagBytes at hmax; omega)
  have hlength : data.length = 4 + (tag.length + value.payload.length) := by
    rw [hsplit, List.length_append, List.length_append, hfour]
  have hrest : data.drop 4 = tag ++ value.payload := by
    rw [hsplit, List.drop_left' hfour]
  rw [unpackExecutionValue, Except.check_eq_ok, raiseIf_eq_ok, decide_eq_false_iff_not]
  refine ⟨by omega, Except.check_eq_ok.mpr ⟨?_, ?_⟩⟩
  · rw [hsize, raiseIf_eq_ok]
    simp only [Bool.or_eq_false_iff, decide_eq_false_iff_not]
    omega
  · rw [hsize, hrest, List.take_left' rfl, decodeUtf8_of_encodeUtf8 hutf8, ← List.drop_drop, hrest,
      List.drop_left' rfl]
    exact value.make_self

/-- A valid tag is what its octets decode to. -/
theorem validateTypeTag_of_make {typeTag : Str} {payload : Bytes} {value : EncodedExecutionValue}
    (h : EncodedExecutionValue.make typeTag payload = .ok value) :
    value.typeTag = typeTag ∧ value.payload = payload ∧
      ∃ encoded, validateTypeTag typeTag = .ok encoded := by
  unfold EncodedExecutionValue.make at h
  split at h
  · next encoded hencoded =>
    cases h
    exact ⟨rfl, rfl, encoded, hencoded⟩
  · cases h

/-- Packing undoes unpacking. -/
theorem packExecutionValue_of_unpack {data : Bytes} {value : EncodedExecutionValue}
    (h : unpackExecutionValue data = .ok value) : packExecutionValue value = .ok data := by
  obtain ⟨hlong, h⟩ := Except.check_eq_ok.mp h
  obtain ⟨hsize, h⟩ := Except.check_eq_ok.mp h
  simp only [raiseIf_eq_ok, Bool.or_eq_false_iff, decide_eq_false_iff_not] at hlong hsize
  split at h
  · cases h
  next tag hdecode =>
  obtain ⟨htag, hpayload, encoded, hvalid⟩ := validateTypeTag_of_make h
  -- the strict decoder accepts one encoding of the tag, so the encoder writes the octets read
  have hencoded : encoded = (data.drop 4).take (fromBytes (data.take 4)) := by
    have hutf8 := (encodeUtf8_of_validateTypeTag hvalid).1
    exact Option.some.inj (hutf8.symm.trans (encodeUtf8_of_decodeUtf8 hdecode))
  have hlength : encoded.length = fromBytes (data.take 4) := by
    rw [hencoded, List.length_take, List.length_drop]
    omega
  have hfour : toBytes4 (fromBytes (data.take 4)) = data.take 4 :=
    toBytes4_fromBytes (by rw [List.length_take]; omega)
  rw [packExecutionValue, htag, hvalid, Except.ok_bind, hlength, hfour, hencoded, hpayload,
    List.append_assoc, ← List.drop_drop, List.take_append_drop, List.take_append_drop]
  rfl

/-- A tag is refused with a `ValueError`. -/
theorem raisesOnly_validateTypeTag (typeTag : Str) :
    RaisesOnlyValueError (validateTypeTag typeTag) :=
  (raisesOnly_raiseIf _ _).bind fun _ _ => (raisesOnly_encodeStrict _).bind fun _ _ =>
    (raisesOnly_raiseIf _ _).bind fun _ _ => .pure _

/-- An envelope is refused with a `ValueError`. -/
theorem raisesOnly_unpackExecutionValue (data : Bytes) :
    RaisesOnlyValueError (unpackExecutionValue data) := by
  apply (raisesOnly_raiseIf _ _).bind
  intro _ _
  apply (raisesOnly_raiseIf _ _).bind
  intro _ _
  split
  · exact raisesOnly_raiseValueError _
  · next tag _ =>
    unfold EncodedExecutionValue.make
    split
    · exact .ok _
    · next e he => exact .error (raisesOnly_validateTypeTag tag e he)

/-- Values and the envelopes that are accepted correspond one to one: a value is read back from its
envelope, an envelope that is accepted is that of the value read, and any other is refused with a
`ValueError`. -/
theorem valueEnvelope_bijective :
    (∀ value, ∃ data, packExecutionValue value = .ok data ∧
      unpackExecutionValue data = .ok value) ∧
    (∀ data, (∃ e, unpackExecutionValue data = .error e ∧ e.isValueError = true) ∨
      ∃ value, unpackExecutionValue data = .ok value ∧ packExecutionValue value = .ok data) ∧
    (∀ data, (unpackExecutionValue data).isOk = true ↔
      ∃ value, packExecutionValue value = .ok data) ∧
    ∀ data data' value, unpackExecutionValue data = .ok value →
      unpackExecutionValue data' = .ok value → data = data' := by
  refine ⟨?_, ?_, ?_, ?_⟩
  · intro value
    obtain ⟨data, hpack⟩ := exists_packExecutionValue value
    exact ⟨data, hpack, unpackExecutionValue_of_pack hpack⟩
  · intro data
    cases hunpack : unpackExecutionValue data with
    | error e => exact .inl ⟨e, rfl, raisesOnly_unpackExecutionValue data e hunpack⟩
    | ok value => exact .inr ⟨value, rfl, packExecutionValue_of_unpack hunpack⟩
  · intro data
    constructor
    · intro hok
      obtain ⟨value, hunpack⟩ := Except.exists_of_isOk hok
      exact ⟨value, packExecutionValue_of_unpack hunpack⟩
    · rintro ⟨value, hpack⟩
      rw [unpackExecutionValue_of_pack hpack]
      rfl
  · intro data data' value hdata hdata'
    exact Except.ok.inj ((packExecutionValue_of_unpack hdata).symm.trans
      (packExecutionValue_of_unpack hdata'))

end OnceMesh
