import OnceMesh.Python.Json.Adequacy
import OnceMesh.Python.Json.RoundTrip
import OnceMesh.Python.Sha256

/-!
# Canonical JSON and digests

`canonicalJson` is the encoding every digest and signature rests on: a check that a value lies
in the v0 profile, then `json.dumps` with sorted keys and compact separators, then UTF-8.

`InProfile` is the profile said declaratively, and `canonicalJson_eq` reduces the encoder to
it, so that the rest of the development never looks at the recursive check again.
-/

namespace OnceMesh

open Python

/-! ### The v0 profile -/

/-- `MAX_SAFE_INTEGER`. -/
def maxSafeInteger : ℤ := 2 ^ 53 - 1

/-- `raise CanonicalizationError(f"{path}: …")`; the class is a `ValueError`. -/
def canonicalizationError (path : Str) (message : String) : Except PyError Unit :=
  .error (.valueError (path ++ lit ": " ++ lit message) [])

/-- The string case of `_validate`. -/
def validateString (path s : Str) : Except PyError Unit :=
  if s.any isSurrogate then
    canonicalizationError path "Unicode surrogate code points are forbidden"
  else .ok ()

mutual

/-- `_validate`. -/
def validate (path : Str) : Value → Except PyError Unit
  | .none | .bool _ => .ok ()
  | .str s => validateString path s
  | .int n =>
    if -maxSafeInteger ≤ n ∧ n ≤ maxSafeInteger then .ok ()
    else canonicalizationError path "integer is outside the interoperable range"
  | .float _ => canonicalizationError path "floating-point values are forbidden in v0"
  | .list items => validateList path 0 items
  | .dict items => validateItems path items
  | .mixedDict before => do
    validateItems path before
    canonicalizationError path "object keys must be strings"
  | .other typeName _ =>
    .error (.valueError (path ++ lit ": unsupported value type " ++ typeName) [])

/-- The elements of an array, from `index` on. -/
def validateList (path : Str) (index : ℕ) : List Value → Except PyError Unit
  | [] => .ok ()
  | v :: vs => do
    validate (path ++ lit "[" ++ intRepr index ++ lit "]") v
    validateList path (index + 1) vs

/-- The members of an object: each key, then its value. -/
def validateItems (path : Str) : List (Str × Value) → Except PyError Unit
  | [] => .ok ()
  | (key, v) :: rest => do
    validateString (path ++ lit ".<key>") key
    validate (path ++ lit "." ++ key) v
    validateItems path rest

end

/-- `str.encode("utf-8")`. -/
def encodeStrict (s : Str) : Except PyError Bytes :=
  match encodeUtf8 s with
  | some data => .ok data
  | none => .error .unicodeError

/-- A text with a lone surrogate raises a `ValueError`. -/
theorem raisesOnly_encodeStrict (s : Str) : RaisesOnlyValueError (encodeStrict s) := by
  unfold encodeStrict
  split
  · exact .ok _
  · exact .error rfl

/-- `canonical_json`. -/
def canonicalJson (value : Value) : Except PyError Bytes := do
  validate (lit "$") value
  encodeStrict (Json.dumps value)

/-- Text without surrogate code points. -/
def Clean (s : Str) : Prop := ∀ c ∈ s, isSurrogate c = false

/-- The canonical JSON profile. -/
inductive InProfile : Value → Prop
  | none : InProfile .none
  | bool (b : Bool) : InProfile (.bool b)
  | int {n : ℤ} (low : -(2 ^ 53) + 1 ≤ n) (high : n ≤ 2 ^ 53 - 1) : InProfile (.int n)
  | str {s : Str} (clean : Clean s) : InProfile (.str s)
  | list {items : List Value} (elements : ∀ v ∈ items, InProfile v) : InProfile (.list items)
  | dict {items : List (Str × Value)} (keys : ∀ i ∈ items, Clean i.1)
      (values : ∀ i ∈ items, InProfile i.2) : InProfile (.dict items)

/-- A text passes just if it has no surrogates. -/
theorem validateString_eq_ok {path s : Str} : validateString path s = .ok () ↔ Clean s := by
  unfold validateString Clean canonicalizationError
  cases h : s.any isSurrogate
  · simpa using h
  · simpa using h

/-- An array passes just if its elements are in the profile. -/
theorem validateList_eq_ok {path : Str} {index : ℕ} {items : List Value}
    (ih : ∀ v ∈ items, ∀ path, validate path v = .ok () ↔ InProfile v) :
    validateList path index items = .ok () ↔ ∀ v ∈ items, InProfile v := by
  induction items generalizing index with
  | nil => simp [validateList]
  | cons v vs ihvs =>
    rw [List.forall_mem_cons] at ih ⊢
    rw [validateList, Except.check_eq_ok, ih.1, ihvs ih.2]

/-- An object passes just if its keys have no surrogates and its values are in the profile. -/
theorem validateItems_eq_ok {path : Str} {items : List (Str × Value)}
    (ih : ∀ i ∈ items, ∀ path, validate path i.2 = .ok () ↔ InProfile i.2) :
    validateItems path items = .ok () ↔
      (∀ i ∈ items, Clean i.1) ∧ ∀ i ∈ items, InProfile i.2 := by
  induction items with
  | nil => simp [validateItems]
  | cons i is ihis =>
    obtain ⟨key, v⟩ := i
    rw [List.forall_mem_cons] at ih
    rw [validateItems, Except.check_eq_ok, Except.check_eq_ok, validateString_eq_ok, ih.1,
      ihis ih.2, List.forall_mem_cons, List.forall_mem_cons]
    tauto

/-- `_validate` accepts exactly the profile, whatever path it reports errors under. -/
theorem validate_eq_ok (v : Value) (path : Str) : validate path v = .ok () ↔ InProfile v := by
  induction v using Value.induction generalizing path with
  | none => exact iff_of_true rfl .none
  | bool b => exact iff_of_true rfl (.bool b)
  | int n =>
    have hrange : -maxSafeInteger ≤ n ∧ n ≤ maxSafeInteger ↔ InProfile (.int n) := by
      constructor
      · rintro ⟨hlow, hhigh⟩
        exact .int (by unfold maxSafeInteger at hlow; omega) hhigh
      · rintro ⟨⟩
        unfold maxSafeInteger
        omega
    rw [← hrange, validate]
    split_ifs with h
    · simp [h]
    · simp [h, canonicalizationError]
  | float x => exact iff_of_false (by simp [validate, canonicalizationError]) (by rintro ⟨⟩)
  | str s =>
    rw [validate, validateString_eq_ok]
    exact ⟨.str, fun h => by cases h; assumption⟩
  | list items ih =>
    rw [validate, validateList_eq_ok ih]
    exact ⟨.list, fun h => by cases h; assumption⟩
  | dict items ih =>
    rw [validate, validateItems_eq_ok ih]
    exact ⟨fun h => .dict h.1 h.2, fun h => by cases h; exact ⟨‹_›, ‹_›⟩⟩
  | mixedDict before ih =>
    refine iff_of_false ?_ (by rintro ⟨⟩)
    rw [validate, Except.bind_eq_ok]
    rintro ⟨-, -, h⟩
    cases h
  | other t h => exact iff_of_false (by simp [validate]) (by rintro ⟨⟩)

/-! ### The encoding of a value in the profile -/

/-- Values in the profile are serialized without loss. -/
theorem InProfile.serializable {v : Value} (h : InProfile v) : v.Serializable := by
  induction h with
  | none | bool _ | str _ => trivial
  | @int n hlow hhigh =>
    have hdigits : 10 ^ 16 ≤ 10 ^ Json.intMaxStrDigits :=
      Nat.pow_le_pow_right (by omega) (by decide)
    refine lt_of_lt_of_le ?_ hdigits
    omega
  | list _ ih => exact Value.serializable_list.mpr ih
  | dict _ _ ih => exact Value.serializable_dict.mpr ih

/-- A literal has no surrogates. -/
theorem clean_lit (s : String) : Clean (lit s) := by
  intro c hc
  obtain ⟨ch, -, rfl⟩ := List.mem_map.mp hc
  exact isSurrogate_ofChar ch

/-- A text has no surrogates just if its parts have none. -/
theorem clean_append {s t : Str} : Clean (s ++ t) ↔ Clean s ∧ Clean t := by
  simp only [Clean, List.forall_mem_append]

/-- Below the surrogates there are none. -/
theorem isSurrogate_of_lt {c : CodePoint} (h : c.val < 0xD800) : isSurrogate c = false :=
  decide_eq_false fun hc => absurd hc.1 (by omega)

/-- The digits of an integer are not surrogates. -/
theorem clean_intRepr (n : ℤ) : Clean (intRepr n) := by
  unfold intRepr
  rw [clean_append]
  refine ⟨by split_ifs <;> simp [Clean, lit, isSurrogate_ofChar], ?_⟩
  split_ifs
  · exact clean_lit "0"
  · intro c hc
    obtain ⟨d, -, rfl⟩ := List.mem_map.mp hc
    exact isSurrogate_of_lt (show 0x30 + d % 10 < 0xD800 by omega)

/-- Escaping introduces no surrogate. -/
theorem clean_quote {s : Str} (h : Clean s) : Clean (Json.quote s) := by
  have hhex : ∀ n, isSurrogate (hexDigit n) = false := by
    intro n
    apply isSurrogate_of_lt
    simp only [hexDigit]
    split <;> omega
  intro c hc
  simp only [Json.quote, List.mem_append, List.mem_cons, List.mem_flatMap, List.not_mem_nil,
    or_false] at hc
  rcases hc with (rfl | ⟨d, hd, hcd⟩) | rfl
  · decide
  · unfold Json.escapeChar at hcd
    split_ifs at hcd <;> simp only [List.mem_cons, List.not_mem_nil, or_false] at hcd
    case neg => rw [hcd]; exact h d hd
    all_goals
      rcases hcd with rfl | rfl | rfl | rfl | rfl | rfl <;> first | decide | exact hhex _
  · decide

/-- Texts that are joined by commas have no surrogates if the texts have none. -/
theorem clean_joinComma {texts : List Str} (h : ∀ t ∈ texts, Clean t) :
    Clean (Json.joinComma texts) := by
  induction texts with
  | nil => simp [Json.joinComma, Clean]
  | cons t ts ih =>
    rw [List.forall_mem_cons] at h
    cases ts with
    | nil => simpa [Json.joinComma] using h.1
    | cons u us =>
      have htail := ih h.2
      rw [Json.joinComma, List.intercalate_cons_cons, clean_append, clean_append]
      exact ⟨⟨h.1, by simp [Clean, isSurrogate]⟩, htail⟩

/-- Serializing a value in the profile introduces no surrogate. -/
theorem clean_dumps {v : Value} (h : InProfile v) : Clean (Json.dumps v) := by
  have hmark : ∀ c : CodePoint, c.val < 0x80 → Clean [c] := by
    intro c hc d hd
    rw [List.mem_singleton.mp hd]
    exact isSurrogate_of_lt (by omega)
  induction h with
  | none => exact clean_lit "null"
  | bool b => cases b <;> exact clean_lit _
  | int _ _ => exact clean_intRepr _
  | str hclean => exact clean_quote hclean
  | list _ ih =>
    rw [Json.dumps, Json.dumpsList_eq, ← List.singleton_append, clean_append, clean_append]
    refine ⟨⟨hmark _ (by decide), clean_joinComma ?_⟩, hmark _ (by decide)⟩
    intro t ht
    obtain ⟨v, hv, rfl⟩ := List.mem_map.mp ht
    exact ih v hv
  | @dict items hkeys _ ih =>
    rw [Json.dumps_dict, ← List.singleton_append, clean_append, clean_append]
    refine ⟨⟨hmark _ (by decide), clean_joinComma ?_⟩, hmark _ (by decide)⟩
    intro t ht
    obtain ⟨i, hi, rfl⟩ := List.mem_map.mp ht
    have hmem : i ∈ items := (List.perm_insertionSort Json.keyLE items).mem_iff.mp hi
    rw [Json.memberText, ← List.singleton_append, clean_append, clean_append]
    exact ⟨clean_quote (hkeys i hmem), hmark _ (by decide), ih i hmem⟩

/-- The bytes of the canonical encoding of a value in the profile. -/
def canonicalBytes (v : Value) : Bytes := (encodeUtf8 (Json.dumps v)).getD []

/-- The text of a value in the profile is encoded. -/
theorem encodeUtf8_dumps {v : Value} (h : InProfile v) :
    encodeUtf8 (Json.dumps v) = some (canonicalBytes v) := by
  obtain ⟨data, hdata⟩ := Option.isSome_iff_exists.mp (encodeUtf8_isSome_iff.mpr (clean_dumps h))
  rw [canonicalBytes, hdata, Option.getD_some]

/-- `canonical_json` returns exactly on the profile, and then the canonical bytes. -/
theorem canonicalJson_eq_ok {v : Value} {data : Bytes} :
    canonicalJson v = .ok data ↔ InProfile v ∧ data = canonicalBytes v := by
  rw [canonicalJson, Except.check_eq_ok, validate_eq_ok]
  refine and_congr_right fun h => ?_
  rw [encodeStrict, encodeUtf8_dumps h, Except.ok.injEq, eq_comm]

/-- A value in the profile is encoded. -/
theorem canonicalJson_of_inProfile {v : Value} (h : InProfile v) :
    canonicalJson v = .ok (canonicalBytes v) :=
  canonicalJson_eq_ok.mpr ⟨h, rfl⟩

/-- A text that is refused raises a `ValueError`. -/
theorem isValueError_of_validateString {path s : Str} {e : PyError}
    (h : validateString path s = .error e) : e.isValueError = true := by
  unfold validateString at h
  split at h
  · cases h
    rfl
  · cases h

/-- What `_validate` raises is a `ValueError`. -/
theorem isValueError_of_validate {v : Value} {path : Str} {e : PyError}
    (h : validate path v = .error e) : e.isValueError = true := by
  have hitems : ∀ (items : List (Str × Value)), (∀ i ∈ items, ∀ path e,
      validate path i.2 = .error e → e.isValueError = true) → ∀ path e,
      validateItems path items = .error e → e.isValueError = true := by
    intro items ih path e h
    induction items with
    | nil => cases h
    | cons i is ihis =>
      rw [List.forall_mem_cons] at ih
      rw [validateItems, Except.bind_eq_error] at h
      rcases h with h | ⟨-, -, h⟩
      · exact isValueError_of_validateString h
      rcases Except.bind_eq_error.mp h with h | ⟨-, -, h⟩
      · exact ih.1 _ _ h
      · exact ihis ih.2 h
  induction v using Value.induction generalizing path e with
  | none | bool _ => cases h
  | int n =>
    rw [validate] at h
    split at h <;> cases h
    rfl
  | float _ | other _ _ =>
    cases h
    rfl
  | str s => exact isValueError_of_validateString h
  | list items ih =>
    have hlist : ∀ index, validateList path index items = .error e → e.isValueError = true := by
      clear h
      induction items with
      | nil =>
        intro index h
        cases h
      | cons v vs ihvs =>
        intro index h
        rw [validateList, Except.bind_eq_error] at h
        rcases h with h | ⟨-, -, h⟩
        · exact ih v (by simp) h
        · exact ihvs (fun w hw => ih w (by simp [hw])) (index + 1) h
    exact hlist 0 h
  | dict items ih => exact hitems items (fun i hi _ _ => ih i hi) path e h
  | mixedDict before ih =>
    rw [validate, Except.bind_eq_error] at h
    rcases h with h | ⟨-, -, h⟩
    · exact hitems before (fun i hi _ _ => ih i hi) path e h
    · cases h
      rfl

/-- What `canonical_json` raises is a `ValueError`. -/
theorem isValueError_of_canonicalJson {v : Value} {e : PyError}
    (h : canonicalJson v = .error e) : e.isValueError = true := by
  rw [canonicalJson, Except.bind_eq_error] at h
  rcases h with h | ⟨-, -, h⟩
  · exact isValueError_of_validate h
  · unfold encodeStrict at h
    split at h <;> cases h
    rfl

/-- `json.loads(data.decode("utf-8"))`. -/
def parseJson (data : Bytes) : Except PyError Value :=
  match decodeUtf8 data with
  | some text => Json.loads text
  | none => .error .unicodeError

/-- A JSON parser reads the canonical encoding back, with the members of objects sorted. -/
theorem parseJson_canonicalBytes {v : Value} (hv : InProfile v) (hwf : v.WellFormed) :
    parseJson (canonicalBytes v) = .ok v.sortKeys := by
  rw [parseJson, decodeUtf8_of_encodeUtf8 (encodeUtf8_dumps hv)]
  exact Json.loads_dumps hv.serializable hwf

/-- Two values in the profile have the same encoding exactly when they are the same JSON
value. -/
theorem canonicalBytes_eq_iff {v w : Value} (hv : InProfile v) (hw : InProfile w)
    (hvwf : v.WellFormed) (hwwf : w.WellFormed) :
    canonicalBytes v = canonicalBytes w ↔ v.Same w := by
  rw [← Json.dumps_eq_iff_same hv.serializable hw.serializable hvwf hwwf]
  constructor
  · intro h
    have hdata := encodeUtf8_dumps hw
    rw [← h] at hdata
    exact encodeUtf8_injective (encodeUtf8_dumps hv) hdata
  · intro h
    rw [canonicalBytes, canonicalBytes, h]

/-- Sorting the members of objects stays in the profile. -/
theorem InProfile.sortKeys {v : Value} (h : InProfile v) : InProfile v.sortKeys := by
  induction h with
  | none => exact .none
  | bool b => exact .bool b
  | int low high => exact .int low high
  | str clean => exact .str clean
  | list _ ih =>
    rw [Value.sortKeys, Value.sortKeysList_eq]
    refine .list fun w hw => ?_
    obtain ⟨v, hv, rfl⟩ := List.mem_map.mp hw
    exact ih v hv
  | @dict items hkeys _ ih =>
    rw [Json.sortKeys_dict]
    have hmem : ∀ j ∈ (items.insertionSort Json.keyLE).map fun i => (i.1, i.2.sortKeys),
        ∃ i ∈ items, j = (i.1, i.2.sortKeys) := by
      intro j hj
      obtain ⟨i, hi, rfl⟩ := List.mem_map.mp hj
      exact ⟨i, (List.perm_insertionSort Json.keyLE items).mem_iff.mp hi, rfl⟩
    refine .dict (fun j hj => ?_) fun j hj => ?_
    · obtain ⟨i, hi, rfl⟩ := hmem j hj
      exact hkeys i hi
    · obtain ⟨i, hi, rfl⟩ := hmem j hj
      exact ih i hi

/-- A Python value: every dictionary in it has distinct keys. -/
structure Object where
  /-- The tree of the value. -/
  value : Value
  /-- No dictionary has a key twice. -/
  wellFormed : value.WellFormed

/-- `canonical_json` accepts exactly the profile; a JSON parser reads an encoding back to the
same value, whose encoding is again the same; and two accepted values have the same encoding
exactly when they are the same JSON value. -/
theorem canonicalJson_faithful (v w : Object) :
    ((∃ data, canonicalJson v.value = .ok data) ↔ InProfile v.value) ∧
    (∀ data, canonicalJson v.value = .ok data → ∃ parsed, parseJson data = .ok parsed ∧
      parsed.Same v.value ∧ canonicalJson parsed = .ok data) ∧
    (∀ data data', canonicalJson v.value = .ok data → canonicalJson w.value = .ok data' →
      (data = data' ↔ v.value.Same w.value)) := by
  refine ⟨?_, ?_, ?_⟩
  · simp only [canonicalJson_eq_ok, exists_and_left, exists_eq, and_true]
  · intro data hdata
    obtain ⟨hv, rfl⟩ := canonicalJson_eq_ok.mp hdata
    refine ⟨v.value.sortKeys, parseJson_canonicalBytes hv v.wellFormed,
      Value.same_sortKeys v.wellFormed, canonicalJson_eq_ok.mpr ⟨hv.sortKeys, ?_⟩⟩
    rw [canonicalBytes, canonicalBytes, Json.dumps_sortKeys _ v.wellFormed]
  · intro data data' hdata hdata'
    obtain ⟨hv, rfl⟩ := canonicalJson_eq_ok.mp hdata
    obtain ⟨hw, rfl⟩ := canonicalJson_eq_ok.mp hdata'
    exact canonicalBytes_eq_iff hv hw v.wellFormed w.wellFormed

/-! ### Digests -/

/-- SHA-256, as the thirty-two octets `hashlib.sha256(data).digest()`. -/
class Sha256 where
  /-- The hash of some octets. -/
  hash : Bytes → Bytes
  /-- A hash has 256 bits. -/
  length_hash : ∀ data, (hash data).length = 32

/-- The hash the code uses. -/
@[reducible]
def Sha256.standard : Sha256 := ⟨sha256, length_sha256⟩

variable [Sha256]

/-- `digest_bytes`. -/
def digestBytes (data : Bytes) : Str := lit "sha256:" ++ hex (Sha256.hash data)

/-- `DIGEST_PATTERN.fullmatch`. -/
def isDigest (s : Str) : Bool :=
  startsWith s (lit "sha256:") && (s.drop 7).length = 64 && (s.drop 7).all isLowerHex

/-- `_object_digest`. -/
def objectDigest (value : Value) : Except PyError Str := do
  let data ← canonicalJson value
  pure (digestBytes data)

/-- The digest of the canonical bytes of a value. -/
def digestOf (value : Value) : Str := digestBytes (canonicalBytes value)

/-- Every digest matches the pattern. -/
@[simp]
theorem isDigest_digestBytes (data : Bytes) : isDigest (digestBytes data) = true := by
  have hdrop : (digestBytes data).drop 7 = hex (Sha256.hash data) :=
    List.drop_left' (by decide)
  have hstarts : startsWith (digestBytes data) (lit "sha256:") = true :=
    List.isPrefixOf_iff_prefix.mpr (List.prefix_append _ _)
  have hall : (hex (Sha256.hash data)).all isLowerHex = true :=
    List.all_eq_true.mpr fun c hc => isLowerHex_of_mem_hex hc
  have hlength : (hex (Sha256.hash data)).length = 64 := by
    rw [length_hex, Sha256.length_hash]
  simp [isDigest, hdrop, hstarts, hall, hlength]

/-- A digest text determines the hash. -/
theorem digestBytes_inj {a b : Bytes} :
    digestBytes a = digestBytes b ↔ Sha256.hash a = Sha256.hash b := by
  rw [digestBytes, digestBytes, List.append_cancel_left_eq, hex_injective.eq_iff]

/-- A value has a digest just if it is in the profile. -/
theorem objectDigest_eq_ok {v : Value} {d : Str} :
    objectDigest v = .ok d ↔ InProfile v ∧ d = digestOf v := by
  simp only [objectDigest, Except.bind_eq_ok, canonicalJson_eq_ok, pure, Except.pure,
    Except.ok.injEq]
  constructor
  · rintro ⟨_, ⟨hv, rfl⟩, rfl⟩
    exact ⟨hv, rfl⟩
  · rintro ⟨hv, rfl⟩
    exact ⟨_, ⟨hv, rfl⟩, rfl⟩

end OnceMesh
