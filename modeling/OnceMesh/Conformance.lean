import OnceMesh.Canonical
import OnceMesh.Ecmascript.Value
import OnceMesh.ListRelations

/-!
# The conformance runner

`conformance/node/run.mjs` checks the published vectors with a canonicalizer of its own, written
against the standard library of another language: it sorts and checks UTF-16 code units, and
leaves the escaping to `JSON.stringify`. `JsonValue` is a JSON value before either language has
read it, and `canonicalizers_agree` compares the two encodings of one value.
-/

namespace OnceMesh.Conformance

open Python Ecmascript

/-- What `fail` is called with. -/
inductive Failure where
  | unicodeSurrogate
  | floatingPoint
  | unsafeInteger
  | unsupportedType

/-! ### The canonicalizer of the runner -/

/-- `scalarValues`. -/
def scalarValues : JsString → Except Failure (List ℕ)
  | [] => .ok []
  | first :: rest =>
    if isHigh first then
      match rest with
      | [] => .error .unicodeSurrogate
      | second :: rest =>
        if second.val < 0xDC00 ∨ 0xDFFF < second.val then .error .unicodeSurrogate
        else do
          let values ← scalarValues rest
          pure ((0x10000 + (first.val - 0xD800) * 0x400 + second.val - 0xDC00) :: values)
    else if isLow first then .error .unicodeSurrogate
    else do
      let values ← scalarValues rest
      pure (first.val :: values)

/-- The loop of `compareKeys`: the first difference, or else the difference in length. -/
def compareValues : List ℕ → List ℕ → ℤ
  | a :: as, b :: bs => if a ≠ b then (a : ℤ) - b else compareValues as bs
  | as, bs => (as.length : ℤ) - bs.length

/-- `compareKeys`. -/
def compareKeys (left right : JsString) : Except Failure ℤ := do
  let a ← scalarValues left
  let b ← scalarValues right
  pure (compareValues a b)

/-- `texts.join(",")`. -/
def joinTexts (texts : List JsString) : JsString := (encode [Json.comma]).intercalate texts

/-- The text of one member, from the texts of all of them. -/
def canonicalMember (encoded : List (JsString × Except Failure JsString)) (key : JsString) :
    Except Failure JsString := do
  let _ ← scalarValues key
  let text ← (encoded.lookup key).getD (.error .unsupportedType)
  pure (quoteJsonString key ++ encode [Json.colon] ++ text)

mutual

/-- `canonicalJson`. -/
def canonicalJson : JsValue → Except Failure JsString
  | .null => .ok (encode (lit "null"))
  | .boolean b => .ok (encode (if b then lit "true" else lit "false"))
  | .string s => do
    let _ ← scalarValues s
    pure (quoteJsonString s)
  | .number x =>
    if !isInteger x then .error .floatingPoint
    else if !isSafeInteger x then .error .unsafeInteger
    else .ok (numberToString x)
  | .array items => do
    let texts ← canonicalItems items
    pure (encode [Json.leftBracket] ++ joinTexts texts ++ encode [Json.rightBracket])
  | .object members => do
    let keys ← sortBy compareKeys (objectKeys members)
    let texts ← keys.mapM (canonicalMember (canonicalMembers members))
    pure (encode [Json.leftBrace] ++ joinTexts texts ++ encode [Json.rightBrace])

/-- `value.map(canonicalJson)`. -/
def canonicalItems : List JsValue → Except Failure (List JsString)
  | [] => .ok []
  | v :: vs => do
    let text ← canonicalJson v
    let texts ← canonicalItems vs
    pure (text :: texts)

/-- What `canonicalJson(value[key])` gives for every key. -/
def canonicalMembers : List (JsString × JsValue) → List (JsString × Except Failure JsString)
  | [] => []
  | (key, v) :: rest => (key, canonicalJson v) :: canonicalMembers rest

end

/-! ### A JSON value and its two readings -/

/-- A JSON value: strings are code units, as escapes write them, and a number is an integer
literal or, with a fraction or an exponent, the binary64 value it denotes. -/
inductive JsonValue where
  | null
  | boolean (b : Bool)
  | integer (negative : Bool) (n : ℕ)
  | decimal (x : PyFloat)
  | string (s : JsString)
  | array (items : List JsonValue)
  | object (members : List (JsString × JsonValue))

namespace JsonValue

mutual

/-- The value `json.loads` returns. -/
def toValue : JsonValue → Value
  | null => .none
  | boolean b => .bool b
  | integer negative n => .int (signed negative n)
  | decimal x => .float x
  | string s => .str (codePoints s)
  | array items => .list (toValues items)
  | object members => .dict (toItems members)

/-- The elements of an array. -/
def toValues : List JsonValue → List Value
  | [] => []
  | v :: vs => toValue v :: toValues vs

/-- The members of an object. -/
def toItems : List (JsString × JsonValue) → List (Str × Value)
  | [] => []
  | (key, v) :: rest => (codePoints key, toValue v) :: toItems rest

end

mutual

/-- The value `JSON.parse` returns. -/
def toJs : JsonValue → JsValue
  | null => .null
  | boolean b => .boolean b
  | integer negative n => .number (ofInteger negative n)
  | decimal x => .number x
  | string s => .string s
  | array items => .array (toJsItems items)
  | object members => .object (toJsMembers members)

/-- The elements of an array. -/
def toJsItems : List JsonValue → List JsValue
  | [] => []
  | v :: vs => toJs v :: toJsItems vs

/-- The members of an object. -/
def toJsMembers : List (JsString × JsonValue) → List (JsString × JsValue)
  | [] => []
  | (key, v) :: rest => (key, toJs v) :: toJsMembers rest

end

/-- Every object in the value has distinct keys. -/
inductive DistinctKeys : JsonValue → Prop
  | null : DistinctKeys null
  | boolean (b : Bool) : DistinctKeys (boolean b)
  | integer (negative : Bool) (n : ℕ) : DistinctKeys (integer negative n)
  | decimal (x : PyFloat) : DistinctKeys (decimal x)
  | string (s : JsString) : DistinctKeys (string s)
  | array {items : List JsonValue} (elements : ∀ v ∈ items, DistinctKeys v) :
      DistinctKeys (array items)
  | object {members : List (JsString × JsonValue)} (distinct : (members.map Prod.fst).Nodup)
      (values : ∀ m ∈ members, DistinctKeys m.2) : DistinctKeys (object members)

/-- A string without a surrogate outside a pair. -/
def ScalarText (s : JsString) : Prop := Clean (codePoints s)

/-- The v0 profile. -/
inductive Interoperable : JsonValue → Prop
  | null : Interoperable null
  | boolean (b : Bool) : Interoperable (boolean b)
  | integer (negative : Bool) {n : ℕ} (safe : n ≤ 2 ^ 53 - 1) : Interoperable (integer negative n)
  | string {s : JsString} (scalar : ScalarText s) : Interoperable (string s)
  | array {items : List JsonValue} (elements : ∀ v ∈ items, Interoperable v) :
      Interoperable (array items)
  | object {members : List (JsString × JsonValue)} (keys : ∀ m ∈ members, ScalarText m.1)
      (values : ∀ m ∈ members, Interoperable m.2) : Interoperable (object members)

/-- The value contains a surrogate code point, an integer out of the safe range or a number that is
not an integer. A decimal that is one, such as `1.0`, is neither `Interoperable` nor `Forbidden`: it
is an integer to one language and a `float` to the other. -/
inductive Forbidden : JsonValue → Prop
  | surrogate {s : JsString} (h : ¬ScalarText s) : Forbidden (string s)
  | unsafeInteger {negative : Bool} {n : ℕ} (h : ¬n ≤ 2 ^ 53 - 1) : Forbidden (integer negative n)
  | nonIntegral {x : PyFloat} (h : isInteger x = false) : Forbidden (decimal x)
  | element {items : List JsonValue} {v : JsonValue} (hv : v ∈ items) (h : Forbidden v) :
      Forbidden (array items)
  | key {members : List (JsString × JsonValue)} {m : JsString × JsonValue} (hm : m ∈ members)
      (h : ¬ScalarText m.1) : Forbidden (object members)
  | member {members : List (JsString × JsonValue)} {m : JsString × JsonValue} (hm : m ∈ members)
      (h : Forbidden m.2) : Forbidden (object members)

theorem toValues_eq (items : List JsonValue) : toValues items = items.map toValue := by
  induction items with
  | nil => rfl
  | cons v vs ih => rw [toValues, ih, List.map_cons]

theorem toItems_eq (members : List (JsString × JsonValue)) :
    toItems members = members.map fun m => (codePoints m.1, m.2.toValue) := by
  induction members with
  | nil => rfl
  | cons m ms ih => rw [toItems, ih, List.map_cons]

theorem toJsItems_eq (items : List JsonValue) : toJsItems items = items.map toJs := by
  induction items with
  | nil => rfl
  | cons v vs ih => rw [toJsItems, ih, List.map_cons]

theorem toJsMembers_eq (members : List (JsString × JsonValue)) :
    toJsMembers members = members.map fun m => (m.1, m.2.toJs) := by
  induction members with
  | nil => rfl
  | cons m ms ih => rw [toJsMembers, ih, List.map_cons]

end JsonValue

/-- A JSON document: a value in which no object has a key twice. -/
structure JsonDocument where
  /-- The value. -/
  value : JsonValue
  /-- No object has a key twice. -/
  distinct : value.DistinctKeys

/-! ### Key order -/

/-- One more scalar value before those of `t`. -/
theorem bind_cons_eq_ok {x : Except Failure (List ℕ)} {c : CodePoint} {t : Str} {n : ℕ}
    {values : List ℕ} (hc : isSurrogate c = false) (hn : c.val = n)
    (ih : ∀ {rest}, x = .ok rest ↔ Clean t ∧ rest = t.map fun d => d.val) :
    (x >>= fun rest => pure (n :: rest)) = .ok values ↔
      Clean (c :: t) ∧ values = (c :: t).map fun d => d.val := by
  subst hn
  rw [Except.bind_eq_ok]
  constructor
  · rintro ⟨rest, hrest, h⟩
    cases h
    obtain ⟨hclean, rfl⟩ := ih.mp hrest
    exact ⟨List.forall_mem_cons.mpr ⟨hc, hclean⟩, rfl⟩
  · rintro ⟨hclean, rfl⟩
    exact ⟨_, ih.mpr ⟨(List.forall_mem_cons.mp hclean).2, rfl⟩, rfl⟩

/-- `scalarValues` accepts exactly the strings of scalar values. -/
theorem scalarValues_eq_ok {s : JsString} {values : List ℕ} :
    scalarValues s = .ok values ↔
      JsonValue.ScalarText s ∧ values = (codePoints s).map fun c => c.val := by
  have hbad : ∀ {u : CodeUnit} {t : Str}, isSurrogate u.point = true → ¬Clean (u.point :: t) := by
    intro u t hu hclean
    rw [hclean u.point List.mem_cons_self] at hu
    cases hu
  unfold JsonValue.ScalarText
  fun_induction scalarValues s generalizing values with
  | case1 =>
    refine ⟨fun h => ⟨nofun, ?_⟩, fun h => by rw [h.2]; rfl⟩
    cases h
    rfl
  | case2 first hhigh =>
    -- the string ends after a high surrogate
    exact iff_of_false nofun fun h => hbad (by rw [isSurrogate_point, hhigh]; rfl) h.1
  | case3 first hhigh second rest hsecond =>
    have hlow : isLow second = false := decide_eq_false (by omega)
    rw [codePoints_cons_of_not_low hlow]
    exact iff_of_false nofun fun h => hbad (by rw [isSurrogate_point, hhigh]; rfl) h.1
  | case4 first hhigh second rest hsecond ih =>
    have hlow : isLow second = true := decide_eq_true (by omega)
    rw [codePoints_pair hhigh hlow]
    refine bind_cons_eq_ok (isSurrogate_joinSurrogates hhigh hlow) ?_ ih
    rw [joinSurrogates_val hhigh hlow]
    omega
  | case5 first rest hhigh hlow =>
    rw [codePoints_cons_of_not_high (by simpa using hhigh)]
    exact iff_of_false nofun fun h => hbad (by rw [isSurrogate_point, hlow, Bool.or_true]) h.1
  | case6 first rest hhigh hlow ih =>
    rw [codePoints_cons_of_not_high (by simpa using hhigh)]
    refine bind_cons_eq_ok ?_ rfl ih
    rw [isSurrogate_point]
    simp [hhigh, hlow]

/-- The numbers of two texts compare as the texts do. -/
theorem compareValues_pos {s t : Str} :
    0 < compareValues (s.map fun c => c.val) (t.map fun c => c.val) ↔ t < s := by
  induction s generalizing t with
  | nil => cases t <;> simp [compareValues]
  | cons c s ih =>
    cases t with
    | nil => simp [compareValues]
    | cons d t =>
      rw [List.map_cons, List.map_cons, compareValues, List.cons_lt_cons_iff]
      by_cases hcd : c = d
      · subst hcd
        simp [ih]
      · have hval : c.val ≠ d.val := fun h => hcd (Fin.ext h)
        rw [if_pos hval, Fin.lt_def]
        simp only [Ne.symm hcd, false_and, or_false]
        omega

/-- Keys in code point order. -/
def keyBefore (a b : JsString) : Prop := codePoints a ≤ codePoints b

instance : DecidableRel keyBefore := fun a b =>
  inferInstanceAs (Decidable (codePoints a ≤ codePoints b))

/-- Between strings of scalar values `compareKeys` is the order of code points. -/
theorem compareKeys_eq_ok {a b : JsString} (ha : JsonValue.ScalarText a)
    (hb : JsonValue.ScalarText b) :
    ∃ order, compareKeys a b = .ok order ∧ (order ≤ 0 ↔ keyBefore a b) := by
  refine ⟨_, ?_, not_lt.symm.trans ((not_congr compareValues_pos).trans not_lt)⟩
  rw [compareKeys, scalarValues_eq_ok.mpr ⟨ha, rfl⟩, scalarValues_eq_ok.mpr ⟨hb, rfl⟩]
  rfl

/-- The keys of an object are visited in the order in which `json.dumps` writes its members. -/
theorem sortBy_objectKeys {α : Type} {members : List (JsString × α)}
    (hkeys : ∀ m ∈ members, JsonValue.ScalarText m.1) :
    sortBy compareKeys (objectKeys members) =
      .ok ((members.insertionSort fun m n => keyBefore m.1 n.1).map Prod.fst) := by
  have hscalar : ∀ key ∈ objectKeys members, JsonValue.ScalarText key := by
    intro key hkey
    obtain ⟨m, hm, rfl⟩ := List.mem_map.mp ((objectKeys_perm members).mem_iff.mp hkey)
    exact hkeys m hm
  have : Std.Total keyBefore := ⟨fun a b => le_total (codePoints a) (codePoints b)⟩
  have : IsTrans JsString keyBefore := ⟨fun _ _ _ hab hbc => le_trans hab hbc⟩
  have : Std.Antisymm keyBefore := ⟨fun _ _ hab hba => codePoints_injective (le_antisymm hab hba)⟩
  rw [sortBy_eq_ok fun a ha b hb => compareKeys_eq_ok (hscalar a ha) (hscalar b hb)]
  rw [List.map_insertionSort
    (fun m n : JsString × α => keyBefore m.1 n.1) keyBefore Prod.fst members
    fun _ _ _ _ => Iff.rfl]
  congr 1
  refine List.Perm.eq_of_pairwise ?_ (List.pairwise_insertionSort keyBefore _)
    (List.pairwise_insertionSort keyBefore _) ?_
  · intro a b _ _ hab hba
    exact Std.Antisymm.antisymm a b hab hba
  · exact ((List.perm_insertionSort _ _).trans (objectKeys_perm members)).trans
      (List.perm_insertionSort _ _).symm

/-! ### Agreement -/

theorem encode_joinComma (texts : List Str) :
    encode (Json.joinComma texts) = joinTexts (texts.map encode) := by
  induction texts with
  | nil => rfl
  | cons t ts ih =>
    cases ts with
    | nil => simp [Json.joinComma, joinTexts]
    | cons u us =>
      rw [List.map_cons, List.map_cons, Json.joinComma, joinTexts, List.intercalate_cons_cons,
        List.intercalate_cons_cons, encode_append, encode_append]
      exact congrArg (encode t ++ encode [Json.comma] ++ ·) ih

theorem canonicalItems_eq (items : List JsValue) :
    canonicalItems items = items.mapM canonicalJson := by
  induction items with
  | nil => rfl
  | cons v vs ih => rw [canonicalItems, ih, List.mapM_cons]

theorem canonicalMembers_eq (members : List (JsString × JsValue)) :
    canonicalMembers members = members.map fun m => (m.1, canonicalJson m.2) := by
  induction members with
  | nil => rfl
  | cons m ms ih => rw [canonicalMembers, ih, List.map_cons]


/-- With distinct keys, `value[key]` is the member with that key. -/
theorem canonicalMember_of_mem {members : List (JsString × JsonValue)}
    (hdistinct : (members.map Prod.fst).Nodup) {m : JsString × JsonValue} (hm : m ∈ members) :
    canonicalMember (canonicalMembers (JsonValue.toJsMembers members)) m.1 = (do
      let _ ← scalarValues m.1
      let text ← canonicalJson m.2.toJs
      pure (quoteJsonString m.1 ++ encode [Json.colon] ++ text)) := by
  have hencoded : canonicalMembers (JsonValue.toJsMembers members) =
      members.map fun m => (m.1, canonicalJson m.2.toJs) := by
    rw [canonicalMembers_eq, JsonValue.toJsMembers_eq, List.map_map]
    rfl
  have hlookup : (members.map fun m => (m.1, canonicalJson m.2.toJs)).lookup m.1 =
      some (canonicalJson m.2.toJs) := by
    have hbeq : (List.instBEq : BEq JsString) = instBEqOfDecidableEq := lawful_beq_subsingleton _ _
    rw [hbeq, lookup_eq_some_iff_mem (by rwa [List.map_map])]
    exact List.mem_map_of_mem hm
  rw [canonicalMember, hencoded, hlookup, Option.getD_some]

/-- On the profile the runner writes the UTF-16 form of what `json.dumps` writes. -/
theorem canonicalJson_of_interoperable {v : JsonValue} (hv : v.Interoperable)
    (hdistinct : v.DistinctKeys) :
    canonicalJson v.toJs = .ok (encode (Json.dumps v.toValue)) := by
  induction hv with
  | null => rfl
  | boolean b => cases b <;> rfl
  | @integer negative n safe =>
    have hvalue : integerValue? (ofInteger negative n) = some (signed negative n) :=
      integerValue?_ofInteger safe
    have hinteger : isInteger (ofInteger negative n) = true := by rw [isInteger, hvalue]; rfl
    have hsafe : isSafeInteger (ofInteger negative n) = true := by
      rw [isSafeInteger, hvalue, Option.any_some, natAbs_signed]
      exact decide_eq_true safe
    rw [JsonValue.toJs, canonicalJson, hinteger, hsafe, numberToString, hvalue]
    rfl
  | string scalar =>
    rw [JsonValue.toJs, canonicalJson, scalarValues_eq_ok.mpr ⟨scalar, rfl⟩, Except.ok_bind,
      quoteJsonString_eq scalar]
    rfl
  | @array items _ ih =>
    have htexts : (items.map JsonValue.toJs).mapM canonicalJson =
        .ok (items.map fun v => encode (Json.dumps v.toValue)) := by
      rw [Except.mapM_eq_ok, List.forall₂_map_left_iff, List.forall₂_map_right_iff,
        List.forall₂_same]
      cases hdistinct with
      | array elements => exact fun v hv => ih v hv (elements v hv)
    have hjoin : encode (Json.joinComma (items.map fun v => Json.dumps v.toValue)) =
        joinTexts (items.map fun v => encode (Json.dumps v.toValue)) := by
      rw [encode_joinComma, List.map_map]
      rfl
    rw [JsonValue.toJs, canonicalJson, JsonValue.toJsItems_eq, canonicalItems_eq, htexts,
      Except.ok_bind, JsonValue.toValue, Json.dumps, Json.dumpsList_eq, JsonValue.toValues_eq,
      List.map_map, encode_append, ← List.singleton_append, encode_append]
    exact congrArg 
      (fun t => Except.ok (encode [Json.leftBracket] ++ t ++ encode [Json.rightBracket]))
      hjoin.symm
  | @object members keys _ ih =>
    obtain ⟨hnodup, values⟩ : (members.map Prod.fst).Nodup ∧ ∀ m ∈ members, m.2.DistinctKeys := by
      cases hdistinct with
      | object hnodup values => exact ⟨hnodup, values⟩
    -- both sides visit the members in the order `sorted`
    let sorted := members.insertionSort fun m n => keyBefore m.1 n.1
    have hmem : ∀ {m}, m ∈ sorted → m ∈ members := (List.perm_insertionSort _ _).mem_iff.mp
    let item : JsString × JsonValue → Str × Value := fun m => (codePoints m.1, m.2.toValue)
    have hkeys : sortBy compareKeys (objectKeys (JsonValue.toJsMembers members)) =
        .ok (sorted.map Prod.fst) := by
      have hfst : (JsonValue.toJsMembers members).map Prod.fst = members.map Prod.fst := by
        rw [JsonValue.toJsMembers_eq, List.map_map]
        rfl
      have hsort := sortBy_objectKeys keys
      rwa [objectKeys, ← hfst] at hsort
    have htexts : (sorted.map Prod.fst).mapM
        (canonicalMember (canonicalMembers (JsonValue.toJsMembers members))) =
          .ok (sorted.map fun m => encode (Json.memberText (item m))) := by
      rw [Except.mapM_eq_ok, List.forall₂_map_left_iff, List.forall₂_map_right_iff,
        List.forall₂_same]
      intro m hm
      have hkey := keys m (hmem hm)
      rw [canonicalMember_of_mem hnodup (hmem hm), scalarValues_eq_ok.mpr ⟨hkey, rfl⟩,
        Except.ok_bind, ih m (hmem hm) (values m (hmem hm)), Except.ok_bind,
        quoteJsonString_eq hkey, Json.memberText, encode_append, List.append_assoc]
      rfl
    have hsorted : (members.map item).insertionSort Json.keyLE = sorted.map item :=
      (List.map_insertionSort _ _ item members fun _ _ _ _ => Iff.rfl).symm
    have hjoin : encode (Json.joinComma (sorted.map fun m => Json.memberText (item m))) =
        joinTexts (sorted.map fun m => encode (Json.memberText (item m))) := by
      rw [encode_joinComma, List.map_map]
      rfl
    rw [JsonValue.toJs, canonicalJson, hkeys, Except.ok_bind, htexts, Except.ok_bind,
      JsonValue.toValue, Json.dumps_dict, JsonValue.toItems_eq, hsorted, List.map_map,
      encode_append, ← List.singleton_append, encode_append]
    exact congrArg (fun t => Except.ok (encode [Json.leftBrace] ++ t ++ encode [Json.rightBrace]))
      hjoin.symm

/-- Of the profile said on the Python value. -/
theorem inProfile_of_interoperable {v : JsonValue} (hv : v.Interoperable) :
    InProfile v.toValue := by
  induction hv with
  | null => exact .none
  | boolean b => exact .bool b
  | integer negative safe =>
    cases negative
    · exact .int (by simp only [signed]; omega) (by simp only [signed]; omega)
    · exact .int (by simp only [signed]; omega) (by simp only [signed]; omega)
  | string scalar => exact .str scalar
  | array _ ih =>
    rw [JsonValue.toValue, JsonValue.toValues_eq]
    exact .list (List.forall_mem_map.mpr ih)
  | object keys _ ih =>
    rw [JsonValue.toValue, JsonValue.toItems_eq]
    exact .dict (List.forall_mem_map.mpr keys) (List.forall_mem_map.mpr ih)

/-! ### Refusal -/

theorem not_inProfile_of_forbidden {v : JsonValue} (hv : v.Forbidden) : ¬InProfile v.toValue := by
  induction hv with
  | surrogate h =>
    rintro ⟨⟩
    exact h ‹_›
  | @unsafeInteger negative n h =>
    intro hin
    rw [JsonValue.toValue] at hin
    cases hin with
    | int low high => cases negative <;> simp only [signed] at low high <;> omega
  | nonIntegral _ => rintro ⟨⟩
  | element hv _ ih =>
    rw [JsonValue.toValue, JsonValue.toValues_eq]
    rintro ⟨⟩
    exact ih (‹∀ w ∈ _, InProfile w› _ (List.mem_map_of_mem hv))
  | key hm h =>
    rw [JsonValue.toValue, JsonValue.toItems_eq]
    intro hin
    cases hin with
    | dict keys _ => exact h (List.forall_mem_map.mp keys _ hm)
  | member hm _ ih =>
    rw [JsonValue.toValue, JsonValue.toItems_eq]
    intro hin
    cases hin with
    | dict _ values => exact ih (List.forall_mem_map.mp values _ hm)

/-- Where the runner writes an object, it has accepted every key and every member. -/
theorem exists_of_canonicalJson_object {members : List (JsString × JsonValue)}
    (hdistinct : (members.map Prod.fst).Nodup) {text : JsString}
    (h : canonicalJson (JsonValue.object members).toJs = .ok text) {m : JsString × JsonValue}
    (hm : m ∈ members) : JsonValue.ScalarText m.1 ∧ ∃ t, canonicalJson m.2.toJs = .ok t := by
  rw [JsonValue.toJs, canonicalJson] at h
  obtain ⟨keys, hkeys, h⟩ := Except.bind_eq_ok.mp h
  obtain ⟨texts, htexts, -⟩ := Except.bind_eq_ok.mp h
  -- sorting loses no key, so the loop comes to this one
  have hkey : m.1 ∈ keys := by
    rw [((sortBy_perm hkeys).trans (objectKeys_perm _)).mem_iff, JsonValue.toJsMembers_eq,
      List.map_map]
    exact List.mem_map_of_mem hm
  obtain ⟨t, -, ht⟩ := exists_of_forall₂_left (Except.mapM_eq_ok.mp htexts) hkey
  rw [canonicalMember_of_mem hdistinct hm] at ht
  obtain ⟨values, hvalues, ht⟩ := Except.bind_eq_ok.mp ht
  obtain ⟨t', ht', -⟩ := Except.bind_eq_ok.mp ht
  exact ⟨(scalarValues_eq_ok.mp hvalues).1, t', ht'⟩

/-- The runner writes nothing forbidden. -/
theorem canonicalJson_of_forbidden {v : JsonValue} (hv : v.Forbidden) (hdistinct : v.DistinctKeys)
    (text : JsString) : canonicalJson v.toJs ≠ .ok text := by
  induction hv generalizing text with
  | surrogate h =>
    intro hok
    rw [JsonValue.toJs, canonicalJson] at hok
    obtain ⟨values, hvalues, -⟩ := Except.bind_eq_ok.mp hok
    exact h (scalarValues_eq_ok.mp hvalues).1
  | unsafeInteger h =>
    rw [JsonValue.toJs, canonicalJson, isSafeInteger_ofInteger h]
    cases isInteger _ <;> simp
  | nonIntegral h =>
    rw [JsonValue.toJs, canonicalJson, h]
    simp
  | @element items v hv _ ih =>
    intro hok
    rw [JsonValue.toJs, canonicalJson, JsonValue.toJsItems_eq, canonicalItems_eq] at hok
    obtain ⟨texts, htexts, -⟩ := Except.bind_eq_ok.mp hok
    obtain ⟨t, -, ht⟩ :=
      exists_of_forall₂_left (Except.mapM_eq_ok.mp htexts) (List.mem_map_of_mem hv)
    cases hdistinct with
    | array elements => exact ih (elements v hv) t ht
  | key hm h =>
    intro hok
    cases hdistinct with
    | object hnodup _ => exact h (exists_of_canonicalJson_object hnodup hok hm).1
  | member hm _ ih =>
    intro hok
    cases hdistinct with
    | object hnodup values =>
      obtain ⟨-, t, ht⟩ := exists_of_canonicalJson_object hnodup hok hm
      exact ih (values _ hm) t ht

/-- The two canonicalizers agree: on the profile they write the same bytes, and both refuse every
value with a surrogate, an integer out of the safe range or a number that is not an integer. -/
theorem canonicalizers_agree (d : JsonDocument) :
    (d.value.Interoperable → ∃ text data, canonicalJson d.value.toJs = .ok text ∧
      OnceMesh.canonicalJson d.value.toValue = .ok data ∧ bufferFrom text = data) ∧
    (d.value.Forbidden → (∃ failure, canonicalJson d.value.toJs = .error failure) ∧
      ∃ e, OnceMesh.canonicalJson d.value.toValue = .error e) := by
  constructor
  · intro hv
    have hin := inProfile_of_interoperable hv
    exact ⟨_, _, canonicalJson_of_interoperable hv d.distinct, canonicalJson_of_inProfile hin,
      bufferFrom_encode (encodeUtf8_dumps hin)⟩
  · intro hv
    constructor
    · cases h : canonicalJson d.value.toJs with
      | error failure => exact ⟨failure, rfl⟩
      | ok text => exact absurd h (canonicalJson_of_forbidden hv d.distinct text)
    · cases h : OnceMesh.canonicalJson d.value.toValue with
      | error e => exact ⟨e, rfl⟩
      | ok data => exact absurd (canonicalJson_eq_ok.mp h).1 (not_inProfile_of_forbidden hv)

end OnceMesh.Conformance
