import Mathlib.Data.Nat.Digits.Lemmas
import OnceMesh.Python.Json.Hooks
import OnceMesh.Python.Json.Same

/-!
# Serialization round trip

The grammar of `Json.dumps` is unambiguous: `loads_dumps` reads a serialized value back, with
the members of its objects sorted by key.

The scanner is followed value by value. `findsTree_dumps` is the statement the induction on the
value carries: at the text of a value followed by a delimiter, the scanner returns the tree of the
value and leaves the delimiter.
-/

namespace Python

open Json

namespace Value

mutual

/-- The values `json.dumps` serializes here: no floating-point number, no integer of more digits
than `str` converts, string keys only. -/
def Serializable : Value → Prop
  | float _ | mixedDict _ | other _ _ => False
  | int n => n.natAbs < 10 ^ intMaxStrDigits
  | list items => SerializableList items
  | dict items => SerializableItems items
  | _ => True

/-- `Serializable` for the elements of a list. -/
def SerializableList : List Value → Prop
  | [] => True
  | v :: vs => Serializable v ∧ SerializableList vs

/-- `Serializable` for the values of a dictionary. -/
def SerializableItems : List (Str × Value) → Prop
  | [] => True
  | (_, v) :: rest => Serializable v ∧ SerializableItems rest

end

@[simp]
theorem serializable_list {items : List Value} :
    Serializable (list items) ↔ ∀ v ∈ items, Serializable v := by
  rw [Serializable]
  induction items with
  | nil => simp [SerializableList]
  | cons v vs ih => simp [SerializableList, ih]

@[simp]
theorem serializable_dict {items : List (Str × Value)} :
    Serializable (dict items) ↔ ∀ i ∈ items, Serializable i.2 := by
  rw [Serializable]
  induction items with
  | nil => simp [SerializableItems]
  | cons i is ih => simp [SerializableItems, ih]

end Value

namespace Json

/-! ### Strings -/

/-- The four digits of a `\u00xx` escape are the control character. -/
theorem hex4?_control {c : CodePoint} (h : c.val < 0x20) :
    hex4? 0x30 0x30 (hexDigit (c.val / 16)) (hexDigit c.val) = some c.val := by
  have hcheck : ∀ n < 0x20, hex4? 0x30 0x30 (hexDigit (n / 16)) (hexDigit n) = some n := by
    decide
  exact hcheck c.val h

/-- A short escape is read back. -/
theorem scanString_simpleEscape {e c : CodePoint} {rest : Str} (hu : e ≠ letterU)
    (he : simpleEscape? e = some c) :
    scanString (reverseSolidus :: e :: rest) =
      (scanString rest).map fun r => (c :: r.1, r.2) := by
  rw [scanString.eq_def]
  simp [hu, he]

/-- The text of one character is read back. -/
theorem scanString_escapeChar (c : CodePoint) (rest : Str) :
    scanString (escapeChar c ++ rest) = (scanString rest).map fun r => (c :: r.1, r.2) := by
  unfold escapeChar
  split_ifs with h₁ h₂ h₃ h₄ h₅ h₆ h₇ h₈
  · subst h₁; exact scanString_simpleEscape (by decide) (by decide)
  · subst h₂; exact scanString_simpleEscape (by decide) (by decide)
  · subst h₃; exact scanString_simpleEscape (by decide) (by decide)
  · subst h₄; exact scanString_simpleEscape (by decide) (by decide)
  · subst h₅; exact scanString_simpleEscape (by decide) (by decide)
  · subst h₆; exact scanString_simpleEscape (by decide) (by decide)
  · subst h₇; exact scanString_simpleEscape (by decide) (by decide)
  · have hunit : ¬(0xD800 ≤ c.val ∧ c.val ≤ 0xDBFF) := by omega
    have hchar : ofCodeUnit c.val = c := Fin.ofNat_val_eq_self c
    simp only [List.cons_append, List.nil_append]
    rw [scanString.eq_def]
    simp [hex4?_control h₈, hunit, hchar]
  · rw [List.singleton_append, scanString.eq_def]
    simp [h₁, h₂, h₈]

/-- A quoted text is read back up to its closing mark. -/
theorem scanString_quote (s rest : Str) :
    scanString (s.flatMap escapeChar ++ quotationMark :: rest) = some (s, rest) := by
  induction s with
  | nil =>
    rw [List.flatMap_nil, List.nil_append, scanString.eq_def]
    simp
  | cons c s ih =>
    rw [List.flatMap_cons, List.append_assoc, scanString_escapeChar, ih]
    rfl

/-! ### Numbers -/

/-- What may follow a serialized value: nothing, or a character that ends it. -/
def Delimited (rest : Str) : Prop :=
  ∀ c ∈ rest.head?, c = comma ∨ c = rightBracket ∨ c = rightBrace

/-- A run of digits denotes the number they are the digits of. -/
theorem natOfDigits_map_digit (ds : List ℕ) (h : ∀ d ∈ ds, d < 10) :
    natOfDigits (ds.reverse.map digit) = Nat.ofDigits 10 ds := by
  induction ds with
  | nil => rfl
  | cons d ds ih =>
    have hd : d % 10 = d := Nat.mod_eq_of_lt (h d (by simp))
    have ih' := ih fun e he => h e (by simp [he])
    unfold natOfDigits at ih' ⊢
    rw [List.reverse_cons, List.map_append, List.foldl_append, ih', Nat.ofDigits_cons]
    simp [hd, Nat.add_comm]

/-- A delimiter starts no fraction and no exponent. -/
theorem finishNumber_of_delimited {rest : Str} (h : Delimited rest) (negative : Bool)
    {digits : Str} (hlength : digits.length ≤ intMaxStrDigits) :
    finishNumber negative digits rest =
      .ok (.int (if negative then -(natOfDigits digits : ℤ) else natOfDigits digits), rest) := by
  have hfraction : scanFraction rest = none := by
    rcases rest with - | ⟨c, - | ⟨d, rest⟩⟩
    · rfl
    · rfl
    · rcases h c rfl with rfl | rfl | rfl <;> simp [scanFraction]
  have hexponent : scanExponent rest = none := by
    rcases rest with - | ⟨c, rest⟩
    · rfl
    · rcases h c rfl with rfl | rfl | rfl <;> simp [scanExponent]
  simp [finishNumber, hfraction, hexponent, intOfDigits, not_lt.mpr hlength, Except.map]

/-- A run of digits before a delimiter is scanned whole. -/
theorem span_digits {ds rest : Str} (hds : ∀ d ∈ ds, isDigit d = true) (h : Delimited rest) :
    (ds ++ rest).takeWhile isDigit = ds ∧ (ds ++ rest).dropWhile isDigit = rest := by
  have hrest : rest.takeWhile isDigit = [] ∧ rest.dropWhile isDigit = rest := by
    rcases rest with - | ⟨c, rest⟩
    · simp
    · rcases h c rfl with rfl | rfl | rfl <;> simp [isDigit]
  rw [List.takeWhile_append_of_pos hds, List.dropWhile_append_of_pos hds, hrest.1, hrest.2,
    List.append_nil]
  exact ⟨rfl, rfl⟩

/-- The digits of a positive number: a leading digit that is not zero, and more digits. -/
theorem digits_eq_cons {n : ℕ} (h : n ≠ 0) :
    ∃ d ds, (Nat.digits 10 n).reverse.map digit = d :: ds ∧ isDigit d = true ∧ d ≠ 0x30 ∧
      (∀ e ∈ d :: ds, isDigit e = true) ∧ natOfDigits (d :: ds) = n ∧
      ∀ k, n < 10 ^ k → (d :: ds).length ≤ k := by
  have hne : Nat.digits 10 n ≠ [] := Nat.digits_ne_nil_iff_ne_zero.mpr h
  have hlast := Nat.getLast_digit_ne_zero 10 h
  have hlt : (Nat.digits 10 n).getLast hne < 10 :=
    Nat.digits_lt_base (by omega) (List.getLast_mem hne)
  have hdigits : ∀ e ∈ (Nat.digits 10 n).reverse.map digit, isDigit e = true := by
    intro e he
    obtain ⟨k, -, rfl⟩ := List.mem_map.mp he
    exact isDigit_digit k
  have hvalue : natOfDigits ((Nat.digits 10 n).reverse.map digit) = n := by
    rw [natOfDigits_map_digit _ fun d hd => Nat.digits_lt_base (by omega) hd,
      Nat.ofDigits_digits]
  have hsplit : (Nat.digits 10 n).reverse.map digit =
      digit ((Nat.digits 10 n).getLast hne) ::
        (Nat.digits 10 n).dropLast.reverse.map digit := by
    conv_lhs => rw [← List.dropLast_append_getLast hne]
    simp
  have hlength : ∀ k, n < 10 ^ k → ((Nat.digits 10 n).reverse.map digit).length ≤ k := by
    intro k hk
    rw [List.length_map, List.length_reverse]
    exact Nat.digits_length_le_iff (by omega) n |>.mpr hk
  rw [hsplit] at hdigits hvalue hlength
  refine ⟨_, _, hsplit, isDigit_digit _, ?_, hdigits, hvalue, hlength⟩
  intro hzero
  have hval := congrArg (fun c : CodePoint => c.val) hzero
  simp only [digit] at hval
  have hmod : (Nat.digits 10 n).getLast hne % 10 = (Nat.digits 10 n).getLast hne :=
    Nat.mod_eq_of_lt hlt
  rw [hmod] at hval
  change 0x30 + _ = 0x30 at hval
  omega

/-- A serialized integer before a delimiter is read back. -/
theorem scanNumber_intRepr {n : ℤ} (hn : n.natAbs < 10 ^ intMaxStrDigits) {rest : Str}
    (h : Delimited rest) : scanNumber (intRepr n ++ rest) = .ok (.int n, rest) := by
  have hminus : lit "-" = [0x2D] := by decide
  have hzero : lit "0" = [0x30] := by decide
  rcases eq_or_ne n 0 with rfl | hne
  · have hlength : [(0x30 : CodePoint)].length ≤ intMaxStrDigits := by decide
    simp [scanNumber, intRepr, hzero, finishNumber_of_delimited h _ hlength, natOfDigits, digitVal]
  obtain ⟨d, ds, hds, hd, hd0, hall, hvalue, hlength⟩ :=
    digits_eq_cons (Int.natAbs_ne_zero.mpr hne)
  replace hlength := hlength _ hn
  obtain ⟨htake, hdrop⟩ := span_digits hall h
  rw [List.cons_append] at htake hdrop
  have hnotMinus : d ≠ 0x2D := by
    rintro rfl
    exact absurd hd (by decide)
  rcases lt_or_gt_of_ne hne with hneg | hpos
  · have habs : -|n| = n := by rw [abs_of_neg hneg, neg_neg]
    simp only [intRepr, hneg, ↓reduceIte, hne, hminus, hds, List.cons_append, List.nil_append]
    simp [scanNumber, hd, hd0, htake, hdrop, finishNumber_of_delimited h _ hlength, hvalue, habs]
  · have hnot : ¬n < 0 := by omega
    have habs : ((n.natAbs : ℕ) : ℤ) = n := by omega
    simp only [intRepr, hnot, ↓reduceIte, hne, hds, List.cons_append, List.nil_append]
    simp [scanNumber, hnotMinus, hd, hd0, htake, hdrop, finishNumber_of_delimited h _ hlength,
      hvalue, habs]

/-! ### Values -/

/-- The text of an object member. -/
def memberText (i : Str × Value) : Str := quote i.1 ++ colon :: dumps i.2

theorem dumpsList_eq (items : List Value) : dumpsList items = items.map dumps := by
  induction items with
  | nil => rfl
  | cons v vs ih => rw [dumpsList, ih, List.map_cons]

theorem dumpsItems_eq (items : List (Str × Value)) :
    dumpsItems items = items.map fun i => (i.1, memberText i) := by
  induction items with
  | nil => rfl
  | cons i is ih =>
    rw [dumpsItems, ih, List.map_cons]
    rfl

/-- The members of an object are written in key order. -/
theorem dumps_dict (items : List (Str × Value)) :
    dumps (.dict items) =
      leftBrace :: joinComma ((items.insertionSort keyLE).map memberText) ++ [rightBrace] := by
  have hsort : ((items.insertionSort keyLE).map fun i => (i.1, memberText i)) =
      (items.map fun i => (i.1, memberText i)).insertionSort keyLE :=
    List.map_insertionSort keyLE keyLE _ items fun _ _ _ _ => Iff.rfl
  rw [dumps, dumpsItems_eq, ← hsort, List.map_map]
  rfl

/-- The representative of an object has its members in key order. -/
theorem sortKeys_dict (items : List (Str × Value)) :
    Value.sortKeys (.dict items) =
      .dict ((items.insertionSort keyLE).map fun i => (i.1, i.2.sortKeys)) := by
  rw [Value.sortKeys, Value.sortKeysItems_eq,
    List.map_insertionSort keyLE keyLE (fun i : Str × Value => (i.1, i.2.sortKeys)) items
      fun _ _ _ _ => Iff.rfl]

/-- White space is skipped up to the first other character. -/
theorem skipWs_cons {c : CodePoint} (h : isWhitespace c = false) (s : Str) :
    skipWs (c :: s) = c :: s := by
  simp [skipWs, h]

/-- The text of an integer starts with a minus sign or a digit. -/
theorem intRepr_eq_cons (n : ℤ) : ∃ c t, intRepr n = c :: t ∧ (c = 0x2D ∨ isDigit c = true) := by
  rcases eq_or_ne n 0 with rfl | hn
  · exact ⟨0x30, [], by decide, by decide⟩
  obtain ⟨d, ds, hds, hd, -⟩ := digits_eq_cons (Int.natAbs_ne_zero.mpr hn)
  by_cases hneg : n < 0
  · refine ⟨0x2D, d :: ds, ?_, .inl rfl⟩
    have hminus : lit "-" = [0x2D] := by decide
    rw [intRepr, if_pos hneg, if_neg hn, hds, hminus]
    rfl
  · exact ⟨d, ds, by rw [intRepr, if_neg hneg, if_neg hn, hds, List.nil_append], .inr hd⟩

/-- A serialized value starts with a character that is neither white space nor a closing
bracket nor a byte order mark. -/
theorem dumps_eq_cons {v : Value} (h : v.Serializable) :
    ∃ c t, dumps v = c :: t ∧ isWhitespace c = false ∧ c ≠ rightBracket ∧ c ≠ 0xFEFF := by
  cases v with
  | none => exact ⟨_, _, rfl, by decide, by decide, by decide⟩
  | bool b => cases b <;> exact ⟨_, _, rfl, by decide, by decide, by decide⟩
  | int n =>
    obtain ⟨c, t, hct, hc⟩ := intRepr_eq_cons n
    refine ⟨c, t, hct, ?_, ?_, ?_⟩
    · by_contra hspace
      simp only [isWhitespace, Bool.not_eq_false, Bool.or_eq_true, decide_eq_true_eq] at hspace
      rcases hspace with ((rfl | rfl) | rfl) | rfl <;> exact absurd hc (by decide)
    · rintro rfl
      exact absurd hc (by decide)
    · rintro rfl
      exact absurd hc (by decide)
  | str s => exact ⟨quotationMark, _, rfl, by decide, by decide, by decide⟩
  | list items =>
    exact ⟨leftBracket, _, by rw [dumps, List.cons_append], by decide, by decide, by decide⟩
  | dict items =>
    exact ⟨leftBrace, _, by rw [dumps, List.cons_append], by decide, by decide, by decide⟩
  | float _ | mixedDict _ | other _ _ => simp [Value.Serializable] at h

theorem delimited_comma (s : Str) : Delimited (comma :: s) := by simp [Delimited]

theorem delimited_rightBracket (s : Str) : Delimited (rightBracket :: s) := by simp [Delimited]

theorem delimited_rightBrace (s : Str) : Delimited (rightBrace :: s) := by simp [Delimited]

/-- The scanner finds the tree of `v` in the text of `v`, whatever delimiter follows. -/
def FindsTree (v : Value) : Prop :=
  ∀ (fuel : ℕ) (rest : Str), 2 * (dumps v).length ≤ fuel → Delimited rest →
    Tree.hooks.scanOnce fuel (dumps v ++ rest) = .ok (.ofValue v.sortKeys, rest)

/-- The elements of an array are found, from the first on. -/
theorem scanElements_joinComma (items : List Value) (hne : items ≠ [])
    (hser : ∀ v ∈ items, v.Serializable) (hback : ∀ v ∈ items, FindsTree v)
    (fuel : ℕ) (before : List Tree) (rest : Str)
    (hfuel : 2 * (joinComma (items.map dumps)).length + 1 ≤ fuel) :
    Tree.hooks.scanElements fuel before (joinComma (items.map dumps) ++ rightBracket :: rest) =
      .ok (.array (before ++ items.map fun v => .ofValue v.sortKeys), rest) := by
  induction items generalizing fuel before with
  | nil => exact absurd rfl hne
  | cons v vs ih =>
    obtain ⟨f, rfl⟩ : ∃ f, fuel = f + 1 := ⟨fuel - 1, by omega⟩
    rw [List.forall_mem_cons] at hser hback
    cases vs with
    | nil =>
      simp only [List.map_cons, List.map_nil, joinComma, List.intercalate_singleton] at hfuel ⊢
      have hv := hback.1 f (rightBracket :: rest) (by omega) (delimited_rightBracket rest)
      have hskip : skipWs (rightBracket :: rest) = rightBracket :: rest :=
        skipWs_cons (by decide) rest
      rw [Hooks.scanElements, hv, Except.ok_bind]
      simp [hskip, expect, Tree.hooks]
    | cons w ws =>
      have hjoin : joinComma ((v :: w :: ws).map dumps) =
          dumps v ++ comma :: joinComma ((w :: ws).map dumps) := by
        simp [joinComma, List.intercalate_cons_cons]
      rw [hjoin] at hfuel ⊢
      rw [List.length_append, List.length_cons] at hfuel
      have hv := hback.1 f (comma :: (joinComma ((w :: ws).map dumps) ++ rightBracket :: rest))
        (by omega) (delimited_comma _)
      have htail := ih (by simp) hser.2 hback.2 f (before ++ [.ofValue v.sortKeys]) (by omega)
      obtain ⟨c, t, hct, hspace, -⟩ := dumps_eq_cons (hser.2 w (by simp))
      have hhead : ∃ t', joinComma ((w :: ws).map dumps) ++ rightBracket :: rest = c :: t' := by
        cases ws <;> simp [joinComma, hct, List.intercalate_cons_cons]
      obtain ⟨t', ht'⟩ := hhead
      have hskip : skipWs (joinComma ((w :: ws).map dumps) ++ rightBracket :: rest) =
          joinComma ((w :: ws).map dumps) ++ rightBracket :: rest := by
        rw [ht', skipWs_cons hspace]
      have hcomma : ∀ s, skipWs (comma :: s) = comma :: s := skipWs_cons (by decide)
      rw [List.append_assoc, List.cons_append, Hooks.scanElements, hv, Except.ok_bind]
      simp only [hcomma, expect, show ¬comma = rightBracket by decide, ↓reduceIte, orDecodeError,
        Except.ok_bind, hskip, htail]
      simp

/-- The members of an object are found, from the first on. -/
theorem scanMembers_joinComma (items : List (Str × Value)) (hne : items ≠ [])
    (hser : ∀ i ∈ items, i.2.Serializable) (hback : ∀ i ∈ items, FindsTree i.2)
    (fuel : ℕ) (before : List (Str × Tree)) (rest : Str)
    (hfuel : 2 * (joinComma (items.map memberText)).length + 1 ≤ fuel) :
    Tree.hooks.scanMembers fuel before (joinComma (items.map memberText) ++ rightBrace :: rest) =
      .ok (.object (before ++ items.map fun i => (i.1, .ofValue i.2.sortKeys)), rest) := by
  induction items generalizing fuel before with
  | nil => exact absurd rfl hne
  | cons i is ih =>
    obtain ⟨k, v⟩ := i
    obtain ⟨f, rfl⟩ : ∃ f, fuel = f + 1 := ⟨fuel - 1, by omega⟩
    rw [List.forall_mem_cons] at hser hback
    have hback₁ : FindsTree v := hback.1
    obtain ⟨c, t, hct, hspace, -⟩ := dumps_eq_cons (v := v) hser.1
    have hvalue : ∀ s, skipWs (dumps v ++ s) = dumps v ++ s := by
      intro s
      rw [hct, List.cons_append, skipWs_cons hspace]
    have hcolon : ∀ s, skipWs (colon :: s) = colon :: s := skipWs_cons (by decide)
    have hkey : ∀ s, scanKey (memberText (k, v) ++ s) = some (k, dumps v ++ s) := by
      intro s
      simp only [memberText, quote, List.cons_append, List.append_assoc, List.nil_append, scanKey,
        expect, ↓reduceIte, Option.bind_eq_bind, Option.bind_some, scanString_quote, hcolon, hvalue,
        Option.pure_def]
    cases is with
    | nil =>
      simp only [List.map_cons, List.map_nil, joinComma, List.intercalate_singleton] at hfuel ⊢
      simp only [memberText, List.length_append, List.length_cons] at hfuel
      have hv := hback₁ f (rightBrace :: rest) (by omega) (delimited_rightBrace rest)
      have hbrace : skipWs (rightBrace :: rest) = rightBrace :: rest :=
        skipWs_cons (by decide) rest
      rw [Hooks.scanMembers, hkey]
      simp only [orDecodeError, hv, Except.ok_bind, hbrace, expect, ↓reduceIte]
      rfl
    | cons j js =>
      have hjoin : joinComma (((k, v) :: j :: js).map memberText) =
          memberText (k, v) ++ comma :: joinComma ((j :: js).map memberText) := by
        simp [joinComma, List.intercalate_cons_cons]
      rw [hjoin] at hfuel ⊢
      simp only [memberText, List.length_append, List.length_cons] at hfuel
      have hv := hback₁ f (comma :: (joinComma ((j :: js).map memberText) ++ rightBrace :: rest))
        (by omega) (delimited_comma _)
      have htail := ih (by simp) hser.2 hback.2 f (before ++ [(k, .ofValue v.sortKeys)]) (by omega)
      have hhead : ∃ t', joinComma ((j :: js).map memberText) ++ rightBrace :: rest =
          quotationMark :: t' := by
        cases js <;> simp [joinComma, memberText, quote, List.intercalate_cons_cons]
      obtain ⟨t', ht'⟩ := hhead
      have hskip : skipWs (joinComma ((j :: js).map memberText) ++ rightBrace :: rest) =
          joinComma ((j :: js).map memberText) ++ rightBrace :: rest := by
        rw [ht', skipWs_cons (by decide)]
      have hcomma : ∀ s, skipWs (comma :: s) = comma :: s := skipWs_cons (by decide)
      rw [List.append_assoc, List.cons_append, Hooks.scanMembers, hkey]
      simp only [orDecodeError, hv, Except.ok_bind, hcomma, expect,
        show ¬comma = rightBrace by decide, ↓reduceIte, hskip, htail]
      simp

/-- The code points of the literals. -/
theorem literals : lit "null" = [0x6E, 0x75, 0x6C, 0x6C] ∧ lit "true" = [0x74, 0x72, 0x75, 0x65] ∧
    lit "false" = [0x66, 0x61, 0x6C, 0x73, 0x65] ∧ lit "NaN" = [0x4E, 0x61, 0x4E] ∧
    lit "Infinity" = [0x49, 0x6E, 0x66, 0x69, 0x6E, 0x69, 0x74, 0x79] ∧
    lit "-Infinity" = [0x2D, 0x49, 0x6E, 0x66, 0x69, 0x6E, 0x69, 0x74, 0x79] ∧
    lit "-" = [0x2D] ∧ lit "0" = [0x30] := by
  decide

/-- The text of an integer is taken for a number. -/
theorem scanScalar_intRepr (n : ℤ) (rest : Str) :
    scanConstant (intRepr n ++ rest) = none ∧
      scanScalar (intRepr n ++ rest) = scanNumber (intRepr n ++ rest) := by
  rcases eq_or_ne n 0 with rfl | hn
  · simp [scanConstant, scanScalar, intRepr, startsWith, literals]
  obtain ⟨d, ds, hds, hd, -⟩ := digits_eq_cons (Int.natAbs_ne_zero.mpr hn)
  have hne : ∀ c : CodePoint, isDigit c = false → c ≠ d := by
    rintro c hc rfl
    simp [hd] at hc
  have h₁ := hne 0x22 (by decide)
  have h₂ := hne 0x6E (by decide)
  have h₃ := hne 0x74 (by decide)
  have h₄ := hne 0x66 (by decide)
  have h₅ := hne 0x4E (by decide)
  have h₆ := hne 0x49 (by decide)
  have h₇ := hne 0x2D (by decide)
  by_cases hneg : n < 0
  · rw [intRepr, if_pos hneg, if_neg hn, hds]
    simp [scanConstant, scanScalar, startsWith, literals, h₆]
  · rw [intRepr, if_neg hneg, if_neg hn, hds]
    simp [scanConstant, scanScalar, startsWith, literals, h₁.symm, h₂, h₃, h₄, h₅, h₆, h₇]

/-- The text of a scalar has no structure to be scanned. -/
theorem findsTree_of_scalar {v : Value} {c : CodePoint} {t : Str}
    (hscalar : Tree.ofValue v.sortKeys = .scalar v) (hct : dumps v = c :: t)
    (hbrace : c ≠ leftBrace) (hbracket : c ≠ leftBracket)
    (hscan : ∀ rest, Delimited rest → scanConstant (dumps v ++ rest) = none ∧
      scanScalar (dumps v ++ rest) = .ok (v, rest)) : FindsTree v := by
  intro fuel rest hfuel hrest
  obtain ⟨hconstant, hone⟩ := hscan rest hrest
  rw [hct, List.length_cons] at hfuel
  obtain ⟨f, rfl⟩ : ∃ f, fuel = f + 1 := ⟨fuel - 1, by omega⟩
  rw [hscalar]
  rw [hct, List.cons_append] at hconstant hone ⊢
  simp only [Hooks.scanOnce, if_neg hbrace, if_neg hbracket, hconstant, hone]
  rfl

/-- An object is found in its text, whatever follows. -/
theorem scanOnce_dict {items : List (Str × Value)} (hser : ∀ i ∈ items, i.2.Serializable)
    (hback : ∀ i ∈ items, FindsTree i.2) (fuel : ℕ) (rest : Str)
    (hfuel : 2 * (dumps (.dict items)).length ≤ fuel) :
    Tree.hooks.scanOnce fuel (dumps (.dict items) ++ rest) =
      .ok (.ofValue (Value.dict items).sortKeys, rest) := by
  -- the members are written in key order, and found in that order
  obtain ⟨sorted, hsorted⟩ : ∃ sorted, items.insertionSort keyLE = sorted := ⟨_, rfl⟩
  have hperm : sorted.Perm items := hsorted ▸ List.perm_insertionSort keyLE items
  have hser' : ∀ i ∈ sorted, i.2.Serializable := fun i hi => hser i (hperm.mem_iff.mp hi)
  have hback' : ∀ i ∈ sorted, FindsTree i.2 := fun i hi => hback i (hperm.mem_iff.mp hi)
  rw [dumps_dict, hsorted, List.length_append, List.length_cons] at hfuel
  obtain ⟨f, rfl⟩ : ∃ f, fuel = f + 1 := ⟨fuel - 1, by omega⟩
  rw [sortKeys_dict, dumps_dict, hsorted, List.cons_append, List.cons_append,
    List.append_assoc, List.singleton_append, Tree.ofValue, Tree.ofItems_eq, List.map_map]
  cases sorted with
  | nil => simp [Hooks.scanOnce, joinComma, skipWs_cons, isWhitespace, expect, Tree.hooks,
    Except.map]
  | cons j js =>
    have hhead : ∃ t', joinComma ((j :: js).map memberText) ++ rightBrace :: rest =
        quotationMark :: t' := by
      cases js <;> simp [joinComma, memberText, quote, List.intercalate_cons_cons]
    obtain ⟨t', ht'⟩ := hhead
    have hskip : skipWs (joinComma ((j :: js).map memberText) ++ rightBrace :: rest) =
        joinComma ((j :: js).map memberText) ++ rightBrace :: rest := by
      rw [ht', skipWs_cons (by decide)]
    have hopen : expect rightBrace (joinComma ((j :: js).map memberText) ++ rightBrace :: rest) =
        none := by
      rw [ht', expect, if_neg (by decide)]
    have hmembers := scanMembers_joinComma (j :: js) (by simp) hser' hback' f [] rest
      (by simp only [List.length_cons, List.length_nil] at hfuel ⊢; omega)
    simp only [Hooks.scanOnce, ↓reduceIte, hskip, hopen, hmembers, List.nil_append]
    rfl

/-- The tree of a serialized value is found. -/
theorem findsTree_dumps {v : Value} (hser : v.Serializable) : FindsTree v := by
  induction v using Value.induction with
  | none =>
    refine findsTree_of_scalar rfl rfl (by decide) (by decide) fun rest _ => ?_
    simp [dumps, scanConstant, scanScalar, startsWith, literals]
  | bool b =>
    cases b
    · refine findsTree_of_scalar rfl rfl (by decide) (by decide) fun rest _ => ?_
      simp [dumps, scanConstant, scanScalar, startsWith, literals]
    · refine findsTree_of_scalar rfl rfl (by decide) (by decide) fun rest _ => ?_
      simp [dumps, scanConstant, scanScalar, startsWith, literals]
  | int n =>
    obtain ⟨c, t, hct, hc⟩ := intRepr_eq_cons n
    refine findsTree_of_scalar rfl hct ?_ ?_ fun rest hrest => ?_
    · rintro rfl
      exact absurd hc (by decide)
    · rintro rfl
      exact absurd hc (by decide)
    · rw [dumps]
      obtain ⟨hconstant, hnumber⟩ := scanScalar_intRepr n rest
      exact ⟨hconstant, hnumber.trans (scanNumber_intRepr hser hrest)⟩
  | str s =>
    refine findsTree_of_scalar rfl rfl (by decide) (by decide) fun rest _ => ?_
    rw [dumps, quote, List.cons_append, List.cons_append, List.append_assoc,
      List.singleton_append, scanScalar, if_pos rfl, scanString_quote]
    exact ⟨by simp [scanConstant, startsWith, literals], rfl⟩
  | list items ih =>
    intro fuel rest hfuel _
    rw [Value.serializable_list] at hser
    have hback : ∀ v ∈ items, FindsTree v := fun v hv => ih v hv (hser v hv)
    rw [dumps, dumpsList_eq, List.length_append, List.length_cons] at hfuel
    obtain ⟨f, rfl⟩ : ∃ f, fuel = f + 1 := ⟨fuel - 1, by omega⟩
    rw [Value.sortKeys, Value.sortKeysList_eq, dumps, dumpsList_eq, List.cons_append,
      List.cons_append, List.append_assoc, List.singleton_append, Tree.ofValue, Tree.ofValues_eq,
      List.map_map]
    cases items with
    | nil => simp [Hooks.scanOnce, joinComma, skipWs_cons, isWhitespace, expect, Tree.hooks]
    | cons w ws =>
      obtain ⟨c, t, hct, hspace, hclose, -⟩ := dumps_eq_cons (hser w (by simp))
      have hhead : ∃ t', joinComma ((w :: ws).map dumps) ++ rightBracket :: rest = c :: t' := by
        cases ws <;> simp [joinComma, hct, List.intercalate_cons_cons]
      obtain ⟨t', ht'⟩ := hhead
      have hskip : skipWs (joinComma ((w :: ws).map dumps) ++ rightBracket :: rest) =
          joinComma ((w :: ws).map dumps) ++ rightBracket :: rest := by
        rw [ht', skipWs_cons hspace]
      have hopen : expect rightBracket (joinComma ((w :: ws).map dumps) ++ rightBracket :: rest) =
          none := by
        rw [ht', expect, if_neg hclose]
      have helements := scanElements_joinComma (w :: ws) (by simp) hser hback f [] rest
        (by simp only [List.length_cons, List.length_nil] at hfuel ⊢; omega)
      simp only [Hooks.scanOnce, show ¬leftBracket = leftBrace by decide, ↓reduceIte, hskip, hopen,
        helements, List.nil_append]
      rfl
  | dict items ih =>
    intro fuel rest hfuel _
    rw [Value.serializable_dict] at hser
    exact scanOnce_dict hser (fun i hi => ih i hi (hser i hi)) fuel rest hfuel
  | float _ | mixedDict _ _ | other _ _ => simp [Value.Serializable] at hser

/-! ### The round trip -/

/-- A serialized value is read back, with the members of its objects sorted, by every hook that
leaves objects without repeated keys as they are. -/
theorem loadsWith_dumps {hooks : Hooks Value} (hscalar : ∀ v, hooks.scalar v = v)
    (harray : hooks.array = .list) (hobject : ∀ members : List (Str × Value),
      (members.map Prod.fst).Nodup → hooks.object members = .ok (.dict members)) {v : Value}
    (hser : v.Serializable) (hwf : v.WellFormed) : loadsWith hooks (dumps v) = .ok v.sortKeys := by
  obtain ⟨c, t, hct, hspace, -, hmark⟩ := dumps_eq_cons hser
  have hskip : skipWs (dumps v) = dumps v := by rw [hct, skipWs_cons hspace]
  have hfind := findsTree_dumps hser (2 * (dumps v).length + 1) [] (by omega) (by simp [Delimited])
  have hbom : (dumps v).head? ≠ some 0xFEFF := by simpa [hct] using hmark
  have htree : loadsWith Tree.hooks (dumps v) = .ok (.ofValue v.sortKeys) := by
    rw [List.append_nil] at hfind
    rw [loadsWith, if_neg hbom, hskip, hfind]
    rfl
  exact loadsWith_eq_ok.mpr
    ⟨_, htree, Tree.fold_ofValue hscalar harray hobject (Value.wellFormed_sortKeys hwf)⟩

/-- An object that whitespace follows is read back. -/
theorem loadsWith_dict_append {hooks : Hooks Value} (hscalar : ∀ v, hooks.scalar v = v)
    (harray : hooks.array = .list) (hobject : ∀ members : List (Str × Value),
      (members.map Prod.fst).Nodup → hooks.object members = .ok (.dict members))
    {items : List (Str × Value)} (hser : (Value.dict items).Serializable)
    (hwf : (Value.dict items).WellFormed) {rest : Str} (hrest : skipWs rest = []) :
    loadsWith hooks (dumps (.dict items) ++ rest) = .ok (Value.dict items).sortKeys := by
  obtain ⟨c, t, hct, hspace, -, hmark⟩ := dumps_eq_cons hser
  have hskip : skipWs (dumps (.dict items) ++ rest) = dumps (.dict items) ++ rest := by
    rw [hct, List.cons_append, skipWs_cons hspace]
  have hbom : (dumps (.dict items) ++ rest).head? ≠ some 0xFEFF := by simpa [hct] using hmark
  have hfind := scanOnce_dict (Value.serializable_dict.mp hser)
    (fun i hi => findsTree_dumps (Value.serializable_dict.mp hser i hi))
    (2 * (dumps (.dict items) ++ rest).length + 1) rest (by rw [List.length_append]; omega)
  have htree : loadsWith Tree.hooks (dumps (.dict items) ++ rest) =
      .ok (.ofValue (Value.dict items).sortKeys) := by
    rw [loadsWith, if_neg hbom, hskip, hfind, Except.ok_bind]
    exact if_pos hrest
  exact loadsWith_eq_ok.mpr
    ⟨_, htree, Tree.fold_ofValue hscalar harray hobject (Value.wellFormed_sortKeys hwf)⟩

/-- `json.loads` reads a serialized value back, with the members of its objects sorted. -/
theorem loads_dumps {v : Value} (hser : v.Serializable) (hwf : v.WellFormed) :
    loads (dumps v) = .ok v.sortKeys :=
  loadsWith_dumps (fun _ => rfl) rfl (fun _ => object_plain) hser hwf

/-- Sorting the members of a value does not change its text. -/
@[simp]
theorem dumps_sortKeys (v : Value) (hwf : v.WellFormed) : dumps v.sortKeys = dumps v := by
  induction v using Value.induction with
  | list items ih =>
    rw [Value.wellFormed_list] at hwf
    have htexts : (items.map Value.sortKeys).map dumps = items.map dumps := by
      rw [List.map_map]
      exact List.map_congr_left fun v hv => ih v hv (hwf v hv)
    rw [Value.sortKeys, Value.sortKeysList_eq, dumps, dumps, dumpsList_eq, dumpsList_eq, htexts]
  | dict items ih =>
    rw [Value.wellFormed_dict] at hwf
    have hmembers : ((items.insertionSort keyLE).map fun i => (i.1, i.2.sortKeys)).map memberText =
        (items.insertionSort keyLE).map memberText := by
      rw [List.map_map]
      refine List.map_congr_left fun i hi => ?_
      have hmem : i ∈ items := (List.perm_insertionSort keyLE items).mem_iff.mp hi
      rw [Function.comp_apply, memberText, memberText, ih i hmem (hwf.2 i hmem)]
    -- sorting the sorted members again changes nothing
    have hsort : ((items.insertionSort keyLE).map fun i => (i.1, i.2.sortKeys)).insertionSort
        keyLE = (items.insertionSort keyLE).map fun i => (i.1, i.2.sortKeys) := by
      apply List.Pairwise.insertionSort_eq
      rw [List.pairwise_map]
      exact pairwise_insertionSort_keyLE items
    rw [sortKeys_dict, dumps_dict, dumps_dict, hsort, hmembers]
  | none | bool _ | int _ | float _ | str _ | mixedDict _ _ | other _ _ => rfl

/-- Two values have the same text exactly when they are the same JSON value. -/
theorem dumps_eq_iff_same {v w : Value} (hv : v.Serializable) (hw : w.Serializable)
    (hvw : v.WellFormed) (hww : w.WellFormed) : dumps v = dumps w ↔ v.Same w := by
  rw [Value.same_iff_sortKeys_eq hvw hww]
  constructor
  · intro h
    have hload := (loads_dumps hv hvw).symm.trans ((congrArg loads h).trans (loads_dumps hw hww))
    exact Except.ok.inj hload
  · intro h
    rw [← dumps_sortKeys v hvw, h, dumps_sortKeys w hww]

/-! ### Control characters -/

/-- Escaping leaves no control character. -/
theorem le_of_mem_quote {s : Str} {c : CodePoint} (h : c ∈ quote s) : 0x20 ≤ c.val := by
  have hhex : ∀ n, 0x20 ≤ (hexDigit n).val := by
    intro n
    simp only [hexDigit]
    split <;> omega
  simp only [quote, List.mem_append, List.mem_cons, List.mem_flatMap, List.not_mem_nil,
    or_false] at h
  rcases h with (rfl | ⟨d, hd, hcd⟩) | rfl
  · decide
  · unfold escapeChar at hcd
    split_ifs at hcd with _ _ _ _ _ _ _ hprintable <;>
      simp only [List.mem_cons, List.not_mem_nil, or_false] at hcd
    case neg =>
      rw [hcd]
      omega
    all_goals
      rcases hcd with rfl | rfl | rfl | rfl | rfl | rfl <;> first | decide | exact hhex _
  · decide

theorem le_of_mem_joinComma {texts : List Str} (h : ∀ t ∈ texts, ∀ c ∈ t, 0x20 ≤ c.val) :
    ∀ c ∈ joinComma texts, 0x20 ≤ c.val := by
  induction texts with
  | nil => simp [joinComma]
  | cons t ts ih =>
    rw [List.forall_mem_cons] at h
    cases ts with
    | nil => simpa [joinComma] using h.1
    | cons u us =>
      rw [joinComma, List.intercalate_cons_cons, List.forall_mem_append, List.forall_mem_append]
      exact ⟨⟨h.1, by simp⟩, ih h.2⟩

/-- A serialized text holds no control character. -/
theorem le_of_mem_dumps (v : Value) : ∀ c ∈ dumps v, 0x20 ≤ c.val := by
  have hlit : ∀ t : Str, t.all (fun c => 0x20 ≤ c.val) = true → ∀ c ∈ t, 0x20 ≤ c.val :=
    fun t ht c hc => of_decide_eq_true (List.all_eq_true.mp ht c hc)
  induction v using Value.induction with
  | none => exact hlit _ (by decide)
  | bool b => cases b <;> exact hlit _ (by decide)
  | int n =>
    have hdigit : ∀ d, 0x20 ≤ (digit d).val := fun d => by
      show 0x20 ≤ 0x30 + d % 10
      omega
    rw [dumps, intRepr, List.forall_mem_append]
    refine ⟨by split_ifs <;> exact hlit _ (by decide), ?_⟩
    split_ifs
    · exact hlit _ (by decide)
    · rw [List.forall_mem_map]
      exact fun d _ => hdigit d
  | str s => exact fun c hc => le_of_mem_quote hc
  | list items ih =>
    rw [dumps, dumpsList_eq, List.cons_append, List.forall_mem_cons, List.forall_mem_append]
    refine ⟨by decide, le_of_mem_joinComma ?_, by simp⟩
    rw [List.forall_mem_map]
    exact ih
  | dict items ih =>
    rw [dumps_dict, List.cons_append, List.forall_mem_cons, List.forall_mem_append]
    refine ⟨by decide, le_of_mem_joinComma ?_, by simp⟩
    rw [List.forall_mem_map]
    intro i hi
    have hmem : i ∈ items := (List.perm_insertionSort keyLE items).mem_iff.mp hi
    rw [memberText, List.forall_mem_append, List.forall_mem_cons]
    exact ⟨fun c hc => le_of_mem_quote hc, by decide, ih i hmem⟩
  | float _ | mixedDict _ _ | other _ _ => simp [dumps]

end Json

end Python
