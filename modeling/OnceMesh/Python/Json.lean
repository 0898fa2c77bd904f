import Mathlib.Data.List.Sort
import OnceMesh.Python.Value

/-!
# The `json` module

`Json.dumps` is `json.dumps(value, ensure_ascii=False, sort_keys=True, separators=(",", ":"))`
on values without floating-point numbers. `Json.loads` is `json.loads` on text, with the
decoder's defaults: the three non-finite constants, lone surrogate escapes and repeated keys (the
last value wins) are accepted, control characters inside strings are not. An integer of more digits
than `int` converts raises a `ValueError` that is no `JSONDecodeError`.

`Hooks` stands for the keyword arguments of `json.loads`, and `Json.loads` is `loadsWith` without
any. The scanner recurses on fuel; `scanOnce_fuel` says that `loadsWith` supplies enough. How deep
a document may be nested is up to the stack of the interpreter, which is left out.
-/

namespace Python.Json

/-- `"` -/
@[simp]
abbrev quotationMark : CodePoint := 0x22

/-- `\` -/
@[simp]
abbrev reverseSolidus : CodePoint := 0x5C

/-- `,` -/
@[simp]
abbrev comma : CodePoint := 0x2C

/-- `:` -/
@[simp]
abbrev colon : CodePoint := 0x3A

/-- `[` -/
@[simp]
abbrev leftBracket : CodePoint := 0x5B

/-- `]` -/
@[simp]
abbrev rightBracket : CodePoint := 0x5D

/-- `U+007B` -/
@[simp]
abbrev leftBrace : CodePoint := 0x7B

/-- `U+007D` -/
@[simp]
abbrev rightBrace : CodePoint := 0x7D

/-- The small letter `u`, which introduces a numeric escape. -/
@[simp]
abbrev letterU : CodePoint := 0x75

/-! ### Serialization -/

/-- `ESCAPE_DCT`: the short escapes, and `\u00xx` for the other control characters. -/
def escapeChar (c : CodePoint) : Str :=
  if c = quotationMark then [reverseSolidus, quotationMark]
  else if c = reverseSolidus then [reverseSolidus, reverseSolidus]
  else if c = 0x08 then [reverseSolidus, 0x62]
  else if c = 0x0C then [reverseSolidus, 0x66]
  else if c = 0x0A then [reverseSolidus, 0x6E]
  else if c = 0x0D then [reverseSolidus, 0x72]
  else if c = 0x09 then [reverseSolidus, 0x74]
  else if c.val < 0x20 then
    [reverseSolidus, letterU, 0x30, 0x30, hexDigit (c.val / 16), hexDigit c.val]
  else [c]

/-- `py_encode_basestring`. -/
def quote (s : Str) : Str :=
  quotationMark :: s.flatMap escapeChar ++ [quotationMark]

/-- `",".join(texts)`. -/
def joinComma (texts : List Str) : Str := [comma].intercalate texts

/-- The order of object members under `sort_keys`. -/
def keyLE {α : Type} (a b : Str × α) : Prop := a.1 ≤ b.1

instance {α : Type} : DecidableRel (keyLE (α := α)) := fun a b =>
  inferInstanceAs (Decidable (a.1 ≤ b.1))

mutual

/-- `json.dumps`; the values it is not called on serialize to nothing. -/
def dumps : Value → Str
  | .none => lit "null"
  | .bool b => if b then lit "true" else lit "false"
  | .int n => intRepr n
  | .str s => quote s
  | .list items => leftBracket :: joinComma (dumpsList items) ++ [rightBracket]
  | .dict items =>
    leftBrace :: joinComma (((dumpsItems items).insertionSort keyLE).map Prod.snd) ++ [rightBrace]
  | .float _ | .mixedDict _ | .other _ _ => []

/-- The texts of the elements of an array. -/
def dumpsList : List Value → List Str
  | [] => []
  | v :: vs => dumps v :: dumpsList vs

/-- The members of an object, each with its key. -/
def dumpsItems : List (Str × Value) → List (Str × Str)
  | [] => []
  | (k, v) :: rest => (k, quote k ++ colon :: dumps v) :: dumpsItems rest

end

/-! ### Scanning -/

/-- JSON white space. -/
def isWhitespace (c : CodePoint) : Bool :=
  c = 0x20 || c = 0x09 || c = 0x0A || c = 0x0D

/-- `WHITESPACE.match(s, idx).end()`. -/
def skipWs (s : Str) : Str := s.dropWhile isWhitespace

/-- The next character, which must be `c`. -/
def expect (c : CodePoint) : Str → Option Str
  | [] => none
  | c' :: rest => if c' = c then some rest else none

/-- The value of a hexadecimal digit. -/
def hexVal? (c : CodePoint) : Option ℕ :=
  if 0x30 ≤ c.val ∧ c.val ≤ 0x39 then some (c.val - 0x30)
  else if 0x61 ≤ c.val ∧ c.val ≤ 0x66 then some (c.val - 0x61 + 10)
  else if 0x41 ≤ c.val ∧ c.val ≤ 0x46 then some (c.val - 0x41 + 10)
  else none

/-- The code unit of four hexadecimal digits. -/
def hex4? (a b c d : CodePoint) : Option ℕ := do
  let a ← hexVal? a
  let b ← hexVal? b
  let c ← hexVal? c
  let d ← hexVal? d
  pure (a * 4096 + b * 256 + c * 16 + d)

/-- The characters of the one-letter escapes. -/
def simpleEscape? (c : CodePoint) : Option CodePoint :=
  if c = quotationMark then some quotationMark
  else if c = reverseSolidus then some reverseSolidus
  else if c = 0x2F then some 0x2F
  else if c = 0x62 then some 0x08
  else if c = 0x66 then some 0x0C
  else if c = 0x6E then some 0x0A
  else if c = 0x72 then some 0x0D
  else if c = 0x74 then some 0x09
  else none

/-- A code unit as a code point. -/
def ofCodeUnit (n : ℕ) : CodePoint := Fin.ofNat _ n

/-- The code point of a surrogate pair. -/
def joinSurrogates (high low : ℕ) : CodePoint :=
  Fin.ofNat _ (0x10000 + (high - 0xD800) * 0x400 + (low - 0xDC00))

/-- `scanstring` after the opening quotation mark, in strict mode: the text, and what follows
the closing mark. -/
def scanString : Str → Option (Str × Str)
  | [] => none
  | c :: rest =>
    if c = quotationMark then some ([], rest)
    else if c = reverseSolidus then
      match rest with
      | [] => none
      | e :: rest₁ =>
        if e = letterU then
          match rest₁ with
          | h₁ :: h₂ :: h₃ :: h₄ :: rest₂ =>
            match hex4? h₁ h₂ h₃ h₄ with
            | none => none
            | some unit =>
              if 0xD800 ≤ unit ∧ unit ≤ 0xDBFF then
                match rest₂ with
                | b :: u :: l₁ :: l₂ :: l₃ :: l₄ :: rest₃ =>
                  if b = reverseSolidus ∧ u = letterU then
                    match hex4? l₁ l₂ l₃ l₄ with
                    | none => none
                    | some low =>
                      -- a high surrogate that no low one follows stays by itself
                      if 0xDC00 ≤ low ∧ low ≤ 0xDFFF then
                        (scanString rest₃).map fun r => (joinSurrogates unit low :: r.1, r.2)
                      else
                        (scanString (b :: u :: l₁ :: l₂ :: l₃ :: l₄ :: rest₃)).map
                          fun r => (ofCodeUnit unit :: r.1, r.2)
                  else
                    (scanString (b :: u :: l₁ :: l₂ :: l₃ :: l₄ :: rest₃)).map
                      fun r => (ofCodeUnit unit :: r.1, r.2)
                | rest₂ => (scanString rest₂).map fun r => (ofCodeUnit unit :: r.1, r.2)
              else (scanString rest₂).map fun r => (ofCodeUnit unit :: r.1, r.2)
          | _ => none
        else
          match simpleEscape? e with
          | none => none
          | some c' => (scanString rest₁).map fun r => (c' :: r.1, r.2)
    else if c.val < 0x20 then none
    else (scanString rest).map fun r => (c :: r.1, r.2)

/-- The number a run of decimal digits denotes. -/
def natOfDigits (digits : Str) : ℕ := digits.foldl (fun n d => 10 * n + digitVal d) 0

/-- The fraction of a number: a point and at least one digit. -/
def scanFraction : Str → Option (Str × Str)
  | p :: d :: rest =>
    if p = 0x2E ∧ isDigit d then some ((d :: rest).takeWhile isDigit, (d :: rest).dropWhile isDigit)
    else none
  | _ => none

/-- The optional sign of an exponent: whether it is a minus, and what follows it. -/
def exponentSign : Str → Bool × Str
  | s :: rest =>
    if s = 0x2D then (true, rest) else if s = 0x2B then (false, rest) else (false, s :: rest)
  | [] => (false, [])

/-- The exponent of a number: `e` or `E`, an optional sign and at least one digit. -/
def scanExponent : Str → Option (ℤ × Str)
  | e :: rest =>
    if e = 0x65 ∨ e = 0x45 then
      let (negative, digits) := exponentSign rest
      if (digits.head?.map isDigit).getD false then
        let magnitude : ℤ := natOfDigits (digits.takeWhile isDigit)
        some (if negative then -magnitude else magnitude, digits.dropWhile isDigit)
      else none
    else none
  | [] => none

/-- `sys.get_int_max_str_digits()`, where it has not been set. -/
def intMaxStrDigits : ℕ := 4300

/-- What `int` raises for more digits than it converts. -/
def digitLimitError (length : ℕ) : PyError :=
  .valueError (lit "Exceeds the limit (4300 digits) for integer string conversion: value has " ++
    intRepr length ++ lit " digits; use sys.set_int_max_str_digits() to increase the limit") []

/-- `int(text)` of a run of digits with its sign. -/
def intOfDigits (negative : Bool) (digits : Str) : Except PyError ℤ :=
  if intMaxStrDigits < digits.length then .error (digitLimitError digits.length)
  else .ok (if negative then -(natOfDigits digits : ℤ) else natOfDigits digits)

/-- The value of a number with the integer part `digits`, and what follows it. -/
def finishNumber (negative : Bool) (digits rest : Str) : Except PyError (Value × Str) :=
  match scanFraction rest, scanExponent ((scanFraction rest).elim rest Prod.snd) with
  | none, none => (intOfDigits negative digits).map fun n => (.int n, rest)
  | fraction, exponent =>
    let places := fraction.elim [] Prod.fst
    .ok (.float (.ofDecimal negative (natOfDigits (digits ++ places))
      (exponent.elim 0 Prod.fst - places.length)),
      exponent.elim (fraction.elim rest Prod.snd) Prod.snd)

/-- `_match_number`: an integer without leading zeros, a fraction and an exponent. -/
def scanNumber (s : Str) : Except PyError (Value × Str) :=
  let negative := s.head? = some 0x2D
  match if negative then s.tail else s with
  | [] => .error .jsonDecodeError
  | c :: rest =>
    if c = 0x30 then finishNumber negative [c] rest
    else if isDigit c then
      finishNumber negative ((c :: rest).takeWhile isDigit) ((c :: rest).dropWhile isDigit)
    else .error .jsonDecodeError

/-- Where nothing is found, the decoder raises a `JSONDecodeError`. -/
def orDecodeError {α : Type} (x : Option α) : Except PyError α :=
  match x with
  | some a => .ok a
  | none => .error .jsonDecodeError

@[simp]
theorem orDecodeError_eq_ok {α : Type} {x : Option α} {a : α} :
    orDecodeError x = .ok a ↔ x = some a := by
  cases x <;> simp [orDecodeError]

/-- The non-finite numbers, which JSON does not have. -/
inductive Constant where
  | nan
  | infinity
  | negInfinity
  deriving DecidableEq

namespace Constant

/-- The constant in the text. -/
def text : Constant → Str
  | nan => lit "NaN"
  | infinity => lit "Infinity"
  | negInfinity => lit "-Infinity"

/-- `_CONSTANTS`. -/
def value : Constant → Value
  | nan => .float .nan
  | infinity => .float (.infinity false)
  | negInfinity => .float (.infinity true)

end Constant

/-- The non-finite number that comes first, and what follows it. -/
def scanConstant (s : Str) : Option (Constant × Str) :=
  if startsWith s (lit "NaN") then some (.nan, s.drop 3)
  else if startsWith s (lit "Infinity") then some (.infinity, s.drop 8)
  else if startsWith s (lit "-Infinity") then some (.negInfinity, s.drop 9)
  else none

/-- A string, `null`, `true`, `false` or a number, and what follows it. -/
def scanScalar (s : Str) : Except PyError (Value × Str) :=
  match s with
  | [] => .error .jsonDecodeError
  | c :: rest =>
    if c = quotationMark then orDecodeError ((scanString rest).map fun r => (.str r.1, r.2))
    else if startsWith s (lit "null") then .ok (.none, s.drop 4)
    else if startsWith s (lit "true") then .ok (.bool true, s.drop 4)
    else if startsWith s (lit "false") then .ok (.bool false, s.drop 5)
    else scanNumber s

/-- The key of a member, and what follows the colon. -/
def scanKey (s : Str) : Option (Str × Str) := do
  let (key, afterKey) ← scanString (← expect quotationMark s)
  let afterColon ← expect colon (skipWs afterKey)
  pure (key, skipWs afterColon)

/-- What is made of the parts of a document. -/
structure Hooks (α : Type) where
  /-- A string, a number, or one of `null`, `true` and `false`. -/
  scalar : Value → α
  /-- `parse_constant`. -/
  constant : Constant → Except PyError α
  array : List α → α
  /-- `object_pairs_hook`, which gets the members as they stand in the text, repeated keys
  included. -/
  object : List (Str × α) → Except PyError α

namespace Hooks

variable {α : Type} (hooks : Hooks α)

mutual

/-- `scan_once`: a value, and what follows it. -/
def scanOnce : ℕ → Str → Except PyError (α × Str)
  | 0, _ => .error .jsonDecodeError
  | fuel + 1, s =>
    match s with
    | [] => .error .jsonDecodeError
    | c :: rest =>
      if c = leftBrace then
        match expect rightBrace (skipWs rest) with
        | some rest' => (hooks.object []).map fun a => (a, rest')
        | none => scanMembers fuel [] (skipWs rest)
      else if c = leftBracket then
        match expect rightBracket (skipWs rest) with
        | some rest' => .ok (hooks.array [], rest')
        | none => scanElements fuel [] (skipWs rest)
      else
        match scanConstant s with
        | some (constant, rest') => (hooks.constant constant).map fun a => (a, rest')
        | none => (scanScalar s).map fun r => (hooks.scalar r.1, r.2)

/-- `_parse_object` at a member, with the members before it. -/
def scanMembers : ℕ → List (Str × α) → Str → Except PyError (α × Str)
  | 0, _, _ => .error .jsonDecodeError
  | fuel + 1, members, s => do
    let (key, afterColon) ← orDecodeError (scanKey s)
    let (value, afterValue) ← scanOnce fuel afterColon
    match expect rightBrace (skipWs afterValue) with
    | some rest => (hooks.object (members ++ [(key, value)])).map fun a => (a, rest)
    | none =>
      let afterComma ← orDecodeError (expect comma (skipWs afterValue))
      scanMembers fuel (members ++ [(key, value)]) (skipWs afterComma)

/-- `_parse_array` at an element, with the elements before it. -/
def scanElements : ℕ → List α → Str → Except PyError (α × Str)
  | 0, _, _ => .error .jsonDecodeError
  | fuel + 1, items, s => do
    let (value, afterValue) ← scanOnce fuel s
    match expect rightBracket (skipWs afterValue) with
    | some rest => .ok (hooks.array (items ++ [value]), rest)
    | none =>
      let afterComma ← orDecodeError (expect comma (skipWs afterValue))
      scanElements fuel (items ++ [value]) (skipWs afterComma)

end

end Hooks

/-- `json.loads(text, …)`. -/
def loadsWith {α : Type} (hooks : Hooks α) (s : Str) : Except PyError α :=
  if s.head? = some 0xFEFF then .error .jsonDecodeError
  else do
    let (a, rest) ← hooks.scanOnce (2 * (skipWs s).length + 1) (skipWs s)
    if skipWs rest = [] then .ok a else .error .jsonDecodeError

/-- A member of an object is set; the last of two with one key stays. -/
def setMembers (members : List (Str × Value)) : List (Str × Value) :=
  members.foldl (fun items member => setItem items member.1 member.2) []

theorem setMembers_append (members : List (Str × Value)) (member : Str × Value) :
    setMembers (members ++ [member]) = setItem (setMembers members) member.1 member.2 := by
  rw [setMembers, List.foldl_append]
  rfl

/-- The hooks of a call without any. -/
def Hooks.plain : Hooks Value where
  scalar value := value
  constant c := .ok c.value
  array := .list
  object members := .ok (.dict (setMembers members))

/-- `json.loads(text)`. -/
def loads (s : Str) : Except PyError Value := loadsWith .plain s

end Python.Json
