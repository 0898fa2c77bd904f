import OnceMesh.Python.Dict
import OnceMesh.Python.Error
import OnceMesh.Python.Float

/-!
# Python values

The objects a program takes apart with `isinstance`: everything `json.loads` can return, and
two constructors for what it cannot. A dictionary keeps its items in insertion order;
`Value.WellFormed` says that its keys are distinct, which every Python dictionary satisfies.
-/

namespace Python

/-- A Python object. -/
inductive Value where
  | none
  | bool (b : Bool)
  | int (n : ℤ)
  | float (x : PyFloat)
  | str (s : Str)
  | list (items : List Value)
  /-- A dictionary all of whose keys are strings. -/
  | dict (items : List (Str × Value))
  /-- A dictionary with a key that is not a string, after the items `before`. -/
  | mixedDict (before : List (Str × Value))
  /-- An object of any other type. -/
  | other (typeName : Str) (hashable : Bool)
  deriving Repr

namespace Value

/-- `bool(value)`. -/
def truthy : Value → Bool
  | none => false
  | bool b => b
  | int n => n ≠ 0
  | float x => x.truthy
  | str s => s ≠ []
  | list items => items.length ≠ 0
  | dict items => items.length ≠ 0
  | mixedDict _ => true
  | other _ _ => true

/-- `value is None`. -/
def isNone : Value → Bool
  | none => true
  | _ => false

/-- Whether `hash(value)` returns. -/
def hashable : Value → Bool
  | list _ | dict _ | mixedDict _ => false
  | other _ h => h
  | _ => true

/-- `value == text` for a string `text`. -/
def eqStr (value : Value) (text : Str) : Bool :=
  match value with
  | str s => s == text
  | _ => false

/-- A value equals a text just if it is that text. -/
@[simp]
theorem eqStr_eq_true {value : Value} {text : Str} :
    value.eqStr text = true ↔ value = str text := by
  cases value <;> simp [eqStr]

/-- `value == n` for an integer `n`. -/
def eqInt (value : Value) (n : ℤ) : Bool :=
  match value with
  | int m => m = n
  | bool b => (if b then 1 else 0) = n
  | float x => x.eqInt n
  | _ => false

/-- `value.get(key)` of a dictionary. -/
def get (value : Value) (key : Str) : Value :=
  match value with
  | dict items | mixedDict items => (items.lookup key).getD none
  | _ => none

/-- `value[key]` for a string key. -/
def item (value : Value) (key : Str) : Except PyError Value :=
  match value with
  | dict items | mixedDict items =>
    match items.lookup key with
    | some v => .ok v
    | Option.none => .error (.keyError key)
  | _ => .error (.typeError (lit "not subscriptable by a string"))

/-- The keys of a dictionary are exactly `expected`. -/
def hasExactKeys (value : Value) (expected : List Str) : Bool :=
  match value with
  | dict items =>
    items.all (fun i => i.1 ∈ expected) && expected.all (fun k => k ∈ items.map Prod.fst)
  | _ => false

/-- `isinstance(value, dict)`. -/
def isDict : Value → Bool
  | dict _ | mixedDict _ => true
  | _ => false

/-- `value == {key: text, …}` for a dictionary literal of strings. -/
def eqStrDict (value : Value) (fields : List (Str × Str)) : Bool :=
  value.hasExactKeys (fields.map Prod.fst) && fields.all fun f => (value.get f.1).eqStr f.2

/-- `value in frozenset(table)`, with what the table holds there; an unhashable operand raises
`TypeError`. -/
def lookupIn {α : Type} (value : Value) (table : List (Str × α)) : Except PyError (Option α) :=
  if value.hashable then
    .ok (match value with
      | str s => table.lookup s
      | _ => Option.none)
  else .error (.typeError (lit "unhashable type"))

/-- A hashable value is looked up. -/
theorem lookupIn_of_hashable {α : Type} {value : Value} {table : List (Str × α)}
    (h : value.hashable = true) : ∃ found, value.lookupIn table = .ok found :=
  ⟨_, if_pos h⟩

/-- A value that is not hashable cannot be looked up. -/
theorem lookupIn_of_not_hashable {α : Type} {value : Value} {table : List (Str × α)}
    (h : ¬value.hashable = true) :
    value.lookupIn table = .error (.typeError (lit "unhashable type")) :=
  if_neg h

mutual

/-- Every dictionary in the value has distinct keys. -/
def WellFormed : Value → Prop
  | list items => WellFormedList items
  | dict items | mixedDict items => (items.map Prod.fst).Nodup ∧ WellFormedItems items
  | _ => True

/-- `WellFormed` for the elements of a list. -/
def WellFormedList : List Value → Prop
  | [] => True
  | v :: vs => WellFormed v ∧ WellFormedList vs

/-- `WellFormed` for the values of a dictionary. -/
def WellFormedItems : List (Str × Value) → Prop
  | [] => True
  | (_, v) :: rest => WellFormed v ∧ WellFormedItems rest

end

/-- Structural induction, with the hypothesis for every element of a list and every value of a
dictionary. -/
@[elab_as_elim]
theorem induction {motive : Value → Prop} (none : motive none) (bool : ∀ b, motive (bool b))
    (int : ∀ n, motive (int n)) (float : ∀ x, motive (float x)) (str : ∀ s, motive (str s))
    (list : ∀ items, (∀ v ∈ items, motive v) → motive (list items))
    (dict : ∀ items : List (Str × Value), (∀ i ∈ items, motive i.2) → motive (dict items))
    (mixedDict : ∀ items : List (Str × Value), (∀ i ∈ items, motive i.2) →
      motive (mixedDict items))
    (other : ∀ t h, motive (other t h)) (value : Value) : motive value := by
  refine @Value.rec motive (fun items => ∀ v ∈ items, motive v)
    (fun items => ∀ i ∈ items, motive i.2) (fun i => motive i.2)
    none bool int float str list dict mixedDict other ?_ ?_ ?_ ?_ ?_ value
  · simp
  · intro v vs hv hvs
    simpa [hv] using hvs
  · simp
  · intro i is hi his
    simpa [hi] using his
  · intro k v hv
    exact hv

/-- Each element of a list is well formed. -/
theorem wellFormedList_iff {items : List Value} :
    WellFormedList items ↔ ∀ v ∈ items, WellFormed v := by
  induction items with
  | nil => simp [WellFormedList]
  | cons v vs ih => simp [WellFormedList, ih]

/-- Each value of a dictionary is well formed. -/
theorem wellFormedItems_iff {items : List (Str × Value)} :
    WellFormedItems items ↔ ∀ i ∈ items, WellFormed i.2 := by
  induction items with
  | nil => simp [WellFormedItems]
  | cons i is ih => simp [WellFormedItems, ih]

/-- A list is well formed just if its elements are. -/
@[simp]
theorem wellFormed_list {items : List Value} :
    WellFormed (list items) ↔ ∀ v ∈ items, WellFormed v := by
  rw [WellFormed, wellFormedList_iff]

/-- A dictionary is well formed just if its keys are distinct and its values well formed. -/
@[simp]
theorem wellFormed_dict {items : List (Str × Value)} :
    WellFormed (dict items) ↔
      (items.map Prod.fst).Nodup ∧ ∀ i ∈ items, WellFormed i.2 := by
  rw [WellFormed, wellFormedItems_iff]

/-- Setting an item of a well-formed dictionary. -/
theorem wellFormed_setItem {items : List (Str × Value)} {k : Str} {v : Value}
    (hitems : (dict items).WellFormed) (hv : v.WellFormed) :
    (dict (setItem items k v)).WellFormed := by
  rw [wellFormed_dict] at hitems ⊢
  refine ⟨nodup_keys_setItem hitems.1 k v, ?_⟩
  intro i hi
  rcases mem_setItem hi with hmem | heq
  · exact hitems.2 i hmem
  · rw [heq]
    exact hv

/-- A key is looked for among the items in their order. -/
@[simp]
theorem get_dict_cons (key k : Str) (v : Value) (items : List (Str × Value)) :
    (dict ((k, v) :: items)).get key = if key = k then v else (dict items).get key := by
  by_cases h : key = k
  · simp [get, h]
  · have hne : (key == k) = false := by simpa using h
    simp [get, List.lookup_cons, h, hne]

/-- An empty dictionary has no value under any key. -/
@[simp]
theorem get_dict_nil (key : Str) : (dict []).get key = none := rfl

/-- A member after one has been set. -/
theorem get_setItem (items : List (Str × Value)) (k k' : Str) (v : Value) :
    (dict (setItem items k v)).get k' = if k' = k then v else (dict items).get k' := by
  induction items with
  | nil => rw [setItem, get_dict_cons]
  | cons e rest ih =>
    rw [setItem]
    split_ifs with hfirst hsame hsame
    · rw [get_dict_cons, if_pos hsame]
    · rw [get_dict_cons, get_dict_cons, if_neg hsame, if_neg (hfirst ▸ hsame)]
    · rw [get_dict_cons, if_neg (fun h => hfirst (h.symm.trans hsame)), ih, if_pos hsame]
    · rw [get_dict_cons, get_dict_cons, ih, if_neg hsame]

/-- With distinct keys, every member is found. -/
theorem get_dict_of_mem {items : List (Str × Value)} (h : (items.map Prod.fst).Nodup) {key : Str}
    {v : Value} (hmem : (key, v) ∈ items) : (dict items).get key = v := by
  induction items with
  | nil => cases hmem
  | cons i items ih =>
    obtain ⟨k, w⟩ := i
    rw [List.map_cons, List.nodup_cons] at h
    rw [get_dict_cons]
    rcases List.mem_cons.mp hmem with heq | hmem
    · cases heq
      exact if_pos rfl
    · have hne : key ≠ k := fun heq => h.1 (heq ▸ List.mem_map.mpr ⟨_, hmem, rfl⟩)
      rw [if_neg hne, ih h.2 hmem]

/-- A dictionary has no value under a key that it does not have. -/
theorem get_dict_of_notMem {items : List (Str × Value)} {key : Str}
    (h : key ∉ items.map Prod.fst) : (dict items).get key = none := by
  induction items with
  | nil => rfl
  | cons i items ih =>
    rw [List.map_cons, List.mem_cons, not_or] at h
    rw [get_dict_cons, if_neg h.1, ih h.2]

/-- The members of a well-formed dictionary are well-formed. -/
theorem WellFormed.get {items : List (Str × Value)} (h : (dict items).WellFormed) (key : Str) :
    ((dict items).get key).WellFormed := by
  obtain ⟨hnodup, hitems⟩ := wellFormed_dict.mp h
  by_cases hkey : key ∈ items.map Prod.fst
  · obtain ⟨⟨k, w⟩, hmem, rfl⟩ := List.mem_map.mp hkey
    rw [get_dict_of_mem hnodup hmem]
    exact hitems _ hmem
  · rw [get_dict_of_notMem hkey]
    trivial

end Value

end Python
