import Mathlib.Data.List.Induction
import OnceMesh.ListRelations
import OnceMesh.Python.Error
import OnceMesh.Python.Json

/-!
# `json.loads` with hooks

What `json.loads` builds is given by its `Hooks`. The trees of the text itself (`Tree`) are what it
builds with hooks that forget nothing, and `loadsWith_eq_ok` says that what is loaded with any other
hooks is the tree of the text, folded with them.

The strict readers refuse repeated keys, and some of them the constants. `fold_mono` compares hooks
of which one refuses more than the other.
-/

namespace Python.Json

/-! ### The tree of a text -/

/-- A document as it stands in the text: the members of an object in their order, repeated keys
included. -/
inductive Tree where
  | scalar (value : Value)
  | constant (c : Constant)
  | array (items : List Tree)
  | object (members : List (Str × Tree))

namespace Tree

/-- The hooks that build the tree. -/
def hooks : Hooks Tree where
  scalar := scalar
  constant c := .ok (constant c)
  array := array
  object members := .ok (object members)

section

variable {α : Type} (target : Hooks α)

mutual

/-- What other hooks make of the tree, from the leaves up. -/
def fold : Tree → Except PyError α
  | scalar value => .ok (target.scalar value)
  | constant c => target.constant c
  | array items => (foldItems items).map target.array
  | object members => do target.object (← foldMembers members)

/-- `fold` of the elements of an array. -/
def foldItems : List Tree → Except PyError (List α)
  | [] => .ok []
  | t :: ts => do
    let a ← fold t
    let as ← foldItems ts
    pure (a :: as)

/-- `fold` of the members of an object. -/
def foldMembers : List (Str × Tree) → Except PyError (List (Str × α))
  | [] => .ok []
  | (key, t) :: rest => do
    let a ← fold t
    let members ← foldMembers rest
    pure ((key, a) :: members)

end

variable {target}

/-- The elements of an array are folded one after the other. -/
theorem foldItems_eq_ok {items : List Tree} {as : List α} :
    foldItems target items = .ok as ↔ List.Forall₂ (fun t a => fold target t = .ok a) items as := by
  induction items generalizing as with
  | nil => simp [foldItems, eq_comm]
  | cons t ts ih =>
    rw [foldItems, Except.bind_eq_ok, List.forall₂_cons_left_iff]
    constructor
    · rintro ⟨a, ha, h⟩
      obtain ⟨rest, hrest, h⟩ := Except.bind_eq_ok.mp h
      cases h
      exact ⟨a, rest, ha, ih.mp hrest, rfl⟩
    · rintro ⟨a, rest, ha, hrest, rfl⟩
      exact ⟨a, ha, Except.bind_eq_ok.mpr ⟨rest, ih.mpr hrest, rfl⟩⟩

/-- A member and what has been made of it. -/
def FoldsTo (target : Hooks α) (member : Str × Tree) (made : Str × α) : Prop :=
  member.1 = made.1 ∧ fold target member.2 = .ok made.2

/-- The members of an object are folded one after the other. -/
theorem foldMembers_eq_ok {members : List (Str × Tree)} {made : List (Str × α)} :
    foldMembers target members = .ok made ↔ List.Forall₂ (FoldsTo target) members made := by
  induction members generalizing made with
  | nil => simp [foldMembers, eq_comm]
  | cons member rest ih =>
    obtain ⟨key, t⟩ := member
    rw [foldMembers, Except.bind_eq_ok, List.forall₂_cons_left_iff]
    constructor
    · rintro ⟨a, ha, h⟩
      obtain ⟨more, hmore, h⟩ := Except.bind_eq_ok.mp h
      cases h
      exact ⟨(key, a), more, ⟨rfl, ha⟩, ih.mp hmore, rfl⟩
    · rintro ⟨⟨key', a⟩, more, ⟨hkey, ha⟩, hmore, rfl⟩
      cases hkey
      exact ⟨a, ha, Except.bind_eq_ok.mpr ⟨more, ih.mpr hmore, rfl⟩⟩

end

/-! ### The scan of the tree -/

section

variable {α : Type}

/-- The scan of an object or an array keeps what it has found. -/
theorem scan_extends (fuel : ℕ) :
    (∀ before s r, hooks.scanMembers fuel before s = .ok r →
      ∃ more, r.1 = object (before ++ more)) ∧
    (∀ before s r, hooks.scanElements fuel before s = .ok r →
      ∃ more, r.1 = array (before ++ more)) := by
  induction fuel with
  | zero => simp [Hooks.scanMembers, Hooks.scanElements]
  | succ fuel ih =>
    obtain ⟨ihMembers, ihElements⟩ := ih
    refine ⟨fun before s r h => ?_, fun before s r h => ?_⟩
    · rw [Hooks.scanMembers] at h
      obtain ⟨⟨key, afterColon⟩, -, h⟩ := Except.bind_eq_ok.mp h
      obtain ⟨⟨value, afterValue⟩, -, h⟩ := Except.bind_eq_ok.mp h
      dsimp only at h
      split at h
      · cases h
        exact ⟨_, rfl⟩
      · obtain ⟨afterComma, -, h⟩ := Except.bind_eq_ok.mp h
        obtain ⟨more, hmore⟩ := ihMembers _ _ _ h
        exact ⟨(key, value) :: more, by simp [hmore]⟩
    · rw [Hooks.scanElements] at h
      obtain ⟨⟨value, afterValue⟩, -, h⟩ := Except.bind_eq_ok.mp h
      dsimp only at h
      split at h
      · cases h
        exact ⟨_, rfl⟩
      · obtain ⟨afterComma, -, h⟩ := Except.bind_eq_ok.mp h
        obtain ⟨more, hmore⟩ := ihElements _ _ _ h
        exact ⟨value :: more, by simp [hmore]⟩

/-- An object is made of its members, folded. -/
theorem fold_object_eq_ok {target : Hooks α} {members : List (Str × Tree)} {a : α} :
    fold target (object members) = .ok a ↔
      ∃ made, List.Forall₂ (FoldsTo target) members made ∧ target.object made = .ok a := by
  simp only [fold, Except.bind_eq_ok, foldMembers_eq_ok]

/-- An array is made of its elements, folded. -/
theorem fold_array_eq_ok {target : Hooks α} {items : List Tree} {a : α} :
    fold target (array items) = .ok a ↔
      ∃ made, List.Forall₂ (fun t a => fold target t = .ok a) items made ∧
        target.array made = a := by
  simp only [fold, Except.map_eq_ok, foldItems_eq_ok]

/-- The scan is the scan of the tree, folded. -/
theorem scan_eq_ok (target : Hooks α) (fuel : ℕ) :
    (∀ s a rest, target.scanOnce fuel s = .ok (a, rest) ↔
      ∃ t, hooks.scanOnce fuel s = .ok (t, rest) ∧ fold target t = .ok a) ∧
    (∀ before made s a rest, List.Forall₂ (FoldsTo target) before made →
      (target.scanMembers fuel made s = .ok (a, rest) ↔
        ∃ t, hooks.scanMembers fuel before s = .ok (t, rest) ∧ fold target t = .ok a)) ∧
    (∀ before made s a rest, List.Forall₂ (fun t a => fold target t = .ok a) before made →
      (target.scanElements fuel made s = .ok (a, rest) ↔
        ∃ t, hooks.scanElements fuel before s = .ok (t, rest) ∧ fold target t = .ok a)) := by
  induction fuel with
  | zero => simp [Hooks.scanOnce, Hooks.scanMembers, Hooks.scanElements]
  | succ fuel ih =>
    obtain ⟨ihOnce, ihMembers, ihElements⟩ := ih
    refine ⟨fun s a rest => ?_, fun before made s a rest hbefore => ?_,
      fun before made s a rest hbefore => ?_⟩
    · cases s with
      | nil => simp [Hooks.scanOnce]
      | cons c s =>
        simp only [Hooks.scanOnce]
        split_ifs
        · cases hclose : expect rightBrace (skipWs s) with
          | some rest' => simp [Except.map_eq_ok, hooks, fold, foldMembers, and_comm]
          | none => exact ihMembers [] [] _ _ _ .nil
        · cases hclose : expect rightBracket (skipWs s) with
          | some rest' => simp [hooks, fold, foldItems, Except.map, and_comm]
          | none => exact ihElements [] [] _ _ _ .nil
        · cases hconstant : scanConstant (c :: s) with
          | some r => simp [Except.map_eq_ok, hooks, fold, and_comm]
          | none =>
            dsimp only
            rw [Except.map_eq_ok]
            constructor
            · rintro ⟨r, hscalar, h⟩
              obtain ⟨rfl, rfl⟩ := Prod.mk.inj h
              exact ⟨scalar r.1, Except.map_eq_ok.mpr ⟨r, hscalar, rfl⟩, rfl⟩
            · rintro ⟨t, htree, hfold⟩
              obtain ⟨r, hscalar, h⟩ := Except.map_eq_ok.mp htree
              obtain ⟨rfl, rfl⟩ := Prod.mk.inj h
              exact ⟨r, hscalar, Prod.ext (Except.ok.inj hfold) rfl⟩
    · rw [Hooks.scanMembers, Hooks.scanMembers]
      cases hkey : scanKey s with
      | none => simp [orDecodeError, bind, Except.bind]
      | some keyed =>
        obtain ⟨key, afterColon⟩ := keyed
        simp only [orDecodeError, Except.ok_bind]
        constructor
        · intro h
          obtain ⟨⟨value, afterValue⟩, hvalue, h⟩ := Except.bind_eq_ok.mp h
          obtain ⟨t, ht, hfold⟩ := (ihOnce _ _ _).mp hvalue
          have hmade : List.Forall₂ (FoldsTo target) (before ++ [(key, t)])
              (made ++ [(key, value)]) :=
            List.rel_append hbefore (.cons ⟨rfl, hfold⟩ .nil)
          rw [ht, Except.ok_bind]
          dsimp only at h ⊢
          split
          next rest' hclose =>
            rw [hclose] at h
            obtain ⟨b, hb, heq⟩ := Except.map_eq_ok.mp h
            cases heq
            exact ⟨_, rfl, fold_object_eq_ok.mpr ⟨_, hmade, hb⟩⟩
          next hclose =>
            rw [hclose] at h
            obtain ⟨afterComma, hcomma, h⟩ := Except.bind_eq_ok.mp h
            rw [hcomma, Except.ok_bind]
            exact (ihMembers _ _ _ _ _ hmade).mp h
        · rintro ⟨t, hscan, hfold⟩
          obtain ⟨⟨value, afterValue⟩, hvalue, h⟩ := Except.bind_eq_ok.mp hscan
          dsimp only at h
          -- the value is among the members of the object
          have hmember : ∃ a, fold target value = .ok a := by
            have hextends : ∃ more, t = object (before ++ [(key, value)] ++ more) := by
              split at h
              · cases h
                exact ⟨[], by simp⟩
              · obtain ⟨afterComma, -, h⟩ := Except.bind_eq_ok.mp h
                exact (scan_extends fuel).1 _ _ _ h
            obtain ⟨more, rfl⟩ := hextends
            obtain ⟨all, hall, -⟩ := fold_object_eq_ok.mp hfold
            obtain ⟨⟨_, b⟩, -, -, hb⟩ := OnceMesh.exists_of_forall₂_left hall
              (List.mem_append_left more (List.mem_append_right before (List.mem_singleton_self _)))
            exact ⟨b, hb⟩
          obtain ⟨b, hb⟩ := hmember
          have hmade : List.Forall₂ (FoldsTo target) (before ++ [(key, value)])
              (made ++ [(key, b)]) :=
            List.rel_append hbefore (.cons ⟨rfl, hb⟩ .nil)
          rw [(ihOnce _ _ _).mpr ⟨value, hvalue, hb⟩, Except.ok_bind]
          dsimp only
          split at h
          next rest' hclose =>
            cases h
            obtain ⟨all, hall, hobject⟩ := fold_object_eq_ok.mp hfold
            have hsame : all = made ++ [(key, b)] := Except.ok.inj
              ((foldMembers_eq_ok.mpr hall).symm.trans (foldMembers_eq_ok.mpr hmade))
            rw [← hsame, hobject]
            rfl
          next hclose =>
            obtain ⟨afterComma, hcomma, h⟩ := Except.bind_eq_ok.mp h
            rw [hcomma, Except.ok_bind]
            exact (ihMembers _ _ _ _ _ hmade).mpr ⟨t, h, hfold⟩
    · rw [Hooks.scanElements, Hooks.scanElements]
      constructor
      · intro h
        obtain ⟨⟨value, afterValue⟩, hvalue, h⟩ := Except.bind_eq_ok.mp h
        obtain ⟨t, ht, hfold⟩ := (ihOnce _ _ _).mp hvalue
        have hmade : List.Forall₂ (fun t a => fold target t = .ok a) (before ++ [t])
            (made ++ [value]) := List.rel_append hbefore (.cons hfold .nil)
        rw [ht, Except.ok_bind]
        dsimp only at h ⊢
        split
        next rest' hclose =>
          rw [hclose] at h
          cases h
          exact ⟨_, rfl, fold_array_eq_ok.mpr ⟨_, hmade, rfl⟩⟩
        next hclose =>
          rw [hclose] at h
          obtain ⟨afterComma, hcomma, h⟩ := Except.bind_eq_ok.mp h
          rw [hcomma, Except.ok_bind]
          exact (ihElements _ _ _ _ _ hmade).mp h
      · rintro ⟨t, hscan, hfold⟩
        obtain ⟨⟨value, afterValue⟩, hvalue, h⟩ := Except.bind_eq_ok.mp hscan
        dsimp only at h
        -- the value is among the elements of the array
        have helement : ∃ a, fold target value = .ok a := by
          have hextends : ∃ more, t = array (before ++ [value] ++ more) := by
            split at h
            · cases h
              exact ⟨[], by simp [hooks]⟩
            · obtain ⟨afterComma, -, h⟩ := Except.bind_eq_ok.mp h
              exact (scan_extends fuel).2 _ _ _ h
          obtain ⟨more, rfl⟩ := hextends
          obtain ⟨all, hall, -⟩ := fold_array_eq_ok.mp hfold
          obtain ⟨b, -, hb⟩ := OnceMesh.exists_of_forall₂_left hall
            (List.mem_append_left more (List.mem_append_right before (List.mem_singleton_self _)))
          exact ⟨b, hb⟩
        obtain ⟨b, hb⟩ := helement
        have hmade : List.Forall₂ (fun t a => fold target t = .ok a) (before ++ [value])
            (made ++ [b]) := List.rel_append hbefore (.cons hb .nil)
        rw [(ihOnce _ _ _).mpr ⟨value, hvalue, hb⟩, Except.ok_bind]
        dsimp only
        split at h
        next rest' hclose =>
          cases h
          obtain ⟨all, hall, harray⟩ := fold_array_eq_ok.mp hfold
          have hsame : all = made ++ [b] := Except.ok.inj
            ((foldItems_eq_ok.mpr hall).symm.trans (foldItems_eq_ok.mpr hmade))
          rw [← hsame, harray]
        next hclose =>
          obtain ⟨afterComma, hcomma, h⟩ := Except.bind_eq_ok.mp h
          rw [hcomma, Except.ok_bind]
          exact (ihElements _ _ _ _ _ hmade).mpr ⟨t, h, hfold⟩

end

/-- Structural induction, with the hypothesis for every element of an array and every member of an
object. -/
@[elab_as_elim]
theorem induction {motive : Tree → Prop} (scalar : ∀ value, motive (scalar value))
    (constant : ∀ c, motive (constant c))
    (array : ∀ items, (∀ t ∈ items, motive t) → motive (array items))
    (object : ∀ members : List (Str × Tree), (∀ member ∈ members, motive member.2) →
      motive (object members)) (t : Tree) : motive t := by
  refine @Tree.rec motive (fun items => ∀ t ∈ items, motive t)
    (fun members => ∀ member ∈ members, motive member.2) (fun member => motive member.2)
    scalar constant array object ?_ ?_ ?_ ?_ ?_ t
  · simp
  · intro t ts ht hts
    simpa [ht] using hts
  · simp
  · intro member rest hmember hrest
    simpa [hmember] using hrest
  · intro key t ht
    exact ht

/-- Hooks that accept no less make the same of what is accepted. -/
theorem fold_mono {α : Type} {target target' : Hooks α} (hscalar : target.scalar = target'.scalar)
    (hconstant : ∀ c a, target.constant c = .ok a → target'.constant c = .ok a)
    (harray : target.array = target'.array)
    (hobject : ∀ members a, target.object members = .ok a → target'.object members = .ok a)
    {t : Tree} {a : α} (h : fold target t = .ok a) : fold target' t = .ok a := by
  induction t using Tree.induction generalizing a with
  | scalar value =>
    rw [fold] at h ⊢
    rwa [← hscalar]
  | constant c => exact hconstant c a h
  | array items ih =>
    obtain ⟨made, hmade, hlist⟩ := fold_array_eq_ok.mp h
    refine fold_array_eq_ok.mpr ⟨made, ?_, harray ▸ hlist⟩
    clear h hlist
    induction hmade with
    | nil => exact .nil
    | cons hfold _ ihRest =>
      rw [List.forall_mem_cons] at ih
      exact .cons (ih.1 hfold) (ihRest ih.2)
  | object members ih =>
    obtain ⟨made, hmade, hmembers⟩ := fold_object_eq_ok.mp h
    refine fold_object_eq_ok.mpr ⟨made, ?_, hobject made a hmembers⟩
    clear h hmembers
    induction hmade with
    | nil => exact .nil
    | cons hfold _ ihRest =>
      rw [List.forall_mem_cons] at ih
      exact .cons ⟨hfold.1, ih.1 hfold.2⟩ (ihRest ih.2)

end Tree

/-! ### Loading -/

/-- What is loaded with hooks is the tree of the text, folded. -/
theorem loadsWith_eq_ok {α : Type} {target : Hooks α} {s : Str} {a : α} :
    loadsWith target s = .ok a ↔
      ∃ t, loadsWith Tree.hooks s = .ok t ∧ Tree.fold target t = .ok a := by
  unfold loadsWith
  split_ifs
  · simp
  · simp only [Except.bind_eq_ok, Prod.exists, (Tree.scan_eq_ok target _).1]
    constructor
    · rintro ⟨b, rest, ⟨t, ht, hfold⟩, h⟩
      split_ifs at h with hend
      cases h
      exact ⟨t, ⟨t, rest, ht, if_pos hend⟩, hfold⟩
    · rintro ⟨t, ⟨t', rest, ht, h⟩, hfold⟩
      split_ifs at h with hend
      cases h
      exact ⟨a, rest, ⟨t, ht, hfold⟩, if_pos hend⟩

/-! ### Without hooks -/

/-- Members with distinct keys are set as they come. -/
theorem setMembers_of_nodup {members : List (Str × Value)} (h : (members.map Prod.fst).Nodup) :
    setMembers members = members := by
  induction members using List.reverseRecOn with
  | nil => rfl
  | append_singleton before member ih =>
    obtain ⟨key, value⟩ := member
    rw [List.map_append, List.nodup_append] at h
    have hfresh : key ∉ before.map Prod.fst := fun hmem => h.2.2 key hmem key (by simp) rfl
    rw [setMembers_append, ih h.1, setItem_of_notMem value hfresh]

/-- A dictionary is made of members with distinct keys. -/
theorem object_plain {members : List (Str × Value)} (h : (members.map Prod.fst).Nodup) :
    Hooks.plain.object members = .ok (.dict members) :=
  congrArg (fun items => Except.ok (Value.dict items)) (setMembers_of_nodup h)

/-! ### Repeated keys are refused -/

/-- The hooks of a reader that refuses repeated keys: the members become a dictionary. -/
def Hooks.strict : Hooks Value where
  scalar value := value
  constant c := .ok c.value
  array := .list
  object members :=
    if (members.map Prod.fst).Nodup then .ok (.dict members)
      else raiseValueError "duplicate JSON key"

/-- The hooks of a reader that refuses the constants, too. -/
def Hooks.strictFinite : Hooks Value :=
  { Hooks.strict with
    constant := fun c => .error
      (.valueError (lit "non-finite JSON value " ++ c.text ++ lit " is unsupported") []) }

/-- The strict reader makes a dictionary of members with distinct keys. -/
theorem object_strict {members : List (Str × Value)} (h : (members.map Prod.fst).Nodup) :
    Hooks.strict.object members = .ok (.dict members) :=
  if_pos h

/-- The strict reader makes dictionaries of members with distinct keys only. -/
theorem object_strict_eq_ok {members : List (Str × Value)} {v : Value} :
    Hooks.strict.object members = .ok v ↔ (members.map Prod.fst).Nodup ∧ .dict members = v := by
  simp only [Hooks.strict]
  split_ifs with hkeys
  · simp [hkeys]
  · simp [hkeys, raiseValueError]

namespace Tree

/-- No object of the tree repeats a key, at any depth. -/
inductive DistinctKeys : Tree → Prop
  | scalar (value : Value) : DistinctKeys (scalar value)
  | constant (c : Constant) : DistinctKeys (constant c)
  | array {items : List Tree} (hitems : ∀ t ∈ items, DistinctKeys t) : DistinctKeys (array items)
  | object {members : List (Str × Tree)} (hkeys : (members.map Prod.fst).Nodup)
      (hmembers : ∀ member ∈ members, DistinctKeys member.2) : DistinctKeys (object members)

/-- What is accepted repeats no key. -/
theorem distinctKeys_of_fold {t : Tree} {v : Value} (h : fold Hooks.strict t = .ok v) :
    DistinctKeys t := by
  induction t using Tree.induction generalizing v with
  | scalar value => exact .scalar value
  | constant c => exact .constant c
  | array items ih =>
    obtain ⟨made, hmade, -⟩ := fold_array_eq_ok.mp h
    refine .array fun t ht => ?_
    obtain ⟨w, -, hw⟩ := OnceMesh.exists_of_forall₂_left hmade ht
    exact ih t ht hw
  | object members ih =>
    obtain ⟨made, hmade, hobject⟩ := fold_object_eq_ok.mp h
    obtain ⟨hkeys, -⟩ := object_strict_eq_ok.mp hobject
    have hsame : members.map Prod.fst = made.map Prod.fst := by
      rw [← List.forall₂_eq_eq_eq, List.forall₂_map_left_iff, List.forall₂_map_right_iff]
      exact hmade.imp fun _ _ hfolds => hfolds.1
    refine .object (hsame ▸ hkeys) fun member hmember => ?_
    obtain ⟨made', -, -, hfold⟩ := OnceMesh.exists_of_forall₂_left hmade hmember
    exact ih member hmember hfold

/-- Where repeated keys are refused, the others make the same dictionaries. -/
theorem fold_plain_of_strict {t : Tree} {v : Value} (h : fold Hooks.strict t = .ok v) :
    fold Hooks.plain t = .ok v := by
  refine @fold_mono _ .strict .plain rfl (fun _ _ => id) rfl (fun members a hobject => ?_) _ _ h
  obtain ⟨hkeys, rfl⟩ := object_strict_eq_ok.mp hobject
  exact object_plain hkeys

/-- Where the constants are refused, too. -/
theorem fold_strict_of_strictFinite {t : Tree} {v : Value} (h : fold Hooks.strictFinite t = .ok v) :
    fold Hooks.strict t = .ok v := by
  refine @fold_mono _ .strictFinite .strict rfl (fun c a hconstant => ?_) rfl (fun _ _ => id) _ _ h
  cases hconstant

mutual

/-- The tree of a value. -/
def ofValue : Value → Tree
  | .list items => array (ofValues items)
  | .dict items => object (ofItems items)
  | value => scalar value

/-- The trees of the elements of a list. -/
def ofValues : List Value → List Tree
  | [] => []
  | v :: vs => ofValue v :: ofValues vs

/-- The trees of the members of a dictionary. -/
def ofItems : List (Str × Value) → List (Str × Tree)
  | [] => []
  | (key, v) :: rest => (key, ofValue v) :: ofItems rest

end

/-- The trees of a list of values. -/
theorem ofValues_eq (items : List Value) : ofValues items = items.map ofValue := by
  induction items with
  | nil => rfl
  | cons v vs ih => rw [ofValues, ih, List.map_cons]

/-- The trees of the items of a dictionary. -/
theorem ofItems_eq (items : List (Str × Value)) :
    ofItems items = items.map fun i => (i.1, ofValue i.2) := by
  induction items with
  | nil => rfl
  | cons i is ih => rw [ofItems, ih, List.map_cons]

/-- The tree of a value without repeated keys is made that value again. -/
theorem fold_ofValue {hooks : Hooks Value} (hscalar : ∀ v, hooks.scalar v = v)
    (harray : hooks.array = .list) (hobject : ∀ members : List (Str × Value),
      (members.map Prod.fst).Nodup → hooks.object members = .ok (.dict members)) {v : Value}
    (hwf : v.WellFormed) : fold hooks (ofValue v) = .ok v := by
  induction v using Value.induction with
  | list items ih =>
    rw [Value.wellFormed_list] at hwf
    rw [ofValue, ofValues_eq, fold_array_eq_ok]
    refine ⟨items, ?_, by rw [harray]⟩
    rw [List.forall₂_map_left_iff, List.forall₂_same]
    exact fun v hv => ih v hv (hwf v hv)
  | dict items ih =>
    rw [Value.wellFormed_dict] at hwf
    rw [ofValue, ofItems_eq, fold_object_eq_ok]
    refine ⟨items, ?_, hobject items hwf.1⟩
    rw [List.forall₂_map_left_iff, List.forall₂_same]
    exact fun i hi => ⟨rfl, ih i hi (hwf.2 i hi)⟩
  | _ => simp [ofValue, fold, hscalar]

end Tree

end Python.Json
