import Mathlib.Data.List.Forall2
import OnceMesh.Python.Text

/-!
# Python exceptions

The exception classes whose handlers matter: each `except` clause of a program becomes a
predicate on `PyError`. Messages are kept as text; where a message interpolates lists of
strings, the lists are kept beside the text.
-/

namespace Python

/-- A raised exception. -/
inductive PyError where
  /-- `ValueError`, or a subclass nobody catches by its own name. -/
  | valueError (message : Str) (interpolated : List (List Str))
  /-- `UnicodeError`, a `ValueError`. -/
  | unicodeError
  /-- `json.JSONDecodeError`, a `ValueError`. -/
  | jsonDecodeError
  | typeError (message : Str)
  | keyError (key : Str)
  | attributeError (name : Str)
  | overflowError
  | osError
  /-- `sqlite3.OperationalError`, with its `sqlite_errorcode` (0 if it has none). -/
  | sqliteOperationalError (code : ℕ) (message : Str)
  /-- Any other class, by name. -/
  | other (className message : Str)
  deriving DecidableEq, Repr

namespace PyError

/-- `isinstance(error, ValueError)`. -/
def isValueError : PyError → Bool
  | valueError _ _ | unicodeError | jsonDecodeError => true
  | _ => false

end PyError

/-- `raise ValueError(message)`. -/
def raiseValueError {α : Type} (message : String) : Except PyError α :=
  .error (.valueError (lit message) [])

/-- `if condition: raise ValueError(message)`. -/
def raiseIf (condition : Bool) (message : String) : Except PyError Unit :=
  if condition then raiseValueError message else .ok ()

/-- A check passes just if its condition is false. -/
@[simp]
theorem raiseIf_eq_ok {condition : Bool} {message : String} {u : Unit} :
    raiseIf condition message = .ok u ↔ condition = false := by
  cases condition <;> simp [raiseIf, raiseValueError]

section

variable {ε α β : Type}

/-- After a call that returns, the rest is run with its value. -/
@[simp]
theorem Except.ok_bind (a : α) (f : α → Except ε β) : (Except.ok a >>= f) = f a := rfl

/-- A sequenced computation returns only through a returning first part. -/
theorem Except.bind_eq_ok {x : Except ε α} {f : α → Except ε β} {b : β} :
    (x >>= f) = .ok b ↔ ∃ a, x = .ok a ∧ f a = .ok b := by
  cases x with
  | error e => simp [bind, Except.bind]
  | ok a => simp [bind, Except.bind]

/-- A call that is OK has returned a value. -/
theorem Except.exists_of_isOk {x : Except ε α} (h : x.isOk = true) : ∃ a, x = .ok a := by
  cases x with
  | ok a => exact ⟨a, rfl⟩
  | error e => cases h

/-- What the computation raises, if it raises. -/
def raised? (x : Except ε α) : Option ε :=
  match x with
  | .error e => some e
  | .ok _ => none

/-- What a call has raised. -/
theorem raised?_eq_some {x : Except ε α} {e : ε} : raised? x = some e ↔ x = .error e := by
  cases x <;> simp [raised?]

/-- A computation after a check returns only when the check passes. -/
theorem Except.check_eq_ok {x : Except ε Unit} {f : Unit → Except ε β} {b : β} :
    (x >>= f) = .ok b ↔ x = .ok () ∧ f () = .ok b := by
  rw [Except.bind_eq_ok]
  exact ⟨fun ⟨(), hx, hf⟩ => ⟨hx, hf⟩, fun ⟨hx, hf⟩ => ⟨(), hx, hf⟩⟩

/-- A sequenced computation raises in its first part, or in the rest. -/
theorem Except.bind_eq_error {x : Except ε α} {f : α → Except ε β} {e : ε} :
    (x >>= f) = .error e ↔ x = .error e ∨ ∃ a, x = .ok a ∧ f a = .error e := by
  cases x with
  | error e => simp [bind, Except.bind]
  | ok a => simp [bind, Except.bind]

/-- What follows a computation matters only for what it returns. -/
theorem Except.bind_congr {x : Except ε α} {f g : α → Except ε β}
    (h : ∀ a, x = .ok a → f a = g a) : (x >>= f) = (x >>= g) := by
  cases x with
  | error e => rfl
  | ok a => exact h a rfl

/-- What a call has returned. -/
theorem Except.toOption_eq_some {x : Except ε α} {a : α} : x.toOption = some a ↔ x = .ok a := by
  cases x <;> simp [Except.toOption]

/-- A function of the value of a call returns when the call does. -/
theorem Except.map_eq_ok {x : Except ε α} {g : α → β} {b : β} :
    x.map g = .ok b ↔ ∃ a, x = .ok a ∧ g a = b := by
  cases x <;> simp [Except.map]

/-- A function of the value of a call raises what the call does. -/
theorem Except.map_eq_error {x : Except ε α} {g : α → β} {e : ε} :
    x.map g = .error e ↔ x = .error e := by
  cases x <;> simp [Except.map]

/-- A computation over the elements of a list returns when it does for every element. -/
theorem Except.mapM_eq_ok {f : α → Except ε β} {xs : List α} {ys : List β} :
    xs.mapM f = .ok ys ↔ List.Forall₂ (fun x y => f x = .ok y) xs ys := by
  induction xs generalizing ys with
  | nil => simp [pure, Except.pure, eq_comm]
  | cons x xs ih =>
    rw [List.mapM_cons, Except.bind_eq_ok, List.forall₂_cons_left_iff]
    constructor
    · rintro ⟨y, hx, h⟩
      obtain ⟨ys, hxs, h⟩ := Except.bind_eq_ok.mp h
      cases h
      exact ⟨y, ys, hx, ih.mp hxs, rfl⟩
    · rintro ⟨y, ys, hx, hxs, rfl⟩
      exact ⟨y, hx, Except.bind_eq_ok.mpr ⟨ys, ih.mpr hxs, rfl⟩⟩

/-- Whatever the computation raises satisfies `p`. -/
def RaisesOnly (p : ε → Prop) (x : Except ε α) : Prop := ∀ e, x = .error e → p e

namespace RaisesOnly

variable {p q : ε → Prop}

/-- A value raises nothing. -/
theorem ok (a : α) : RaisesOnly p (.ok a) := by
  rintro e ⟨⟩

/-- A call that returns raises nothing. -/
theorem pure (a : α) : RaisesOnly p (Pure.pure a : Except ε α) := ok a

/-- A call that raises raises one of the exceptions. -/
theorem error {e : ε} (h : p e) : RaisesOnly p (.error e : Except ε α) := by
  rintro e ⟨⟩
  exact h

/-- A call that raises only some exceptions raises only those of a larger class. -/
theorem mono (hpq : ∀ e, p e → q e) {x : Except ε α} (h : RaisesOnly p x) :
    RaisesOnly q x :=
  fun e he => hpq e (h e he)

/-- Two calls in a row raise only what each of them does. -/
theorem bind {x : Except ε α} {f : α → Except ε β} (hx : RaisesOnly p x)
    (hf : ∀ a, x = .ok a → RaisesOnly p (f a)) : RaisesOnly p (x >>= f) := by
  intro e he
  rcases Except.bind_eq_error.mp he with he | ⟨a, ha, he⟩
  · exact hx e he
  · exact hf a ha e he

/-- A function of the value of a call raises what the call does. -/
theorem map {x : Except ε α} {g : α → β} (hx : RaisesOnly p x) : RaisesOnly p (g <$> x) := by
  cases x with
  | error e => exact error (hx e rfl)
  | ok a => exact ok (g a)

end RaisesOnly

end

/-- The computation raises no exception but a `ValueError`. -/
abbrev RaisesOnlyValueError {α : Type} (x : Except PyError α) : Prop :=
  RaisesOnly (fun e => e.isValueError = true) x

/-- A `ValueError` is one. -/
theorem raisesOnly_raiseValueError {α : Type} (message : String) :
    RaisesOnlyValueError (raiseValueError message : Except PyError α) :=
  .error rfl

/-- A check raises only a `ValueError`. -/
theorem raisesOnly_raiseIf (condition : Bool) (message : String) :
    RaisesOnlyValueError (raiseIf condition message) := by
  cases condition
  · exact .ok ()
  · exact raisesOnly_raiseValueError message

end Python
