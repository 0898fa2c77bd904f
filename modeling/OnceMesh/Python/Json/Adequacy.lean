import Mathlib.Data.List.Induction
import OnceMesh.Python.Json

/-!
# Adequacy of the scanner

`Json.loadsWith` gives the scanner `2 · length + 1` steps. `scanOnce_fuel` shows that more fuel
never changes the result, so the recursion is the one of the decoder; `loads_wellFormed` that
every parsed value has objects with distinct keys, and `raisesOnly_loads` that what is raised is a
`ValueError`.
-/

namespace Python.Json

/-! ### The scanner consumes its input -/

/-- Skipping blanks leaves no more than there was. -/
theorem length_skipWs_le (s : Str) : (skipWs s).length ≤ s.length :=
  (List.dropWhile_sublist _).length_le

/-- An expected character is read. -/
theorem length_of_expect {c : CodePoint} {s rest : Str} (h : expect c s = some rest) :
    s.length = rest.length + 1 := by
  cases s with
  | nil => cases h
  | cons c' s =>
    rw [expect] at h
    split at h
    · cases h
      rfl
    · cases h

/-- A scan that continues in `t` leaves no more than `t`. -/
theorem length_of_map_scan {t : Str} {x : Option (Str × Str)} {c : CodePoint} {r : Str × Str}
    (ih : ∀ {r' : Str × Str}, x = some r' → r'.2.length ≤ t.length)
    (h : (x.map fun r => (c :: r.1, r.2)) = some r) : r.2.length ≤ t.length := by
  obtain ⟨a, ha, rfl⟩ := Option.map_eq_some_iff.mp h
  have hle := ih ha
  exact hle

/-- Reading a string leaves no more than there was. -/
theorem length_of_scanString {s : Str} {r : Str × Str} (h : scanString s = some r) :
    r.2.length ≤ s.length := by
  fun_induction scanString s generalizing r
  case case2 =>
    cases h
    simp
  all_goals
    first
    | cases h
    | next ih =>
      have hle := length_of_map_scan ih h
      simp only [List.length_cons] at hle ⊢
      omega

/-- Reading a fraction leaves no more than there was. -/
theorem length_of_scanFraction {s : Str} {r : Str × Str} (h : scanFraction s = some r) :
    r.2.length ≤ s.length := by
  unfold scanFraction at h
  split at h
  · next p d rest =>
    split at h
    · cases h
      have hdrop := (List.dropWhile_sublist isDigit (l := d :: rest)).length_le
      simp only [List.length_cons] at hdrop ⊢
      omega
    · cases h
  · cases h

/-- Reading the sign of an exponent leaves no more than there was. -/
theorem length_exponentSign_le (s : Str) : (exponentSign s).2.length ≤ s.length := by
  unfold exponentSign
  split
  · split_ifs <;> simp
  · exact le_rfl

/-- Reading an exponent leaves no more than there was. -/
theorem length_of_scanExponent {s : Str} {r : ℤ × Str} (h : scanExponent s = some r) :
    r.2.length ≤ s.length := by
  unfold scanExponent at h
  split at h
  · next e rest =>
    have hsign := length_exponentSign_le rest
    have hdrop := (List.dropWhile_sublist isDigit (l := (exponentSign rest).2)).length_le
    simp only [Option.ite_none_right_eq_some, Option.some.injEq] at h
    obtain ⟨-, -, rfl⟩ := h
    simp only [List.length_cons]
    omega
  · cases h

/-- Reading the rest of a number leaves no more than there was. -/
theorem length_of_finishNumber {negative : Bool} {digits rest : Str} {r : Value × Str}
    (h : finishNumber negative digits rest = .ok r) : r.2.length ≤ rest.length := by
  have hfraction : ((scanFraction rest).elim rest Prod.snd).length ≤ rest.length := by
    cases h : scanFraction rest with
    | none => exact le_rfl
    | some r => exact length_of_scanFraction h
  unfold finishNumber at h
  split at h
  · obtain ⟨n, -, rfl⟩ := Except.map_eq_ok.mp h
    exact le_rfl
  · cases h
    cases h : scanExponent ((scanFraction rest).elim rest Prod.snd) with
    | none => exact hfraction
    | some r => exact (length_of_scanExponent h).trans hfraction

/-- Reading a number leaves no more than there was. -/
theorem length_of_scanNumber {s : Str} {r : Value × Str} (h : scanNumber s = .ok r) :
    r.2.length ≤ s.length := by
  have htail : (if s.head? = some 0x2D then s.tail else s).length ≤ s.length := by
    split
    · simp
    · exact le_rfl
  have hdrop := fun t : Str => (List.dropWhile_sublist isDigit (l := t)).length_le
  unfold scanNumber at h
  simp only at h
  split at h
  · cases h
  · next c rest heq =>
    rw [heq, List.length_cons] at htail
    split_ifs at h
    · have hle := length_of_finishNumber h
      omega
    · have hle := length_of_finishNumber h
      have hrest := hdrop (c :: rest)
      rw [List.length_cons] at hrest
      omega

/-- Reading a constant leaves no more than there was. -/
theorem length_of_scanConstant {s : Str} {r : Constant × Str} (h : scanConstant s = some r) :
    r.2.length ≤ s.length := by
  unfold scanConstant at h
  split_ifs at h <;> cases h <;> simp

/-- Reading a scalar leaves no more than there was. -/
theorem length_of_scanScalar {s : Str} {r : Value × Str} (h : scanScalar s = .ok r) :
    r.2.length ≤ s.length := by
  cases s with
  | nil => cases h
  | cons c rest =>
    simp only [scanScalar] at h
    split_ifs at h
    · obtain ⟨a, ha, rfl⟩ := Option.map_eq_some_iff.mp (orDecodeError_eq_ok.mp h)
      exact (length_of_scanString ha).trans (Nat.le_succ _)
    · cases h
      exact (List.drop_sublist 4 _).length_le
    · cases h
      exact (List.drop_sublist 4 _).length_le
    · cases h
      exact (List.drop_sublist 5 _).length_le
    · exact length_of_scanNumber h

/-- A key takes at least its quotation mark. -/
theorem length_of_scanKey {s : Str} {r : Str × Str} (h : scanKey s = some r) :
    r.2.length < s.length := by
  simp only [scanKey, Option.bind_eq_bind, Option.bind_eq_some_iff] at h
  obtain ⟨afterQuote, hquote, ⟨key, afterKey⟩, hkey, afterColon, hcolon, h⟩ := h
  cases h
  have h₁ := length_of_expect hquote
  have h₂ := length_of_scanString hkey
  have h₃ := length_of_expect hcolon
  have h₄ := length_skipWs_le afterKey
  have h₅ := length_skipWs_le afterColon
  simp only at h₂ h₃ ⊢
  omega

namespace Hooks

variable {α : Type} (hooks : Hooks α)

/-- What each of the three mutual scanners leaves is no longer than its input. -/
theorem length_of_scan (fuel : ℕ) :
    (∀ s r, hooks.scanOnce fuel s = .ok r → r.2.length ≤ s.length) ∧
    (∀ members s r, hooks.scanMembers fuel members s = .ok r → r.2.length ≤ s.length) ∧
    (∀ items s r, hooks.scanElements fuel items s = .ok r → r.2.length ≤ s.length) := by
  induction fuel with
  | zero => simp [scanOnce, scanMembers, scanElements]
  | succ fuel ih =>
    obtain ⟨ihOnce, ihMembers, ihElements⟩ := ih
    refine ⟨fun s r h => ?_, fun members s r h => ?_, fun items s r h => ?_⟩
    · cases s with
      | nil => cases h
      | cons c rest =>
        have hws := length_skipWs_le rest
        simp only [scanOnce] at h
        split_ifs at h
        · split at h
          next rest' hclose =>
            obtain ⟨a, -, rfl⟩ := Except.map_eq_ok.mp h
            have hexpect := length_of_expect hclose
            simp only [List.length_cons]
            omega
          next =>
            have hle := ihMembers _ _ _ h
            rw [List.length_cons]
            omega
        · split at h
          next rest' hclose =>
            cases h
            have hexpect := length_of_expect hclose
            simp only [List.length_cons]
            omega
          next =>
            have hle := ihElements _ _ _ h
            rw [List.length_cons]
            omega
        · split at h
          next constant rest' hconstant =>
            obtain ⟨a, -, rfl⟩ := Except.map_eq_ok.mp h
            exact length_of_scanConstant hconstant
          next =>
            obtain ⟨r', hr', rfl⟩ := Except.map_eq_ok.mp h
            exact length_of_scanScalar hr'
    · rw [scanMembers] at h
      obtain ⟨⟨key, afterColon⟩, hkey, h⟩ := Except.bind_eq_ok.mp h
      obtain ⟨⟨value, afterValue⟩, hvalue, h⟩ := Except.bind_eq_ok.mp h
      have h₁ := length_of_scanKey (orDecodeError_eq_ok.mp hkey)
      have h₂ := ihOnce _ _ hvalue
      have h₃ := length_skipWs_le afterValue
      simp only at h₁ h₂ h
      split at h
      next rest hclose =>
        obtain ⟨a, -, rfl⟩ := Except.map_eq_ok.mp h
        have h₄ := length_of_expect hclose
        simp only
        omega
      next =>
        obtain ⟨afterComma, hcomma, h⟩ := Except.bind_eq_ok.mp h
        have h₄ := length_of_expect (orDecodeError_eq_ok.mp hcomma)
        have h₅ := ihMembers _ _ _ h
        have h₆ := length_skipWs_le afterComma
        omega
    · rw [scanElements] at h
      obtain ⟨⟨value, afterValue⟩, hvalue, h⟩ := Except.bind_eq_ok.mp h
      have h₁ := ihOnce _ _ hvalue
      have h₂ := length_skipWs_le afterValue
      simp only at h₁ h
      split at h
      next rest hclose =>
        cases h
        have h₃ := length_of_expect hclose
        simp only
        omega
      next =>
        obtain ⟨afterComma, hcomma, h⟩ := Except.bind_eq_ok.mp h
        have h₃ := length_of_expect (orDecodeError_eq_ok.mp hcomma)
        have h₄ := ihElements _ _ _ h
        have h₅ := length_skipWs_le afterComma
        omega

/-! ### Fuel -/

variable {hooks}

/-- `scanOnce` depends on the fuel only through the members and elements after its first
character. -/
theorem scanOnce_congr_step {f g : ℕ} {s : Str}
    (hmembers : ∀ members t, t.length < s.length →
      hooks.scanMembers f members t = hooks.scanMembers g members t)
    (helements : ∀ items t, t.length < s.length →
      hooks.scanElements f items t = hooks.scanElements g items t) :
    hooks.scanOnce (f + 1) s = hooks.scanOnce (g + 1) s := by
  cases s with
  | nil => rfl
  | cons c rest =>
    have hlt : (skipWs rest).length < (c :: rest).length :=
      Nat.lt_succ_of_le (length_skipWs_le rest)
    simp only [scanOnce, hmembers [] _ hlt, helements [] _ hlt]

/-- `scanMembers` depends on the fuel only through what follows its first character. -/
theorem scanMembers_congr_step {f g : ℕ} {members : List (Str × α)} {s : Str}
    (honce : ∀ t, t.length < s.length → hooks.scanOnce f t = hooks.scanOnce g t)
    (hmembers : ∀ members t, t.length < s.length →
      hooks.scanMembers f members t = hooks.scanMembers g members t) :
    hooks.scanMembers (f + 1) members s = hooks.scanMembers (g + 1) members s := by
  rw [scanMembers, scanMembers]
  refine Except.bind_congr fun ⟨key, afterColon⟩ hkey => ?_
  have h₁ := length_of_scanKey (orDecodeError_eq_ok.mp hkey)
  simp only at h₁ ⊢
  rw [honce afterColon h₁]
  refine Except.bind_congr fun ⟨value, afterValue⟩ hvalue => ?_
  have h₂ := (hooks.length_of_scan g).1 _ _ hvalue
  simp only at h₂ ⊢
  split
  · rfl
  · refine Except.bind_congr fun afterComma hcomma => ?_
    have h₃ := length_of_expect (orDecodeError_eq_ok.mp hcomma)
    have h₄ := length_skipWs_le afterValue
    have h₅ := length_skipWs_le afterComma
    exact hmembers _ _ (by omega)

/-- `scanElements` depends on the fuel only through its first value and what follows it. -/
theorem scanElements_congr_step {f g : ℕ} {items : List α} {s : Str}
    (honce : hooks.scanOnce f s = hooks.scanOnce g s)
    (helements : ∀ items t, t.length < s.length →
      hooks.scanElements f items t = hooks.scanElements g items t) :
    hooks.scanElements (f + 1) items s = hooks.scanElements (g + 1) items s := by
  rw [scanElements, scanElements, honce]
  refine Except.bind_congr fun ⟨value, afterValue⟩ hvalue => ?_
  have h₁ := (hooks.length_of_scan g).1 _ _ hvalue
  simp only at h₁ ⊢
  split
  · rfl
  · refine Except.bind_congr fun afterComma hcomma => ?_
    have h₂ := length_of_expect (orDecodeError_eq_ok.mp hcomma)
    have h₃ := length_skipWs_le afterValue
    have h₄ := length_skipWs_le afterComma
    exact helements _ _ (by omega)

variable (hooks)

/-- More fuel does not change what a scanner returns: `2 · length + 1` is enough at a value, and
one more at a member or an element. -/
theorem scan_congr (n : ℕ) :
    (∀ f g s, s.length ≤ n → 2 * n + 1 ≤ f → 2 * n + 1 ≤ g →
      hooks.scanOnce f s = hooks.scanOnce g s) ∧
    (∀ f g members s, s.length ≤ n → 2 * n + 2 ≤ f → 2 * n + 2 ≤ g →
      hooks.scanMembers f members s = hooks.scanMembers g members s) ∧
    (∀ f g items s, s.length ≤ n → 2 * n + 2 ≤ f → 2 * n + 2 ≤ g →
      hooks.scanElements f items s = hooks.scanElements g items s) := by
  induction n using Nat.strongRec with
  | ind n ih =>
    have honce : ∀ f g s, s.length ≤ n → 2 * n + 1 ≤ f → 2 * n + 1 ≤ g →
        hooks.scanOnce f s = hooks.scanOnce g s := by
      intro f g s hs hf hg
      obtain ⟨f, rfl⟩ : ∃ f', f = f' + 1 := ⟨f - 1, by omega⟩
      obtain ⟨g, rfl⟩ : ∃ g', g = g' + 1 := ⟨g - 1, by omega⟩
      refine scanOnce_congr_step ?_ ?_
      · intro members t ht
        exact (ih t.length (by omega)).2.1 f g members t le_rfl (by omega) (by omega)
      · intro items t ht
        exact (ih t.length (by omega)).2.2 f g items t le_rfl (by omega) (by omega)
    refine ⟨honce, ?_, ?_⟩
    · intro f g members s hs hf hg
      obtain ⟨f, rfl⟩ : ∃ f', f = f' + 1 := ⟨f - 1, by omega⟩
      obtain ⟨g, rfl⟩ : ∃ g', g = g' + 1 := ⟨g - 1, by omega⟩
      refine scanMembers_congr_step ?_ ?_
      · intro t ht
        exact honce f g t (by omega) (by omega) (by omega)
      · intro members t ht
        exact (ih t.length (by omega)).2.1 f g members t le_rfl (by omega) (by omega)
    · intro f g items s hs hf hg
      obtain ⟨f, rfl⟩ : ∃ f', f = f' + 1 := ⟨f - 1, by omega⟩
      obtain ⟨g, rfl⟩ : ∃ g', g = g' + 1 := ⟨g - 1, by omega⟩
      refine scanElements_congr_step (honce f g s hs (by omega) (by omega)) ?_
      intro items t ht
      exact (ih t.length (by omega)).2.2 f g items t le_rfl (by omega) (by omega)

/-- The fuel of `loadsWith` is enough: any more gives the same value. -/
theorem scanOnce_fuel {fuel : ℕ} {s : Str} (h : 2 * s.length + 1 ≤ fuel) :
    hooks.scanOnce fuel s = hooks.scanOnce (2 * s.length + 1) s :=
  (hooks.scan_congr s.length).1 fuel _ s le_rfl h le_rfl

end Hooks

/-! ### Parsed values -/

/-- A number is well formed: it has no keys. -/
theorem wellFormed_of_finishNumber {negative : Bool} {digits rest : Str} {r : Value × Str}
    (h : finishNumber negative digits rest = .ok r) : r.1.WellFormed := by
  unfold finishNumber at h
  split at h
  · obtain ⟨n, -, rfl⟩ := Except.map_eq_ok.mp h
    trivial
  · cases h
    trivial

/-- What is scanned as a number is well formed. -/
theorem wellFormed_of_scanNumber {s : Str} {r : Value × Str} (h : scanNumber s = .ok r) :
    r.1.WellFormed := by
  unfold scanNumber at h
  simp only at h
  split at h
  · cases h
  · split_ifs at h
    · exact wellFormed_of_finishNumber h
    · exact wellFormed_of_finishNumber h

/-- A scalar is well formed. -/
theorem wellFormed_of_scanScalar {s : Str} {r : Value × Str} (h : scanScalar s = .ok r) :
    r.1.WellFormed := by
  cases s with
  | nil => cases h
  | cons c rest =>
    simp only [scanScalar] at h
    split_ifs at h
    · obtain ⟨a, -, rfl⟩ := Option.map_eq_some_iff.mp (orDecodeError_eq_ok.mp h)
      trivial
    · cases h
      trivial
    · cases h
      trivial
    · cases h
      trivial
    · exact wellFormed_of_scanNumber h

/-- Members that are set one after the other have distinct keys. -/
theorem wellFormed_setMembers {members : List (Str × Value)}
    (h : ∀ member ∈ members, member.2.WellFormed) :
    (Value.dict (setMembers members)).WellFormed := by
  induction members using List.reverseRecOn with
  | nil => simp [setMembers]
  | append_singleton before member ih =>
    rw [List.forall_mem_append, List.forall_mem_singleton] at h
    rw [setMembers_append]
    exact Value.wellFormed_setItem (ih h.1) h.2

/-- Scanned values have objects with distinct keys. -/
theorem wellFormed_of_scan (fuel : ℕ) :
    (∀ s r, Hooks.plain.scanOnce fuel s = .ok r → r.1.WellFormed) ∧
    (∀ members s r, (∀ member ∈ members, member.2.WellFormed) →
      Hooks.plain.scanMembers fuel members s = .ok r → r.1.WellFormed) ∧
    (∀ items s r, (∀ v ∈ items, v.WellFormed) → Hooks.plain.scanElements fuel items s = .ok r →
      r.1.WellFormed) := by
  induction fuel with
  | zero => simp [Hooks.scanOnce, Hooks.scanMembers, Hooks.scanElements]
  | succ fuel ih =>
    obtain ⟨ihOnce, ihMembers, ihElements⟩ := ih
    refine ⟨fun s r h => ?_, fun members s r hmembers h => ?_, fun items s r hitems h => ?_⟩
    · cases s with
      | nil => cases h
      | cons c rest =>
        simp only [Hooks.scanOnce] at h
        split_ifs at h
        · split at h
          · cases h
            exact wellFormed_setMembers (by simp)
          · exact ihMembers [] _ _ (by simp) h
        · split at h
          · cases h
            simp [Hooks.plain]
          · exact ihElements [] _ _ (by simp) h
        · split at h
          next c _ _ =>
            cases h
            cases c <;> trivial
          next =>
            obtain ⟨r', hr', rfl⟩ := Except.map_eq_ok.mp h
            exact wellFormed_of_scanScalar hr'
    · rw [Hooks.scanMembers] at h
      obtain ⟨⟨key, afterColon⟩, -, h⟩ := Except.bind_eq_ok.mp h
      obtain ⟨⟨value, afterValue⟩, hvalue, h⟩ := Except.bind_eq_ok.mp h
      have happend : ∀ member ∈ members ++ [(key, value)], member.2.WellFormed := by
        rw [List.forall_mem_append, List.forall_mem_singleton]
        exact ⟨hmembers, ihOnce _ _ hvalue⟩
      simp only at h
      split at h
      · cases h
        exact wellFormed_setMembers happend
      · obtain ⟨afterComma, -, h⟩ := Except.bind_eq_ok.mp h
        exact ihMembers _ _ _ happend h
    · rw [Hooks.scanElements] at h
      obtain ⟨⟨value, afterValue⟩, hvalue, h⟩ := Except.bind_eq_ok.mp h
      have happend : ∀ v ∈ items ++ [value], v.WellFormed := by
        rw [List.forall_mem_append, List.forall_mem_singleton]
        exact ⟨hitems, ihOnce _ _ hvalue⟩
      simp only at h
      split at h
      · cases h
        exact Value.wellFormed_list.mpr happend
      · obtain ⟨afterComma, -, h⟩ := Except.bind_eq_ok.mp h
        exact ihElements _ _ _ happend h

/-- Every parsed value is well formed. -/
theorem loads_wellFormed {s : Str} {v : Value} (h : loads s = .ok v) : v.WellFormed := by
  unfold loads loadsWith at h
  split_ifs at h
  obtain ⟨⟨value, rest⟩, hscan, h⟩ := Except.bind_eq_ok.mp h
  simp only at h
  split_ifs at h
  cases h
  exact (wellFormed_of_scan _).1 _ _ hscan

/-! ### What is raised -/

/-- A text that is not JSON raises a `JSONDecodeError`, which is a `ValueError`. -/
theorem raisesOnly_orDecodeError {α : Type} (x : Option α) :
    RaisesOnlyValueError (orDecodeError x) := by
  cases x with
  | none => exact .error rfl
  | some a => exact .ok a

/-- An integer with too many digits raises a `ValueError`. -/
theorem raisesOnly_intOfDigits (negative : Bool) (digits : Str) :
    RaisesOnlyValueError (intOfDigits negative digits) := by
  unfold intOfDigits
  by_cases h : intMaxStrDigits < digits.length
  · rw [if_pos h]
    exact .error rfl
  · rw [if_neg h]
    exact .ok _

/-- The rest of a number raises only a `ValueError`. -/
theorem raisesOnly_finishNumber (negative : Bool) (digits rest : Str) :
    RaisesOnlyValueError (finishNumber negative digits rest) := by
  unfold finishNumber
  split
  · exact .map (raisesOnly_intOfDigits negative digits)
  · exact .ok _

/-- A scalar raises only a `ValueError`. -/
theorem raisesOnly_scanScalar (s : Str) : RaisesOnlyValueError (scanScalar s) := by
  unfold scanScalar
  split
  · exact .error rfl
  · split_ifs
    · exact raisesOnly_orDecodeError _
    · exact .ok _
    · exact .ok _
    · exact .ok _
    · unfold scanNumber
      dsimp only
      split
      · exact .error rfl
      · split_ifs
        · exact raisesOnly_finishNumber _ _ _
        · exact raisesOnly_finishNumber _ _ _
        · exact .error rfl

/-- The scanners raise a `ValueError`, if the hooks raise nothing else. -/
theorem raisesOnly_scan {α : Type} {hooks : Hooks α}
    (hconstant : ∀ c, RaisesOnlyValueError (hooks.constant c))
    (hobject : ∀ members, RaisesOnlyValueError (hooks.object members)) (fuel : ℕ) :
    (∀ s, RaisesOnlyValueError (hooks.scanOnce fuel s)) ∧
    (∀ members s, RaisesOnlyValueError (hooks.scanMembers fuel members s)) ∧
    (∀ items s, RaisesOnlyValueError (hooks.scanElements fuel items s)) := by
  induction fuel with
  | zero => exact ⟨fun _ => .error rfl, fun _ _ => .error rfl, fun _ _ => .error rfl⟩
  | succ fuel ih =>
    obtain ⟨ihOnce, ihMembers, ihElements⟩ := ih
    refine ⟨fun s => ?_, fun members s => ?_, fun items s => ?_⟩
    · unfold Hooks.scanOnce
      split
      · exact .error rfl
      · split_ifs
        · split
          · exact .map (hobject [])
          · exact ihMembers _ _
        · split
          · exact .ok _
          · exact ihElements _ _
        · split
          · exact .map (hconstant _)
          · exact .map (raisesOnly_scanScalar _)
    · unfold Hooks.scanMembers
      refine .bind (raisesOnly_orDecodeError _) fun found _ => .bind (ihOnce _) fun scanned _ => ?_
      dsimp only
      split
      · exact .map (hobject _)
      · exact .bind (raisesOnly_orDecodeError _) fun _ _ => ihMembers _ _
    · unfold Hooks.scanElements
      refine .bind (ihOnce _) fun scanned _ => ?_
      dsimp only
      split
      · exact .ok _
      · exact .bind (raisesOnly_orDecodeError _) fun _ _ => ihElements _ _

/-- `json.loads` raises no exception but a `ValueError`. -/
theorem raisesOnly_loads (s : Str) : RaisesOnlyValueError (loads s) := by
  have hscan := @raisesOnly_scan _ .plain (fun _ => .ok _) (fun _ => .ok _)
  unfold loads loadsWith
  split_ifs
  · exact .error rfl
  · refine .bind ((hscan _).1 _) fun scanned _ => ?_
    dsimp only
    split_ifs
    · exact .ok _
    · exact .error rfl

end Python.Json
