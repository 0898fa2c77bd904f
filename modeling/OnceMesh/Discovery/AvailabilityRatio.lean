import OnceMesh.Discovery
import OnceMesh.Python.Decimal.Rounding

/-!
# The availability ratio

`_validate_stats` divides in a context of 28 digits and rounds the quotient to millionths, ties up.
A quotient just below a tie can be rounded twice, to the tie and up. The check is exact except for
those quotients (`ratio_exact_iff`); none has a sample size up to 10^20 (`not_reachesTie`).
-/

namespace OnceMesh.Discovery

open Python DocumentValidation

/-! ### Millionths -/

/-- `successfulRequests / sampleSize` in millionths, rounded half up. -/
def halfUpMillionths (successfulRequests sampleSize : ℕ) : ℕ :=
  (2 * 10 ^ 6 * successfulRequests + sampleSize) / (2 * sampleSize)

/-- The middle between `k` and `k + 1` millionths. -/
def tie (k : ℕ) : ℚ := (2 * k + 1) / (2 * 10 ^ 6)

/-- The ratio is so close below the middle between two millionths that 28 digits do not keep it
there. -/
def ReachesTie (successfulRequests sampleSize : ℕ) : Prop :=
  ∃ k, (successfulRequests : ℚ) / sampleSize < tie k ∧
    tie k - successfulRequests / sampleSize ≤
      10 ^ (Int.log 10 ((successfulRequests : ℚ) / sampleSize) - 27) / 2

theorem lt_halfUpMillionths_iff {s n k : ℕ} (hn : 0 < n) :
    k + 1 ≤ halfUpMillionths s n ↔ tie k ≤ (s : ℚ) / n := by
  have hpos : (0 : ℚ) < n := by exact_mod_cast hn
  rw [halfUpMillionths, Nat.le_div_iff_mul_le (by omega), tie, div_le_div_iff₀ (by norm_num) hpos]
  constructor
  · intro h
    have hcast : ((k + 1) * (2 * n) : ℚ) ≤ 2 * 10 ^ 6 * s + n := by exact_mod_cast h
    linarith
  · intro h
    have hcast : ((k + 1) * (2 * n) : ℚ) ≤ 2 * 10 ^ 6 * s + n := by linarith
    exact_mod_cast hcast

/-- Half a millionth, and what is above, is rounded up. -/
theorem lt_quantizeMillionths_iff {d : Decimal} {k : ℕ} :
    k + 1 ≤ (quantizeMillionths d).coefficient ↔ tie k ≤ d.value := by
  have hten : (10 : ℚ) ≠ 0 := by norm_num
  have hmillion : (10 : ℚ) ^ (-6 : ℤ) = 1 / 10 ^ 6 := by norm_num
  rw [quantizeMillionths, tie]
  split_ifs with hexponent
  · -- a whole number of millionths
    have hvalue : d.value = (d.coefficient * 10 ^ (d.exponent + 6).toNat : ℕ) / 10 ^ 6 := by
      have hsplit : d.exponent = ((d.exponent + 6).toNat : ℤ) + (-6) := by omega
      rw [Decimal.value, hsplit, zpow_add₀ hten, zpow_natCast, hmillion]
      push_cast
      have hback : ((d.exponent + 6).toNat + (-6 : ℤ) + 6).toNat =
        (d.exponent + 6).toNat := by omega
      rw [hback]
      ring
    rw [hvalue, div_le_div_iff₀ (by norm_num) (by norm_num)]
    constructor
    · intro h
      have hcast : ((k : ℚ) + 1) ≤ (d.coefficient * 10 ^ (d.exponent + 6).toNat : ℕ) := by
        exact_mod_cast h
      linarith
    · intro h
      have hcast : ((2 * k + 1 : ℕ) : ℚ) ≤
          (2 * (d.coefficient * 10 ^ (d.exponent + 6).toNat) : ℕ) := by
        push_cast at h ⊢
        linarith
      have hnat : 2 * k + 1 ≤ 2 * (d.coefficient * 10 ^ (d.exponent + 6).toNat) := by
        exact_mod_cast hcast
      show k + 1 ≤ d.coefficient * 10 ^ (d.exponent + 6).toNat
      omega
  · obtain ⟨unit, hunit⟩ : ∃ unit, unit = 10 ^ (-6 - d.exponent).toNat := ⟨_, rfl⟩
    have hunitPos : 0 < unit := by
      rw [hunit]
      positivity
    have hunitQ : (0 : ℚ) < unit := by exact_mod_cast hunitPos
    have hvalue : d.value = d.coefficient / (unit * 10 ^ 6) := by
      have hsplit : d.exponent = -((-6 - d.exponent).toNat : ℤ) + (-6) := by omega
      rw [Decimal.value, hsplit, zpow_add₀ hten, hmillion, zpow_neg, zpow_natCast, hunit]
      push_cast
      field_simp
    rw [← hunit, hvalue, div_le_div_iff₀ (by norm_num) (by positivity)]
    show k + 1 ≤ (2 * d.coefficient + unit) / (2 * unit) ↔ _
    rw [Nat.le_div_iff_mul_le (by omega)]
    constructor
    · intro h
      have hcast : ((k + 1) * (2 * unit) : ℚ) ≤ 2 * d.coefficient + unit := by exact_mod_cast h
      linarith
    · intro h
      have hcast : ((k + 1) * (2 * unit) : ℚ) ≤ 2 * d.coefficient + unit := by linarith
      exact_mod_cast hcast

theorem quantizeMillionths_value (d : Decimal) :
    (quantizeMillionths d).value = (quantizeMillionths d).coefficient / 10 ^ 6 := by
  have hexponent : (quantizeMillionths d).exponent = -6 := by
    rw [quantizeMillionths]
    split_ifs <;> rfl
  rw [Decimal.value, hexponent]
  norm_num
  ring

/-! ### The quotient -/

theorem tie_eq_zpow (k : ℕ) {place : ℤ} (h : place ≤ -8) :
    ∃ m : ℤ, Even m ∧ tie k = m * (10 : ℚ) ^ place := by
  have hten : (10 : ℚ) ≠ 0 := by norm_num
  refine ⟨(2 * k + 1) * 5 * 10 ^ (-7 - place).toNat, ?_, ?_⟩
  · have hten' : Even ((10 : ℤ) ^ (-7 - place).toNat) :=
      (by decide : Even (10 : ℤ)).pow_of_ne_zero (by omega)
    exact hten'.mul_left _
  · have hpower : (10 : ℚ) ^ (-7 - place).toNat * 10 ^ place = 1 / 10 ^ 7 := by
      rw [← zpow_natCast, Int.toNat_of_nonneg (by omega), ← zpow_add₀ hten, sub_add_cancel]
      norm_num
    push_cast
    rw [mul_assoc, hpower, tie]
    norm_num
    ring

theorem log_ratio_le {s n : ℕ} (hs : 0 < s) (hn : 0 < n) (hle : s ≤ n) :
    Int.log 10 ((s : ℚ) / n) ≤ 0 := by
  have hpos : (0 : ℚ) < s / n := by
    have hs' : (0 : ℚ) < s := by exact_mod_cast hs
    have hn' : (0 : ℚ) < n := by exact_mod_cast hn
    exact div_pos hs' hn'
  have hone : (s : ℚ) / n ≤ 1 := by
    rw [div_le_one (by exact_mod_cast hn)]
    exact_mod_cast hle
  have hlog : Int.log 10 ((s : ℚ) / n) ≤ Int.log 10 (1 : ℚ) := Int.log_mono_right hpos hone
  rwa [Int.log_one_right] at hlog

/-- The rounded quotient reaches a tie from half a unit of its last digit below. -/
theorem tie_le_value_iff {s n k : ℕ} (hs : 0 < s) (hn : 0 < n) (hle : s ≤ n) {measured : Decimal}
    (h : (Decimal.ofNat s).div n = .ok measured) :
    tie k ≤ measured.value ↔
      tie k - 10 ^ (Int.log 10 ((s : ℚ) / n) - 27) / 2 ≤ (s : ℚ) / n := by
  have hlog := log_ratio_le hs hn hle
  have hvalue : (Decimal.ofNat s).value = s := by simp [Decimal.value, Decimal.ofNat]
  have hnearest := Decimal.nearestEven_div (d := Decimal.ofNat s) hs hn h
  rw [hvalue] at hnearest
  obtain ⟨place, hplace⟩ : ∃ place, place = Decimal.lastPlace ((s : ℚ) / n) := ⟨_, rfl⟩
  rw [← hplace] at hnearest
  rw [Decimal.lastPlace, Decimal.precision, Decimal.tinyExponent, Decimal.maxExponent,
    Decimal.precision] at hplace
  have hsmall : place ≤ -8 := by omega
  obtain ⟨m, hm, htie⟩ := tie_eq_zpow k hsmall
  rw [htie, hnearest.le_iff hm, ← htie]
  rcases le_total (-1000026) (Int.log 10 ((s : ℚ) / n) - 27) with hnormal | hsubnormal
  · have hsame : place = Int.log 10 ((s : ℚ) / n) - 27 := by omega
    rw [hsame]
  · -- both are far above the quotient
    have hfar : ∀ e : ℤ, e ≤ -8 → ¬tie k - 10 ^ e / 2 ≤ (s : ℚ) / n := by
      intro e he
      have hquotient : (s : ℚ) / n < 10 ^ (-8 : ℤ) := by
        have hlt := Int.lt_zpow_succ_log_self (show 1 < 10 by decide) ((s : ℚ) / n)
        have hmono : (10 : ℚ) ^ (Int.log 10 ((s : ℚ) / n) + 1) ≤ 10 ^ (-8 : ℤ) :=
          zpow_le_zpow_right₀ (by norm_num) (by omega)
        exact lt_of_lt_of_le (by exact_mod_cast hlt) hmono
      have hunit : (10 : ℚ) ^ e ≤ 10 ^ (-8 : ℤ) := zpow_le_zpow_right₀ (by norm_num) he
      have hsmall : (10 : ℚ) ^ (-8 : ℤ) = 1 / 10 ^ 8 := by norm_num
      have htieLow : (1 : ℚ) / (2 * 10 ^ 6) ≤ tie k := by
        rw [tie]
        gcongr
        linarith [(Nat.cast_nonneg k : (0 : ℚ) ≤ k)]
      rw [not_le]
      rw [hsmall] at hquotient hunit
      linarith
    exact iff_of_false (hfar place (by omega)) (hfar _ (by omega))

/-- The quotient in millionths is rounded half up, unless it is just below a tie. -/
theorem quantizeMillionths_div_iff {s n : ℕ} (hn : 0 < n) (hle : s ≤ n) {measured : Decimal}
    (h : (Decimal.ofNat s).div n = .ok measured) :
    (quantizeMillionths measured).coefficient = halfUpMillionths s n ↔ ¬ReachesTie s n := by
  have hsame : (quantizeMillionths measured).coefficient = halfUpMillionths s n ↔
      ∀ k, tie k ≤ measured.value ↔ tie k ≤ (s : ℚ) / n := by
    constructor
    · intro heq k
      rw [← lt_quantizeMillionths_iff, heq, lt_halfUpMillionths_iff hn]
    · intro hall
      apply eq_of_forall_le_iff
      intro m
      cases m with
      | zero => simp
      | succ k => rw [lt_quantizeMillionths_iff, lt_halfUpMillionths_iff hn, hall]
  rw [hsame]
  rcases Nat.eq_zero_or_pos s with rfl | hs
  · -- nothing divided is nothing
    have hzero : measured.value = 0 := by
      have hfix : Decimal.fix ⟨0, 0⟩ = .ok measured := h
      cases hfix
      simp [Decimal.value]
    have hnone : ¬ReachesTie 0 n := by
      rintro ⟨k, -, hclose⟩
      simp only [Nat.cast_zero, zero_div, Int.log_zero_right, sub_zero] at hclose
      have htieLow : (1 : ℚ) / (2 * 10 ^ 6) ≤ tie k := by
        rw [tie]
        gcongr
        linarith [(Nat.cast_nonneg k : (0 : ℚ) ≤ k)]
      norm_num at hclose htieLow
      linarith
    rw [hzero]
    simp [hnone]
  · have hstep : ∀ k, (tie k ≤ measured.value ↔ tie k ≤ (s : ℚ) / n) ↔
        ¬((s : ℚ) / n < tie k ∧
          tie k - s / n ≤ 10 ^ (Int.log 10 ((s : ℚ) / n) - 27) / 2) := by
      intro k
      rw [tie_le_value_iff hs hn hle h]
      have hunit : (0 : ℚ) < 10 ^ (Int.log 10 ((s : ℚ) / n) - 27) := zpow_pos (by norm_num) _
      constructor
      · rintro hiff ⟨hlt, hclose⟩
        exact absurd (hiff.mp (by linarith)) (not_le.mpr hlt)
      · intro hnot
        constructor
        · intro hreach
          by_contra hlt
          exact hnot ⟨not_le.mp hlt, by linarith⟩
        · intro hge
          linarith
    simp only [hstep, ReachesTie, not_exists]

/-- No sample size up to 10^20 has a ratio so close to a tie. -/
theorem not_reachesTie {s n : ℕ} (hn : 0 < n) (hle : s ≤ n) (hsize : n ≤ 10 ^ 20) :
    ¬ReachesTie s n := by
  rintro ⟨k, hlt, hclose⟩
  have hnQ : (0 : ℚ) < n := by exact_mod_cast hn
  have hsizeQ : (n : ℚ) ≤ 10 ^ 20 := by exact_mod_cast hsize
  -- the two differ by a fraction with the denominator `2 * 10 ^ 6 * n`
  have hdifference : 1 / (2 * 10 ^ 6 * (n : ℚ)) ≤ tie k - s / n := by
    have hnat : 2 * 10 ^ 6 * s + 1 ≤ (2 * k + 1) * n := by
      rw [tie, div_lt_div_iff₀ hnQ (by norm_num)] at hlt
      have hcast : ((s * (2 * 10 ^ 6) : ℕ) : ℚ) < ((2 * k + 1) * n : ℕ) := by
        push_cast
        linarith
      have hnatLt : s * (2 * 10 ^ 6) < (2 * k + 1) * n := by exact_mod_cast hcast
      omega
    have hcast : (2 * 10 ^ 6 * s + 1 : ℚ) ≤ (2 * k + 1) * n := by exact_mod_cast hnat
    rw [tie, div_sub_div _ _ (by norm_num) hnQ.ne', div_le_div_iff_of_pos_right (by positivity)]
    linarith
  have hlow : 1 / (2 * 10 ^ 26 : ℚ) ≤ 1 / (2 * 10 ^ 6 * n) := by
    apply one_div_le_one_div_of_le (by positivity)
    linarith
  have hunit : (10 : ℚ) ^ (Int.log 10 ((s : ℚ) / n) - 27) ≤ 10 ^ (-27 : ℤ) := by
    apply zpow_le_zpow_right₀ (by norm_num)
    rcases Nat.eq_zero_or_pos s with rfl | hs
    · simp
    · have := log_ratio_le hs hn hle
      omega
  have hvalue : (10 : ℚ) ^ (-27 : ℤ) = 1 / 10 ^ 27 := by norm_num
  rw [hvalue] at hunit
  norm_num at hlow hunit hdifference
  linarith

/-! ### Texts of ratios -/

theorem natOfDigits_concat (ds : Str) (c : CodePoint) :
    Json.natOfDigits (ds ++ [c]) = 10 * Json.natOfDigits ds + digitVal c := by
  rw [Json.natOfDigits, List.foldl_append]
  rfl

/-- Digits are those of their number, in their width. -/
theorem padded_natOfDigits {ds : Str} (h : ∀ c ∈ ds, isDigit c = true) :
    padded ds.length (Json.natOfDigits ds) = ds ∧ Json.natOfDigits ds < 10 ^ ds.length := by
  induction ds using List.reverseRecOn with
  | nil => exact ⟨rfl, Nat.one_pos⟩
  | append_singleton ds c ih =>
    obtain ⟨hdigits, hlt⟩ := ih fun x hx => h x (List.mem_append_left _ hx)
    have hc := of_decide_eq_true (h c (by simp))
    have hvalue : digitVal c < 10 := by
      rw [digitVal]
      omega
    have hdigit : digit (10 * Json.natOfDigits ds + digitVal c) = c := by
      apply Fin.ext
      show 0x30 + (10 * Json.natOfDigits ds + digitVal c) % 10 = c.val
      have hval : digitVal c = c.val - 0x30 := rfl
      omega
    have hdiv : (10 * Json.natOfDigits ds + digitVal c) / 10 = Json.natOfDigits ds := by omega
    rw [natOfDigits_concat, List.length_append, List.length_singleton]
    refine ⟨?_, ?_⟩
    · rw [padded, hdiv, hdigits, hdigit]
    · rw [Nat.pow_succ]
      omega

theorem natOfDigits_padded {width n : ℕ} (h : n < 10 ^ width) :
    Json.natOfDigits (padded width n) = n := by
  induction width generalizing n with
  | zero =>
    have hzero : n = 0 := by simpa using h
    rw [hzero]
    rfl
  | succ width ih =>
    rw [Nat.pow_succ] at h
    rw [padded, natOfDigits_concat, ih (by omega), digitVal_digit, Nat.div_add_mod]

/-- A number of millionths up to a million, as a ratio is written. -/
def ratioText (millionths : ℕ) : Str :=
  if millionths = 10 ^ 6 then lit "1.000000" else lit "0." ++ padded 6 millionths

/-- A text of a ratio is one of a number of millionths. -/
theorem isRatio_iff {r : Str} : isRatio r = true ↔ ∃ m ≤ 10 ^ 6, r = ratioText m := by
  constructor
  · intro h
    rw [isRatio, Bool.or_eq_true, Bool.and_eq_true, Bool.and_eq_true, decide_eq_true_eq,
      decide_eq_true_eq] at h
    rcases h with rfl | ⟨⟨hstarts, hlength⟩, hdigits⟩
    · exact ⟨10 ^ 6, le_rfl, rfl⟩
    · obtain ⟨ds, rfl⟩ := List.isPrefixOf_iff_prefix.mp hstarts
      have hdrop : (lit "0." ++ ds).drop 2 = ds := List.drop_left' rfl
      have hsix : ds.length = 6 := by
        rw [List.length_append] at hlength
        have htwo : (lit "0.").length = 2 := rfl
        omega
      rw [hdrop, List.all_eq_true] at hdigits
      obtain ⟨hpadded, hlt⟩ := padded_natOfDigits hdigits
      rw [hsix] at hpadded hlt
      refine ⟨Json.natOfDigits ds, hlt.le, ?_⟩
      rw [ratioText, if_neg hlt.ne, hpadded]
  · rintro ⟨m, hm, rfl⟩
    rw [ratioText]
    split_ifs with hone
    · decide
    · have hdrop : (lit "0." ++ padded 6 m).drop 2 = padded 6 m := List.drop_left' rfl
      have hstarts : startsWith (lit "0." ++ padded 6 m) (lit "0.") = true :=
        List.isPrefixOf_iff_prefix.mpr (List.prefix_append _ _)
      have hdigits : (padded 6 m).all isDigit = true :=
        List.all_eq_true.mpr fun c hc => isDigit_of_mem_padded hc
      have hlength : (lit "0." ++ padded 6 m).length = 8 := by
        rw [List.length_append, length_padded]
        rfl
      rw [isRatio, hdrop, hstarts, hdigits, hlength]
      simp

/-- The number a text of a ratio stands for. -/
theorem ofText?_ratioText {m : ℕ} (hm : m ≤ 10 ^ 6) :
    Decimal.ofText? (ratioText m) = some ⟨m, -6⟩ := by
  rw [ratioText]
  split_ifs with hone
  · rw [hone]
    decide
  · have hlt : m < 10 ^ 6 := lt_of_le_of_ne hm hone
    have hdigits : ∀ c ∈ padded 6 m, isDigit c = true := fun c hc => isDigit_of_mem_padded hc
    have htake : (padded 6 m).takeWhile isDigit = padded 6 m :=
      List.takeWhile_eq_self_iff.mpr hdigits
    have hdrop : (padded 6 m).dropWhile isDigit = [] := List.dropWhile_eq_nil_iff.mpr hdigits
    have hnumber : Json.natOfDigits ([0x30] ++ padded 6 m) = m := by
      rw [Json.natOfDigits, List.foldl_append]
      exact natOfDigits_padded hlt
    have hwhole : (lit "0." ++ padded 6 m).takeWhile isDigit = [0x30] := rfl
    have hrest : (lit "0." ++ padded 6 m).dropWhile isDigit = 0x2E :: padded 6 m := rfl
    have hsix : (padded 6 m).length = 6 := length_padded 6 m
    rw [Decimal.ofText?, hwhole, hrest]
    simp only [List.head?_cons, List.tail_cons, if_true, htake, hdrop, hnumber, hsix]
    simp

/-- The check of the ratio asks for the quotient in millionths. -/
theorem decimal_ratio_eq_ok {r : Str} {d : Decimal} :
    decimal (.str r) "availability_ratio" isRatio = .ok d ↔
      ∃ m ≤ 10 ^ 6, r = ratioText m ∧ d = ⟨m, -6⟩ := by
  constructor
  · intro h
    by_cases hratio : isRatio r = true
    · obtain ⟨m, hm, rfl⟩ := isRatio_iff.mp hratio
      rw [decimal, if_pos hratio, ofText?_ratioText hm] at h
      cases h
      exact ⟨m, hm, rfl, rfl⟩
    · rw [decimal, if_neg hratio] at h
      cases h
  · rintro ⟨m, hm, rfl, rfl⟩
    rw [decimal, if_pos (isRatio_iff.mpr ⟨m, hm, rfl⟩), ofText?_ratioText hm]

/-! ### The check -/

/-- The checks of `_validate_stats` apart from that of the ratio. -/
structure StatsChecked (document : Value) (status : Str) (sampleSize successfulRequests : ℕ) :
    Prop where
  keys : document.hasExactKeys
    [lit "evidence_kind", lit "window_started_at", lit "window_ended_at", lit "observed_at",
      lit "sample_size", lit "successful_requests", lit "bytes_served", lit "availability_ratio",
      lit "latency_ms"] = true
  kind : ∃ known, (document.get (lit "evidence_kind")).lookupIn evidenceKinds = .ok known ∧
    known.isNone = false
  directory : (status = lit "observed" &&
    !(document.get (lit "evidence_kind")).eqStr (lit "directory-observed")) = false
  window : ∃ started ended observed,
    parseCanonicalUtc (document.get (lit "window_started_at")) "statistics window_started_at" =
      .ok started ∧
    parseCanonicalUtc (document.get (lit "window_ended_at")) "statistics window_ended_at" =
      .ok ended ∧
    parseCanonicalUtc (document.get (lit "observed_at")) "statistics observed_at" = .ok observed ∧
    (ended ≤ started || observed < ended) = false
  sample : statsInteger document "sample_size" = .ok sampleSize
  successful : statsInteger document "successful_requests" = .ok successfulRequests
  bytesServed : ∃ bytes, statsInteger document "bytes_served" = .ok bytes
  enough : 20 ≤ sampleSize
  within : successfulRequests ≤ sampleSize
  latency : (document.get (lit "latency_ms")).hasExactKeys [lit "p50", lit "p95"] = true
  percentiles : ∃ p50 p95,
    decimal ((document.get (lit "latency_ms")).get (lit "p50")) "latency p50" isCanonicalDecimal =
      .ok p50 ∧
    decimal ((document.get (lit "latency_ms")).get (lit "p95")) "latency p95" isCanonicalDecimal =
      .ok p95 ∧ p50 ≤ p95

/-- The check of the ratio. -/
def RatioAccepted (sampleSize successfulRequests : ℕ) (ratio : Value) : Prop :=
  ∃ r measured, decimal ratio "availability_ratio" isRatio = .ok r ∧
    (Decimal.ofNat successfulRequests).div sampleSize = .ok measured ∧
    r.value = (quantizeMillionths measured).value

theorem exactKeys_eq_ok {value : Value} {expected : List Str} {label : String} {u : Unit} :
    exactKeys value expected label = .ok u ↔ value.hasExactKeys expected = true := by
  rw [exactKeys]
  split_ifs with h <;> simp [h]

/-- The statistics pass with the checks of their ratio and the others. -/
theorem validateStats_eq_ok {items : List (Str × Value)} {status : Str} :
    validateStats (.dict items) status = .ok () ↔ ∃ sampleSize successfulRequests,
      StatsChecked (.dict items) status sampleSize successfulRequests ∧
        RatioAccepted sampleSize successfulRequests
          ((Value.dict items).get (lit "availability_ratio")) := by
  simp only [validateStats, Except.bind_eq_ok, exists_const, exactKeys_eq_ok, raiseIf_eq_ok]
  constructor
  · rintro ⟨hkeys, known, hknown, hkind, hdirectory, started, hstarted, ended, hended, observed,
      hobserved, hwindow, n, hn, s, hs, bytes, hbytes, henough, hwithin, r, hr, measured, hmeasured,
      hequal, hlatency, p50, hp50, p95, hp95, horder⟩
    refine ⟨n, s, ⟨hkeys, ⟨known, hknown, hkind⟩, hdirectory,
      ⟨started, ended, observed, hstarted, hended, hobserved, hwindow⟩, hn, hs, ⟨bytes, hbytes⟩, ?_,
      ?_, hlatency, ⟨p50, p95, hp50, hp95, ?_⟩⟩, ⟨r, measured, hr, hmeasured, ?_⟩⟩
    · simpa using henough
    · simpa using hwithin
    · simpa using horder
    · simpa using hequal
  · rintro ⟨n, s, ⟨hkeys, ⟨known, hknown, hkind⟩, hdirectory,
      ⟨started, ended, observed, hstarted, hended, hobserved, hwindow⟩, hn, hs, ⟨bytes, hbytes⟩,
      henough, hwithin, hlatency, ⟨p50, p95, hp50, hp95, horder⟩⟩,
      ⟨r, measured, hr, hmeasured, hequal⟩⟩
    refine ⟨hkeys, known, hknown, hkind, hdirectory, started, hstarted, ended, hended, observed,
      hobserved, hwindow, n, hn, s, hs, bytes, hbytes, ?_, ?_, r, hr, measured, hmeasured,
      ?_, hlatency, p50, hp50, p95, hp95, ?_⟩
    · simpa using henough
    · simpa using hwithin
    · simpa using hequal
    · simpa using horder

/-- The quotient, in millionths, is the only ratio that is accepted. -/
theorem exists_ratioAccepted_iff {s n : ℕ} (hn : 0 < n) (hle : s ≤ n) :
    ∃ m ≤ 10 ^ 6, (m = halfUpMillionths s n ↔ ¬ReachesTie s n) ∧
      ∀ r, RatioAccepted n s (.str r) ↔ r = ratioText m := by
  obtain ⟨measured, hmeasured⟩ : ∃ measured, (Decimal.ofNat s).div n = .ok measured := by
    rcases Nat.eq_zero_or_pos s with rfl | hs
    · exact ⟨_, rfl⟩
    · apply Decimal.exists_div hs hn
      have hlog := log_ratio_le hs hn hle
      have hvalue : (Decimal.ofNat s).value = s := by simp [Decimal.value, Decimal.ofNat]
      rw [hvalue, Decimal.maxExponent]
      omega
  have hexact := quantizeMillionths_div_iff hn hle hmeasured
  have hbound : (quantizeMillionths measured).coefficient ≤ 10 ^ 6 := by
    by_contra hgt
    have htie : tie (10 ^ 6) ≤ measured.value := lt_quantizeMillionths_iff.mp (not_le.mp hgt)
    have hone : (1 : ℚ) + 1 / (2 * 10 ^ 6) = tie (10 ^ 6) := by norm_num [tie]
    rcases Nat.eq_zero_or_pos s with rfl | hs
    · have hfix : Decimal.fix ⟨0, 0⟩ = .ok measured := hmeasured
      cases hfix
      norm_num [Decimal.value] at htie hone
      linarith
    · rw [tie_le_value_iff hs hn hle hmeasured] at htie
      have hlog := log_ratio_le hs hn hle
      have hunit : (10 : ℚ) ^ (Int.log 10 ((s : ℚ) / n) - 27) ≤ 10 ^ (-27 : ℤ) :=
        zpow_le_zpow_right₀ (by norm_num) (by omega)
      have hratio : (s : ℚ) / n ≤ 1 := by
        rw [div_le_one (by exact_mod_cast hn)]
        exact_mod_cast hle
      have hsmall : (10 : ℚ) ^ (-27 : ℤ) = 1 / 10 ^ 27 := by norm_num
      rw [hsmall] at hunit
      norm_num at hunit hone
      linarith
  refine ⟨_, hbound, hexact, fun r => ?_⟩
  constructor
  · rintro ⟨d, measured', hd, hmeasured', hequal⟩
    obtain ⟨m, hm, rfl, rfl⟩ := decimal_ratio_eq_ok.mp hd
    cases hmeasured.symm.trans hmeasured'
    rw [quantizeMillionths_value, Decimal.value] at hequal
    have hsame : (m : ℚ) = (quantizeMillionths measured).coefficient := by
      norm_num at hequal
      linarith
    rw [Nat.cast_inj.mp hsame]
  · rintro rfl
    refine ⟨_, measured, decimal_ratio_eq_ok.mpr ⟨_, hbound, rfl, rfl⟩, hmeasured, ?_⟩
    rw [quantizeMillionths_value, Decimal.value]
    norm_num
    ring

/-- The statistics with another ratio. -/
def withRatio (ratio : Str) : Value → Value
  | .dict items => .dict (setItem items (lit "availability_ratio") (.str ratio))
  | value => value

/-- The other checks do not read the ratio. -/
theorem StatsChecked.withRatio {items : List (Str × Value)} {r r' status : Str} {n s : ℕ}
    (h : StatsChecked (withRatio r (.dict items)) status n s) :
    StatsChecked (Discovery.withRatio r' (.dict items)) status n s := by
  have hget : ∀ k, k ≠ lit "availability_ratio" →
      (Discovery.withRatio r' (.dict items)).get k =
        (Discovery.withRatio r (.dict items)).get k := by
    intro k hk
    rw [Discovery.withRatio, Discovery.withRatio, Value.get_setItem, Value.get_setItem, if_neg hk,
      if_neg hk]
  have hkeys : ∀ expected, (Discovery.withRatio r' (.dict items)).hasExactKeys expected =
      (Discovery.withRatio r (.dict items)).hasExactKeys expected := by
    intro expected
    have hsame : ∀ v : Value, (Value.dict (setItem items (lit "availability_ratio") v)).hasExactKeys
        expected =
          (((setItem items (lit "availability_ratio") v).map Prod.fst).all (· ∈ expected) &&
          expected.all (· ∈ (setItem items (lit "availability_ratio") v).map Prod.fst)) := by
      intro v
      rw [Value.hasExactKeys, List.all_map]
      rfl
    rw [Discovery.withRatio, Discovery.withRatio, hsame, hsame, keys_setItem, keys_setItem]
  have hinteger : ∀ field : String, lit field ≠ lit "availability_ratio" →
      statsInteger (Discovery.withRatio r' (.dict items)) field =
        statsInteger (Discovery.withRatio r (.dict items)) field := by
    intro field hfield
    rw [statsInteger, statsInteger, hget _ hfield]
  constructor
  · rw [hkeys]
    exact h.keys
  · rw [hget _ (by decide)]
    exact h.kind
  · rw [hget _ (by decide)]
    exact h.directory
  · rw [hget _ (by decide), hget _ (by decide), hget _ (by decide)]
    exact h.window
  · rw [hinteger _ (by decide)]
    exact h.sample
  · rw [hinteger _ (by decide)]
    exact h.successful
  · rw [hinteger _ (by decide)]
    exact h.bytesServed
  · exact h.enough
  · exact h.within
  · rw [hget _ (by decide)]
    exact h.latency
  · rw [hget _ (by decide)]
    exact h.percentiles

theorem statsInteger_of_get {document : Value} {field : String} {n : ℕ}
    (h : document.get (lit field) = .int n) : statsInteger document field = .ok n := by
  have hnonneg : ¬(n : ℤ) < 0 := by omega
  rw [statsInteger, h]
  dsimp only
  rw [if_neg hnonneg]
  rfl

/-- For statistics that pass with some ratio, that ratio is the exact one, rounded half up, unless
28 digits take the quotient to a tie above it. -/
theorem ratio_exact_iff {document : Value} {status : Str} {sampleSize successfulRequests : ℕ}
    (hsample : document.get (lit "sample_size") = .int sampleSize)
    (hsuccessful : document.get (lit "successful_requests") = .int successfulRequests)
    (hvalid : ∃ r, validateStats (withRatio r document) status = .ok ()) :
    (∀ r, validateStats (withRatio r document) status = .ok () ↔
        r = ratioText (halfUpMillionths successfulRequests sampleSize)) ↔
      ¬ReachesTie successfulRequests sampleSize := by
  cases document with
  | dict items =>
    obtain ⟨r₀, hr₀⟩ := hvalid
    obtain ⟨n, s, hchecked, -⟩ := validateStats_eq_ok.mp hr₀
    change StatsChecked (withRatio r₀ (.dict items)) status n s at hchecked
    -- the counts are those of the document
    have hget : ∀ (r k : Str), k ≠ lit "availability_ratio" →
        (withRatio r (.dict items)).get k = (Value.dict items).get k := by
      intro r k hk
      rw [withRatio, Value.get_setItem, if_neg hk]
    have hn : n = sampleSize := by
      have h := hchecked.sample
      rw [statsInteger_of_get ((hget r₀ _ (by decide)).trans hsample)] at h
      exact (Except.ok.inj h).symm
    have hs : s = successfulRequests := by
      have h := hchecked.successful
      rw [statsInteger_of_get ((hget r₀ _ (by decide)).trans hsuccessful)] at h
      exact (Except.ok.inj h).symm
    subst hn hs
    obtain ⟨m, hm, hexact, haccepted⟩ :=
      exists_ratioAccepted_iff (by have := hchecked.enough; omega) hchecked.within
    have hpass : ∀ r, validateStats (withRatio r (.dict items)) status = .ok () ↔
        r = ratioText m := by
      intro r
      have hratio : (withRatio r (.dict items)).get (lit "availability_ratio") = .str r := by
        rw [withRatio, Value.get_setItem, if_pos rfl]
      rw [← haccepted, withRatio, validateStats_eq_ok, ← withRatio, hratio]
      constructor
      · rintro ⟨n', s', hchecked', hr⟩
        have hn' : n' = n := Except.ok.inj (hchecked'.sample.symm.trans hchecked.withRatio.sample)
        have hs' : s' = s :=
          Except.ok.inj (hchecked'.successful.symm.trans hchecked.withRatio.successful)
        exact hn' ▸ hs' ▸ hr
      · intro hr
        exact ⟨n, s, hchecked.withRatio, hr⟩
    simp only [hpass]
    rw [← hexact]
    constructor
    · intro h
      have hbound : halfUpMillionths s n ≤ 10 ^ 6 := by
        have hle := hchecked.within
        rw [halfUpMillionths]
        apply Nat.le_of_lt_succ
        rw [Nat.div_lt_iff_lt_mul (by have := hchecked.enough; omega)]
        have := hchecked.enough
        omega
      have htext := ofText?_ratioText hm
      rw [(h (ratioText m)).mp rfl, ofText?_ratioText hbound] at htext
      cases htext
      rfl
    · rintro rfl r
      rfl
  | mixedDict items =>
    obtain ⟨r, hr⟩ := hvalid
    cases hr
  | _ => cases hsample

/-! ### Two samples -/

/-- Statistics of a day. -/
def dayStats (successfulRequests sampleSize : ℕ) : Value :=
  .dict [(lit "evidence_kind", .str (lit "directory-observed")),
    (lit "window_started_at", .str (lit "2026-08-23T00:00:00Z")),
    (lit "window_ended_at", .str (lit "2026-08-24T00:00:00Z")),
    (lit "observed_at", .str (lit "2026-08-24T00:00:00Z")),
    (lit "sample_size", .int sampleSize), (lit "successful_requests", .int successfulRequests),
    (lit "bytes_served", .int 0), (lit "availability_ratio", .str (lit "0.000000")),
    (lit "latency_ms", .dict [(lit "p50", .str (lit "1")), (lit "p95", .str (lit "2"))])]

/-- Two thirds are 0.666667, and no other ratio is accepted. -/
theorem ratio_exact_two_thirds :
    ratioText (halfUpMillionths 20 30) = lit "0.666667" ∧
      ∀ r : Str, validateStats (withRatio r (dayStats 20 30)) (lit "observed") = .ok () ↔
        r = ratioText (halfUpMillionths 20 30) :=
  ⟨by decide +kernel, (ratio_exact_iff rfl rfl ⟨lit "0.666667", by decide +kernel⟩).mpr
    (not_reachesTie (by decide) (by decide) (by decide))⟩

/-- A ratio below 0.1234565 by 5e-30 is taken for 0.123457. -/
theorem ratio_rounded_twice :
    halfUpMillionths (246913 * 10 ^ 23 - 1) (2 * 10 ^ 29) = 123456 ∧
      validateStats (withRatio (lit "0.123456") (dayStats (246913 * 10 ^ 23 - 1) (2 * 10 ^ 29)))
        (lit "observed") ≠ .ok () ∧
      validateStats (withRatio (lit "0.123457") (dayStats (246913 * 10 ^ 23 - 1) (2 * 10 ^ 29)))
        (lit "observed") = .ok () := by
  have haccepted : (validateStats (withRatio (lit "0.123456")
      (dayStats (246913 * 10 ^ 23 - 1) (2 * 10 ^ 29))) (lit "observed")).isOk = false ∧
      (validateStats (withRatio (lit "0.123457") (dayStats (246913 * 10 ^ 23 - 1) (2 * 10 ^ 29)))
        (lit "observed")).isOk = true := by decide +kernel
  refine ⟨by decide +kernel, ?_, ?_⟩
  · intro h
    rw [h] at haccepted
    cases haccepted.1
  · obtain ⟨⟨⟩, h⟩ := Except.exists_of_isOk haccepted.2
    exact h

end OnceMesh.Discovery
