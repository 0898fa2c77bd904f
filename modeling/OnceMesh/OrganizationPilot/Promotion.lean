import Mathlib.Algebra.Order.BigOperators.Group.List
import OnceMesh.OrganizationPilot

/-!
# Promotion

A report that is externally reviewable says that all candidate hits have been compared. It compares
totals, and a record may have compared more hits than it has had, so that the records of another day
or operation can make up for hits that have not been compared (`noUncheckedPromotion_iff`).
-/

namespace OnceMesh.OrganizationPilot

open Python

/-! ### What promotes a pilot -/

/-- What identifies a record. -/
def DailyRecord.identity (record : DailyRecord) : Str × Str := (record.date, record.operation)

/-- A record belongs to a pilot. -/
structure DailyRecord.InPilot (config : PilotConfig) (record : DailyRecord) : Prop where
  pilotId : record.pilotId = config.pilotId
  operation : record.operation ∈ config.operations
  starts : config.startsOn ≤ record.day
  ends : record.day ≤ config.endsOn

/-- The rates and savings of some records meet the thresholds. -/
def MeetsRates (thresholds : Thresholds) (records : List DailyRecord) : Prop :=
  ∃ totals rates verifiedTimeSavedMs verifiedCostSaved, totalsOf records = .ok totals ∧
    ratesOf totals = .ok rates ∧ decimalOf totals.verifiedTimeSavedMs = .ok verifiedTimeSavedMs ∧
    decimalOf totals.verifiedCostSaved = .ok verifiedCostSaved ∧
    rates.errorRate ≤ thresholds.maximumErrorRate ∧
    thresholds.minimumCandidateHitRate ≤ rates.candidateHitRate ∧
    thresholds.minimumVerifiedTimeSavedMs ≤ verifiedTimeSavedMs ∧
    thresholds.minimumVerifiedCostSaved ≤ verifiedCostSaved ∧
    rates.meanLookupMs ≤ thresholds.maximumMeanLookupMs

/-- The documents are valid, belong together, and meet every threshold; the totals of candidate and
compared hits agree. -/
structure Promotable (document : Value) (documents : List Value) (config : PilotConfig)
    (records : List DailyRecord) : Prop where
  validConfig : validatePilotConfig document = .ok config
  validRecords : documents.mapM validateDailyRecord = .ok records
  nonempty : records ≠ []
  nodup : (records.map DailyRecord.identity).Nodup
  inPilot : ∀ record ∈ records, record.InPilot config
  inProfile : InProfile (evidence document records)
  real : config.environmentKind = lit "real"
  days : config.minimumObservedDays ≤ (observedDates records).length
  operations : (records.map DailyRecord.operation).toFinset = config.operations.toFinset
  evaluations : config.thresholds.minimumEvaluations ≤ (records.map DailyRecord.evaluations).sum
  mismatches : (records.map DailyRecord.mismatches).sum ≤ config.thresholds.maximumMismatches
  compared : (records.map DailyRecord.candidateHits).sum =
    (records.map DailyRecord.comparedHits).sum
  rates : MeetsRates config.thresholds records
  drills : config.thresholds.minimumKillSwitchDrills ≤
    (records.map DailyRecord.killSwitchDrills).sum

/-- The loop over the records passes those of the pilot that are about different days or
operations. -/
theorem checkRecords_eq_ok {config : PilotConfig} {records : List DailyRecord}
    {identities : List (Str × Str)} :
    checkRecords config identities records = .ok () ↔
      (records.map DailyRecord.identity).Nodup ∧
      (∀ record ∈ records, record.identity ∉ identities) ∧
      ∀ record ∈ records, record.InPilot config := by
  induction records generalizing identities with
  | nil => simp [checkRecords]
  | cons record rest ih =>
    have hpilot : record.InPilot config ↔ record.pilotId = config.pilotId ∧
        record.operation ∈ config.operations ∧
        (config.startsOn ≤ record.day ∧ record.day ≤ config.endsOn) :=
      ⟨fun h => ⟨h.pilotId, h.operation, h.starts, h.ends⟩, fun h => ⟨h.1, h.2.1, h.2.2.1, h.2.2.2⟩⟩
    simp only [checkRecords, Except.check_eq_ok, raiseIf_eq_ok, ih, decide_eq_false_iff_not,
      not_not, Bool.not_eq_false', Bool.and_eq_true, decide_eq_true_eq, List.map_cons,
      List.nodup_cons, List.forall_mem_cons, hpilot]
    simp only [List.mem_cons, not_or, List.mem_map, not_exists, not_and,
      ← DailyRecord.identity.eq_def]
    constructor
    · rintro ⟨hnew, hid, hoperation, hwindow, hnodup, hrest, hall⟩
      exact ⟨⟨fun r hr h => (hrest r hr).1 h, hnodup⟩, ⟨hnew, fun r hr => (hrest r hr).2⟩,
        ⟨hid, hoperation, hwindow⟩, hall⟩
    · rintro ⟨⟨hfirst, hnodup⟩, ⟨hnew, hrest⟩, ⟨hid, hoperation, hwindow⟩, hall⟩
      exact ⟨hnew, hid, hoperation, hwindow, hnodup, fun r hr => ⟨hfirst r hr, hrest r hr⟩, hall⟩

/-- The counters among the totals are sums. -/
theorem totalsOf_counters {records : List DailyRecord} {totals : Totals}
    (h : totalsOf records = .ok totals) :
    totals.evaluations = (records.map DailyRecord.evaluations).sum ∧
    totals.candidateHits = (records.map DailyRecord.candidateHits).sum ∧
    totals.comparedHits = (records.map DailyRecord.comparedHits).sum ∧
    totals.mismatches = (records.map DailyRecord.mismatches).sum ∧
    totals.killSwitchDrills = (records.map DailyRecord.killSwitchDrills).sum := by
  obtain ⟨_, -, h⟩ := Except.bind_eq_ok.mp h
  obtain ⟨_, -, h⟩ := Except.bind_eq_ok.mp h
  obtain ⟨_, -, h⟩ := Except.bind_eq_ok.mp h
  cases h
  exact ⟨rfl, rfl, rfl, rfl, rfl⟩

/-- All checks pass exactly when all thresholds are met. -/
theorem exists_checksOf_all {config : PilotConfig} {records : List DailyRecord} {totals : Totals}
    {rates : Rates} :
    (∃ checks, checksOf config records totals rates = .ok checks ∧ checks.all = true) ↔
      config.environmentKind = lit "real" ∧
      config.minimumObservedDays ≤ (observedDates records).length ∧
      (records.map DailyRecord.operation).toFinset = config.operations.toFinset ∧
      config.thresholds.minimumEvaluations ≤ totals.evaluations ∧
      totals.mismatches ≤ config.thresholds.maximumMismatches ∧
      totals.candidateHits = totals.comparedHits ∧
      config.thresholds.minimumKillSwitchDrills ≤ totals.killSwitchDrills ∧
      ∃ verifiedTimeSavedMs verifiedCostSaved,
        decimalOf totals.verifiedTimeSavedMs = .ok verifiedTimeSavedMs ∧
        decimalOf totals.verifiedCostSaved = .ok verifiedCostSaved ∧
        rates.errorRate ≤ config.thresholds.maximumErrorRate ∧
        config.thresholds.minimumCandidateHitRate ≤ rates.candidateHitRate ∧
        config.thresholds.minimumVerifiedTimeSavedMs ≤ verifiedTimeSavedMs ∧
        config.thresholds.minimumVerifiedCostSaved ≤ verifiedCostSaved ∧
        rates.meanLookupMs ≤ config.thresholds.maximumMeanLookupMs := by
  constructor
  · rintro ⟨checks, h, hall⟩
    obtain ⟨time, htime, h⟩ := Except.bind_eq_ok.mp h
    obtain ⟨cost, hcost, h⟩ := Except.bind_eq_ok.mp h
    cases h
    simp only [Checks.all, Bool.and_eq_true, decide_eq_true_eq] at hall
    obtain ⟨⟨⟨⟨⟨⟨⟨⟨⟨⟨⟨hreal, hdays⟩, hops⟩, hevals⟩, hmis⟩, hcompared⟩, herror⟩, hhit⟩, htimes⟩,
      hcosts⟩, hlookup⟩, hdrills⟩ := hall
    exact ⟨hreal, hdays, hops, hevals, hmis, hcompared, hdrills, time, cost, htime, hcost, herror,
      hhit, htimes, hcosts, hlookup⟩
  · rintro ⟨hreal, hdays, hops, hevals, hmis, hcompared, hdrills, time, cost, htime, hcost, herror,
      hhit, htimes, hcosts, hlookup⟩
    refine ⟨_, Except.bind_eq_ok.mpr ⟨time, htime, Except.bind_eq_ok.mpr ⟨cost, hcost, rfl⟩⟩, ?_⟩
    simp only [Checks.all, Bool.and_eq_true, decide_eq_true_eq]
    exact ⟨⟨⟨⟨⟨⟨⟨⟨⟨⟨⟨hreal, hdays⟩, hops⟩, hevals⟩, hmis⟩, hcompared⟩, herror⟩, hhit⟩, htimes⟩,
      hcosts⟩, hlookup⟩, hdrills⟩

/-- A report is externally reviewable exactly when its inputs are promotable. -/
theorem exists_reviewable_iff [Sha256] {document : Value} {documents : List Value} :
    (∃ report, pilotReport document documents = .ok report ∧ report.externallyReviewable = true) ↔
      ∃ config records, Promotable document documents config records := by
  constructor
  · rintro ⟨report, h, hreviewable⟩
    obtain ⟨config, hconfig, h⟩ := Except.bind_eq_ok.mp h
    obtain ⟨records, hrecords, h⟩ := Except.bind_eq_ok.mp h
    obtain ⟨hnonempty, h⟩ := Except.check_eq_ok.mp h
    obtain ⟨hloop, h⟩ := Except.check_eq_ok.mp h
    obtain ⟨totals, htotals, h⟩ := Except.bind_eq_ok.mp h
    obtain ⟨rates, hrates, h⟩ := Except.bind_eq_ok.mp h
    obtain ⟨checks, hchecks, h⟩ := Except.bind_eq_ok.mp h
    obtain ⟨digest, hdigest, h⟩ := Except.bind_eq_ok.mp h
    cases h
    obtain ⟨hnodup, -, hpilot⟩ := checkRecords_eq_ok.mp hloop
    obtain ⟨hevaluations, hcandidates, hcompared, hmismatches, hdrills⟩ := totalsOf_counters htotals
    obtain ⟨hreal, hdays, hops, hevals, hmis, hsame, hkill, time, cost, hmeets⟩ :=
      exists_checksOf_all.mp ⟨checks, hchecks, hreviewable⟩
    rw [raiseIf_eq_ok, decide_eq_false_iff_not] at hnonempty
    refine ⟨config, records, hconfig, hrecords, hnonempty, hnodup, hpilot,
      (objectDigest_eq_ok.mp hdigest).1, hreal, hdays, hops, hevaluations ▸ hevals,
      hmismatches ▸ hmis,
      hcandidates ▸ hcompared ▸ hsame, ⟨totals, rates, time, cost, htotals, hrates, hmeets⟩,
      hdrills ▸ hkill⟩
  · rintro ⟨config, records, h⟩
    obtain ⟨totals, rates, time, cost, htotals, hrates, hmeets⟩ := h.rates
    obtain ⟨hevaluations, hcandidates, hcompared, hmismatches, hdrills⟩ := totalsOf_counters htotals
    obtain ⟨checks, hchecks, hall⟩ := (@exists_checksOf_all config records totals rates).mpr
      ⟨h.real, h.days, h.operations, hevaluations ▸ h.evaluations, hmismatches ▸ h.mismatches,
        hcandidates.trans (h.compared.trans hcompared.symm), hdrills ▸ h.drills, time, cost, hmeets⟩
    have hloop : checkRecords config [] records = .ok () :=
      checkRecords_eq_ok.mpr ⟨h.nodup, fun _ _ => List.not_mem_nil, h.inPilot⟩
    have hdigest := objectDigest_eq_ok.mpr ⟨h.inProfile, rfl⟩
    refine ⟨reportOf config records totals rates checks (digestOf (evidence document records)),
      ?_, hall⟩
    unfold pilotReport
    simp only [h.validConfig, h.validRecords, h.nonempty, hloop, htotals, hrates, hchecks, hdigest,
      raiseIf, decide_false, Bool.false_eq_true, if_false, Except.ok_bind]
    rfl

/-! ### Unchecked hits -/

/-- A report that is externally reviewable has no record with hits that have not been compared, and
no more mismatches than the configuration permits. -/
def NoUncheckedPromotion [Sha256] (document : Value) (documents : List Value) : Prop :=
  ∀ report, pilotReport document documents = .ok report → report.externallyReviewable = true →
    ∃ config records, validatePilotConfig document = .ok config ∧
      documents.mapM validateDailyRecord = .ok records ∧
      (∀ record ∈ records, record.comparedHits = record.candidateHits) ∧
      (records.map DailyRecord.mismatches).sum ≤ config.thresholds.maximumMismatches

/-- Counters that are bounded one by one and agree in total agree one by one. -/
theorem eq_of_sum_eq {α : Type} {f g : α → ℕ} {l : List α} (hle : ∀ a ∈ l, f a ≤ g a)
    (hsum : (l.map g).sum = (l.map f).sum) : ∀ a ∈ l, f a = g a := by
  induction l with
  | nil => exact fun a ha => absurd ha List.not_mem_nil
  | cons a l ih =>
    rw [List.forall_mem_cons] at hle ⊢
    rw [List.map_cons, List.map_cons, List.sum_cons, List.sum_cons] at hsum
    have hrest : (l.map f).sum ≤ (l.map g).sum := List.sum_le_sum hle.2
    have hfirst := hle.1
    exact ⟨by omega, ih hle.2 (by omega)⟩

/-- No unchecked hit is promoted exactly when, among inputs that are promotable, no record has
compared more hits than it has had. -/
theorem noUncheckedPromotion_iff [Sha256] (document : Value) (documents : List Value) :
    NoUncheckedPromotion document documents ↔
      ∀ config records, Promotable document documents config records →
        ∀ record ∈ records, record.comparedHits ≤ record.candidateHits := by
  constructor
  · intro h config records hpromotable record hrecord
    obtain ⟨report, hreport, hreviewable⟩ :=
      exists_reviewable_iff.mpr ⟨config, records, hpromotable⟩
    obtain ⟨-, records', -, hrecords', hcompared, -⟩ := h report hreport hreviewable
    cases hrecords'.symm.trans hpromotable.validRecords
    exact (hcompared record hrecord).le
  · intro h report hreport hreviewable
    obtain ⟨config, records, hpromotable⟩ := exists_reviewable_iff.mp ⟨report, hreport, hreviewable⟩
    exact ⟨config, records, hpromotable.validConfig, hpromotable.validRecords,
      eq_of_sum_eq (h config records hpromotable) hpromotable.compared, hpromotable.mismatches⟩

/-! ### Two days -/

/-- A real pilot of one operation over two days, with the weakest thresholds. -/
def exampleConfig : Value :=
  .dict
    [(lit "spec_version", .str (lit "oncemesh.organization-pilot/v0")),
      (lit "pilot_id", .str (lit "pilot")),
      (lit "organization_id", .str (lit "organization")),
      (lit "environment_kind", .str (lit "real")),
      (lit "window", .dict
        [(lit "starts_on", .str (lit "2026-09-01")),
          (lit "ends_on", .str (lit "2026-09-02")),
          (lit "minimum_observed_days", .int 2)]),
      (lit "operations", .list [.str (lit "text")]),
      (lit "owners", .dict
        [(lit "workload", .str (lit "w")),
          (lit "security", .str (lit "s")),
          (lit "operations", .str (lit "o"))]),
      (lit "thresholds", .dict
        [(lit "minimum_evaluations", .int 1),
          (lit "maximum_mismatches", .int 0),
          (lit "maximum_error_rate", .str (lit "0")),
          (lit "minimum_candidate_hit_rate", .str (lit "0")),
          (lit "minimum_verified_time_saved_ms", .str (lit "0")),
          (lit "minimum_verified_cost_saved", .str (lit "0")),
          (lit "maximum_mean_lookup_ms", .str (lit "0")),
          (lit "minimum_kill_switch_drills", .int 0)])]

/-- The record of a day with two evaluations. -/
def exampleRecord (date : String) (candidateHits comparedHits : ℤ) : Value :=
  .dict
    [(lit "spec_version", .str (lit "oncemesh.organization-pilot-daily/v0")),
      (lit "pilot_id", .str (lit "pilot")),
      (lit "date", .str (lit date)),
      (lit "operation", .str (lit "text")),
      (lit "evaluations", .int 2),
      (lit "candidate_hits", .int candidateHits),
      (lit "compared_hits", .int comparedHits),
      (lit "mismatches", .int 0),
      (lit "substitutions", .int 0),
      (lit "errors", .int 0),
      (lit "lookup_duration_ms", .str (lit "0")),
      (lit "verified_time_saved_ms", .str (lit "0")),
      (lit "verified_cost_saved", .str (lit "0")),
      (lit "reusable_bytes", .int 0),
      (lit "kill_switch_drills", .int 0),
      (lit "evidence_digest", .str (lit "sha256:" ++ List.replicate 64 0x30))]

/-- One of the two hits of the first day has not been compared, and the second day makes up for
it. -/
theorem not_noUncheckedPromotion :
    ¬@NoUncheckedPromotion Sha256.standard exampleConfig
      [exampleRecord "2026-09-01" 2 1, exampleRecord "2026-09-02" 1 2] := by
  have hreviewable : ((@pilotReport Sha256.standard exampleConfig
      [exampleRecord "2026-09-01" 2 1, exampleRecord "2026-09-02" 1 2]).toOption.map
        PilotReport.externallyReviewable) = some true := by
    decide +kernel
  have hrecord : ((validateDailyRecord (exampleRecord "2026-09-01" 2 1)).toOption.map fun r =>
      (r.candidateHits, r.comparedHits)) = some (2, 1) := by
    decide +kernel
  intro h
  obtain ⟨report, hreport, htrue⟩ := Option.map_eq_some_iff.mp hreviewable
  obtain ⟨record, hfirst, hhits⟩ := Option.map_eq_some_iff.mp hrecord
  obtain ⟨-, records, -, hrecords, hcompared, -⟩ :=
    h report (Except.toOption_eq_some.mp hreport) htrue
  rw [List.mapM_cons, Except.toOption_eq_some.mp hfirst, Except.ok_bind] at hrecords
  obtain ⟨rest, -, hrest⟩ := Except.bind_eq_ok.mp hrecords
  cases hrest
  have hsame : record.comparedHits = record.candidateHits := hcompared record List.mem_cons_self
  simp only [Prod.mk.injEq] at hhits
  omega

end OnceMesh.OrganizationPilot
