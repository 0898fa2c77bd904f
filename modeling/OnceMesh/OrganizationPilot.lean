import OnceMesh.Canonical
import OnceMesh.Documents
import OnceMesh.Python.Datetime.Iso
import OnceMesh.Python.Decimal

/-!
# Organization pilots

A pilot has a configuration with thresholds and one record of counters for each day and operation.
`pilotReport` validates both, adds up the counters, and checks the totals against the thresholds.
-/

namespace OnceMesh.OrganizationPilot

open Python

/-! ### Fields -/

/-- `_exact`. -/
def requireExact (value : Value) (keys : List Str) (label : String) : Except PyError Unit :=
  if value.hasExactKeys keys then .ok ()
  else .error (.valueError (lit (label ++ " must contain exactly ")) [sortedTexts keys])

/-- `_text`. -/
def requireText (value : Value) (label : String) : Except PyError Str :=
  match value with
  | .str s =>
    if s = [] ∨ 0 ∈ s then raiseValueError (label ++ " must be a non-empty string") else .ok s
  | _ => raiseValueError (label ++ " must be a non-empty string")

/-- `_integer`. -/
def requireInteger (value : Value) (label : String) (minimum : ℕ) : Except PyError ℕ :=
  match value with
  | .int n =>
    if n < minimum then
      raiseValueError (label ++ " must be an integer of at least " ++ toString minimum)
    else .ok n.toNat
  | _ => raiseValueError (label ++ " must be an integer of at least " ++ toString minimum)

/-- `DECIMAL.fullmatch`. -/
def isDecimalText (text : Str) : Bool :=
  let rest := text.dropWhile isDigit
  text.takeWhile isDigit ≠ [] &&
    (rest = [] || rest.head? = some 0x2E && rest.tail ≠ [] && rest.tail.all isDigit)

/-- `_decimal`. -/
def requireDecimal (value : Value) (label : String) (maximum : Option Decimal) :
    Except PyError Decimal :=
  match value with
  | .str text =>
    match if isDecimalText text then Decimal.ofText? text else none with
    | some selected =>
      if maximum.any fun m => ¬selected ≤ m then
        raiseValueError (label ++ " is outside its permitted range")
      else .ok selected
    | none => raiseValueError (label ++ " must be a non-negative decimal string")
  | _ => raiseValueError (label ++ " must be a non-negative decimal string")

/-- `date.isoformat()` of a day, by its ordinal. -/
def isoDate (day : ℕ) : Str :=
  let date := Date.ofOrdinal day
  padded 4 date.year ++ lit "-" ++ padded 2 date.month ++ lit "-" ++ padded 2 date.day

/-- `_date`: the ordinal of the day. -/
def requireDate (value : Value) (label : String) : Except PyError ℕ :=
  match value with
  | .str text =>
    match parseIsoDate text with
    | some day =>
      if isoDate day = text then .ok day
      else raiseValueError (label ++ " must be an ISO 8601 calendar date")
    | none => raiseValueError (label ++ " must be an ISO 8601 calendar date")
  | _ => raiseValueError (label ++ " must be an ISO 8601 calendar date")

/-! ### Configurations -/

/-- The thresholds of a pilot. -/
structure Thresholds where
  minimumEvaluations : ℕ
  maximumMismatches : ℕ
  maximumErrorRate : Decimal
  minimumCandidateHitRate : Decimal
  minimumVerifiedTimeSavedMs : Decimal
  minimumVerifiedCostSaved : Decimal
  maximumMeanLookupMs : Decimal
  minimumKillSwitchDrills : ℕ

/-- A valid configuration; days are ordinals. -/
structure PilotConfig where
  pilotId : Str
  organizationId : Str
  environmentKind : Str
  startsOn : ℕ
  endsOn : ℕ
  minimumObservedDays : ℕ
  operations : List Str
  thresholds : Thresholds

/-- The thresholds of `validate_pilot_config`. -/
def validateThresholds (thresholds : Value) : Except PyError Thresholds := do
  requireExact thresholds
    [lit "minimum_evaluations", lit "maximum_mismatches", lit "maximum_error_rate",
      lit "minimum_candidate_hit_rate", lit "minimum_verified_time_saved_ms",
      lit "minimum_verified_cost_saved", lit "maximum_mean_lookup_ms",
      lit "minimum_kill_switch_drills"] "thresholds"
  let minimumEvaluations ←
    requireInteger (thresholds.get (lit "minimum_evaluations")) "minimum_evaluations" 1
  let maximumMismatches ←
    requireInteger (thresholds.get (lit "maximum_mismatches")) "maximum_mismatches" 0
  let maximumErrorRate ← requireDecimal (thresholds.get (lit "maximum_error_rate"))
    "maximum_error_rate" (some (.ofNat 1))
  let minimumCandidateHitRate ← requireDecimal (thresholds.get (lit "minimum_candidate_hit_rate"))
    "minimum_candidate_hit_rate" (some (.ofNat 1))
  let minimumVerifiedTimeSavedMs ←
    requireDecimal (thresholds.get (lit "minimum_verified_time_saved_ms"))
      "minimum_verified_time_saved_ms" none
  let minimumVerifiedCostSaved ← requireDecimal (thresholds.get (lit "minimum_verified_cost_saved"))
    "minimum_verified_cost_saved" none
  let maximumMeanLookupMs ← requireDecimal (thresholds.get (lit "maximum_mean_lookup_ms"))
    "maximum_mean_lookup_ms" none
  let minimumKillSwitchDrills ←
    requireInteger (thresholds.get (lit "minimum_kill_switch_drills"))
      "minimum_kill_switch_drills" 0
  pure
    { minimumEvaluations, maximumMismatches, maximumErrorRate, minimumCandidateHitRate,
      minimumVerifiedTimeSavedMs, minimumVerifiedCostSaved, maximumMeanLookupMs,
      minimumKillSwitchDrills }

/-- A non-empty array. -/
def requireOperations (value : Value) : Except PyError (List Value) :=
  match value with
  | .list (item :: items) => .ok (item :: items)
  | _ => raiseValueError "operations must be a non-empty array"

/-- `validate_pilot_config`. -/
def validatePilotConfig (config : Value) : Except PyError PilotConfig := do
  requireExact config
    [lit "spec_version", lit "pilot_id", lit "organization_id", lit "environment_kind",
      lit "window", lit "operations", lit "owners", lit "thresholds"] "pilot config"
  raiseIf (!(config.get (lit "spec_version")).eqStr (lit "oncemesh.organization-pilot/v0"))
    "unsupported organization pilot spec_version"
  let pilotId ← requireText (config.get (lit "pilot_id")) "pilot_id"
  let organizationId ← requireText (config.get (lit "organization_id")) "organization_id"
  let environmentKind := if (config.get (lit "environment_kind")).eqStr (lit "real")
    then lit "real" else lit "synthetic"
  raiseIf (!(config.get (lit "environment_kind")).eqStr environmentKind)
    "environment_kind must be real or synthetic"
  let window := config.get (lit "window")
  requireExact window [lit "starts_on", lit "ends_on", lit "minimum_observed_days"] "window"
  let startsOn ← requireDate (window.get (lit "starts_on")) "starts_on"
  let endsOn ← requireDate (window.get (lit "ends_on")) "ends_on"
  let minimumObservedDays ←
    requireInteger (window.get (lit "minimum_observed_days")) "minimum_observed_days" 1
  raiseIf (endsOn < startsOn || endsOn - startsOn + 1 < minimumObservedDays)
    "pilot window cannot satisfy minimum_observed_days"
  let items ← requireOperations (config.get (lit "operations"))
  let operations ← items.mapM fun item => requireText item "operation"
  raiseIf (¬operations.Nodup) "operations must be unique"
  let owners := config.get (lit "owners")
  requireExact owners [lit "workload", lit "security", lit "operations"] "owners"
  let ownerOperations ← requireText (owners.get (lit "operations")) "operations owner"
  let ownerSecurity ← requireText (owners.get (lit "security")) "security owner"
  let ownerWorkload ← requireText (owners.get (lit "workload")) "workload owner"
  raiseIf (¬[ownerOperations, ownerSecurity, ownerWorkload].Nodup)
    "owner role identifiers must be distinct"
  let thresholds ← validateThresholds (config.get (lit "thresholds"))
  pure
    { pilotId, organizationId, environmentKind, startsOn, endsOn, minimumObservedDays, operations,
      thresholds }

/-! ### Daily records -/

/-- A valid daily record. -/
structure DailyRecord where
  pilotId : Str
  date : Str
  /-- The ordinal of the date. -/
  day : ℕ
  operation : Str
  evaluations : ℕ
  candidateHits : ℕ
  comparedHits : ℕ
  mismatches : ℕ
  substitutions : ℕ
  errors : ℕ
  lookupDurationMs : Decimal
  verifiedTimeSavedMs : Decimal
  verifiedCostSaved : Decimal
  reusableBytes : ℕ
  killSwitchDrills : ℕ
  evidenceDigest : Str

/-- The text of a string. -/
def textOf (value : Value) : Str :=
  match value with
  | .str s => s
  | _ => []

/-- `validate_daily_record`. -/
def validateDailyRecord (record : Value) : Except PyError DailyRecord := do
  requireExact record
    [lit "spec_version", lit "pilot_id", lit "date", lit "operation", lit "evaluations",
      lit "candidate_hits", lit "compared_hits", lit "mismatches", lit "substitutions",
      lit "errors", lit "lookup_duration_ms", lit "verified_time_saved_ms",
      lit "verified_cost_saved", lit "reusable_bytes", lit "kill_switch_drills",
      lit "evidence_digest"] "daily record"
  raiseIf (!(record.get (lit "spec_version")).eqStr (lit "oncemesh.organization-pilot-daily/v0"))
    "unsupported daily record spec_version"
  let pilotId ← requireText (record.get (lit "pilot_id")) "pilot_id"
  let day ← requireDate (record.get (lit "date")) "date"
  let operation ← requireText (record.get (lit "operation")) "operation"
  let evaluations ← requireInteger (record.get (lit "evaluations")) "evaluations" 0
  let candidateHits ← requireInteger (record.get (lit "candidate_hits")) "candidate_hits" 0
  let comparedHits ← requireInteger (record.get (lit "compared_hits")) "compared_hits" 0
  let mismatches ← requireInteger (record.get (lit "mismatches")) "mismatches" 0
  let substitutions ← requireInteger (record.get (lit "substitutions")) "substitutions" 0
  let errors ← requireInteger (record.get (lit "errors")) "errors" 0
  let reusableBytes ← requireInteger (record.get (lit "reusable_bytes")) "reusable_bytes" 0
  let killSwitchDrills ← requireInteger (record.get (lit "kill_switch_drills"))
    "kill_switch_drills" 0
  let lookupDurationMs ←
    requireDecimal (record.get (lit "lookup_duration_ms")) "lookup_duration_ms" none
  let verifiedTimeSavedMs ←
    requireDecimal (record.get (lit "verified_time_saved_ms")) "verified_time_saved_ms" none
  let verifiedCostSaved ←
    requireDecimal (record.get (lit "verified_cost_saved")) "verified_cost_saved" none
  let evidenceDigest ←
    requireDigest (record.get (lit "evidence_digest")) "evidence_digest must be a SHA-256 digest"
  raiseIf (evaluations < candidateHits) "candidate_hits cannot exceed evaluations"
  raiseIf (evaluations < comparedHits) "compared_hits cannot exceed evaluations"
  raiseIf (evaluations < mismatches) "mismatches cannot exceed evaluations"
  raiseIf (evaluations < substitutions) "substitutions cannot exceed evaluations"
  raiseIf (evaluations < errors) "errors cannot exceed evaluations"
  raiseIf (comparedHits < mismatches) "mismatches cannot exceed compared_hits"
  pure
    { pilotId, date := textOf (record.get (lit "date")), day, operation, evaluations, candidateHits,
      comparedHits, mismatches, substitutions, errors, lookupDurationMs, verifiedTimeSavedMs,
      verifiedCostSaved, reusableBytes, killSwitchDrills, evidenceDigest }

/-! ### Reports -/

/-- The totals of a report. -/
structure Totals where
  evaluations : ℕ
  candidateHits : ℕ
  comparedHits : ℕ
  mismatches : ℕ
  substitutions : ℕ
  errors : ℕ
  lookupDurationMs : Str
  verifiedTimeSavedMs : Str
  verifiedCostSaved : Str
  reusableBytes : ℕ
  killSwitchDrills : ℕ

/-- The rates of a report. -/
structure Rates where
  candidateHitRate : Decimal
  errorRate : Decimal
  meanLookupMs : Decimal

/-- The checks of a report. -/
structure Checks where
  realEnvironment : Bool
  minimumObservedDays : Bool
  allOperationsObserved : Bool
  minimumEvaluations : Bool
  maximumMismatches : Bool
  allCandidateHitsCompared : Bool
  maximumErrorRate : Bool
  minimumCandidateHitRate : Bool
  minimumVerifiedTimeSavedMs : Bool
  minimumVerifiedCostSaved : Bool
  maximumMeanLookupMs : Bool
  minimumKillSwitchDrills : Bool

/-- `all(checks.values())`. -/
def Checks.all (c : Checks) : Bool :=
  c.realEnvironment && c.minimumObservedDays && c.allOperationsObserved && c.minimumEvaluations &&
    c.maximumMismatches && c.allCandidateHitsCompared && c.maximumErrorRate &&
    c.minimumCandidateHitRate && c.minimumVerifiedTimeSavedMs && c.minimumVerifiedCostSaved &&
    c.maximumMeanLookupMs && c.minimumKillSwitchDrills

/-- A pilot report. -/
structure PilotReport where
  pilotId : Str
  organizationId : Str
  environmentKind : Str
  observedDates : List Str
  recordCount : ℕ
  totals : Totals
  candidateHitRate : Str
  errorRate : Str
  meanLookupMs : Str
  checks : Checks
  evidenceDigest : Str
  externallyReviewable : Bool

/-- The loop over the records; `identities` are the dates and operations so far. -/
def checkRecords (config : PilotConfig) (identities : List (Str × Str)) :
    List DailyRecord → Except PyError Unit
  | [] => .ok ()
  | record :: rest => do
    raiseIf ((record.date, record.operation) ∈ identities)
      "daily records contain a duplicate date and operation"
    raiseIf (record.pilotId ≠ config.pilotId) "daily record pilot_id does not match config"
    raiseIf (record.operation ∉ config.operations) "daily record contains an unconfigured operation"
    raiseIf (!(config.startsOn ≤ record.day && record.day ≤ config.endsOn))
      "daily record falls outside the pilot window"
    checkRecords config ((record.date, record.operation) :: identities) rest

/-- The totals of some records. -/
def totalsOf (records : List DailyRecord) : Except PyError Totals := do
  let lookupDurationMs ← Decimal.sum (records.map DailyRecord.lookupDurationMs)
  let verifiedTimeSavedMs ← Decimal.sum (records.map DailyRecord.verifiedTimeSavedMs)
  let verifiedCostSaved ← Decimal.sum (records.map DailyRecord.verifiedCostSaved)
  pure
    { evaluations := (records.map DailyRecord.evaluations).sum
      candidateHits := (records.map DailyRecord.candidateHits).sum
      comparedHits := (records.map DailyRecord.comparedHits).sum
      mismatches := (records.map DailyRecord.mismatches).sum
      substitutions := (records.map DailyRecord.substitutions).sum
      errors := (records.map DailyRecord.errors).sum
      lookupDurationMs := lookupDurationMs.toFixed
      verifiedTimeSavedMs := verifiedTimeSavedMs.toFixed
      verifiedCostSaved := verifiedCostSaved.toText
      reusableBytes := (records.map DailyRecord.reusableBytes).sum
      killSwitchDrills := (records.map DailyRecord.killSwitchDrills).sum }

/-- `Decimal(text)` of a text that is one. -/
def decimalOf (text : Str) : Except PyError Decimal :=
  match Decimal.ofText? text with
  | some d => .ok d
  | none => .error (.other (lit "InvalidOperation") (lit "ConversionSyntax"))

/-- `d / evaluations if evaluations else Decimal(0)`. -/
def rateOf (d : Decimal) (evaluations : ℕ) : Except PyError Decimal :=
  if evaluations = 0 then .ok (.ofNat 0) else d.div evaluations

/-- The rates of some totals. -/
def ratesOf (totals : Totals) : Except PyError Rates := do
  let candidateHitRate ← rateOf (.ofNat totals.candidateHits) totals.evaluations
  let errorRate ← rateOf (.ofNat totals.errors) totals.evaluations
  let meanLookupMs ← if totals.evaluations = 0 then .ok (.ofNat 0)
    else decimalOf totals.lookupDurationMs >>= fun d => d.div totals.evaluations
  pure { candidateHitRate, errorRate, meanLookupMs }

/-- `sorted({item["date"] for item in selected})`. -/
def observedDates (records : List DailyRecord) : List Str :=
  sortedTexts (records.map DailyRecord.date).dedup

/-- The checks of a pilot. -/
def checksOf (config : PilotConfig) (records : List DailyRecord) (totals : Totals) (rates : Rates) :
    Except PyError Checks := do
  let thresholds := config.thresholds
  let verifiedTimeSavedMs ← decimalOf totals.verifiedTimeSavedMs
  let verifiedCostSaved ← decimalOf totals.verifiedCostSaved
  pure
    { realEnvironment := config.environmentKind = lit "real"
      minimumObservedDays := config.minimumObservedDays ≤ (observedDates records).length
      allOperationsObserved :=
        (records.map DailyRecord.operation).toFinset = config.operations.toFinset
      minimumEvaluations := thresholds.minimumEvaluations ≤ totals.evaluations
      maximumMismatches := totals.mismatches ≤ thresholds.maximumMismatches
      allCandidateHitsCompared := totals.candidateHits = totals.comparedHits
      maximumErrorRate := rates.errorRate ≤ thresholds.maximumErrorRate
      minimumCandidateHitRate := thresholds.minimumCandidateHitRate ≤ rates.candidateHitRate
      minimumVerifiedTimeSavedMs := thresholds.minimumVerifiedTimeSavedMs ≤ verifiedTimeSavedMs
      minimumVerifiedCostSaved := thresholds.minimumVerifiedCostSaved ≤ verifiedCostSaved
      maximumMeanLookupMs := rates.meanLookupMs ≤ thresholds.maximumMeanLookupMs
      minimumKillSwitchDrills := thresholds.minimumKillSwitchDrills ≤ totals.killSwitchDrills }

/-- What the digest of the evidence is over. -/
def evidence (config : Value) (records : List DailyRecord) : Value :=
  .dict
    [(lit "config", config),
      (lit "daily_evidence_digests",
        .list ((sortedTexts (records.map DailyRecord.evidenceDigest)).map .str))]

/-- The report of a pilot. -/
def reportOf (config : PilotConfig) (records : List DailyRecord) (totals : Totals) (rates : Rates)
    (checks : Checks) (evidenceDigest : Str) : PilotReport where
  pilotId := config.pilotId
  organizationId := config.organizationId
  environmentKind := config.environmentKind
  observedDates := observedDates records
  recordCount := records.length
  totals := totals
  candidateHitRate := rates.candidateHitRate.toFixed
  errorRate := rates.errorRate.toFixed
  meanLookupMs := rates.meanLookupMs.toFixed
  checks := checks
  evidenceDigest := evidenceDigest
  externallyReviewable := checks.all

/-- `pilot_report`. -/
def pilotReport [Sha256] (config : Value) (records : List Value) : Except PyError PilotReport := do
  let c ← validatePilotConfig config
  let selected ← records.mapM validateDailyRecord
  raiseIf (selected = []) "at least one daily record is required"
  checkRecords c [] selected
  let totals ← totalsOf selected
  let rates ← ratesOf totals
  let checks ← checksOf c selected totals rates
  let evidenceDigest ← objectDigest (evidence config selected)
  pure (reportOf c selected totals rates checks evidenceDigest)

end OnceMesh.OrganizationPilot
