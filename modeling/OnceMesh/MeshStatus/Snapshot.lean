import Mathlib.Tactic.NormNum
import OnceMesh.ListRelations
import OnceMesh.MeshStatus

/-!
# Snapshots

The generator records what a probe returns as it is, while the validator bounds HTTP statuses and
response times, so one response out of bounds withholds the observations of all meshes
(`snapshotSound_iff`). A timeout that is not a number passes the bounds of the generator, too.
-/

namespace OnceMesh.MeshStatus

open Python Discovery DocumentValidation

/-! ### Observations -/

/-- The response of a probe is what the validator admits. -/
def InBounds (response : ℤ × ℤ) : Prop :=
  (100 ≤ response.1 ∧ response.1 ≤ 599) ∧ 0 ≤ response.2 ∧ response.2 ≤ 30000

theorem integerWithin_eq_ok {n k low high : ℤ} {message : String} :
    integerWithin (.int n) low high message = .ok k ↔ (low ≤ n ∧ n ≤ high) ∧ n = k := by
  simp only [integerWithin]
  split_ifs with h
  · simp [h]
  · simp [h, raiseValueError]

/-- A status is known. -/
def IsKnown (mesh : PublicMesh) : Prop := meshStatuses.lookup mesh.status = some ()

/-- An observation of a mesh is about it, so only its state is in question. -/
theorem checkObservation_observationOf {generatedAt : DateTime} {mesh : PublicMesh}
    {state detail : String} {checked responseTime httpStatus : Value} (hknown : IsKnown mesh)
    (hstate : statusStates.lookup (lit state) = some ()) :
    checkObservation generatedAt mesh
        (observationOf mesh state checked responseTime httpStatus detail) =
      checkState generatedAt mesh (.str (lit state)) checked responseTime httpStatus
        (.str (lit detail)) := by
  rw [IsKnown] at hknown
  simp [checkObservation, observationOf, exactKeys, Value.hasExactKeys, Value.lookupIn,
    Value.hashable, Value.eqStr, hknown, hstate, raiseIf]

/-- Of an active mesh that was probed before the snapshot, only the outcome is in question. -/
theorem checkState_of_active {generatedAt checkedAt : DateTime} {mesh : PublicMesh}
    {state checked responseTime httpStatus detail : Value} (hactive : isActive mesh = true)
    (hstate : state.eqStr (lit "not_checked") = false) (hchecked : checked.isNone = false)
    (hparsed : parseCanonicalUtc checked "status checked_at" = .ok checkedAt)
    (horder : checkedAt ≤ generatedAt) :
    checkState generatedAt mesh state checked responseTime httpStatus detail =
      checkOutcome state responseTime httpStatus detail := by
  have hnew : ¬generatedAt < checkedAt := not_lt.mpr horder
  simp [checkState, hactive, hstate, hchecked, hparsed, hnew, raiseIf]

/-- What the generator records about a mesh passes exactly when the response is within bounds. -/
theorem checkObservation_observation {mesh : PublicMesh} {timeoutSeconds : PyFloat}
    {probe : StatusProbe} {startedAt finishedAt : DateTime} (hknown : IsKnown mesh)
    (hclock : startedAt ≤ finishedAt) :
    checkObservation (wholeSecond finishedAt) mesh
        (observation (formatCanonicalUtc startedAt) timeoutSeconds probe mesh) = .ok () ↔
      (isActive mesh = true → ∀ response, probe (target mesh) timeoutSeconds = .ok response →
        InBounds response) := by
  have hparsed := parseCanonicalUtc_formatCanonicalUtc startedAt "status checked_at"
  have horder := wholeSecond_le_wholeSecond hclock
  generalize formatCanonicalUtc startedAt = checkedAt at hparsed ⊢
  rw [observation]
  cases hactive : isActive mesh with
  | false =>
    rw [if_pos (by simp), checkObservation_observationOf hknown (by decide)]
    simp [checkState, Value.eqStr, Value.isNone, hactive]
  | true =>
    rw [if_neg (by simp)]
    cases hprobe : probe (target mesh) timeoutSeconds with
    | error e =>
      dsimp only
      rw [checkObservation_observationOf hknown (by decide),
        checkState_of_active hactive (by decide) rfl hparsed horder]
      simp [checkOutcome, Value.eqStr, Value.isNone]
    | ok response =>
      -- the two states differ in the table of the validator as they do in that of the generator
      have hboth : (InBounds response) ↔ (0 ≤ response.2 ∧ response.2 ≤ 30000) ∧
          100 ≤ response.1 ∧ response.1 ≤ 599 := and_comm
      obtain ⟨httpStatus, responseTimeMs⟩ := response
      dsimp only
      split_ifs with hexpected
      · rw [checkObservation_observationOf hknown (by decide),
          checkState_of_active hactive (by decide) rfl hparsed horder]
        simp [checkOutcome, Value.eqStr, Except.bind_eq_ok, integerWithin_eq_ok, hboth, hexpected]
      · rw [checkObservation_observationOf hknown (by decide),
          checkState_of_active hactive (by decide) rfl hparsed horder]
        simp [checkOutcome, Value.eqStr, Except.bind_eq_ok, integerWithin_eq_ok, hboth, hexpected]

/-- The observation of a mesh depends on the answer for this mesh only. -/
theorem observation_congr {checkedAt : Str} {timeoutSeconds : PyFloat} {probe probe' : StatusProbe}
    {mesh : PublicMesh}
    (h : probe' (target mesh) timeoutSeconds = probe (target mesh) timeoutSeconds) :
    observation checkedAt timeoutSeconds probe' mesh =
      observation checkedAt timeoutSeconds probe mesh := by
  rw [observation, observation, h]

/-- An observation names its mesh. -/
theorem observation_peerId (checkedAt : Str) (timeoutSeconds : PyFloat) (probe : StatusProbe)
    (mesh : PublicMesh) :
    (observation checkedAt timeoutSeconds probe mesh).get (lit "peer_id") = .str mesh.peerId := by
  rw [observation]
  split_ifs
  · simp [observationOf]
  · split
    · simp [observationOf]
    · split_ifs <;> simp [observationOf]

/-! ### The monitor -/

/-- The timeouts that are accepted are those from 0.1 to 30 seconds, and what is not a number. -/
theorem timeout_of_check {monitor : Monitor} (h : monitor.check = .ok ()) :
    monitor.timeoutSeconds = .nan ∨ ∃ mantissa exponent,
      monitor.timeoutSeconds = .finite false mantissa exponent ∧
      1 / 10 ≤ PyFloat.ratio false mantissa exponent ∧
      PyFloat.ratio false mantissa exponent ≤ 30 := by
  rw [Monitor.check, Except.check_eq_ok, raiseIf_eq_ok, Bool.or_eq_false_iff] at h
  obtain ⟨⟨hlow, hhigh⟩, -⟩ := h
  have htenth : PyFloat.ofDecimal false 1 (-1) = .finite false 7205759403792794 (-56) := by
    decide +kernel
  have hthirty : PyFloat.ofDecimal false 30 0 = .finite false 8444249301319680 (-48) := by
    decide +kernel
  rw [htenth] at hlow
  rw [hthirty] at hhigh
  cases htimeout : monitor.timeoutSeconds with
  | nan => exact Or.inl rfl
  | infinity negative =>
    rw [htimeout] at hlow hhigh
    cases negative <;> simp [PyFloat.lt] at hlow hhigh
  | finite negative mantissa exponent =>
    rw [htimeout] at hlow hhigh
    simp only [PyFloat.lt, decide_eq_false_iff_not, not_lt] at hlow hhigh
    have hlow' : 1 / 10 ≤ PyFloat.ratio negative mantissa exponent := by
      refine le_trans ?_ hlow
      norm_num [PyFloat.ratio]
    have hhigh' : PyFloat.ratio negative mantissa exponent ≤ 30 := by
      refine le_trans hhigh ?_
      norm_num [PyFloat.ratio]
    have hpositive := PyFloat.eq_false_of_ratio_pos (lt_of_lt_of_le (by norm_num) hlow')
    subst hpositive
    exact Or.inr ⟨mantissa, exponent, rfl, hlow', hhigh'⟩

/-- The timeout in milliseconds of an accepted timeout that is a number. -/
theorem exists_timeoutMs {monitor : Monitor} (h : monitor.check = .ok ())
    (hnumber : monitor.timeoutSeconds ≠ .nan) :
    ∃ timeoutMs : ℤ, (monitor.timeoutSeconds.mulNat 1000).round = .ok timeoutMs ∧
      100 ≤ timeoutMs ∧ timeoutMs ≤ 30000 := by
  obtain hnan | ⟨mantissa, exponent, htimeout, hlow, hhigh⟩ := timeout_of_check h
  · exact absurd hnan hnumber
  · rw [htimeout]
    refine @PyFloat.round_mulNat mantissa 1000 100 30000 exponent ?_ ?_ (by norm_num)
    · push_cast
      linarith
    · push_cast
      linarith

/-- The `monitor` field passes with accepted parameters. -/
theorem checkMonitor_document {monitor : Monitor} (h : monitor.check = .ok ()) {timeoutMs : ℤ}
    (hlow : 100 ≤ timeoutMs) (hhigh : timeoutMs ≤ 30000) :
    checkMonitor (monitor.document timeoutMs) = .ok () := by
  obtain ⟨-, h⟩ := Except.check_eq_ok.mp h
  obtain ⟨hschedule, h⟩ := Except.check_eq_ok.mp h
  obtain ⟨-, hregion⟩ := Except.check_eq_ok.mp h
  simp only [raiseIf_eq_ok, Bool.or_eq_false_iff, decide_eq_false_iff_not,
    not_lt] at hschedule hregion
  simp [checkMonitor, Monitor.document, exactKeys, Value.hasExactKeys, Value.eqStr, integerWithin,
    raiseIf, hschedule, hregion, hlow, hhigh]

/-! ### Snapshots -/

/-- The loop passes when every observation does. -/
theorem checkObservations_map {generatedAt : DateTime} {meshes : List PublicMesh}
    {observe : PublicMesh → Value} :
    checkObservations generatedAt meshes (meshes.map observe) = .ok () ↔
      ∀ mesh ∈ meshes, checkObservation generatedAt mesh (observe mesh) = .ok () := by
  induction meshes with
  | nil => simp [checkObservations]
  | cons mesh meshes ih =>
    rw [List.map_cons, checkObservations, Except.check_eq_ok, ih, List.forall_mem_cons]

theorem isKnown_of_requireStatus {value : Value} {status : Str}
    (h : requireStatus value = .ok status) : meshStatuses.lookup status = some () := by
  obtain ⟨found, hfound, h⟩ := Except.bind_eq_ok.mp h
  obtain ⟨hknown, h⟩ := Except.check_eq_ok.mp h
  rw [raiseIf_eq_ok, Option.isNone_eq_false_iff, Option.isSome_iff_exists] at hknown
  obtain ⟨⟨⟩, rfl⟩ := hknown
  cases value with
  | str s =>
    cases h
    exact Except.ok.inj hfound
  | _ => cases h

section

variable [Sha256] [UnicodeTables]

theorem isKnown_of_validateMesh {value : Value} {mesh : PublicMesh}
    (h : validateMesh value = .ok mesh) : IsKnown mesh := by
  simp only [validateMesh, Except.bind_eq_ok] at h
  obtain ⟨_, -, _, -, _, -, _, -, _, -, _, -, _, -, _, -, _, -, status, hstatus, h⟩ := h
  obtain ⟨_, -, _, -, _, -, _, -, _, -, _, -, _, -, _, -, _, -, _, -, h⟩ := h
  cases h
  exact isKnown_of_requireStatus hstatus

theorem isKnown_of_validatePublicMeshDirectory {directory : Value} {meshes : List PublicMesh}
    (h : validatePublicMeshDirectory directory = .ok meshes) {mesh : PublicMesh}
    (hmesh : mesh ∈ meshes) : IsKnown mesh := by
  simp only [validatePublicMeshDirectory, Except.bind_eq_ok] at h
  obtain ⟨_, -, _, -, _, -, _, -, _, -, _, -, _, -, items, -, meshes', hmeshes, h⟩ := h
  obtain ⟨_, -, _, -, _, -, h⟩ := h
  cases h
  obtain ⟨item, -, hitem⟩ := exists_of_forall₂_right (Except.mapM_eq_ok.mp hmeshes) hmesh
  exact isKnown_of_validateMesh hitem

/-- The run returns a valid snapshot that has one observation a mesh, in the order of the
directory; what it says about a mesh is the same for every probe that answers for this mesh as
this one does. -/
def SnapshotSound (directory : Value) (meshes : List PublicMesh) (monitor : Monitor)
    (probe : StatusProbe) (startedAt finishedAt : DateTime) : Prop :=
  ∃ snapshot observations,
    generatePublicMeshStatus directory monitor probe startedAt finishedAt = .ok snapshot ∧
    validatePublicMeshStatus snapshot directory = .ok () ∧
    snapshot.get (lit "meshes") = .list observations ∧
    List.Forall₂ (fun mesh item => item.get (lit "peer_id") = .str mesh.peerId ∧
      ∀ probe' : StatusProbe,
        probe' (target mesh) monitor.timeoutSeconds = probe (target mesh) monitor.timeoutSeconds →
        item = observation (formatCanonicalUtc startedAt) monitor.timeoutSeconds probe' mesh)
      meshes observations

/-- No response of an active mesh is out of bounds. -/
def ResponsesInBounds (meshes : List PublicMesh) (timeoutSeconds : PyFloat) (probe : StatusProbe) :
    Prop :=
  ∀ mesh ∈ meshes, isActive mesh = true → ∀ response,
    probe (target mesh) timeoutSeconds = .ok response → InBounds response

/-- A snapshot of the directory passes when its monitor and its observations do. -/
theorem validatePublicMeshStatus_snapshotOf {directory monitor : Value} {meshes : List PublicMesh}
    {generatedAt : Str} {parsed : DateTime} {observe : PublicMesh → Value}
    (hdirectory : validatePublicMeshDirectory directory = .ok meshes)
    (hparsed : parseCanonicalUtc (.str generatedAt) "status generated_at" = .ok parsed)
    (hmonitor : checkMonitor monitor = .ok ()) :
    validatePublicMeshStatus (snapshotOf generatedAt monitor (meshes.map observe)) directory =
      checkObservations parsed meshes (meshes.map observe) := by
  simp [validatePublicMeshStatus, snapshotOf, exactKeys, Value.hasExactKeys, Value.eqStr, raiseIf,
    hdirectory, hparsed, hmonitor]

/-- What the generator returns when the parameters are accepted. -/
theorem generatePublicMeshStatus_eq_ok {directory : Value} {meshes : List PublicMesh}
    {monitor : Monitor} {probe : StatusProbe} {startedAt finishedAt : DateTime} {snapshot : Value}
    (hdirectory : validatePublicMeshDirectory directory = .ok meshes)
    (hactive : (meshes.filter isActive).length ≤ 500) (hmonitor : monitor.check = .ok ())
    (hclock : startedAt ≤ finishedAt) :
    generatePublicMeshStatus directory monitor probe startedAt finishedAt = .ok snapshot ↔
      ResponsesInBounds meshes monitor.timeoutSeconds probe ∧ ∃ timeoutMs,
        (monitor.timeoutSeconds.mulNat 1000).round = .ok timeoutMs ∧
        snapshot = snapshotOf (formatCanonicalUtc finishedAt) (monitor.document timeoutMs)
          (meshes.map
            (observation (formatCanonicalUtc startedAt) monitor.timeoutSeconds probe)) := by
  have hpassed : ∀ timeoutMs, (monitor.timeoutSeconds.mulNat 1000).round = .ok timeoutMs →
      (validatePublicMeshStatus (snapshotOf (formatCanonicalUtc finishedAt)
          (monitor.document timeoutMs) (meshes.map
            (observation (formatCanonicalUtc startedAt) monitor.timeoutSeconds probe)))
          directory = .ok () ↔ ResponsesInBounds meshes monitor.timeoutSeconds probe) := by
    intro timeoutMs hround
    have hnumber : monitor.timeoutSeconds ≠ .nan := by
      intro hnan
      rw [hnan] at hround
      cases hround
    obtain ⟨timeoutMs', hround', hlow, hhigh⟩ := exists_timeoutMs hmonitor hnumber
    obtain rfl := Except.ok.inj (hround.symm.trans hround')
    rw [validatePublicMeshStatus_snapshotOf hdirectory
        (parseCanonicalUtc_formatCanonicalUtc finishedAt _)
        (checkMonitor_document hmonitor hlow hhigh),
      checkObservations_map]
    exact forall₂_congr fun mesh hmesh => checkObservation_observation
      (isKnown_of_validatePublicMeshDirectory hdirectory hmesh) hclock
  have hcount : raiseIf (500 < (meshes.filter isActive).length) "active mesh count exceeds 500" =
      .ok () := by
    rw [raiseIf_eq_ok]
    exact decide_eq_false (not_lt.mpr hactive)
  rw [generatePublicMeshStatus, hdirectory, Except.ok_bind, hcount, Except.ok_bind, hmonitor,
    Except.ok_bind, Except.bind_eq_ok]
  constructor
  · rintro ⟨timeoutMs, hround, h⟩
    obtain ⟨hvalid, h⟩ := Except.check_eq_ok.mp h
    exact ⟨(hpassed timeoutMs hround).mp hvalid, timeoutMs, hround, (Except.ok.inj h).symm⟩
  · rintro ⟨hbounds, timeoutMs, hround, rfl⟩
    exact ⟨timeoutMs, hround, Except.check_eq_ok.mpr ⟨(hpassed timeoutMs hround).mpr hbounds, rfl⟩⟩

/-- The generator has validated what it returns. -/
theorem validatePublicMeshStatus_of_generate {directory : Value} {monitor : Monitor}
    {probe : StatusProbe} {startedAt finishedAt : DateTime} {snapshot : Value}
    (h : generatePublicMeshStatus directory monitor probe startedAt finishedAt = .ok snapshot) :
    validatePublicMeshStatus snapshot directory = .ok () := by
  simp only [generatePublicMeshStatus, Except.bind_eq_ok] at h
  obtain ⟨meshes, -, _, -, _, -, timeoutMs, -, ⟨⟩, hvalid, h⟩ := h
  cases h
  exact hvalid

/-- Given a valid directory, accepted parameters, and a clock that does not run backwards, the
snapshot is sound exactly when the timeout is a number and all responses are within bounds. -/
theorem snapshotSound_iff {directory : Value} {meshes : List PublicMesh} {monitor : Monitor}
    {probe : StatusProbe} {startedAt finishedAt : DateTime}
    (hdirectory : validatePublicMeshDirectory directory = .ok meshes)
    (hactive : (meshes.filter isActive).length ≤ 500) (hmonitor : monitor.check = .ok ())
    (hclock : startedAt ≤ finishedAt) :
    SnapshotSound directory meshes monitor probe startedAt finishedAt ↔
      monitor.timeoutSeconds ≠ .nan ∧
        ResponsesInBounds meshes monitor.timeoutSeconds probe := by
  constructor
  · rintro ⟨snapshot, -, hgenerate, -⟩
    obtain ⟨hbounds, timeoutMs, hround, -⟩ :=
      (generatePublicMeshStatus_eq_ok hdirectory hactive hmonitor hclock).mp hgenerate
    refine ⟨?_, hbounds⟩
    intro hnan
    rw [hnan] at hround
    cases hround
  · rintro ⟨hnumber, hbounds⟩
    obtain ⟨timeoutMs, hround, -, -⟩ := exists_timeoutMs hmonitor hnumber
    have hgenerate := (generatePublicMeshStatus_eq_ok hdirectory hactive hmonitor hclock).mpr
      ⟨hbounds, timeoutMs, hround, rfl⟩
    refine ⟨_, meshes.map
        (observation (formatCanonicalUtc startedAt) monitor.timeoutSeconds probe),
      hgenerate, validatePublicMeshStatus_of_generate hgenerate, by simp [snapshotOf], ?_⟩
    rw [List.forall₂_map_right_iff, List.forall₂_same]
    exact fun mesh _ => ⟨observation_peerId _ _ _ mesh, fun probe' h => (observation_congr h).symm⟩

end

/-! ### A directory of two meshes -/

/-- An identity of a mesh, with a public key of zeros. -/
def exampleIdentity [Sha256] (peerId purpose : String) : Value :=
  .dict [(lit "spec_version", .str (lit "oncemesh.federation-identity/v0")),
    (lit "peer_id", .str (lit peerId)), (lit "purpose", .str (lit purpose)),
    (lit "profile", .str signatureProfile),
    (lit "key_id", .str (digestBytes (List.replicate 32 0))),
    (lit "public_key_base64url", .str (List.replicate 43 0x41))]

/-- A mesh as the directory lists it. -/
def exampleListing [Sha256] (peerId endpoint : String) : Value :=
  let url := Value.str (lit endpoint)
  let texts := Value.list [.str (lit "t")]
  let operator := Value.dict [(lit "name", .str (lit "n")), (lit "website", url)]
  let operation := Value.dict [(lit "name", .str (lit "n")), (lit "version", .str (lit "1")),
    (lit "output_schema", .str (lit "s"))]
  .dict [(lit "peer_id", .str (lit peerId)), (lit "display_name", .str (lit "n")),
    (lit "description", .str (lit "d")), (lit "operator", operator), (lit "endpoint", url),
    (lit "regions", texts), (lit "status", .str (lit "listed")), (lit "protocols", texts),
    (lit "operations", .list [operation]),
    (lit "availability_identity", exampleIdentity peerId "availability"),
    (lit "receipt_identities", .list [exampleIdentity peerId "receipt"]), (lit "stats", .none),
    (lit "submitted_at", .str (lit "2026-08-25T08:15:00Z"))]

/-- A directory that lists two meshes. -/
def exampleDirectory [Sha256] : Value :=
  let url := Value.str (lit "https://directory.example")
  .dict [(lit "spec_version", .str (lit "oncemesh.public-mesh-directory/v0")),
    (lit "generated_at", .str (lit "2026-08-25T08:15:00Z")),
    (lit "directory", .dict [(lit "name", .str (lit "n")), (lit "repository", url),
      (lit "policy_url", url)]),
    (lit "meshes", .list [exampleListing "m" "https://m.example",
      exampleListing "n" "https://n.example"])]

/-- The meshes of the directory. -/
def exampleMeshes : List PublicMesh :=
  [⟨lit "m", lit "https://m.example", lit "listed"⟩,
    ⟨lit "n", lit "https://n.example", lit "listed"⟩]

/-- The first mesh answers with a status, and the second one cannot be reached. -/
def exampleProbe (status : ℤ) : StatusProbe := fun url _ =>
  if url = lit "https://m.example/v0/availability" then .ok (status, 83) else .error .osError

/-- The parameters the monitor has by default. -/
def exampleMonitor : Monitor where
  timeoutSeconds := .ofDecimal false 5 0
  scheduleMinutes := 30
  runnerRegion := lit "github-hosted"
  concurrency := 8

section

attribute [local instance] Sha256.standard UnicodeTables.ascii

theorem validatePublicMeshDirectory_exampleDirectory :
    (validatePublicMeshDirectory exampleDirectory).toOption = some exampleMeshes := by
  decide +kernel

theorem check_exampleMonitor : exampleMonitor.check = .ok () := by decide +kernel

theorem eq_of_exampleProbe {status : ℤ} {url : Str} {timeoutSeconds : PyFloat} {response : ℤ × ℤ}
    (h : exampleProbe status url timeoutSeconds = .ok response) : response = (status, 83) := by
  unfold exampleProbe at h
  split_ifs at h
  exact (Except.ok.inj h).symm

/-- One mesh gives the expected response, and the other one cannot be reached. -/
theorem snapshotSound_iff_example :
    SnapshotSound exampleDirectory exampleMeshes exampleMonitor (exampleProbe 401)
      ⟨0, by decide⟩ ⟨0, by decide⟩ := by
  apply (snapshotSound_iff
    (Except.toOption_eq_some.mp validatePublicMeshDirectory_exampleDirectory) (by decide)
    check_exampleMonitor le_rfl).mpr
  refine ⟨by decide +kernel, ?_⟩
  intro mesh _ _ response h
  rw [eq_of_exampleProbe h]
  exact ⟨⟨by decide, by decide⟩, by decide, by decide⟩

/-- One mesh answers with the status 600, and there is no snapshot. -/
theorem not_snapshotSound :
    ¬∀ (_ : Sha256) (_ : UnicodeTables) (directory : Value) (meshes : List PublicMesh)
      (monitor : Monitor) (probe : StatusProbe) (startedAt finishedAt : DateTime),
      validatePublicMeshDirectory directory = .ok meshes →
      (meshes.filter isActive).length ≤ 500 → monitor.check = .ok () → startedAt ≤ finishedAt →
      (∀ url timeoutSeconds response, probe url timeoutSeconds = .ok response → 0 ≤ response.2) →
      SnapshotSound directory meshes monitor probe startedAt finishedAt := by
  intro h
  have hdirectory :=
    Except.toOption_eq_some.mp validatePublicMeshDirectory_exampleDirectory
  have hpositive : ∀ url timeoutSeconds response,
      exampleProbe 600 url timeoutSeconds = .ok response → 0 ≤ response.2 := by
    intro url timeoutSeconds response hresponse
    rw [eq_of_exampleProbe hresponse]
    decide
  obtain ⟨snapshot, -, hgenerate, -⟩ := h _ _ exampleDirectory exampleMeshes exampleMonitor
    (exampleProbe 600) ⟨0, by decide⟩ ⟨0, by decide⟩ hdirectory (by decide)
    check_exampleMonitor le_rfl hpositive
  obtain ⟨hbounds, -⟩ := (generatePublicMeshStatus_eq_ok hdirectory (by decide)
    check_exampleMonitor le_rfl).mp hgenerate
  have hbound := hbounds _ List.mem_cons_self (by decide) (600, 83) rfl
  exact absurd hbound.1.2 (by decide)

end

end OnceMesh.MeshStatus
