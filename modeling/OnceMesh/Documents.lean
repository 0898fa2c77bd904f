import OnceMesh.Canonical
import OnceMesh.Python.Datetime.Utc

/-!
# Documents

Actions, result manifests, source validations and invalidations are JSON objects. Each validator
makes the checks of the source in its order and answers with the fields the rest of the code reads,
so that a validated document is never taken apart again. `Manifest`, `SourceValidation` and
`Invalidation` are documents together with the proof that they validate.
-/

namespace OnceMesh

open Python

/-! ### Checks shared by the validators -/

/-- `sorted` of strings. -/
def sortedTexts (texts : List Str) : List Str := texts.insertionSort (· ≤ ·)

/-- `_require_exact_keys`. -/
def requireExactKeys (value : Value) (expected : List Str) (label : String) :
    Except PyError Unit :=
  match value with
  | .dict items =>
    let actual := items.map Prod.fst
    let missing := sortedTexts (expected.filter (· ∉ actual))
    let extra := sortedTexts (actual.filter (· ∉ expected))
    if missing = [] ∧ extra = [] then .ok ()
    else .error (.valueError (lit ("invalid " ++ label ++ " fields; missing=, extra="))
      [missing, extra])
  -- with a key that is not a string the keys differ, whatever the rest
  | .mixedDict _ => raiseValueError ("invalid " ++ label ++ " fields; missing=, extra=")
  | _ => raiseValueError (label ++ " must be an object")

/-- The keys are those that are expected. -/
theorem requireExactKeys_eq_ok {value : Value} {expected : List Str} {label : String} :
    requireExactKeys value expected label = .ok () ↔ value.hasExactKeys expected = true := by
  have hsorted : ∀ texts : List Str, sortedTexts texts = [] ↔ texts = [] := by
    intro texts
    have hperm : (sortedTexts texts).Perm texts := List.perm_insertionSort _ texts
    rw [← List.length_eq_zero_iff, hperm.length_eq, List.length_eq_zero_iff]
  cases value with
  | dict items =>
    simp only [requireExactKeys, Value.hasExactKeys, hsorted, List.filter_eq_nil_iff,
      decide_eq_true_eq, not_not, Bool.and_eq_true, List.all_eq_true, List.forall_mem_map]
    split_ifs with h
    · exact iff_of_true rfl h.symm
    · exact iff_of_false (by rintro ⟨⟩) fun h' => h h'.symm
  | _ => exact iff_of_false (by rintro ⟨⟩) Bool.false_ne_true

/-- `_require_nonempty_string`. -/
def requireNonemptyString (value : Value) (label : String) : Except PyError Str :=
  match value with
  | .str s =>
    if s = [] then raiseValueError (label ++ " must be a non-empty string") else .ok s
  | _ => raiseValueError (label ++ " must be a non-empty string")

/-- `isinstance(value, str) and DIGEST_PATTERN.fullmatch(value)`. -/
def requireDigest (value : Value) (message : String) : Except PyError Str :=
  match value with
  | .str s => if isDigest s then .ok s else raiseValueError message
  | _ => raiseValueError message

/-- `isinstance(value, list)`. -/
def requireList (value : Value) (message : String) : Except PyError (List Value) :=
  match value with
  | .list items => .ok items
  | _ => raiseValueError message

/-- `_parse_time` of `cache`. -/
def parseTime (text : Str) : Except PyError DateTime :=
  match fromUtcText text with
  | none => raiseValueError "Invalid isoformat string"
  | some parsed =>
    match parsed.offset with
    | none => raiseValueError "timestamps must contain a UTC offset"
    | some offset => utcOf parsed.localMicros offset

/-- `_format_time`. -/
def formatTime (t : DateTime) : Str := t.utcText

/-- A validated timestamp: its text, and the instant it denotes. -/
structure Timestamp where
  text : Str
  instant : DateTime
  matches_pattern : isUtcTimestampText text = true
  parseTime_eq : parseTime text = .ok instant

/-- The timestamp of a text that matches the pattern, if it is a valid datetime. -/
def Timestamp.ofText? (text : Str) (hpattern : isUtcTimestampText text = true) :
    Option Timestamp :=
  match h : fromUtcText text with
  | none => none
  | some parsed => some
    { text
      instant := ⟨parsed.localMicros, (utc_of_fromUtcText hpattern h).2⟩
      matches_pattern := hpattern
      parseTime_eq := by
        obtain ⟨hoffset, hrange⟩ := utc_of_fromUtcText hpattern h
        simp [parseTime, h, hoffset, utcOf, DateTime.ofMicros?, hrange] }

/-- `_require_utc_timestamp`. -/
def requireUtcTimestamp (value : Value) (label : String) : Except PyError Timestamp := do
  let text ← requireNonemptyString value label
  if h : isUtcTimestampText text = true then
    match Timestamp.ofText? text h with
    | some timestamp => pure timestamp
    | none => raiseValueError (label ++ " is not a valid timestamp")
  else raiseValueError (label ++ " must be an RFC 3339 UTC timestamp ending in Z")

/-- A validated timestamp has the text it was read from. -/
theorem text_of_requireUtcTimestamp {text : Str} {label : String} {timestamp : Timestamp}
    (h : requireUtcTimestamp (.str text) label = .ok timestamp) : timestamp.text = text := by
  obtain ⟨text', htext, h⟩ := Except.bind_eq_ok.mp h
  have hsame : text' = text := by
    rw [requireNonemptyString] at htext
    split_ifs at htext
    · cases htext
    · exact (Except.ok.inj htext).symm
  rw [hsame] at h
  split_ifs at h with hpattern
  · split at h
    next found hfound =>
      cases h
      unfold Timestamp.ofText? at hfound
      split at hfound
      · cases hfound
      · cases hfound
        rfl
    · cases h
  · cases h

/-- The text of an instant denotes it. -/
theorem Timestamp.instant_of_text {timestamp : Timestamp} {t : DateTime}
    (h : timestamp.text = formatTime t) : timestamp.instant = t := by
  have hparse := timestamp.parseTime_eq
  rw [h, parseTime, formatTime, fromUtcText_utcText] at hparse
  dsimp only at hparse
  rw [utcOf_micros] at hparse
  exact (Except.ok.inj hparse).symm

/-- `_require_utc_timestamp` unless the value is null. -/
def optionalTimestamp (value : Value) (label : String) : Except PyError (Option Timestamp) :=
  match value with
  | .none => .ok none
  | value => some <$> requireUtcTimestamp value label

/-- Null, or a non-empty string. -/
def requireOptionalText (value : Value) (label : String) : Except PyError (Option Str) :=
  match value with
  | .none => .ok none
  | .str s =>
    if s = [] then raiseValueError (label ++ " must be null or a non-empty string")
    else .ok (some s)
  | _ => raiseValueError (label ++ " must be null or a non-empty string")

/-! ### Actions -/

/-- `validate_action`. -/
def validateAction (action : Value) : Except PyError Unit := do
  requireExactKeys action
    [lit "spec_version", lit "operation", lit "inputs", lit "executor", lit "output_schema",
      lit "vary"] "action"
  raiseIf (!(action.get (lit "spec_version")).eqStr (lit "oncemesh.action/v0"))
    "unsupported action spec_version"
  let operation := action.get (lit "operation")
  requireExactKeys operation [lit "name", lit "version"] "operation"
  let _ ← requireNonemptyString (operation.get (lit "name")) "operation.name"
  let _ ← requireNonemptyString (operation.get (lit "version")) "operation.version"
  let executor := action.get (lit "executor")
  requireExactKeys executor [lit "name", lit "version", lit "config"] "executor"
  let _ ← requireNonemptyString (executor.get (lit "name")) "executor.name"
  let _ ← requireNonemptyString (executor.get (lit "version")) "executor.version"
  raiseIf (!(executor.get (lit "config")).isDict) "executor.config must be an object"
  raiseIf (!((action.get (lit "inputs")).isDict && (action.get (lit "vary")).isDict))
    "inputs and vary must be objects"
  let _ ← requireNonemptyString (action.get (lit "output_schema")) "output_schema"
  let _ ← canonicalJson action

/-! ### Result manifests -/

/-- An artifact descriptor. -/
structure ArtifactDescriptor where
  name : Str
  digest : Str
  size : ℕ
  mediaType : Str
  deriving DecidableEq

/-- A dependency of a derived result. -/
structure Dependency where
  name : Str
  resultDigest : Str
  deriving DecidableEq

/-- The fields of a result manifest; only version 1 has dependencies. -/
structure ManifestFields where
  actionDigest : Str
  artifacts : List ArtifactDescriptor
  producedAt : Timestamp
  freshUntil : Option Timestamp
  producer : Str
  dependencies : Option (List Dependency)

/-- The body of the loop over the artifacts; `names` are the names so far. -/
def validateArtifact (names : List Str) (artifact : Value) :
    Except PyError ArtifactDescriptor := do
  requireExactKeys artifact [lit "name", lit "digest", lit "size", lit "media_type"] "artifact"
  let name ← requireNonemptyString (artifact.get (lit "name")) "artifact.name"
  let mediaType ← requireNonemptyString (artifact.get (lit "media_type")) "artifact.media_type"
  raiseIf (name ∈ names) "artifact names must be unique"
  let digest ← requireDigest (artifact.get (lit "digest")) "artifact.digest is invalid"
  match artifact.get (lit "size") with
  | .int n =>
    if 0 ≤ n then pure { name, digest, size := n.toNat, mediaType }
    else raiseValueError "artifact.size must be a non-negative integer"
  | _ => raiseValueError "artifact.size must be a non-negative integer"

/-- A descriptor that passes has a new name. -/
theorem name_notMem_of_validateArtifact {names : List Str} {artifact : Value}
    {descriptor : ArtifactDescriptor} (h : validateArtifact names artifact = .ok descriptor) :
    descriptor.name ∉ names := by
  obtain ⟨-, h⟩ := Except.check_eq_ok.mp h
  obtain ⟨name, -, h⟩ := Except.bind_eq_ok.mp h
  obtain ⟨mediaType, -, h⟩ := Except.bind_eq_ok.mp h
  obtain ⟨hname, h⟩ := Except.check_eq_ok.mp h
  obtain ⟨digest, -, h⟩ := Except.bind_eq_ok.mp h
  rw [raiseIf_eq_ok, decide_eq_false_iff_not] at hname
  split at h
  · split_ifs at h with hsize
    · cases h
      exact hname
    · cases h
  · cases h

/-- The loop over the artifacts. -/
def validateArtifacts (names : List Str) : List Value → Except PyError (List ArtifactDescriptor)
  | [] => .ok []
  | artifact :: rest => do
    let descriptor ← validateArtifact names artifact
    let descriptors ← validateArtifacts (descriptor.name :: names) rest
    pure (descriptor :: descriptors)

/-- The body of the loop over the dependencies; `before` are the dependencies so far, the last one
first. -/
def validateDependency (before : List Dependency) (dependency : Value) :
    Except PyError Dependency := do
  requireExactKeys dependency [lit "name", lit "result_digest"] "dependency"
  let name ← requireNonemptyString (dependency.get (lit "name")) "dependency.name"
  raiseIf (name ∈ before.map Dependency.name) "dependency names must be unique"
  raiseIf (before.head?.any fun previous => name ≤ previous.name)
    "dependencies must be sorted by name"
  let resultDigest ← requireDigest (dependency.get (lit "result_digest"))
    "dependency.result_digest is invalid"
  raiseIf (resultDigest ∈ before.map Dependency.resultDigest)
    "dependency result digests must be unique"
  pure { name, resultDigest }

/-- The loop over the dependencies. -/
def validateDependencies (before : List Dependency) : List Value → Except PyError (List Dependency)
  | [] => .ok []
  | value :: rest => do
    let dependency ← validateDependency before value
    let dependencies ← validateDependencies (dependency :: before) rest
    pure (dependency :: dependencies)

/-- The result specification versions. -/
def resultVersions : List (Str × Unit) :=
  [(lit "oncemesh.result/v0", ()), (lit "oncemesh.result/v1", ())]

/-- `validate_manifest`. -/
def validateManifest (manifest : Value) : Except PyError ManifestFields := do
  let version := manifest.get (lit "spec_version")
  let lineage := version.eqStr (lit "oncemesh.result/v1")
  requireExactKeys manifest
    ([lit "spec_version", lit "action_digest", lit "artifacts", lit "produced_at",
      lit "fresh_until", lit "producer"] ++ if lineage then [lit "dependencies"] else [])
    "result manifest"
  raiseIf (← version.lookupIn resultVersions).isNone "unsupported result spec_version"
  let actionDigest ← requireDigest (manifest.get (lit "action_digest")) "action_digest is invalid"
  let producedAt ← requireUtcTimestamp (manifest.get (lit "produced_at")) "produced_at"
  let freshUntil ← optionalTimestamp (manifest.get (lit "fresh_until")) "fresh_until"
  let producer ← requireNonemptyString (manifest.get (lit "producer")) "producer"
  let items ← requireList (manifest.get (lit "artifacts")) "artifacts must be an array"
  let artifacts ← validateArtifacts [] items
  let dependencies ←
    if lineage then
      some <$> (requireList (manifest.get (lit "dependencies")) "dependencies must be an array" >>=
        validateDependencies [])
    else pure none
  let _ ← canonicalJson manifest
  pure { actionDigest, artifacts, producedAt, freshUntil, producer, dependencies }

/-- The artifacts of a valid manifest have distinct names, none of them used before. -/
theorem nodup_of_validateArtifacts {items : List Value} : ∀ {names : List Str}
    {descriptors : List ArtifactDescriptor}, validateArtifacts names items = .ok descriptors →
    (descriptors.map ArtifactDescriptor.name).Nodup ∧ ∀ d ∈ descriptors, d.name ∉ names := by
  induction items with
  | nil =>
    rintro names _ ⟨⟩
    simp
  | cons artifact rest ih =>
    intro names _ h
    obtain ⟨descriptor, hfirst, h⟩ := Except.bind_eq_ok.mp h
    obtain ⟨descriptors, hrest, ⟨⟩⟩ := Except.bind_eq_ok.mp h
    obtain ⟨hnodup, hnew⟩ := ih hrest
    have hname : descriptor.name ∉ names := name_notMem_of_validateArtifact hfirst
    simp only [List.mem_cons, not_or] at hnew
    refine ⟨?_, ?_⟩
    · simp only [List.map_cons, List.nodup_cons, List.mem_map, not_exists, not_and]
      exact ⟨fun d hd => (hnew d hd).1, hnodup⟩
    · simp only [List.mem_cons, forall_eq_or_imp]
      exact ⟨hname, fun d hd => (hnew d hd).2⟩

/-- What the fields of a valid manifest are read from. -/
structure ManifestChecks (manifest : Value) (fields : ManifestFields) : Prop where
  actionDigest : requireDigest (manifest.get (lit "action_digest")) "action_digest is invalid" =
    .ok fields.actionDigest
  producedAt : requireUtcTimestamp (manifest.get (lit "produced_at")) "produced_at" =
    .ok fields.producedAt
  freshUntil : optionalTimestamp (manifest.get (lit "fresh_until")) "fresh_until" =
    .ok fields.freshUntil
  producer : requireNonemptyString (manifest.get (lit "producer")) "producer" = .ok fields.producer
  artifacts : (requireList (manifest.get (lit "artifacts")) "artifacts must be an array" >>=
    validateArtifacts []) = .ok fields.artifacts
  dependencies : (if (manifest.get (lit "spec_version")).eqStr (lit "oncemesh.result/v1") then
      some <$> (requireList (manifest.get (lit "dependencies")) "dependencies must be an array" >>=
        validateDependencies [])
    else pure none) = .ok fields.dependencies
  inProfile : InProfile manifest

/-- A manifest that passes has passed each check. -/
theorem validateManifest_checks {manifest : Value} {fields : ManifestFields}
    (h : validateManifest manifest = .ok fields) : ManifestChecks manifest fields := by
  obtain ⟨-, h⟩ := Except.check_eq_ok.mp h
  obtain ⟨version, -, h⟩ := Except.bind_eq_ok.mp h
  obtain ⟨-, h⟩ := Except.check_eq_ok.mp h
  obtain ⟨actionDigest, hactionDigest, h⟩ := Except.bind_eq_ok.mp h
  obtain ⟨producedAt, hproducedAt, h⟩ := Except.bind_eq_ok.mp h
  obtain ⟨freshUntil, hfreshUntil, h⟩ := Except.bind_eq_ok.mp h
  obtain ⟨producer, hproducer, h⟩ := Except.bind_eq_ok.mp h
  obtain ⟨items, hitems, h⟩ := Except.bind_eq_ok.mp h
  obtain ⟨artifacts, hartifacts, h⟩ := Except.bind_eq_ok.mp h
  have hlist : (requireList (manifest.get (lit "artifacts")) "artifacts must be an array" >>=
      validateArtifacts []) = .ok artifacts := by
    rw [hitems]
    exact hartifacts
  -- either version goes on with the canonical form
  split_ifs at h with hversion
  all_goals
    obtain ⟨dependencies, hdependencies, h⟩ := Except.bind_eq_ok.mp h
    obtain ⟨bytes, hbytes, ⟨⟩⟩ := Except.bind_eq_ok.mp h
    refine ⟨hactionDigest, hproducedAt, hfreshUntil, hproducer, hlist, ?_,
      (canonicalJson_eq_ok.mp hbytes).1⟩
  · rw [if_pos hversion]
    exact hdependencies
  · rw [if_neg hversion]
    exact hdependencies

/-- The artifacts of a valid manifest are those of a list of descriptors that validates. -/
theorem exists_validateArtifacts {value : Value} {fields : ManifestFields}
    (h : validateManifest value = .ok fields) :
    ∃ items, validateArtifacts [] items = .ok fields.artifacts := by
  obtain ⟨items, -, hartifacts⟩ := Except.bind_eq_ok.mp (validateManifest_checks h).artifacts
  exact ⟨items, hartifacts⟩

/-! ### Source validations and invalidations -/

/-- The fields of a source validation record. -/
structure SourceValidationFields where
  resultDigest : Str
  validatedAt : Timestamp
  freshUntil : Timestamp
  producer : Str

/-- The checks of the `method` of a source validation. -/
def validateMethod (method : Value) : Except PyError Unit := do
  requireExactKeys method
    [lit "name", lit "version", lit "status", lit "etag", lit "last_modified"] "validation method"
  raiseIf (!((method.get (lit "name")).eqStr (lit "http.conditional") &&
      (method.get (lit "version")).eqStr (lit "1") && (method.get (lit "status")).eqInt 304))
    "unsupported validation method"
  let etag ← requireOptionalText (method.get (lit "etag")) "method.etag"
  let lastModified ← requireOptionalText (method.get (lit "last_modified")) "method.last_modified"
  raiseIf (etag.isNone && lastModified.isNone)
    "HTTP conditional validation requires at least one validator"

/-- `validate_source_validation`. -/
def validateSourceValidation (record : Value) : Except PyError SourceValidationFields := do
  requireExactKeys record
    [lit "spec_version", lit "result_digest", lit "validated_at", lit "fresh_until", lit "producer",
      lit "method"] "source validation"
  raiseIf (!(record.get (lit "spec_version")).eqStr (lit "oncemesh.validation/v0"))
    "unsupported source validation spec_version"
  let resultDigest ← requireDigest (record.get (lit "result_digest")) "result_digest is invalid"
  let validatedAt ← requireUtcTimestamp (record.get (lit "validated_at")) "validated_at"
  let freshUntil ← requireUtcTimestamp (record.get (lit "fresh_until")) "fresh_until"
  raiseIf (freshUntil.instant < validatedAt.instant) "fresh_until must not precede validated_at"
  let producer ← requireNonemptyString (record.get (lit "producer")) "producer"
  validateMethod (record.get (lit "method"))
  let _ ← canonicalJson record
  pure { resultDigest, validatedAt, freshUntil, producer }

/-- The fields of an invalidation record. -/
structure InvalidationFields where
  resultDigest : Str
  invalidatedAt : Timestamp
  producer : Str

/-- `validate_invalidation`. -/
def validateInvalidation (record : Value) : Except PyError InvalidationFields := do
  requireExactKeys record
    [lit "spec_version", lit "result_digest", lit "invalidated_at", lit "producer", lit "reason"]
    "invalidation"
  raiseIf (!(record.get (lit "spec_version")).eqStr (lit "oncemesh.invalidation/v0"))
    "unsupported invalidation spec_version"
  let resultDigest ← requireDigest (record.get (lit "result_digest")) "result_digest is invalid"
  let invalidatedAt ← requireUtcTimestamp (record.get (lit "invalidated_at")) "invalidated_at"
  let producer ← requireNonemptyString (record.get (lit "producer")) "producer"
  let _ ← requireNonemptyString (record.get (lit "reason")) "reason"
  let _ ← canonicalJson record
  pure { resultDigest, invalidatedAt, producer }

/-! ### What the validators raise -/

/-- The check of the keys raises only a `ValueError`. -/
theorem raisesOnly_requireExactKeys (value : Value) (expected : List Str) (label : String) :
    RaisesOnlyValueError (requireExactKeys value expected label) := by
  unfold requireExactKeys
  split
  · dsimp only
    split_ifs
    · exact .ok ()
    · exact .error rfl
  · exact raisesOnly_raiseValueError _
  · exact raisesOnly_raiseValueError _

/-- The check for a non-empty text raises only a `ValueError`. -/
theorem raisesOnly_requireNonemptyString (value : Value) (label : String) :
    RaisesOnlyValueError (requireNonemptyString value label) := by
  unfold requireNonemptyString
  split
  · split_ifs
    · exact raisesOnly_raiseValueError _
    · exact .ok _
  · exact raisesOnly_raiseValueError _

/-- The check for a digest raises only a `ValueError`. -/
theorem raisesOnly_requireDigest (value : Value) (message : String) :
    RaisesOnlyValueError (requireDigest value message) := by
  unfold requireDigest
  split
  · split_ifs
    · exact .ok _
    · exact raisesOnly_raiseValueError _
  · exact raisesOnly_raiseValueError _

/-- The check for an array raises only a `ValueError`. -/
theorem raisesOnly_requireList (value : Value) (message : String) :
    RaisesOnlyValueError (requireList value message) := by
  unfold requireList
  split
  · exact .ok _
  · exact raisesOnly_raiseValueError _

/-- The check for a timestamp raises only a `ValueError`. -/
theorem raisesOnly_requireUtcTimestamp (value : Value) (label : String) :
    RaisesOnlyValueError (requireUtcTimestamp value label) := by
  refine .bind (raisesOnly_requireNonemptyString value label) fun text _ => ?_
  split_ifs
  · split
    · exact .pure _
    · exact raisesOnly_raiseValueError _
  · exact raisesOnly_raiseValueError _

/-- The check for a timestamp or null raises only a `ValueError`. -/
theorem raisesOnly_optionalTimestamp (value : Value) (label : String) :
    RaisesOnlyValueError (optionalTimestamp value label) := by
  unfold optionalTimestamp
  split
  · exact .ok _
  · exact .map (raisesOnly_requireUtcTimestamp value label)

/-- The check for a text or null raises only a `ValueError`. -/
theorem raisesOnly_requireOptionalText (value : Value) (label : String) :
    RaisesOnlyValueError (requireOptionalText value label) := by
  unfold requireOptionalText
  split
  · exact .ok _
  · split_ifs
    · exact raisesOnly_raiseValueError _
    · exact .ok _
  · exact raisesOnly_raiseValueError _

/-- `canonical_json` raises only a `ValueError`. -/
theorem raisesOnly_canonicalJson (value : Value) : RaisesOnlyValueError (canonicalJson value) :=
  fun _ h => isValueError_of_canonicalJson h

/-- `validate_action` raises only a `ValueError`. -/
theorem raisesOnly_validateAction (action : Value) :
    RaisesOnlyValueError (validateAction action) := by
  refine .bind (raisesOnly_requireExactKeys _ _ _) fun _ _ => ?_
  refine .bind (raisesOnly_raiseIf _ _) fun _ _ => ?_
  refine .bind (raisesOnly_requireExactKeys _ _ _) fun _ _ => ?_
  refine .bind (raisesOnly_requireNonemptyString _ _) fun _ _ => ?_
  refine .bind (raisesOnly_requireNonemptyString _ _) fun _ _ => ?_
  refine .bind (raisesOnly_requireExactKeys _ _ _) fun _ _ => ?_
  refine .bind (raisesOnly_requireNonemptyString _ _) fun _ _ => ?_
  refine .bind (raisesOnly_requireNonemptyString _ _) fun _ _ => ?_
  refine .bind (raisesOnly_raiseIf _ _) fun _ _ => ?_
  refine .bind (raisesOnly_raiseIf _ _) fun _ _ => ?_
  refine .bind (raisesOnly_requireNonemptyString _ _) fun _ _ => ?_
  exact .bind (raisesOnly_canonicalJson _) fun _ _ => .pure _

/-- The check of an artifact raises only a `ValueError`. -/
theorem raisesOnly_validateArtifact (names : List Str) (artifact : Value) :
    RaisesOnlyValueError (validateArtifact names artifact) := by
  refine .bind (raisesOnly_requireExactKeys _ _ _) fun _ _ => ?_
  refine .bind (raisesOnly_requireNonemptyString _ _) fun name _ => ?_
  refine .bind (raisesOnly_requireNonemptyString _ _) fun mediaType _ => ?_
  refine .bind (raisesOnly_raiseIf _ _) fun _ _ => ?_
  refine .bind (raisesOnly_requireDigest _ _) fun digest _ => ?_
  split
  · split_ifs
    · exact .pure _
    · exact raisesOnly_raiseValueError _
  · exact raisesOnly_raiseValueError _

/-- The loop over the artifacts raises only a `ValueError`. -/
theorem raisesOnly_validateArtifacts (names : List Str) (items : List Value) :
    RaisesOnlyValueError (validateArtifacts names items) := by
  induction items generalizing names with
  | nil => exact .ok _
  | cons artifact rest ih =>
    refine .bind (raisesOnly_validateArtifact _ _) fun descriptor _ => ?_
    exact .bind (ih _) fun descriptors _ => .pure _

/-- The check of a dependency raises only a `ValueError`. -/
theorem raisesOnly_validateDependency (before : List Dependency) (dependency : Value) :
    RaisesOnlyValueError (validateDependency before dependency) := by
  refine .bind (raisesOnly_requireExactKeys _ _ _) fun _ _ => ?_
  refine .bind (raisesOnly_requireNonemptyString _ _) fun name _ => ?_
  refine .bind (raisesOnly_raiseIf _ _) fun _ _ => ?_
  refine .bind (raisesOnly_raiseIf _ _) fun _ _ => ?_
  refine .bind (raisesOnly_requireDigest _ _) fun resultDigest _ => ?_
  exact .bind (raisesOnly_raiseIf _ _) fun _ _ => .pure _

/-- The loop over the dependencies raises only a `ValueError`. -/
theorem raisesOnly_validateDependencies (before : List Dependency) (items : List Value) :
    RaisesOnlyValueError (validateDependencies before items) := by
  induction items generalizing before with
  | nil => exact .ok _
  | cons value rest ih =>
    refine .bind (raisesOnly_validateDependency _ _) fun dependency _ => ?_
    exact .bind (ih _) fun dependencies _ => .pure _

/-- A manifest whose version can be looked up in a set raises only a `ValueError`. -/
theorem raisesOnly_validateManifest {manifest : Value}
    (h : (manifest.get (lit "spec_version")).hashable = true) :
    RaisesOnlyValueError (validateManifest manifest) := by
  refine .bind (raisesOnly_requireExactKeys _ _ _) fun _ _ => ?_
  refine .bind ?_ fun version _ => ?_
  · obtain ⟨found, hfound⟩ := @Value.lookupIn_of_hashable _ _ resultVersions h
    rw [hfound]
    exact .ok _
  refine .bind (raisesOnly_raiseIf _ _) fun _ _ => ?_
  refine .bind (raisesOnly_requireDigest _ _) fun actionDigest _ => ?_
  refine .bind (raisesOnly_requireUtcTimestamp _ _) fun producedAt _ => ?_
  refine .bind (raisesOnly_optionalTimestamp _ _) fun freshUntil _ => ?_
  refine .bind (raisesOnly_requireNonemptyString _ _) fun producer _ => ?_
  refine .bind (raisesOnly_requireList _ _) fun items _ => ?_
  refine .bind (raisesOnly_validateArtifacts _ _) fun artifacts _ => ?_
  -- only version 1 has dependencies to validate
  split_ifs
  · refine .bind (.map (.bind (raisesOnly_requireList _ _) fun items _ => ?_)) fun _ _ => ?_
    · exact raisesOnly_validateDependencies _ _
    · exact .bind (raisesOnly_canonicalJson _) fun _ _ => .pure _
  · refine .bind (.pure _) fun _ _ => ?_
    exact .bind (raisesOnly_canonicalJson _) fun _ _ => .pure _

/-- The check of the method of a validation raises only a `ValueError`. -/
theorem raisesOnly_validateMethod (method : Value) :
    RaisesOnlyValueError (validateMethod method) := by
  refine .bind (raisesOnly_requireExactKeys _ _ _) fun _ _ => ?_
  refine .bind (raisesOnly_raiseIf _ _) fun _ _ => ?_
  refine .bind (raisesOnly_requireOptionalText _ _) fun etag _ => ?_
  exact .bind (raisesOnly_requireOptionalText _ _) fun lastModified _ => raisesOnly_raiseIf _ _

/-- `validate_source_validation` raises only a `ValueError`. -/
theorem raisesOnly_validateSourceValidation (record : Value) :
    RaisesOnlyValueError (validateSourceValidation record) := by
  refine .bind (raisesOnly_requireExactKeys _ _ _) fun _ _ => ?_
  refine .bind (raisesOnly_raiseIf _ _) fun _ _ => ?_
  refine .bind (raisesOnly_requireDigest _ _) fun resultDigest _ => ?_
  refine .bind (raisesOnly_requireUtcTimestamp _ _) fun validatedAt _ => ?_
  refine .bind (raisesOnly_requireUtcTimestamp _ _) fun freshUntil _ => ?_
  refine .bind (raisesOnly_raiseIf _ _) fun _ _ => ?_
  refine .bind (raisesOnly_requireNonemptyString _ _) fun producer _ => ?_
  refine .bind (raisesOnly_validateMethod _) fun _ _ => ?_
  exact .bind (raisesOnly_canonicalJson _) fun _ _ => .pure _

/-- `validate_invalidation` raises only a `ValueError`. -/
theorem raisesOnly_validateInvalidation (record : Value) :
    RaisesOnlyValueError (validateInvalidation record) := by
  refine .bind (raisesOnly_requireExactKeys _ _ _) fun _ _ => ?_
  refine .bind (raisesOnly_raiseIf _ _) fun _ _ => ?_
  refine .bind (raisesOnly_requireDigest _ _) fun resultDigest _ => ?_
  refine .bind (raisesOnly_requireUtcTimestamp _ _) fun invalidatedAt _ => ?_
  refine .bind (raisesOnly_requireNonemptyString _ _) fun producer _ => ?_
  refine .bind (raisesOnly_requireNonemptyString _ _) fun reason _ => ?_
  exact .bind (raisesOnly_canonicalJson _) fun _ _ => .pure _

/-- The only exception of `validate_manifest` that is not a `ValueError` is the `TypeError` for an
unhashable version. -/
theorem validateManifest_raises {manifest : Value} {e : PyError}
    (h : validateManifest manifest = .error e) :
    e.isValueError = true ∨ e = .typeError (lit "unhashable type") := by
  by_cases hashable : (manifest.get (lit "spec_version")).hashable = true
  · exact .inl (raisesOnly_validateManifest hashable e h)
  · rcases Except.bind_eq_error.mp h with h | ⟨-, -, h⟩
    · exact .inl (raisesOnly_requireExactKeys _ _ _ e h)
    · rw [Value.lookupIn_of_not_hashable hashable] at h
      cases h
      exact .inr rfl

/-! ### Validated documents -/

/-- A valid result manifest. -/
structure Manifest where
  document : Value
  fields : ManifestFields
  valid : validateManifest document = .ok fields

/-- A valid source validation record. -/
structure SourceValidation where
  document : Value
  fields : SourceValidationFields
  valid : validateSourceValidation document = .ok fields

/-- A valid invalidation record. -/
structure Invalidation where
  document : Value
  fields : InvalidationFields
  valid : validateInvalidation document = .ok fields

/-- `validate_manifest`, with the manifest it accepts. -/
def Manifest.ofValue (value : Value) : Except PyError Manifest :=
  match h : validateManifest value with
  | .ok fields => .ok ⟨value, fields, h⟩
  | .error e => .error e

/-- `validate_source_validation`, with the record it accepts. -/
def SourceValidation.ofValue (value : Value) : Except PyError SourceValidation :=
  match h : validateSourceValidation value with
  | .ok fields => .ok ⟨value, fields, h⟩
  | .error e => .error e

/-- `validate_invalidation`, with the record it accepts. -/
def Invalidation.ofValue (value : Value) : Except PyError Invalidation :=
  match h : validateInvalidation value with
  | .ok fields => .ok ⟨value, fields, h⟩
  | .error e => .error e

/-- A value is read as the manifest of which it is the document. -/
theorem Manifest.ofValue_eq_ok {value : Value} {manifest : Manifest} :
    Manifest.ofValue value = .ok manifest ↔ manifest.document = value := by
  unfold Manifest.ofValue
  constructor
  · intro h
    split at h
    · cases h
      rfl
    · cases h
  · rintro rfl
    split
    next fields h =>
      have hfields : fields = manifest.fields := Except.ok.inj (h.symm.trans manifest.valid)
      simp only [hfields]
    next e h => cases h.symm.trans manifest.valid

/-- A value is read as the invalidation of which it is the document. -/
theorem Invalidation.ofValue_eq_ok {value : Value} {record : Invalidation} :
    Invalidation.ofValue value = .ok record ↔ record.document = value := by
  unfold Invalidation.ofValue
  constructor
  · intro h
    split at h
    · cases h
      rfl
    · cases h
  · rintro rfl
    split
    next fields h =>
      have hfields : fields = record.fields := Except.ok.inj (h.symm.trans record.valid)
      simp only [hfields]
    next e h => cases h.symm.trans record.valid

/-- A manifest is determined by its document. -/
theorem Manifest.ext_document {m m' : Manifest} (h : m.document = m'.document) : m = m' := by
  obtain ⟨document, fields, hvalid⟩ := m
  obtain ⟨document', fields', hvalid'⟩ := m'
  subst h
  have hfields : fields = fields' := Except.ok.inj (hvalid.symm.trans hvalid')
  simp only [hfields]

/-- What passes the check for a digest is one. -/
theorem isDigest_of_requireDigest {value : Value} {message : String} {digest : Str}
    (h : requireDigest value message = .ok digest) : isDigest digest = true := by
  unfold requireDigest at h
  split at h
  · split_ifs at h with hdigest
    · cases h
      exact hdigest
    · cases h
  · cases h

/-- An artifact that passes is named by a digest. -/
theorem isDigest_of_validateArtifact {names : List Str} {artifact : Value}
    {descriptor : ArtifactDescriptor} (h : validateArtifact names artifact = .ok descriptor) :
    isDigest descriptor.digest = true := by
  obtain ⟨-, h⟩ := Except.check_eq_ok.mp h
  obtain ⟨name, -, h⟩ := Except.bind_eq_ok.mp h
  obtain ⟨mediaType, -, h⟩ := Except.bind_eq_ok.mp h
  obtain ⟨-, h⟩ := Except.check_eq_ok.mp h
  obtain ⟨digest, hdigest, h⟩ := Except.bind_eq_ok.mp h
  split at h
  · split_ifs at h
    · cases h
      exact isDigest_of_requireDigest hdigest
    · cases h
  · cases h

/-- Artifacts that pass are named by digests. -/
theorem isDigest_of_validateArtifacts {items : List Value} : ∀ {names : List Str}
    {descriptors : List ArtifactDescriptor}, validateArtifacts names items = .ok descriptors →
    ∀ d ∈ descriptors, isDigest d.digest = true := by
  induction items with
  | nil =>
    rintro names _ ⟨⟩
    simp
  | cons artifact rest ih =>
    intro names _ h
    obtain ⟨descriptor, hfirst, h⟩ := Except.bind_eq_ok.mp h
    obtain ⟨descriptors, hrest, ⟨⟩⟩ := Except.bind_eq_ok.mp h
    exact List.forall_mem_cons.mpr ⟨isDigest_of_validateArtifact hfirst, ih hrest⟩

/-- The artifacts of a manifest are named by digests. -/
theorem Manifest.isDigest_artifact (manifest : Manifest) :
    ∀ d ∈ manifest.fields.artifacts, isDigest d.digest = true := by
  obtain ⟨items, hartifacts⟩ := exists_validateArtifacts manifest.valid
  exact isDigest_of_validateArtifacts hartifacts

/-- An invalidation is about a digest, and canonical JSON stores it. -/
theorem Invalidation.isDigest_and_inProfile (record : Invalidation) :
    isDigest record.fields.resultDigest = true ∧ InProfile record.document := by
  obtain ⟨-, h⟩ := Except.check_eq_ok.mp record.valid
  obtain ⟨-, h⟩ := Except.check_eq_ok.mp h
  obtain ⟨resultDigest, hresultDigest, h⟩ := Except.bind_eq_ok.mp h
  obtain ⟨invalidatedAt, -, h⟩ := Except.bind_eq_ok.mp h
  obtain ⟨producer, -, h⟩ := Except.bind_eq_ok.mp h
  obtain ⟨reason, -, h⟩ := Except.bind_eq_ok.mp h
  obtain ⟨bytes, hbytes, hfields⟩ := Except.bind_eq_ok.mp h
  rw [← Except.ok.inj hfields]
  exact ⟨isDigest_of_requireDigest hresultDigest, (canonicalJson_eq_ok.mp hbytes).1⟩

/-- The artifacts of a manifest have distinct names. -/
theorem Manifest.nodup_names (manifest : Manifest) :
    (manifest.fields.artifacts.map ArtifactDescriptor.name).Nodup := by
  obtain ⟨items, hartifacts⟩ := exists_validateArtifacts manifest.valid
  exact (nodup_of_validateArtifacts hartifacts).1

section

variable [Sha256]

/-- `action_digest`. -/
def actionDigest (action : Value) : Except PyError Str := do
  validateAction action
  objectDigest action

/-- `action_digest` raises only a `ValueError`. -/
theorem raisesOnly_actionDigest (action : Value) : RaisesOnlyValueError (actionDigest action) :=
  .bind (raisesOnly_validateAction action) fun _ _ =>
    .bind (raisesOnly_canonicalJson action) fun _ _ => .pure _

/-- `manifest_digest` of a valid manifest. -/
def Manifest.digest (manifest : Manifest) : Str := digestOf manifest.document

end

end OnceMesh
