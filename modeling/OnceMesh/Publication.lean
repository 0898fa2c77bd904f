import OnceMesh.Documents.Stored
import OnceMesh.StoreWriter

/-!
# Publication

`publishResult` puts the artifacts of a result into a store and then its manifest. What it publishes
does not depend on the store (`ResultData.toManifest`), and a call that raises has put at most the
artifacts.
-/

namespace OnceMesh

open Python

/-- The items of a dictionary, sorted by key. -/
def sortedItems {α : Type} (d : Dict Str α) : List (Str × α) := d.entries.insertionSort Json.keyLE

/-- The arguments of `publish_result` apart from the store and the action: `artifacts` maps a name
to data and media type, `dependencies` a name to a result digest. -/
structure ResultData where
  artifacts : Dict Str (Bytes × Str)
  producer : Str
  producedAt : DateTime
  freshUntil : Option DateTime
  dependencies : Option (Dict Str Str) := none

/-- The descriptor of an artifact. -/
def descriptorValue (name digest : Str) (size : ℕ) (mediaType : Str) : Value :=
  .dict [(lit "name", .str name), (lit "digest", .str digest), (lit "size", .int size),
    (lit "media_type", .str mediaType)]

/-- The manifest of a result. -/
def ResultData.manifestValue (p : ResultData) (requested : Str) (descriptors : List Value) :
    Value :=
  .dict
    ([(lit "spec_version", .str (if p.dependencies.isSome then lit "oncemesh.result/v1"
          else lit "oncemesh.result/v0")),
      (lit "action_digest", .str requested),
      (lit "artifacts", .list descriptors),
      (lit "produced_at", .str (formatTime p.producedAt)),
      (lit "fresh_until", p.freshUntil.elim .none fun t => .str (formatTime t)),
      (lit "producer", .str p.producer)] ++
    p.dependencies.elim [] fun dependencies =>
      [(lit "dependencies", .list ((sortedItems dependencies).map fun d =>
        .dict [(lit "name", .str d.1), (lit "result_digest", .str d.2)]))])

section

variable [Sha256] {σ : Type}

/-- The loop over the artifacts. -/
def putArtifacts (writer : StoreWriter σ) :
    List (Str × Bytes × Str) → Stateful PyError σ (List Value)
  | [] => pure []
  | (name, data, mediaType) :: rest => do
    let digest ← writer.putBlob data
    let descriptors ← putArtifacts writer rest
    pure (descriptorValue name digest data.length mediaType :: descriptors)

/-- `publish_result`. -/
def publishResult (writer : StoreWriter σ) (action : Value) (p : ResultData) :
    Stateful PyError σ Value := do
  let descriptors ← putArtifacts writer (sortedItems p.artifacts)
  let requested ← actionDigest action
  let manifest := p.manifestValue requested descriptors
  writer.putResult manifest
  pure manifest

/-! ### What is published -/

namespace ResultData

variable (p : ResultData)

/-- The descriptors of the artifacts. -/
def descriptors : List Value :=
  (sortedItems p.artifacts).map fun (name, data, mediaType) =>
    descriptorValue name (digestBytes data) data.length mediaType

/-- The manifest that is published for an action. -/
def toManifest (action : Value) : Except PyError Manifest := do
  let requested ← actionDigest action
  Manifest.ofValue (p.manifestValue requested p.descriptors)

/-- The artifacts are put. -/
def putBlobs (puts : StorePuts σ) (store : σ) : σ :=
  (sortedItems p.artifacts).foldl (fun store artifact => puts.putBlob store artifact.2.1) store

end ResultData

theorem putArtifacts_apply (puts : StorePuts σ) (items : List (Str × Bytes × Str)) (store : σ) :
    putArtifacts puts.writer items store =
      (.ok (items.map fun (name, data, mediaType) =>
          descriptorValue name (digestBytes data) data.length mediaType),
        items.foldl (fun store artifact => puts.putBlob store artifact.2.1) store) := by
  induction items generalizing store with
  | nil => rfl
  | cons item rest ih =>
    obtain ⟨name, data, mediaType⟩ := item
    rw [putArtifacts]
    have hput : puts.writer.putBlob data store =
        (.ok (digestBytes data), puts.putBlob store data) := rfl
    rw [Stateful.bind_apply_of_ok hput, Stateful.bind_apply_of_ok (ih _)]
    rfl

variable {puts : StorePuts σ} {action : Value} {p : ResultData}

/-- A publication that raises has put the artifacts. -/
theorem publishResult_of_error {e : PyError} (h : p.toManifest action = .error e) (store : σ) :
    publishResult puts.writer action p store = (.error e, p.putBlobs puts store) := by
  rw [publishResult, Stateful.bind_apply_of_ok (putArtifacts_apply puts _ store)]
  rcases Except.bind_eq_error.mp h with haction | ⟨requested, haction, hmanifest⟩
  · refine Stateful.bind_apply_of_error ?_
    rw [haction]
    rfl
  · have hput : puts.writer.putResult (p.manifestValue requested p.descriptors)
        (p.putBlobs puts store) = (.error e, p.putBlobs puts store) := by
      refine Stateful.bind_apply_of_error ?_
      show (Manifest.ofValue (p.manifestValue requested p.descriptors), _) = _
      rw [hmanifest]
    have hreturns : (liftM (actionDigest action) : Stateful PyError σ Str) (p.putBlobs puts store) =
        (.ok requested, p.putBlobs puts store) := by
      rw [haction]
      rfl
    exact (Stateful.bind_apply_of_ok hreturns).trans (Stateful.bind_apply_of_error hput)

/-- A publication that returns has put the artifacts and the manifest, which it returns. -/
theorem publishResult_of_ok {manifest : Manifest} (h : p.toManifest action = .ok manifest)
    (store : σ) :
    publishResult puts.writer action p store =
      (.ok manifest.document, puts.putResult (p.putBlobs puts store) manifest) := by
  obtain ⟨requested, haction, hmanifest⟩ := Except.bind_eq_ok.mp h
  have hput : puts.writer.putResult (p.manifestValue requested p.descriptors)
      (p.putBlobs puts store) = (.ok (), puts.putResult (p.putBlobs puts store) manifest) := by
    refine Stateful.bind_apply_of_ok ?_
    show (Manifest.ofValue (p.manifestValue requested p.descriptors), _) = _
    rw [hmanifest]
  rw [publishResult, Stateful.bind_apply_of_ok (putArtifacts_apply puts _ store), haction,
    Manifest.ofValue_eq_ok.mp hmanifest]
  exact Stateful.bind_apply_of_ok hput

/-! ### The published manifest -/

/-- The fields of a published manifest are the arguments of the publication. -/
structure PublishedAs (manifest : Manifest) (requested : Str) (p : ResultData) : Prop where
  document : manifest.document = p.manifestValue requested p.descriptors
  actionDigest : manifest.fields.actionDigest = requested
  producedAt : manifest.fields.producedAt.instant = p.producedAt
  producedAt_text : manifest.fields.producedAt.text = formatTime p.producedAt
  freshUntil : manifest.fields.freshUntil.map Timestamp.instant = p.freshUntil
  producer : manifest.fields.producer = p.producer
  storable : Storable manifest.document

/-- The descriptors and the manifest are Python values. -/
theorem wellFormed_manifestValue (p : ResultData) (requested : Str) :
    (p.manifestValue requested p.descriptors).WellFormed := by
  have hdescriptors : ∀ v ∈ p.descriptors, v.WellFormed := by
    intro v hv
    obtain ⟨⟨name, data, mediaType⟩, -, rfl⟩ := List.mem_map.mp hv
    simp [descriptorValue, Value.WellFormed]
  have hfresh : (p.freshUntil.elim Value.none fun t => .str (formatTime t)).WellFormed := by
    cases p.freshUntil <;> trivial
  rw [ResultData.manifestValue, Value.wellFormed_dict]
  cases p.dependencies with
  | none => simpa [Value.WellFormed, Value.wellFormedList_iff, hfresh] using hdescriptors
  | some dependencies =>
    have hdependency : ∀ name digest : Str, (Value.dict
        [(lit "name", .str name), (lit "result_digest", .str digest)]).WellFormed := by
      intro name digest
      simp [Value.WellFormed, Value.WellFormedItems]
    have hdependencies : ∀ (v : Value) (name digest : Str),
        (name, digest) ∈ sortedItems dependencies →
        .dict [(lit "name", .str name), (lit "result_digest", .str digest)] = v →
        v.WellFormed := by
      rintro _ name digest - rfl
      exact hdependency name digest
    simpa [Value.WellFormed, Value.wellFormedList_iff, hfresh] using ⟨hdescriptors, hdependencies⟩

theorem publishedAs_of_toManifest {manifest : Manifest} (h : p.toManifest action = .ok manifest) :
    ∃ requested, actionDigest action = .ok requested ∧ PublishedAs manifest requested p := by
  obtain ⟨requested, haction, hmanifest⟩ := Except.bind_eq_ok.mp h
  have hdocument := Manifest.ofValue_eq_ok.mp hmanifest
  have hchecks := validateManifest_checks manifest.valid
  rw [hdocument] at hchecks
  have htext : manifest.fields.producedAt.text = formatTime p.producedAt := by
    refine @text_of_requireUtcTimestamp _ "produced_at" _ ?_
    simpa [ResultData.manifestValue] using hchecks.producedAt
  have hactionDigest : manifest.fields.actionDigest = requested := by
    have hread : requireDigest (.str requested) "action_digest is invalid" =
        .ok manifest.fields.actionDigest := by
      simpa [ResultData.manifestValue] using hchecks.actionDigest
    rw [requireDigest] at hread
    split_ifs at hread
    · exact (Except.ok.inj hread).symm
    · cases hread
  have hproducer : manifest.fields.producer = p.producer := by
    have hread : requireNonemptyString (.str p.producer) "producer" =
        .ok manifest.fields.producer := by
      simpa [ResultData.manifestValue] using hchecks.producer
    rw [requireNonemptyString] at hread
    split_ifs at hread
    · cases hread
    · exact (Except.ok.inj hread).symm
  have hfreshUntil : manifest.fields.freshUntil.map Timestamp.instant = p.freshUntil := by
    have hread : optionalTimestamp (p.freshUntil.elim .none fun t => .str (formatTime t))
        "fresh_until" = .ok manifest.fields.freshUntil := by
      simpa [ResultData.manifestValue] using hchecks.freshUntil
    cases hfresh : p.freshUntil with
    | none =>
      rw [hfresh] at hread
      rw [← Except.ok.inj hread]
      rfl
    | some t =>
      rw [hfresh] at hread
      have hmap : some <$> requireUtcTimestamp (.str (formatTime t)) "fresh_until" =
          .ok manifest.fields.freshUntil := hread
      cases htimestamp : requireUtcTimestamp (.str (formatTime t)) "fresh_until" with
      | error e =>
        rw [htimestamp] at hmap
        cases hmap
      | ok timestamp =>
        rw [htimestamp] at hmap
        rw [← Except.ok.inj hmap]
        exact congrArg some (Timestamp.instant_of_text (text_of_requireUtcTimestamp htimestamp))
  refine ⟨requested, haction, hdocument, hactionDigest, Timestamp.instant_of_text htext, htext,
    hfreshUntil, hproducer, ?_⟩
  rw [hdocument]
  exact ⟨hchecks.inProfile, wellFormed_manifestValue p requested⟩

omit [Sha256] in
/-- A descriptor that validates has the fields it was made of. -/
theorem validateArtifact_descriptorValue {names : List Str} {name digest mediaType : Str} {size : ℕ}
    {descriptor : ArtifactDescriptor}
    (h : validateArtifact names (descriptorValue name digest size mediaType) = .ok descriptor) :
    descriptor = ⟨name, digest, size, mediaType⟩ := by
  obtain ⟨-, h⟩ := Except.check_eq_ok.mp h
  obtain ⟨name', hname, h⟩ := Except.bind_eq_ok.mp h
  obtain ⟨mediaType', hmedia, h⟩ := Except.bind_eq_ok.mp h
  obtain ⟨-, h⟩ := Except.check_eq_ok.mp h
  obtain ⟨digest', hdigest, h⟩ := Except.bind_eq_ok.mp h
  have hsize : (descriptorValue name digest size mediaType).get (lit "size") = .int size := by
    simp [descriptorValue]
  rw [hsize] at h
  have hnonneg : (0 : ℤ) ≤ size := Int.natCast_nonneg size
  simp only [hnonneg, ↓reduceIte] at h
  rw [← Except.ok.inj h]
  -- each check returns the text it is given
  have hname' : name' = name := by
    simp only [descriptorValue, Value.get_dict_cons, ↓reduceIte, requireNonemptyString] at hname
    split_ifs at hname
    · cases hname
    · exact (Except.ok.inj hname).symm
  have hmedia' : mediaType' = mediaType := by
    simp only [descriptorValue, Value.get_dict_cons, lit_inj, String.reduceEq, ↓reduceIte,
      requireNonemptyString] at hmedia
    split_ifs at hmedia
    · cases hmedia
    · exact (Except.ok.inj hmedia).symm
  have hdigest' : digest' = digest := by
    simp only [descriptorValue, Value.get_dict_cons, lit_inj, String.reduceEq, ↓reduceIte,
      requireDigest] at hdigest
    split_ifs at hdigest
    · exact (Except.ok.inj hdigest).symm
    · cases hdigest
  rw [hname', hmedia', hdigest', Int.toNat_natCast]

/-- The artifacts of a published manifest are those of the publication. -/
theorem artifacts_of_toManifest {manifest : Manifest} (h : p.toManifest action = .ok manifest) :
    manifest.fields.artifacts = (sortedItems p.artifacts).map fun (name, data, mediaType) =>
      ⟨name, digestBytes data, data.length, mediaType⟩ := by
  have hitems : ∀ (items : List (Str × Bytes × Str)) (names : List Str)
      (descriptors : List ArtifactDescriptor),
      validateArtifacts names (items.map fun (name, data, mediaType) =>
        descriptorValue name (digestBytes data) data.length mediaType) = .ok descriptors →
      descriptors = items.map fun (name, data, mediaType) =>
        ⟨name, digestBytes data, data.length, mediaType⟩ := by
    intro items
    induction items with
    | nil =>
      rintro names _ ⟨⟩
      rfl
    | cons item items ih =>
      intro names descriptors h
      obtain ⟨descriptor, hfirst, h⟩ := Except.bind_eq_ok.mp h
      obtain ⟨rest, hrest, ⟨⟩⟩ := Except.bind_eq_ok.mp h
      rw [List.map_cons, ← ih _ _ hrest, validateArtifact_descriptorValue hfirst]
  obtain ⟨requested, -, hmanifest⟩ := Except.bind_eq_ok.mp h
  have hchecks := validateManifest_checks manifest.valid
  rw [Manifest.ofValue_eq_ok.mp hmanifest] at hchecks
  have hread : (requireList (.list p.descriptors) "artifacts must be an array" >>=
      validateArtifacts []) = .ok manifest.fields.artifacts := by
    simpa [ResultData.manifestValue] using hchecks.artifacts
  exact hitems _ [] _ hread

/-- A result without dependencies is published as one. -/
theorem dependencies_of_toManifest {manifest : Manifest} (h : p.toManifest action = .ok manifest)
    (hnone : p.dependencies = none) : manifest.fields.dependencies = none := by
  obtain ⟨requested, -, hmanifest⟩ := Except.bind_eq_ok.mp h
  have hchecks := validateManifest_checks manifest.valid
  rw [Manifest.ofValue_eq_ok.mp hmanifest] at hchecks
  have hversion : ((p.manifestValue requested p.descriptors).get (lit "spec_version")).eqStr
      (lit "oncemesh.result/v1") = false := by
    simp [ResultData.manifestValue, hnone, Value.eqStr]
  have hread := hchecks.dependencies
  rw [hversion] at hread
  exact (Except.ok.inj hread).symm

end

end OnceMesh
