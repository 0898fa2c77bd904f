import OnceMesh.Documents
import OnceMesh.Policy

/-!
# Documents read back from a file

A file holds the canonical encoding of a document, and reading it gives the document with the
members of its objects sorted. `Storable` values survive this; the validators do not look at the
order of members, so that a document read back is as valid as the one written, with the same fields
and the same digest.
-/

namespace OnceMesh

open Python

/-- Canonical JSON stores the value, and the value is one of Python. -/
structure Storable (v : Value) : Prop where
  inProfile : InProfile v
  wellFormed : v.WellFormed

/-- A storable document is read back from its file, with sorted members. -/
theorem Storable.loadJson {v : Value} (h : Storable v) :
    File.loadJson (some (canonicalBytes v)) = .ok v.sortKeys :=
  File.loadJson_canonicalBytes h.inProfile h.wellFormed

/-- The document that is read back is storable again. -/
theorem Storable.sortKeys {v : Value} (h : Storable v) : Storable v.sortKeys :=
  ⟨h.inProfile.sortKeys, Value.wellFormed_sortKeys h.wellFormed⟩

/-- Sorting the members does not change the canonical encoding. -/
theorem Storable.canonicalBytes_sortKeys {v : Value} (h : Storable v) :
    canonicalBytes v.sortKeys = canonicalBytes v := by
  rw [canonicalBytes, canonicalBytes, Json.dumps_sortKeys v h.wellFormed]

/-- Canonical JSON takes a document that is read back as it takes the document itself. -/
theorem Storable.canonicalJson_sortKeys {v : Value} (h : Storable v) :
    canonicalJson v.sortKeys = canonicalJson v := by
  rw [canonicalJson_of_inProfile h.inProfile, canonicalJson_of_inProfile h.inProfile.sortKeys,
    h.canonicalBytes_sortKeys]

/-- A document that is read back has the digest of the one written. -/
theorem Storable.digestOf_sortKeys [Sha256] {v : Value} (h : Storable v) :
    digestOf v.sortKeys = digestOf v := by
  rw [digestOf, digestOf, h.canonicalBytes_sortKeys]

/-! ### Parts of a storable value -/

/-- An array is storable just if its elements are. -/
theorem storable_list {items : List Value} : Storable (.list items) ↔ ∀ v ∈ items, Storable v := by
  constructor
  · rintro ⟨hprofile, hwf⟩ v hv
    cases hprofile with
    | list helements => exact ⟨helements v hv, Value.wellFormed_list.mp hwf v hv⟩
  · intro h
    exact ⟨.list fun v hv => (h v hv).inProfile,
      Value.wellFormed_list.mpr fun v hv => (h v hv).wellFormed⟩

/-- Null is storable. -/
theorem storable_none : Storable .none := ⟨.none, trivial⟩

/-- The members of an object, in either order, have the same values. -/
theorem get_sortKeys {v : Value} (h : Storable v) (key : Str) :
    v.sortKeys.get key = (v.get key).sortKeys := by
  obtain ⟨hprofile, hwf⟩ := h
  cases hprofile with
  | none | bool _ | int _ _ | str _ | list _ => rfl
  | @dict items _ _ =>
    obtain ⟨hnodup, -⟩ := Value.wellFormed_dict.mp hwf
    have hperm : ((items.insertionSort Json.keyLE).map fun i => (i.1, i.2.sortKeys)).Perm
        (items.map fun i => (i.1, i.2.sortKeys)) :=
      (List.perm_insertionSort Json.keyLE items).map _
    have hkeys : (items.map fun i => (i.1, i.2.sortKeys)).map Prod.fst = items.map Prod.fst := by
      rw [List.map_map]
      rfl
    rw [Json.sortKeys_dict]
    by_cases hkey : key ∈ items.map Prod.fst
    · obtain ⟨⟨k, w⟩, hmem, rfl⟩ := List.mem_map.mp hkey
      rw [Value.get_dict_of_mem hnodup hmem]
      refine Value.get_dict_of_mem ?_ (hperm.mem_iff.mpr (List.mem_map.mpr ⟨_, hmem, rfl⟩))
      rwa [(hperm.map Prod.fst).nodup_iff, hkeys]
    · rw [Value.get_dict_of_notMem hkey]
      refine Value.get_dict_of_notMem ?_
      rwa [(hperm.map Prod.fst).mem_iff, hkeys]

/-- The members of a storable object are storable. -/
theorem Storable.get {v : Value} (h : Storable v) (key : Str) : Storable (v.get key) := by
  obtain ⟨hprofile, hwf⟩ := h
  cases hprofile with
  | none | bool _ | int _ _ | str _ | list _ => exact storable_none
  | @dict items _ hvalues =>
    obtain ⟨hnodup, hitems⟩ := Value.wellFormed_dict.mp hwf
    by_cases hkey : key ∈ items.map Prod.fst
    · obtain ⟨⟨k, w⟩, hmem, rfl⟩ := List.mem_map.mp hkey
      rw [Value.get_dict_of_mem hnodup hmem]
      exact ⟨hvalues _ hmem, hitems _ hmem⟩
    · rw [Value.get_dict_of_notMem hkey]
      exact storable_none

/-! ### Checks do not look at the order of members -/

/-- Texts sort to the same list in every order. -/
theorem sortedTexts_congr {texts texts' : List Str} (h : texts.Perm texts') :
    sortedTexts texts = sortedTexts texts' := by
  refine List.Perm.eq_of_pairwise' (List.pairwise_insertionSort _ _)
    (List.pairwise_insertionSort _ _) ?_
  exact (List.perm_insertionSort _ _).trans (h.trans (List.perm_insertionSort _ _).symm)

section

variable (v : Value)

/-- A text is a scalar, and sorting leaves it as it is. -/
@[simp]
theorem eqStr_sortKeys (text : Str) : v.sortKeys.eqStr text = v.eqStr text := by
  cases v <;> rfl

/-- A table of texts is looked up by scalars only. -/
@[simp]
theorem lookupIn_sortKeys {α : Type} (table : List (Str × α)) :
    v.sortKeys.lookupIn table = v.lookupIn table := by
  cases v <;> rfl

/-- The check for a non-empty text looks at scalars only. -/
@[simp]
theorem requireNonemptyString_sortKeys (label : String) :
    requireNonemptyString v.sortKeys label = requireNonemptyString v label := by
  cases v <;> rfl

/-- The check for a digest looks at scalars only. -/
@[simp]
theorem requireDigest_sortKeys (message : String) :
    requireDigest v.sortKeys message = requireDigest v message := by
  cases v <;> rfl

/-- The check for a timestamp looks at scalars only. -/
@[simp]
theorem requireUtcTimestamp_sortKeys (label : String) :
    requireUtcTimestamp v.sortKeys label = requireUtcTimestamp v label := by
  rw [requireUtcTimestamp, requireUtcTimestamp, requireNonemptyString_sortKeys]

/-- The check for a timestamp or null looks at scalars only. -/
@[simp]
theorem optionalTimestamp_sortKeys (label : String) :
    optionalTimestamp v.sortKeys label = optionalTimestamp v label := by
  cases v <;> rfl

/-- Keys are compared as sets, and reported in order. -/
@[simp]
theorem requireExactKeys_sortKeys (expected : List Str) (label : String) :
    requireExactKeys v.sortKeys expected label = requireExactKeys v expected label := by
  cases v with
  | dict items =>
    have hkeys : (((items.insertionSort Json.keyLE).map fun i => (i.1, i.2.sortKeys)).map
        Prod.fst).Perm (items.map Prod.fst) := by
      rw [List.map_map]
      exact (List.perm_insertionSort Json.keyLE items).map Prod.fst
    rw [Json.sortKeys_dict, requireExactKeys, requireExactKeys]
    simp only [hkeys.mem_iff, sortedTexts_congr (hkeys.filter _)]
  | _ => rfl

end

variable {v : Value}

/-! ### Documents stay valid -/

/-- The descriptor of an artifact that is read back is as valid as it was. -/
theorem validateArtifact_sortKeys (h : Storable v) (names : List Str) :
    validateArtifact names v.sortKeys = validateArtifact names v := by
  simp only [validateArtifact, get_sortKeys h, requireExactKeys_sortKeys,
    requireNonemptyString_sortKeys, requireDigest_sortKeys]
  cases v.get (lit "size") <;> rfl

/-- The artifacts that are read back are as valid as they were, by induction on their list. -/
theorem validateArtifacts_sortKeys {items : List Value} (h : ∀ v ∈ items, Storable v)
    (names : List Str) :
    validateArtifacts names (items.map Value.sortKeys) = validateArtifacts names items := by
  induction items generalizing names with
  | nil => rfl
  | cons v rest ih =>
    rw [List.forall_mem_cons] at h
    simp only [List.map_cons, validateArtifacts, validateArtifact_sortKeys h.1, ih h.2]

/-- A dependency that is read back is as valid as it was. -/
theorem validateDependency_sortKeys (h : Storable v) (before : List Dependency) :
    validateDependency before v.sortKeys = validateDependency before v := by
  simp only [validateDependency, get_sortKeys h, requireExactKeys_sortKeys,
    requireNonemptyString_sortKeys, requireDigest_sortKeys]

/-- The dependencies that are read back are as valid as they were, by induction on their list. -/
theorem validateDependencies_sortKeys {items : List Value} (h : ∀ v ∈ items, Storable v)
    (before : List Dependency) :
    validateDependencies before (items.map Value.sortKeys) = validateDependencies before items := by
  induction items generalizing before with
  | nil => rfl
  | cons v rest ih =>
    rw [List.forall_mem_cons] at h
    simp only [List.map_cons, validateDependencies, validateDependency_sortKeys h.1, ih h.2]

/-- A loop over the elements of an array does not look at the order of their members. -/
theorem requireList_sortKeys_bind {α : Type} (h : Storable v) (message : String)
    {loop : List Value → Except PyError α}
    (hloop : ∀ items : List Value, (∀ w ∈ items, Storable w) →
      loop (items.map Value.sortKeys) = loop items) :
    (requireList v.sortKeys message >>= loop) = (requireList v message >>= loop) := by
  cases v with
  | list items =>
    rw [Value.sortKeys, Value.sortKeysList_eq]
    exact hloop items (storable_list.mp h)
  | _ => rfl

/-- A manifest that is read back is as valid as it was, and has the same fields. -/
theorem validateManifest_sortKeys (h : Storable v) :
    validateManifest v.sortKeys = validateManifest v := by
  simp only [validateManifest, get_sortKeys h, requireExactKeys_sortKeys, eqStr_sortKeys,
    lookupIn_sortKeys, requireDigest_sortKeys, requireUtcTimestamp_sortKeys,
    optionalTimestamp_sortKeys, requireNonemptyString_sortKeys, h.canonicalJson_sortKeys]
  have hdependencies := @requireList_sortKeys_bind _ _ (h.get (lit "dependencies"))
    "dependencies must be an array" (validateDependencies [])
    fun items hitems => validateDependencies_sortKeys hitems []
  simp only [hdependencies]
  refine bind_congr fun _ => bind_congr fun _ => bind_congr fun _ => bind_congr fun _ =>
    bind_congr fun _ => bind_congr fun _ => bind_congr fun _ => ?_
  refine requireList_sortKeys_bind (h.get (lit "artifacts")) _ fun items hitems => ?_
  simp only [validateArtifacts_sortKeys hitems]

/-- An invalidation that is read back is as valid as it was, and has the same fields. -/
theorem validateInvalidation_sortKeys (h : Storable v) :
    validateInvalidation v.sortKeys = validateInvalidation v := by
  simp only [validateInvalidation, get_sortKeys h, requireExactKeys_sortKeys, eqStr_sortKeys,
    requireDigest_sortKeys, requireUtcTimestamp_sortKeys, requireNonemptyString_sortKeys,
    h.canonicalJson_sortKeys]

end OnceMesh
