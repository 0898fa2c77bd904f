import OnceMesh.Authorization
import OnceMesh.Documents

/-!
# Derivation of authorization partitions

An authorization partition is HMAC-SHA-256 of the canonical form of the claims: a tenant, its scopes
in order, and perhaps a part of the subjects.
-/

namespace OnceMesh

open Python

/-- `hmac.new(key, message, hashlib.sha256).digest()`. -/
def hmacSha256 [Sha256] (key message : Bytes) : Bytes :=
  let short := if key.length > 64 then Sha256.hash key else key
  let block := short ++ List.replicate (64 - short.length) 0
  Sha256.hash (block.map (· ^^^ 0x5C) ++ Sha256.hash (block.map (· ^^^ 0x36) ++ message))

/-- The claims of an authorization partition. -/
structure PartitionClaims where
  tenant : Str
  scopes : List Str
  subjectPartition : Option Str

namespace PartitionClaims

variable (claims : PartitionClaims)

/-- The checks of the claims. -/
def validate : Except PyError Unit := do
  raiseIf (claims.tenant = []) "tenant must be a non-empty string"
  raiseIf (claims.scopes = [] ∨ [] ∈ claims.scopes) "scopes must be a non-empty string list"
  raiseIf (¬claims.scopes.Nodup) "scopes must be unique"
  raiseIf (claims.subjectPartition = some []) "subject_partition must be null or a non-empty string"

/-- `claims`, as they are hashed. -/
def document : Value :=
  .dict [(lit "profile", .str (lit "oncemesh.authorization-partition/v1")),
    (lit "tenant", .str claims.tenant),
    (lit "scopes", .list ((sortedTexts claims.scopes).map .str)),
    (lit "subject_partition", claims.subjectPartition.elim .none .str)]

/-- The message that is hashed for the claims. -/
def message : Except PyError Bytes := do
  claims.validate
  let data ← canonicalJson claims.document
  pure (ascii "OnceMesh authorization partition v1\x00" ++ data)

end PartitionClaims

/-- `derive_authorization_partition`. -/
def deriveAuthorizationPartition [Sha256] (claims : PartitionClaims) (partitionKey : Bytes) :
    Except PyError Str := do
  claims.validate
  raiseIf (partitionKey.length < 32) "partition key must contain at least 32 bytes"
  let message ← claims.message
  pure (lit "hmac-sha256:" ++ hex (hmacSha256 partitionKey message))

namespace PartitionClaims

/-- The claims name the same tenant, the same scopes in any order, and the same part of the
subjects. -/
structure Same (claims claims' : PartitionClaims) : Prop where
  tenant : claims.tenant = claims'.tenant
  scopes : ∀ scope, scope ∈ claims.scopes ↔ scope ∈ claims'.scopes
  subjectPartition : claims.subjectPartition = claims'.subjectPartition

variable {claims claims' : PartitionClaims}

theorem wellFormed_document (claims : PartitionClaims) : claims.document.WellFormed := by
  have hscopes : ∀ texts : List Str, (Value.list (texts.map .str)).WellFormed := by
    intro texts
    rw [Value.wellFormed_list, List.forall_mem_map]
    exact fun text _ => trivial
  obtain ⟨tenant, scopes, subject⟩ := claims
  rw [document, Value.wellFormed_dict]
  refine ⟨by simp, ?_⟩
  simp only [List.forall_mem_cons, List.not_mem_nil, false_imp_iff, implies_true, and_true]
  refine ⟨trivial, trivial, hscopes _, ?_⟩
  cases subject <;> trivial

theorem nodup_of_validate (h : claims.validate = .ok ()) : claims.scopes.Nodup := by
  obtain ⟨-, h⟩ := Except.check_eq_ok.mp h
  obtain ⟨-, h⟩ := Except.check_eq_ok.mp h
  obtain ⟨hnodup, -⟩ := Except.check_eq_ok.mp h
  rw [raiseIf_eq_ok, decide_eq_false_iff_not, not_not] at hnodup
  exact hnodup

/-- Objects with the same keys, in the same order, are the same JSON value exactly when their values
are. -/
theorem same_dict_iff_forall₂ {xs ys : List (Str × Value)}
    (hkeys : xs.map Prod.fst = ys.map Prod.fst) (hnodup : (ys.map Prod.fst).Nodup) :
    (Value.dict xs).Same (.dict ys) ↔ List.Forall₂ (fun x y => x.2.Same y.2) xs ys := by
  have hlength : xs.length = ys.length := by
    rw [← List.length_map Prod.fst, hkeys, List.length_map]
  have hkey : ∀ i (hi : i < xs.length) (hi' : i < ys.length),
      (xs.get ⟨i, hi⟩).1 = (ys.get ⟨i, hi'⟩).1 := by
    intro i hi hi'
    have h := List.getElem_of_eq hkeys (i := i) (by rwa [List.length_map])
    simpa using h
  rw [Value.Same, Value.sameItems_iff, List.forall₂_iff_get]
  refine and_congr_right fun _ => ?_
  constructor
  · intro hitems i hi hi'
    obtain ⟨w, hw, hsame⟩ := hitems _ (List.get_mem xs ⟨i, hi⟩)
    rw [hkey i hi hi'] at hw
    -- the key names one member only
    have hmember := List.inj_on_of_nodup_map hnodup hw (List.get_mem ys ⟨i, hi'⟩) rfl
    rw [← hmember]
    exact hsame
  · intro hitems x hx
    obtain ⟨⟨i, hi⟩, rfl⟩ := List.get_of_mem hx
    have hi' : i < ys.length := hlength ▸ hi
    refine ⟨(ys.get ⟨i, hi'⟩).2, ?_, hitems i hi hi'⟩
    rw [hkey i hi hi']
    exact List.get_mem ys ⟨i, hi'⟩

/-- Arrays of strings are the same JSON value only when they are equal. -/
theorem sameList_str_iff {texts texts' : List Str} :
    Value.SameList (texts.map .str) (texts'.map .str) ↔ texts = texts' := by
  have hstr : ∀ text text' : Str, (Value.str text).Same (.str text') ↔ text = text' := by
    intro text text'
    rw [Value.Same, Value.str.injEq]
    rintro _ _ ⟨⟩
    rintro _ _ ⟨⟩
  rw [Value.sameList_iff, List.forall₂_map_left_iff, List.forall₂_map_right_iff]
  simp only [hstr, List.forall₂_eq_eq_eq]

theorem same_optionText_iff {text text' : Option Str} :
    (text.elim Value.none .str).Same (text'.elim Value.none .str) ↔ text = text' := by
  cases text <;> cases text' <;> simp [Value.Same]

/-- Sorting forgets the order of the scopes, and nothing else. -/
theorem sortedTexts_eq_iff {texts texts' : List Str} (h : texts.Nodup) (h' : texts'.Nodup) :
    sortedTexts texts = sortedTexts texts' ↔ ∀ text, text ∈ texts ↔ text ∈ texts' := by
  have hperm : ∀ texts : List Str, (sortedTexts texts).Perm texts :=
    fun texts => List.perm_insertionSort _ texts
  have hsorted : ∀ texts : List Str, (sortedTexts texts).Pairwise (· ≤ ·) :=
    fun texts => List.pairwise_insertionSort _ texts
  rw [← List.perm_ext_iff_of_nodup h h']
  constructor
  · intro hsame
    exact (hperm texts).symm.trans (hsame ▸ hperm texts')
  · intro hsame
    have hboth := (hperm texts).trans (hsame.trans (hperm texts').symm)
    exact hboth.eq_of_pairwise' (hsorted texts) (hsorted texts')

/-- The documents of two claims are the same exactly when the claims are. -/
theorem same_document_iff (h : claims.scopes.Nodup) (h' : claims'.scopes.Nodup) :
    claims.document.Same claims'.document ↔ claims.Same claims' := by
  have hfields : claims.document.Same claims'.document ↔ claims.tenant = claims'.tenant ∧
      sortedTexts claims.scopes = sortedTexts claims'.scopes ∧
      claims.subjectPartition = claims'.subjectPartition := by
    rw [document, document, same_dict_iff_forall₂ (by rfl) (by simp)]
    simp [sameList_str_iff, same_optionText_iff, Value.Same]
  rw [hfields, sortedTexts_eq_iff h h']
  constructor
  · rintro ⟨htenant, hscopes, hsubject⟩
    exact ⟨htenant, hscopes, hsubject⟩
  · rintro ⟨htenant, hscopes, hsubject⟩
    exact ⟨htenant, hscopes, hsubject⟩

/-- The message of claims that are accepted is the domain and the canonical form of their
document. -/
theorem message_eq_ok {data : Bytes} :
    claims.message = .ok data ↔ claims.validate = .ok () ∧ InProfile claims.document ∧
      data = ascii "OnceMesh authorization partition v1\x00" ++ canonicalBytes claims.document := by
  rw [message, Except.check_eq_ok, Except.bind_eq_ok]
  refine and_congr_right fun _ => ?_
  constructor
  · rintro ⟨bytes, hbytes, ⟨⟩⟩
    obtain ⟨hprofile, rfl⟩ := canonicalJson_eq_ok.mp hbytes
    exact ⟨hprofile, rfl⟩
  · rintro ⟨hprofile, rfl⟩
    exact ⟨_, canonicalJson_of_inProfile hprofile, rfl⟩

end PartitionClaims

/-- A token is derived from claims that are accepted. -/
theorem deriveAuthorizationPartition_eq_ok [Sha256] {claims : PartitionClaims}
    {partitionKey : Bytes}
    {token : Str} (h : deriveAuthorizationPartition claims partitionKey = .ok token) :
    ∃ message, claims.message = .ok message ∧
      token = lit "hmac-sha256:" ++ hex (hmacSha256 partitionKey message) := by
  obtain ⟨-, h⟩ := Except.check_eq_ok.mp h
  obtain ⟨-, h⟩ := Except.check_eq_ok.mp h
  obtain ⟨message, hmessage, ⟨⟩⟩ := Except.bind_eq_ok.mp h
  exact ⟨message, hmessage, rfl⟩

end OnceMesh
