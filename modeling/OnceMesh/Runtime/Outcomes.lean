import OnceMesh.Cache.Lineage
import OnceMesh.Ecmascript.Value
import OnceMesh.Runtime

/-!
# What a call returns

The lemmas the theorems about the two runtimes are made of: what a hit of a lookup has passed
(`Found`), what is returned of it (`Delivers`), what it takes to pass the receipt gate
(`ReceiptVerified`), and what an execution and a substitution leave behind.
-/

namespace OnceMesh

open Python

variable {τ σ : Type} [Sha256]

/-! ### Hits -/

/-- What a hit of a lookup has passed, in the store it was found in. -/
structure Found (ignoreFreshness : Bool) (action : Value) (stores : List Store) (policy : Policy)
    (hit : Hit) (store : Store) : Prop where
  mem : store ∈ stores
  tier_eq : hit.tier = store.name
  listed : ∃ requested values, actionDigest action = .ok requested ∧
    hit.manifest.fields.actionDigest = requested ∧ store.candidates requested = .ok values ∧
    hit.manifest.document ∈ values
  trusted : trusts policy.trustedProducers hit.manifest.fields.producer = true
  fresh : ignoreFreshness = false → Fresh policy store hit.manifest
  artifacts : List.Forall₂ (fun d artifact => artifact.1 = d.name ∧ Intact store d artifact.2)
    hit.manifest.fields.artifacts hit.artifacts

/-- What a lookup finds has passed its checks. -/
theorem exists_found_of_lookup {ignoreFreshness : Bool} {action : Value} {stores : List Store}
    {policy : Policy} {outcome : LookupOutcome} {hit : Hit}
    (h : lookup ignoreFreshness action stores policy = .ok outcome)
    (hhit : outcome.hit = some hit) :
    ∃ store, Found ignoreFreshness action stores policy hit store := by
  obtain ⟨found, rejections⟩ := outcome
  subst hhit
  obtain ⟨requested, hrequested, store, hstore, -, values, hvalues, hlisted, e, he, rfl⟩ :=
    exists_evaluate_of_lookup h
  obtain ⟨hheader, -, hresult, -⟩ := evaluate_succ_eq_ok.mp he
  obtain ⟨htrusted, -, hfresh, hread⟩ := checkResult_eq_ok.mp hresult
  refine ⟨store, hstore, rfl, ⟨requested, values, hrequested, (checkHeader_eq_ok.mp hheader).2.1,
    hvalues, hlisted⟩, htrusted, ?_, readArtifacts_manifest.mp hread⟩
  rintro rfl
  exact fresh_of_checkFreshness hfresh

omit [Sha256] in
/-- A computed hit that passes a test is a hit. -/
theorem exists_hit_of_any {x : Except PyError LookupOutcome} {p : Hit → Prop} [DecidablePred p]
    (h : (x.toOption.bind LookupOutcome.hit).any (fun hit => decide (p hit)) = true) :
    ∃ candidate hit, x = .ok candidate ∧ candidate.hit = some hit ∧ p hit := by
  obtain ⟨hit, hhit, htest⟩ := (Option.any_eq_true _ _).mp h
  obtain ⟨candidate, hcandidate, hhit⟩ := Option.bind_eq_some_iff.mp hhit
  cases x with
  | error e => cases hcandidate
  | ok outcome =>
    cases hcandidate
    exact ⟨candidate, hit, rfl, hhit, of_decide_eq_true htest⟩

/-- The artifacts are those the manifest names, with their media types. -/
structure Delivers (manifest : Manifest) (artifacts : Artifacts) : Prop where
  named : ∀ descriptor ∈ manifest.fields.artifacts, ∃ data,
    artifacts.get? descriptor.name = some (data, descriptor.mediaType) ∧
      data.length = descriptor.size ∧ digestBytes data = descriptor.digest
  only : ∀ name artifact, artifacts.get? name = some artifact →
    ∃ descriptor ∈ manifest.fields.artifacts, descriptor.name = name

/-- The artifacts of a hit can be returned, and are those its manifest names. -/
theorem Found.exists_candidateOutputs {ignoreFreshness : Bool} {action : Value}
    {stores : List Store} {policy : Policy} {hit : Hit} {store : Store}
    (h : Found ignoreFreshness action stores policy hit store) :
    ∃ artifacts, candidateOutputs hit = .ok artifacts ∧ Delivers hit.manifest artifacts := by
  -- every artifact has a media type
  have hmedia : ∀ d ∈ hit.manifest.fields.artifacts,
      (mediaTypes hit.manifest).get? d.name = some d.mediaType := by
    intro d hd
    rw [mediaTypes]
    apply Dict.get?_ofPairs_of_mem
    · rw [List.map_map]
      exact hit.manifest.nodup_names
    · exact List.mem_map_of_mem hd
  obtain ⟨items, hitems⟩ : ∃ items, List.Forall₂ (fun artifact item =>
      ∃ mediaType, (mediaTypes hit.manifest).get? artifact.1 = some mediaType ∧
        (artifact.1, artifact.2, mediaType) = item) hit.artifacts items := by
    rw [exists_forall₂_iff]
    intro artifact hartifact
    obtain ⟨d, hd, hname, -⟩ := exists_of_forall₂_right h.artifacts hartifact
    exact ⟨_, d.mediaType, by rw [hname, hmedia d hd], rfl⟩
  have houtputs : candidateOutputs hit = .ok (Dict.ofPairs items) := by
    rw [candidateOutputs, Except.bind_eq_ok]
    refine ⟨items, Except.mapM_eq_ok.mpr (hitems.imp ?_), rfl⟩
    rintro artifact _ ⟨mediaType, hget, rfl⟩
    simp only [hget]
  -- the names are those of the manifest
  have hnames : (items.map Prod.fst).Nodup := by
    have hfst : items.map Prod.fst = hit.manifest.fields.artifacts.map ArtifactDescriptor.name := by
      have hleft : hit.artifacts.map Prod.fst = items.map Prod.fst := by
        rw [← List.forall₂_eq_eq_eq, List.forall₂_map_left_iff, List.forall₂_map_right_iff]
        exact hitems.imp fun artifact item ⟨_, _, heq⟩ => congrArg Prod.fst heq
      have hright : hit.manifest.fields.artifacts.map ArtifactDescriptor.name =
          hit.artifacts.map Prod.fst := by
        rw [← List.forall₂_eq_eq_eq, List.forall₂_map_left_iff, List.forall₂_map_right_iff]
        exact h.artifacts.imp fun d artifact hd => hd.1.symm
      exact hleft.symm.trans hright.symm
    rw [hfst]
    exact hit.manifest.nodup_names
  refine ⟨_, houtputs, ?_, ?_⟩
  · intro d hd
    obtain ⟨artifact, hartifact, hname, hintact⟩ := exists_of_forall₂_left h.artifacts hd
    obtain ⟨item, hitem, mediaType, hget, rfl⟩ := exists_of_forall₂_left hitems hartifact
    rw [hname, hmedia d hd] at hget
    cases hget
    refine ⟨artifact.2, ?_, hintact.2⟩
    rw [← hname]
    exact Dict.get?_ofPairs_of_mem hnames hitem
  · intro name item hget
    obtain ⟨artifact, hartifact, mediaType, -, heq⟩ :=
      exists_of_forall₂_right hitems (Dict.mem_of_get?_ofPairs hget)
    obtain ⟨d, hd, hname, -⟩ := exists_of_forall₂_right h.artifacts hartifact
    refine ⟨d, hd, ?_⟩
    rw [← hname]
    exact congrArg Prod.fst heq

/-! ### Receipts -/

section

variable [Ed25519]

/-- A receipt of the store, for exactly this manifest, verifies under a key that the policy trusts
and the registry has as an active one of the producer. -/
def ReceiptVerified (hit : Hit) (stores : List Store) (policy : OperationPolicy)
    (registry : FileReceiptKeyRegistry) : Prop :=
  ∃ store ∈ stores, store.name = hit.tier ∧ ∃ receipts receipt keyId key reason,
    store.receipts hit.manifest.digest = .ok receipts ∧ receipt ∈ receipts ∧
    (receipt.get (lit "signature")).get (lit "key_id") = .str keyId ∧
    keyId ∈ policy.trustedReceiptKeys ∧
    registry.resolve keyId hit.manifest.fields.producer = .ok ⟨some key, reason⟩ ∧
    verifyReceiptForManifest receipt hit.manifest key.publicKey = .ok true

theorem checkReceipt_eq_verified {manifest : Manifest} {policy : OperationPolicy}
    {registry : FileReceiptKeyRegistry} {receipt : Value}
    (h : checkReceipt manifest policy registry receipt = .ok .verified) :
    ∃ keyId key reason, (receipt.get (lit "signature")).get (lit "key_id") = .str keyId ∧
      keyId ∈ policy.trustedReceiptKeys ∧
      registry.resolve keyId manifest.fields.producer = .ok ⟨some key, reason⟩ ∧
      verifyReceiptForManifest receipt manifest key.publicKey = .ok true := by
  unfold checkReceipt at h
  obtain ⟨signature, hsignature, h⟩ := Except.bind_eq_ok.mp h
  have hget : signature = receipt.get (lit "signature") := by
    rw [callGet] at hsignature
    split_ifs at hsignature
    exact (Except.ok.inj hsignature).symm
  subst hget
  split_ifs at h with hdict
  · cases h
  split at h
  next keyId hkeyId =>
    by_cases htrusted : keyId ∈ policy.trustedReceiptKeys
    swap
    · rw [if_pos htrusted] at h
      cases h
    rw [if_neg (not_not.mpr htrusted)] at h
    obtain ⟨resolution, hresolve, h⟩ := Except.bind_eq_ok.mp h
    split_ifs at h with herror
    · cases h
    obtain ⟨key?, reason⟩ := resolution
    cases key? with
    | none => cases h
    | some key =>
      dsimp only at h
      split at h
      next hverify => exact ⟨keyId, key, reason, hkeyId, htrusted, hresolve, hverify⟩
      · cases h
      · split_ifs at h
        all_goals cases h
  next =>
    split_ifs at h
    all_goals cases h

/-- The loop over the receipts ends without a failure at a receipt that verifies. -/
theorem exists_verified_of_checkReceipts {manifest : Manifest} {policy : OperationPolicy}
    {registry : FileReceiptKeyRegistry} {receipts : List Value} {failures : List Str}
    (h : checkReceipts manifest policy registry failures receipts = .ok none) :
    ∃ receipt ∈ receipts, checkReceipt manifest policy registry receipt = .ok .verified := by
  induction receipts generalizing failures with
  | nil => cases h
  | cons receipt rest ih =>
    obtain ⟨check, hcheck, h⟩ := Except.bind_eq_ok.mp h
    cases check with
    | verified => exact ⟨receipt, List.mem_cons_self, hcheck⟩
    | registryError => cases h
    | failed reason =>
      obtain ⟨receipt', hmem, hverified⟩ := ih h
      exact ⟨receipt', List.mem_cons_of_mem _ hmem, hverified⟩

/-- The receipt gate is passed only with a verified receipt. -/
theorem receiptVerified_of_requiredReceiptFailure {hit : Hit} {stores : List Store}
    {policy : OperationPolicy} {registry : Option FileReceiptKeyRegistry}
    (h : requiredReceiptFailure hit stores policy registry = .ok none) :
    ∃ keys ∈ registry, ReceiptVerified hit stores policy keys := by
  unfold requiredReceiptFailure at h
  split at h
  · cases h
  next keys =>
    refine ⟨keys, rfl, ?_⟩
    split at h
    · cases h
    next store hstore =>
      split at h
      · cases h
      · cases h
      next receipts _ hreceipts =>
        obtain ⟨receipt, hmem, hcheck⟩ := exists_verified_of_checkReceipts h
        obtain ⟨keyId, key, reason, hkeyId, htrusted, hresolve, hverify⟩ :=
          checkReceipt_eq_verified hcheck
        have hname : store.name = hit.tier := by simpa using List.find?_some hstore
        exact ⟨store, List.mem_of_find?_eq_some hstore, hname, receipts, receipt, keyId, key,
          reason, hreceipts, hmem, hkeyId, htrusted, hresolve, hverify⟩

end

/-! ### Policies -/

omit [Sha256] in
/-- A policy is in force: the kill switch is off, and the document is valid, enabled, and has the
policy for the operation. -/
structure FilePolicyRegistry.InForce (registry : FilePolicyRegistry) (operation : Str)
    (policy : OperationPolicy) : Prop where
  killSwitch : registry.killSwitch = false
  document : ∃ document, registry.load = .ok document ∧ document.enabled = true ∧
    document.policies.lookup operation = some policy

omit [Sha256] in
/-- A registry only answers with a policy that is in force. -/
theorem FilePolicyRegistry.inForce_of_resolve {registry : FilePolicyRegistry} {operation : Str}
    {resolution : PolicyResolution} {policy : OperationPolicy}
    (h : registry.resolve operation = .ok resolution) (hpolicy : resolution.policy = some policy) :
    registry.InForce operation policy := by
  unfold FilePolicyRegistry.resolve at h
  split_ifs at h with hkill
  · cases h
    cases hpolicy
  split at h
  · split_ifs at h
    cases h
    cases hpolicy
  next document hload =>
    split_ifs at h with hdisabled
    · cases h
      cases hpolicy
    split at h
    · cases h
      cases hpolicy
    next found hlookup =>
      split_ifs at h
      · cases h
        cases hpolicy
      · cases h
        cases hpolicy
        exact ⟨by simpa using hkill, document, hload, by simpa using hdisabled, hlookup⟩

omit [Sha256] in
/-- The registry of a policy document, with the kill switch off. -/
def FilePolicyRegistry.ofDocument (document : Value) : FilePolicyRegistry where
  file := some (canonicalBytes document)
  environment _ := none

omit [Sha256] in
/-- The registry of a document answers with the policies in it. -/
theorem FilePolicyRegistry.resolve_ofDocument {document : Value} {operation : Str}
    {policy : OperationPolicy} (hprofile : InProfile document) (hwf : document.WellFormed)
    (hpolicy : ((validatePolicyDocument document.sortKeys).toOption.bind fun d =>
      if d.enabled then d.policies.lookup operation else none) = some policy)
    (hmode : policy.mode ≠ .disabled) :
    (ofDocument document).resolve operation =
      .ok { policy := some policy, reason := policy.mode.text } := by
  have hload : (ofDocument document).file.loadJson = .ok document.sortKeys :=
    File.loadJson_canonicalBytes hprofile hwf
  cases hvalid : validatePolicyDocument document.sortKeys with
  | error e =>
    rw [hvalid] at hpolicy
    cases hpolicy
  | ok d =>
    have hread : (ofDocument document).load = .ok d := by
      rw [FilePolicyRegistry.load, hload]
      exact hvalid
    rw [hvalid] at hpolicy
    obtain ⟨henabled, hlookup⟩ := Option.ite_none_right_eq_some.mp hpolicy
    -- the empty text is no value of the kill switch
    have hempty : decide (lower (strip []) ∈ killSwitchValues) = false := by decide +kernel
    have hkill : (ofDocument document).killSwitch = false := hempty
    simp only [FilePolicyRegistry.resolve, hkill, hread, henabled, hlookup, hmode]
    rfl

/-! ### Executions -/

/-- What a publication does to the store is all it does. -/
theorem world_of_publish {target : Publishing σ} {action : Value} {artifacts : Artifacts}
    {s t : RunState τ σ} {u : Unit} (h : target.publish action artifacts s = (.ok u, t)) :
    t.world = s.world := by
  rw [Publishing.publish] at h
  cases hstore : target.store with
  | none =>
    rw [hstore] at h
    cases h
    rfl
  | some writer =>
    simp only [hstore] at h
    obtain ⟨_, t', hput, h⟩ := Stateful.bind_eq_ok.mp h
    cases h
    rw [onStore] at hput
    exact (congrArg RunState.world (Prod.mk.inj hput).2).symm

/-- An execution that returns has run `execute` once, in the world it found, and returns its
output. -/
theorem executeFull_eq_ok {action : Value} {execute : Stateful PyError τ Artifacts}
    {target : Publishing σ} {reason : Str} {lookup : Option LookupOutcome} {killSwitchActive : Bool}
    {s t : RunState τ σ} {outcome : ExecutionOutcome}
    (h : executeFull action execute target reason lookup killSwitchActive s = (.ok outcome, t)) :
    execute s.world = (.ok outcome.artifacts, t.world) ∧ outcome.substituted = false ∧
      outcome.decisionReason = reason := by
  obtain ⟨artifacts, t₁, hexecute, h⟩ := Stateful.bind_eq_ok.mp h
  obtain ⟨_, t₂, hpublish, h⟩ := Stateful.bind_eq_ok.mp h
  have hworld := world_of_publish hpublish
  simp only [Stateful.eq_ok_iff_returns, Stateful.returns_bind, Stateful.returns_liftM,
    returns_record, Stateful.returns_pure] at h
  obtain ⟨_, -, _, -, rfl, rfl⟩ := h
  refine ⟨?_, rfl, rfl⟩
  obtain ⟨hresult, hstate⟩ := Prod.mk.inj hexecute
  rw [hworld, ← hstate]
  exact Prod.ext hresult rfl

/-- So has a shadow run. -/
theorem runShadow_eq_ok {action : Value} {stores : List Store}
    {execute : Stateful PyError τ Artifacts} {policy : Policy} {target : Publishing σ}
    {s t : RunState τ σ} {outcome : ShadowOutcome}
    (h : runShadow action stores execute policy target s = (.ok outcome, t)) :
    execute s.world = (.ok outcome.artifacts, t.world) := by
  obtain ⟨lookup, _, hlookup, h⟩ := Stateful.bind_eq_ok.mp h
  cases (Prod.mk.inj hlookup).2
  obtain ⟨artifacts, t₁, hexecute, h⟩ := Stateful.bind_eq_ok.mp h
  simp only [Stateful.eq_ok_iff_returns, Stateful.returns_bind, Stateful.returns_liftM,
    returns_record, Stateful.returns_pure] at h
  obtain ⟨_, -, _, -, u, t₂, hpublish, rfl, rfl⟩ := h
  have hworld := world_of_publish hpublish
  obtain ⟨hresult, hstate⟩ := Prod.mk.inj hexecute
  rw [hworld, ← hstate]
  exact Prod.ext hresult rfl

/-! ### A policy document

It has a policy for one operation, which trusts `alice` and the tier `private`. -/

deriving instance DecidableEq for OperationPolicy

/-- A policy document with a policy of some mode. -/
def examplePolicyDocument (operation mode partition : String) (maxStaleSeconds : ℤ) : Value :=
  .dict [(lit "spec_version", .str (lit "oncemesh.policy/v0")), (lit "enabled", .bool true),
    (lit "operations", .dict [(lit operation, .dict
      [(lit "mode", .str (lit mode)),
        (lit "trusted_result_producers", .list [.str (lit "alice")]),
        (lit "trusted_validation_producers", .list [.str (lit "alice")]),
        (lit "allowed_tiers", .list [.str (lit "private")]),
        (lit "max_validation_ttl_seconds", .int 3600),
        (lit "receipt_requirement", .str (lit "optional")),
        (lit "trusted_receipt_keys", .list []),
        (lit "authorization_partition", .str (lit partition)),
        (lit "max_stale_seconds", .int maxStaleSeconds)])])]

/-- Its policy. -/
def exampleOperationPolicy (mode : Mode) (partition : PartitionRequirement) (maxStaleSeconds : ℤ) :
    OperationPolicy where
  mode := mode
  trustedResultProducers := {lit "alice"}
  trustedValidationProducers := {lit "alice"}
  allowedTiers := {lit "private"}
  maxValidationTtlSeconds := 3600
  receiptRequirement := .optional
  trustedReceiptKeys := ∅
  authorizationPartition := partition
  maxStaleSeconds := maxStaleSeconds

end OnceMesh
