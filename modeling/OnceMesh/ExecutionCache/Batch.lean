import OnceMesh.ExecutionCache.Barrier
import OnceMesh.Python.Stateful.Finally

/-!
# Batches

`ExecutionCacheBridge.set` checks and publishes one pair of a batch after the other. A pair that is
refused ends the call, and what has been published before it stays published: the call is all or
nothing if no pair is published before the first one that is refused (`set_allOrNothing_iff`).
`RuntimeCacheAdapter.set` encodes all values before it publishes the first.

What is put into a store does not depend on the store (`exists_set`). `recordingStore` records it.
-/

namespace OnceMesh

open Python

variable {β σ V : Type}

/-! ### Recording what is put -/

/-- What `set` puts into a store. -/
inductive StorePut where
  | blob (data : Bytes)
  | result (manifest : Manifest)

/-- The store after a put. -/
def StorePuts.apply (puts : StorePuts σ) (store : σ) : StorePut → σ
  | .blob data => puts.putBlob store data
  | .result manifest => puts.putResult store manifest

/-- A store that records what is put. -/
def recordingStore : StorePuts (List StorePut) where
  putBlob record data := record ++ [.blob data]
  putResult record manifest := record ++ [.result manifest]
  putValidation record _ := record
  putInvalidation record _ := record
  putReceipt record _ _ := record

/-- The manifests among what is put. -/
def manifestsOf (record : List StorePut) : List Manifest :=
  record.filterMap fun put =>
    match put with
    | .blob _ => none
    | .result manifest => some manifest

theorem foldl_apply_recordingStore (record puts : List StorePut) :
    puts.foldl recordingStore.apply record = record ++ puts := by
  induction puts generalizing record with
  | nil => exact (List.append_nil record).symm
  | cons put puts ih =>
    rw [List.foldl_cons, ih]
    cases put <;> simp [StorePuts.apply, recordingStore]

/-! ### Pairs -/

/-- The TTL is null or a positive integer. -/
def toPublish (ttl : Value) : Bool :=
  match checkTtl ttl with
  | .ok (some _) => true
  | _ => false

theorem toPublish_of_checkTtl {value : Value} {ttl : Option (Option ℤ)}
    (h : checkTtl value = .ok ttl) : toPublish value = ttl.isSome := by
  rw [toPublish, h]
  cases ttl <;> rfl

/-- A pair of a batch: a key, its value and its TTL. -/
abbrev BatchPair (V : Type) := ExecutionCacheKey × V × Value

/-- The pair is to be published. -/
def BatchPair.selected (pair : BatchPair V) : Bool := toPublish pair.2.2

/-- There is one first refusal. -/
theorem first_refusal_unique {α : Type} {p : α → Prop} {before before' after after' : List α}
    {a a' : α} (heq : before ++ a :: after = before' ++ a' :: after') (h : ∀ x ∈ before, p x)
    (ha : ¬p a) (h' : ∀ x ∈ before', p x) (ha' : ¬p a') : before = before' := by
  classical
  have htake : ∀ {l rest : List α} {x : α}, (∀ y ∈ l, p y) → ¬p x →
      (l ++ x :: rest).takeWhile (fun y => decide (p y)) = l := by
    intro l rest x hl hx
    rw [List.takeWhile_append_of_pos (by simpa using hl),
      List.takeWhile_cons_of_neg (by simpa using hx), List.append_nil]
  rw [← htake h ha, heq, htake h' ha']

section

variable [Sha256]

/-- A computation puts the same into every store. -/
def PutsInto (run : ∀ {σ : Type}, StoreWriter σ → Stateful PyError σ Unit)
    (result : Except PyError Unit) (record : List StorePut) : Prop :=
  ∀ {σ : Type} (puts : StorePuts σ) (store : σ),
    run puts.writer store = (result, record.foldl puts.apply store)

section Bridge

variable (bridge : ExecutionCacheBridge) (registry : EpochRegistry β) (b : β) (now : DateTime)

/-- The pair is not refused: its TTL is null or an integer, and a pair that is published has an
action and times that have a manifest. -/
def AcceptsPair (pair : BatchPair EncodedExecutionValue) : Prop :=
  ∃ ttl, checkTtl pair.2.2 = .ok ttl ∧ ∀ seconds, ttl = some seconds →
    ∃ epochs, registry.epochs b pair.1.ns = .ok epochs ∧
      (CacheWrite.make bridge epochs pair.1 pair.2.1 now seconds).isOk = true

/-- The manifest is what is published for the pair. -/
def PublishesPair (pair : BatchPair EncodedExecutionValue) (manifest : Manifest) : Prop :=
  ∃ seconds epochs w, checkTtl pair.2.2 = .ok (some seconds) ∧
    registry.epochs b pair.1.ns = .ok epochs ∧
    CacheWrite.make bridge epochs pair.1 pair.2.1 now seconds = .ok w ∧ manifest = w.manifest

/-- What a batch comes to: all pairs are accepted, or the first that is refused ends it. -/
inductive BatchOutcome : List (BatchPair EncodedExecutionValue) → Except PyError Unit →
    List Manifest → Prop where
  | all {pairs manifests} (accepted : ∀ pair ∈ pairs, AcceptsPair bridge registry b now pair)
      (published : List.Forall₂ (PublishesPair bridge registry b now)
        (pairs.filter BatchPair.selected) manifests) :
      BatchOutcome pairs (.ok ()) manifests
  | refused {before pair after e manifests}
      (accepted : ∀ pair ∈ before, AcceptsPair bridge registry b now pair)
      (refused : ¬AcceptsPair bridge registry b now pair)
      (published : List.Forall₂ (PublishesPair bridge registry b now)
        (before.filter BatchPair.selected) manifests) :
      BatchOutcome (before ++ pair :: after) (.error e) manifests

variable {bridge registry b now}

/-- An accepted pair in front. -/
theorem BatchOutcome.cons {pair : BatchPair EncodedExecutionValue}
    {pairs : List (BatchPair EncodedExecutionValue)} {result : Except PyError Unit}
    {manifests manifests' : List Manifest}
    (h : BatchOutcome bridge registry b now pairs result manifests)
    (haccepts : AcceptsPair bridge registry b now pair)
    (hpublished : (pair.selected = false ∧ manifests' = manifests) ∨
      (pair.selected = true ∧ ∃ manifest, PublishesPair bridge registry b now pair manifest ∧
        manifests' = manifest :: manifests)) :
    BatchOutcome bridge registry b now (pair :: pairs) result manifests' := by
  have hfilter : ∀ {l : List (BatchPair EncodedExecutionValue)},
      List.Forall₂ (PublishesPair bridge registry b now) (l.filter BatchPair.selected)
        manifests →
      List.Forall₂ (PublishesPair bridge registry b now)
        ((pair :: l).filter BatchPair.selected) manifests' := by
    intro l hl
    rcases hpublished with ⟨hskip, rfl⟩ | ⟨htake, manifest, hmanifest, rfl⟩
    · rwa [List.filter_cons_of_neg (by rw [hskip]; exact Bool.false_ne_true)]
    · rw [List.filter_cons_of_pos htake]
      exact .cons hmanifest hl
  cases h with
  | all accepted published =>
    exact .all (List.forall_mem_cons.mpr ⟨haccepts, accepted⟩) (hfilter published)
  | @refused before p after e _ accepted refused published =>
    show BatchOutcome bridge registry b now ((pair :: before) ++ p :: after) _ _
    exact .refused (List.forall_mem_cons.mpr ⟨haccepts, accepted⟩) refused (hfilter published)

/-- A publication that raises has put the envelope, if it got to the manifest. -/
theorem exists_publishValue_of_error {epochs : Epochs} {key : ExecutionCacheKey}
    {value : EncodedExecutionValue} {ttl : Option ℤ} {e : PyError}
    (h : CacheWrite.make bridge epochs key value now ttl = .error e) :
    ∃ record, manifestsOf record = [] ∧ PutsInto (fun writer => bridge.publishValue writer now
      (bridge.actionFor epochs key) value ttl) (.error e) record := by
  unfold CacheWrite.make at h
  split at h
  next e' hpacked =>
    cases h
    refine ⟨[], rfl, fun puts store => ?_⟩
    show bridge.publishValue puts.writer now _ value ttl store = _
    rw [ExecutionCacheBridge.publishValue, Stateful.bind_liftM_apply, hpacked]
    rfl
  next envelope hpacked =>
    split at h
    next e' hboundary =>
      cases h
      refine ⟨[], rfl, fun puts store => ?_⟩
      show bridge.publishValue puts.writer now _ value ttl store = _
      rw [ExecutionCacheBridge.publishValue, Stateful.bind_liftM_apply, hpacked]
      dsimp only
      rw [Stateful.bind_liftM_apply, hboundary]
      rfl
    next boundary hboundary =>
      split at h
      next e' hpublished =>
        cases h
        refine ⟨[.blob envelope], rfl, fun puts store => ?_⟩
        show bridge.publishValue puts.writer now _ value ttl store = _
        rw [ExecutionCacheBridge.publishValue, Stateful.bind_liftM_apply, hpacked]
        dsimp only
        rw [Stateful.bind_liftM_apply, hboundary]
        exact Stateful.bind_apply_of_error (publishResult_of_error hpublished store)
      · cases h

/-- Publishing a value puts its envelope and its manifest, or raises before the manifest. -/
theorem exists_publishValue (epochs : Epochs) (key : ExecutionCacheKey)
    (value : EncodedExecutionValue) (ttl : Option ℤ) :
    ∃ result record, PutsInto (fun writer => bridge.publishValue writer now
        (bridge.actionFor epochs key) value ttl) result record ∧
      match CacheWrite.make bridge epochs key value now ttl with
      | .ok w => result = .ok () ∧ manifestsOf record = [w.manifest]
      | .error e => result = .error e ∧ manifestsOf record = [] := by
  cases hmake : CacheWrite.make bridge epochs key value now ttl with
  | ok w =>
    refine ⟨.ok (), [.blob w.envelope, .result w.manifest], ?_, rfl, rfl⟩
    intro σ puts store
    rcases @publishValue_cases _ σ bridge epochs key value now ttl puts store with
      ⟨w', hmake', hpublish⟩ | ⟨e, herror, -⟩
    · cases hmake.symm.trans hmake'
      exact hpublish
    · cases hmake.symm.trans herror
  | error e =>
    obtain ⟨record, hmanifests, hputs⟩ := exists_publishValue_of_error hmake
    exact ⟨.error e, record, hputs, rfl, hmanifests⟩

/-- A batch has one outcome in every store. -/
theorem exists_setEach (pairs : List (BatchPair EncodedExecutionValue)) :
    ∃ result record, PutsInto (fun writer => bridge.setEach registry b writer now pairs) result
        record ∧
      BatchOutcome bridge registry b now pairs result (manifestsOf record) := by
  induction pairs with
  | nil => exact ⟨.ok (), [], fun puts store => rfl, .all (by simp) .nil⟩
  | cons pair rest ih =>
    obtain ⟨key, value, ttl⟩ := pair
    obtain ⟨result, record, hputs, houtcome⟩ := ih
    cases hcheck : checkTtl ttl with
    | error e =>
      have hrefused : ¬AcceptsPair bridge registry b now (key, value, ttl) := by
        rintro ⟨ttl', hcheck', -⟩
        cases hcheck.symm.trans hcheck'
      refine ⟨.error e, [], fun puts store => ?_, ?_⟩
      · show bridge.setEach registry b puts.writer now ((key, value, ttl) :: rest) store = _
        rw [ExecutionCacheBridge.setEach, Stateful.bind_liftM_apply, hcheck]
        rfl
      · exact @BatchOutcome.refused _ _ bridge registry b now [] _ rest e [] (by simp) hrefused .nil
    | ok checked =>
      have hpublish := toPublish_of_checkTtl hcheck
      cases checked with
      | none =>
        have haccepts : AcceptsPair bridge registry b now (key, value, ttl) :=
          ⟨none, hcheck, by rintro seconds ⟨⟩⟩
        refine ⟨result, record, fun puts store => ?_, houtcome.cons haccepts ?_⟩
        · show bridge.setEach registry b puts.writer now ((key, value, ttl) :: rest) store = _
          rw [ExecutionCacheBridge.setEach, Stateful.bind_liftM_apply, hcheck]
          exact hputs puts store
        · exact .inl ⟨hpublish, rfl⟩
      | some seconds =>
        cases hepochs : registry.epochs b key.ns with
        | error e =>
          have hrefused : ¬AcceptsPair bridge registry b now (key, value, ttl) := by
            rintro ⟨ttl', hcheck', hrest⟩
            obtain ⟨epochs, hepochs', -⟩ :=
              hrest seconds (Except.ok.inj (hcheck'.symm.trans hcheck))
            cases hepochs.symm.trans hepochs'
          refine ⟨.error e, [], fun puts store => ?_, ?_⟩
          · show bridge.setEach registry b puts.writer now ((key, value, ttl) :: rest) store = _
            rw [ExecutionCacheBridge.setEach, Stateful.bind_liftM_apply, hcheck]
            dsimp only
            rw [Stateful.bind_liftM_apply, hepochs]
            rfl
          · exact @BatchOutcome.refused _ _ bridge registry b now [] _ rest e [] (by simp) hrefused
              .nil
        | ok epochs =>
          obtain ⟨first, put, hfirst, hmake⟩ :=
            @exists_publishValue _ bridge now epochs key value seconds
          -- the publication of the pair comes first, whether it returns or raises
          have hrun : ∀ {σ : Type} (puts : StorePuts σ) (store : σ),
              bridge.setEach registry b puts.writer now ((key, value, ttl) :: rest) store =
                (bridge.publishValue puts.writer now (bridge.actionFor epochs key) value seconds >>=
                  fun _ => bridge.setEach registry b puts.writer now rest) store := by
            intro σ puts store
            rw [ExecutionCacheBridge.setEach, Stateful.bind_liftM_apply, hcheck]
            dsimp only
            rw [Stateful.bind_liftM_apply, hepochs]
          cases hwrite : CacheWrite.make bridge epochs key value now seconds with
          | error e =>
            rw [hwrite] at hmake
            obtain ⟨rfl, hmanifests⟩ := hmake
            have hrefused : ¬AcceptsPair bridge registry b now (key, value, ttl) := by
              rintro ⟨ttl', hcheck', hrest⟩
              obtain ⟨epochs', hepochs', hmade⟩ :=
                hrest seconds (Except.ok.inj (hcheck'.symm.trans hcheck))
              rw [Except.ok.inj (hepochs'.symm.trans hepochs), hwrite] at hmade
              cases hmade
            refine ⟨.error e, put, fun puts store => ?_, ?_⟩
            · exact (hrun puts store).trans (Stateful.bind_apply_of_error (hfirst puts store))
            rw [hmanifests]
            exact @BatchOutcome.refused _ _ bridge registry b now [] _ rest e [] (by simp) hrefused
              .nil
          | ok w =>
            rw [hwrite] at hmake
            obtain ⟨rfl, hmanifests⟩ := hmake
            have haccepts : AcceptsPair bridge registry b now (key, value, ttl) := by
              refine ⟨_, hcheck, ?_⟩
              rintro _ ⟨⟩
              exact ⟨epochs, hepochs, by rw [hwrite]; rfl⟩
            refine ⟨result, put ++ record, fun puts store => ?_, houtcome.cons haccepts ?_⟩
            · rw [List.foldl_append]
              exact (hrun puts store).trans
                ((Stateful.bind_apply_of_ok (hfirst puts store)).trans (hputs puts _))
            · refine .inr ⟨hpublish, w.manifest, ⟨seconds, epochs, w, hcheck, hepochs, hwrite, rfl⟩,
                ?_⟩
              rw [manifestsOf, List.filterMap_append, ← manifestsOf, hmanifests]
              rfl

variable (bridge registry b now)

/-- No pair is published before the first that is refused; a bridge that is switched off has no pair
to publish. -/
def NothingBeforeRefusal (pairs : List (BatchPair EncodedExecutionValue)) : Prop :=
  if bridge.enabled then
    ∀ before pair after, pairs = before ++ pair :: after →
      (∀ p ∈ before, AcceptsPair bridge registry b now p) →
      ¬AcceptsPair bridge registry b now pair → ∀ p ∈ before, p.selected = false
  else ∀ p ∈ pairs, p.selected = false

variable {bridge registry b now}

/-- A call that raises has published nothing, and one that returns has published the pairs that are
to be published. -/
def AllOrNothing {α : Type} (publishes : α → Manifest → Prop) (selected : List α)
    (run : Except PyError Unit × List StorePut) : Prop :=
  match run.1 with
  | .error _ => manifestsOf run.2 = []
  | .ok () => List.Forall₂ publishes selected (manifestsOf run.2)

/-- A batch is all or nothing just if nothing is published before a refusal. -/
theorem bridge_allOrNothing_iff (pairs : Dict ExecutionCacheKey (EncodedExecutionValue × Value)) :
    AllOrNothing (PublishesPair bridge registry b now) (pairs.entries.filter BatchPair.selected)
        (bridge.set registry b recordingStore.writer now pairs []) ↔
      NothingBeforeRefusal bridge registry b now pairs.entries := by
  have hfilter : ∀ {l : List (BatchPair EncodedExecutionValue)},
      l.filter BatchPair.selected = [] ↔ ∀ p ∈ l, p.selected = false := by
    intro l
    rw [List.filter_eq_nil_iff]
    simp
  unfold ExecutionCacheBridge.set NothingBeforeRefusal
  generalize pairs.entries = entries
  by_cases henabled : bridge.enabled = true
  · rw [if_pos henabled, if_pos henabled]
    obtain ⟨result, record, hputs, houtcome⟩ := @exists_setEach _ _ bridge registry b now entries
    have hrun : bridge.setEach registry b recordingStore.writer now entries [] =
        (result, record) := by
      refine (hputs recordingStore []).trans ?_
      rw [foldl_apply_recordingStore]
      rfl
    rw [hrun]
    unfold AllOrNothing
    dsimp only
    generalize manifestsOf record = manifests at houtcome ⊢
    cases houtcome with
    | all accepted published =>
      refine iff_of_true published ?_
      rintro before pair after rfl - hrefused
      exact absurd (accepted pair (by simp)) hrefused
    | @refused before pair after e _ accepted refused published =>
      constructor
      · rintro hnone before' pair' after' heq haccepted' hrefused'
        rw [← first_refusal_unique heq accepted refused haccepted' hrefused', ← hfilter]
        have hnil : manifests = [] := hnone
        rw [hnil] at published
        exact List.forall₂_nil_right_iff.mp published
      · intro hbefore
        have hnil := hfilter.mpr (hbefore before pair after rfl accepted refused)
        rw [hnil] at published
        exact List.forall₂_nil_left_iff.mp published
  · rw [if_neg henabled, if_neg henabled, ← hfilter]
    exact List.forall₂_nil_right_iff

end Bridge

/-! ### The adapter -/

/-- `RuntimeCacheAdapter`, with the encoder of its codec. -/
structure RuntimeCacheAdapter (V : Type) where
  bridge : ExecutionCacheBridge
  serializerId : Str
  encode : V → Except PyError EncodedExecutionValue
  serializer_eq : serializerId = bridge.serializer

namespace RuntimeCacheAdapter

variable (adapter : RuntimeCacheAdapter V)

/-- The values of the pairs, encoded. -/
def encodePairs : List (BatchPair V) → Except PyError (List (BatchPair EncodedExecutionValue))
  | [] => .ok []
  | (key, value, ttl) :: rest => do
    let encoded ← adapter.encode value
    let rest ← encodePairs rest
    pure ((key, encoded, ttl) :: rest)

/-- `set`. -/
def set (registry : EpochRegistry β) (b : β) (writer : StoreWriter σ) (now : DateTime)
    (pairs : Dict ExecutionCacheKey (V × Value)) : Stateful PyError σ Unit := do
  let encoded ← adapter.encodePairs pairs.entries
  adapter.bridge.set registry b writer now (.ofPairs encoded)

/-- The manifest is what is published for the pair, once its value is encoded. -/
def PublishesValue (registry : EpochRegistry β) (b : β) (now : DateTime) (pair : BatchPair V)
    (manifest : Manifest) : Prop :=
  ∃ encoded, adapter.encode pair.2.1 = .ok encoded ∧
    PublishesPair adapter.bridge registry b now (pair.1, encoded, pair.2.2) manifest

/-- A pair and what it is encoded to. -/
def EncodesPair (pair : BatchPair V) (encoded : BatchPair EncodedExecutionValue) : Prop :=
  encoded.1 = pair.1 ∧ adapter.encode pair.2.1 = .ok encoded.2.1 ∧ encoded.2.2 = pair.2.2

variable {adapter : RuntimeCacheAdapter V}

omit [Sha256] in
theorem encodesPair_of_encodePairs {pairs : List (BatchPair V)} :
    ∀ {encoded : List (BatchPair EncodedExecutionValue)}, adapter.encodePairs pairs = .ok encoded →
      List.Forall₂ adapter.EncodesPair pairs encoded := by
  induction pairs with
  | nil =>
    rintro encoded ⟨⟩
    exact .nil
  | cons pair rest ih =>
    obtain ⟨key, value, ttl⟩ := pair
    intro encoded h
    obtain ⟨first, hfirst, h⟩ := Except.bind_eq_ok.mp h
    obtain ⟨others, hothers, ⟨⟩⟩ := Except.bind_eq_ok.mp h
    exact .cons ⟨rfl, hfirst, rfl⟩ (ih hothers)

omit [Sha256] in
/-- Encoding keeps which pairs are to be published. -/
theorem encodesPair_filter {pairs : List (BatchPair V)}
    {encoded : List (BatchPair EncodedExecutionValue)}
    (h : List.Forall₂ adapter.EncodesPair pairs encoded) :
    List.Forall₂ adapter.EncodesPair (pairs.filter BatchPair.selected)
      (encoded.filter BatchPair.selected) := by
  induction h with
  | nil => exact .nil
  | @cons pair first pairs encoded hpair _ ih =>
    have hselected : first.selected = pair.selected := congrArg toPublish hpair.2.2
    rw [List.filter_cons, List.filter_cons, hselected]
    split_ifs
    · exact .cons hpair ih
    · exact ih

/-- What is published for the pairs is what is published for what they are encoded to. -/
theorem publishesValue_iff {registry : EpochRegistry β} {b : β} {now : DateTime}
    {pairs : List (BatchPair V)} {encoded : List (BatchPair EncodedExecutionValue)}
    (h : List.Forall₂ adapter.EncodesPair pairs encoded) {manifests : List Manifest} :
    List.Forall₂ (adapter.PublishesValue registry b now) pairs manifests ↔
      List.Forall₂ (PublishesPair adapter.bridge registry b now) encoded manifests := by
  induction h generalizing manifests with
  | nil => rw [List.forall₂_nil_left_iff, List.forall₂_nil_left_iff]
  | @cons pair first pairs encoded hpair _ ih =>
    obtain ⟨key, value, ttl⟩ := first
    obtain ⟨rfl, hencode, rfl⟩ := hpair
    have hone : ∀ manifest, adapter.PublishesValue registry b now pair manifest ↔
        PublishesPair adapter.bridge registry b now (pair.1, value, pair.2.2) manifest := by
      intro manifest
      constructor
      · rintro ⟨value', hencode', hpublishes⟩
        have hsame : value' = value := Except.ok.inj (hencode'.symm.trans hencode)
        exact hsame ▸ hpublishes
      · intro hpublishes
        exact ⟨value, hencode, hpublishes⟩
    cases manifests with
    | nil => simp
    | cons manifest manifests => rw [List.forall₂_cons, List.forall₂_cons, hone, ih]

/-- A batch of the adapter is all or nothing if the codec refuses a value, or the encoded batch
is. -/
theorem adapter_allOrNothing_iff (adapter : RuntimeCacheAdapter V) (registry : EpochRegistry β)
    (b : β) (now : DateTime) (pairs : Dict ExecutionCacheKey (V × Value)) :
    AllOrNothing (adapter.PublishesValue registry b now) (pairs.entries.filter BatchPair.selected)
        (adapter.set registry b recordingStore.writer now pairs []) ↔
      ∀ encoded, adapter.encodePairs pairs.entries = .ok encoded →
        NothingBeforeRefusal adapter.bridge registry b now encoded := by
  rw [set, Stateful.bind_liftM_apply]
  cases hencoded : adapter.encodePairs pairs.entries with
  | error e => exact iff_of_true rfl (by rintro encoded ⟨⟩)
  | ok encoded =>
    have hpairs := encodesPair_of_encodePairs hencoded
    have hkeys : encoded.map Prod.fst = pairs.entries.map Prod.fst := by
      rw [← List.forall₂_eq_eq_eq, List.forall₂_map_left_iff, List.forall₂_map_right_iff]
      exact hpairs.flip.imp fun first pair hpair => hpair.1
    have hentries : (Dict.ofPairs encoded).entries = encoded :=
      Dict.entries_ofPairs (hkeys ▸ pairs.nodup)
    have hbridge := @bridge_allOrNothing_iff _ _ adapter.bridge registry b now (.ofPairs encoded)
    rw [hentries] at hbridge
    have hsame : ∀ run, AllOrNothing (adapter.PublishesValue registry b now)
        (pairs.entries.filter BatchPair.selected) run ↔
        AllOrNothing (PublishesPair adapter.bridge registry b now)
          (encoded.filter BatchPair.selected) run := by
      intro run
      unfold AllOrNothing
      split
      · rfl
      · exact publishesValue_iff (encodesPair_filter hpairs)
    refine (hsame _).trans (hbridge.trans ?_)
    constructor
    · rintro hcondition encoded' ⟨⟩
      exact hcondition
    · exact fun h => h encoded rfl

end RuntimeCacheAdapter

/-- A batch is all or nothing, of a bridge just if nothing is published before the first refusal,
and of an adapter just if the codec refuses a value, or nothing is published before the first
refusal. -/
theorem set_allOrNothing_iff (registry : EpochRegistry β) (b : β) (now : DateTime) :
    (∀ (bridge : ExecutionCacheBridge)
        (pairs : Dict ExecutionCacheKey (EncodedExecutionValue × Value)),
      AllOrNothing (PublishesPair bridge registry b now) (pairs.entries.filter BatchPair.selected)
          (bridge.set registry b recordingStore.writer now pairs []) ↔
        NothingBeforeRefusal bridge registry b now pairs.entries) ∧
    ∀ (adapter : RuntimeCacheAdapter V) (pairs : Dict ExecutionCacheKey (V × Value)),
      AllOrNothing (adapter.PublishesValue registry b now) (pairs.entries.filter BatchPair.selected)
          (adapter.set registry b recordingStore.writer now pairs []) ↔
        ∀ encoded, adapter.encodePairs pairs.entries = .ok encoded →
          NothingBeforeRefusal adapter.bridge registry b now encoded :=
  ⟨fun _ => bridge_allOrNothing_iff, fun adapter => adapter.adapter_allOrNothing_iff registry b now⟩

/-- Every store ends up with what is recorded. -/
theorem set_eq_recorded (bridge : ExecutionCacheBridge) (registry : EpochRegistry β) (b : β)
    (now : DateTime) (pairs : Dict ExecutionCacheKey (EncodedExecutionValue × Value))
    (puts : StorePuts σ) (store : σ) :
    bridge.set registry b puts.writer now pairs store =
      ((bridge.set registry b recordingStore.writer now pairs []).1,
        (bridge.set registry b recordingStore.writer now pairs []).2.foldl puts.apply store) := by
  unfold ExecutionCacheBridge.set
  split_ifs
  · obtain ⟨result, record, hputs, -⟩ := @exists_setEach _ _ bridge registry b now pairs.entries
    have hrecorded : bridge.setEach registry b recordingStore.writer now pairs.entries [] =
        (result, record) := by
      refine (hputs recordingStore []).trans ?_
      rw [foldl_apply_recordingStore]
      rfl
    rw [hrecorded]
    exact hputs puts store
  · rfl

end

/-! ### A pair that is refused after one that is published -/

/-- A key. -/
def refusedKey : ExecutionCacheKey := ⟨[], lit "l", validateNamespace_nil, by simp⟩

/-- A value without a TTL, and then one whose TTL is a text. -/
def halfRefused : Dict ExecutionCacheKey (EncodedExecutionValue × Value) :=
  .ofPairs [(exampleKey, (exampleValue 1, .none)), (refusedKey, (exampleValue 1, .str (lit "60")))]

attribute [local instance] Sha256.standard

/-- The first value is published although the second is refused. -/
theorem not_allOrNothing_halfRefused :
    ¬AllOrNothing (PublishesPair exampleBridge memoryEpochRegistry memoryEpochRegistry.init setTime)
      (halfRefused.entries.filter BatchPair.selected)
      (exampleBridge.set memoryEpochRegistry memoryEpochRegistry.init recordingStore.writer setTime
        halfRefused []) := by
  rw [bridge_allOrNothing_iff halfRefused]
  intro hcondition
  have hfirst : AcceptsPair exampleBridge memoryEpochRegistry memoryEpochRegistry.init setTime
      (exampleKey, exampleValue 1, .none) := by
    refine ⟨some none, rfl, ?_⟩
    rintro seconds ⟨⟩
    exact ⟨(0, 0), rfl, isOk_make_exampleValue⟩
  have hsecond : ¬AcceptsPair exampleBridge memoryEpochRegistry memoryEpochRegistry.init setTime
      (refusedKey, exampleValue 1, .str (lit "60")) := by
    rintro ⟨ttl, hcheck, -⟩
    cases hcheck
  unfold NothingBeforeRefusal at hcondition
  have henabled : exampleBridge.enabled = true := rfl
  rw [if_pos henabled] at hcondition
  have hselected :=
    hcondition [(exampleKey, exampleValue 1, .none)] _ [] rfl (by simpa using hfirst)
    hsecond (exampleKey, exampleValue 1, .none) List.mem_cons_self
  cases hselected

end OnceMesh
