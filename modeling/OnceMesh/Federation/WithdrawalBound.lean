import OnceMesh.Federation.CatalogRuns
import OnceMesh.Federation.Retention
import OnceMesh.TransitionSystem

/-!
# How long a withdrawn result is reachable

An origin signs what it advertises, with the time. A receiver asks anyone for it, and what it gets
may be late, repeated or out of order, but only what the origin has signed verifies. When the origin
has withdrawn a result, the receiver imports it no longer than a manifest may be old, and has it no
longer than its lease lasts after that (`withdrawal_bound`).
-/

namespace OnceMesh.Federation

open Python

/-! ### What has been signed -/

section

variable [LocalZone]

/-- What a valid manifest is read from. -/
theorem fields_of_validateAvailability {v : Value} {requireSignature : Bool}
    {fields : AvailabilityFields} (h : validateAvailability v requireSignature = .ok fields) :
    requireNonemptyString (v.get (lit "peer_id")) "peer_id" = .ok fields.peerId ∧
      parseTimeValue (v.get (lit "generated_at")) = .ok fields.generatedAt ∧
      ∃ items,
        requireList (v.get (lit "entries")) "availability entries must be an array" = .ok items ∧
        validateEntries [] items = .ok fields.entries := by
  obtain ⟨-, h⟩ := Except.check_eq_ok.mp h
  obtain ⟨-, h⟩ := Except.check_eq_ok.mp h
  obtain ⟨peerId, hpeer, h⟩ := Except.bind_eq_ok.mp h
  obtain ⟨generatedAt, htime, h⟩ := Except.bind_eq_ok.mp h
  obtain ⟨items, hitems, h⟩ := Except.bind_eq_ok.mp h
  obtain ⟨entries, hentries, h⟩ := Except.bind_eq_ok.mp h
  obtain ⟨-, h⟩ := Except.check_eq_ok.mp h
  have hfields : ∀ signature : Option (Str × Bytes), (do
      let _ ← canonicalJson v
      pure { peerId, generatedAt, entries, signature }) = Except.ok fields →
      peerId = fields.peerId ∧ generatedAt = fields.generatedAt ∧ entries = fields.entries := by
    intro signature h
    obtain ⟨bytes, -, h⟩ := Except.bind_eq_ok.mp h
    cases h
    exact ⟨rfl, rfl, rfl⟩
  have hsame : peerId = fields.peerId ∧ generatedAt = fields.generatedAt ∧
      entries = fields.entries := by
    dsimp only at h
    split at h
    · split at h
      · cases h
      · exact hfields none h
    · obtain ⟨signature, -, h⟩ := Except.bind_eq_ok.mp h
      exact hfields signature h
  obtain ⟨rfl, rfl, rfl⟩ := hsame
  exact ⟨hpeer, htime, items, hitems, hentries⟩

/-- The signature is not among the entries, nor in the time. -/
theorem fields_withoutSignature {v : Value} {requireSignature : Bool}
    {fields unsigned : AvailabilityFields}
    (h : validateAvailability v requireSignature = .ok fields)
    (hunsigned : validateAvailability (withoutSignature v) false = .ok unsigned) :
    unsigned.generatedAt = fields.generatedAt ∧ unsigned.entries = fields.entries := by
  have hget : ∀ key, key ≠ lit "signature" → (withoutSignature v).get key = v.get key := by
    intro key hkey
    cases v with
    | dict items => rw [withoutSignature, Value.get_setItem, if_neg hkey]
    | _ => rfl
  obtain ⟨-, htime, items, hitems, hentries⟩ := fields_of_validateAvailability h
  obtain ⟨-, htime', items', hitems', hentries'⟩ := fields_of_validateAvailability hunsigned
  rw [hget _ (by decide)] at htime' hitems'
  obtain rfl := Except.ok.inj (hitems.symm.trans hitems')
  exact ⟨Except.ok.inj (htime'.symm.trans htime), Except.ok.inj (hentries'.symm.trans hentries)⟩

variable [Sha256]

/-- Whoever sends what a catalog has signed, sends what the catalog advertised then. -/
theorem fields_of_signedMessage [Ed25519Signing] {catalog : PublicPeerCatalog}
    (hconsistent : catalog.Consistent) {now : DateTime}
    (hadvertised : ∃ document, catalog.availability now = .ok document) {document : Value}
    (hwf : document.WellFormed) {fields : AvailabilityFields}
    (hvalid : validateAvailability document true = .ok fields)
    (hmessage : availabilitySigningInput document = .ok (catalog.signedMessage now)) :
    fields.generatedAt = now ∧ fields.entries = catalog.listed.map PublicPeerCatalog.entryOf := by
  obtain ⟨signed, hadvertised⟩ := hadvertised
  have hstorable := (hconsistent.storable_availability hadvertised).1
  obtain ⟨-, rfl⟩ := (PublicPeerCatalog.availability_eq_ok hconsistent.digest).mp hadvertised
  have hcatalog : Storable (catalog.availabilityDocument now .none) :=
    storable_withoutSignature hstorable
  obtain ⟨unsigned, -, h⟩ := Except.bind_eq_ok.mp hmessage
  obtain ⟨data, hdata, h⟩ := Except.bind_eq_ok.mp h
  obtain ⟨hprofile', rfl⟩ := canonicalJson_eq_ok.mp hdata
  have hbytes : canonicalBytes (withoutSignature document) =
      canonicalBytes (catalog.availabilityDocument now .none) :=
    List.append_cancel_left (Except.ok.inj h)
  have hunsigned : Storable (withoutSignature document) :=
    storable_withoutSignature ⟨(inProfile_of_validateAvailability hvalid).1, hwf⟩
  have hsame := (Value.same_iff_sortKeys_eq hunsigned.wellFormed hcatalog.wellFormed).mp
    ((canonicalBytes_eq_iff hprofile' hcatalog.inProfile hunsigned.wellFormed
      hcatalog.wellFormed).mp hbytes)
  have hread : validateAvailability (withoutSignature document) false =
      .ok (catalog.advertised now none) := by
    rw [← validateAvailability_sortKeys hunsigned, hsame, validateAvailability_sortKeys hcatalog,
      PublicPeerCatalog.validateAvailability_availabilityDocument hconsistent.digest now
        (.inl ⟨rfl, rfl, rfl⟩), canonicalJson_of_inProfile hcatalog.inProfile]
    rfl
  obtain ⟨htime, hentries⟩ := fields_withoutSignature hvalid hread
  exact ⟨htime.symm, hentries.symm⟩

end

/-! ### An origin, a network and a receiver -/

/-- What a receiver does with its cache. -/
inductive Reception where
  | importFromPeer (action : Value) (peer : FederationPeer)
  | prune
  | getBlob (digest : Str)
  | candidates (actionDigest : Str)
  | receipts (resultDigest : Str)

/-- The call on the cache, at a time. -/
def Reception.call (config : FederationPeerConfig) (now : DateTime) : Reception → CacheCall
  | .importFromPeer action peer => .importFromPeer action peer config now
  | .prune => .prune now
  | .getBlob digest => .getBlob now digest
  | .candidates actionDigest => .candidates now actionDigest
  | .receipts resultDigest => .receipts now resultDigest

/-- What happens: time passes, the origin is called or asked for its manifest, the receiver acts. -/
inductive MeshEvent where
  | tick (now : DateTime)
  | origin (call : OriginCall)
  | advertise
  | receive (reception : Reception)

section

variable [Sha256]

/-- An origin and a receiver with one clock. -/
structure Mesh (σ : Type) where
  clock : DateTime
  origin : Origin σ
  /-- The catalogs whose manifest the origin has signed, and when. -/
  signed : List (PublicPeerCatalog × DateTime)
  cache : FederationCacheStore

/-- The documents of the call are Python values. -/
def OriginCall.WellFormed : OriginCall → Prop
  | .publish action manifest receipt _ =>
    action.WellFormed ∧ manifest.WellFormed ∧ receipt.WellFormed
  | _ => True

variable [LocalZone] [Ed25519Signing] {σ : Type} [BlobStore σ]

/-- The mesh of an origin and a receiver, from a time on. -/
def meshSystem (σ : Type) [BlobStore σ] (config : FederationPeerConfig) (name : Str)
    (catalog : PublicPeerCatalog) (start : DateTime) : TransitionSystem (Mesh σ) MeshEvent where
  init := ⟨start, .new σ name catalog, [], .empty⟩
  step s
    | .tick now => if s.clock ≤ now then some { s with clock := now } else none
    | .origin call => some { s with origin := s.origin.perform call }
    | .advertise =>
      match s.origin.catalog.availability s.clock with
      | .ok _ => some { s with signed := (s.origin.catalog, s.clock) :: s.signed }
      | .error _ => some s
    | .receive reception => some { s with cache := s.cache.perform (reception.call config s.clock) }

/-- The origin signs its manifest. -/
theorem meshSystem_advertise {config : FederationPeerConfig} {name : Str}
    {catalog : PublicPeerCatalog} {start : DateTime} (s : Mesh σ) {document : Value}
    (h : s.origin.catalog.availability s.clock = .ok document) :
    (meshSystem σ config name catalog start).step s .advertise =
      some { s with signed := (s.origin.catalog, s.clock) :: s.signed } := by
  simp only [meshSystem, h]

/-- Time passes. -/
theorem meshSystem_tick {config : FederationPeerConfig} {name : Str} {catalog : PublicPeerCatalog}
    {start : DateTime} (s : Mesh σ) {now : DateTime} (h : s.clock ≤ now) :
    (meshSystem σ config name catalog start).step s (.tick now) = some { s with clock := now } :=
  if_pos h

/-- What the peer answers is a Python value, and if it verifies, its octets have been signed. -/
def Unforged (config : FederationPeerConfig) (s : Mesh σ) (peer : FederationPeer) : Prop :=
  ∀ document, peer.availability s.clock = .ok document → document.WellFormed ∧
    (verifyAvailability document config.peerId config.availabilityPublicKey = .ok true →
      ∃ c ∈ s.signed, availabilitySigningInput document = .ok (c.1.signedMessage c.2))

/-- The event is possible where signatures are not forged: calls are given Python values, and a peer
that an import asks forges nothing. -/
def Possible (config : FederationPeerConfig) (s : Mesh σ) : MeshEvent → Prop
  | .origin call => call.WellFormed
  | .receive (.importFromPeer _ peer) => Unforged config s peer
  | _ => True

/-- The event publishes the result. -/
def Republishes (resultDigest : Str) (s : Mesh σ) (event : MeshEvent) : Prop :=
  ∃ call result, event = .origin call ∧ s.origin.Publishes call result ∧
    result.manifest.digest = resultDigest

/-- A catalog with a result of this digest. -/
def Lists (catalog : PublicPeerCatalog) (resultDigest : Str) : Prop :=
  ∃ result, catalog.published.get? resultDigest = some result

/-- The origin's catalog, and those it has signed, consist of Python values; none was signed after
the clock. -/
structure Mesh.Consistent (s : Mesh σ) : Prop where
  origin : s.origin.catalog.Consistent
  signed : ∀ c ∈ s.signed, c.1.Consistent ∧ (∃ document, c.1.availability c.2 = .ok document) ∧
    c.2 ≤ s.clock

/-- The cache holds results whose leases meet a condition. -/
def Mesh.Leases (p : Str → DateTime → Prop) (s : Mesh σ) : Prop :=
  ∃ items, Represents s.cache items ∧ ∀ x ∈ items, p x.key x.ends

/-! ### Imports -/

omit [BlobStore σ] in
/-- A result is imported while a manifest that lists it is not too old. -/
theorem exists_signed_of_imports {config : FederationPeerConfig} {s : Mesh σ} (h : s.Consistent)
    {action : Value} {peer : FederationPeer} (hpeer : Unforged config s peer)
    {cache : FederationCacheStore} {resultDigest : Str}
    (himports : Imports action peer config s.clock cache resultDigest) :
    ∃ c ∈ s.signed, Lists c.1 resultDigest ∧
      s.clock.micros ≤ c.2.micros + config.maxAvailabilityAgeSeconds * 1000000 := by
  obtain ⟨entry, bundle, total, retainUntil, hadmission, -, rfl⟩ :=
    Origin.imports_iff_admission.mp himports
  obtain ⟨document, fields, requested, manifest, hdocument, haccepted, -, hfirst, -⟩ :=
    admission_eq_ok.mp hadmission
  obtain ⟨hwf, hsigned⟩ := hpeer document hdocument
  obtain ⟨c, hc, hmessage⟩ := hsigned haccepted.verified
  obtain ⟨hconsistent, hadvertised, -⟩ := h.signed c hc
  obtain ⟨htime, hentries⟩ :=
    fields_of_signedMessage hconsistent hadvertised hwf haccepted.valid hmessage
  obtain ⟨oldest, holdest, hrecent⟩ := haccepted.recent
  refine ⟨c, hc, ?_, ?_⟩
  · have hmem := List.mem_of_find?_eq_some hfirst
    rw [hentries] at hmem
    obtain ⟨e, he, rfl⟩ := List.mem_map.mp hmem
    exact ⟨e.2, Dict.mem_entries_iff.mp (PublicPeerCatalog.mem_listed.mp he)⟩
  · have hoctets := DateTime.addSeconds_eq_ok.mp holdest
    rw [htime, DateTime.le_def] at hrecent
    omega

omit [BlobStore σ] in
/-- A call of the receiver keeps a condition that every import meets. -/
theorem Mesh.Leases.perform {p : Str → DateTime → Prop} {s : Mesh σ} (h : s.Leases p)
    {config : FederationPeerConfig} {reception : Reception}
    (himports : ∀ action peer, reception = .importFromPeer action peer → ∀ resultDigest retainUntil,
      Imports action peer config s.clock s.cache resultDigest →
      s.clock.addSeconds config.retentionSeconds = .ok retainUntil → p resultDigest retainUntil) :
    Mesh.Leases p { s with cache := s.cache.perform (reception.call config s.clock) } := by
  obtain ⟨items, hitems, hp⟩ := h
  refine ⟨_, hitems.perform _, Leased.forall_mem_run hp fun x hx => ?_⟩
  cases reception with
  | importFromPeer action peer =>
    rw [Reception.call, CacheCall.event, Option.mem_toList] at hx
    obtain ⟨y, hadmitted, hy⟩ := Option.map_eq_some_iff.mp hx
    cases hy
    rcases importFromPeer_cases action peer config s.clock s.cache with
      ⟨hnone, -⟩ | ⟨_, _, _, _, retainUntil, -, hlease, -, hsome, himport⟩
    · cases hnone.symm.trans hadmitted
    · cases hsome.symm.trans hadmitted
      exact himports action peer rfl _ _ ⟨_, _, himport, rfl, rfl⟩ hlease
  | _ => cases List.mem_singleton.mp hx

/-! ### Steps -/

variable {config : FederationPeerConfig} {name : Str} {catalog : PublicPeerCatalog}
  {start : DateTime}
  {s t : Mesh σ} {event : MeshEvent} {resultDigest : Str}

omit [LocalZone] [Ed25519Signing] [BlobStore σ] in
/-- A property of all leases may be weakened. -/
theorem Mesh.Leases.imp {p q : Str → DateTime → Prop} (h : s.Leases p)
    (hpq : ∀ key ends, p key ends → q key ends) : s.Leases q := by
  obtain ⟨items, hitems, hp⟩ := h
  exact ⟨items, hitems, fun x hx => hpq _ _ (hp x hx)⟩

omit [LocalZone] in
/-- A call of the origin keeps its catalog consistent. -/
theorem Origin.consistent_perform {o : Origin σ} (h : o.catalog.Consistent) {call : OriginCall}
    (hcall : call.WellFormed) : (o.perform call).catalog.Consistent := by
  cases call with
  | putBlob data => exact h
  | publish action manifest receipt classification =>
    have hperform := h.perform (show CatalogCall.WellFormed
      (.publish o.view action manifest receipt classification) from hcall)
    exact hperform
  | withdraw resultDigest =>
    have hperform := h.perform (show CatalogCall.WellFormed (.withdraw resultDigest) from trivial)
    exact hperform

omit [LocalZone] in
/-- Any calls keep the catalog of the origin consistent. -/
theorem Origin.consistent_performAll {o : Origin σ} (h : o.catalog.Consistent)
    {calls : List OriginCall} (hcalls : ∀ call ∈ calls, call.WellFormed) :
    (o.performAll calls).catalog.Consistent := by
  induction calls generalizing o with
  | nil => exact h
  | cons call rest ih =>
    rw [List.forall_mem_cons] at hcalls
    exact ih (Origin.consistent_perform h hcalls.1) hcalls.2

/-- Each step keeps the mesh consistent. -/
theorem Mesh.Consistent.step (h : s.Consistent) (hevent : Possible config s event)
    (hstep : (meshSystem σ config name catalog start).step s event = some t) : t.Consistent := by
  cases event with
  | tick now =>
    obtain ⟨hclock, hstep⟩ := Option.ite_none_right_eq_some.mp hstep
    cases hstep
    refine ⟨h.origin, fun c hc => ?_⟩
    obtain ⟨hconsistent, hadvertised, hbefore⟩ := h.signed c hc
    exact ⟨hconsistent, hadvertised, hbefore.trans hclock⟩
  | origin call =>
    cases hstep
    exact ⟨Origin.consistent_perform h.origin hevent, h.signed⟩
  | advertise =>
    simp only [meshSystem] at hstep
    split at hstep
    next document hdocument =>
      cases hstep
      refine ⟨h.origin, fun c hc => ?_⟩
      rcases List.mem_cons.mp hc with rfl | hc
      · exact ⟨h.origin, ⟨document, hdocument⟩, le_rfl⟩
      · exact h.signed c hc
    next =>
      cases hstep
      exact h
  | receive reception =>
    cases hstep
    exact ⟨h.origin, h.signed⟩

/-- Before a result is withdrawn: no lease lasts longer than one from now on. -/
structure Mesh.Leasing (config : FederationPeerConfig) (s : Mesh σ) : Prop where
  consistent : s.Consistent
  leases : s.Leases fun _ ends => ends.micros ≤ s.clock.micros + config.retentionSeconds * 1000000

/-- Each step keeps the leases bound to what has been signed. -/
theorem Mesh.Leasing.step (h : s.Leasing config) (hevent : Possible config s event)
    (hstep : (meshSystem σ config name catalog start).step s event = some t) :
    t.Leasing config := by
  refine ⟨h.consistent.step hevent hstep, ?_⟩
  cases event with
  | tick now =>
    obtain ⟨hclock, hstep⟩ := Option.ite_none_right_eq_some.mp hstep
    cases hstep
    have hmicros := DateTime.le_def.mp hclock
    obtain ⟨items, hitems, hends⟩ := h.leases
    exact ⟨items, hitems, fun x hx => (hends x hx).trans (Nat.add_le_add_right hmicros _)⟩
  | origin call =>
    cases hstep
    exact h.leases
  | advertise =>
    simp only [meshSystem] at hstep
    split at hstep <;> cases hstep <;> exact h.leases
  | receive reception =>
    cases hstep
    refine h.leases.perform fun action peer _ digest retainUntil _ hlease => ?_
    have hends := DateTime.addSeconds_eq_ok.mp hlease
    omega

/-- After a result has been withdrawn: it is not published, no manifest signed since lists it, and
no lease of it lasts longer than one from the last moment at which it can be imported. -/
structure Mesh.Withdrawn (config : FederationPeerConfig) (resultDigest : Str) (since : DateTime)
    (s : Mesh σ) : Prop where
  consistent : s.Consistent
  gone : ¬Lists s.origin.catalog resultDigest
  signed : ∀ c ∈ s.signed, Lists c.1 resultDigest → c.2 ≤ since
  leases : s.Leases fun key ends => key = resultDigest → ends.micros ≤
    since.micros + (config.maxAvailabilityAgeSeconds + config.retentionSeconds) * 1000000

omit [BlobStore σ] in
/-- A result that has been withdrawn is imported no longer than a manifest may be old. -/
theorem Mesh.Withdrawn.imports {since : DateTime} (h : s.Withdrawn config resultDigest since)
    {action : Value} {peer : FederationPeer} (hpeer : Unforged config s peer)
    (himports : Imports action peer config s.clock s.cache resultDigest) :
    s.clock.micros ≤ since.micros + config.maxAvailabilityAgeSeconds * 1000000 := by
  obtain ⟨c, hc, hlists, hrecent⟩ := exists_signed_of_imports h.consistent hpeer himports
  have hbefore := DateTime.le_def.mp (h.signed c hc hlists)
  omega

/-- Each step keeps the leases of a withdrawn result bounded. -/
theorem Mesh.Withdrawn.step {since : DateTime} (h : s.Withdrawn config resultDigest since)
    (hevent : Possible config s event) (hagain : ¬Republishes resultDigest s event)
    (hstep : (meshSystem σ config name catalog start).step s event = some t) :
    t.Withdrawn config resultDigest since := by
  have hconsistent := h.consistent.step hevent hstep
  cases event with
  | tick now =>
    obtain ⟨-, hstep⟩ := Option.ite_none_right_eq_some.mp hstep
    cases hstep
    exact ⟨hconsistent, h.gone, h.signed, h.leases⟩
  | origin call =>
    cases hstep
    refine ⟨hconsistent, ?_, h.signed, h.leases⟩
    rintro ⟨result, hresult⟩
    rcases s.origin.catalog_perform call with
      ⟨published, hpublished, hcatalog⟩ | ⟨withdrawn, -, hcatalog⟩ | ⟨-, -, hcatalog⟩
    · rw [hcatalog, PublicPeerCatalog.setPublished, Dict.get?_set] at hresult
      split_ifs at hresult with hsame
      · exact hagain ⟨call, published, rfl, hpublished, hsame.symm⟩
      · exact h.gone ⟨result, hresult⟩
    · rw [hcatalog, Origin.get?_withdraw] at hresult
      split_ifs at hresult
      exact h.gone ⟨result, hresult⟩
    · rw [hcatalog] at hresult
      exact h.gone ⟨result, hresult⟩
  | advertise =>
    simp only [meshSystem] at hstep
    split at hstep
    · cases hstep
      refine ⟨hconsistent, h.gone, fun c hc hlists => ?_, h.leases⟩
      rcases List.mem_cons.mp hc with rfl | hc
      · exact absurd hlists h.gone
      · exact h.signed c hc hlists
    · cases hstep
      exact h
  | receive reception =>
    cases hstep
    refine ⟨hconsistent, h.gone, h.signed, h.leases.perform ?_⟩
    rintro action peer rfl digest retainUntil himports hlease rfl
    have hrecent := h.imports hevent himports
    have hends := DateTime.addSeconds_eq_ok.mp hlease
    omega

/-! ### Runs -/

/-- The origin is called several times. -/
theorem runFrom_origin (s : Mesh σ) (calls : List OriginCall) :
    (meshSystem σ config name catalog start).runFrom s (calls.map .origin) =
      some { s with origin := s.origin.performAll calls } := by
  induction calls generalizing s with
  | nil => rfl
  | cons call rest ih =>
    rw [List.map_cons, TransitionSystem.runFrom_cons_eq_some]
    exact ⟨_, rfl, ih _⟩

/-- In every run in which an origin withdraws a result and does not publish it again, whatever the
network does with what the origin has signed: the result is not imported later than the age of a
manifest after that, and no later than the age and a lease it is no candidate any more. -/
theorem withdrawal_bound {before after : List MeshEvent}
    (hbefore : (meshSystem σ config name catalog start).run before = some s)
    (hafter : (meshSystem σ config name catalog start).runFrom s
      (.origin (.withdraw resultDigest) :: after) = some t)
    (hpossible : (meshSystem σ config name catalog start).Meets (Possible config)
      (meshSystem σ config name catalog start).init
        (before ++ .origin (.withdraw resultDigest) :: after))
    (hagain : (meshSystem σ config name catalog start).Meets
      (fun u event =>
        ¬Republishes resultDigest u event) s (.origin (.withdraw resultDigest) :: after)) :
    (∀ action peer, Unforged config t peer →
      Imports action peer config t.clock t.cache resultDigest →
      t.clock.micros ≤ s.clock.micros + config.maxAvailabilityAgeSeconds * 1000000) ∧
    (s.clock.micros + (config.maxAvailabilityAgeSeconds + config.retentionSeconds) * 1000000 ≤
        t.clock.micros →
      ∀ actionDigest, ∀ manifest ∈ (t.cache.candidates t.clock actionDigest).1,
        manifest.digest ≠ resultDigest) := by
  have hinit : Mesh.Leasing config (meshSystem σ config name catalog start).init :=
    ⟨⟨PublicPeerCatalog.consistent_of_published_eq_empty rfl, fun c hc => by cases hc⟩,
      [], represents_empty, fun x hx => by cases hx⟩
  have hleasing : s.Leasing config := TransitionSystem.runFrom_induction_of_meets
    (fun _ _ _ h hevent hstep => h.step hevent hstep) hpossible.left hinit hbefore
  obtain ⟨u, hu, hrest⟩ := TransitionSystem.runFrom_cons_eq_some.mp hafter
  have hsince := hpossible.right hbefore
  -- the withdrawal starts the second part of the run
  have hwithdrawn : u.Withdrawn config resultDigest s.clock := by
    have hconsistent := hleasing.consistent.step hsince.head hu
    have hleases : s.Leases fun key ends => key = resultDigest → ends.micros ≤ s.clock.micros +
        (config.maxAvailabilityAgeSeconds + config.retentionSeconds) * 1000000 := by
      refine hleasing.leases.imp ?_
      intro key ends hends _
      refine le_trans hends (Nat.add_le_add_left (Nat.mul_le_mul_right _ ?_) _)
      exact Nat.le_add_left _ _
    cases hu
    refine ⟨hconsistent, ?_, fun c hc _ => (hleasing.consistent.signed c hc).2.2, hleases⟩
    rintro ⟨result, hresult⟩
    have hget := Origin.get?_withdraw s.origin.catalog resultDigest resultDigest
    rw [if_pos rfl] at hget
    cases hget.symm.trans hresult
  have hmeets : (meshSystem σ config name catalog start).Meets (fun v event =>
      Possible config v event ∧ ¬Republishes resultDigest v event) u after :=
    fun pre event post v hevents hrun => ⟨hsince.tail hu pre event post v hevents hrun,
      hagain.tail hu pre event post v hevents hrun⟩
  have hend : t.Withdrawn config resultDigest s.clock := TransitionSystem.runFrom_induction_of_meets
    (fun _ _ _ h hevent hstep => h.step hevent.1 hevent.2 hstep) hmeets hwithdrawn hrest
  refine ⟨fun action peer hpeer himports => hend.imports hpeer himports, ?_⟩
  rintro hlate actionDigest manifest hmanifest rfl
  obtain ⟨items, hitems, hends⟩ := hend.leases
  have hresults := (hitems.prune t.clock).results actionDigest
  have hmem : manifest ∈ ((Leased.live t.clock items).filter
      (RetainedResult.isFor actionDigest)).map RetainedResult.manifest := by
    rw [← hresults]
    exact List.mem_reverse.mp hmanifest
  obtain ⟨x, hx, rfl⟩ := List.mem_map.mp hmem
  obtain ⟨hitem, hlive⟩ := Leased.mem_live.mp (List.mem_filter.mp hx).1
  have hlease := hends x hitem (hitems.key x hitem)
  have hlater := DateTime.lt_def.mp hlive
  omega

end

/-! ### A result is withdrawn -/

namespace Example

attribute [local instance] zone Sha256.standard ed25519Signing

/-- The origin as a peer of the receiver. -/
def originPeer : FederationPeer := origin.catalog.toPeer origin.view

/-- The served result is published, advertised and imported. -/
def importing : List MeshEvent :=
  originCalls.map .origin ++ [.advertise, .receive (.importFromPeer action originPeer)]

/-- The result is withdrawn, and the age of a manifest and a lease pass. -/
def later : DateTime := (observedAt.addSeconds 86700).toOption.getD observedAt

/-- The mesh of the example. -/
def meshOfExample : TransitionSystem (Mesh MemoryStore) MeshEvent :=
  meshSystem MemoryStore config (lit "m") catalog observedAt

/-- The mesh when the results are published. -/
def publishing : Mesh MemoryStore := ⟨observedAt, origin, [], .empty⟩

/-- The mesh when the origin has signed its manifest. -/
def advertising : Mesh MemoryStore := ⟨observedAt, origin, [(origin.catalog, observedAt)], .empty⟩

/-- The mesh when the result has been imported. -/
def imported : Mesh MemoryStore :=
  let call := (Reception.importFromPeer action originPeer).call config advertising.clock
  { advertising with cache := advertising.cache.perform call }

/-- The mesh when it has been withdrawn. -/
def withdrawing : Mesh MemoryStore :=
  { imported with origin := imported.origin.performAll [.withdraw servedDigest] }

/-- The mesh some time after that. -/
def ending : Mesh MemoryStore := { withdrawing with clock := later }

/-- The calls of the origin are the first part of the run. -/
theorem run_publishing : meshOfExample.run (originCalls.map .origin) = some publishing :=
  runFrom_origin _ _

/-- Then the origin signs its manifest. -/
theorem step_advertise : meshOfExample.step publishing .advertise = some advertising := by
  obtain ⟨document, hdocument⟩ := exists_availability
  rw [meshOfExample, meshSystem_advertise publishing hdocument, advertising]
  rfl

/-- Then the receiver imports. -/
theorem run_importing : meshOfExample.run importing = some imported :=
  TransitionSystem.runFrom_append_eq_some.mpr ⟨publishing, run_publishing,
    TransitionSystem.runFrom_cons_eq_some.mpr ⟨advertising, step_advertise,
      TransitionSystem.runFrom_cons_eq_some.mpr ⟨imported, rfl, rfl⟩⟩⟩

/-- The age of a manifest and a lease have passed. -/
theorem later_bounds : observedAt ≤ later ∧
    observedAt.micros + (config.maxAvailabilityAgeSeconds + config.retentionSeconds) * 1000000 ≤
      later.micros := by decide +kernel

/-- The rest of the run: the result is withdrawn, and time passes. -/
theorem run_withdrawing : meshOfExample.runFrom imported
    [.origin (.withdraw servedDigest), .tick later] = some ending :=
  TransitionSystem.runFrom_append_eq_some.mpr ⟨withdrawing,
    runFrom_origin imported [.withdraw servedDigest],
    TransitionSystem.runFrom_cons_eq_some.mpr
      ⟨ending, meshSystem_tick withdrawing later_bounds.1, rfl⟩⟩

/-- The documents that are published have distinct keys. -/
theorem wellFormed_originCalls : ∀ call ∈ originCalls, call.WellFormed := by
  simp [originCalls, OriginCall.WellFormed, action, manifest, receipt, signature,
    Value.WellFormed, Value.WellFormedItems, Value.WellFormedList]

/-- The peer sends what the origin has signed. -/
theorem unforged_originPeer : Unforged config advertising originPeer := by
  have hconsistent : origin.catalog.Consistent := Origin.consistent_performAll
    (PublicPeerCatalog.consistent_of_published_eq_empty rfl) wellFormed_originCalls
  intro document hdocument
  refine ⟨(hconsistent.storable_availability hdocument).1.wellFormed, fun _ => ?_⟩
  obtain ⟨-, hmessage, -⟩ :=
    PublicPeerCatalog.advertised_of_availability hconsistent.digest hdocument
  exact ⟨_, List.mem_singleton_self _, hmessage⟩

/-- Nothing is forged. -/
theorem meets_possible : meshOfExample.Meets (Possible config) meshOfExample.init
    (importing ++ [.origin (.withdraw servedDigest), .tick later]) := by
  have htrue : ∀ s, ∀ e ∈ originCalls.map MeshEvent.origin, ∀ t, True →
      meshOfExample.step s e = some t → True := fun _ _ _ _ _ _ => trivial
  rw [importing, List.append_assoc]
  refine TransitionSystem.Meets.append
    (TransitionSystem.meets_of_invariant htrue (fun s e he _ => ?_) trivial) fun t ht => ?_
  · obtain ⟨call, hcall, rfl⟩ := List.mem_map.mp he
    exact wellFormed_originCalls call hcall
  · obtain rfl := Option.some.inj (run_publishing.symm.trans ht)
    refine .cons trivial fun u hu => ?_
    obtain rfl := Option.some.inj (step_advertise.symm.trans hu)
    refine .cons unforged_originPeer fun u _ => ?_
    exact .cons trivial fun u _ => .cons trivial fun u _ before e after v hevents _ =>
      absurd hevents (by simp)

/-- Nothing is published again. -/
theorem meets_not_republishes : meshOfExample.Meets
    (fun u event => ¬Republishes servedDigest u event) imported
    [.origin (.withdraw servedDigest), .tick later] := by
  have hwithdraw : ∀ u : Mesh MemoryStore,
      ¬Republishes servedDigest u (.origin (.withdraw servedDigest)) := by
    rintro u ⟨call, result, hcall, ⟨_, _, _, _, rfl, -⟩, -⟩
    cases hcall
  have htick : ∀ u : Mesh MemoryStore, ¬Republishes servedDigest u (.tick later) := by
    rintro u ⟨call, result, hcall, -⟩
    cases hcall
  exact .cons (hwithdraw _) fun u _ => .cons (htick u) fun u _ before e after v hevents _ =>
    absurd hevents (by simp)

end Example

open Example

attribute [local instance] zone Sha256.standard ed25519Signing

/-- The served result is withdrawn; when the age of a manifest and a lease are over, it is gone. -/
theorem withdrawal_bound_served : meshOfExample.run importing = some imported ∧
    ∀ actionDigest, ∀ manifest ∈ (ending.cache.candidates ending.clock actionDigest).1,
      manifest.digest ≠ servedDigest := by
  have hbound := withdrawal_bound run_importing run_withdrawing meets_possible meets_not_republishes
  exact ⟨run_importing, hbound.2 later_bounds.2⟩

end OnceMesh.Federation
