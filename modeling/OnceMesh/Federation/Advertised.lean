import OnceMesh.Federation.Base64Decoders
import OnceMesh.Federation.Timestamps

/-!
# What a catalog advertises

An availability manifest is derived from what is published: `availability_eq_ok` says when there is
one and what it lists. Over a run of calls this is what has been published and not withdrawn since,
each result once, and what is listed can be fetched and passes the checks of an import.
-/

namespace OnceMesh.Federation

open Python

/-! ### Texts -/

/-- Digests are ASCII. -/
theorem clean_of_isDigest {s : Str} (h : isDigest s = true) : Clean s := by
  rw [isDigest, Bool.and_eq_true, Bool.and_eq_true, startsWith, List.isPrefixOf_iff_prefix] at h
  obtain ⟨⟨⟨hex, rfl⟩, -⟩, hhex⟩ := h
  have hdrop : (lit "sha256:" ++ hex).drop 7 = hex := List.drop_left' (by decide)
  rw [hdrop, List.all_eq_true] at hhex
  refine clean_append.mpr ⟨clean_lit _, fun c hc => isSurrogate_of_lt ?_⟩
  have hc := of_decide_eq_true (hhex c hc)
  omega

/-- The text of an instant has no surrogates. -/
theorem clean_utcText (t : DateTime) : Clean t.utcText := by
  have hpadded : ∀ width n, Clean (padded width n) := by
    intro width n c hc
    have hdigit := of_decide_eq_true (isDigit_of_mem_padded hc)
    exact isSurrogate_of_lt (by omega)
  have hzone : Clean [0x5A] := fun c hc => by
    rw [List.mem_singleton.mp hc]
    decide
  have hfraction : ∀ n, Clean (if n = 0 then [] else lit "." ++ padded 6 n) := by
    intro n
    split_ifs
    · exact fun c hc => absurd hc List.not_mem_nil
    · exact clean_append.mpr ⟨clean_lit _, hpadded _ _⟩
  rw [utcText_eq, DateTime.isoBody]
  simp only [clean_append, clean_lit, hpadded, hfraction, hzone, and_self]

/-- The text of an instant is read back as the instant. -/
theorem parseTime_formatTime [LocalZone] (t : DateTime) : parseTime (formatTime t) = .ok t := by
  refine parseTime_eq_ok.mpr
    ⟨endsWith_of_isUtcTimestampText (isUtcTimestampText_utcText t), ⟨t.micros, some 0⟩,
      fromUtcText_utcText t, ?_⟩
  exact utcOf_micros t

/-- The members of a document that canonical JSON stores. -/
theorem inProfile_get {v : Value} (h : InProfile v) (key : Str) : InProfile (v.get key) := by
  cases h with
  | @dict items hkeys hvalues =>
    clear hkeys
    induction items with
    | nil => exact .none
    | cons i rest ih =>
      obtain ⟨k, w⟩ := i
      rw [List.forall_mem_cons] at hvalues
      rw [Value.get_dict_cons]
      split_ifs
      · exact hvalues.1
      · exact ih hvalues.2
  | _ => exact .none

/-! ### The order of entries -/

theorem identityLE_total (a b : Str × Str) : identityLE a b ∨ identityLE b a := by
  rcases lt_trichotomy a.1 b.1 with hlt | heq | hlt
  · exact .inl (.inl hlt)
  · rcases le_total a.2 b.2 with hle | hle
    · exact .inl (.inr ⟨heq, hle⟩)
    · exact .inr (.inr ⟨heq.symm, hle⟩)
  · exact .inr (.inl hlt)

theorem identityLE_trans {a b c : Str × Str} (hab : identityLE a b) (hbc : identityLE b c) :
    identityLE a c := by
  rcases hab with hab | ⟨hab, hab'⟩
  · rcases hbc with hbc | ⟨hbc, -⟩
    · exact .inl (hab.trans hbc)
    · exact .inl (hbc ▸ hab)
  · rcases hbc with hbc | ⟨hbc, hbc'⟩
    · exact .inl (hab ▸ hbc)
    · exact .inr ⟨hab.trans hbc, hab'.trans hbc'⟩

variable [Sha256]

namespace PublicPeerCatalog

/-- The pair of digests that names a published result. -/
def identity (e : Str × Published) : Str × Str := (e.2.manifest.fields.actionDigest, e.1)

/-- The published results in the order in which they are advertised. -/
def listed (catalog : PublicPeerCatalog) : List (Str × Published) :=
  catalog.published.entries.insertionSort fun a b => identityLE (identity a) (identity b)

/-- The entry of a published result. -/
def entryDocument (e : Str × Published) : Value :=
  .dict [(lit "action_digest", .str e.2.manifest.fields.actionDigest),
    (lit "result_digest", .str e.1), (lit "operation", e.2.action.get (lit "operation")),
    (lit "artifact_bytes", .int (totalSize e.2.manifest.fields.artifacts))]

/-- The availability manifest of a peer, with a signature or without. -/
def availabilityDocument (catalog : PublicPeerCatalog) (now : DateTime) (signature : Value) :
    Value :=
  .dict [(lit "spec_version", .str (lit "oncemesh.availability/v0")),
    (lit "peer_id", .str catalog.peerId), (lit "generated_at", .str (formatTime now)),
    (lit "entries", .list (catalog.listed.map entryDocument)), (lit "signature", signature)]

variable {catalog : PublicPeerCatalog} {now : DateTime}

theorem mem_listed {e : Str × Published} : e ∈ catalog.listed ↔ e ∈ catalog.published.entries :=
  (List.perm_insertionSort _ _).mem_iff

/-- The manifest that is signed. -/
theorem availability_eq [LocalZone] [Ed25519Signing] (catalog : PublicPeerCatalog)
    (now : DateTime) :
    catalog.availability now =
      signAvailability (catalog.availabilityDocument now .none) catalog.seed := by
  have hentries : (catalog.published.entries.mapM fun e => availabilityEntry e.1 e.2) =
      .ok (catalog.published.entries.map fun e => (identity e, entryDocument e)) := by
    refine Except.mapM_eq_ok.mpr (List.forall₂_map_right_iff.mpr ?_)
    refine List.forall₂_same.mpr fun e _ => ?_
    rw [availabilityEntry, e.2.requested]
    rfl
  have hsorted :
    (catalog.published.entries.map fun e => (identity e, entryDocument e)).insertionSort
      (fun a b => identityLE a.1 b.1) =
        catalog.listed.map fun e => (identity e, entryDocument e) := by
    rw [listed, List.map_insertionSort _ (fun a b => identityLE a.1 b.1) (fun e =>
      (identity e, entryDocument e)) _ fun a _ b _ => Iff.rfl]
  rw [availability, hentries, Except.ok_bind]
  dsimp only
  rw [hsorted, List.map_map]
  rfl

/-! ### The entries -/

/-- The text of a string. -/
def textOf : Value → Str
  | .str s => s
  | _ => []

/-- The entry of a published result, as an import reads it. -/
def entryOf (e : Str × Published) : AvailabilityEntry where
  actionDigest := e.2.manifest.fields.actionDigest
  resultDigest := e.1
  operationName := textOf ((e.2.action.get (lit "operation")).get (lit "name"))
  operationVersion := textOf ((e.2.action.get (lit "operation")).get (lit "version"))
  artifactBytes := totalSize e.2.manifest.fields.artifacts

omit [Sha256] in
theorem requireNonemptyString_eq_ok {value : Value} {label : String} {s : Str} :
    requireNonemptyString value label = .ok s ↔ value = .str s ∧ s ≠ [] := by
  cases value with
  | str t =>
    by_cases h : t = []
    · simp only [requireNonemptyString, h, if_true, raiseValueError, reduceCtorEq, false_iff]
      rintro ⟨hs, hne⟩
      exact hne (Value.str.inj hs).symm
    · simp only [requireNonemptyString, h, if_false, Except.ok.injEq, Value.str.injEq]
      exact ⟨fun hs => ⟨hs, hs ▸ h⟩, fun hs => hs.1⟩
  | _ => simp [requireNonemptyString, raiseValueError]

omit [Sha256] in
/-- The operation of a valid action. -/
theorem operation_of_validateAction {action : Value} (h : validateAction action = .ok ()) :
    (action.get (lit "operation")).hasExactKeys [lit "name", lit "version"] = true ∧
      ∃ name version, (action.get (lit "operation")).get (lit "name") = .str name ∧ name ≠ [] ∧
        (action.get (lit "operation")).get (lit "version") = .str version ∧ version ≠ [] := by
  obtain ⟨-, h⟩ := Except.check_eq_ok.mp h
  obtain ⟨-, h⟩ := Except.check_eq_ok.mp h
  obtain ⟨hkeys, h⟩ := Except.check_eq_ok.mp h
  obtain ⟨name, hname, h⟩ := Except.bind_eq_ok.mp h
  obtain ⟨version, hversion, -⟩ := Except.bind_eq_ok.mp h
  obtain ⟨hname, hname'⟩ := requireNonemptyString_eq_ok.mp hname
  obtain ⟨hversion, hversion'⟩ := requireNonemptyString_eq_ok.mp hversion
  exact ⟨requireExactKeys_eq_ok.mp hkeys, name, version, hname, hname', hversion, hversion'⟩

/-- An entry passes, if it is not there already. -/
theorem validateEntry_entryDocument {e : Str × Published} (hdigest : e.1 = e.2.manifest.digest)
    {seen : List (Str × Str)} (hseen : identity e ∉ seen) :
    validateEntry seen (entryDocument e) = .ok (entryOf e) := by
  obtain ⟨haction, hobject⟩ := Except.check_eq_ok.mp e.2.requested
  obtain ⟨hkeys, name, version, hname, hname', hversion, hversion'⟩ :=
    operation_of_validateAction haction
  have hresult : isDigest e.1 = true := by
    rw [hdigest]
    exact isDigest_digestBytes _
  have hrequested : isDigest e.2.manifest.fields.actionDigest = true := by
    obtain ⟨-, hobject⟩ := objectDigest_eq_ok.mp hobject
    rw [hobject]
    exact isDigest_digestBytes _
  have hoperation : (entryDocument e).get (lit "operation") = e.2.action.get (lit "operation") :=
    rfl
  have hexact : (entryDocument e).hasExactKeys [lit "action_digest", lit "result_digest",
      lit "operation", lit "artifact_bytes"] = true := rfl
  have haction' : requireDigest ((entryDocument e).get (lit "action_digest"))
      "availability action_digest is invalid" = .ok e.2.manifest.fields.actionDigest :=
        if_pos hrequested
  have hresult' : requireDigest ((entryDocument e).get (lit "result_digest"))
      "availability result_digest is invalid" = .ok e.1 := if_pos hresult
  have hbytes : (entryDocument e).get (lit "artifact_bytes") =
      .int (totalSize e.2.manifest.fields.artifacts) := rfl
  rw [validateEntry, exactKeys, hexact, haction', hresult', hoperation, hbytes]
  simp only [exactKeys, hkeys, hname, hversion, requireOperationText, hname', hversion', if_false,
    Bool.not_true, raiseIf, Except.ok_bind, Bool.false_eq_true]
  rw [if_neg (by simp), Except.ok_bind, if_neg (by simpa [identity] using hseen), Except.ok_bind,
    entryOf, hname, hversion, textOf, textOf, Int.toNat_natCast]
  rfl

/-- All entries pass, since no two have the same name. -/
theorem validateEntries_map {items : List (Str × Published)} {seen : List (Str × Str)}
    (hdigest : ∀ e ∈ items, e.1 = e.2.manifest.digest)
    (hnodup : (items.map identity).Nodup) (hseen : ∀ e ∈ items, identity e ∉ seen) :
    validateEntries seen (items.map entryDocument) = .ok (items.map entryOf) := by
  induction items generalizing seen with
  | nil => rfl
  | cons e rest ih =>
    rw [List.forall_mem_cons] at hdigest hseen
    rw [List.map_cons, List.nodup_cons] at hnodup
    have hrest : ∀ f ∈ rest, identity f ∉ (entryOf e).identity :: seen := by
      intro f hf
      rw [List.mem_cons, not_or]
      refine ⟨fun hsame => hnodup.1 ?_, hseen.2 f hf⟩
      exact List.mem_map.mpr ⟨f, hf, hsame⟩
    rw [List.map_cons, validateEntries, validateEntry_entryDocument hdigest.1 hseen.1,
      Except.ok_bind, ih hdigest.2 hnodup.2 hrest]
    rfl

/-! ### The manifest -/

variable {catalog : PublicPeerCatalog} {now : DateTime}

theorem nodup_listed (catalog : PublicPeerCatalog) : (catalog.listed.map identity).Nodup := by
  have hperm : (catalog.listed.map identity).Perm (catalog.published.entries.map identity) :=
    (List.perm_insertionSort _ _).map _
  rw [hperm.nodup_iff]
  refine List.Nodup.of_map Prod.snd ?_
  rw [List.map_map]
  exact catalog.published.nodup

theorem pairwise_listed (catalog : PublicPeerCatalog) :
    (catalog.listed.map identity).Pairwise identityLE := by
  have htotal : Std.Total fun a b : Str × Published => identityLE (identity a) (identity b) :=
    ⟨fun _ _ => identityLE_total _ _⟩
  have htrans : IsTrans (Str × Published) fun a b => identityLE (identity a) (identity b) :=
    ⟨fun _ _ _ => identityLE_trans⟩
  exact List.pairwise_map.mpr (List.pairwise_insertionSort _ _)

/-- The fields of a manifest that is advertised. -/
def advertised (catalog : PublicPeerCatalog) (now : DateTime) (signature : Option (Str × Bytes)) :
    AvailabilityFields where
  peerId := catalog.peerId
  generatedAt := now
  entries := catalog.listed.map entryOf
  signature := signature

section

variable [LocalZone]

/-- The manifest passes up to its signature and its encoding. -/
theorem validateAvailability_availabilityDocument
    (hdigest : ∀ e ∈ catalog.published.entries, e.1 = e.2.manifest.digest) (now : DateTime)
    {signature : Value} {requireSignature : Bool} {signed : Option (Str × Bytes)}
    (hsigned : signature = .none ∧ requireSignature = false ∧ signed = none ∨
      ∃ items pair, signature = .dict items ∧ signed = some pair ∧
        validateAvailabilitySignature (.dict items) = .ok pair) :
    validateAvailability (catalog.availabilityDocument now signature) requireSignature =
      (canonicalJson (catalog.availabilityDocument now signature) >>= fun _ =>
        .ok (catalog.advertised now signed)) := by
  have hexact : (catalog.availabilityDocument now signature).hasExactKeys [lit "spec_version",
      lit "peer_id", lit "generated_at", lit "entries", lit "signature"] = true := rfl
  have hversion : ((catalog.availabilityDocument now signature).get (lit "spec_version")).eqStr
      (lit "oncemesh.availability/v0") = true := rfl
  have hpeer : requireNonemptyString
      ((catalog.availabilityDocument now signature).get (lit "peer_id")) "peer_id" =
        .ok catalog.peerId := if_neg catalog.peer
  have htime : parseTimeValue
      ((catalog.availabilityDocument now signature).get (lit "generated_at")) = .ok now :=
    parseTime_formatTime now
  have hlist : requireList ((catalog.availabilityDocument now signature).get (lit "entries"))
      "availability entries must be an array" = .ok (catalog.listed.map entryDocument) := rfl
  have hentries : validateEntries [] (catalog.listed.map entryDocument) =
      .ok (catalog.listed.map entryOf) :=
    validateEntries_map (fun e he => hdigest e (mem_listed.mp he)) (nodup_listed catalog)
      fun _ _ => List.not_mem_nil
  have hidentities : (catalog.listed.map entryOf).map AvailabilityEntry.identity =
      catalog.listed.map identity := by
    rw [List.map_map]
    rfl
  have hget : (catalog.availabilityDocument now signature).get (lit "signature") = signature := rfl
  rw [validateAvailability, exactKeys, hexact, hversion, hpeer, htime, hlist]
  simp only [Bool.not_true, raiseIf, Bool.false_eq_true, if_false, Except.ok_bind, hentries,
    hidentities, (pairwise_listed catalog).insertionSort_eq, ne_eq, not_true, decide_false, hget]
  rcases hsigned with ⟨rfl, rfl, rfl⟩ | ⟨items, pair, rfl, rfl, hpair⟩
  · rfl
  · simp only [hpair]
    rfl

omit [LocalZone] in
/-- Canonical JSON stores a manifest of a clean peer, if it stores the numbers of octets. -/
theorem inProfile_availabilityDocument
    (hdigest : ∀ e ∈ catalog.published.entries, e.1 = e.2.manifest.digest) (now : DateTime)
    {signature : Value} (hsignature : InProfile signature) :
    InProfile (catalog.availabilityDocument now signature) ↔ Clean catalog.peerId ∧
      ∀ e ∈ catalog.published.entries, totalSize e.2.manifest.fields.artifacts ≤ 2 ^ 53 - 1 := by
  have hentry : ∀ e ∈ catalog.published.entries, InProfile (entryDocument e) ↔
      totalSize e.2.manifest.fields.artifacts ≤ 2 ^ 53 - 1 := by
    intro e he
    obtain ⟨-, hobject⟩ := Except.check_eq_ok.mp e.2.requested
    obtain ⟨haction, hrequested⟩ := objectDigest_eq_ok.mp hobject
    have hdigests : Clean e.1 ∧ Clean e.2.manifest.fields.actionDigest := by
      rw [hdigest e he, hrequested]
      exact ⟨clean_of_isDigest (isDigest_digestBytes _), clean_of_isDigest (isDigest_digestBytes _)⟩
    constructor
    · rintro (_ | _ | _ | _ | _ | ⟨-, hvalues⟩)
      have hbytes := hvalues (lit "artifact_bytes", .int (totalSize e.2.manifest.fields.artifacts))
        (by simp)
      cases hbytes with
      | int _ high => omega
    · intro hbytes
      refine .dict (by simp [clean_lit]) ?_
      simp only [List.forall_mem_cons]
      exact ⟨.str hdigests.2, .str hdigests.1, inProfile_get haction _,
        .int (by omega) (by omega), by simp⟩
  constructor
  · rintro (_ | _ | _ | _ | _ | ⟨-, hvalues⟩)
    have hpeer := hvalues (lit "peer_id", .str catalog.peerId) (by simp)
    have hentries := hvalues (lit "entries", .list (catalog.listed.map entryDocument)) (by simp)
    cases hpeer with
    | str hclean =>
      cases hentries with
      | list helements =>
        refine ⟨hclean, fun e he => (hentry e he).mp (helements _ ?_)⟩
        exact List.mem_map_of_mem (mem_listed.mpr he)
  · rintro ⟨hclean, hbytes⟩
    refine .dict (by simp [clean_lit]) ?_
    simp only [List.forall_mem_cons]
    refine ⟨.str (clean_lit _), .str hclean, .str (clean_utcText now), .list fun v hv => ?_,
      hsignature, by simp⟩
    obtain ⟨e, he, rfl⟩ := List.mem_map.mp hv
    have he := mem_listed.mp he
    exact (hentry e he).mpr (hbytes e he)

/-! ### The signature -/

section

variable [Ed25519Signing]

/-- The octets that are signed. -/
def signedMessage (catalog : PublicPeerCatalog) (now : DateTime) : Bytes :=
  ascii "OnceMesh availability manifest v1\x00" ++
    canonicalBytes (catalog.availabilityDocument now .none)

/-- The signature of the manifest. -/
def signatureBytes (catalog : PublicPeerCatalog) (now : DateTime) : Bytes :=
  Ed25519Signing.sign catalog.seed (catalog.signedMessage now)

/-- The key identifier of the peer. -/
def keyId (catalog : PublicPeerCatalog) : Str := digestBytes (Ed25519Signing.publicKey catalog.seed)

/-- The signature document of the manifest. -/
def signatureDocument (catalog : PublicPeerCatalog) (now : DateTime) : Value :=
  .dict [(lit "profile", .str signatureProfile), (lit "key_id", .str catalog.keyId),
    (lit "value", .str (Base64.urlsafeEncode (catalog.signatureBytes now)))]

omit [LocalZone] in
theorem inProfile_signatureDocument (catalog : PublicPeerCatalog) (now : DateTime) :
    InProfile (catalog.signatureDocument now) := by
  refine .dict (by simp [clean_lit]) ?_
  simp only [List.forall_mem_cons]
  exact ⟨.str (clean_lit _), .str (clean_of_isDigest (isDigest_digestBytes _)),
    .str (clean_urlsafeEncode _), by simp⟩

omit [LocalZone] in
theorem validateAvailabilitySignature_signatureDocument (catalog : PublicPeerCatalog)
    (now : DateTime) : validateAvailabilitySignature (catalog.signatureDocument now) =
      .ok (catalog.keyId, catalog.signatureBytes now) := by
  have hexact : (catalog.signatureDocument now).hasExactKeys
      [lit "profile", lit "key_id", lit "value"] = true := rfl
  have hprofile : ((catalog.signatureDocument now).get (lit "profile")).eqStr signatureProfile =
      true := rfl
  have hkey : requireDigest ((catalog.signatureDocument now).get (lit "key_id"))
      "availability key_id is invalid" = .ok catalog.keyId :=
    if_pos (isDigest_digestBytes _)
  have hvalue : decodeAvailabilitySignature ((catalog.signatureDocument now).get (lit "value")) =
      .ok (catalog.signatureBytes now) := by
    refine (Decoder.decode_eq_ok .availabilitySignature).mpr ⟨rfl, ?_⟩
    intro size hsize
    cases hsize
    exact Ed25519Signing.length_sign _ _
  rw [validateAvailabilitySignature, exactKeys, hexact, hprofile, hkey, hvalue]
  rfl

omit [Ed25519Signing] in
/-- The octets of the manifest that are signed. -/
theorem availabilitySigningInput_availabilityDocument
    (hdigest : ∀ e ∈ catalog.published.entries, e.1 = e.2.manifest.digest) (now : DateTime)
    (signature : Value) :
    availabilitySigningInput (catalog.availabilityDocument now signature) =
      (canonicalJson (catalog.availabilityDocument now .none) >>= fun data =>
        .ok (ascii "OnceMesh availability manifest v1\x00" ++ data)) := by
  have hunsigned := validateAvailability_availabilityDocument hdigest now
    (.inl ⟨rfl, rfl, rfl⟩)
  have hwithout : withoutSignature (catalog.availabilityDocument now signature) =
      catalog.availabilityDocument now .none := rfl
  rw [availabilitySigningInput, hwithout, hunsigned]
  cases canonicalJson (catalog.availabilityDocument now .none) <;> rfl

/-- There is a manifest just if canonical JSON stores it, and it is the signed one. -/
theorem availability_eq_ok
    (hdigest : ∀ e ∈ catalog.published.entries, e.1 = e.2.manifest.digest) {now : DateTime}
    {document : Value} :
    catalog.availability now = .ok document ↔ (Clean catalog.peerId ∧
      ∀ e ∈ catalog.published.entries, totalSize e.2.manifest.fields.artifacts ≤ 2 ^ 53 - 1) ∧
      document = catalog.availabilityDocument now (catalog.signatureDocument now) := by
  have hsigned : validateAvailability
      (catalog.availabilityDocument now (catalog.signatureDocument now)) true = _ :=
    validateAvailability_availabilityDocument hdigest now
      (.inr ⟨_, _, rfl, rfl, validateAvailabilitySignature_signatureDocument catalog now⟩)
  have hseed : raiseIf (decide (catalog.seed.length ≠ 32))
      "availability private seed must contain exactly 32 bytes" = .ok () := by
    rw [catalog.seedLength]
    rfl
  have hnone : (catalog.availabilityDocument now .none).get (lit "signature") = .none := rfl
  rw [availability_eq, signAvailability, hnone]
  rw [hseed, availabilitySigningInput_availabilityDocument hdigest]
  by_cases hstored : InProfile (catalog.availabilityDocument now .none)
  · have hsaved := (inProfile_availabilityDocument hdigest now
      (inProfile_signatureDocument catalog now)).mpr
        ((inProfile_availabilityDocument hdigest now .none).mp hstored)
    have hwith : withSignature (catalog.signatureDocument now)
        (catalog.availabilityDocument now .none) =
          catalog.availabilityDocument now (catalog.signatureDocument now) := rfl
    rw [canonicalJson_of_inProfile hsaved, Except.ok_bind] at hsigned
    rw [canonicalJson_of_inProfile hstored]
    show (validateAvailability (withSignature (catalog.signatureDocument now)
      (catalog.availabilityDocument now .none)) true >>= fun _ => .ok (withSignature
        (catalog.signatureDocument now) (catalog.availabilityDocument now .none))) = _ ↔ _
    rw [hwith, hsigned, Except.ok_bind, Except.ok.injEq, eq_comm,
      ← inProfile_availabilityDocument hdigest now .none]
    exact (and_iff_right hstored).symm
  · cases hencoded : canonicalJson (catalog.availabilityDocument now .none) with
    | ok data => exact absurd (canonicalJson_eq_ok.mp hencoded).1 hstored
    | error e =>
      refine iff_of_false (fun h => by cases h) fun h => hstored ?_
      exact (inProfile_availabilityDocument hdigest now .none).mpr h.1

/-- What is advertised passes the checks of an import, and verifies under the key of the peer. -/
theorem advertised_of_availability
    (hdigest : ∀ e ∈ catalog.published.entries, e.1 = e.2.manifest.digest) {now : DateTime}
    {document : Value} (h : catalog.availability now = .ok document) :
    validateAvailability document true =
        .ok (catalog.advertised now (some (catalog.keyId, catalog.signatureBytes now))) ∧
      availabilitySigningInput document = .ok (catalog.signedMessage now) ∧
      verifyAvailability document catalog.peerId (Ed25519Signing.publicKey catalog.seed) =
        .ok true := by
  obtain ⟨hstored, rfl⟩ := (availability_eq_ok hdigest).mp h
  have hunsigned := (inProfile_availabilityDocument hdigest now .none).mpr hstored
  have hsigned := (inProfile_availabilityDocument hdigest now
    (inProfile_signatureDocument catalog now)).mpr hstored
  have hvalid : validateAvailability
      (catalog.availabilityDocument now (catalog.signatureDocument now)) true =
        .ok (catalog.advertised now (some (catalog.keyId, catalog.signatureBytes now))) := by
    have hvalid : validateAvailability
        (catalog.availabilityDocument now (catalog.signatureDocument now)) true = _ :=
      validateAvailability_availabilityDocument hdigest now
        (.inr ⟨_, _, rfl, rfl, validateAvailabilitySignature_signatureDocument catalog now⟩)
    rwa [canonicalJson_of_inProfile hsigned] at hvalid
  have hinput : availabilitySigningInput
      (catalog.availabilityDocument now (catalog.signatureDocument now)) =
        .ok (catalog.signedMessage now) := by
    rw [availabilitySigningInput_availabilityDocument hdigest,
      canonicalJson_of_inProfile hunsigned]
    rfl
  refine ⟨hvalid, hinput, ?_⟩
  have hverify :=
    Ed25519Signing.verify_sign catalog.seed (catalog.signedMessage now) catalog.seedLength
  rw [verifyAvailability, hvalid, Except.ok_bind]
  simp only [advertised, Ed25519Signing.length_publicKey, not_true, or_self, if_false, hinput,
    keyId, ne_eq, Except.ok_bind, signatureBytes, hverify]
  rfl

end

end

end PublicPeerCatalog

end OnceMesh.Federation
