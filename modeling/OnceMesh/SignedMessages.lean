import OnceMesh.Authorization.Derivation
import OnceMesh.Federation.Availability
import OnceMesh.Federation.Replay

/-!
# Signed messages

Receipts, availability manifests and federation requests are signed with the same kind of key, and
authorization partitions are hashed with a key. In front of the canonical form of each stands the
name of its domain. `signingInput_injective` says that a message determines what was signed, its
kind included, and what this means for the verification of signatures.
-/

namespace OnceMesh

open Python Federation

/-- The kinds of what is signed, or hashed with a key. -/
inductive SignedKind where
  | receipt
  | availability
  | request
  | partition

/-- The name of the domain, with the NUL after it. -/
def SignedKind.domain : SignedKind → Bytes
  | .receipt => ascii "OnceMesh receipt signature v1\x00"
  | .availability => ascii "OnceMesh availability manifest v1\x00"
  | .request => ascii "OnceMesh federation HTTP request v1\x00"
  | .partition => ascii "OnceMesh authorization partition v1\x00"

/-- What is signed, or hashed with a key. -/
inductive SignedDocument where
  | receipt (document : Object)
  | availability (document : Object)
  | request (document : Object)
  | partition (claims : PartitionClaims)

/-- No domain is the beginning of another. -/
theorem SignedKind.eq_of_domain_prefix {k k' : SignedKind} (h : k.domain <+: k'.domain) :
    k = k' := by
  cases k <;> cases k' <;> first | rfl | exact absurd h (by decide +kernel)

/-- A domain in front of a message determines the kind and the rest of the message. -/
theorem SignedKind.domain_append_inj {k k' : SignedKind} {data data' : Bytes} :
    k.domain ++ data = k'.domain ++ data' ↔ k = k' ∧ data = data' := by
  constructor
  · intro h
    have hstarts : k.domain <+: k'.domain ++ data' := h ▸ List.prefix_append _ _
    have hkind : k = k' := by
      rcases List.prefix_or_prefix_of_prefix hstarts (List.prefix_append _ _) with h | h
      · exact SignedKind.eq_of_domain_prefix h
      · exact (SignedKind.eq_of_domain_prefix h).symm
    rw [hkind, List.append_cancel_left_eq] at h
    exact ⟨hkind, h⟩
  · rintro ⟨rfl, rfl⟩
    rfl

namespace SignedDocument

/-- The kind of a document. -/
def kind : SignedDocument → SignedKind
  | .receipt _ => .receipt
  | .availability _ => .availability
  | .request _ => .request
  | .partition _ => .partition

/-- The document whose canonical form is signed. -/
def unsigned : SignedDocument → Value
  | .receipt document | .availability document => withoutSignature document.value
  | .request document => document.value
  | .partition claims => claims.document

/-- The same kind of document, and the same document apart from its signature. -/
def SameUpToSignature : SignedDocument → SignedDocument → Prop
  | .receipt document, .receipt document' | .availability document, .availability document' =>
    (withoutSignature document.value).Same (withoutSignature document'.value)
  | .request document, .request document' => document.value.Same document'.value
  | .partition claims, .partition claims' => claims.Same claims'
  | _, _ => False

theorem wellFormed_withoutSignature {value : Value} (h : value.WellFormed) :
    (withoutSignature value).WellFormed := by
  cases value with
  | dict items => exact Value.wellFormed_setItem h trivial
  | _ => exact h

theorem wellFormed_unsigned (d : SignedDocument) : d.unsigned.WellFormed := by
  cases d with
  | receipt document | availability document =>
    exact wellFormed_withoutSignature document.wellFormed
  | request document => exact document.wellFormed
  | partition claims => exact claims.wellFormed_document

section

variable [Sha256] [LocalZone]

/-- The message that is signed, or hashed with a key. -/
def signingInput : SignedDocument → Except PyError Bytes
  | .receipt document => receiptSigningInput document.value
  | .availability document => availabilitySigningInput document.value
  | .request document => federationRequestSigningInput document.value
  | .partition claims => claims.message

/-- The message is the domain and the canonical form of the document without its signature. -/
theorem signingInput_eq {d : SignedDocument} {data : Bytes} (h : d.signingInput = .ok data) :
    InProfile d.unsigned ∧ data = d.kind.domain ++ canonicalBytes d.unsigned := by
  -- each signing input ends by encoding the document behind its domain
  have hencoded : ∀ (v : Value) (domain : Bytes),
      (do let bytes ← canonicalJson v; pure (domain ++ bytes)) = Except.ok data →
      InProfile v ∧ data = domain ++ canonicalBytes v := by
    intro v domain h
    obtain ⟨bytes, hbytes, ⟨⟩⟩ := Except.bind_eq_ok.mp h
    obtain ⟨hprofile, rfl⟩ := canonicalJson_eq_ok.mp hbytes
    exact ⟨hprofile, rfl⟩
  cases d with
  | receipt document | availability document =>
    obtain ⟨fields, -, h⟩ := Except.bind_eq_ok.mp h
    exact hencoded _ _ h
  | request document =>
    obtain ⟨-, h⟩ := Except.check_eq_ok.mp h
    exact hencoded _ _ h
  | partition claims => exact (PartitionClaims.message_eq_ok.mp h).2

theorem nodup_of_signingInput {claims : PartitionClaims} {data : Bytes}
    (h : (partition claims).signingInput = .ok data) : claims.scopes.Nodup :=
  PartitionClaims.nodup_of_validate (PartitionClaims.message_eq_ok.mp h).1

/-- Two documents that can be signed are the same up to their signatures exactly when they are of
one kind and have the same unsigned document. -/
theorem sameUpToSignature_iff {d d' : SignedDocument} {data data' : Bytes}
    (h : d.signingInput = .ok data) (h' : d'.signingInput = .ok data') :
    d.SameUpToSignature d' ↔ d.kind = d'.kind ∧ d.unsigned.Same d'.unsigned := by
  cases d with
  | partition claims =>
    cases d' with
    | partition claims' =>
      have hdocument := PartitionClaims.same_document_iff (nodup_of_signingInput h)
        (nodup_of_signingInput h')
      exact hdocument.symm.trans (and_iff_right rfl).symm
    | _ => exact iff_of_false id fun h => nomatch h.1
  | _ =>
    cases d' <;> first
      | exact (and_iff_right rfl).symm
      | exact iff_of_false id fun h => nomatch h.1

/-- Two messages are equal exactly when they are made of the same kind of document, and of the same
document up to its signature. -/
theorem signingInput_eq_iff {d d' : SignedDocument} {data data' : Bytes}
    (h : d.signingInput = .ok data) (h' : d'.signingInput = .ok data') :
    data = data' ↔ d.SameUpToSignature d' := by
  rw [sameUpToSignature_iff h h']
  obtain ⟨hprofile, rfl⟩ := signingInput_eq h
  obtain ⟨hprofile', rfl⟩ := signingInput_eq h'
  rw [SignedKind.domain_append_inj, canonicalBytes_eq_iff hprofile hprofile' d.wellFormed_unsigned
    d'.wellFormed_unsigned]

/-- The signature of a document verifies under a public key. -/
inductive Verifies [Ed25519] (publicKey : Bytes) : SignedDocument → Prop where
  | receipt (document : Object) (h : verifyReceipt document.value publicKey = .ok true) :
    Verifies publicKey (.receipt document)
  | availability (document : Object) (peerId : Str)
    (h : verifyAvailability document.value peerId publicKey = .ok true) :
    Verifies publicKey (.availability document)
  | request (document : Object) (signature : Value)
    (h : verifyFederationRequest document.value signature publicKey = .ok true) :
    Verifies publicKey (.request document)

/-- Nobody but the holder of a key makes signatures for it: a message whose signature verifies is
that of a document which the holder signed. -/
def Unforgeable [Ed25519] (publicKey : Bytes) (signed : Set SignedDocument) : Prop :=
  ∀ signature message, Ed25519.verify publicKey signature message = true →
    ∃ d ∈ signed, d.signingInput = .ok message

/-- A document that verifies has a signature over its message. -/
theorem Verifies.exists_signature [Ed25519] {publicKey : Bytes} {d : SignedDocument}
    (h : d.Verifies publicKey) : ∃ signature message, d.signingInput = .ok message ∧
      Ed25519.verify publicKey signature message = true := by
  cases h with
  | receipt document h =>
    obtain ⟨fields, -, h⟩ := Except.bind_eq_ok.mp h
    obtain ⟨-, h⟩ := Except.check_eq_ok.mp h
    split at h
    · cases h
    next keyId signature _ =>
      split_ifs at h
      · cases h
      obtain ⟨message, hmessage, h⟩ := Except.bind_eq_ok.mp h
      exact ⟨signature, message, hmessage, Except.ok.inj h⟩
  | availability document peerId h =>
    obtain ⟨fields, -, h⟩ := Except.bind_eq_ok.mp h
    split_ifs at h
    · cases h
    split at h
    · cases h
    next keyId signature _ =>
      split_ifs at h
      · cases h
      obtain ⟨message, hmessage, h⟩ := Except.bind_eq_ok.mp h
      exact ⟨signature, message, hmessage, Except.ok.inj h⟩
  | request document signature h =>
    have hcheck : checkSignature document.value signature publicKey = .ok true := by
      unfold verifyFederationRequest at h
      split at h
      next verified hcheck =>
        cases h
        exact hcheck
      next e _ =>
        split_ifs at h
        cases h
    obtain ⟨-, hcheck⟩ := Except.check_eq_ok.mp hcheck
    split_ifs at hcheck
    iterate 3 cases hcheck
    obtain ⟨decoded, -, hcheck⟩ := Except.bind_eq_ok.mp hcheck
    obtain ⟨message, hmessage, hcheck⟩ := Except.bind_eq_ok.mp hcheck
    exact ⟨decoded, message, hmessage, Except.ok.inj hcheck⟩

end

end SignedDocument

open SignedDocument

/-- A message determines the kind of the document it is made of and the document up to its
signature, and for authorization partitions exactly the claims. So a document verifies under a key
only when its holder has signed it, and two tokens under one key are equal only when the claims are
the same. -/
theorem signingInput_injective [Sha256] [LocalZone] :
    (∀ (d d' : SignedDocument) (data data' : Bytes), d.signingInput = .ok data →
      d'.signingInput = .ok data' → (data = data' ↔ d.SameUpToSignature d')) ∧
    (∀ (_ : Ed25519) (publicKey : Bytes) (signed : Set SignedDocument),
      Unforgeable publicKey signed → ∀ d, d.Verifies publicKey →
        ∃ d' ∈ signed, d'.SameUpToSignature d) ∧
    ∀ (partitionKey : Bytes) (claims claims' : PartitionClaims) (token token' : Str),
      Set.InjOn (hmacSha256 partitionKey)
        {message | claims.message = .ok message ∨ claims'.message = .ok message} →
      deriveAuthorizationPartition claims partitionKey = .ok token →
      deriveAuthorizationPartition claims' partitionKey = .ok token' →
        (token = token' ↔ claims.Same claims') := by
  refine ⟨fun d d' data data' h h' => signingInput_eq_iff h h', ?_, ?_⟩
  · intro _ publicKey signed hunforgeable d hverifies
    obtain ⟨signature, message, hmessage, hverify⟩ := hverifies.exists_signature
    obtain ⟨d', hd', hmessage'⟩ := hunforgeable signature message hverify
    exact ⟨d', hd', (signingInput_eq_iff hmessage' hmessage).mp rfl⟩
  · intro partitionKey claims claims' token token' hinj h h'
    obtain ⟨message, hmessage, rfl⟩ := deriveAuthorizationPartition_eq_ok h
    obtain ⟨message', hmessage', rfl⟩ := deriveAuthorizationPartition_eq_ok h'
    have hsame : message = message' ↔ claims.Same claims' :=
      @signingInput_eq_iff _ _ (.partition claims) (.partition claims') _ _ hmessage hmessage'
    rw [List.append_cancel_left_eq, hex_injective.eq_iff, ← hsame]
    exact ⟨fun hhash => hinj (.inl hmessage) (.inr hmessage') hhash, congrArg _⟩

/-! ### One signed request -/

/-- A request. -/
def exampleRequest : Object where
  value := .dict [(lit "spec_version", .str (lit "oncemesh.federation-request/v0")),
    (lit "peer_id", .str (lit "org-b")), (lit "timestamp", .str (lit "2026-08-24T22:00:00Z")),
    (lit "nonce", .str (lit "00112233445566778899aabbccddeeff")),
    (lit "method", .str (lit "GET")), (lit "path", .str (lit "/v0/availability")),
    (lit "body_digest", .str (@emptyBodyDigest Sha256.standard))]
  wellFormed := by simp [Value.WellFormed, Value.WellFormedItems]

/-- Claims with two scopes. -/
def exampleClaims (scopes : List Str) : PartitionClaims := ⟨lit "t", scopes, none⟩

theorem isOk_exampleClaims_ordered : (@deriveAuthorizationPartition Sha256.standard
    (exampleClaims [lit "a", lit "b"]) (List.replicate 32 0)).isOk = true := by
  decide +kernel

theorem isOk_exampleClaims_reversed : (@deriveAuthorizationPartition Sha256.standard
    (exampleClaims [lit "b", lit "a"]) (List.replicate 32 0)).isOk = true := by
  decide +kernel

/-- The holder of a key signs one request: no availability manifest verifies under the key. The
scopes of a token may be given in any order. -/
theorem signingInput_injective_example :
    (@signingInput Sha256.standard FederationRequestAuthenticator.utcZone
      (.request exampleRequest) =
      .ok FederationRequestAuthenticator.exampleMessage) ∧
    (¬∃ document, @Verifies Sha256.standard FederationRequestAuthenticator.utcZone
      FederationRequestAuthenticator.exampleEd25519 FederationRequestAuthenticator.exampleKey
        (.availability document)) ∧
    ∃ token, @deriveAuthorizationPartition Sha256.standard
        (exampleClaims [lit "a", lit "b"]) (List.replicate 32 0) = .ok token ∧
      @deriveAuthorizationPartition Sha256.standard
        (exampleClaims [lit "b", lit "a"]) (List.replicate 32 0) = .ok token := by
  have hmessage : @signingInput Sha256.standard FederationRequestAuthenticator.utcZone
      (.request exampleRequest) = .ok FederationRequestAuthenticator.exampleMessage := by
    decide +kernel
  refine ⟨hmessage, ?_, ?_⟩
  · rintro ⟨document, hverifies⟩
    have hunforgeable : @Unforgeable Sha256.standard FederationRequestAuthenticator.utcZone
        FederationRequestAuthenticator.exampleEd25519 FederationRequestAuthenticator.exampleKey
          {.request exampleRequest} := by
      intro signature message hverify
      have hsigned := of_decide_eq_true hverify
      exact ⟨_, rfl, hsigned.2.2 ▸ hmessage⟩
    -- what verifies was signed, and only the request was
    obtain ⟨_, rfl, ⟨⟩⟩ := (@signingInput_injective Sha256.standard
      FederationRequestAuthenticator.utcZone).2.1 FederationRequestAuthenticator.exampleEd25519
        FederationRequestAuthenticator.exampleKey _ hunforgeable _ hverifies
  · obtain ⟨token, htoken⟩ := Except.exists_of_isOk isOk_exampleClaims_ordered
    obtain ⟨token', htoken'⟩ := Except.exists_of_isOk isOk_exampleClaims_reversed
    have hsame : (exampleClaims [lit "a", lit "b"]).Same (exampleClaims [lit "b", lit "a"]) :=
      ⟨rfl, fun scope => by simp [exampleClaims, or_comm], rfl⟩
    have hinputs : ∀ message, (exampleClaims [lit "b", lit "a"]).message = .ok message →
        (exampleClaims [lit "a", lit "b"]).message = .ok message := fun _ h => h
    have htokens := (@signingInput_injective Sha256.standard
      FederationRequestAuthenticator.utcZone).2.2 _ _ _ token token' ?_ htoken htoken'
    · exact ⟨token, htoken, htokens.mpr hsame ▸ htoken'⟩
    · -- both lists of scopes give the same message
      rintro message hmem message' hmem' -
      have hfirst := hmem.elim id (hinputs message)
      exact Except.ok.inj (hfirst.symm.trans (hmem'.elim id (hinputs message')))

end OnceMesh
