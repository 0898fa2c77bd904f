import OnceMesh.Federation.Authenticator

/-!
# Replayed requests

A request is accepted twice only by outliving its nonce: presented again after the nonce has
expired and before the timestamp has. `acceptedRequests_nodup` follows the nonce of an accepted
request through the rest of the run. While it is remembered the request is refused; once the clock
has reached its expiry, the request must be too old.
-/

namespace OnceMesh.Federation

open Python

/-- The instant some seconds later, in microseconds and without a bound. -/
def later (t : DateTime) (seconds : ℤ) : ℤ := t.micros + seconds * 1000000

namespace FederationRequestAuthenticator

section

variable [LocalZone] (auth : FederationRequestAuthenticator)

/-- A request, presented first when it is not too far ahead of the clock, is presented again when
its nonce of the first time has expired and it is not too old. -/
def Outlives (first second : Call) (r : SignedRequest) : Prop :=
  ∃ signedAt, parseTime r.timestamp = .ok signedAt ∧
    signedAt.micros ≤ later first.now auth.maxFutureClockSkewSeconds ∧
    later first.now auth.maxAgeSeconds ≤ second.now.micros ∧
    second.now.micros ≤ later signedAt auth.maxAgeSeconds

/-! ### One call -/

variable [Sha256] [Ed25519] {auth} {call : Call} {c : Credentials} {nonces : Nonces}

/-- Credentials that pass the checks are those of the call, and inside the window. -/
theorem window_of_checkRequest (h : auth.checkRequest call = .ok (some c)) :
    call.credentials? = some c ∧ ∃ signedAt, parseTime c.timestamp = .ok signedAt ∧
      call.now.micros ≤ later signedAt auth.maxAgeSeconds ∧
      signedAt.micros ≤ later call.now auth.maxFutureClockSkewSeconds := by
  unfold checkRequest at h
  cases hcredentials : call.credentials? with
  | none => simp [hcredentials] at h
  | some c' =>
    simp only [hcredentials] at h
    cases hkey : auth.requesters.get? c'.peerId with
    | none => simp [hkey] at h
    | some publicKey =>
      simp only [hkey] at h
      obtain ⟨verified, -, h⟩ := Except.bind_eq_ok.mp h
      -- each check returns `none`, or goes on to the next
      split at h
      · cases h
      · obtain ⟨signedAt, hsigned, h⟩ := Except.bind_eq_ok.mp h
        obtain ⟨oldest, holdest, h⟩ := Except.bind_eq_ok.mp h
        split at h
        · cases h
        · next hage =>
          obtain ⟨newest, hnewest, h⟩ := Except.bind_eq_ok.mp h
          split at h
          · cases h
          · next hskew =>
            cases h
            rw [DateTime.addSeconds_eq_ok] at holdest hnewest
            rw [not_lt, DateTime.le_def] at hage hskew
            refine ⟨rfl, signedAt, hsigned, ?_, ?_⟩
            · unfold later
              omega
            · unfold later
              omega

/-- What an accepted call has passed. -/
theorem remember_of_accepts (h : auth.accepts nonces call = true) :
    ∃ c, auth.checkRequest call = .ok (some c) ∧
      (auth.remember nonces call.now c).1 = .ok true := by
  unfold accepts at h
  split at h
  · next peer haccepted =>
    unfold authenticatePeer at haccepted
    split at haccepted
    · exact absurd haccepted (recover_ne _ _)
    · cases haccepted
    · next c hcheck =>
      refine ⟨c, hcheck, ?_⟩
      split at haccepted
      · next heq => rw [heq]
      · cases haccepted
      · exact absurd haccepted (recover_ne _ _)
  · cases h

/-- A call that passes the checks is accepted when its nonce is. -/
theorem accepts_of_remember (hcheck : auth.checkRequest call = .ok (some c))
    (hremember : (auth.remember nonces call.now c).1 = .ok true) :
    auth.accepts nonces call = true := by
  unfold accepts authenticatePeer
  simp only [hcheck]
  generalize auth.remember nonces call.now c = remembered at hremember
  obtain ⟨answer, after⟩ := remembered
  subst hremember
  rfl

/-- The nonces after a call that passes the checks. -/
theorem nonces_authenticatePeer (hcheck : auth.checkRequest call = .ok (some c)) :
    (auth.authenticatePeer nonces call).2 = (auth.remember nonces call.now c).2 := by
  simp only [authenticatePeer, hcheck]
  split <;> next heq => rw [heq]

/-- A nonce that has not expired stays remembered, whatever is called. -/
theorem get?_authenticatePeer {k : Str × Str} {expires : DateTime}
    (hk : nonces.get? k = some expires) (hnow : call.now < expires) :
    (auth.authenticatePeer nonces call).2.get? k = some expires := by
  by_cases hcheck : ∃ c, auth.checkRequest call = .ok (some c)
  · obtain ⟨c, hcheck⟩ := hcheck
    rw [nonces_authenticatePeer hcheck, remember]
    exact ReplayCache.get?_offer hk hnow
  · unfold authenticatePeer
    split
    · exact hk
    · exact hk
    · next c hc => exact absurd ⟨c, hc⟩ hcheck

/-! ### A whole run -/

variable {r : SignedRequest} {signedAt : DateTime} {calls : List Call}

/-- The call that has a request accepted presents it, and passes the checks. -/
theorem presents_of_mem (h : r ∈ (if auth.accepts nonces call then
      call.signedRequest?.toList else [])) :
    auth.accepts nonces call = true ∧ call.signedRequest? = some r := by
  split_ifs at h with haccepts
  · exact ⟨haccepts, by simpa using h⟩
  · cases h

/-- The credentials of a call that presents a request. -/
theorem eq_of_presents (hcheck : auth.checkRequest call = .ok (some c))
    (hpresents : call.signedRequest? = some r) :
    c.peerId = r.peerId ∧ c.nonce = r.nonce ∧ c.timestamp = r.timestamp := by
  obtain ⟨hcredentials, -⟩ := window_of_checkRequest hcheck
  rw [Call.signedRequest?, hcredentials, Option.map_some, Option.some.injEq] at hpresents
  subst hpresents
  exact ⟨rfl, rfl, rfl⟩

/-- An accepted request was inside the window. -/
theorem window_of_accepts (haccepts : auth.accepts nonces call = true)
    (hpresents : call.signedRequest? = some r) :
    ∃ signedAt, parseTime r.timestamp = .ok signedAt ∧
      call.now.micros ≤ later signedAt auth.maxAgeSeconds ∧
      signedAt.micros ≤ later call.now auth.maxFutureClockSkewSeconds := by
  obtain ⟨c, hcheck, -⟩ := remember_of_accepts haccepts
  obtain ⟨-, htimestamp⟩ := (eq_of_presents hcheck hpresents).2
  rw [← htimestamp]
  exact (window_of_checkRequest hcheck).2

/-- A request is not accepted while its nonce is remembered. -/
theorem not_accepts_of_remembered {expires : DateTime}
    (hk : nonces.get? (r.peerId, r.nonce) = some expires) (hnow : call.now < expires)
    (hpresents : call.signedRequest? = some r) : auth.accepts nonces call = false := by
  rw [Bool.eq_false_iff]
  intro haccepts
  obtain ⟨c, hcheck, hremember⟩ := remember_of_accepts haccepts
  obtain ⟨hpeer, hnonce, -⟩ := eq_of_presents hcheck hpresents
  rw [remember, hpeer, hnonce, ReplayCache.offer_remembered hk hnow] at hremember
  cases hremember

/-- A request whose nonce is remembered is not accepted in the rest of the run, unless it is
presented after the nonce has expired and before it is too old. -/
theorem notMem_acceptedRequests {expires : DateTime}
    (hk : nonces.get? (r.peerId, r.nonce) = some expires ∨ ∀ call ∈ calls, expires ≤ call.now)
    (hclock : calls.Pairwise fun a b => a.now ≤ b.now)
    (hold : ∀ call ∈ calls, call.signedRequest? = some r → expires ≤ call.now →
      ∀ signedAt, parseTime r.timestamp = .ok signedAt →
        later signedAt auth.maxAgeSeconds < call.now.micros) :
    r ∉ auth.acceptedRequests nonces calls := by
  induction calls generalizing nonces with
  | nil => exact List.not_mem_nil
  | cons call rest ih =>
    obtain ⟨hfirst, hrest⟩ := List.pairwise_cons.mp hclock
    have holdRest := fun later hlater => hold later (List.mem_cons_of_mem _ hlater)
    rw [acceptedRequests, List.mem_append, not_or]
    constructor
    · intro hmem
      obtain ⟨haccepts, hpresents⟩ := presents_of_mem hmem
      obtain ⟨signedAt, hsigned, hage, -⟩ := window_of_accepts haccepts hpresents
      -- past the expiry the request is too old, and before it the nonce is remembered
      by_cases hexpired : expires ≤ call.now
      · have := hold call List.mem_cons_self hpresents hexpired signedAt hsigned
        omega
      · rcases hk with hk | hk
        · rw [not_accepts_of_remembered hk (not_le.mp hexpired) hpresents] at haccepts
          cases haccepts
        · exact hexpired (hk call List.mem_cons_self)
    · refine ih ?_ hrest holdRest
      by_cases hexpired : expires ≤ call.now
      · exact Or.inr fun later hlater => hexpired.trans (hfirst later hlater)
      · rcases hk with hk | hk
        · exact Or.inl (get?_authenticatePeer hk (not_le.mp hexpired))
        · exact absurd (hk call List.mem_cons_self) hexpired

/-- While the clock does not go back, a signed request is accepted at most once in a run, provided
that no request outlives its nonce. -/
theorem acceptedRequests_nodup (hclock : calls.Pairwise fun a b => a.now ≤ b.now)
    (houtlives : calls.Pairwise fun a b => ∀ r, a.signedRequest? = some r →
      b.signedRequest? = some r → ¬auth.Outlives a b r) :
    (auth.acceptedRequests .empty calls).Nodup := by
  generalize (Dict.empty : Nonces) = nonces
  induction calls generalizing nonces with
  | nil => exact List.nodup_nil
  | cons call rest ih =>
    obtain ⟨hfirst, hrest⟩ := List.pairwise_cons.mp hclock
    obtain ⟨hpairs, hpairsRest⟩ := List.pairwise_cons.mp houtlives
    rw [acceptedRequests]
    refine List.Nodup.append ?_ (ih hrest hpairsRest _) ?_
    · split_ifs
      · cases call.signedRequest? <;> simp
      · exact List.nodup_nil
    · intro r hmem
      obtain ⟨haccepts, hpresents⟩ := presents_of_mem hmem
      obtain ⟨c, hcheck, hremember⟩ := remember_of_accepts haccepts
      obtain ⟨hpeer, hnonce, -⟩ := eq_of_presents hcheck hpresents
      obtain ⟨expires, hexpires, hget⟩ := ReplayCache.get?_of_accepted hremember
      rw [DateTime.addSeconds_eq_ok] at hexpires
      have hremembered :
          (auth.authenticatePeer nonces call).2.get? (r.peerId, r.nonce) = some expires := by
        rw [nonces_authenticatePeer hcheck, ← hpeer, ← hnonce]
        exact hget
      refine notMem_acceptedRequests (Or.inl hremembered) hrest ?_
      intro second hsecond hpresentsSecond hexpired signedAt hsigned
      obtain ⟨signedAt', hsigned', -, hskew⟩ := window_of_accepts haccepts hpresents
      rw [hsigned] at hsigned'
      cases hsigned'
      by_contra hyoung
      refine hpairs second hsecond r hpresents hpresentsSecond ⟨signedAt, hsigned, hskew, ?_, ?_⟩
      · rw [DateTime.le_def] at hexpired
        unfold later
        omega
      · exact not_lt.mp hyoung

/-- A fresh authenticator that has accepted a request accepts it again, if the request outlives its
nonce and still passes the checks. -/
theorem acceptedRequests_of_outlives {first second : Call} {expires : DateTime}
    (haccepts : auth.accepts .empty first = true) (hfirst : first.signedRequest? = some r)
    (hsecond : second.signedRequest? = some r) (hcheck : auth.checkRequest second = .ok (some c))
    (hexpires : second.now.addSeconds auth.maxAgeSeconds = .ok expires)
    (houtlives : auth.Outlives first second r) :
    auth.acceptedRequests .empty [first, second] = [r, r] := by
  obtain ⟨c', hcheck', hremember⟩ := remember_of_accepts haccepts
  obtain ⟨t, ht, hafter⟩ := ReplayCache.offer_empty_accepted hremember
  obtain ⟨signedAt, -, -, hexpired, -⟩ := houtlives
  -- the only nonce remembered has expired
  have hle : t ≤ second.now := by
    rw [DateTime.addSeconds_eq_ok] at ht
    rw [DateTime.le_def]
    unfold later at hexpired
    omega
  have hagain : auth.accepts (auth.authenticatePeer .empty first).2 second = true := by
    have hoffer : (auth.remember (auth.authenticatePeer .empty first).2 second.now c).1 =
        .ok true := by
      rw [nonces_authenticatePeer hcheck', remember, remember, hafter]
      refine ReplayCache.offer_singleton_expired hexpires hle ?_
      have := auth.nonceRange
      omega
    exact accepts_of_remember hcheck hoffer
  simp [acceptedRequests, haccepts, hagain, hfirst, hsecond]

end

/-! ### A request that outlives its nonce -/

/-- The public key of a peer. -/
def exampleKey : Bytes :=
  [0xd7, 0x5a, 0x98, 0x01, 0x82, 0xb1, 0x0a, 0xb7, 0xd5, 0x4b, 0xfe, 0xd3, 0xc9, 0x64, 0x07, 0x3a,
   0x0e, 0xe1, 0x72, 0xf3, 0xda, 0xa6, 0x23, 0x25, 0xaf, 0x02, 0x1a, 0x68, 0xf7, 0x07, 0x51, 0x1a]

/-- The request of `exampleCall`, as it is signed. -/
def exampleMessage : Bytes :=
  ascii "OnceMesh federation HTTP request v1\x00" ++ ascii
    "\x7b\"body_digest\":\"sha256:e3b0c44298fc1c149afbf4c8996fb924" ++
    ascii "27ae41e4649b934ca495991b7852b855\"," ++
    ascii "\"method\":\"GET\",\"nonce\":\"00112233445566778899aabbccddeeff\"," ++
    ascii "\"path\":\"/v0/availability\",\"peer_id\":\"org-b\"," ++
    ascii "\"spec_version\":\"oncemesh.federation-request/v0\"," ++
    ascii "\"timestamp\":\"2026-08-24T22:00:00Z\"\x7d"

/-- The signature of the request under the peer's key. -/
def exampleSignature : Str :=
  lit "ENKcbgrKDApMzpT6NqGbLwK8aXU0rDHE6glJa-XI0iIYlA69_usHwXVcGaE6JhOEACwLc5Wr6axipi7IugHHDg"

/-- Ed25519 where the example needs it: the one signature verifies. -/
@[reducible]
def exampleEd25519 : Ed25519 where
  verify key signature message := key = exampleKey ∧
    some signature = Base64.urlsafeDecode exampleSignature ∧ message = exampleMessage

/-- A system that runs in UTC. -/
@[reducible]
def utcZone : LocalZone := ⟨fun micros => utcOf micros 0⟩

/-- An authenticator with the default windows. -/
def exampleAuthenticator : FederationRequestAuthenticator where
  requesters := ⟨[(lit "org-b", exampleKey)], by simp⟩
  maxAgeSeconds := 60
  maxFutureClockSkewSeconds := 5
  maxRememberedNonces := 10000
  configured := by simp
  requesterConfig := by simp [exampleKey]
  ageRange := by decide
  skewRange := by decide
  nonceRange := by decide

/-- The headers of the request. -/
def exampleHeaders : List (Str × Str) :=
  [(lit "OnceMesh-Peer-ID", lit "org-b"), (lit "OnceMesh-Timestamp", lit "2026-08-24T22:00:00Z"),
    (lit "OnceMesh-Nonce", lit "00112233445566778899aabbccddeeff"),
    (lit "OnceMesh-Key-ID",
      lit "sha256:21fe31dfa154a261626bf854046fd2271b7bed4b6abe45aa58877ef47f9721b9"),
    (lit "OnceMesh-Signature", exampleSignature)]

/-- A call that presents the request, up to an hour after it was signed. -/
def exampleCall (seconds : Fin 3600) : Call where
  method := lit "GET"
  path := lit "/v0/availability"
  headers name := (exampleHeaders.lookup name).map ([·])
  now := ⟨(63923205600 + seconds) * 1000000, by
    unfold maxOrdinal microsPerDay
    omega⟩

/-- Presented again thirty seconds later, the request is not accepted a second time. -/
theorem acceptedRequests_nodup_example :
    (@acceptedRequests Sha256.standard utcZone exampleEd25519 exampleAuthenticator .empty
      [exampleCall 0, exampleCall 30]).Nodup := by
  refine @acceptedRequests_nodup utcZone exampleAuthenticator Sha256.standard exampleEd25519 _ ?_ ?_
  · decide +kernel
  · rw [List.pairwise_pair]
    rintro r - - ⟨signedAt, -, -, hexpired, -⟩
    exact absurd hexpired (by decide +kernel)

/-- Observed at the second it was signed, the request is accepted again a minute later: its nonce
has expired, and it is not yet too old. -/
theorem not_acceptedRequests_nodup :
    ¬∀ (_ : Sha256) (_ : LocalZone) (_ : Ed25519) (auth : FederationRequestAuthenticator)
      (calls : List Call), (calls.Pairwise fun a b => a.now ≤ b.now) →
        (auth.acceptedRequests .empty calls).Nodup := by
  intro h
  have hnodup := h Sha256.standard utcZone exampleEd25519 exampleAuthenticator
    [exampleCall 0, exampleCall 60] (by decide +kernel)
  exact absurd hnodup (by decide +kernel)

end FederationRequestAuthenticator

end OnceMesh.Federation
