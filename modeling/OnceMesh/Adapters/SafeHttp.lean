import OnceMesh.Adapters
import OnceMesh.ListRelations
import OnceMesh.Python.Urllib

/-!
# The transport of controlled evaluation runs

`SafeHTTPTransport` makes HTTPS requests to allowed hosts only. Before each request, of a caller or
of a redirect, `validateTarget` normalizes the URL, looks its host up among the allowed ones and
asks `ipaddress` whether every address it resolves to is global. The answers of the resolver and of
the servers are parameters; the requests that are sent are recorded in the order of sending.

`network_authority_iff` says which of the classes of addresses that the evaluation profile rejects
are kept from the requests: the registries behind `is_global` name all of them but the multicast
addresses and the blocks of IPv6 that are reserved for later use.
-/

namespace Python.Stateful

variable {ε σ α β : Type}

/-- What holds if the first part raises, and of the rest if it returns, holds of the sequence. -/
theorem bind_induction (p : Except ε β × σ → Prop) {x : Stateful ε σ α} {f : α → Stateful ε σ β}
    {s : σ} (herror : ∀ e t, x s = (.error e, t) → p (.error e, t))
    (hok : ∀ a t, x s = (.ok a, t) → p (f a t)) : p ((x >>= f) s) := by
  cases h : x s with
  | mk r t =>
    cases r with
    | ok a =>
      rw [bind_apply_of_ok h]
      exact hok a t h
    | error e =>
      rw [bind_apply_of_error h]
      exact herror e t h

/-- A first part without effects raises, or hands its value to the rest in the same state. -/
theorem liftM_bind_induction (p : Except ε β × σ → Prop) {x : Except ε α}
    {f : α → Stateful ε σ β} {s : σ} (herror : ∀ e, x = .error e → p (.error e, s))
    (hok : ∀ a, x = .ok a → p (f a s)) : p (((liftM x : Stateful ε σ α) >>= f) s) := by
  refine bind_induction p (fun e t h => ?_) (fun a t h => ?_)
  · cases h
    exact herror e rfl
  · cases h
    exact hok a rfl

end Python.Stateful

namespace OnceMesh

open Python

section

variable [UnicodeTables]

/-! ### Targets -/

/-- The host as it stands in a URL, with the port if it is not the one of the scheme. -/
def networkLocation (host : Str) (port : Option ℕ) : Str :=
  let host := if 0x3A ∈ host then lit "[" ++ host ++ lit "]" else host
  match port with
  | none => host
  | some port => if port = 443 then host else host ++ lit ":" ++ intRepr port

/-- `normalize_https_url`. -/
def normalizeHttpsUrl (url : Str) : Except PyError Str := do
  let parsed ← urlsplit url
  raiseIf (lower parsed.scheme ≠ lit "https") "http.fetch/v1 permits HTTPS URLs only"
  match parsed.hostname with
  | none => raiseValueError "URL must contain a host and no user information"
  | some hostname => do
    raiseIf (parsed.username.isSome || parsed.password.isSome)
      "URL must contain a host and no user information"
    let port ← parsed.port.mapError fun _ => .valueError (lit "URL port is invalid") []
    let host ← encodeIdna hostname
    pure (SplitResult.unsplit
      { scheme := lit "https"
        netloc := networkLocation (lower host) port
        path := if parsed.path = [] then lit "/" else parsed.path
        query := parsed.query
        fragment := [] })

/-- The URL normalizer of the fetch adapter. -/
abbrev urlNormalizer : UrlNormalizer := ⟨normalizeHttpsUrl⟩

/-- `host.encode("idna").decode("ascii").lower().rstrip(".")`. -/
def normalizedHost (host : Str) : Except PyError Str := do
  let encoded ← encodeIdna host
  pure ((lower encoded).reverse.dropWhile (· = 0x2E)).reverse

/-- `timeout_seconds <= 0`. -/
def isNonPositive : PyFloat → Bool
  | .finite negative mantissa _ => negative || mantissa = 0
  | .infinity negative => negative
  | .nan => false

/-- `Resolver`: the addresses of a host and a port. The answers may change from call to call, which
are counted. -/
abbrev Resolver := ℕ → Str → ℕ → Except PyError (List Str)

/-- `SafeHTTPTransport`. -/
structure SafeHTTPTransport where
  allowedHosts : List Str
  timeoutSeconds : PyFloat
  maxRedirects : ℕ
  resolver : Resolver

/-- A validated URL, and the addresses its host resolved to. -/
structure FetchTarget where
  url : Str
  addresses : List Str
  deriving DecidableEq

/-- A request that has been sent. -/
structure SentRequest where
  url : Str
  headers : List (Str × Value)
  /-- What was validated for the request. -/
  target : FetchTarget

/-- What the transport has done so far. -/
structure NetworkState where
  /-- How often the resolver was called. -/
  resolutions : ℕ
  requests : List SentRequest

namespace SafeHTTPTransport

/-- `SafeHTTPTransport(allowed_hosts, timeout_seconds=…, max_redirects=…, resolver=…)`. -/
def make (allowedHosts : List Str) (timeoutSeconds : PyFloat) (maxRedirects : ℤ)
    (resolver : Resolver) : Except PyError SafeHTTPTransport := do
  let normalizedHosts ← allowedHosts.mapM normalizedHost
  raiseIf normalizedHosts.isEmpty "at least one allowed host is required"
  raiseIf (isNonPositive timeoutSeconds || maxRedirects < 0)
    "timeout must be positive and max_redirects non-negative"
  pure ⟨normalizedHosts, timeoutSeconds, maxRedirects.toNat, resolver⟩

variable (transport : SafeHTTPTransport)

/-- `self.resolver(host, port)`. -/
def resolve (host : Str) (port : ℕ) : Stateful PyError NetworkState (List Str) := fun s =>
  (transport.resolver s.resolutions host port, { s with resolutions := s.resolutions + 1 })

/-- The loop of `validate_target` over the addresses. -/
def checkAddresses : List Str → Except PyError Unit
  | [] => .ok ()
  | raw :: rest =>
    match IpAddress.ofText? raw with
    | none => raiseValueError "address does not appear to be an IPv4 or IPv6 address"
    | some address => do
      raiseIf (!address.isGlobal) "host resolves to a non-global address"
      checkAddresses rest

/-- `validate_target`. -/
def validateTarget (url : Str) : Stateful PyError NetworkState FetchTarget := do
  let normalized ← normalizeHttpsUrl url
  let parsed ← urlsplit normalized
  let host ← normalizedHost (parsed.hostname.getD [])
  raiseIf (host ∉ transport.allowedHosts) "host is not allowlisted"
  let port ← parsed.port
  let addresses ← transport.resolve host (if port.getD 0 = 0 then 443 else port.getD 0)
  raiseIf addresses.isEmpty "host did not resolve"
  checkAddresses addresses
  pure ⟨normalized, addresses⟩

/-! ### Requests -/

end SafeHTTPTransport

/-- What a server answers, as far as `urllib` and the transport ask. -/
structure Reply where
  status : ℕ
  finalUrl : Str
  /-- The URL that `urllib` makes of the location a redirect names, if it names one. -/
  location : Option Str
  headers : Dict Str Str
  body : Bytes

/-- The URL that `http_error_302` passes to `redirect_request`. -/
def Reply.redirect? (reply : Reply) : Option Str :=
  if reply.status ∈ [301, 302, 303, 307, 308] then reply.location else none

/-- The answers to the requests of a call: to the first one, to its redirect, and so on. -/
abbrev Network := ℕ → SentRequest → Except PyError Reply

/-- The loop detection of `http_error_302`, over the URLs it has been redirected to. -/
def loops (visited : List Str) (url : Str) : Bool :=
  4 ≤ visited.count url || 10 ≤ visited.dedup.length

/-- `response.read(max_bytes + 1)`, of which more than `max_bytes` octets are refused. -/
def readResponse (reply : Reply) (maxBytes : ℤ) : Except PyError FetchResponse := do
  let body := if maxBytes + 1 < 0 then reply.body else reply.body.take (maxBytes + 1).toNat
  raiseIf (maxBytes < body.length) "response exceeds max_bytes"
  pure { status := reply.status, finalUrl := reply.finalUrl, headers := reply.headers, body }

namespace SafeHTTPTransport

variable (transport : SafeHTTPTransport) (network : Network)

/-- `opener.open(request)`: the request is sent, and a redirect is followed as `_CheckedRedirects`
allows; `count` is how many it has counted. What `urllib` raises as an `HTTPError` is returned like
a response, under its status. -/
def openFrom (enabled : Bool) (count : ℕ) (visited : List Str) (request : SentRequest) :
    Stateful PyError NetworkState Reply := do
  Stateful.modify fun s => { s with requests := s.requests ++ [request] }
  let reply ← network count request
  match reply.redirect? with
  | none => pure reply
  | some newUrl =>
    if !enabled then pure reply
    else if _hlimit : transport.maxRedirects < count + 1 then
      raiseValueError "redirect limit exceeded"
    else do
      let target ← transport.validateTarget newUrl
      if loops visited newUrl then pure reply
      else
        -- spaces are quoted for the new request
        openFrom enabled (count + 1) (visited ++ [newUrl])
          { request with url := replaceChar target.url 0x20 (lit "%20"), target }
termination_by transport.maxRedirects - count

/-- `_request`. -/
def request (url : Str) (accept : Str) (followRedirects : Bool) (maxBytes : ℤ)
    (conditionalHeaders : List (Str × Value)) (acceptHttpErrors : Bool) :
    Stateful PyError NetworkState FetchResponse := do
  let target ← transport.validateTarget url
  let headers :=
    [(lit "Accept", .str accept), (lit "User-Agent", .str (lit "OnceMesh-Evaluation/0"))]
  let reply ← transport.openFrom network followRedirects 0 []
    { url := target.url, headers := headers ++ conditionalHeaders, target }
  if 200 ≤ reply.status ∧ reply.status < 300 then readResponse reply maxBytes
  else if reply.status = 304 then
    pure { status := 304, finalUrl := reply.finalUrl, headers := reply.headers, body := [] }
  else if acceptHttpErrors then readResponse reply maxBytes
  else
    .ofExcept (.error (.valueError
      (lit "HTTP request failed with status " ++ intRepr reply.status) []))

end SafeHTTPTransport

/-- A call of the transport. -/
inductive TransportCall where
  /-- `transport(url, accept, follow_redirects, max_bytes)`. -/
  | get (url accept : Str) (followRedirects : Bool) (maxBytes : ℤ)
  | probe (url accept : Str) (maxBytes : ℤ)
  | conditionalGet (url accept : Str) (followRedirects : Bool) (maxBytes : ℤ)
    (etag lastModified : Option Str)

/-- Whether the call follows redirects. -/
def TransportCall.followRedirects : TransportCall → Bool
  | get _ _ followRedirects _ => followRedirects
  | probe _ _ _ => false
  | conditionalGet _ _ followRedirects _ _ _ => followRedirects

namespace SafeHTTPTransport

variable (transport : SafeHTTPTransport) (network : Network)

/-- A call, over the answers of the network to it. -/
def perform : TransportCall → Stateful PyError NetworkState FetchResponse
  | .get url accept followRedirects maxBytes =>
    transport.request network url accept followRedirects maxBytes [] false
  | .probe url accept maxBytes => transport.request network url accept false maxBytes [] true
  | .conditionalGet url accept followRedirects maxBytes etag lastModified => do
    raiseIf (etag.isNone && lastModified.isNone)
      "conditional GET requires an ETag or Last-Modified value"
    let headers ← conditionalHeaders
      [("If-None-Match", (etag.map Value.str).getD .none),
        ("If-Modified-Since", (lastModified.map Value.str).getD .none)]
    transport.request network url accept followRedirects maxBytes headers false

end SafeHTTPTransport

/-! ### What may be sent -/

omit [UnicodeTables] in
/-- The network location that is written has no `@` if the host has none. -/
theorem atSign_notMem_networkLocation {host : Str} (h : atSign ∉ host) (port : Option ℕ) :
    atSign ∉ networkLocation host port := by
  have hbracketed : atSign ∉ if 0x3A ∈ host then lit "[" ++ host ++ lit "]" else host := by
    have hbrackets : atSign ∉ lit "[" ∧ atSign ∉ lit "]" := by decide
    split_ifs
    · simp [h, hbrackets]
    · exact h
  have hport : ∀ n : ℕ, atSign ∉ lit ":" ++ intRepr n := by
    intro n
    have hcolon : atSign ∉ lit ":" ∧ atSign ∉ lit "0" := by decide
    have hdigit : ∀ d : ℕ, digit d ≠ atSign := fun d => ne_of_isDigit (isDigit_digit d) (by decide)
    rw [List.mem_append, not_or]
    refine ⟨hcolon.1, ?_⟩
    unfold intRepr
    rw [if_neg (by omega), List.nil_append]
    split_ifs
    · exact hcolon.2
    · intro hmem
      obtain ⟨d, -, hd⟩ := List.mem_map.mp hmem
      exact hdigit d hd
  unfold networkLocation
  dsimp only
  generalize (if 0x3A ∈ host then lit "[" ++ host ++ lit "]" else host) = written at hbracketed ⊢
  cases port with
  | none => exact hbracketed
  | some n =>
    dsimp only
    split_ifs
    · exact hbracketed
    · rw [List.append_assoc, List.mem_append, not_or]
      exact ⟨hbracketed, hport n⟩

omit [UnicodeTables] in
/-- What `urlunsplit` writes behind the location starts with a slash. -/
theorem exists_unsplit_eq {parsed : SplitResult} (hscheme : parsed.scheme = lit "https")
    (hpath : parsed.path ≠ []) :
    ∃ rest, rest.head? = some 0x2F ∧
      parsed.unsplit = lit "https://" ++ (parsed.netloc ++ rest) := by
  have hslash : ∃ tail, (if parsed.path = [] ∨ parsed.path.head? = some 0x2F then parsed.path
      else lit "/" ++ parsed.path) = 0x2F :: tail := by
    split_ifs with hhead
    · exact ⟨parsed.path.tail, List.eq_cons_of_mem_head? (hhead.resolve_left hpath)⟩
    · exact ⟨parsed.path, rfl⟩
  obtain ⟨tail, htail⟩ := hslash
  have hlit : lit "https://" = lit "https" ++ lit "://" := by decide
  refine ⟨0x2F :: tail ++ ((if parsed.query = [] then [] else lit "?" ++ parsed.query) ++
    (if parsed.fragment = [] then [] else lit "#" ++ parsed.fragment)), rfl, ?_⟩
  rw [SplitResult.unsplit, htail, hscheme, hlit]
  simp only [List.append_assoc]

/-- A normalized URL is an HTTPS URL without user information. -/
theorem https_of_normalizeHttpsUrl {url normalized : Str} {parsed : SplitResult}
    (h : normalizeHttpsUrl url = .ok normalized) (hparsed : urlsplit normalized = .ok parsed) :
    parsed.scheme = lit "https" ∧ parsed.username = none ∧ parsed.password = none := by
  obtain ⟨given, hgiven, h⟩ := Except.bind_eq_ok.mp h
  obtain ⟨-, h⟩ := Except.check_eq_ok.mp h
  split at h
  · cases h
  next hostname hhostname =>
    obtain ⟨-, h⟩ := Except.check_eq_ok.mp h
    obtain ⟨port, -, h⟩ := Except.bind_eq_ok.mp h
    obtain ⟨host, hhost, h⟩ := Except.bind_eq_ok.mp h
    have hclean : atSign ∉ networkLocation (lower host) port := by
      apply atSign_notMem_networkLocation
      intro hmem
      exact atSign_notMem_host hgiven hhostname hhost (mem_of_mem_lower (by decide) hmem)
    obtain ⟨rest, hrest, hurl⟩ : ∃ rest, rest.head? = some 0x2F ∧
        normalized = lit "https://" ++ (networkLocation (lower host) port ++ rest) := by
      cases h
      apply exists_unsplit_eq
      · rfl
      · dsimp only
        split_ifs with hpath
        · decide
        · exact hpath
    rw [hurl] at hparsed
    exact ⟨(urlsplit_https hparsed).1, userinfo_eq_none_of_urlsplit hclean hrest hparsed⟩

/-- The target is an HTTPS URL without user information, on an allowed host. The addresses are those
that the resolver has answered for it. -/
structure FetchTarget.OnAllowedHost (transport : SafeHTTPTransport) (target : FetchTarget) :
    Prop where
  host : ∃ parsed host, urlsplit target.url = .ok parsed ∧ parsed.scheme = lit "https" ∧
    parsed.username = none ∧ parsed.password = none ∧
    normalizedHost (parsed.hostname.getD []) = .ok host ∧ host ∈ transport.allowedHosts ∧
    ∃ n port, transport.resolver n host port = .ok target.addresses
  resolved : target.addresses ≠ []

/-- An address of none of the classes that the evaluation profile rejects and the registries
list. -/
structure IsNotLocal (address : IpAddress) : Prop where
  notLoopback : address.isLoopback = false
  notPrivate : address.isPrivate = false
  notLinkLocal : address.isLinkLocal = false
  notUnspecified : address.isUnspecified = false

/-- An address of none of the classes that the evaluation profile rejects. -/
structure IsPublicAddress (address : IpAddress) : Prop extends IsNotLocal address where
  notMulticast : address.isMulticast = false
  notReserved : address.isReserved = false

/-- A request that the transport has the authority for. For a redirect, spaces are quoted. -/
structure SentRequest.Authorized (transport : SafeHTTPTransport) (request : SentRequest) :
    Prop where
  url : request.url = request.target.url ∨
    request.url = replaceChar request.target.url 0x20 (lit "%20")
  target : request.target.OnAllowedHost transport
  addresses : ∀ raw ∈ request.target.addresses,
    ∃ address, IpAddress.ofText? raw = some address ∧ IsPublicAddress address

/-- No address of the target is a multicast or a reserved one. -/
def FetchTarget.Listed (target : FetchTarget) : Prop :=
  ∀ raw ∈ target.addresses, ∀ address, IpAddress.ofText? raw = some address →
    address.isMulticast = false ∧ address.isReserved = false

omit [UnicodeTables] in
/-- A global address is not a local one. -/
theorem isNotLocal_of_isGlobal {address : IpAddress} (h : address.isGlobal = true) :
    IsNotLocal address := by
  obtain ⟨hloopback, hprivate, hlinkLocal, hunspecified⟩ := IpAddress.not_local_of_isGlobal h
  exact ⟨hloopback, hprivate, hlinkLocal, hunspecified⟩

omit [UnicodeTables] in
/-- A global address is public unless the registries do not list its class. -/
theorem isPublicAddress_iff {address : IpAddress} (h : address.isGlobal = true) :
    IsPublicAddress address ↔ address.isMulticast = false ∧ address.isReserved = false := by
  constructor
  · intro hpublic
    exact ⟨hpublic.notMulticast, hpublic.notReserved⟩
  · intro hlisted
    exact ⟨isNotLocal_of_isGlobal h, hlisted.1, hlisted.2⟩

omit [UnicodeTables] in
/-- The addresses that pass are global. -/
theorem checkAddresses_eq_ok {addresses : List Str} :
    SafeHTTPTransport.checkAddresses addresses = .ok () ↔
      ∀ raw ∈ addresses, ∃ address, IpAddress.ofText? raw = some address ∧
        address.isGlobal = true := by
  induction addresses with
  | nil => simp [SafeHTTPTransport.checkAddresses]
  | cons raw rest ih =>
    rw [List.forall_mem_cons, ← ih, SafeHTTPTransport.checkAddresses]
    cases IpAddress.ofText? raw with
    | none => simp [raiseValueError]
    | some address =>
      dsimp only
      rw [Except.check_eq_ok]
      simp

namespace SafeHTTPTransport

variable {transport : SafeHTTPTransport} {network : Network}

omit [UnicodeTables] in
/-- Resolving a host sends no request. -/
theorem requests_of_resolve {host : Str} {port : ℕ} {s t : NetworkState}
    {answer : Except PyError (List Str)} (h : transport.resolve host port s = (answer, t)) :
    t.requests = s.requests := by
  have hstate := congrArg Prod.snd h
  dsimp only at hstate
  rw [← hstate]
  rfl

/-- The outcome of a validation: nothing is sent, and a target that is returned is on an allowed
host and has global addresses. -/
def Validates (transport : SafeHTTPTransport) (s : NetworkState)
    (outcome : Except PyError FetchTarget × NetworkState) : Prop :=
  outcome.2.requests = s.requests ∧ ∀ target, outcome.1 = .ok target →
    target.OnAllowedHost transport ∧ checkAddresses target.addresses = .ok ()

/-- A part without effects raises, or hands its value to the rest. -/
theorem Validates.liftM_bind {α : Type} {x : Except PyError α}
    {f : α → Stateful PyError NetworkState FetchTarget} {s t : NetworkState}
    (ht : t.requests = s.requests) (hf : ∀ a, x = .ok a → Validates transport s (f a t)) :
    Validates transport s (((liftM x : Stateful PyError NetworkState α) >>= f) t) := by
  apply Stateful.liftM_bind_induction (Validates transport s)
  · intro e _
    exact ⟨ht, fun target h => by cases h⟩
  · exact hf

/-- Every check of a validation either raises, or leaves its fact behind. -/
theorem validates_validateTarget (transport : SafeHTTPTransport) (url : Str) (s : NetworkState) :
    Validates transport s (transport.validateTarget url s) := by
  refine .liftM_bind rfl fun normalized hnormalized => .liftM_bind rfl fun parsed hparsed =>
    .liftM_bind rfl fun host hhost => .liftM_bind rfl fun _ hallowed =>
    .liftM_bind rfl fun port _ => ?_
  refine Stateful.bind_induction (Validates transport s) (fun e t h => ?_)
    fun addresses t haddresses => ?_
  · exact ⟨requests_of_resolve h, fun target h => by cases h⟩
  have ht := requests_of_resolve haddresses
  -- the resolver has been asked, and its answer is checked
  refine .liftM_bind ht fun _ hresolved => .liftM_bind ht fun _ hchecked => ⟨ht, ?_⟩
  intro target htarget
  cases htarget
  obtain ⟨hscheme, husername, hpassword⟩ := https_of_normalizeHttpsUrl hnormalized hparsed
  have hmem : host ∈ transport.allowedHosts := by simpa using hallowed
  have hne : addresses ≠ [] := by simpa using hresolved
  exact ⟨⟨⟨parsed, host, hparsed, hscheme, husername, hpassword, hhost, hmem, _, _,
    congrArg Prod.fst haddresses⟩, hne⟩, hchecked⟩

/-- A request of a validated target. -/
structure Sent (transport : SafeHTTPTransport) (request : SentRequest) : Prop where
  url : request.url = request.target.url ∨
    request.url = replaceChar request.target.url 0x20 (lit "%20")
  target : request.target.OnAllowedHost transport
  addresses : checkAddresses request.target.addresses = .ok ()

/-- The requests that have been sent since a state: some first ones, and at most `limit` more, each
of a validated target. -/
def SendsAtMost (transport : SafeHTTPTransport) (limit : ℕ) (first : List SentRequest)
    (s t : NetworkState) : Prop :=
  ∃ more, t.requests = s.requests ++ first ++ more ∧ (∀ request ∈ more, transport.Sent request) ∧
    more.length ≤ limit

/-- A request sends itself, and as many more as there are redirects left, or none. -/
theorem sendsAtMost_openFrom (enabled : Bool) (count : ℕ) (visited : List Str)
    (request : SentRequest) (s : NetworkState) :
    transport.SendsAtMost (if enabled then transport.maxRedirects - count else 0) [request] s
      (transport.openFrom network enabled count visited request s).2 := by
  induction hleft : transport.maxRedirects - count using Nat.strong_induction_on
    generalizing count visited request s with
  | _ left ih =>
    obtain ⟨u, hu⟩ : ∃ u : NetworkState, u = { s with requests := s.requests ++ [request] } :=
      ⟨_, rfl⟩
    have hsent : ∀ t : NetworkState, t.requests = u.requests →
        transport.SendsAtMost (if enabled then left else 0) [request] s t := by
      intro t ht
      refine ⟨[], ?_, by simp, by simp⟩
      rw [ht, hu, List.append_nil]
    let p : Except PyError Reply × NetworkState → Prop := fun outcome =>
      transport.SendsAtMost (if enabled then left else 0) [request] s outcome.2
    show p (transport.openFrom network enabled count visited request s)
    rw [openFrom]
    refine Stateful.bind_induction p (fun e t h => by cases h) fun _ t h => ?_
    obtain rfl : u = t := by
      rw [hu]
      exact congrArg Prod.snd h
    refine Stateful.liftM_bind_induction p (fun e _ => hsent u rfl) fun reply _ => ?_
    cases hredirect : reply.redirect? with
    | none => exact hsent u rfl
    | some newUrl =>
      dsimp only
      cases enabled with
      | false => exact hsent u rfl
      | true =>
        rw [if_neg (by decide)]
        have hvalidates := validates_validateTarget transport newUrl u
        split_ifs with hlimit hloops
        · exact hsent u rfl
        · refine Stateful.bind_induction p (fun e t h => ?_) fun _ t h => ?_
          all_goals
            rw [h] at hvalidates
            exact hsent t hvalidates.1
        · -- the redirect is followed, with one redirect less to go
          refine Stateful.bind_induction p (fun e t h => ?_) fun target t h => ?_
          · rw [h] at hvalidates
            exact hsent t hvalidates.1
          · rw [h] at hvalidates
            obtain ⟨htarget, haddresses⟩ := hvalidates.2 target rfl
            obtain ⟨more, hmore, hall, hlength⟩ := ih (left - 1) (by omega) (count + 1)
              (visited ++ [newUrl])
              { request with url := replaceChar target.url 0x20 (lit "%20"), target } t (by omega)
            refine ⟨{ request with url := replaceChar target.url 0x20 (lit "%20"), target } :: more,
              ?_, ?_, ?_⟩
            · rw [hmore, hvalidates.1, hu]
              simp
            · exact List.forall_mem_cons.mpr ⟨⟨.inr rfl, htarget, haddresses⟩, hall⟩
            · rw [if_pos rfl] at hlength ⊢
              rw [List.length_cons]
              omega

/-- A call sends requests of validated targets only: none, or one and then its redirects. -/
theorem sendsAtMost_request (url accept : Str) (followRedirects : Bool) (maxBytes : ℤ)
    (headers : List (Str × Value)) (acceptHttpErrors : Bool) (s : NetworkState) :
    transport.SendsAtMost (if followRedirects then transport.maxRedirects + 1 else 1) [] s
      (transport.request network url accept followRedirects maxBytes headers
        acceptHttpErrors s).2 := by
  let p : Except PyError FetchResponse × NetworkState → Prop := fun outcome =>
    transport.SendsAtMost (if followRedirects then transport.maxRedirects + 1 else 1) [] s outcome.2
  show p (transport.request network url accept followRedirects maxBytes headers acceptHttpErrors s)
  have hvalidates := validates_validateTarget transport url s
  unfold request
  refine Stateful.bind_induction p (fun e u h => ?_) fun target u h => ?_
  · rw [h] at hvalidates
    refine ⟨[], ?_, by simp, by simp⟩
    rw [hvalidates.1, List.append_nil, List.append_nil]
  · rw [h] at hvalidates
    obtain ⟨htarget, haddresses⟩ := hvalidates.2 target rfl
    dsimp only
    generalize hfirst : SentRequest.mk target.url _ target = first
    -- from here on nothing is sent but what `openFrom` sends
    have hopen : ∀ t, t = (transport.openFrom network followRedirects 0 [] first u).2 →
        transport.SendsAtMost (if followRedirects then transport.maxRedirects + 1 else 1)
          [] s t := by
      rintro t rfl
      obtain ⟨more, hmore, hall, hlength⟩ :=
        @sendsAtMost_openFrom _ transport network followRedirects 0 [] first u
      refine ⟨first :: more, ?_, ?_, ?_⟩
      · rw [hmore, hvalidates.1]
        simp
      · refine List.forall_mem_cons.mpr ⟨?_, hall⟩
        rw [← hfirst]
        exact ⟨.inl rfl, htarget, haddresses⟩
      · rw [List.length_cons]
        split_ifs at hlength ⊢
        all_goals omega
    refine Stateful.bind_induction p (fun e t h => ?_) fun reply t h => ?_
    · exact hopen t (congrArg Prod.snd h).symm
    · have ht : t = (transport.openFrom network followRedirects 0 [] first u).2 :=
        (congrArg Prod.snd h).symm
      split_ifs
      all_goals exact hopen t ht

/-- Every call of the transport sends requests of validated targets only. -/
theorem sendsAtMost_perform (call : TransportCall) (s : NetworkState) :
    transport.SendsAtMost (if call.followRedirects then transport.maxRedirects + 1 else 1) [] s
      (transport.perform network call s).2 := by
  cases call with
  | get url accept followRedirects maxBytes => exact sendsAtMost_request _ _ _ _ _ _ _
  | probe url accept maxBytes => exact sendsAtMost_request _ _ false _ _ _ _
  | conditionalGet url accept followRedirects maxBytes etag lastModified =>
    let p : Except PyError FetchResponse × NetworkState → Prop := fun outcome =>
      transport.SendsAtMost (if followRedirects then transport.maxRedirects + 1 else 1)
        [] s outcome.2
    have hnone : ∀ e, p (.error e, s) := fun e => ⟨[], by simp, by simp, by simp⟩
    refine Stateful.liftM_bind_induction p (fun e _ => hnone e) fun _ _ => ?_
    refine Stateful.liftM_bind_induction p (fun e _ => hnone e) fun headers _ => ?_
    exact sendsAtMost_request _ _ _ _ _ _ _

/-- The constructor accepts hosts that have an ASCII form, at least one of them, a positive timeout
and a number of redirects. -/
theorem make_eq_ok {allowedHosts : List Str} {timeoutSeconds : PyFloat} {maxRedirects : ℤ}
    {resolver : Resolver} :
    make allowedHosts timeoutSeconds maxRedirects resolver = .ok transport ↔
      ∃ normalizedHosts, allowedHosts.mapM normalizedHost = .ok normalizedHosts ∧
        normalizedHosts ≠ [] ∧ isNonPositive timeoutSeconds = false ∧ 0 ≤ maxRedirects ∧
        transport = ⟨normalizedHosts, timeoutSeconds, maxRedirects.toNat, resolver⟩ := by
  simp only [make, Except.bind_eq_ok, raiseIf_eq_ok, pure, Except.pure, Except.ok.injEq,
    List.isEmpty_eq_false_iff, Bool.or_eq_false_iff, decide_eq_false_iff_not, not_lt]
  constructor
  · rintro ⟨hosts, hhosts, -, hne, -, ⟨htimeout, hredirects⟩, rfl⟩
    exact ⟨hosts, hhosts, hne, htimeout, hredirects, rfl⟩
  · rintro ⟨hosts, hhosts, hne, htimeout, hredirects, rfl⟩
    exact ⟨hosts, hhosts, (), hne, (), ⟨htimeout, hredirects⟩, rfl⟩

/-- The hosts that a transport allows are those that it was made for. -/
theorem exists_host_of_make {allowedHosts : List Str} {timeoutSeconds : PyFloat} {maxRedirects : ℤ}
    {resolver : Resolver}
    (h : make allowedHosts timeoutSeconds maxRedirects resolver = .ok transport) {host : Str}
    (hhost : host ∈ transport.allowedHosts) :
    ∃ given ∈ allowedHosts, normalizedHost given = .ok host := by
  obtain ⟨hosts, hhosts, -, -, -, rfl⟩ := make_eq_ok.mp h
  exact exists_of_forall₂_right (Except.mapM_eq_ok.mp hhosts) hhost

/-- A request that a transport has sent goes to a host that the transport was made for. -/
theorem Sent.exists_host {allowedHosts : List Str} {timeoutSeconds : PyFloat} {maxRedirects : ℤ}
    {resolver : Resolver} {request : SentRequest} (hsent : transport.Sent request)
    (h : make allowedHosts timeoutSeconds maxRedirects resolver = .ok transport) :
    ∃ parsed, urlsplit request.target.url = .ok parsed ∧ ∃ given ∈ allowedHosts,
      normalizedHost given = normalizedHost (parsed.hostname.getD []) := by
  obtain ⟨parsed, host, hparsed, -, -, -, hhost, hallowed, -⟩ := hsent.target.host
  obtain ⟨given, hgiven, hnormalized⟩ := exists_host_of_make h hallowed
  exact ⟨parsed, hparsed, given, hgiven, hnormalized.trans hhost.symm⟩

/-- A request of a validated target is authorized exactly if its addresses are of listed classes. -/
theorem Sent.authorized_iff {request : SentRequest} (h : transport.Sent request) :
    request.Authorized transport ↔ request.target.Listed := by
  have hglobal := checkAddresses_eq_ok.mp h.addresses
  constructor
  · intro hauthorized raw hraw address haddress
    obtain ⟨address', haddress', hpublic⟩ := hauthorized.addresses raw hraw
    rw [haddress] at haddress'
    cases haddress'
    exact ⟨hpublic.notMulticast, hpublic.notReserved⟩
  · intro hlisted
    refine ⟨h.url, h.target, fun raw hraw => ?_⟩
    obtain ⟨address, haddress, haddressGlobal⟩ := hglobal raw hraw
    exact ⟨address, haddress,
      (isPublicAddress_iff haddressGlobal).mpr (hlisted raw hraw address haddress)⟩

/-! ### The authority of a run -/

/-- In every call, whatever the resolver and the servers answer: the requests that are sent are
authorized exactly if no address that the resolver has answered for them is a multicast or a
reserved one. In any case they go to allowed hosts, to no address of another class that the profile
rejects; at most `max_redirects` redirects are followed, and none if redirects are not to be
followed. -/
theorem network_authority_iff (transport : SafeHTTPTransport) (network : Network)
    (call : TransportCall) (resolutions : ℕ) :
    let sent := (transport.perform network call ⟨resolutions, []⟩).2.requests
    ((∀ request ∈ sent, request.Authorized transport) ↔ ∀ request ∈ sent, request.target.Listed) ∧
      (∀ request ∈ sent, request.target.OnAllowedHost transport ∧
        ∀ raw ∈ request.target.addresses,
          ∃ address, IpAddress.ofText? raw = some address ∧ IsNotLocal address) ∧
      sent.length ≤ transport.maxRedirects + 1 ∧
      (call.followRedirects = false → sent.length ≤ 1) := by
  obtain ⟨sent, hsent, hall, hlength⟩ :=
    @sendsAtMost_perform _ transport network call ⟨resolutions, []⟩
  rw [List.append_nil, List.nil_append] at hsent
  rw [hsent]
  refine ⟨forall₂_congr fun request hrequest => (hall request hrequest).authorized_iff,
    fun request hrequest => ⟨(hall request hrequest).target, fun raw hraw => ?_⟩, ?_,
    fun hnone => ?_⟩
  · obtain ⟨address, haddress, hglobal⟩ :=
      checkAddresses_eq_ok.mp (hall request hrequest).addresses raw hraw
    exact ⟨address, haddress, isNotLocal_of_isGlobal hglobal⟩
  · split_ifs at hlength
    · exact hlength
    · omega
  · rwa [hnone, if_neg Bool.false_ne_true] at hlength

end SafeHTTPTransport

end

/-! ### Example -/

namespace SafeHTTPTransport

/-- A transport whose resolver answers with a multicast address. -/
def exampleTransport : SafeHTTPTransport :=
  { allowedHosts := [lit "example.com"]
    timeoutSeconds := .finite false 15 0
    maxRedirects := 3
    resolver := fun _ _ _ => .ok [lit "224.0.0.1"] }

/-- A server that answers every request with an empty page. -/
def exampleNetwork : Network := fun _ request =>
  .ok { status := 200, finalUrl := request.url, location := none, headers := .empty, body := [] }

/-- A request to the server is sent, and answered without a redirect. -/
theorem requests_openFrom_exampleNetwork [UnicodeTables] (transport : SafeHTTPTransport)
    (enabled : Bool) (request : SentRequest) (s : NetworkState) :
    ∃ reply, transport.openFrom exampleNetwork enabled 0 [] request s =
      (.ok reply, { s with requests := s.requests ++ [request] }) := by
  rw [openFrom]
  exact ⟨_, rfl⟩

/-- The request is sent, though the host has resolved to a multicast address. -/
theorem multicast_not_authorized :
    ∃ request ∈ (@perform .ascii exampleTransport exampleNetwork
        (.get (lit "https://example.com/") (lit "*/*") true 1000) ⟨0, []⟩).2.requests,
      request.url = lit "https://example.com/" ∧
        request.target.addresses = [lit "224.0.0.1"] ∧
        ¬@SentRequest.Authorized .ascii exampleTransport request := by
  let target : FetchTarget := ⟨lit "https://example.com/", [lit "224.0.0.1"]⟩
  have hvalid : (@validateTarget .ascii exampleTransport (lit "https://example.com/")
      ⟨0, []⟩).1 = .ok target := by
    decide +kernel
  obtain ⟨s, hs⟩ : ∃ s, @validateTarget .ascii exampleTransport (lit "https://example.com/")
      ⟨0, []⟩ = (.ok target, s) := ⟨_, Prod.ext hvalid rfl⟩
  let request : SentRequest := ⟨target.url, [(lit "Accept", .str (lit "*/*")),
    (lit "User-Agent", .str (lit "OnceMesh-Evaluation/0"))] ++ [], target⟩
  obtain ⟨reply, hopen⟩ :=
    @requests_openFrom_exampleNetwork .ascii exampleTransport true request s
  have hsent : (@perform .ascii exampleTransport exampleNetwork
      (.get (lit "https://example.com/") (lit "*/*") true 1000) ⟨0, []⟩).2.requests =
      s.requests ++ [request] := by
    change ((@validateTarget .ascii exampleTransport (lit "https://example.com/") >>= _)
      (⟨0, []⟩ : NetworkState)).2.requests = _
    rw [Stateful.bind_apply_of_ok hs, Stateful.bind_apply_of_ok hopen]
    split_ifs
    all_goals rfl
  refine ⟨request, by rw [hsent]; simp, rfl, rfl, ?_⟩
  intro hauthorized
  obtain ⟨address, haddress, hpublic⟩ :=
    @SentRequest.Authorized.addresses .ascii _ _ hauthorized (lit "224.0.0.1") (by
      simp [request, target])
  have hmulticast : (IpAddress.ofText? (lit "224.0.0.1")).map IpAddress.isMulticast =
      some true := by
    decide +kernel
  rw [haddress, Option.map_some, Option.some.injEq, hpublic.notMulticast] at hmulticast
  cases hmulticast

end SafeHTTPTransport

end OnceMesh
