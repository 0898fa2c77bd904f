import OnceMesh.Adapters.SafeHttp
import OnceMesh.MeshStatus.Snapshot

/-!
# The probe of the directory monitor

Unless it is given another probe, the monitor makes one GET for each active mesh, over a transport
that allows the host of the mesh and follows no redirect.
-/

namespace OnceMesh.MeshStatus

open Python SafeHTTPTransport

variable [UnicodeTables]

/-- `_default_probe`; `elapsedMs` is the time that the request takes. -/
def defaultProbe (resolver : Resolver) (network : Network) (elapsedMs : ℕ) (url : Str)
    (timeoutSeconds : PyFloat) : Stateful PyError NetworkState (ℤ × ℤ) := do
  let parsed ← urlsplit url
  match parsed.hostname with
  | none => raiseValueError "mesh status URL has no host"
  | some host => do
    let transport ← SafeHTTPTransport.make [host] timeoutSeconds 0 resolver
    let response ← transport.perform network (.probe url (lit "application/json") 4096)
    raiseIf (response.finalUrl ≠ url) "mesh status probe redirected"
    pure (response.status, (elapsedMs : ℤ))

/-- A monitor whose parameters are accepted makes a transport for every host that has an ASCII
form. -/
theorem make_of_check {monitor : Monitor} (h : monitor.check = .ok ()) {host normalized : Str}
    (hhost : normalizedHost host = .ok normalized) (resolver : Resolver) :
    SafeHTTPTransport.make [host] monitor.timeoutSeconds 0 resolver =
      .ok ⟨[normalized], monitor.timeoutSeconds, 0, resolver⟩ := by
  refine make_eq_ok.mpr ⟨[normalized], ?_, List.cons_ne_nil _ _, ?_, le_rfl, rfl⟩
  · exact Except.mapM_eq_ok.mpr (.cons hhost .nil)
  · obtain hnan | ⟨mantissa, exponent, htimeout, hlow, -⟩ := timeout_of_check h
    · rw [hnan]
      rfl
    · rw [htimeout]
      have hpos : mantissa ≠ 0 := by
        rintro rfl
        norm_num [PyFloat.ratio] at hlow
      simpa [isNonPositive] using hpos

/-- Whatever the resolver and the servers answer, a probe sends at most one request, to the host of
the URL, and only if the host has resolved to global addresses. -/
theorem requests_defaultProbe (resolver : Resolver) (network : Network) (elapsedMs : ℕ) (url : Str)
    (timeoutSeconds : PyFloat) (s : NetworkState) :
    ∃ sent, (defaultProbe resolver network elapsedMs url timeoutSeconds s).2.requests =
        s.requests ++ sent ∧ sent.length ≤ 1 ∧
      ∀ request ∈ sent, checkAddresses request.target.addresses = .ok () ∧
        ∃ probed parsed host, urlsplit url = .ok probed ∧ probed.hostname = some host ∧
          urlsplit request.target.url = .ok parsed ∧
          normalizedHost host = normalizedHost (parsed.hostname.getD []) := by
  let p : Except PyError (ℤ × ℤ) × NetworkState → Prop := fun outcome =>
    ∃ sent, outcome.2.requests = s.requests ++ sent ∧ sent.length ≤ 1 ∧
      ∀ request ∈ sent, checkAddresses request.target.addresses = .ok () ∧
        ∃ probed parsed host, urlsplit url = .ok probed ∧ probed.hostname = some host ∧
          urlsplit request.target.url = .ok parsed ∧
          normalizedHost host = normalizedHost (parsed.hostname.getD [])
  have hnone : ∀ result, p (result, s) := fun result => ⟨[], by simp, by simp, by simp⟩
  show p (defaultProbe resolver network elapsedMs url timeoutSeconds s)
  refine Stateful.liftM_bind_induction p (fun e _ => hnone _) fun probed hprobed => ?_
  cases hhost : probed.hostname with
  | none => exact hnone _
  | some host =>
    refine Stateful.liftM_bind_induction p (fun e _ => hnone _) fun transport htransport => ?_
    -- nothing is sent but what the one call of the transport sends
    have hcall : ∀ result, p (result, (transport.perform network
        (.probe url (lit "application/json") 4096) s).2) := by
      intro result
      obtain ⟨sent, hsent, hall, hlength⟩ := @sendsAtMost_perform _ transport network
        (.probe url (lit "application/json") 4096) s
      refine ⟨sent, by rw [hsent, List.append_nil], hlength, fun request hrequest => ?_⟩
      obtain ⟨parsed, hparsed, given, hgiven, hnormalized⟩ :=
        (hall request hrequest).exists_host htransport
      rw [List.mem_singleton] at hgiven
      exact ⟨(hall request hrequest).addresses, probed, parsed, host, hprobed, hhost, hparsed,
        hgiven ▸ hnormalized⟩
    refine Stateful.bind_induction p (fun e t h => ?_) fun response t h => ?_
    · rw [show t = _ from (congrArg Prod.snd h).symm]
      exact hcall _
    · rw [show t = _ from (congrArg Prod.snd h).symm]
      exact Stateful.liftM_bind_induction p (fun e _ => hcall _) fun _ _ => hcall _

end OnceMesh.MeshStatus
