import OnceMesh.Python.Json

/-!
# IP addresses

`ipaddress` of Python 3.11: the addresses, the networks the registries set apart, and the text of an
address. Two networks are nested or disjoint (`IpNetwork.contains_congr`), so that an inclusion
between tables of networks is read off the tables. `not_local_of_isGlobal` says which classes an
address with `is_global` is none of.
-/

namespace Python

/-! ### Networks -/

/-- `IPv4Network` or `IPv6Network`: an address of `w` bits, and how many of its first bits count. -/
structure IpNetwork (w : ℕ) where
  address : BitVec w
  length : ℕ
  deriving DecidableEq

namespace IpNetwork

variable {w : ℕ}

/-- `address in network`. -/
def contains (network : IpNetwork w) (address : BitVec w) : Bool :=
  address.toNat / 2 ^ (w - network.length) = network.address.toNat / 2 ^ (w - network.length)

/-- A network holds all addresses of a smaller one, or none of them. -/
theorem contains_congr {outer inner : IpNetwork w} (hlength : outer.length ≤ inner.length)
    {address : BitVec w} (h : inner.contains address = true) :
    outer.contains address = outer.contains inner.address := by
  have hsplit : 2 ^ (w - outer.length) =
      2 ^ (w - inner.length) * 2 ^ ((w - outer.length) - (w - inner.length)) := by
    rw [← pow_add]
    congr 1
    omega
  rw [contains, decide_eq_true_eq] at h
  simp only [contains, hsplit, ← Nat.div_div_eq_div_mul, h]

/-- Whether two networks share no address: the smaller one is not part of the other. -/
def disjoint (m n : IpNetwork w) : Bool :=
  if m.length ≤ n.length then !m.contains n.address else !n.contains m.address

theorem not_contains_of_disjoint {m n : IpNetwork w} (hdisjoint : m.disjoint n = true)
    {address : BitVec w} (h : m.contains address = true) : n.contains address = false := by
  rw [Bool.eq_false_iff]
  intro hn
  unfold disjoint at hdisjoint
  split_ifs at hdisjoint with hlength
  · rw [contains_congr hlength hn] at h
    rw [h] at hdisjoint
    cases hdisjoint
  · rw [contains_congr (Nat.le_of_not_le hlength) h] at hn
    rw [hn] at hdisjoint
    cases hdisjoint

/-- An address is listed if its network is, apart from the exceptions. -/
theorem listed_of_contains {network : IpNetwork w} {networks exceptions : List (IpNetwork w)}
    (hmem : network ∈ networks) (hexceptions : ∀ e ∈ exceptions, network.disjoint e = true)
    {address : BitVec w} (h : network.contains address = true) :
    (networks.any (·.contains address) && exceptions.all (!·.contains address)) = true := by
  rw [Bool.and_eq_true, List.any_eq_true, List.all_eq_true]
  refine ⟨⟨network, hmem, h⟩, fun e he => ?_⟩
  rw [not_contains_of_disjoint (hexceptions e he) h]
  rfl

end IpNetwork

/-! ### IPv4 -/

/-- An IPv4 network in dotted decimal. -/
def network4 (a b c d length : ℕ) : IpNetwork 32 :=
  ⟨BitVec.ofNat 32 (((a * 256 + b) * 256 + c) * 256 + d), length⟩

namespace Ipv4

/-- `_linklocal_network`. -/
def linklocalNetwork : IpNetwork 32 := network4 169 254 0 0 16

/-- `_loopback_network`. -/
def loopbackNetwork : IpNetwork 32 := network4 127 0 0 0 8

/-- `_multicast_network`. -/
def multicastNetwork : IpNetwork 32 := network4 224 0 0 0 4

/-- `_public_network`. -/
def publicNetwork : IpNetwork 32 := network4 100 64 0 0 10

/-- `_reserved_network`. -/
def reservedNetwork : IpNetwork 32 := network4 240 0 0 0 4

/-- `_private_networks`. -/
def privateNetworks : List (IpNetwork 32) :=
  [network4 0 0 0 0 8, network4 10 0 0 0 8, network4 127 0 0 0 8, network4 169 254 0 0 16,
    network4 172 16 0 0 12, network4 192 0 0 0 24, network4 192 0 0 170 31,
    network4 192 0 2 0 24, network4 192 168 0 0 16, network4 198 18 0 0 15,
    network4 198 51 100 0 24, network4 203 0 113 0 24, network4 240 0 0 0 4,
    network4 255 255 255 255 32]

/-- `_private_networks_exceptions`. -/
def privateNetworksExceptions : List (IpNetwork 32) :=
  [network4 192 0 0 9 32, network4 192 0 0 10 32]

/-- `is_private`. -/
def isPrivate (value : BitVec 32) : Bool :=
  privateNetworks.any (·.contains value) && privateNetworksExceptions.all (!·.contains value)

/-- `is_global`. -/
def isGlobal (value : BitVec 32) : Bool := !publicNetwork.contains value && !isPrivate value

/-- The loopback, link-local and reserved networks are private. -/
theorem isPrivate_of_contains {network : IpNetwork 32} {value : BitVec 32}
    (hnetwork : network ∈ [loopbackNetwork, linklocalNetwork, reservedNetwork])
    (h : network.contains value = true) : isPrivate value = true := by
  have htable : ∀ n ∈ [loopbackNetwork, linklocalNetwork, reservedNetwork],
      n ∈ privateNetworks ∧ ∀ e ∈ privateNetworksExceptions, n.disjoint e = true := by
    decide
  obtain ⟨hmem, hexceptions⟩ := htable network hnetwork
  exact IpNetwork.listed_of_contains hmem hexceptions h

end Ipv4

/-! ### IPv6 -/

/-- An IPv6 network, from its leading groups of sixteen bits. -/
def network6 (hextets : List ℕ) (length : ℕ) : IpNetwork 128 :=
  ⟨BitVec.ofNat 128 ((hextets ++ List.replicate (8 - hextets.length) 0).foldl
    (fun n hextet => n * 65536 + hextet) 0), length⟩

namespace Ipv6

/-- `_linklocal_network`. -/
def linklocalNetwork : IpNetwork 128 := network6 [0xFE80] 10

/-- `_multicast_network`. -/
def multicastNetwork : IpNetwork 128 := network6 [0xFF00] 8

/-- The addresses that stand for IPv4 addresses. -/
def mappedNetwork : IpNetwork 128 := network6 [0, 0, 0, 0, 0, 0xFFFF] 96

/-- `_private_networks`. -/
def privateNetworks : List (IpNetwork 128) :=
  [network6 [0, 0, 0, 0, 0, 0, 0, 1] 128, network6 [] 128, mappedNetwork,
    network6 [0x64, 0xFF9B, 1] 48, network6 [0x100] 64, network6 [0x2001] 23,
    network6 [0x2001, 0xDB8] 32, network6 [0x2002] 16, network6 [0xFC00] 7, network6 [0xFE80] 10]

/-- `_private_networks_exceptions`. -/
def privateNetworksExceptions : List (IpNetwork 128) :=
  [network6 [0x2001, 1, 0, 0, 0, 0, 0, 1] 128, network6 [0x2001, 1, 0, 0, 0, 0, 0, 2] 128,
    network6 [0x2001, 3] 32, network6 [0x2001, 4, 0x112] 48, network6 [0x2001, 0x20] 28,
    network6 [0x2001, 0x30] 28]

/-- `_reserved_networks`. -/
def reservedNetworks : List (IpNetwork 128) :=
  [network6 [] 8, network6 [0x100] 8, network6 [0x200] 7, network6 [0x400] 6, network6 [0x800] 5,
    network6 [0x1000] 4, network6 [0x4000] 3, network6 [0x6000] 3, network6 [0x8000] 3,
    network6 [0xA000] 3, network6 [0xC000] 3, network6 [0xE000] 4, network6 [0xF000] 5,
    network6 [0xF800] 6, network6 [0xFE00] 9]

/-- `ipv4_mapped`. -/
def ipv4Mapped (value : BitVec 128) : Option (BitVec 32) :=
  if value.toNat / 2 ^ 32 = 0xFFFF then some (BitVec.ofNat 32 value.toNat) else none

/-- `is_private`. -/
def isPrivate (value : BitVec 128) : Bool :=
  match ipv4Mapped value with
  | some mapped => Ipv4.isPrivate mapped
  | none =>
    privateNetworks.any (·.contains value) && privateNetworksExceptions.all (!·.contains value)

/-- Outside its network, an address stands for none of IPv4. -/
theorem ipv4Mapped_eq_none {value : BitVec 128} (h : mappedNetwork.contains value = false) :
    ipv4Mapped value = none := by
  rw [ipv4Mapped, if_neg]
  intro hshift
  have hcontains : mappedNetwork.contains value = true := by
    rw [IpNetwork.contains, decide_eq_true_eq]
    exact hshift
  rw [hcontains] at h
  cases h

/-- The link-local network is private. -/
theorem isPrivate_of_linklocal {value : BitVec 128} (h : linklocalNetwork.contains value = true) :
    isPrivate value = true := by
  have hmem : linklocalNetwork ∈ privateNetworks := by decide
  have hmapped : linklocalNetwork.disjoint mappedNetwork = true := by decide
  have hexceptions : ∀ e ∈ privateNetworksExceptions, linklocalNetwork.disjoint e = true := by
    decide
  -- no link-local address stands for an IPv4 address
  rw [isPrivate, ipv4Mapped_eq_none (IpNetwork.not_contains_of_disjoint hmapped h)]
  exact IpNetwork.listed_of_contains hmem hexceptions h

end Ipv6

/-! ### Addresses -/

/-- `IPv4Address` or `IPv6Address`. -/
inductive IpAddress where
  | v4 (value : BitVec 32)
  | v6 (value : BitVec 128) (scopeId : Option Str)
  deriving DecidableEq

namespace IpAddress

/-- `is_multicast`. -/
def isMulticast : IpAddress → Bool
  | v4 value => Ipv4.multicastNetwork.contains value
  | v6 value _ => Ipv6.multicastNetwork.contains value

/-- `is_reserved`. -/
def isReserved : IpAddress → Bool
  | v4 value => Ipv4.reservedNetwork.contains value
  | v6 value _ => Ipv6.reservedNetworks.any (·.contains value)

/-- `is_link_local`. -/
def isLinkLocal : IpAddress → Bool
  | v4 value => Ipv4.linklocalNetwork.contains value
  | v6 value _ => Ipv6.linklocalNetwork.contains value

/-- `is_private`. -/
def isPrivate : IpAddress → Bool
  | v4 value => Ipv4.isPrivate value
  | v6 value _ => Ipv6.isPrivate value

/-- `is_global`. -/
def isGlobal : IpAddress → Bool
  | v4 value => Ipv4.isGlobal value
  | v6 value _ => !Ipv6.isPrivate value

/-- `is_unspecified`. -/
def isUnspecified : IpAddress → Bool
  | v4 value => value = 0
  | v6 value _ => value = 0

/-- `is_loopback`. -/
def isLoopback : IpAddress → Bool
  | v4 value => Ipv4.loopbackNetwork.contains value
  | v6 value _ => value = 1

/-- An address with `is_global` is not private. -/
theorem isPrivate_of_isGlobal {address : IpAddress} (h : address.isGlobal = true) :
    address.isPrivate = false := by
  cases address with
  | v4 value =>
    rw [isGlobal, Ipv4.isGlobal, Bool.and_eq_true, Bool.not_eq_true'] at h
    exact (Bool.not_eq_true' _).mp h.2
  | v6 value scopeId => exact (Bool.not_eq_true' _).mp h

/-- Loopback, link-local and unspecified addresses are private. -/
theorem isPrivate_of_local {address : IpAddress}
    (h : address.isLoopback = true ∨ address.isLinkLocal = true ∨ address.isUnspecified = true) :
    address.isPrivate = true := by
  cases address with
  | v4 value =>
    rcases h with h | h | h
    · exact @Ipv4.isPrivate_of_contains Ipv4.loopbackNetwork _ (by decide) h
    · exact @Ipv4.isPrivate_of_contains Ipv4.linklocalNetwork _ (by decide) h
    · obtain rfl : value = 0 := of_decide_eq_true h
      decide
  | v6 value scopeId =>
    rcases h with h | h | h
    · obtain rfl : value = 1 := of_decide_eq_true h
      show Ipv6.isPrivate 1 = true
      decide
    · exact Ipv6.isPrivate_of_linklocal h
    · obtain rfl : value = 0 := of_decide_eq_true h
      show Ipv6.isPrivate 0 = true
      decide

/-- A reserved IPv4 address is private. -/
theorem isPrivate_of_isReserved {value : BitVec 32} (h : (v4 value).isReserved = true) :
    (v4 value).isPrivate = true :=
  @Ipv4.isPrivate_of_contains Ipv4.reservedNetwork _ (by decide) h

/-- An address with `is_global` is neither loopback nor private nor link-local nor unspecified. -/
theorem not_local_of_isGlobal {address : IpAddress} (h : address.isGlobal = true) :
    address.isLoopback = false ∧ address.isPrivate = false ∧ address.isLinkLocal = false ∧
      address.isUnspecified = false := by
  have hprivate := isPrivate_of_isGlobal h
  have hlocal : ¬(address.isLoopback = true ∨ address.isLinkLocal = true ∨
      address.isUnspecified = true) := by
    intro hclass
    rw [isPrivate_of_local hclass] at hprivate
    cases hprivate
  simpa [hprivate, not_or] using hlocal

/-- The registries list no multicast address: every one has `is_global`. -/
theorem isGlobal_of_isMulticast {address : IpAddress} (h : address.isMulticast = true) :
    address.isGlobal = true := by
  cases address with
  | v4 value =>
    have hdisjoint : Ipv4.multicastNetwork.disjoint Ipv4.publicNetwork = true ∧
        ∀ n ∈ Ipv4.privateNetworks, Ipv4.multicastNetwork.disjoint n = true := by decide
    have hunlisted : Ipv4.privateNetworks.any (·.contains value) = false := by
      rw [List.any_eq_false]
      intro n hn
      rw [IpNetwork.not_contains_of_disjoint (hdisjoint.2 n hn) h]
      exact Bool.false_ne_true
    rw [isGlobal, Ipv4.isGlobal, IpNetwork.not_contains_of_disjoint hdisjoint.1 h, Ipv4.isPrivate,
      hunlisted]
    rfl
  | v6 value scopeId =>
    have hmapped : Ipv6.multicastNetwork.disjoint Ipv6.mappedNetwork = true := by decide
    have hdisjoint : ∀ n ∈ Ipv6.privateNetworks, Ipv6.multicastNetwork.disjoint n = true := by
      decide
    have hunlisted : Ipv6.privateNetworks.any (·.contains value) = false := by
      rw [List.any_eq_false]
      intro n hn
      rw [IpNetwork.not_contains_of_disjoint (hdisjoint n hn) h]
      exact Bool.false_ne_true
    rw [isGlobal, Ipv6.isPrivate,
      Ipv6.ipv4Mapped_eq_none (IpNetwork.not_contains_of_disjoint hmapped h)]
    dsimp only
    rw [hunlisted]
    rfl

/-! ### Text -/

/-- `_parse_octet`. -/
def parseOctet (s : Str) : Option ℕ :=
  if s = [] ∨ !s.all isDigit ∨ 3 < s.length ∨ (s ≠ lit "0" ∧ s.head? = some 0x30) ∨
      255 < Json.natOfDigits s then none
  else some (Json.natOfDigits s)

/-- `IPv4Address(s)`. -/
def parseV4 (s : Str) : Option (BitVec 32) := do
  if 0x2F ∈ s then none
  match ← (s.splitOn 0x2E).mapM parseOctet with
  | [a, b, c, d] => some (BitVec.ofNat 32 (((a * 256 + b) * 256 + c) * 256 + d))
  | _ => none

/-- `_parse_hextet`. -/
def parseHextet (s : Str) : Option ℕ := do
  if s = [] ∨ 4 < s.length then none
  let digits ← s.mapM Json.hexVal?
  some (digits.foldl (fun n d => n * 16 + d) 0)

/-- `'%x' % n`. -/
def hexRepr (n : ℕ) : Str := if n = 0 then lit "0" else (Nat.digits 16 n).reverse.map hexDigit

/-- An IPv4 suffix is rewritten as two groups of hexadecimal digits. -/
def expandSuffix (parts : List Str) : Option (List Str) :=
  match parts.getLast? with
  | some last =>
    if 0x2E ∈ last then do
      let v4 ← parseV4 last
      some (parts.dropLast ++ [hexRepr (v4.toNat / 65536), hexRepr (v4.toNat % 65536)])
    else some parts
  | none => some parts

/-- The parts before and behind a `::`, of which an empty one belongs to the `::` if it is at the
end of the text. -/
def aroundSkip (parts : List Str) (skip : ℕ) : Option (List Str × List Str) := do
  let before := parts.take skip
  let after := parts.drop (skip + 1)
  let before ← if before.head? = some [] then if before.length = 1 then some [] else none
    else some before
  let after ← if after.getLast? = some [] then if after.length = 1 then some [] else none
    else some after
  if 8 < before.length + after.length + 1 then none else some (before, after)

/-- `_ip_int_from_string` of an IPv6 address. -/
def parseHextets (s : Str) : Option (List ℕ) := do
  let parts := s.splitOn 0x3A
  if parts.length < 3 then none
  let parts ← expandSuffix parts
  if 9 < parts.length then none
  -- where two colons stand next to each other
  match (List.range parts.length).filter fun i =>
      0 < i ∧ i + 1 < parts.length ∧ parts[i]? = some [] with
  | [] => if parts.length = 8 then parts.mapM parseHextet else none
  | [skip] =>
    let (before, after) ← aroundSkip parts skip
    let high ← before.mapM parseHextet
    let low ← after.mapM parseHextet
    some (high ++ List.replicate (8 - (before.length + after.length)) 0 ++ low)
  | _ => none

/-- `IPv6Address(s)`. -/
def parseV6 (s : Str) : Option IpAddress := do
  if 0x2F ∈ s then none
  let (address, percent, scopeId) := partition s 0x25
  if percent ∧ (scopeId = [] ∨ 0x25 ∈ scopeId) then none
  let hextets ← parseHextets address
  some (v6 (BitVec.ofNat 128 (hextets.foldl (fun n hextet => n * 65536 + hextet) 0))
    (if percent then some scopeId else none))

/-- `ipaddress.ip_address(s)`, unless it raises a `ValueError`. -/
def ofText? (s : Str) : Option IpAddress :=
  match parseV4 s with
  | some value => some (v4 value)
  | none => parseV6 s

example : (ofText? (lit "2001:db8::1")).map isGlobal = some false := by decide +kernel

end IpAddress

end Python
