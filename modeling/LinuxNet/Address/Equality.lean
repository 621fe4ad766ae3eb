import LinuxNet.Address.GetList
import LinuxNet.Connector.Model

/-!
# The equality of addresses

`operator==` of `InetAddress` compares the first `sizeof(sockaddr_in)` bytes of the storage. In
them lies a whole IPv4 address, but of an IPv6 address, which begins at the offset 8, only the
first half. `Socket::IsSelfConnect` and the test in `TCPConnector::HandleWrite` are comparisons of
this kind, of storages that `getsockname` and `getpeername` have written.

An `Endpoint` is what an address stands for. Two endpoints that are told apart by the second half
of an IPv6 address only are one address to `operator==`; all others are compared as they should be.
-/

namespace LinuxNet

set_option autoImplicit false

open LinuxNet.Lib LinuxNet.Lib.Window

/-- `sizeof(sockaddr_in)`. -/
def kSockaddrInSize : Nat := 16

/-- `memcmp(left, right, n)`: the first difference decides. -/
def memcmp : List UInt8 → List UInt8 → Nat → Int
  | x :: left, y :: right, n + 1 =>
    if x = y then memcmp left right n else (x.toNat : Int) - (y.toNat : Int)
  | _, _, _ => 0

def INADDR_ANY : Nat := 0
def INADDR_LOOPBACK : Nat := 0x7f000001
def in6addrAny : List UInt8 := List.replicate 16 0
def in6addrLoopback : List UInt8 := List.replicate 15 0 ++ [1]

namespace InetAddress

/-- `InetAddress(short port, bool is_ipv4, bool only_loopback)`. -/
def ofPort (port : BitVec 16) (isIpv4 onlyLoopback : Bool) : InetAddress :=
  if isIpv4 then
    let ip := if onlyLoopback then INADDR_LOOPBACK else INADDR_ANY
    ((zero.set 0 (hostBytes AF_INET)).set 2 (BigEndian.toBytes 2 port.toNat)).set 4
      (BigEndian.toBytes 4 ip)
  else
    let ip := if onlyLoopback then in6addrLoopback else in6addrAny
    ((zero.set 0 (hostBytes AF_INET6)).set 2 (BigEndian.toBytes 2 port.toNat)).set 8 ip

/-- `InetAddress(const sockaddr_storage& addr)`. -/
def ofStorage (addr : List UInt8) : InetAddress := ⟨addr⟩

/-- `operator==`. -/
def operatorEq (left right : InetAddress) : Bool :=
  0 == memcmp left.address right.address kSockaddrInSize

/-- `operator!=`. -/
def operatorNe (left right : InetAddress) : Bool := !(left.operatorEq right)

end InetAddress

/-- What `getsockname` and `getpeername` do for a descriptor: the two storages as they are on the
stack before the calls, and the address that each call writes to the start of its storage. -/
structure SocketNames where
  localAddress : List UInt8
  peerAddress : List UInt8
  getsockname : Option (List UInt8)
  getpeername : Option (List UInt8)
  deriving DecidableEq, Repr

namespace SocketNames

/-- `Socket::GetLocalAddress`; there is no value if the `assert` behind a failed call ends the
process. -/
def getLocalAddress (k : SocketNames) : Option InetAddress :=
  k.getsockname.map fun addr => .ofStorage (overwrite k.localAddress 0 addr)

/-- `Socket::GetPeerAddress`. -/
def getPeerAddress (k : SocketNames) : Option InetAddress :=
  k.getpeername.map fun addr => .ofStorage (overwrite k.peerAddress 0 addr)

/-- `Socket::IsSelfConnect`. -/
def isSelfConnect (k : SocketNames) : Option Bool := do
  let left ← k.getLocalAddress
  let right ← k.getPeerAddress
  if left.operatorNe right then pure false else pure true

/-- The condition of `HandleWrite` for a connection with itself. -/
def selfConnection (k : SocketNames) : Option Bool := do
  let left ← k.getLocalAddress
  let right ← k.getPeerAddress
  pure (left.operatorEq right)

end SocketNames

/-! ## Endpoints -/

/-- An IPv4 or an IPv6 address, and a port. -/
structure Endpoint where
  family : Nat
  ip : List UInt8
  port : BitVec 16
  wellFormed : family = AF_INET ∧ ip.length = 4 ∨ family = AF_INET6 ∧ ip.length = 16
  deriving DecidableEq

namespace Endpoint

/-- The offset of the IP address in the socket address of the family. -/
def offset (e : Endpoint) : Nat := if e.family = AF_INET then 4 else 8

/-- The value that the constructor for the family builds. -/
def address (e : Endpoint) : InetAddress :=
  if e.family = AF_INET then .ofIn e.ip e.port else .ofIn6 e.ip e.port

/-- The bytes of a socket address that name the endpoint; whatever else is in it is not fixed. -/
structure NamedBy (e : Endpoint) (addr : List UInt8) : Prop where
  size : max kSockaddrInSize (e.offset + e.ip.length) ≤ addr.length
  family : window addr 0 2 = hostBytes e.family
  port : window addr 2 4 = BigEndian.toBytes 2 e.port.toNat
  ip : window addr e.offset (e.offset + e.ip.length) = e.ip

/-- The endpoints differ in the second half of an IPv6 address, and in nothing else. -/
def Clash (a b : Endpoint) : Prop :=
  a.family = AF_INET6 ∧ b.family = AF_INET6 ∧ a.port = b.port ∧ a.ip.take 8 = b.ip.take 8 ∧
    a.ip.drop 8 ≠ b.ip.drop 8

instance (a b : Endpoint) : Decidable (Clash a b) := inferInstanceAs (Decidable (_ ∧ _))

end Endpoint

/-! ## What is compared -/

/-- `memcmp` finds no difference if and only if the first `n` bytes agree. -/
theorem memcmp_eq_zero_iff {left right : List UInt8} {n : Nat} (hl : n ≤ left.length)
    (hr : n ≤ right.length) : memcmp left right n = 0 ↔ left.take n = right.take n := by
  induction n generalizing left right with
  | zero => simp [memcmp]
  | succ n ih =>
    cases left with
    | nil => simp at hl
    | cons x left =>
      cases right with
      | nil => simp at hr
      | cons y right =>
        have hrest := ih (Nat.le_of_succ_le_succ hl) (Nat.le_of_succ_le_succ hr)
        by_cases hxy : x = y
        · subst hxy
          simp [memcmp, hrest]
        · have hne : x.toNat ≠ y.toNat := fun h => hxy (UInt8.toNat.inj h)
          have hdiff : (x.toNat : Int) - (y.toNat : Int) ≠ 0 := by omega
          simp [memcmp, hxy, hdiff]

theorem InetAddress.operatorEq_iff {left right : InetAddress}
    (hl : kSockaddrInSize ≤ left.address.length) (hr : kSockaddrInSize ≤ right.address.length) :
    left.operatorEq right = true ↔
      left.address.take kSockaddrInSize = right.address.take kSockaddrInSize := by
  rw [← memcmp_eq_zero_iff hl hr, operatorEq, beq_iff_eq, eq_comm]

theorem hostBytes_injective {x y : Nat} (hx : x < 256 ^ 2) (hy : y < 256 ^ 2)
    (h : hostBytes x = hostBytes y) : x = y := by
  have hread := congrArg ofHostBytes h
  rwa [InetAddress.ofHostBytes_hostBytes hx, InetAddress.ofHostBytes_hostBytes hy] at hread

theorem port_bytes_injective {p q : BitVec 16}
    (h : BigEndian.toBytes 2 p.toNat = BigEndian.toBytes 2 q.toNat) : p = q := by
  have hread := congrArg (fun bytes => BitVec.ofNat 16 (BigEndian.ofBytes bytes)) h
  simpa only [InetAddress.port_bytes] using hread

namespace Endpoint

variable {a b : Endpoint}

theorem family_lt (e : Endpoint) : e.family < 256 ^ 2 := by
  rcases e.wellFormed with ⟨h, -⟩ | ⟨h, -⟩ <;> rw [h] <;> decide

theorem length_v4 (h : a.family = AF_INET) : a.ip.length = 4 := by
  rcases a.wellFormed with ⟨-, hl⟩ | ⟨h6, -⟩
  · exact hl
  · rw [h6] at h
    exact absurd h (by decide)

theorem length_v6 (h : a.family = AF_INET6) : a.ip.length = 16 := by
  rcases a.wellFormed with ⟨h4, -⟩ | ⟨-, hl⟩
  · rw [h4] at h
    exact absurd h (by decide)
  · exact hl

theorem offset_v4 (h : a.family = AF_INET) : a.offset = 4 := if_pos h

theorem offset_v6 (h : a.family = AF_INET6) : a.offset = 8 := if_neg (by rw [h]; decide)

/-- An endpoint is its family, its address and its port. -/
theorem ext_fields (hf : a.family = b.family) (hi : a.ip = b.ip) (hp : a.port = b.port) :
    a = b := by
  cases a
  cases b
  simp_all

/-- The three fields as the constructors write them, in one storage. -/
def storage (family port rawIp : List UInt8) (offset : Nat) : List UInt8 :=
  overwrite ((InetAddress.zero.set 0 family).set 2 port).address offset rawIp

/-- Both constructors write the same fields, the address at the offset of the family. -/
theorem address_eq (e : Endpoint) :
    e.address.address =
      storage (hostBytes e.family) (BigEndian.toBytes 2 e.port.toNat) e.ip e.offset := by
  rcases e.wellFormed with ⟨h, -⟩ | ⟨h, -⟩
  · rw [address, if_pos h, offset_v4 h, h]
    rfl
  · rw [address, if_neg (by rw [h]; decide), offset_v6 h, h]
    rfl

/-- The constructor for a port builds the values of four endpoints. -/
theorem ofPort_eq (port : BitVec 16) (isIpv4 onlyLoopback : Bool) :
    ∃ e : Endpoint, InetAddress.ofPort port isIpv4 onlyLoopback = e.address ∧ e.port = port ∧
      e.family = (if isIpv4 then AF_INET else AF_INET6) := by
  cases isIpv4 with
  | true =>
    exact ⟨⟨AF_INET, BigEndian.toBytes 4 (if onlyLoopback then INADDR_LOOPBACK else INADDR_ANY),
      port, .inl ⟨rfl, by simp⟩⟩, rfl, rfl, rfl⟩
  | false =>
    exact ⟨⟨AF_INET6, if onlyLoopback then in6addrLoopback else in6addrAny, port,
      .inr ⟨rfl, by cases onlyLoopback <;> rfl⟩⟩, rfl, rfl, rfl⟩

theorem offset_bounds (e : Endpoint) : 4 ≤ e.offset ∧ e.offset + e.ip.length ≤ kStorageSize := by
  rcases e.wellFormed with ⟨h, hl⟩ | ⟨h, hl⟩
  · rw [offset_v4 h, hl]
    decide
  · rw [offset_v6 h, hl]
    decide

theorem length_address (e : Endpoint) : e.address.address.length = kStorageSize := by
  have h2 : ((InetAddress.zero.set 0 (hostBytes e.family)).set 2
      (BigEndian.toBytes 2 e.port.toNat)).address.length = kStorageSize :=
    InetAddress.length_set_port (by simp [hostBytes]) (by simp)
  rw [address_eq, storage, length_overwrite _ (by rw [h2]; exact e.offset_bounds.2), h2]

/-- The constructors name the endpoint they are given. -/
theorem namedBy_address (e : Endpoint) : e.NamedBy e.address.address := by
  have hbounds := e.offset_bounds
  obtain ⟨hf, hp, hi⟩ := InetAddress.window_fields (hostBytes e.family)
    (BigEndian.toBytes 2 e.port.toNat) e.ip (by simp [hostBytes]) (by simp) hbounds.1 hbounds.2
  refine ⟨?_, ?_, ?_, ?_⟩
  · rw [length_address]
    exact max_le (by decide) hbounds.2
  · rw [address_eq]
    exact hf
  · rw [address_eq]
    exact hp
  · rw [address_eq]
    exact hi

/-- Storages that name two endpoints and agree where `operator==` looks: the endpoints are one, or
they clash. -/
theorem eq_or_clash {left right : List UInt8} (ha : a.NamedBy left) (hb : b.NamedBy right)
    (h : left.take kSockaddrInSize = right.take kSockaddrInSize) : a = b ∨ Clash a b := by
  have hwin (lo hi : Nat) (hhi : hi ≤ kSockaddrInSize) :
      window left lo hi = window right lo hi := by
    rw [← window_take left hhi, ← window_take right hhi, h]
  have hfam : a.family = b.family := by
    apply hostBytes_injective a.family_lt b.family_lt
    rw [← ha.family, ← hb.family]
    exact hwin 0 2 (by decide)
  have hport : a.port = b.port := by
    apply port_bytes_injective
    rw [← ha.port, ← hb.port]
    exact hwin 2 4 (by decide)
  have hia := ha.ip
  have hib := hb.ip
  rcases a.wellFormed with ⟨ha4, hla⟩ | ⟨ha6, hla⟩
  · -- an IPv4 address ends at the offset 8
    have hb4 : b.family = AF_INET := hfam.symm.trans ha4
    rw [offset_v4 ha4, hla] at hia
    rw [offset_v4 hb4, length_v4 hb4] at hib
    left
    apply ext_fields hfam _ hport
    rw [← hia, ← hib]
    exact hwin 4 8 (by decide)
  · -- of an IPv6 address only the bytes up to the offset 16 are seen
    have hb6 : b.family = AF_INET6 := hfam.symm.trans ha6
    rw [offset_v6 ha6, hla] at hia
    rw [offset_v6 hb6, length_v6 hb6] at hib
    have hfirst : a.ip.take 8 = b.ip.take 8 := by
      rw [← hia, ← hib, take_window left (by decide), take_window right (by decide)]
      exact hwin 8 16 (by decide)
    by_cases hlast : a.ip.drop 8 = b.ip.drop 8
    · left
      apply ext_fields hfam _ hport
      rw [← List.take_append_drop 8 a.ip, ← List.take_append_drop 8 b.ip, hfirst, hlast]
    · right
      exact ⟨ha6, hb6, hport, hfirst, hlast⟩

/-- Endpoints that clash are built with the same bytes up to `sizeof(sockaddr_in)`. -/
theorem Clash.take_address (h : Clash a b) :
    a.address.address.take kSockaddrInSize = b.address.address.take kSockaddrInSize := by
  obtain ⟨ha, hb, hport, hfirst, -⟩ := h
  have hla : 8 ≤ a.ip.length := by
    rw [length_v6 ha]
    decide
  have hlb : 8 ≤ b.ip.length := by
    rw [length_v6 hb]
    decide
  have hsize : 8 ≤ ((InetAddress.zero.set 0 (hostBytes AF_INET6)).set 2
      (BigEndian.toBytes 2 b.port.toNat)).address.length := by
    rw [InetAddress.length_set_port (by decide) (by simp)]
    decide
  rw [address_eq, address_eq, offset_v6 ha, offset_v6 hb, ha, hb, hport, storage, storage]
  show (overwrite _ 8 a.ip).take (8 + 8) = (overwrite _ 8 b.ip).take (8 + 8)
  rw [take_overwrite _ hsize hla, take_overwrite _ hsize hlb, hfirst]

theorem Clash.ne (h : Clash a b) : a ≠ b := by
  rintro rfl
  exact h.2.2.2.2 rfl

/-! ## Equality and the tests for a self-connection -/

/-- `operator==` is exact for the pair. -/
def EqualityExact (a b : Endpoint) : Prop :=
  a.address.operatorEq b.address = true ↔ a.family = b.family ∧ a.port = b.port ∧ a.ip = b.ip

/-- For a socket with the local endpoint `a` and the peer `b`, whatever else the two calls find
and write: `IsSelfConnect` reports a self-connection, and `HandleWrite` turns down a connection
that has no error, only if the endpoints coincide. -/
def SelfTestSound (a b : Endpoint) : Prop :=
  ∀ (k : SocketNames) (left right : List UInt8), k.getsockname = some left →
    k.getpeername = some right → a.NamedBy left → b.NamedBy right →
    (k.isSelfConnect = some true → a = b) ∧
    ∀ (s : EventLoop) (c : ChanId) (selfConnect : Bool), s.connector.state = .connecting →
      s.connector.channel = some c → k.selfConnection = some selfConnect →
      (s.handleWrite 0 selfConnect).connector.state ≠ .connected → a = b

theorem operatorEq_address_iff (a b : Endpoint) :
    a.address.operatorEq b.address = true ↔
      a.address.address.take kSockaddrInSize = b.address.address.take kSockaddrInSize := by
  have hle : kSockaddrInSize ≤ kStorageSize := by decide
  exact InetAddress.operatorEq_iff (by rw [length_address]; exact hle)
    (by rw [length_address]; exact hle)

theorem equalityExact_iff (a b : Endpoint) : EqualityExact a b ↔ ¬ Clash a b := by
  rw [EqualityExact, operatorEq_address_iff]
  constructor
  · intro h hclash
    obtain ⟨hf, hp, hi⟩ := h.mp hclash.take_address
    exact hclash.ne (ext_fields hf hi hp)
  · intro hclash
    constructor
    · intro h
      rcases eq_or_clash a.namedBy_address b.namedBy_address h with rfl | hbad
      · exact ⟨rfl, rfl, rfl⟩
      · exact absurd hbad hclash
    · rintro ⟨hf, hp, hi⟩
      rw [ext_fields hf hi hp]

end Endpoint

namespace SocketNames

open Endpoint

variable {k : SocketNames} {left right : List UInt8}

theorem getLocalAddress_eq (h : k.getsockname = some left) :
    k.getLocalAddress = some ⟨overwrite k.localAddress 0 left⟩ := by
  rw [getLocalAddress, h]
  rfl

theorem getPeerAddress_eq (h : k.getpeername = some right) :
    k.getPeerAddress = some ⟨overwrite k.peerAddress 0 right⟩ := by
  rw [getPeerAddress, h]
  rfl

/-- `IsSelfConnect` is the negation of `operator!=`, the condition of `HandleWrite` is
`operator==`: they are one test. -/
theorem isSelfConnect_eq : k.isSelfConnect = k.selfConnection := by
  rw [isSelfConnect, selfConnection]
  cases k.getLocalAddress with
  | none => rfl
  | some l =>
    cases k.getPeerAddress with
    | none => rfl
    | some r => cases h : l.operatorEq r <;> simp [InetAddress.operatorNe, h]

theorem selfConnection_eq (hl : k.getsockname = some left) (hr : k.getpeername = some right) :
    k.selfConnection = some (InetAddress.operatorEq ⟨overwrite k.localAddress 0 left⟩
      ⟨overwrite k.peerAddress 0 right⟩) := by
  rw [selfConnection, getLocalAddress_eq hl, getPeerAddress_eq hr]
  rfl

end SocketNames

namespace Endpoint

variable {a b : Endpoint}

/-- The storage that the address is written to names what the address names. -/
theorem NamedBy.overwrite {e : Endpoint} {addr : List UInt8} (h : e.NamedBy addr)
    (stack : List UInt8) : e.NamedBy (overwrite stack 0 addr) := by
  have hsize := h.size
  have hlen : addr.length ≤ (Window.overwrite stack 0 addr).length := by
    simp [Window.overwrite]
  have hin : kSockaddrInSize ≤ addr.length := (le_max_left _ _).trans hsize
  refine ⟨hsize.trans hlen, ?_, ?_, ?_⟩
  · rw [window_overwrite_zero _ ((by decide : 2 ≤ kSockaddrInSize).trans hin)]
    exact h.family
  · rw [window_overwrite_zero _ ((by decide : 4 ≤ kSockaddrInSize).trans hin)]
    exact h.port
  · rw [window_overwrite_zero _ ((le_max_right _ _).trans hsize)]
    exact h.ip

/-- The test for a self-connection succeeds for one endpoint, or for endpoints that clash. -/
theorem eq_or_clash_of_selfConnection {k : SocketNames} {left right : List UInt8}
    (hl : k.getsockname = some left) (hr : k.getpeername = some right) (ha : a.NamedBy left)
    (hb : b.NamedBy right) (h : k.selfConnection = some true) : a = b ∨ Clash a b := by
  have hal := ha.overwrite k.localAddress
  have hbr := hb.overwrite k.peerAddress
  rw [SocketNames.selfConnection_eq hl hr, Option.some.injEq] at h
  have htake := (InetAddress.operatorEq_iff ((le_max_left _ _).trans hal.size)
    ((le_max_left _ _).trans hbr.size)).mp h
  exact eq_or_clash hal hbr htake

/-- `HandleWrite` accepts a connection without an error that the test lets pass. -/
theorem state_handleWrite_pass {s : EventLoop} {c : ChanId}
    (hstate : s.connector.state = .connecting) (hchan : s.connector.channel = some c) :
    (s.handleWrite 0 false).connector.state = .connected := by
  have hend := s.writeHandled 0 false
  generalize s.handleWrite 0 false = t at hend ⊢
  cases hend with
  | notConnecting hs => exact absurd hstate hs
  | nullChannel _ hc =>
    rw [hchan] at hc
    cases hc
  | refused _ _ hbad => simp at hbad
  | accepted => rfl
  | stopped => rfl

theorem selfTestSound_iff (a b : Endpoint) : SelfTestSound a b ↔ ¬ Clash a b := by
  constructor
  · intro h hclash
    -- the two calls write the addresses as the constructors would
    obtain ⟨hself, -⟩ := h ⟨[], [], some a.address.address, some b.address.address⟩ _ _ rfl rfl
      a.namedBy_address b.namedBy_address
    apply hclash.ne
    apply hself
    have hsame := (operatorEq_address_iff a b).mpr hclash.take_address
    rw [SocketNames.isSelfConnect_eq, SocketNames.selfConnection_eq rfl rfl]
    simpa [overwrite] using hsame
  · intro hclash k left right hl hr ha hb
    have hcoincide (h : k.selfConnection = some true) : a = b := by
      rcases eq_or_clash_of_selfConnection hl hr ha hb h with heq | hbad
      · exact heq
      · exact absurd hbad hclash
    constructor
    · intro h
      rw [SocketNames.isSelfConnect_eq] at h
      exact hcoincide h
    · intro s c selfConnect hstate hchan htest hnot
      cases selfConnect with
      | true => exact hcoincide htest
      | false => exact absurd (state_handleWrite_pass hstate hchan) hnot

/-- **When address equality is exact.** For any two endpoints, all addresses and all ports:
`operator==` on the values built from them tells whether they have the same family, port and IP
address, and the tests for a self-connection succeed for coinciding endpoints only, if and only if
the endpoints are not two IPv6 addresses with the same port and the same first 8 bytes that differ
in the last 8. -/
theorem address_equality_iff (a b : Endpoint) :
    EqualityExact a b ∧ SelfTestSound a b ↔ ¬ Clash a b := by
  rw [equalityExact_iff, selfTestSound_iff, and_self]

/-- `fe80::1` and `fe80::2` with one port. -/
theorem link_local_addresses_equal :
    ∃ a b : Endpoint,
      a = ⟨AF_INET6, [254, 128, 0, 0, 0, 0, 0, 0, 0, 0, 0, 0, 0, 0, 0, 1], 9527, by decide⟩ ∧
      b = ⟨AF_INET6, [254, 128, 0, 0, 0, 0, 0, 0, 0, 0, 0, 0, 0, 0, 0, 2], 9527, by decide⟩ ∧
      a.address.operatorEq b.address = true ∧ a.ip ≠ b.ip ∧
      SocketNames.isSelfConnect ⟨[], [], some a.address.address, some b.address.address⟩ =
        some true ∧
      ¬ (EqualityExact a b ∧ SelfTestSound a b) := by
  refine ⟨_, _, rfl, rfl, by decide +kernel, by decide, by decide +kernel, ?_⟩
  rintro ⟨hexact, -⟩
  exact absurd (hexact.mp (by decide +kernel)).2.2 (by decide)

end Endpoint

end LinuxNet
