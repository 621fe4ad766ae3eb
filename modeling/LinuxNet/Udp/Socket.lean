import LinuxNet.Address.Text
import LinuxNet.Udp.Model

/-!
# `net::DatagramSocket`

The embedding of `datagram_socket.cc`, with the `address_` of `datagram_packet.h`. The socket is
an IPv4 one. What the kernel is told of an address is the first `sizeof(sockaddr)` bytes of its
storage, and it reads an endpoint of its own out of them: `recvfrom` writes the endpoint of the
sender, `sendto` and `connect` read the one that is meant. An answer of the kernel that the code
cannot foresee (no memory, no route, a datagram that is too long) is an input.
-/

namespace LinuxNet

set_option autoImplicit false

open LinuxNet.Lib LinuxNet.Lib.Window

/-- `DatagramPacket` with its `address_`, which the threads of a worker hand on unread. -/
structure AddressedPacket extends DatagramPacket where
  address : InetAddress
  deriving DecidableEq, Repr

/-- `DatagramPacket(size_t len)`. -/
def AddressedPacket.new (len : Nat) : AddressedPacket where
  dat := List.replicate len 0
  effective := 0
  address := .zero

def AF_UNSPEC : Nat := 0

/-- `sizeof(sockaddr)`, which is also that of `sockaddr_in`. -/
def kSockaddrSize : Nat := 16

/-- `reinterpret_cast<const sockaddr*>(&address())` and `sizeof(sockaddr)`. -/
def InetAddress.sockaddr (a : InetAddress) : List UInt8 := a.address.take kSockaddrSize

/-! ## The kernel -/

/-- What an IPv4 socket can be bound to, sends to and receives from. -/
@[ext] structure InEndpoint where
  endpoint : Endpoint
  isV4 : endpoint.family = AF_INET
  deriving DecidableEq

namespace InEndpoint

/-- The `sockaddr_in` that the kernel writes. -/
def sockaddr (e : InEndpoint) : List UInt8 :=
  hostBytes AF_INET ++ BigEndian.toBytes 2 e.endpoint.port.toNat ++ e.endpoint.ip ++
    List.replicate 8 0

/-- The port and the address that the kernel reads in a `sockaddr_in`. -/
def ofSockaddr (raw : List UInt8) : Option InEndpoint :=
  if h : (window raw 4 8).length = 4 then
    some ⟨⟨AF_INET, window raw 4 8, BitVec.ofNat 16 (BigEndian.ofBytes (window raw 2 4)),
      .inl ⟨rfl, h⟩⟩, rfl⟩
  else none

end InEndpoint

def sockaddrFamily (raw : List UInt8) : Nat := ofHostBytes (window raw 0 2)

/-- Where `sendto` sends to, if it does not refuse the address. -/
def sendtoDst (raw : List UInt8) : Option InEndpoint :=
  if sockaddrFamily raw = AF_INET ∨ sockaddrFamily raw = AF_UNSPEC then
    InEndpoint.ofSockaddr raw
  else none

/-- The association of the socket behind `connect`, which dissolves it when the family is
`AF_UNSPEC`. There is no value if `connect` fails. -/
def connectPeer (raw : List UInt8) : Option (Option InEndpoint) :=
  if sockaddrFamily raw = AF_UNSPEC then some none
  else if sockaddrFamily raw = AF_INET then (InEndpoint.ofSockaddr raw).map some
  else none

structure Datagram where
  src : InEndpoint
  dst : InEndpoint
  data : List UInt8
  deriving DecidableEq

/-! ## `DatagramSocket` -/

structure DatagramSocket where
  localAddr : InetAddress
  serverAddr : InetAddress
  connected : Bool
  isBind : Bool
  /-- The association that the kernel keeps for `sockfd_`. -/
  peer : Option InEndpoint
  deriving DecidableEq

namespace DatagramSocket

/-- `DatagramSocket()`. -/
def new : DatagramSocket := ⟨.zero, .zero, false, false, none⟩

/-- `Bind`; there is no value when the `assert` in `Socket::Bind` ends the process. -/
def bind (s : DatagramSocket) (inetAddr : InetAddress) (ok : Bool) : Option DatagramSocket :=
  if ok then some { s with localAddr := inetAddr, isBind := true } else none

/-- `DatagramSocket(const InetAddress& addr)`. -/
def ofAddr (addr : InetAddress) (ok : Bool) : Option DatagramSocket := new.bind addr ok

/-- `DatagramSocket(short port)`. -/
def ofPort (port : BitVec 16) (ok : Bool) : Option DatagramSocket :=
  let s : DatagramSocket := { new with localAddr := .ofPort port true false }
  (s.bind s.localAddr ok).map fun s => { s with isBind := true }

/-- `Connect`; there is no value when the `assert` behind a failed `connect` ends the process. -/
def connect (s : DatagramSocket) (addr : InetAddress) (ok : Bool) : Option DatagramSocket :=
  if ok then
    (connectPeer addr.sockaddr).map fun peer =>
      { s with peer := peer, serverAddr := addr, connected := true }
  else none

/-- `Disconnect`. -/
def disconnect (s : DatagramSocket) (ok : Bool) : Option DatagramSocket :=
  (s.connect .INVALID_ADDR ok).map fun s => { s with connected := false }

/-- `Receive(DatagramPacket& pkt)`, where `recvfrom` fails or takes the datagram. -/
def receiveInto (pkt : AddressedPacket) : Option Datagram → AddressedPacket
  | none => pkt
  | some d =>
    let dat := d.data.take pkt.dat.length
    let pkt := { pkt with dat := overwrite pkt.dat 0 dat }
    if 0 < dat.length then
      { pkt with
        effective := dat.length
        address := .ofStorage (overwrite InetAddress.zero.address 0 d.src.sockaddr) }
    else pkt

/-- `Receive(int len)`. -/
def receive (len : Nat) (d : Option Datagram) : AddressedPacket := receiveInto (.new len) d

/-- `Send(const char* dat, size_t len, const InetAddress& to)` from the endpoint
`own`: what goes
out. The value that the code returns is its length, or -1 if nothing does. -/
def sendDat (s : DatagramSocket) (own : InEndpoint) (dat : List UInt8) (addr : InetAddress)
    (ok : Bool) : Option Datagram :=
  let dst := if s.connected then s.peer else sendtoDst addr.sockaddr
  if ok then
    (dst.filter fun e => e.endpoint.port ≠ 0).map fun e => ⟨own, e, dat⟩
  else none

/-- `Send(const DatagramPacket& pkt)`. -/
def send (s : DatagramSocket) (own : InEndpoint) (pkt : AddressedPacket) (ok : Bool) :
    Option Datagram :=
  s.sendDat own (pkt.dat.take pkt.effective) pkt.address ok

end DatagramSocket

/-! ## What the kernel writes is what it reads -/

namespace InEndpoint

variable (e : InEndpoint)

theorem length_ip : e.endpoint.ip.length = 4 := Endpoint.length_v4 e.isV4

@[simp] theorem length_sockaddr : e.sockaddr.length = kSockaddrSize := by
  simp only [sockaddr, hostBytes, List.length_append, List.length_reverse, BigEndian.length_toBytes,
    List.length_replicate, e.length_ip]
  rfl

/-- One copy of the fields in front of an empty storage, or one after the other. -/
theorem overwrite_fields {family port ip : List UInt8} (hf : family.length = 2)
    (hp : port.length = 2) (hi : ip.length = 4) :
    overwrite InetAddress.zero.address 0 (family ++ port ++ ip ++ List.replicate 8 0) =
      Endpoint.storage family port ip 4 := by
  obtain ⟨f0, f1, rfl⟩ := List.length_eq_two.mp hf
  obtain ⟨p0, p1, rfl⟩ := List.length_eq_two.mp hp
  match ip, hi with
  | [i0, i1, i2, i3], _ => rfl

/-- The storage that `recvfrom` fills is the one the constructor for an IPv4 address builds. -/
theorem ofStorage_sockaddr :
    InetAddress.ofStorage (overwrite InetAddress.zero.address 0 e.sockaddr) =
      e.endpoint.address := by
  have hstorage := e.endpoint.address_eq
  rw [Endpoint.offset_v4 e.isV4, e.isV4] at hstorage
  rw [sockaddr, overwrite_fields (by simp [hostBytes]) (by simp) e.length_ip, ← hstorage]
  rfl

theorem sockaddr_address : e.endpoint.address.sockaddr = e.sockaddr := by
  have htake := take_overwrite InetAddress.zero.address (Nat.zero_le _) (le_refl e.sockaddr.length)
  rw [Nat.zero_add, length_sockaddr] at htake
  rw [← ofStorage_sockaddr, InetAddress.sockaddr, InetAddress.ofStorage, htake, List.take_zero,
    List.nil_append, ← e.length_sockaddr, List.take_length]

theorem family_sockaddr : sockaddrFamily e.sockaddr = AF_INET := by
  have h := e.endpoint.namedBy_address.family
  rw [← window_take _ (by decide : 2 ≤ kSockaddrSize), e.isV4] at h
  rw [sockaddrFamily, ← sockaddr_address, InetAddress.sockaddr, h]
  exact InetAddress.ofHostBytes_hostBytes (by decide)

theorem ofSockaddr_sockaddr : ofSockaddr e.sockaddr = some e := by
  have hnamed := e.endpoint.namedBy_address
  have hwin (lo hi : Nat) (h : hi ≤ kSockaddrSize) :
      window e.sockaddr lo hi = window e.endpoint.address.address lo hi := by
    rw [← sockaddr_address, InetAddress.sockaddr, window_take _ h]
  have hip : window e.sockaddr 4 8 = e.endpoint.ip := by
    have h := hnamed.ip
    rw [Endpoint.offset_v4 e.isV4, e.length_ip] at h
    rw [hwin 4 8 (by decide)]
    exact h
  have hport : window e.sockaddr 2 4 = BigEndian.toBytes 2 e.endpoint.port.toNat := by
    rw [hwin 2 4 (by decide)]
    exact hnamed.port
  rw [ofSockaddr, dif_pos (by rw [hip, e.length_ip])]
  refine congrArg some (InEndpoint.ext (Endpoint.ext_fields e.isV4.symm hip ?_))
  rw [hport, InetAddress.port_bytes]

end InEndpoint

/-! ## What is received, and where it is sent back to -/

namespace DatagramSocket

variable {s t : DatagramSocket} {len : Nat}

/-- A datagram with nothing in it leaves the length and the address as they were. -/
theorem receiveInto_empty (pkt : AddressedPacket) {d : Datagram} (hd : d.data = []) :
    receiveInto pkt (some d) = pkt := by
  have hkept : overwrite pkt.dat 0 [] = pkt.dat := by
    rw [overwrite, List.take_zero, List.append_nil, List.nil_append, List.length_nil, Nat.add_zero,
      List.drop_zero]
  simp [receiveInto, hd, hkept]

theorem receive_nonempty {d : Datagram} (hlen : 0 < len) (hd : d.data ≠ []) :
    (receive len (some d)).dat.take (receive len (some d)).effective = d.data.take len ∧
    (receive len (some d)).effective = (d.data.take len).length ∧
    (receive len (some d)).address = d.src.endpoint.address := by
  have hdat : d.data.take (AddressedPacket.new len).dat.length = d.data.take len := by
    rw [AddressedPacket.new, List.length_replicate]
  have hpos : 0 < (d.data.take len).length := by
    have := List.length_pos_of_ne_nil hd
    rw [List.length_take]
    omega
  rw [receive, receiveInto, hdat]
  dsimp only
  rw [if_pos hpos]
  refine ⟨?_, rfl, d.src.ofStorage_sockaddr⟩
  have htake := take_overwrite (AddressedPacket.new len).dat (Nat.zero_le _)
    (le_refl (d.data.take len).length)
  rw [Nat.zero_add, List.take_zero, List.nil_append, List.take_length] at htake
  exact htake

theorem effective_receive {d : Datagram} (hlen : 0 < len) :
    (receive len (some d)).effective = 0 ↔ d.data = [] := by
  constructor
  · intro hzero
    by_contra hd
    rw [(receive_nonempty hlen hd).2.1, List.length_take] at hzero
    have := List.length_pos_of_ne_nil hd
    omega
  · intro hd
    rw [receive, receiveInto_empty _ hd]
    rfl

/-- **The way back**: a packet that has been received goes to where it came from. -/
theorem send_receive {d : Datagram} (hs : s.connected = false) (hlen : 0 < len)
    (hd : d.data ≠ []) (own : InEndpoint) (ok : Bool) :
    s.send own (receive len (some d)) ok =
      if ok = true ∧ d.src.endpoint.port ≠ 0 then some ⟨own, d.src, d.data.take len⟩ else none := by
  obtain ⟨hdat, -, haddr⟩ := receive_nonempty hlen hd
  have hdst : sendtoDst d.src.endpoint.address.sockaddr = some d.src := by
    rw [InEndpoint.sockaddr_address, sendtoDst, if_pos (.inl d.src.family_sockaddr),
      InEndpoint.ofSockaddr_sockaddr]
  rw [send, sendDat, hs, haddr, hdat]
  simp only [Bool.false_eq_true, if_false, hdst]
  cases ok with
  | false => simp
  | true => by_cases hport : d.src.endpoint.port = 0#16 <;> simp [Option.filter, hport]

/-! ## `connected_` and the association in the kernel -/

/-- `connected_` and `server_addr_` say what the kernel does with the socket. -/
def Associated (s : DatagramSocket) : Prop :=
  if s.connected then ∃ e, s.peer = some e ∧ InEndpoint.ofSockaddr s.serverAddr.sockaddr = some e
  else s.peer = none

theorem connect_associated {addr : InetAddress} {ok : Bool} (h : s.connect addr ok = some t)
    (haddr : sockaddrFamily addr.sockaddr ≠ AF_UNSPEC) : t.Associated := by
  rw [connect] at h
  split at h
  · obtain ⟨peer, hpeer, rfl⟩ := Option.map_eq_some_iff.mp h
    rw [connectPeer, if_neg haddr] at hpeer
    split at hpeer
    · obtain ⟨e, he, rfl⟩ := Option.map_eq_some_iff.mp hpeer
      exact ⟨e, rfl, he⟩
    · cases hpeer
  · cases h

theorem disconnect_associated {ok : Bool} (h : s.disconnect ok = some t) : t.Associated := by
  obtain ⟨u, hu, rfl⟩ := Option.map_eq_some_iff.mp h
  rw [connect] at hu
  split at hu
  · obtain ⟨peer, hpeer, rfl⟩ := Option.map_eq_some_iff.mp hu
    cases hpeer
    rfl
  · cases hu

inductive Call where
  | bind (addr : InetAddress) (ok : Bool)
  | connect (addr : InetAddress) (ok : Bool)
  | disconnect (ok : Bool)
  deriving DecidableEq, Repr

def call (s : DatagramSocket) : Call → Option DatagramSocket
  | .bind addr ok => s.bind addr ok
  | .connect addr ok => s.connect addr ok
  | .disconnect ok => s.disconnect ok

/-- Nobody uses `Connect` as `Disconnect` does. -/
def NamesServer : Call → Prop
  | .connect addr _ => sockaddrFamily addr.sockaddr ≠ AF_UNSPEC
  | _ => True

theorem call_associated {c : Call} (hs : s.Associated) (hc : NamesServer c)
    (h : s.call c = some t) : t.Associated := by
  cases c with
  | bind addr ok =>
    simp only [call, bind] at h
    split at h
    · cases h
      exact hs
    · cases h
  | connect addr ok => exact connect_associated h hc
  | disconnect ok => exact disconnect_associated h

/-- After any calls, `Send` goes to `server_addr_` while `connected_` is set, and to the address
it is given otherwise. -/
theorem send_goes {calls : List Call} {own : InEndpoint} {pkt : AddressedPacket} {ok : Bool}
    {d : Datagram} (hrun : Machine.run call new calls = some s)
    (hcalls : ∀ c ∈ calls, NamesServer c) (h : s.send own pkt ok = some d) :
    (if s.connected then InEndpoint.ofSockaddr s.serverAddr.sockaddr
      else sendtoDst pkt.address.sockaddr) = some d.dst ∧
    d.data = pkt.dat.take pkt.effective := by
  have hnew : new.Associated := by simp [Associated, new]
  have hs : s.Associated := Machine.run_invariant_of_mem call_associated hnew hcalls hrun
  rw [send, sendDat] at h
  split at h
  · obtain ⟨e, he, rfl⟩ := Option.map_eq_some_iff.mp h
    have hdst := (Option.filter_eq_some_iff.mp he).1
    refine ⟨?_, rfl⟩
    rw [Associated] at hs
    split at hs
    · rename_i hconn
      obtain ⟨e', hpeer, hserver⟩ := hs
      rw [if_pos hconn] at hdst ⊢
      rw [hserver, ← hpeer, hdst]
    · rename_i hconn
      rwa [if_neg hconn] at hdst ⊢
  · cases h

end DatagramSocket

end LinuxNet
