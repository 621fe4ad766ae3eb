import LinuxNet.Lib.BigEndian
import LinuxNet.Lib.Window
import Mathlib.Data.List.Forall2

/-!
# `InetAddress::GetList`

The embedding of the constructors of `InetAddress` and of `GetList`, over the bytes of the socket
addresses: `sockaddr_in` has the address at the offset 4, `sockaddr_in6` at the offset 8, and the
family and the port come first in both. The host name and the answer of the resolver are given.

The loop of `GetList` goes through the list with `rp`, but it tests the family of `info`, which is
the first entry. A list of one family is translated as it should be; every entry of another family
than the first is read as what it is not.
-/

namespace LinuxNet

set_option autoImplicit false

open LinuxNet.Lib LinuxNet.Lib.Window

def AF_INET : Nat := 2
def AF_INET6 : Nat := 10

/-- `sizeof(sockaddr_storage)`. -/
def kStorageSize : Nat := 128

/-- A 16-bit integer of the machine in memory, as the family is stored. -/
def hostBytes (x : Nat) : List UInt8 := (BigEndian.toBytes 2 x).reverse

def ofHostBytes (bytes : List UInt8) : Nat := BigEndian.ofBytes bytes.reverse

/-! ## `InetAddress` -/

/-- `address_`, a `sockaddr_storage`. -/
structure InetAddress where
  address : List UInt8
  deriving DecidableEq, Repr

namespace InetAddress

/-- `bzero(&address_, sizeof(address_))`. -/
def zero : InetAddress := ⟨List.replicate kStorageSize 0⟩

/-- The assignment to a field of the structure. -/
def set (a : InetAddress) (offset : Nat) (field : List UInt8) : InetAddress :=
  ⟨overwrite a.address offset field⟩

/-- `InetAddress(struct in_addr raw_ip, short port)`. -/
def ofIn (rawIp : List UInt8) (port : BitVec 16) : InetAddress :=
  ((zero.set 0 (hostBytes AF_INET)).set 2 (BigEndian.toBytes 2 port.toNat)).set 4 rawIp

/-- `InetAddress(struct in6_addr raw_ip, short port)`. -/
def ofIn6 (rawIp : List UInt8) (port : BitVec 16) : InetAddress :=
  ((zero.set 0 (hostBytes AF_INET6)).set 2 (BigEndian.toBytes 2 port.toNat)).set 8 rawIp

def ssFamily (a : InetAddress) : Nat := ofHostBytes (window a.address 0 2)

/-- The bytes that `Ip` prints. -/
def ip (a : InetAddress) : List UInt8 :=
  if a.ssFamily = AF_INET then window a.address 4 8 else window a.address 8 24

def port (a : InetAddress) : BitVec 16 :=
  BitVec.ofNat 16 (BigEndian.ofBytes (window a.address 2 4))

end InetAddress

/-! ## `GetList` -/

/-- An entry of the answer of `getaddrinfo`: `ai_family` and the memory at `ai_addr`. -/
structure AddrInfo where
  aiFamily : Nat
  aiAddr : List UInt8
  deriving DecidableEq, Repr

namespace AddrInfo

/-- `sin_addr` of the memory taken as a `sockaddr_in`. -/
def sinAddr (e : AddrInfo) : List UInt8 := window e.aiAddr 4 8

/-- `sin6_addr` of the memory taken as a `sockaddr_in6`. -/
def sin6Addr (e : AddrInfo) : List UInt8 := window e.aiAddr 8 24

/-- What `getaddrinfo` promises of an entry. -/
def WellFormed (e : AddrInfo) : Prop :=
  e.aiFamily = AF_INET ∧ e.aiAddr.length = 16 ∨ e.aiFamily = AF_INET6 ∧ e.aiAddr.length = 28

instance (e : AddrInfo) : Decidable e.WellFormed := inferInstanceAs (Decidable (_ ∨ _))

/-- The bytes of the address of the entry. -/
def ip (e : AddrInfo) : List UInt8 := if e.aiFamily = AF_INET then e.sinAddr else e.sin6Addr

end AddrInfo

/-- The type that `ai_addr` is cast to. -/
inductive SockaddrType where
  | sockaddrIn | sockaddrIn6
  deriving DecidableEq, Repr

/-- The type of the memory at `ai_addr`. -/
def AddrInfo.type (e : AddrInfo) : SockaddrType :=
  if e.aiFamily = AF_INET then .sockaddrIn else .sockaddrIn6

/-- What `GetList` has around it: `gethostname` and `getaddrinfo`, which may fail. -/
structure Resolver where
  gethostname : Option String
  getaddrinfo : String → Option (List AddrInfo)

namespace Resolver

/-- The body of the loop: the type the entry is read as, and the element of the result. -/
def translate (info rp : AddrInfo) (port : BitVec 16) : SockaddrType × InetAddress :=
  if info.aiFamily = AF_INET then (.sockaddrIn, .ofIn rp.sinAddr port)
  else (.sockaddrIn6, .ofIn6 rp.sin6Addr port)

/-- The loop, from `rp` on. -/
def getListFrom (info : AddrInfo) (port : BitVec 16) :
    List AddrInfo → List (SockaddrType × InetAddress)
  | [] => []
  | rp :: rest => translate info rp port :: getListFrom info port rest

/-- The answer of the resolver, for the name of the host if no name is given. -/
def answer (env : Resolver) (domainName : String) : Option (List AddrInfo) :=
  if domainName.isEmpty then env.gethostname.bind env.getaddrinfo
  else env.getaddrinfo domainName

/-- `GetList`; the types that the entries were read as are kept beside the result. -/
def getList (env : Resolver) (domainName : String) (port : BitVec 16) :
    List (SockaddrType × InetAddress) :=
  match env.answer domainName with
  | none => []
  | some [] => []
  | some (info :: rest) => getListFrom info port (info :: rest)

end Resolver

/-! ## The constructors -/

namespace InetAddress

/-! No assignment to a field changes the size of the storage. -/

theorem length_set_family {family : List UInt8} (hf : family.length = 2) :
    (zero.set 0 family).address.length = kStorageSize := by
  have h0 : zero.address.length = kStorageSize := List.length_replicate
  rw [set, length_overwrite _ (by rw [h0, hf]; decide), h0]

theorem length_set_port {family port : List UInt8} (hf : family.length = 2)
    (hp : port.length = 2) : ((zero.set 0 family).set 2 port).address.length = kStorageSize := by
  have h1 := length_set_family hf
  rw [set, length_overwrite _ (by rw [h1, hp]; decide), h1]

/-- The three fields that a constructor writes are the ones that are read. -/
theorem window_fields (family port rawIp : List UInt8) {offset : Nat} (hf : family.length = 2)
    (hp : port.length = 2) (ho : 4 ≤ offset) (hi : offset + rawIp.length ≤ kStorageSize) :
    window (((zero.set 0 family).set 2 port).set offset rawIp).address 0 2 = family ∧
    window (((zero.set 0 family).set 2 port).set offset rawIp).address 2 4 = port ∧
    window (((zero.set 0 family).set 2 port).set offset rawIp).address offset
      (offset + rawIp.length) = rawIp := by
  have h1 := length_set_family hf
  have h2 := length_set_port hf hp
  have hoff : offset ≤ ((zero.set 0 family).set 2 port).address.length := by
    rw [h2]
    omega
  have hport : 2 ≤ (zero.set 0 family).address.length := by
    rw [h1]
    decide
  refine ⟨?_, ?_, window_overwrite_self _ hoff⟩
  · have hself : window (overwrite zero.address 0 family) 0 (0 + family.length) = family :=
      window_overwrite_self _ (Nat.zero_le _)
    rw [hf] at hself
    rw [set, window_overwrite_above _ hoff (by omega), set,
      window_overwrite_above _ hport (Nat.le_refl 2)]
    exact hself
  · have hself : window (overwrite (zero.set 0 family).address 2 port) 2 (2 + port.length) = port :=
      window_overwrite_self _ hport
    rw [hp] at hself
    rw [set, window_overwrite_above _ hoff ho]
    exact hself

theorem ofHostBytes_hostBytes {x : Nat} (hx : x < 256 ^ 2) : ofHostBytes (hostBytes x) = x := by
  rw [ofHostBytes, hostBytes, List.reverse_reverse, BigEndian.ofBytes_toBytes, Nat.mod_eq_of_lt hx]

theorem port_bytes (port : BitVec 16) :
    BitVec.ofNat 16 (BigEndian.ofBytes (BigEndian.toBytes 2 port.toNat)) = port := by
  have hlt : port.toNat < 256 ^ 2 := port.isLt
  rw [BigEndian.ofBytes_toBytes, Nat.mod_eq_of_lt hlt, BitVec.ofNat_toNat, BitVec.setWidth_eq]

theorem ofIn_spec {rawIp : List UInt8} (h : rawIp.length = 4) (p : BitVec 16) :
    (ofIn rawIp p).ssFamily = AF_INET ∧ (ofIn rawIp p).ip = rawIp ∧ (ofIn rawIp p).port = p := by
  obtain ⟨hf, hp, hi⟩ := window_fields (hostBytes AF_INET) (BigEndian.toBytes 2 p.toNat) rawIp
    (by simp [hostBytes]) (by simp) (Nat.le_refl 4) (by rw [h]; decide)
  rw [h] at hi
  have hfam : (ofIn rawIp p).ssFamily = AF_INET := by
    rw [ssFamily, ofIn, hf, ofHostBytes_hostBytes (by decide)]
  refine ⟨hfam, ?_, ?_⟩
  · rw [ip, if_pos hfam]
    exact hi
  · rw [port, ofIn, hp, port_bytes]

theorem ofIn6_spec {rawIp : List UInt8} (h : rawIp.length = 16) (p : BitVec 16) :
    (ofIn6 rawIp p).ssFamily = AF_INET6 ∧ (ofIn6 rawIp p).ip = rawIp ∧
      (ofIn6 rawIp p).port = p := by
  obtain ⟨hf, hp, hi⟩ := window_fields (hostBytes AF_INET6) (BigEndian.toBytes 2 p.toNat) rawIp
    (by simp [hostBytes]) (by simp) (by decide : 4 ≤ 8) (by rw [h]; decide)
  rw [h] at hi
  have hfam : (ofIn6 rawIp p).ssFamily = AF_INET6 := by
    rw [ssFamily, ofIn6, hf, ofHostBytes_hostBytes (by decide)]
  refine ⟨hfam, ?_, ?_⟩
  · rw [ip, if_neg (by rw [hfam]; decide)]
    exact hi
  · rw [port, ofIn6, hp, port_bytes]

end InetAddress

/-! ## The list -/

namespace Resolver

/-- An element of the result is what it should be for the entry. -/
structure Matches (port : BitVec 16) (e : AddrInfo) (r : SockaddrType × InetAddress) : Prop where
  type : r.1 = e.type
  family : r.2.ssFamily = e.aiFamily
  ip : r.2.ip = e.ip
  port : r.2.port = port

/-- An entry is translated rightly if the first one is of its family, and only then. -/
theorem translate_matches_iff {info rp : AddrInfo} (hi : info.WellFormed) (hr : rp.WellFormed)
    (port : BitVec 16) :
    Matches port rp (translate info rp port) ↔ rp.aiFamily = info.aiFamily := by
  have hne : AF_INET6 ≠ AF_INET := by decide
  rcases hi with ⟨hinfo, -⟩ | ⟨hinfo, -⟩
  · rw [translate, if_pos hinfo, hinfo]
    rcases hr with ⟨hfam, hlen⟩ | ⟨hfam, hlen⟩
    · have hsin : rp.sinAddr.length = 4 := by simp [AddrInfo.sinAddr, hlen]
      obtain ⟨h1, h2, h3⟩ := InetAddress.ofIn_spec hsin port
      refine ⟨fun _ => hfam, fun _ => ⟨?_, h1.trans hfam.symm, ?_, h3⟩⟩
      · rw [AddrInfo.type, if_pos hfam]
      · rw [h2, AddrInfo.ip, if_pos hfam]
    · refine iff_of_false (fun h => ?_) (by rw [hfam]; exact hne)
      have htype := h.type
      rw [AddrInfo.type, if_neg (by rw [hfam]; exact hne)] at htype
      cases htype
  · rw [translate, if_neg (by rw [hinfo]; exact hne), hinfo]
    rcases hr with ⟨hfam, hlen⟩ | ⟨hfam, hlen⟩
    · refine iff_of_false (fun h => ?_) (by rw [hfam]; exact hne.symm)
      have htype := h.type
      rw [AddrInfo.type, if_pos hfam] at htype
      cases htype
    · have hnot : rp.aiFamily ≠ AF_INET := by
        rw [hfam]
        exact hne
      have hsin : rp.sin6Addr.length = 16 := by simp [AddrInfo.sin6Addr, hlen]
      obtain ⟨h1, h2, h3⟩ := InetAddress.ofIn6_spec hsin port
      refine ⟨fun _ => hfam, fun _ => ⟨?_, h1.trans hfam.symm, ?_, h3⟩⟩
      · rw [AddrInfo.type, if_neg hnot]
      · rw [h2, AddrInfo.ip, if_neg hnot]

theorem getListFrom_matches_iff {info : AddrInfo} (hi : info.WellFormed) (port : BitVec 16)
    {es : List AddrInfo} (hes : ∀ e ∈ es, e.WellFormed) :
    List.Forall₂ (Matches port) es (getListFrom info port es) ↔
      ∀ e ∈ es, e.aiFamily = info.aiFamily := by
  induction es with
  | nil => simp [getListFrom]
  | cons e es ih =>
    have he := translate_matches_iff hi (hes e List.mem_cons_self) port
    rw [getListFrom, List.forall₂_cons, he, ih fun x hx => hes x (List.mem_cons_of_mem e hx),
      List.forall_mem_cons]

/-- **`GetList` translates an answer of one family.** For every answer of the resolver the result
has an element for each entry, with the family and the address of the entry and the given port,
and every entry is read as what it is, if and only if all entries are of the family of the first
one. -/
theorem get_list_iff (env : Resolver) (domainName : String) (port : BitVec 16) (info : AddrInfo)
    (rest : List AddrInfo) (ha : env.answer domainName = some (info :: rest))
    (hwf : ∀ e ∈ info :: rest, e.WellFormed) :
    List.Forall₂ (Matches port) (info :: rest) (env.getList domainName port) ↔
      ∀ e ∈ rest, e.aiFamily = info.aiFamily := by
  have hlist : env.getList domainName port = getListFrom info port (info :: rest) := by
    rw [getList, ha]
  rw [hlist, getListFrom_matches_iff (hwf info List.mem_cons_self) port hwf, List.forall_mem_cons]
  exact ⟨fun h => h.2, fun h => ⟨rfl, h⟩⟩

/-- `127.0.0.1` and `10.0.0.1`, for the name of the host. -/
theorem get_list_iff_ipv4 :
    List.Forall₂ (Matches 9527)
      [⟨AF_INET, [2, 0, 0, 0, 127, 0, 0, 1, 0, 0, 0, 0, 0, 0, 0, 0]⟩,
       ⟨AF_INET, [2, 0, 0, 0, 10, 0, 0, 1, 0, 0, 0, 0, 0, 0, 0, 0]⟩]
      (getList ⟨some "host", fun _ => some
        [⟨AF_INET, [2, 0, 0, 0, 127, 0, 0, 1, 0, 0, 0, 0, 0, 0, 0, 0]⟩,
         ⟨AF_INET, [2, 0, 0, 0, 10, 0, 0, 1, 0, 0, 0, 0, 0, 0, 0, 0]⟩]⟩ "" 9527) :=
  (get_list_iff _ "" 9527 _ _ rfl (by decide)).mpr (by decide)

/-- The answer for a name with both: `::1` and then `127.0.0.1`. The second entry is read as a
`sockaddr_in6`, and what comes out is an address of the family `AF_INET6`. -/
theorem mixed_answer_misread :
    (getList ⟨none, fun _ => some
      [⟨AF_INET6, [10, 0, 0, 0, 0, 0, 0, 0, 0, 0, 0, 0, 0, 0, 0, 0, 0, 0, 0, 0, 0, 0, 0, 1,
        0, 0, 0, 0]⟩,
       ⟨AF_INET, [2, 0, 0, 0, 127, 0, 0, 1, 0, 0, 0, 0, 0, 0, 0, 0]⟩]⟩ "localhost" 0).map
      (fun r => (r.1, r.2.ssFamily)) =
      [(.sockaddrIn6, AF_INET6), (.sockaddrIn6, AF_INET6)] ∧
    ¬ List.Forall₂ (Matches 0)
      [⟨AF_INET6, [10, 0, 0, 0, 0, 0, 0, 0, 0, 0, 0, 0, 0, 0, 0, 0, 0, 0, 0, 0, 0, 0, 0, 1,
        0, 0, 0, 0]⟩,
       ⟨AF_INET, [2, 0, 0, 0, 127, 0, 0, 1, 0, 0, 0, 0, 0, 0, 0, 0]⟩]
      (getList ⟨none, fun _ => some
        [⟨AF_INET6, [10, 0, 0, 0, 0, 0, 0, 0, 0, 0, 0, 0, 0, 0, 0, 0, 0, 0, 0, 0, 0, 0, 0, 1,
          0, 0, 0, 0]⟩,
         ⟨AF_INET, [2, 0, 0, 0, 127, 0, 0, 1, 0, 0, 0, 0, 0, 0, 0, 0]⟩]⟩ "localhost" 0) := by
  refine ⟨by decide +kernel, fun h => ?_⟩
  rcases h with _ | ⟨-, _ | ⟨hbad, -⟩⟩
  exact absurd hbad.type (by decide)

end Resolver

end LinuxNet
