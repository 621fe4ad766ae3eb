import LinuxNet.Address.Equality
import Mathlib.Data.List.TakeWhile

/-!
# Addresses as text

The constructor of `InetAddress` from a string, and `Ip`. The family is AF_INET6 if there is a
colon in the string; the rest is left to `inet_pton` and `inet_ntop`, which are parameters here.

`inet_pton` answers 1 for a literal, 0 for any other string and -1 for a family it does not know.
The constructor takes only a negative answer for an error, and the families it passes are known, so
no string is ever rejected: what is not a literal becomes the address 0 of the guessed family.
-/

namespace LinuxNet

set_option autoImplicit false

open LinuxNet.Lib LinuxNet.Lib.Window

/-- What a C function reads of `s.c_str()`. -/
def cStr (s : List UInt8) : List UInt8 := s.takeWhile (· != 0)

/-- `':'`. -/
def kColon : UInt8 := 58

/-- The functions of `arpa/inet.h`: `literal af src` is the address that the C string `src` stands
for as a literal of the family, if it is one. -/
structure TextForms where
  literal : Nat → List UInt8 → Option (List UInt8)
  inetNtop : Nat → List UInt8 → List UInt8

namespace TextForms

/-- `inet_pton(af, src, dst)` for a `dst` inside the storage: the result, and the storage after
the call. -/
def inetPton (env : TextForms) (af : Nat) (src : List UInt8) (a : InetAddress) (dst : Nat) :
    Int × InetAddress :=
  if af = AF_INET ∨ af = AF_INET6 then
    match env.literal af src with
    | some ip => (1, a.set dst ip)
    | none => (0, a)
  else (-1, a)

/-- What is known of the literals of the two families. -/
structure Documented (env : TextForms) : Prop where
  length_v4 : ∀ src ip, env.literal AF_INET src = some ip → ip.length = 4
  length_v6 : ∀ src ip, env.literal AF_INET6 src = some ip → ip.length = 16
  no_colon_v4 : ∀ src ip, env.literal AF_INET src = some ip → kColon ∉ src
  colon_v6 : ∀ src ip, env.literal AF_INET6 src = some ip → kColon ∈ src
  no_nul : ∀ af src ip, env.literal af src = some ip → 0 ∉ src

/-- The string is an IPv4 or an IPv6 literal. -/
def IsLiteral (env : TextForms) (s : List UInt8) : Prop :=
  (env.literal AF_INET s).isSome ∨ (env.literal AF_INET6 s).isSome

end TextForms

namespace InetAddress

/-- `INVALID_ADDR`. -/
def INVALID_ADDR : InetAddress := zero

/-- A branch of the constructor from a string. -/
def ofTextAs (env : TextForms) (family offset : Nat) (ip : List UInt8) (port : BitVec 16) :
    InetAddress :=
  let a := (zero.set 0 (hostBytes family)).set 2 (BigEndian.toBytes 2 port.toNat)
  let (error, a) := env.inetPton family (cStr ip) a offset
  if 0 > error then INVALID_ADDR else a

/-- `InetAddress(const std::string& ip, short port)`. -/
def ofText (env : TextForms) (ip : List UInt8) (port : BitVec 16) : InetAddress :=
  if kColon ∉ ip then ofTextAs env AF_INET 4 ip port else ofTextAs env AF_INET6 8 ip port

/-- The family that `Ip` prints the address as. -/
def textFamily (a : InetAddress) : Nat := if a.ssFamily = AF_INET then AF_INET else AF_INET6

/-- `Ip`. -/
def ipText (env : TextForms) (a : InetAddress) : List UInt8 :=
  cStr (env.inetNtop a.textFamily a.ip)

/-- What the constructor should make of a string: `INVALID_ADDR` if it is no literal, and otherwise
the address it stands for, with the port. -/
structure ParsedOrRejected (env : TextForms) (s : List UInt8) (p : BitVec 16) : Prop where
  rejected : (ofText env s p).operatorEq INVALID_ADDR = true ↔ ¬ env.IsLiteral s
  v4 : ∀ ip, env.literal AF_INET s = some ip →
    (ofText env s p).ssFamily = AF_INET ∧ (ofText env s p).ip = ip ∧ (ofText env s p).port = p
  v6 : ∀ ip, env.literal AF_INET6 s = some ip →
    (ofText env s p).ssFamily = AF_INET6 ∧ (ofText env s p).ip = ip ∧ (ofText env s p).port = p

/-! ## The two branches -/

theorem cStr_eq_self {s : List UInt8} (h : 0 ∉ s) : cStr s = s := by
  rw [cStr, List.takeWhile_eq_self_iff]
  intro x hx
  have hne : x ≠ 0 := by
    rintro rfl
    exact h hx
  simpa using hne

variable {env : TextForms} {s : List UInt8}

/-- `inet_pton` knows the families it is given, so its answer is never negative: the address is
filled in for a literal, and left as it is for any other string. -/
theorem ofTextAs_eq {family : Nat} (h : family = AF_INET ∨ family = AF_INET6) (offset : Nat)
    (s : List UInt8) (p : BitVec 16) :
    ofTextAs env family offset s p =
      ((zero.set 0 (hostBytes family)).set 2 (BigEndian.toBytes 2 p.toNat)).set offset
        ((env.literal family (cStr s)).getD []) := by
  unfold ofTextAs TextForms.inetPton
  dsimp only
  rw [if_pos h]
  cases env.literal family (cStr s) with
  | none => simp [set, overwrite]
  | some ip => simp

/-- The length of what `inet_pton` fills in. -/
theorem length_filled (hdoc : env.Documented) (s : List UInt8) :
    ((env.literal AF_INET s).getD []).length ≤ 4 ∧
      ((env.literal AF_INET6 s).getD []).length ≤ 16 := by
  constructor
  · cases h : env.literal AF_INET s with
    | none => simp
    | some ip => simp [hdoc.length_v4 s ip h]
  · cases h : env.literal AF_INET6 s with
    | none => simp
    | some ip => simp [hdoc.length_v6 s ip h]

/-- A storage with a family in it is not `INVALID_ADDR`. -/
theorem operatorEq_invalid_eq_false {family port rawIp : List UInt8} {offset : Nat}
    (hf : family.length = 2) (hp : port.length = 2) (ho : 4 ≤ offset)
    (hi : offset + rawIp.length ≤ kStorageSize) (hne : family ≠ [0, 0]) :
    (((zero.set 0 family).set 2 port).set offset rawIp).operatorEq INVALID_ADDR = false := by
  obtain ⟨hfam, -, -⟩ := window_fields family port rawIp hf hp ho hi
  have hlen := length_set_port hf hp
  have hsize : (((zero.set 0 family).set 2 port).set offset rawIp).address.length =
      kStorageSize := by
    rw [set, length_overwrite _ (by rw [hlen]; exact hi), hlen]
  have hinvalid : INVALID_ADDR.address.length = kStorageSize := List.length_replicate
  have hle : kSockaddrInSize ≤ kStorageSize := by decide
  rw [Bool.eq_false_iff]
  intro heq
  rw [operatorEq_iff (by rw [hsize]; exact hle) (by rw [hinvalid]; exact hle)] at heq
  apply hne
  rw [← hfam, ← window_take _ (by decide : 2 ≤ kSockaddrInSize), heq]
  decide

/-- The constructor from a string never builds `INVALID_ADDR`. -/
theorem operatorEq_ofText_invalid (hdoc : env.Documented) (s : List UInt8) (p : BitVec 16) :
    (ofText env s p).operatorEq INVALID_ADDR = false := by
  obtain ⟨h4, h6⟩ := length_filled hdoc (cStr s)
  have hstore : kStorageSize = 128 := rfl
  unfold ofText
  split
  · rw [ofTextAs_eq (.inl rfl)]
    exact operatorEq_invalid_eq_false (by decide) (by simp) (by decide) (by omega) (by decide)
  · rw [ofTextAs_eq (.inr rfl)]
    exact operatorEq_invalid_eq_false (by decide) (by simp) (by decide) (by omega) (by decide)

theorem ofText_v4 (hdoc : env.Documented) {s ip : List UInt8} (p : BitVec 16)
    (h : env.literal AF_INET s = some ip) : ofText env s p = ofIn ip p := by
  rw [ofText, if_pos (hdoc.no_colon_v4 s ip h), ofTextAs_eq (.inl rfl),
    cStr_eq_self (hdoc.no_nul _ s ip h), h]
  rfl

theorem ofText_v6 (hdoc : env.Documented) {s ip : List UInt8} (p : BitVec 16)
    (h : env.literal AF_INET6 s = some ip) : ofText env s p = ofIn6 ip p := by
  rw [ofText, if_neg (not_not.mpr (hdoc.colon_v6 s ip h)), ofTextAs_eq (.inr rfl),
    cStr_eq_self (hdoc.no_nul _ s ip h), h]
  rfl

/-! ## Strings that are parsed -/

theorem parsedOrRejected_iff (hdoc : env.Documented) (s : List UInt8) (p : BitVec 16) :
    ParsedOrRejected env s p ↔ env.IsLiteral s := by
  have hvalid := operatorEq_ofText_invalid hdoc s p
  constructor
  · intro h
    by_contra hnot
    rw [h.rejected.mpr hnot] at hvalid
    exact absurd hvalid (by decide)
  · intro hlit
    refine ⟨?_, ?_, ?_⟩
    · rw [hvalid]
      exact iff_of_false (by decide) (not_not.mpr hlit)
    · intro ip hip
      rw [ofText_v4 hdoc p hip]
      exact ofIn_spec (hdoc.length_v4 s ip hip) p
    · intro ip hip
      rw [ofText_v6 hdoc p hip]
      exact ofIn6_spec (hdoc.length_v6 s ip hip) p

/-- The text of an address is read as the family that `Ip` printed. -/
theorem ofText_ipText (hdoc : env.Documented) {a : InetAddress} (p : BitVec 16)
    (hread : env.literal a.textFamily (env.inetNtop a.textFamily a.ip) = some a.ip) :
    ofText env (a.ipText env) p =
      if a.ssFamily = AF_INET then ofIn a.ip p else ofIn6 a.ip p := by
  rw [ipText, cStr_eq_self (hdoc.no_nul _ _ _ hread)]
  unfold textFamily at hread ⊢
  split
  · rename_i hfam
    rw [if_pos hfam] at hread
    exact ofText_v4 hdoc p hread
  · rename_i hfam
    rw [if_neg hfam] at hread
    exact ofText_v6 hdoc p hread

/-- A storage that a constructor builds has the fields of its endpoint. -/
theorem fields_address (e : Endpoint) :
    e.address.ssFamily = e.family ∧ e.address.ip = e.ip ∧ e.address.port = e.port := by
  rcases e.wellFormed with ⟨hf, hl⟩ | ⟨hf, hl⟩
  · rw [Endpoint.address, if_pos hf, hf]
    exact ofIn_spec hl e.port
  · rw [Endpoint.address, if_neg (by rw [hf]; decide), hf]
    exact ofIn6_spec hl e.port

/-- What comes back is the address itself if it was built from an IP address and a port, and only
then: anything else in the storage is lost. -/
theorem reproduced_iff (hdoc : env.Documented) {a : InetAddress}
    (hsize : a.address.length = kStorageSize)
    (hread : env.literal a.textFamily (env.inetNtop a.textFamily a.ip) = some a.ip) :
    ofText env (a.ipText env) a.port = a ↔ ∃ e : Endpoint, a = e.address := by
  have hstore : kStorageSize = 128 := rfl
  rw [ofText_ipText hdoc a.port hread]
  constructor
  · intro h
    by_cases hfam : a.ssFamily = AF_INET
    · have hlen : a.ip.length = 4 := by
        rw [ip, if_pos hfam, length_window]
        omega
      refine ⟨⟨AF_INET, a.ip, a.port, .inl ⟨rfl, hlen⟩⟩, ?_⟩
      rw [if_pos hfam] at h
      exact h.symm
    · have hlen : a.ip.length = 16 := by
        rw [ip, if_neg hfam, length_window]
        omega
      refine ⟨⟨AF_INET6, a.ip, a.port, .inr ⟨rfl, hlen⟩⟩, ?_⟩
      rw [if_neg hfam] at h
      exact h.symm
  · rintro ⟨e, rfl⟩
    obtain ⟨hf, hi, hp⟩ := fields_address e
    rw [hf, hi, hp]
    rfl

/-- **Which texts are parsed or rejected.** For every string and port the constructor gives
`INVALID_ADDR` for what is no literal and the family, the address and the port for a literal, if
and only if the string is a literal: no other string is rejected. For every storage whose address
`inet_pton` reads back from its text, `InetAddress(a.Ip(), a.port())` reproduces `a` if and only if
`a` was built from an IPv4 or IPv6 address and a port. -/
theorem text_parsed_iff (env : TextForms) (hdoc : env.Documented) :
    (∀ (s : List UInt8) (p : BitVec 16), ParsedOrRejected env s p ↔ env.IsLiteral s) ∧
    ∀ a : InetAddress, a.address.length = kStorageSize →
      env.literal a.textFamily (env.inetNtop a.textFamily a.ip) = some a.ip →
      (ofText env (a.ipText env) a.port = a ↔ ∃ e : Endpoint, a = e.address) := by
  constructor
  · intro s p
    exact parsedOrRejected_iff hdoc s p
  · intro a hsize hread
    exact reproduced_iff hdoc hsize hread

/-- `192.168.0.1` and `fe80::1`, with the family and the address. -/
def sampleLiterals : List (Nat × List UInt8 × List UInt8) :=
  [(AF_INET, [49, 57, 50, 46, 49, 54, 56, 46, 48, 46, 49], [192, 168, 0, 1]),
   (AF_INET6, [102, 101, 56, 48, 58, 58, 49], [254, 128, 0, 0, 0, 0, 0, 0, 0, 0, 0, 0, 0, 0, 0, 1])]

/-- `inet_pton` and `inet_ntop` for these literals. -/
def sampleForms : TextForms where
  literal af src := (sampleLiterals.find? fun e => e.1 = af ∧ e.2.1 = src).map (·.2.2)
  inetNtop af ip := ((sampleLiterals.find? fun e => e.1 = af ∧ e.2.2 = ip).map (·.2.1)).getD []

theorem sampleForms_literal {af : Nat} {src ip : List UInt8}
    (h : sampleForms.literal af src = some ip) : (af, src, ip) ∈ sampleLiterals := by
  obtain ⟨e, he, rfl⟩ := Option.map_eq_some_iff.mp h
  have hkey := List.find?_some he
  simp only [decide_eq_true_eq] at hkey
  obtain ⟨rfl, rfl⟩ := hkey
  exact List.mem_of_find?_eq_some he

theorem sampleForms_documented : sampleForms.Documented := by
  have hall : ∀ e ∈ sampleLiterals, (e.1 = AF_INET → e.2.2.length = 4 ∧ kColon ∉ e.2.1) ∧
      (e.1 = AF_INET6 → e.2.2.length = 16 ∧ kColon ∈ e.2.1) ∧ 0 ∉ e.2.1 := by decide
  refine ⟨?_, ?_, ?_, ?_, ?_⟩
  · intro src ip h
    exact ((hall _ (sampleForms_literal h)).1 rfl).1
  · intro src ip h
    exact ((hall _ (sampleForms_literal h)).2.1 rfl).1
  · intro src ip h
    exact ((hall _ (sampleForms_literal h)).1 rfl).2
  · intro src ip h
    exact ((hall _ (sampleForms_literal h)).2.1 rfl).2
  · intro af src ip h
    exact (hall _ (sampleForms_literal h)).2.2

/-- Both literals are parsed, and the address `fe80::1` with a port comes back from its text. -/
theorem text_parsed_iff_literals :
    ParsedOrRejected sampleForms [49, 57, 50, 46, 49, 54, 56, 46, 48, 46, 49] 9527 ∧
    ParsedOrRejected sampleForms [102, 101, 56, 48, 58, 58, 49] 9527 ∧
    ofText sampleForms
        ((ofIn6 [254, 128, 0, 0, 0, 0, 0, 0, 0, 0, 0, 0, 0, 0, 0, 1] 9527).ipText sampleForms)
        (ofIn6 [254, 128, 0, 0, 0, 0, 0, 0, 0, 0, 0, 0, 0, 0, 0, 1] 9527).port =
      ofIn6 [254, 128, 0, 0, 0, 0, 0, 0, 0, 0, 0, 0, 0, 0, 0, 1] 9527 := by
  obtain ⟨hparsed, hback⟩ := text_parsed_iff sampleForms sampleForms_documented
  refine ⟨(hparsed _ _).mpr (.inl (by decide)), (hparsed _ _).mpr (.inr (by decide)), ?_⟩
  refine (hback _ (by decide +kernel) (by decide +kernel)).mpr ?_
  exact ⟨⟨AF_INET6, [254, 128, 0, 0, 0, 0, 0, 0, 0, 0, 0, 0, 0, 0, 0, 1], 9527, by decide⟩, rfl⟩

/-- `300.1.1.1` is no literal of either family. It becomes `0.0.0.0` with the port. -/
theorem not_a_literal_accepted :
    ¬ sampleForms.IsLiteral [51, 48, 48, 46, 49, 46, 49, 46, 49] ∧
    (ofText sampleForms [51, 48, 48, 46, 49, 46, 49, 46, 49] 9527).operatorEq INVALID_ADDR =
      false ∧
    (ofText sampleForms [51, 48, 48, 46, 49, 46, 49, 46, 49] 9527).ssFamily = AF_INET ∧
    ¬ ParsedOrRejected sampleForms [51, 48, 48, 46, 49, 46, 49, 46, 49] 9527 := by
  have hnot : ¬ sampleForms.IsLiteral [51, 48, 48, 46, 49, 46, 49, 46, 49] := by
    rintro (h | h) <;> exact absurd h (by decide)
  have hvalid : (ofText sampleForms [51, 48, 48, 46, 49, 46, 49, 46, 49] 9527).operatorEq
      INVALID_ADDR = false := by decide +kernel
  refine ⟨hnot, hvalid, by decide +kernel, fun h => ?_⟩
  rw [h.rejected.mpr hnot] at hvalid
  exact absurd hvalid (by decide)

end InetAddress

end LinuxNet
