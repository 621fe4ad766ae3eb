import LinuxNet.Lib.BigEndian
import LinuxNet.Buffer.Fifo

/-!
# Typed values through the buffer

A producer appends integers of four widths and strings, a consumer takes them out in the same
order of types, and the two go on in any order as long as the consumer finds enough bytes. The
proof is about the queue the buffer refines: the bytes in the queue, followed by the bytes still
to be appended, are always the bytes of the values that have not been taken out.
-/

namespace LinuxNet

open LinuxNet.Lib

namespace Buffer

/-! ## The bytes of an integer -/

/-- The bytes of an object in memory: the machine has the least significant one first. -/
def objectBytes (n : Nat) (v : BitVec (8 * n)) : List UInt8 :=
  (BigEndian.toBytes n v.toNat).reverse

/-- The object that has the given bytes. -/
def ofObjectBytes (n : Nat) (bytes : List UInt8) : BitVec (8 * n) :=
  BitVec.ofNat (8 * n) (BigEndian.ofBytes bytes.reverse)

/-- What `htobe64` and the other conversions do on such a machine. -/
def swapBytes (n : Nat) (v : BitVec (8 * n)) : BitVec (8 * n) :=
  ofObjectBytes n (objectBytes n v).reverse

theorem pow_bytes (n : Nat) : (2 : Nat) ^ (8 * n) = 256 ^ n := by
  rw [pow_mul]
  rfl

theorem ofNat_toNat {n : Nat} {bytes : List UInt8} (h : bytes.length = n) :
    (BitVec.ofNat (8 * n) (BigEndian.ofBytes bytes)).toNat = BigEndian.ofBytes bytes := by
  rw [BitVec.toNat_ofNat, pow_bytes, Nat.mod_eq_of_lt]
  exact h ▸ BigEndian.ofBytes_lt bytes

/-- A swapped object has its bytes in memory in the order of `htobe`. -/
theorem objectBytes_swapBytes (n : Nat) (v : BitVec (8 * n)) :
    objectBytes n (swapBytes n v) = htobe n v := by
  have hlen : (objectBytes n v).length = n := by simp [objectBytes]
  have hbytes : BigEndian.toBytes n (BigEndian.ofBytes (objectBytes n v)) = objectBytes n v := by
    have h := BigEndian.toBytes_ofBytes (objectBytes n v)
    rwa [hlen] at h
  unfold swapBytes ofObjectBytes
  rw [List.reverse_reverse, objectBytes, ofNat_toNat hlen, hbytes, objectBytes,
    List.reverse_reverse]
  rfl

/-- An object copied from the vector and swapped is what `betoh` says. -/
theorem swapBytes_ofObjectBytes {n : Nat} {bytes : List UInt8} (h : bytes.length = n) :
    swapBytes n (ofObjectBytes n bytes) = betoh n bytes := by
  have hlen : bytes.reverse.length = n := by simpa using h
  have hbytes : BigEndian.toBytes n (BigEndian.ofBytes bytes.reverse) = bytes.reverse := by
    have h := BigEndian.toBytes_ofBytes bytes.reverse
    rwa [hlen] at h
  unfold swapBytes objectBytes
  rw [ofObjectBytes, ofObjectBytes, ofNat_toNat hlen, hbytes, List.reverse_reverse,
    List.reverse_reverse]
  rfl

theorem betoh_htobe (n : Nat) (v : BitVec (8 * n)) : betoh n (htobe n v) = v := by
  have hval : BigEndian.ofBytes (htobe n v) = v.toNat % 256 ^ n :=
    BigEndian.ofBytes_toBytes n v.toNat
  have hlt : v.toNat < 256 ^ n := by
    rw [← pow_bytes]
    exact v.isLt
  apply BitVec.eq_of_toNat_eq
  change (BitVec.ofNat (8 * n) (BigEndian.ofBytes (htobe n v))).toNat = v.toNat
  rw [hval, Nat.mod_eq_of_lt hlt, BitVec.ofNat_toNat, BitVec.setWidth_eq]

/-- The `n` bytes of a signed number in two's complement, the most significant one first. -/
def bigEndian (n : Nat) (z : Int) : List UInt8 := BigEndian.toBytes n (z % 256 ^ n).toNat

theorem htobe_eq_bigEndian (n : Nat) (v : BitVec (8 * n)) : htobe n v = bigEndian n v.toInt := by
  have hmod : (v.toInt % 256 ^ n).toNat = v.toNat := by
    have hpow : ((2 ^ (8 * n) : Nat) : Int) = 256 ^ n := by
      rw [pow_bytes]
      push_cast
      rfl
    rw [← hpow, BitVec.toInt_eq_toNat_bmod, Int.bmod_emod, ← Int.natCast_emod, Int.toNat_natCast,
      Nat.mod_eq_of_lt v.isLt]
  rw [bigEndian, hmod]
  rfl

/-! ## Producer and consumer -/

/-- What is sent through the buffer. -/
inductive Value where
  | int (w : Width) (v : BitVec (8 * w.bytes))
  | string (dat : List UInt8)

/-- What the consumer has to know of a value in advance. -/
inductive Kind where
  | int (w : Width)
  | string (len : Nat)
  deriving DecidableEq, Repr

namespace Value

def kind : Value → Kind
  | .int w _ => .int w
  | .string dat => .string dat.length

/-- The bytes on the wire. -/
def wire : Value → List UInt8
  | .int w v => bigEndian w.bytes v.toInt
  | .string dat => dat

/-- `AppendInt64` to `AppendInt8`, or `Append`. -/
def appendOp : Value → Op
  | .int w v => .appendInt w v
  | .string dat => .append dat

end Value

/-- How the consumer takes a value out: by `ReadInt64` to `ReadInt8`, by a `PeekInt` and the
`RetrieveInt` of the same width, or by `RetrieveAsString`. -/
inductive Reader where
  | readInt (w : Width)
  | peekInt (w : Width)
  | string (len : Nat)
  deriving DecidableEq, Repr

namespace Reader

def kind : Reader → Kind
  | .readInt w | .peekInt w => .int w
  | .string len => .string len

def ops : Reader → List Op
  | .readInt w => [.readInt w]
  | .peekInt w => [.peekInt w, .retrieveInt w]
  | .string len => [.retrieveAsString len]

end Reader

def isAppend : Op → Bool
  | .append _ | .appendInt _ _ => true
  | _ => false

/-- The value a call returns. -/
def Out.value? : Out → Option Value
  | .int w v => some (.int w v)
  | .string dat => some (.string dat)
  | _ => .none

/-- The values the calls have returned. -/
def values (outs : List Out) : List Value := outs.filterMap Out.value?

theorem values_snoc (outs : List Out) (out : Out) :
    values (outs ++ [out]) = values outs ++ out.value?.toList := by
  unfold values
  rw [List.filterMap_append]
  cases h : out.value? <;> simp [h]

/-- Both sides go on as they like: the calls of the producer and those of the consumer, each in
their order. -/
structure Interleaves (ops : List Op) (vs : List Value) (calls : List Op) : Prop where
  produced : ops.filter isAppend = vs.map Value.appendOp
  consumed : ops.filter (fun op => !isAppend op) = calls

end Buffer

/-! ## The queue -/

namespace Fifo

open Buffer

/-- The number of bytes of a value of the kind. -/
def size : Kind → Nat
  | .int w => w.bytes
  | .string len => len

theorem length_wire (v : Value) : v.wire.length = size v.kind := by
  cases v with
  | int w v => exact BigEndian.length_toBytes _ _
  | string dat => rfl

theorem exec_appendOp (q : List UInt8) (v : Value) :
    Fifo.exec q v.appendOp = some (.none, q ++ v.wire) := by
  cases v with
  | int w v =>
    simp only [Value.appendOp, Fifo.exec, Value.wire]
    rw [htobe_eq_bigEndian]
  | string dat => rfl

/-- The bytes of the queue and of what is still to be appended are those of the values that
have not been taken out. -/
def Holds (q : List UInt8) (vs rem : List Value) : Prop :=
  q ++ vs.flatMap Value.wire = rem.flatMap Value.wire

theorem Holds.append {q : List UInt8} {v : Value} {vs rem : List Value}
    (h : Holds q (v :: vs) rem) : Holds (q ++ v.wire) vs rem := by
  unfold Holds at h ⊢
  rw [← h, List.flatMap_cons, List.append_assoc]

/-- The next value is at the front of the queue. -/
theorem Holds.front {q : List UInt8} {v : Value} {vs rem : List Value}
    (h : Holds q vs (v :: rem)) (hlen : size v.kind ≤ q.length) :
    q.take (size v.kind) = v.wire ∧ Holds (q.drop (size v.kind)) vs rem := by
  unfold Holds at h ⊢
  rw [List.flatMap_cons] at h
  have hsplit : q.take (size v.kind) ++ (q.drop (size v.kind) ++ vs.flatMap Value.wire) =
      v.wire ++ rem.flatMap Value.wire := by
    rw [← List.append_assoc, List.take_append_drop]
    exact h
  refine List.append_inj hsplit ?_
  rw [List.length_take, Nat.min_eq_left hlen, length_wire]

/-- What the consumer gets for the bytes of an integer. -/
theorem betoh_wire (w : Width) (v : BitVec (8 * w.bytes)) :
    betoh w.bytes (Value.int w v).wire = v := by
  rw [Value.wire, ← htobe_eq_bigEndian, betoh_htobe]

/-- A call that takes a value of the next kind out gets the bytes of the next value. -/
theorem Holds.get {q : List UInt8} {vs rem : List Value} (h : Holds q vs rem) {k : Kind}
    {ks : List Kind} (hk : k :: ks <+: rem.map Value.kind) {out : List UInt8 → Out}
    {r : Out × List UInt8} (hget : get q (size k) out = some r) :
    ∃ v rest, rem = v :: rest ∧ v.kind = k ∧ r.1 = out v.wire ∧ Holds r.2 vs rest ∧
      ks <+: rest.map Value.kind := by
  cases rem with
  | nil => simp at hk
  | cons v rest =>
    rw [List.map_cons, List.cons_prefix_cons] at hk
    obtain ⟨rfl, hks⟩ := hk
    unfold Fifo.get at hget
    split at hget
    · rename_i hlen
      obtain ⟨hfront, hdrop⟩ := h.front hlen
      cases hget
      exact ⟨v, rest, rfl, rfl, by rw [hfront], hdrop, hks⟩
    · cases hget

/-- The consumer is between a `PeekInt` and its `RetrieveInt` if `half` says so. -/
def calls (half : Option Width) (rs : List Reader) : List Op :=
  half.toList.map Op.retrieveInt ++ rs.flatMap Reader.ops

def kinds (half : Option Width) (rs : List Reader) : List Kind :=
  half.toList.map Kind.int ++ rs.map Reader.kind

theorem step_eq {q : List UInt8} {o : List Out} {op : Op} {m : List UInt8 × List Out}
    (h : Fifo.step (q, o) op = some m) :
    ∃ r, Fifo.exec q op = some r ∧ m = (r.2, o ++ [r.1]) := by
  obtain ⟨r, hr, heq⟩ := Option.map_eq_some_iff.mp h
  exact ⟨r, hr, heq.symm⟩

/-- What a call of the consumer does: it gets the next value, or it has looked at it already. -/
structure Consumed (half : Option Width) (rs : List Reader) (vs rem : List Value)
    (r : Out × List UInt8) (cs : List Op) (half' : Option Width) (rs' : List Reader)
    (rem' : List Value) : Prop where
  calls : cs = Fifo.calls half' rs'
  kinds : Fifo.kinds half' rs' <+: rem'.map Value.kind
  holds : Holds r.2 vs rem'
  values : r.1.value?.toList ++ (rem'.drop half'.toList.length).take rs'.length =
    (rem.drop half.toList.length).take rs.length
  left : rem'.drop (half'.toList.length + rs'.length) =
    rem.drop (half.toList.length + rs.length)

/-- The `RetrieveInt` behind a `PeekInt`. -/
theorem retrieveInt_consumed {w : Width} {rs : List Reader} {vs rem : List Value} {q : List UInt8}
    {r : Out × List UInt8} (hk : kinds (some w) rs <+: rem.map Value.kind) (hq : Holds q vs rem)
    (hexec : Fifo.exec q (.retrieveInt w) = some r) :
    ∃ rem', Consumed (some w) rs vs rem r (rs.flatMap Reader.ops) none rs rem' := by
  have hget : Fifo.get q (size (.int w)) (fun _ => .none) = some r := hexec
  obtain ⟨v, rest, rfl, _, hout, hq', hk'⟩ := hq.get hk hget
  refine ⟨rest, rfl, hk', hq', ?_, ?_⟩
  · simp [hout, Out.value?]
  · simp [Nat.add_comm 1]

/-- The first call of a reader. -/
theorem reader_consumed {reader : Reader} {rs : List Reader} {vs rem : List Value}
    {q : List UInt8} {op : Op} {cs : List Op} {r : Out × List UInt8}
    (hcs : op :: cs = (reader :: rs).flatMap Reader.ops)
    (hk : kinds none (reader :: rs) <+: rem.map Value.kind) (hq : Holds q vs rem)
    (hexec : Fifo.exec q op = some r) :
    ∃ half' rem', Consumed none (reader :: rs) vs rem r cs half' rs rem' := by
  cases reader with
  | readInt w =>
    simp only [Reader.ops, List.flatMap_cons, List.cons_append, List.nil_append,
      List.cons.injEq] at hcs
    obtain ⟨rfl, hcs⟩ := hcs
    have hget : Fifo.get q (size (.int w)) (fun x => .int w (betoh w.bytes x)) = some r := hexec
    obtain ⟨v, rest, rfl, hkind, hout, hq', hk'⟩ := hq.get hk hget
    refine ⟨none, rest, hcs, hk', hq', ?_, by simp⟩
    cases v with
    | string dat => cases hkind
    | int w' v =>
      cases hkind
      simp [hout, betoh_wire, Out.value?]
  | peekInt w =>
    simp only [Reader.ops, List.flatMap_cons, List.cons_append, List.nil_append,
      List.cons.injEq] at hcs
    obtain ⟨rfl, hcs⟩ := hcs
    obtain ⟨r', hget, rfl⟩ := Option.map_eq_some_iff.mp hexec
    obtain ⟨v, rest, rfl, hkind, hout, _, _⟩ := hq.get (k := .int w) hk hget
    refine ⟨some w, _, hcs, hk, hq, ?_, by simp [Nat.add_comm 1]⟩
    cases v with
    | string dat => cases hkind
    | int w' v =>
      cases hkind
      simp [hout, betoh_wire, Out.value?]
  | string len =>
    simp only [Reader.ops, List.flatMap_cons, List.cons_append, List.nil_append,
      List.cons.injEq] at hcs
    obtain ⟨rfl, hcs⟩ := hcs
    have hget : Fifo.get q (size (.string len)) .string = some r := hexec
    obtain ⟨v, rest, rfl, hkind, hout, hq', hk'⟩ := hq.get hk hget
    refine ⟨none, rest, hcs, hk', hq', ?_, by simp⟩
    cases v with
    | int w v => cases hkind
    | string dat => simp [hout, Out.value?, Value.wire]

theorem step_consumed {half : Option Width} {rs : List Reader} {vs rem : List Value}
    {q : List UInt8} {op : Op} {cs : List Op} {r : Out × List UInt8}
    (hcs : op :: cs = calls half rs) (hk : kinds half rs <+: rem.map Value.kind)
    (hq : Holds q vs rem) (hexec : Fifo.exec q op = some r) :
    ∃ half' rs' rem', Consumed half rs vs rem r cs half' rs' rem' := by
  cases half with
  | some w =>
    simp only [calls, Option.toList_some, List.map_cons, List.map_nil, List.cons_append,
      List.nil_append, List.cons.injEq] at hcs
    obtain ⟨rfl, rfl⟩ := hcs
    obtain ⟨rem', h⟩ := retrieveInt_consumed hk hq hexec
    exact ⟨none, rs, rem', h⟩
  | none =>
    cases rs with
    | nil => cases hcs
    | cons reader rs =>
      obtain ⟨half', rem', h⟩ := reader_consumed hcs hk hq hexec
      exact ⟨half', rs, rem', h⟩

theorem run_framed {ops : List Op} {vs rem : List Value} (half : Option Width) {rs : List Reader}
    {q q' : List UInt8} {o outs : List Out} (hi : Interleaves ops vs (calls half rs))
    (hk : kinds half rs <+: rem.map Value.kind) (hq : Holds q vs rem)
    (hr : Machine.run Fifo.step (q, o) ops = some (q', outs)) :
    values outs = values o ++ (rem.drop half.toList.length).take rs.length ∧
    q' = (rem.drop (half.toList.length + rs.length)).flatMap Value.wire := by
  induction ops generalizing vs rem half rs q o with
  | nil =>
    obtain ⟨hvs, hcs⟩ := hi
    obtain rfl : vs = [] := by simpa using hvs
    have hhalf : half = none := by
      cases half with
      | none => rfl
      | some w => simp [calls] at hcs
    subst hhalf
    have hrs : rs = [] := by
      cases rs with
      | nil => rfl
      | cons r rs => cases r <;> simp [calls, Reader.ops] at hcs
    subst hrs
    simp only [Machine.run_nil, Option.some.injEq, Prod.mk.injEq] at hr
    obtain ⟨rfl, rfl⟩ := hr
    simpa [Holds] using hq
  | cons op ops ih =>
    obtain ⟨m, hm, hrest⟩ := Machine.run_cons_iff.mp hr
    obtain ⟨r, hexec, rfl⟩ := step_eq hm
    obtain ⟨hvs, hcs⟩ := hi
    by_cases happ : isAppend op = true
    · rw [List.filter_cons_of_pos happ] at hvs
      rw [List.filter_cons_of_neg (by simp [happ])] at hcs
      obtain ⟨v, vs', rfl, rfl, hvs'⟩ := List.map_eq_cons_iff.mp hvs.symm
      rw [exec_appendOp] at hexec
      cases hexec
      have hlater := ih half ⟨hvs'.symm, hcs⟩ hk hq.append hrest
      simpa [values_snoc, Out.value?] using hlater
    · rw [List.filter_cons_of_neg happ] at hvs
      rw [List.filter_cons_of_pos (by simpa using happ)] at hcs
      obtain ⟨half', rs', rem', hc⟩ := step_consumed hcs hk hq hexec
      have hlater := ih half' ⟨hvs, hc.calls⟩ hc.kinds hc.holds hrest
      rw [values_snoc, List.append_assoc, hc.values, hc.left] at hlater
      exact hlater

end Fifo

/-! ## The buffer -/

namespace Buffer

/-- **What is appended is what is read.** Wherever the indices of the buffer stand, with the
values `ps` in it, the values `vs` are appended and values are taken out, by calls that are
interleaved in any way. If the calls that read ask for the types in the order in which they were
appended, and never for more than is readable, they return the values in that order; and the
bytes in the buffer are the big-endian bytes of the values that are left. -/
theorem framing_round_trip (b b' : Buffer) (h : b.Inv) (ps vs : List Value) (rs : List Reader)
    (ops : List Op) (outs : List Out) (hc : b.contents = ps.flatMap Value.wire)
    (hi : Interleaves ops vs (rs.flatMap Reader.ops))
    (hk : rs.map Reader.kind <+: (ps ++ vs).map Value.kind)
    (hr : Machine.run step (b, []) ops = some (b', outs)) :
    values outs = (ps ++ vs).take rs.length ∧
    b'.contents = ((ps ++ vs).drop rs.length).flatMap Value.wire ∧ b'.asserts = [] := by
  obtain ⟨hinv, hfifo⟩ := run_refines h hr
  have hold : Fifo.Holds b.contents vs (ps ++ vs) := by
    rw [Fifo.Holds, hc, List.flatMap_append]
  have hframed := Fifo.run_framed none hi hk hold hfifo
  refine ⟨?_, ?_, hinv.noAssert⟩
  · simpa [values] using hframed.1
  · simpa using hframed.2

/-- A string is in the buffer, at the index 2. An integer is appended before the string is read,
and read by `PeekInt32` and `RetrieveInt32` with another one appended in between. -/
theorem framing_round_trip_negative : ∃ b' outs,
    Machine.run step ((Buffer.new.append [1, 2, 3]).retrieve 2, [])
      [.appendInt .int32 (BitVec.ofInt 32 (-2)), .retrieveAsString 1, .peekInt .int32,
       .appendInt .int8 (BitVec.ofInt 8 (-128)), .retrieveInt .int32, .readInt .int8] =
      some (b', outs) ∧
    values outs = [.string [3], .int .int32 (BitVec.ofInt 32 (-2)),
      .int .int8 (BitVec.ofInt 8 (-128))] := by
  have hsome : (Machine.run step ((Buffer.new.append [1, 2, 3]).retrieve 2, [])
      [.appendInt .int32 (BitVec.ofInt 32 (-2)), .retrieveAsString 1, .peekInt .int32,
       .appendInt .int8 (BitVec.ofInt 8 (-128)), .retrieveInt .int32, .readInt .int8]).isSome =
      true := by
    decide +kernel
  obtain ⟨⟨b', outs⟩, hr⟩ := Option.isSome_iff_exists.mp hsome
  obtain ⟨hinv, hc⟩ := append_spec inv_new [1, 2, 3]
  have hlen : 2 ≤ (Buffer.new.append [1, 2, 3]).readableBytes := by
    rw [← hinv.length_contents, hc, contents_new]
    decide
  obtain ⟨hinv', hc'⟩ := retrieve_spec hinv hlen
  refine ⟨b', outs, hr, ?_⟩
  refine (framing_round_trip _ b' hinv' [.string [3]] [.int .int32 (BitVec.ofInt 32 (-2)),
    .int .int8 (BitVec.ofInt 8 (-128))] [.string 1, .peekInt .int32, .readInt .int8] _ outs ?_
    ⟨rfl, rfl⟩ ?_ hr).1
  · rw [hc', hc, contents_new]
    rfl
  · exact List.prefix_refl _

end Buffer

end LinuxNet
