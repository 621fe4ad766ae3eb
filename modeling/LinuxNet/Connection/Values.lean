import LinuxNet.Buffer.Framing
import LinuxNet.Connection.Link

/-!
# Typed values, end to end

The user of one end appends integers and strings to a `Buffer` and sends what is in it, message
by message. The user of the other end reads values out of `buffer_input_` whenever there are
enough bytes. Neither the cuts between the messages nor those of the kernels show: as long as the
types are asked for in the order in which they were sent, the values read are those sent.
-/

namespace LinuxNet

set_option autoImplicit false

open LinuxNet.Lib

namespace Buffer

open Fifo (size length_wire betoh_wire)

/-! ## What is sent for a list of values -/

/-- The message for a list of values. -/
def encode (vs : List Value) : List UInt8 :=
  (vs.foldl (fun b v => (b.exec v.appendOp).2) Buffer.new).contents

theorem append_value {b : Buffer} (h : b.Inv) (v : Value) :
    (b.exec v.appendOp).2.Inv ∧ (b.exec v.appendOp).2.contents = b.contents ++ v.wire := by
  have hpre : b.pre v.appendOp = true := by cases v <;> rfl
  obtain ⟨hinv, hexec⟩ := exec_spec h hpre
  rw [Fifo.exec_appendOp, Option.some.injEq] at hexec
  exact ⟨hinv, (congrArg Prod.snd hexec).symm⟩

theorem append_values {b : Buffer} (h : b.Inv) (vs : List Value) :
    (vs.foldl (fun b v => (b.exec v.appendOp).2) b).contents =
      b.contents ++ vs.flatMap Value.wire := by
  induction vs generalizing b with
  | nil => simp
  | cons v vs ih =>
    obtain ⟨hinv, hc⟩ := append_value h v
    rw [List.foldl_cons, ih hinv, hc, List.flatMap_cons, List.append_assoc]

theorem encode_eq (vs : List Value) : encode vs = vs.flatMap Value.wire := by
  rw [encode, append_values inv_new, contents_new, List.nil_append]

theorem flatten_encode (msgs : List (List Value)) :
    (msgs.map encode).flatten = msgs.flatten.flatMap Value.wire := by
  induction msgs with
  | nil => rfl
  | cons vs msgs ih =>
    rw [List.map_cons, List.flatten_cons, List.flatten_cons, List.flatMap_append, encode_eq, ih]

/-! ## What is read -/

/-- The calls of a reader, with the value they return. -/
def Reader.read (b : Buffer) : Reader → Value × Buffer
  | .readInt w => (.int w (b.readInt w).1, (b.readInt w).2)
  | .peekInt w => (.int w (b.peekInt w).1, (b.peekInt w).2.retrieveInt w)
  | .string len => (.string (b.retrieveAsString len).1, (b.retrieveAsString len).2)

theorem htobe_betoh {n : Nat} {bytes : List UInt8} (h : bytes.length = n) :
    htobe n (betoh n bytes) = bytes := by
  have hbytes := BigEndian.toBytes_ofBytes bytes
  rw [h] at hbytes
  have hval : (betoh n bytes).toNat = BigEndian.ofBytes bytes := ofNat_toNat h
  rw [← hval] at hbytes
  exact hbytes

theorem wire_betoh (w : Width) {bytes : List UInt8} (h : bytes.length = w.bytes) :
    (Value.int w (betoh w.bytes bytes)).wire = bytes := by
  rw [Value.wire, ← htobe_eq_bigEndian, htobe_betoh h]

/-- A value is read off the front, and its bytes are gone. -/
theorem Reader.read_spec {b : Buffer} (h : b.Inv) (reader : Reader)
    (hlen : size reader.kind ≤ b.readableBytes) :
    (reader.read b).1.kind = reader.kind ∧
    (reader.read b).1.wire = b.contents.take (size reader.kind) ∧
    (reader.read b).2 = b.retrieve (size reader.kind) := by
  have hcut : (b.contents.take (size reader.kind)).length = size reader.kind := by
    rw [List.length_take, h.length_contents]
    omega
  cases reader with
  | readInt w =>
    rw [Reader.read, readInt_eq h hlen]
    exact ⟨rfl, wire_betoh w hcut, rfl⟩
  | peekInt w =>
    rw [Reader.read, peekInt_eq h hlen, retrieveInt_eq]
    exact ⟨rfl, wire_betoh w hcut, rfl⟩
  | string len =>
    have hstr : b.retrieveAsString len = (b.contents.take len, b.retrieve len) :=
      retrieveAsString_eq h hlen
    rw [Reader.read, hstr]
    exact ⟨congrArg Kind.string hcut, rfl, rfl⟩

/-- Values of one type are told apart by their bytes. -/
theorem wire_injective {u v : Value} (hk : u.kind = v.kind) (hw : u.wire = v.wire) : u = v := by
  cases u with
  | int w x =>
    cases v with
    | int w' y =>
      cases hk
      rw [← betoh_wire w x, ← betoh_wire w y, hw]
    | string dat => cases hk
  | string dat =>
    cases v with
    | int w y => cases hk
    | string dat' => exact congrArg Value.string hw

/-- Bytes say which values they are, to one who knows the types. -/
theorem prefix_of_wire {us vs : List Value} (hk : us.map Value.kind <+: vs.map Value.kind)
    (hw : us.flatMap Value.wire <+: vs.flatMap Value.wire) : us <+: vs := by
  induction us generalizing vs with
  | nil => exact List.nil_prefix
  | cons u us ih =>
    cases vs with
    | nil => simp at hk
    | cons v vs =>
      rw [List.map_cons, List.map_cons, List.cons_prefix_cons] at hk
      obtain ⟨rest, hrest⟩ := hw
      rw [List.flatMap_cons, List.flatMap_cons, List.append_assoc] at hrest
      have hlen : u.wire.length = v.wire.length := by
        rw [length_wire, length_wire, hk.1]
      obtain ⟨hfirst, hlater⟩ := List.append_inj hrest hlen
      rw [wire_injective hk.1 hfirst, List.cons_prefix_cons]
      exact ⟨rfl, ih hk.2 ⟨rest, hlater⟩⟩

end Buffer

/-! ## The user who reads -/

open Buffer (Value Reader encode)
open Fifo (size)

/-- A link, and the values that the user of one of its ends has read. -/
structure TypedLink where
  link : Link
  values : List Value

namespace TypedLink

inductive Input where
  | link (i : Side × Connection.Input)
  /-- The user reads a value, when there are enough bytes for it. -/
  | read (reader : Reader)

/-- The user takes bytes without reading a value. -/
def takes (s : Side) (i : Side × Connection.Input) : Bool :=
  i.1 == s && match i.2 with
    | .take _ => true
    | _ => false

/-- One of the ends goes on; values are read at the end `s`. -/
def step (s : Side) (t : TypedLink) : Input → Option TypedLink
  | .link i => if takes s i then none else (t.link.step i).map fun l => { t with link := l }
  | .read reader =>
    if size reader.kind ≤ (t.link.conn s).bufferInput.readableBytes then
      (t.link.step (s, .take (size reader.kind))).map fun l =>
        ⟨l, t.values ++ [(reader.read (t.link.conn s).bufferInput).1]⟩
    else none

/-- No message of the end that sends to `s` is refused by its kernel. -/
def Unblocked (s : Side) (t : TypedLink) (i : Input) : Prop :=
  ∀ j, i = .link j → Link.Unblocked s t.link j

/-- The bytes of the values read are those that the user has taken. -/
structure Reads (s : Side) (t : TypedLink) : Prop where
  carries : t.link.Carries s
  complete : t.link.Complete s
  values : t.values.flatMap Value.wire = t.link.taken s

section Steps

variable {s : Side} {t t' : TypedLink}

theorem takes_nil {w : Connection} {ci : Connection.Input} (h : takes s (s, ci) = false) :
    w.takes ci = [] := by
  cases ci with
  | take len => simp [takes] at h
  | _ => rfl

theorem Reads.link (h : t.Reads s) {i : Side × Connection.Input} {l : Link}
    (hi : takes s i = false) (hg : Link.Unblocked s t.link i) (hl : t.link.step i = some l) :
    Reads s { t with link := l } := by
  refine ⟨Link.step_carries h.carries hl, Link.step_complete h.carries h.complete hg hl, ?_⟩
  obtain ⟨w, -, -, rfl⟩ := Link.step_next hl
  obtain ⟨side, ci⟩ := i
  show t.values.flatMap Value.wire = _
  rcases Link.eq_or_peer s side with rfl | rfl
  · rw [Link.advance_taken, takes_nil hi, List.append_nil]
    exact h.values
  · rw [Link.advance_peer_taken]
    exact h.values

theorem Reads.read (h : t.Reads s) {reader : Reader} {l : Link}
    (hlen : size reader.kind ≤ (t.link.conn s).bufferInput.readableBytes)
    (hl : t.link.step (s, .take (size reader.kind)) = some l) :
    Reads s ⟨l, t.values ++ [(reader.read (t.link.conn s).bufferInput).1]⟩ := by
  have hg : Link.Unblocked s t.link (s, .take (size reader.kind)) :=
    fun hs => absurd hs.symm s.peer_ne
  refine ⟨Link.step_carries h.carries hl, Link.step_complete h.carries h.complete hg hl, ?_⟩
  obtain ⟨w, -, -, rfl⟩ := Link.step_next hl
  obtain ⟨-, hwire, -⟩ := Reader.read_spec h.carries.input reader hlen
  rw [List.flatMap_append, List.flatMap_singleton, hwire, h.values, Link.advance_taken,
    Connection.takes, Nat.min_eq_left hlen]

/-- What the reader leaves is what the link has in the buffer. -/
theorem read_buffer (h : t.Reads s) {reader : Reader} (hs : t.step s (.read reader) = some t') :
    (t'.link.conn s).bufferInput = (reader.read (t.link.conn s).bufferInput).2 := by
  simp only [step] at hs
  split at hs
  · rename_i hlen
    obtain ⟨l, hl, rfl⟩ := Option.map_eq_some_iff.mp hs
    obtain ⟨-, -, hrest⟩ := Reader.read_spec h.carries.input reader hlen
    have hoff : t.link.offers s (.take (size reader.kind)) = true := rfl
    rw [Link.step, if_pos hoff, Connection.step, Option.map_some, Option.some.injEq] at hl
    rw [hrest, ← hl, Link.advance_conn, Nat.min_eq_left hlen]
  · cases hs

theorem step_reads (h : t.Reads s) {i : Input} (hg : t.Unblocked s i)
    (hs : t.step s i = some t') : t'.Reads s := by
  cases i with
  | link i =>
    simp only [step] at hs
    split at hs
    · cases hs
    · rename_i hi
      obtain ⟨l, hl, rfl⟩ := Option.map_eq_some_iff.mp hs
      exact h.link (Bool.eq_false_iff.mpr hi) (hg i rfl) hl
  | read reader =>
    simp only [step] at hs
    split at hs
    · rename_i hlen
      obtain ⟨l, hl, rfl⟩ := Option.map_eq_some_iff.mp hs
      exact h.read hlen hl
    · cases hs

end Steps

/-! ## Whole runs -/

/-- **Values arrive as they were sent.** In every run of the two ends in which no message of the
sender is refused by its kernel: if the messages it has executed are those of the lists `msgs`,
and the user at the other end has asked for types in the order in which they were sent, the
values it has read are the first ones of those sent, and what is unread, in flight or still with
the sender are the bytes of the others. No assert of the reader fails. -/
theorem values_delivered (s : Side) (conn : Side → Connection) (hopen : ∀ s, (conn s).Opened)
    (ins : List Input) (t : TypedLink) (msgs : List (List Value))
    (hr : Machine.run (step s) ⟨Link.new conn, []⟩ ins = some t)
    (hal : Machine.Along (step s) (Unblocked s) ⟨Link.new conn, []⟩ ins)
    (hsent : (t.link.conn s.peer).sent = msgs.map encode)
    (hkinds : t.values.map Value.kind <+: msgs.flatten.map Value.kind) :
    t.values <+: msgs.flatten ∧
    (t.link.conn s).bufferInput.contents ++ t.link.flightTo s ++
        (t.link.conn s.peer).bufferOutput.contents =
      (msgs.flatten.drop t.values.length).flatMap Value.wire ∧
    (t.link.conn s).bufferInput.asserts = [] := by
  have hnew : Reads s ⟨Link.new conn, []⟩ :=
    ⟨Link.carries_new hopen s, Link.complete_new hopen s, rfl⟩
  have ht : t.Reads s :=
    Machine.run_invariant_along (fun h hg hs => step_reads h hg hs) hnew hal hr
  have hstream : t.link.taken s ++ (t.link.conn s).bufferInput.contents ++ t.link.flightTo s ++
      (t.link.conn s.peer).bufferOutput.contents = msgs.flatten.flatMap Value.wire := by
    rw [ht.carries.wire, ← Buffer.flatten_encode, ← hsent]
    exact ht.complete
  rw [← ht.values, List.append_assoc, List.append_assoc] at hstream
  have hfirst : t.values <+: msgs.flatten := Buffer.prefix_of_wire hkinds ⟨_, hstream⟩
  refine ⟨hfirst, ?_, ht.carries.input.noAssert⟩
  obtain ⟨rest, hrest⟩ := hfirst
  rw [← hrest, List.flatMap_append] at hstream
  rw [← hrest, List.drop_left, List.append_assoc]
  exact List.append_cancel_left hstream

/-- Two messages, cut by both kernels; a value is read as soon as its bytes are there. -/
theorem values_delivered_two_messages : ∃ t,
    Machine.run (step .server) ⟨Link.new fun _ => (Connection.new (Epoller.new 8 (· + 1)) 3
        ⟨false, false, true, false, false⟩ .serverLoop 100).connectionEstablished, []⟩
      [.link (.client, .send [255, 254, 65] (.accepted 2)),
       .link (.server, .event EPOLLIN (.bytes [255]) (.error 0)), .link (.server, .ret (.error 0)),
       .link (.client, .send [7] (.accepted 0)),
       .link (.client, .event EPOLLOUT (.error 0) (.accepted 9)),
       .link (.server, .event EPOLLIN (.bytes [254, 65, 7]) (.error 0)), .read (.peekInt .int16),
       .read (.string 1)] = some t ∧
    t.values = [.int .int16 (BitVec.ofInt 16 (-2)), .string [65]] := by
  let msgs : List (List Value) :=
    [[.int .int16 (BitVec.ofInt 16 (-2)), .string [65]], [.int .int8 7]]
  obtain ⟨t, hr, ht⟩ := Option.map_eq_some_iff.mp (show (Machine.run (step .server)
      ⟨Link.new fun _ => (Connection.new (Epoller.new 8 (· + 1)) 3
        ⟨false, false, true, false, false⟩ .serverLoop 100).connectionEstablished, []⟩
      [.link (.client, .send [255, 254, 65] (.accepted 2)),
       .link (.server, .event EPOLLIN (.bytes [255]) (.error 0)), .link (.server, .ret (.error 0)),
       .link (.client, .send [7] (.accepted 0)),
       .link (.client, .event EPOLLOUT (.error 0) (.accepted 9)),
       .link (.server, .event EPOLLIN (.bytes [254, 65, 7]) (.error 0)), .read (.peekInt .int16),
       .read (.string 1)]).map (fun t => ((t.link.conn .client).sent, t.values.map Value.kind)) =
      some (msgs.map encode, [.int .int16, .string 1]) by
    decide +kernel)
  obtain ⟨hsent, hkinds⟩ := Prod.mk.inj ht
  have ha : (Epoller.new 8 (· + 1)).Admissible (3, .enableReading) :=
    ⟨by decide, by decide, fun _ _ c _ _ => rfl⟩
  have hfirst := (values_delivered .server _ (fun _ => ⟨_, 3, 4, _, _, _, Epoller.registry_new _ _,
    rfl, ha, rfl⟩) _ t msgs hr (Machine.along_of_mem (fun i hi t => ?_) _) hsent ?_).1
  · refine ⟨t, hr, ?_⟩
    have hlen : t.values.length = 2 := by
      rw [← List.length_map (f := Value.kind), hkinds]
      rfl
    rw [List.prefix_iff_eq_take.mp hfirst, hlen]
    rfl
  · intro j hj
    have hmsg (m : List UInt8 × SendResult) (hm : (t.link.conn j.1).message j.2 = some m) :
        m.2.isError = false := by
      rw [hj] at hi
      simp only [List.mem_cons, List.not_mem_nil, or_false, Input.link.injEq, reduceCtorEq] at hi
      rcases hi with rfl | rfl | rfl | rfl | rfl | rfl <;>
        simp only [Connection.message, Option.some.injEq, reduceCtorEq] at hm <;>
        rw [← hm] <;> rfl
    rintro - ⟨-, -, dat, r, hm, -, herr⟩
    rw [hmsg _ hm] at herr
    cases herr
  · rw [hkinds]
    decide

end TypedLink

end LinuxNet
