import LinuxNet.Lib.Machine
import LinuxNet.Buffer.Model

/-!
# The buffer is a byte queue

`Buffer.Inv` is the index invariant together with the absence of failed asserts.
Each operation has one specification lemma: it keeps `Inv` and acts on
`contents` as the corresponding operation acts on a queue. `Fifo.step` states
the queue independently of the vector, and `Buffer.step_refines` is the
simulation between the two; the theorem over whole runs follows from it.
-/

namespace LinuxNet

open LinuxNet.Lib LinuxNet.Lib.Window

namespace Buffer

/-- `read_index_ <= write_index_ <= buffer_.size()`, and no assert has failed. -/
structure Inv (b : Buffer) : Prop where
  ordered : b.readIndex ≤ b.writeIndex
  bounded : b.writeIndex ≤ b.buffer.length
  noAssert : b.asserts = []

theorem check_pos (b : Buffer) (site : Assert) {ok : Bool} (h : ok = true) :
    b.check site ok = b := by
  simp [check, h]

theorem inv_new : Inv Buffer.new :=
  ⟨Nat.le_refl _, Nat.zero_le _, rfl⟩

theorem contents_new : Buffer.new.contents = [] := window_self _ _

theorem Inv.length_contents {b : Buffer} (h : b.Inv) : b.contents.length = b.readableBytes := by
  have := h.bounded
  simp only [contents, length_window, readableBytes]
  omega

/-! ## Taking bytes out -/

theorem retrieveAll_spec {b : Buffer} (h : b.Inv) :
    b.retrieveAll.Inv ∧ b.retrieveAll.contents = [] :=
  ⟨⟨Nat.le_refl _, Nat.zero_le _, h.noAssert⟩, window_self _ _⟩

theorem retrieve_spec {b : Buffer} (h : b.Inv) {len : Nat} (hl : len ≤ b.readableBytes) :
    (b.retrieve len).Inv ∧ (b.retrieve len).contents = b.contents.drop len := by
  unfold retrieve
  rw [check_pos b _ (by simpa using hl)]
  by_cases hlt : len < b.readableBytes
  · simp only [hlt, ↓reduceIte]
    refine ⟨⟨?_, h.bounded, h.noAssert⟩, ?_⟩
    · show b.readIndex + len ≤ b.writeIndex
      unfold readableBytes at hlt
      omega
    · exact (drop_window b.buffer b.readIndex b.writeIndex len).symm
  · simp only [hlt, ↓reduceIte]
    have hlen := h.length_contents
    refine ⟨(retrieveAll_spec h).1, (retrieveAll_spec h).2.trans ?_⟩
    exact (List.drop_of_length_le (by omega)).symm

theorem retrieveUntil_eq {b : Buffer} (h : b.Inv) {k : Nat} (hk : k ≤ b.readableBytes) :
    b.retrieveUntil (b.peek + k) = b.retrieve k := by
  have hstop : b.peek + k ≤ b.beginWrite := by
    have := h.ordered
    simp only [readableBytes] at hk
    simp only [peek, beginWrite]
    omega
  unfold retrieveUntil
  dsimp only
  rw [check_pos b _ (by simp), check_pos b _ (by simpa using hstop), Nat.add_sub_cancel_left]

theorem window_peek {b : Buffer} {len : Nat} (h : b.Inv) (hl : len ≤ b.readableBytes) :
    window b.buffer b.peek (b.peek + len) = b.contents.take len := by
  have := h.ordered
  unfold contents peek
  rw [take_window]
  simp only [readableBytes] at hl
  omega

theorem retrieveAsString_eq {b : Buffer} (h : b.Inv) {len : Nat} (hl : len ≤ b.readableBytes) :
    b.retrieveAsString len = (b.contents.take len, b.retrieve len) := by
  unfold retrieveAsString
  dsimp only
  rw [check_pos b _ (by simpa using hl), window_peek h hl]

/-! ## Making space and appending -/

theorem makeSpace_spec {b : Buffer} (h : b.Inv) {len : Nat} (hl : b.writableBytes < len) :
    (b.makeSpace len).Inv ∧ (b.makeSpace len).contents = b.contents ∧
      len ≤ (b.makeSpace len).writableBytes := by
  have hord := h.ordered
  have hbnd := h.bounded
  unfold writableBytes at hl
  unfold makeSpace makeSpaceWith
  by_cases hgrow : b.writableBytes + b.readIndex < len
  · simp only [hgrow, ↓reduceIte]
    rw [check_pos b _ (by simp only [gt_iff_lt, decide_eq_true_eq]; omega)]
    refine ⟨⟨hord, ?_, h.noAssert⟩, window_append _ _ hbnd, ?_⟩
    · simp only [resize, List.length_append]
      omega
    · simp only [writableBytes, resize, List.length_append, List.length_replicate]
      omega
  · simp only [hgrow, ↓reduceIte]
    -- the readable window is moved to the front; the vector keeps its size
    have hfit : 0 + (window b.buffer b.readIndex b.writeIndex).length ≤ b.buffer.length := by
      simp only [length_window]
      omega
    have hmove : moveBackward b.buffer b.readIndex b.writeIndex b.readableBytes =
        overwrite b.buffer 0 b.contents := by
      unfold moveBackward readableBytes contents
      rw [Nat.sub_self]
    have hsize : (overwrite b.buffer 0 b.contents).length = b.buffer.length :=
      length_overwrite _ hfit
    rw [hmove]
    refine ⟨⟨Nat.zero_le _, ?_, h.noAssert⟩, ?_, ?_⟩
    · show b.readableBytes ≤ (overwrite b.buffer 0 b.contents).length
      rw [hsize, readableBytes]
      omega
    · show window (overwrite b.buffer 0 b.contents) 0 b.readableBytes = b.contents
      have hext : window (overwrite b.buffer 0 b.contents) 0 (0 + b.contents.length) =
          window b.buffer 0 0 ++ b.contents :=
        window_overwrite_extend b.buffer (Nat.zero_le _) (Nat.le_refl _)
      rw [Nat.zero_add, h.length_contents, window_self, List.nil_append] at hext
      exact hext
    · show len ≤ (overwrite b.buffer 0 b.contents).length - b.readableBytes
      rw [hsize]
      simp only [writableBytes] at hgrow
      unfold readableBytes
      omega

theorem ensureWritableBytes_spec {b : Buffer} (h : b.Inv) (len : Nat) :
    (b.ensureWritableBytes len).Inv ∧ (b.ensureWritableBytes len).contents = b.contents ∧
      len ≤ (b.ensureWritableBytes len).writableBytes := by
  unfold ensureWritableBytes
  by_cases hl : len > b.writableBytes
  · simp only [hl, ↓reduceIte]
    obtain ⟨hi, hc, hw⟩ := makeSpace_spec h hl
    rw [check_pos _ _ (by simpa using hw)]
    exact ⟨hi, hc, hw⟩
  · simp only [hl, ↓reduceIte]
    have hw : len ≤ b.writableBytes := by omega
    rw [check_pos _ _ (by simpa using hw)]
    exact ⟨h, rfl, hw⟩

theorem append_spec {b : Buffer} (h : b.Inv) (dat : List UInt8) :
    (b.append dat).Inv ∧ (b.append dat).contents = b.contents ++ dat := by
  obtain ⟨hi, hc, hw⟩ := ensureWritableBytes_spec h dat.length
  unfold append hasWritten
  dsimp only
  generalize b.ensureWritableBytes dat.length = b' at hi hc hw ⊢
  have hord := hi.ordered
  have hbnd := hi.bounded
  have hsize : (overwrite b'.buffer b'.beginWrite dat).length = b'.buffer.length := by
    refine length_overwrite _ ?_
    simp only [writableBytes] at hw
    simp only [beginWrite]
    omega
  rw [check_pos _ _ (by simpa [writableBytes, hsize] using hw)]
  refine ⟨⟨?_, ?_, hi.noAssert⟩, ?_⟩
  · show b'.readIndex ≤ b'.writeIndex + dat.length
    omega
  · show b'.writeIndex + dat.length ≤ (overwrite b'.buffer b'.beginWrite dat).length
    rw [hsize]
    simp only [writableBytes] at hw
    omega
  · rw [← hc]
    exact window_overwrite_extend b'.buffer hbnd hord

theorem readFd_bytes_spec {b : Buffer} (h : b.Inv) (dat : List UInt8) :
    (b.readFd (.bytes dat)).2.Inv ∧ (b.readFd (.bytes dat)).2.contents = b.contents ++ dat := by
  have hord := h.ordered
  have hbnd := h.bounded
  have hfit : b.writeIndex + (dat.take b.writableBytes).length ≤ b.buffer.length := by
    simp only [List.length_take, writableBytes]
    omega
  have hsize := length_overwrite b.buffer hfit
  have hext : window (overwrite b.buffer b.writeIndex (dat.take b.writableBytes)) b.readIndex
      (b.writeIndex + (dat.take b.writableBytes).length) = b.contents ++ dat.take b.writableBytes :=
    window_overwrite_extend b.buffer hbnd hord
  unfold readFd
  by_cases hl : dat.length ≤ b.writableBytes
  · simp only [hl, ↓reduceIte]
    rw [List.take_of_length_le hl] at hfit hsize hext ⊢
    refine ⟨⟨?_, ?_, h.noAssert⟩, hext⟩
    · show b.readIndex ≤ b.writeIndex + dat.length
      omega
    · show b.writeIndex + dat.length ≤ (overwrite b.buffer b.writeIndex dat).length
      rw [hsize]
      exact hfit
  · simp only [hl, ↓reduceIte]
    -- the vector is full up to its end, the spilled bytes go through `Append`
    have hfull : b.writeIndex + (dat.take b.writableBytes).length = b.buffer.length := by
      simp only [List.length_take, writableBytes] at hl ⊢
      omega
    generalize hb' : ({ b with
      writeIndex := (overwrite b.buffer b.writeIndex (dat.take b.writableBytes)).length,
      buffer := overwrite b.buffer b.writeIndex (dat.take b.writableBytes) } : Buffer) = b'
    have hinv : b'.Inv := by
      rw [← hb']
      exact ⟨by show b.readIndex ≤ (overwrite b.buffer b.writeIndex _).length; rw [hsize]; omega,
        Nat.le_refl _, h.noAssert⟩
    have hc : b'.contents = b.contents ++ dat.take b.writableBytes := by
      rw [← hb', ← hext, hfull, ← hsize]
      rfl
    obtain ⟨hi, happ⟩ := append_spec hinv (dat.drop b.writableBytes)
    refine ⟨hi, happ.trans ?_⟩
    rw [hc, List.append_assoc, List.take_append_drop]

/-! ## Integers -/

theorem htobe_one (v : BitVec 8) : htobe 1 v = [UInt8.ofBitVec v] := by
  simp [htobe]

theorem betoh_one (x : UInt8) : betoh 1 [x] = x.toBitVec := by
  apply BitVec.eq_of_toNat_eq
  have := x.toNat_lt
  simp [betoh]

theorem appendInt_eq (b : Buffer) (w : Width) (v : BitVec (8 * w.bytes)) :
    b.appendInt w v = b.append (htobe w.bytes v) := by
  cases w with
  | int8 => exact congrArg b.append (htobe_one v).symm
  | int16 | int32 | int64 => rfl

theorem peekIntOf_eq {b : Buffer} (h : b.Inv) {n : Nat} (hn : n ≤ b.readableBytes) :
    b.peekIntOf n = (betoh n (b.contents.take n), b) := by
  unfold peekIntOf
  dsimp only
  rw [check_pos b _ (by simpa using hn), window_peek h hn]

theorem peekInt8_eq {b : Buffer} (h : b.Inv) (hn : 1 ≤ b.readableBytes) :
    b.peekInt8 = (betoh 1 (b.contents.take 1), b) := by
  have hlen := h.length_contents
  unfold peekInt8
  dsimp only
  rw [check_pos b _ (by simpa using hn), window_peek h hn]
  cases hc : b.contents with
  | nil => simp [hc] at hlen; omega
  | cons x xs => simpa using (betoh_one x).symm

theorem peekInt_eq {b : Buffer} (h : b.Inv) {w : Width} (hw : w.bytes ≤ b.readableBytes) :
    b.peekInt w = (betoh w.bytes (b.contents.take w.bytes), b) := by
  cases w with
  | int8 => exact peekInt8_eq h hw
  | int16 | int32 | int64 => exact peekIntOf_eq h hw

theorem retrieveInt_eq (b : Buffer) (w : Width) : b.retrieveInt w = b.retrieve w.bytes := by
  cases w <;> rfl

theorem readInt_eq {b : Buffer} (h : b.Inv) {w : Width} (hw : w.bytes ≤ b.readableBytes) :
    b.readInt w = (betoh w.bytes (b.contents.take w.bytes), b.retrieve w.bytes) := by
  have hp : b.readInt w = ((b.peekInt w).1, (b.peekInt w).2.retrieveInt w) := by
    cases w <;> rfl
  rw [hp, peekInt_eq h hw, retrieveInt_eq]

end Buffer

/-! ## The abstract queue -/

namespace Fifo

open Buffer (Op Out htobe betoh)

/-- Take `n` bytes from the front. -/
def get (q : List UInt8) (n : Nat) (out : List UInt8 → Out) : Option (Out × List UInt8) :=
  if n ≤ q.length then some (out (q.take n), q.drop n) else none

/-- What each call means for the queue of bytes. -/
def exec (q : List UInt8) : Op → Option (Out × List UInt8)
  | .append dat => some (.none, q ++ dat)
  | .appendInt w v => some (.none, q ++ htobe w.bytes v)
  | .peekInt w => (get q w.bytes fun s => .int w (betoh w.bytes s)).map fun r => (r.1, q)
  | .retrieve len => get q len fun _ => .none
  | .retrieveUntil k => get q k fun _ => .none
  | .retrieveAsString len => get q len .string
  | .retrieveAllAsString => some (.string q, [])
  | .retrieveInt w => get q w.bytes fun _ => .none
  | .retrieveAll => some (.none, [])
  | .readInt w => get q w.bytes fun s => .int w (betoh w.bytes s)
  | .readFd (.error _) => some (.rlen (-1), q)
  | .readFd (.bytes dat) => some (.rlen dat.length, q ++ dat)

def step (s : List UInt8 × List Out) (op : Op) : Option (List UInt8 × List Out) :=
  (exec s.1 op).map fun r => (r.2, s.2 ++ [r.1])

theorem get_pos {q : List UInt8} {n : Nat} (out : List UInt8 → Out) (h : n ≤ q.length) :
    get q n out = some (out (q.take n), q.drop n) := if_pos h

end Fifo

namespace Buffer

/-- A call made under its precondition keeps the invariant, returns what the
queue returns and leaves the queue's content. -/
theorem exec_spec {b : Buffer} (h : b.Inv) {op : Op} (hp : b.pre op = true) :
    (b.exec op).2.Inv ∧
      Fifo.exec b.contents op = some ((b.exec op).1, (b.exec op).2.contents) := by
  have hlen := h.length_contents
  cases op with
  | append dat =>
    obtain ⟨hi, hc⟩ := append_spec h dat
    exact ⟨hi, by simp only [Fifo.exec, exec, hc]⟩
  | appendInt w v =>
    obtain ⟨hi, hc⟩ := append_spec h (htobe w.bytes v)
    simp only [exec, appendInt_eq, Fifo.exec, hc]
    exact ⟨hi, trivial⟩
  | peekInt w =>
    have hw : w.bytes ≤ b.readableBytes := by simpa [pre] using hp
    simp only [exec, peekInt_eq h hw, Fifo.exec, Fifo.get_pos _ (hlen ▸ hw), Option.map_some]
    exact ⟨h, trivial⟩
  | retrieve len =>
    have hl : len ≤ b.readableBytes := by simpa [pre] using hp
    obtain ⟨hi, hc⟩ := retrieve_spec h hl
    exact ⟨hi, by simp only [Fifo.exec, exec, Fifo.get_pos _ (hlen ▸ hl), hc]⟩
  | retrieveUntil k =>
    have hl : k ≤ b.readableBytes := by simpa [pre] using hp
    obtain ⟨hi, hc⟩ := retrieve_spec h hl
    simp only [exec, retrieveUntil_eq h hl, Fifo.exec, Fifo.get_pos _ (hlen ▸ hl), hc]
    exact ⟨hi, trivial⟩
  | retrieveAsString len =>
    have hl : len ≤ b.readableBytes := by simpa [pre] using hp
    obtain ⟨hi, hc⟩ := retrieve_spec h hl
    simp only [exec, retrieveAsString_eq h hl, Fifo.exec, Fifo.get_pos _ (hlen ▸ hl), hc]
    exact ⟨hi, trivial⟩
  | retrieveAllAsString =>
    obtain ⟨hi, hc⟩ := retrieve_spec h (Nat.le_refl _)
    simp only [exec, retrieveAllAsString, retrieveAsString_eq h (Nat.le_refl _), Fifo.exec, hc]
    rw [← hlen, List.take_length, List.drop_length]
    exact ⟨hlen ▸ hi, rfl⟩
  | retrieveInt w =>
    have hw : w.bytes ≤ b.readableBytes := by simpa [pre] using hp
    obtain ⟨hi, hc⟩ := retrieve_spec h hw
    simp only [exec, retrieveInt_eq, Fifo.exec, Fifo.get_pos _ (hlen ▸ hw), hc]
    exact ⟨hi, trivial⟩
  | retrieveAll =>
    obtain ⟨hi, hc⟩ := retrieveAll_spec h
    exact ⟨hi, by simp only [Fifo.exec, exec, hc]⟩
  | readInt w =>
    have hw : w.bytes ≤ b.readableBytes := by simpa [pre] using hp
    obtain ⟨hi, hc⟩ := retrieve_spec h hw
    simp only [exec, readInt_eq h hw, Fifo.exec, Fifo.get_pos _ (hlen ▸ hw), hc]
    exact ⟨hi, trivial⟩
  | readFd r =>
    cases r with
    | error errno => exact ⟨h, rfl⟩
    | bytes dat =>
      obtain ⟨hi, hc⟩ := readFd_bytes_spec h dat
      refine ⟨hi, ?_⟩
      have hr : (b.readFd (.bytes dat)).1.rlen = dat.length := by
        unfold readFd
        dsimp only
        split <;> rfl
      simp only [exec, Fifo.exec, hc, hr]

theorem step_of_pre (s : Buffer × List Out) (op : Op) (h : s.1.pre op = true) :
    step s op = some ((s.1.exec op).2, s.2 ++ [(s.1.exec op).1]) := if_pos h

theorem step_refines {s t : Buffer × List Out} {op : Op} (h : s.1.Inv)
    (hs : step s op = some t) :
    t.1.Inv ∧ Fifo.step (s.1.contents, s.2) op = some (t.1.contents, t.2) := by
  unfold step at hs
  split at hs
  · rename_i hp
    obtain ⟨hi, ha⟩ := exec_spec h hp
    cases hs
    exact ⟨hi, by simp only [Fifo.step, ha, Option.map_some]⟩
  · cases hs

/-- A run of the buffer is a run of the queue with the same results. -/
theorem run_refines {s t : Buffer × List Out} {ops : List Op} (h : s.1.Inv)
    (hr : Machine.run step s ops = some t) :
    t.1.Inv ∧ Machine.run Fifo.step (s.1.contents, s.2) ops = some (t.1.contents, t.2) := by
  induction ops generalizing s with
  | nil =>
    simp only [Machine.run_nil, Option.some.injEq] at hr ⊢
    exact hr ▸ ⟨h, rfl⟩
  | cons op ops ih =>
    obtain ⟨m, hm, hrest⟩ := Machine.run_cons_iff.mp hr
    obtain ⟨hi, ha⟩ := step_refines h hm
    obtain ⟨hi', ha'⟩ := ih hi hrest
    exact ⟨hi', Machine.run_cons_iff.mpr ⟨_, ha, ha'⟩⟩

/-- **The buffer refines a byte queue.** After any sequence of calls made under
their own preconditions, with any `readv` results, the indices are in order and
inside the vector, no assert has failed, and the readable bytes and everything
the calls returned are those of the queue. -/
theorem buffer_refines_fifo (ops : List Op) (b : Buffer) (outs : List Out)
    (hr : Machine.run step (Buffer.new, []) ops = some (b, outs)) :
    b.readIndex ≤ b.writeIndex ∧ b.writeIndex ≤ b.buffer.length ∧ b.asserts = [] ∧
      Machine.run Fifo.step ([], []) ops = some (b.contents, outs) := by
  obtain ⟨hi, ha⟩ := run_refines inv_new hr
  rw [contents_new] at ha
  exact ⟨hi.ordered, hi.bounded, hi.noAssert, ha⟩

theorem buffer_refines_fifo_append_retrieve : ∃ b outs,
    Machine.run step (Buffer.new, []) [.append [104, 105], .retrieveAsString 1] = some (b, outs) ∧
      b.asserts = [] ∧ b.contents = [105] := by
  obtain ⟨hi, hc⟩ := append_spec inv_new [104, 105]
  have hlen : (Buffer.new.append [104, 105]).readableBytes = 2 := by
    simp [← hi.length_contents, hc, contents_new]
  have h1 := step_of_pre (Buffer.new, []) (.append [104, 105]) (by simp [pre])
  have h2 := step_of_pre (Buffer.new.append [104, 105], [] ++ [.none]) (.retrieveAsString 1)
    (by simp [pre, hlen])
  simp only [exec] at h1 h2
  obtain ⟨b, outs, hr⟩ : ∃ b outs, Machine.run step (Buffer.new, [])
      [.append [104, 105], .retrieveAsString 1] = some (b, outs) :=
    ⟨_, _, Machine.run_cons_iff.mpr ⟨_, h1, Machine.run_cons_iff.mpr
      ⟨_, h2, Machine.run_nil step _⟩⟩⟩
  obtain ⟨_, _, ha, hf⟩ := buffer_refines_fifo _ b outs hr
  have hq : Machine.run Fifo.step ([], []) [.append [104, 105], .retrieveAsString 1] =
      some ([105], [.none, .string [104]]) := rfl
  rw [hq] at hf
  exact ⟨b, outs, hr, ha, (Prod.mk.inj (Option.some.inj hf)).1.symm⟩

end Buffer

end LinuxNet
