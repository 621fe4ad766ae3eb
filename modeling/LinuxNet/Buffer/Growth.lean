import LinuxNet.Buffer.Fifo
import Mathlib.Data.List.Induction

/-!
# The size of the buffer

`MakeSpace` resizes the vector to `write_index_ + len` with the consumed bytes still in it, so
that the new size is not the number of readable bytes. It does so only if the free space before
`Peek()` and behind `BeginWrite()` is less than `len` together, and then the consumed part is
smaller than what is appended. The vector never has more than twice the size of the largest
content so far, or its initial size.
-/

namespace LinuxNet

open LinuxNet.Lib LinuxNet.Lib.Window

namespace Buffer

/-! ## One call -/

theorem length_makeSpace {b : Buffer} (h : b.Inv) {len : Nat} (hl : b.writableBytes < len) :
    (b.makeSpace len).buffer.length =
      if b.writableBytes + b.readIndex < len then b.writeIndex + len else b.buffer.length := by
  have hord := h.ordered
  have hbnd := h.bounded
  unfold writableBytes at hl
  unfold makeSpace makeSpaceWith
  by_cases hgrow : b.writableBytes + b.readIndex < len
  · simp only [hgrow, ↓reduceIte]
    rw [check_pos b _ (by simp only [gt_iff_lt, decide_eq_true_eq]; omega)]
    simp only [resize, List.length_append, List.length_replicate]
    omega
  · simp only [hgrow, ↓reduceIte, moveBackward]
    refine length_overwrite _ ?_
    simp only [length_window, readableBytes]
    omega

/-- The vector grows only for an append that does not fit into the free space. -/
theorem length_append {b : Buffer} (h : b.Inv) (dat : List UInt8) :
    (b.append dat).buffer.length =
      if b.writableBytes + b.readIndex < dat.length then b.writeIndex + dat.length
      else b.buffer.length := by
  obtain ⟨hi, _, hw⟩ := ensureWritableBytes_spec h dat.length
  have hsize : (b.append dat).buffer.length = (b.ensureWritableBytes dat.length).buffer.length := by
    have hbnd := hi.bounded
    have hfit : (b.ensureWritableBytes dat.length).beginWrite + dat.length ≤
        (b.ensureWritableBytes dat.length).buffer.length := by
      simp only [writableBytes] at hw
      simp only [beginWrite]
      omega
    have hover := length_overwrite (b.ensureWritableBytes dat.length).buffer hfit
    unfold append hasWritten
    dsimp only
    rw [check_pos _ _ (by simpa [writableBytes, hover] using hw)]
    exact hover
  rw [hsize]
  unfold ensureWritableBytes at hw ⊢
  by_cases hl : dat.length > b.writableBytes
  · simp only [hl, ↓reduceIte] at hw ⊢
    obtain ⟨_, _, hspace⟩ := makeSpace_spec h hl
    rw [check_pos _ _ (by simpa using hspace), length_makeSpace h hl]
  · simp only [hl, ↓reduceIte]
    rw [check_pos _ _ (by simp; omega), if_neg (by omega)]

theorem readableBytes_append {b : Buffer} (h : b.Inv) (dat : List UInt8) :
    (b.append dat).readableBytes = b.readableBytes + dat.length := by
  obtain ⟨hi, hc⟩ := append_spec h dat
  rw [← hi.length_contents, hc, List.length_append, h.length_contents]

/-- What a call may do to the size: nothing, or bring it to less than twice the content. -/
def Grows (b b' : Buffer) : Prop :=
  b'.buffer.length ≤ max b.buffer.length (2 * b'.readableBytes)

theorem grows_of_length {b b' : Buffer} (h : b'.buffer.length = b.buffer.length) : Grows b b' := by
  unfold Grows
  omega

theorem grows_append {b : Buffer} (h : b.Inv) (dat : List UInt8) : Grows b (b.append dat) := by
  have hord := h.ordered
  have hbnd := h.bounded
  unfold Grows
  rw [length_append h, readableBytes_append h]
  unfold writableBytes readableBytes
  split <;> omega

theorem grows_readFd {b : Buffer} (h : b.Inv) (r : ReadvResult) : Grows b (b.readFd r).2 := by
  cases r with
  | error errno => exact grows_of_length rfl
  | bytes dat =>
    have hord := h.ordered
    have hbnd := h.bounded
    have hfit : b.writeIndex + (dat.take b.writableBytes).length ≤ b.buffer.length := by
      simp only [List.length_take, writableBytes]
      omega
    have hsize := length_overwrite b.buffer hfit
    unfold readFd
    by_cases hl : dat.length ≤ b.writableBytes
    · simp only [hl, ↓reduceIte]
      exact grows_of_length hsize
    · simp only [hl, ↓reduceIte]
      -- the vector is full when the spilled bytes are appended
      generalize hb' : ({ b with
        writeIndex := (overwrite b.buffer b.writeIndex (dat.take b.writableBytes)).length,
        buffer := overwrite b.buffer b.writeIndex (dat.take b.writableBytes) } : Buffer) = b'
      have hlen : b'.buffer.length = b.buffer.length := by
        rw [← hb']
        exact hsize
      have hinv : b'.Inv := by
        rw [← hb']
        refine ⟨?_, Nat.le_refl _, h.noAssert⟩
        show b.readIndex ≤ (overwrite b.buffer b.writeIndex _).length
        rw [hsize]
        omega
      have hgrow := grows_append hinv (dat.drop b.writableBytes)
      unfold Grows at hgrow ⊢
      rw [hlen] at hgrow
      exact hgrow

theorem length_retrieve (b : Buffer) (len : Nat) :
    (b.retrieve len).buffer.length = b.buffer.length := by
  unfold retrieve check retrieveAll
  dsimp only
  split <;> split <;> rfl

theorem exec_grows {b : Buffer} (h : b.Inv) {op : Op} (hp : b.pre op = true) :
    Grows b (b.exec op).2 := by
  cases op with
  | append dat => exact grows_append h dat
  | appendInt w v =>
    simp only [exec, appendInt_eq]
    exact grows_append h _
  | peekInt w =>
    have hw : w.bytes ≤ b.readableBytes := by simpa [pre] using hp
    simp only [exec, peekInt_eq h hw]
    exact grows_of_length rfl
  | retrieve len => exact grows_of_length (length_retrieve b len)
  | retrieveUntil k =>
    have hk : k ≤ b.readableBytes := by simpa [pre] using hp
    simp only [exec, retrieveUntil_eq h hk]
    exact grows_of_length (length_retrieve b k)
  | retrieveAsString len =>
    have hl : len ≤ b.readableBytes := by simpa [pre] using hp
    simp only [exec, retrieveAsString_eq h hl]
    exact grows_of_length (length_retrieve b len)
  | retrieveAllAsString =>
    simp only [exec, retrieveAllAsString, retrieveAsString_eq h (Nat.le_refl _)]
    exact grows_of_length (length_retrieve b _)
  | retrieveInt w =>
    simp only [exec, retrieveInt_eq]
    exact grows_of_length (length_retrieve b _)
  | retrieveAll => exact grows_of_length rfl
  | readInt w =>
    have hw : w.bytes ≤ b.readableBytes := by simpa [pre] using hp
    simp only [exec, readInt_eq h hw]
    exact grows_of_length (length_retrieve b _)
  | readFd r => exact grows_readFd h r

/-! ## Runs -/

/-- `ReadableBytes()` behind a call. -/
def load (_ : Buffer × List Out) (_ : Op) (t : Buffer × List Out) : List Nat := [t.1.readableBytes]

/-- The largest of the values, and 0 of none. -/
def peak (loads : List Nat) : Nat := loads.foldl max 0

theorem peak_snoc (loads : List Nat) (n : Nat) : peak (loads ++ [n]) = max (peak loads) n := by
  rw [peak, List.foldl_append]
  rfl

theorem peak_le {loads : List Nat} {bound : Nat} (h : ∀ n ∈ loads, n ≤ bound) :
    peak loads ≤ bound := by
  induction loads using List.reverseRecOn with
  | nil => exact Nat.zero_le _
  | append_singleton loads n ih =>
    rw [peak_snoc]
    exact Nat.max_le.mpr ⟨ih fun k hk => h k (List.mem_append_left _ hk), h n (by simp)⟩

/-- The vector has at most its initial size, or twice the size of the largest content so far. -/
def Proportional (loads : List Nat) (s : Buffer × List Out) : Prop :=
  s.1.Inv ∧ s.1.buffer.length ≤ max kInitialSize (2 * peak loads)

theorem step_proportional {loads : List Nat} {s t : Buffer × List Out} {op : Op}
    (h : Proportional loads s) (hs : step s op = some t) :
    Proportional (loads ++ load s op t) t := by
  obtain ⟨hinv, hle⟩ := h
  refine ⟨(step_refines hinv hs).1, ?_⟩
  unfold step at hs
  split at hs
  · rename_i hp
    have hgrow := exec_grows hinv hp
    cases hs
    unfold Grows at hgrow
    simp only [load, peak_snoc]
    omega
  · cases hs

/-- **The memory of a buffer stays proportional to its peak load.** After any sequence of calls
the vector has at most 1024 bytes or twice as many as have been readable behind one of the calls.
It does not grow at all as long as no more than 512 bytes are readable. -/
theorem size_le_twice_peak (ops : List Op) (b : Buffer) (outs : List Out)
    (hr : Machine.run step (Buffer.new, []) ops = some (b, outs)) :
    b.buffer.length ≤
      max 1024 (2 * peak (Machine.trace step load (Buffer.new, []) ops)) ∧
    ((∀ n ∈ Machine.trace step load (Buffer.new, []) ops, n ≤ 512) → b.buffer.length ≤ 1024) := by
  have hnew : Proportional [] (Buffer.new, []) := by
    refine ⟨inv_new, ?_⟩
    simp only [Buffer.new, List.length_replicate]
    exact Nat.le_max_left _ _
  have hkeep : ∀ {loads s op t}, Proportional loads s → step s op = some t →
      Proportional (loads ++ load s op t) t := step_proportional
  have hle := (Machine.trace_invariant hkeep hnew hr).2
  rw [List.nil_append, kInitialSize] at hle
  refine ⟨hle, fun hsmall => ?_⟩
  have hpeak := peak_le hsmall
  dsimp only at hle
  omega

/-- The vector grows with 900 consumed bytes in it: 2000 bytes for 1100 readable ones. -/
theorem size_le_twice_peak_consumed : ∃ b outs,
    Machine.run step (Buffer.new, []) [.append (List.replicate 1000 1), .retrieve 900,
      .append (List.replicate 1000 2)] = some (b, outs) ∧
    b.readIndex = 900 ∧ b.readableBytes = 1100 ∧ b.buffer.length = 2000 ∧
    b.buffer.length ≤ max 1024 (2 * peak (Machine.trace step load (Buffer.new, [])
      [.append (List.replicate 1000 1), .retrieve 900, .append (List.replicate 1000 2)])) := by
  have hobs : (Machine.run step (Buffer.new, []) [.append (List.replicate 1000 1), .retrieve 900,
      .append (List.replicate 1000 2)]).map
      (fun s => (s.1.readIndex, s.1.readableBytes, s.1.buffer.length)) =
      some (900, 1100, 2000) := by
    decide +kernel
  obtain ⟨⟨b, outs⟩, hr, heq⟩ := Option.map_eq_some_iff.mp hobs
  simp only [Prod.mk.injEq] at heq
  exact ⟨b, outs, hr, heq.1, heq.2.1, heq.2.2, (size_le_twice_peak _ b outs hr).1⟩

end Buffer

end LinuxNet
