import LinuxNet.Lib.CopyBackward
import LinuxNet.Buffer.Fifo

/-!
# Moving the unread bytes to the front

`MakeSpace` moves the unread bytes to the beginning of the vector with `std::copy_backward`. The
source comment rules out `memcpy` because the two ranges overlap, but they overlap the wrong way
round for `copy_backward` as well: it copies the last byte first, and the destination ends inside
of the source. An implementation that turns the copy into a `memmove` hides this; the model of
`Append` follows such a one. Here the copy is the one of the standard.
-/

namespace LinuxNet

set_option autoImplicit false

open LinuxNet.Lib LinuxNet.Lib.Window LinuxNet.Lib.CopyBackward

namespace Buffer

/-- `MakeSpace` with `copy_backward` as the standard defines it. -/
def stdMakeSpace (b : Buffer) (len : Nat) : Buffer := b.makeSpaceWith copyBackward len

theorem stdMakeSpace_move {b : Buffer} {len : Nat} (h : ¬ b.writableBytes + b.readIndex < len) :
    b.stdMakeSpace len =
      { b with
        buffer := copyBackward b.buffer b.readIndex b.writeIndex b.readableBytes
        readIndex := 0
        writeIndex := b.readableBytes } := if_neg h

/-- **When compaction keeps the data.** With the `copy_backward` of the standard, the bytes
`0 .. readable - 1` after the move branch of `MakeSpace` are the unread bytes before it if and only
if the unread bytes have the period `read_index_`: the byte `k` is the byte `k + read_index_`
whenever both are unread. No data is lost, in particular, if `read_index_` is 0 or no fewer bytes
have been read than are unread. -/
theorem make_space_keeps_iff (b : Buffer) (len : Nat) (hord : b.readIndex ≤ b.writeIndex)
    (hbnd : b.writeIndex ≤ b.buffer.length) (hmove : ¬ b.writableBytes + b.readIndex < len) :
    window (b.stdMakeSpace len).buffer 0 b.readableBytes =
        window b.buffer b.readIndex b.writeIndex ↔
      ∀ k, k + b.readIndex < b.readableBytes →
        b.contents[k]? = b.contents[k + b.readIndex]? := by
  have hlen : b.contents.length = b.readableBytes := by
    rw [contents, length_window, Nat.min_eq_left hbnd, readableBytes]
  have hdist : b.writeIndex - b.readableBytes = b.readIndex := by
    rw [readableBytes]
    omega
  have hiff := window_copyBackward_iff hord hbnd (Nat.sub_le b.writeIndex b.readIndex)
    (Nat.le_refl b.readableBytes)
  rw [← readableBytes, Nat.sub_self, hdist, ← contents, List.hasPeriod_iff_getElem?, hlen] at hiff
  rw [stdMakeSpace_move hmove]
  refine hiff.trans ⟨fun h k hk => h k (by omega), fun h k hk => h k (by omega)⟩

/-- Three bytes have been read and three are unread. -/
theorem make_space_keeps_iff_half_read :
    window (stdMakeSpace ⟨3, 6, [1, 2, 3, 4, 5, 6], []⟩ 2).buffer 0 3 = [4, 5, 6] :=
  (make_space_keeps_iff ⟨3, 6, [1, 2, 3, 4, 5, 6], []⟩ 2 (by decide) (by decide) (by decide)).mpr
    (fun k hk => absurd hk (by simp [readableBytes]))

/-- Four bytes are appended to a new buffer, one is read, and space is made for 1021 more. All that
is left of the three unread bytes is the last one. -/
theorem make_space_overwrites :
    ∃ b : Buffer, b = (Buffer.new.append [1, 2, 3, 4]).retrieve 1 ∧
      b.readIndex ≤ b.writeIndex ∧ b.writeIndex ≤ b.buffer.length ∧
      b.writableBytes < 1021 ∧ ¬ b.writableBytes + b.readIndex < 1021 ∧
      window b.buffer b.readIndex b.writeIndex = [2, 3, 4] ∧
      window (b.stdMakeSpace 1021).buffer 0 b.readableBytes = [4, 4, 4] ∧
      ¬ window (b.stdMakeSpace 1021).buffer 0 b.readableBytes =
        window b.buffer b.readIndex b.writeIndex := by
  refine ⟨_, rfl, ?_⟩
  decide +kernel

end Buffer

end LinuxNet
