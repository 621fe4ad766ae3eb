import Mathlib.Data.List.Basic

/-!
# Windows of a flat memory

A flat memory is a list. `window mem lo hi` is what lies at the positions
`lo .. hi - 1`, `overwrite mem pos dat` is the memory after a block copy of
`dat` to position `pos`. The lemmas say what a copy inside the memory does to a
window that ends where the copy starts or ends.
-/

namespace LinuxNet.Lib.Window

variable {α : Type*}

def window (mem : List α) (lo hi : Nat) : List α := (mem.take hi).drop lo

def overwrite (mem : List α) (pos : Nat) (dat : List α) : List α :=
  mem.take pos ++ dat ++ mem.drop (pos + dat.length)

@[simp] theorem length_window (mem : List α) (lo hi : Nat) :
    (window mem lo hi).length = min hi mem.length - lo := by
  simp [window]

@[simp] theorem window_self (mem : List α) (lo : Nat) : window mem lo lo = [] := by
  apply List.eq_nil_of_length_eq_zero
  simp only [length_window]
  omega

theorem drop_window (mem : List α) (lo hi n : Nat) :
    (window mem lo hi).drop n = window mem (lo + n) hi := by
  simp [window, List.drop_drop]

theorem take_window (mem : List α) {lo hi n : Nat} (h : lo + n ≤ hi) :
    (window mem lo hi).take n = window mem lo (lo + n) := by
  simp only [window, List.take_drop, List.take_take]
  rw [Nat.min_eq_left h]

theorem getElem?_window (mem : List α) {lo hi k : Nat} (h : lo + k < hi) :
    (window mem lo hi)[k]? = mem[lo + k]? := by
  rw [window, List.getElem?_drop, List.getElem?_take_of_lt h]

/-- Windows of one length are compared position by position. -/
theorem window_eq_iff {mem mem' : List α} {lo hi lo' hi' n : Nat} (h : hi = lo + n)
    (h' : hi' = lo' + n) (hm : hi ≤ mem.length) (hm' : hi' ≤ mem'.length) :
    window mem lo hi = window mem' lo' hi' ↔ ∀ k < n, mem[lo + k]? = mem'[lo' + k]? := by
  constructor
  · intro heq k hk
    rw [← getElem?_window mem (by omega : lo + k < hi), heq, getElem?_window mem' (by omega)]
  · intro hall
    apply List.ext_getElem?
    intro k
    by_cases hk : k < n
    · rw [getElem?_window mem (by omega), getElem?_window mem' (by omega), hall k hk]
    · rw [List.getElem?_eq_none (by rw [length_window]; omega),
        List.getElem?_eq_none (by rw [length_window]; omega)]

theorem length_overwrite (mem : List α) {pos : Nat} {dat : List α}
    (h : pos + dat.length ≤ mem.length) : (overwrite mem pos dat).length = mem.length := by
  simp only [overwrite, List.length_append, List.length_take, List.length_drop]
  omega

/-- A copy to the end of a window extends the window by what is copied. -/
theorem window_overwrite_extend (mem : List α) {lo pos : Nat} {dat : List α}
    (hp : pos ≤ mem.length) (h : lo ≤ pos) :
    window (overwrite mem pos dat) lo (pos + dat.length) = window mem lo pos ++ dat := by
  have hl : (mem.take pos).length = pos := by simp [hp]
  have ht : (overwrite mem pos dat).take (pos + dat.length) = mem.take pos ++ dat := by
    unfold overwrite
    exact List.take_left' (by simp [hl])
  unfold window
  rw [ht, List.drop_append_of_le_length (by omega)]

/-- What is copied is there. -/
theorem window_overwrite_self (mem : List α) {pos : Nat} {dat : List α} (hp : pos ≤ mem.length) :
    window (overwrite mem pos dat) pos (pos + dat.length) = dat := by
  rw [window_overwrite_extend mem hp (Nat.le_refl pos), window_self, List.nil_append]

/-- A copy behind the end of a window leaves the window alone. -/
theorem window_overwrite_above (mem : List α) {lo hi pos : Nat} {dat : List α}
    (hp : pos ≤ mem.length) (h : hi ≤ pos) :
    window (overwrite mem pos dat) lo hi = window mem lo hi := by
  have hl : hi ≤ (mem.take pos).length := by
    rw [List.length_take]
    omega
  unfold window overwrite
  rw [List.append_assoc, List.take_append_of_le_length hl, List.take_take, Nat.min_eq_left h]

/-- Memory added at the end is above every old window. -/
theorem window_append (mem ext : List α) {lo hi : Nat} (h : hi ≤ mem.length) :
    window (mem ++ ext) lo hi = window mem lo hi := by
  unfold window
  rw [List.take_append_of_le_length h]

/-- A window reads nothing above its end. -/
theorem window_take (mem : List α) {lo hi n : Nat} (h : hi ≤ n) :
    window (mem.take n) lo hi = window mem lo hi := by
  unfold window
  rw [List.take_take, Nat.min_eq_left h]

/-- The memory up to some point inside of what is copied. -/
theorem take_overwrite (mem : List α) {pos n : Nat} {dat : List α} (hp : pos ≤ mem.length)
    (hn : n ≤ dat.length) :
    (overwrite mem pos dat).take (pos + n) = mem.take pos ++ dat.take n := by
  have hl : (mem.take pos).length = pos := by simp [hp]
  have hin : pos + n ≤ (mem.take pos ++ dat).length := by
    rw [List.length_append, hl]
    omega
  unfold overwrite
  rw [List.take_append_of_le_length hin, List.take_append, hl, Nat.add_sub_cancel_left,
    List.take_of_length_le (by omega)]

/-- A block copied to the start of the memory is read as the block itself. -/
theorem window_overwrite_zero (mem : List α) {lo hi : Nat} {dat : List α} (h : hi ≤ dat.length) :
    window (overwrite mem 0 dat) lo hi = window dat lo hi := by
  unfold overwrite
  rw [List.take_zero, List.nil_append, window_append _ _ h]

end LinuxNet.Lib.Window
