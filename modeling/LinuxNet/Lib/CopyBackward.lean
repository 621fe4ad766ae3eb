import LinuxNet.Lib.Window
import Mathlib.Data.List.PeriodicityLemma

/-!
# Copying a range from its end

`copyBackward mem first last dLast` copies the positions `first .. last - 1` so that the copy ends
at `dLast`, one element after the other and the last one first, as the standard defines
`std::copy_backward`. It is meant for a destination that ends behind the source. For one that ends
inside of it, or at its end, an element may be overwritten before it is copied: then the copy is
the source if and only if the source repeats itself with the distance of the two ranges.
-/

namespace LinuxNet.Lib.CopyBackward

open LinuxNet.Lib.Window

variable {α : Type*}

/-- `*to = value`; nothing if there is nothing to be read. -/
def assign (mem : List α) (dest : Nat) (value : Option α) : List α :=
  value.elim mem (mem.set dest)

/-- `*--d_last = *--last`, `n` times. -/
def copyLast : Nat → List α → Nat → Nat → List α
  | 0, mem, _, _ => mem
  | n + 1, mem, last, dLast =>
    copyLast n (assign mem (dLast - 1) mem[last - 1]?) (last - 1) (dLast - 1)

/-- `while(first != last) *--d_last = *--last`. -/
def copyBackward (mem : List α) (first last dLast : Nat) : List α :=
  copyLast (last - first) mem last dLast

variable {mem : List α} {n last dLast : Nat}

@[simp] theorem length_assign (mem : List α) (dest : Nat) (value : Option α) :
    (assign mem dest value).length = mem.length := by
  cases value <;> simp [assign]

theorem getElem?_assign_self {dest : Nat} {value : Option α} (hd : dest < mem.length)
    (hv : value.isSome) : (assign mem dest value)[dest]? = value := by
  obtain ⟨x, rfl⟩ := Option.isSome_iff_exists.mp hv
  simp [assign, hd]

theorem getElem?_assign_ne {dest p : Nat} (value : Option α) (hp : dest ≠ p) :
    (assign mem dest value)[p]? = mem[p]? := by
  cases value with
  | none => rfl
  | some x => simp [assign, List.getElem?_set_ne hp]

/-- Nothing else is touched. -/
theorem getElem?_copyLast_of_outside {p : Nat} (hp : p < dLast - n ∨ dLast ≤ p) (hn : n ≤ dLast) :
    (copyLast n mem last dLast)[p]? = mem[p]? := by
  induction n generalizing mem last dLast with
  | zero => rfl
  | succ n ih =>
    rw [copyLast, ih (by omega) (by omega), getElem?_assign_ne _ (by omega)]

/-- A position of the destination holds, at the end, what the position it was copied from holds:
that one was written before, or is not written at all. -/
theorem getElem?_copyLast {p : Nat} (hlo : dLast - n ≤ p) (hhi : p < dLast) (hn : n ≤ dLast)
    (hd : dLast < last) (hl : last ≤ mem.length) :
    (copyLast n mem last dLast)[p]? = (copyLast n mem last dLast)[p + (last - dLast)]? := by
  induction n generalizing mem last dLast with
  | zero => omega
  | succ n ih =>
    have hdist : last - 1 - (dLast - 1) = last - dLast := by omega
    rw [copyLast]
    by_cases hp : p < dLast - 1
    · rw [← hdist]
      exact ih (by omega) hp (by omega) (by omega) (by rw [length_assign]; omega)
    · -- the first element that is copied
      have hfirst : p = dLast - 1 := by omega
      have hsource : p + (last - dLast) = last - 1 := by omega
      have hsome : (mem[last - 1]?).isSome := by
        rw [List.getElem?_eq_getElem (by omega)]
        rfl
      rw [hsource, hfirst, getElem?_copyLast_of_outside (.inr (Nat.le_refl _)) (by omega),
        getElem?_copyLast_of_outside (.inr (by omega)) (by omega),
        getElem?_assign_self (by omega) hsome, getElem?_assign_ne _ (by omega)]

/-- A range that is copied to itself. -/
theorem copyLast_self (hl : last ≤ mem.length) (hn : n ≤ last) :
    copyLast n mem last last = mem := by
  induction n generalizing last with
  | zero => rfl
  | succ n ih =>
    have hself : assign mem (last - 1) mem[last - 1]? = mem := by
      rw [List.getElem?_eq_getElem (by omega)]
      exact List.set_getElem_self (by omega)
    rw [copyLast, hself]
    exact ih (by omega) (by omega)

theorem length_copyLast : (copyLast n mem last dLast).length = mem.length := by
  induction n generalizing mem last dLast with
  | zero => rfl
  | succ n ih => rw [copyLast, ih, length_assign]

/-- If the source repeats itself, every element arrives. Going down from the last one, the element
that stands where it is copied from has arrived before. -/
theorem getElem?_copyLast_of_period {first : Nat} (hd : dLast < last) (hl : last ≤ mem.length)
    (hn : last - first ≤ dLast)
    (hper : ∀ k, k + (last - dLast) < last - first →
      mem[first + k]? = mem[first + (k + (last - dLast))]?)
    {m k : Nat} (hm : last - first - k = m) (hk : k < last - first) :
    (copyLast (last - first) mem last dLast)[dLast - (last - first) + k]? = mem[first + k]? := by
  induction m using Nat.strongRecOn generalizing k with
  | ind m ih =>
    rw [getElem?_copyLast (by omega) (by omega) hn hd hl, Nat.add_assoc]
    by_cases hin : k + (last - dLast) < last - first
    · rw [ih _ (by omega) rfl hin]
      exact (hper k hin).symm
    · have hpos : dLast - (last - first) + (k + (last - dLast)) = first + k := by omega
      rw [hpos]
      exact getElem?_copyLast_of_outside (.inr (by omega)) hn

theorem hasPeriod_window_iff {lo hi p : Nat} (h : hi ≤ mem.length) :
    (window mem lo hi).HasPeriod p ↔
      ∀ k, k + p < hi - lo → mem[lo + k]? = mem[lo + (k + p)]? := by
  rw [List.hasPeriod_iff_getElem?, length_window, Nat.min_eq_left h]
  constructor
  · intro hper k hk
    have hget := hper k (by omega)
    rwa [getElem?_window mem (by omega), getElem?_window mem (by omega)] at hget
  · intro hper k hk
    rw [getElem?_window mem (by omega), getElem?_window mem (by omega)]
    exact hper k (by omega)

/-- **A copy to a destination that does not end behind the source** is the source if and only if
the source has the distance of the two ranges as a period. -/
theorem window_copyBackward_iff {first : Nat} (hf : first ≤ last) (hl : last ≤ mem.length)
    (hd : dLast ≤ last) (hn : last - first ≤ dLast) :
    window (copyBackward mem first last dLast) (dLast - (last - first)) dLast =
        window mem first last ↔
      (window mem first last).HasPeriod (last - dLast) := by
  have hlen : (copyLast (last - first) mem last dLast).length = mem.length := length_copyLast
  rw [hasPeriod_window_iff hl, copyBackward, window_eq_iff (by omega : dLast = dLast - (last - first) + (last - first))
    (by omega : last = first + (last - first)) (by omega) hl]
  rcases Nat.eq_or_lt_of_le hd with rfl | hlt
  · have hstart : dLast - (dLast - first) = first := by omega
    rw [copyLast_self hl hn, hstart, Nat.sub_self]
    exact iff_of_true (fun k _ => rfl) (fun k _ => rfl)
  · constructor
    · intro h k hk
      have hsource := h k (by omega)
      rw [getElem?_copyLast (by omega) (by omega) hn hlt hl, Nat.add_assoc, h _ hk] at hsource
      exact hsource.symm
    · intro hper k hk
      exact getElem?_copyLast_of_period hlt hl hn hper rfl hk

end LinuxNet.Lib.CopyBackward
