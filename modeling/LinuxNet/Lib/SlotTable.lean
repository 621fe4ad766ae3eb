import Mathlib.Data.Finset.Card
import Mathlib.Data.Finset.Range
import Mathlib.Logic.Function.Basic

/-!
# Tables of optional entries

A vector indexed by small integers whose entries may be empty, as a function
from the index. Two quantities are kept beside such a table in practice: the
number of entries in use and the largest index in use. `occupied` and `IsTop`
are what they stand for, and the lemmas say how storing and clearing one entry
moves them, with `scanDown` for the search below a cleared maximum.
-/

namespace LinuxNet.Lib.SlotTable

variable {α : Type*}

/-- The number of entries in use below `size`. -/
def occupied (t : Nat → Option α) (size : Nat) : Nat :=
  ((Finset.range size).filter fun i => (t i).isSome).card

theorem occupied_empty (size : Nat) : occupied (fun _ => (none : Option α)) size = 0 := by
  simp [occupied]

theorem occupied_store {t : Nat → Option α} {size i : Nat} (a : α) (hi : i < size)
    (h : t i = none) : occupied (Function.update t i (some a)) size = occupied t size + 1 := by
  have hset : (Finset.range size).filter (fun j => (Function.update t i (some a) j).isSome) =
      insert i ((Finset.range size).filter fun j => (t j).isSome) := by
    ext j
    by_cases hj : j = i
    · subst hj
      simp [hi]
    · simp [hj]
  unfold occupied
  rw [hset, Finset.card_insert_of_notMem (by simp [h])]

theorem occupied_clear {t : Nat → Option α} {size i : Nat} (hi : i < size)
    (h : (t i).isSome) : occupied (Function.update t i none) size + 1 = occupied t size := by
  have hset : (Finset.range size).filter (fun j => (Function.update t i none j).isSome) =
      ((Finset.range size).filter fun j => (t j).isSome).erase i := by
    ext j
    by_cases hj : j = i
    · subst hj
      simp
    · simp [hj]
  unfold occupied
  rw [hset, Finset.card_erase_add_one (by simp [hi, h])]

theorem countP_range_eq_occupied (t : Nat → Option α) (size : Nat) :
    ((List.range size).countP fun i => (t i).isSome) = occupied t size := by
  induction size with
  | zero => rfl
  | succ n ih =>
    rw [List.range_succ, List.countP_append, ih]
    unfold occupied
    rw [Finset.range_add_one, Finset.filter_insert]
    by_cases hs : (t n).isSome
    · rw [if_pos hs, Finset.card_insert_of_notMem (by simp)]
      simp [hs]
    · rw [if_neg hs]
      simp [hs]

/-- No entry at `lo` or above: counting up to `lo` counts everything. -/
theorem occupied_of_empty_above {t : Nat → Option α} {lo hi : Nat} (hle : lo ≤ hi)
    (h : ∀ i, lo ≤ i → t i = none) : occupied t hi = occupied t lo := by
  unfold occupied
  congr 1
  ext i
  simp only [Finset.mem_filter, Finset.mem_range]
  constructor
  · rintro ⟨_, hs⟩
    refine ⟨?_, hs⟩
    by_contra hn
    simp [h i (by omega)] at hs
  · rintro ⟨hi', hs⟩
    exact ⟨by omega, hs⟩

/-- Different values take different slots. -/
theorem length_le_occupied {t : Nat → Option α} {size : Nat} {l : List α} (hnd : l.Nodup)
    (slot : α → Nat) (hslot : ∀ a ∈ l, t (slot a) = some a) (hlt : ∀ a ∈ l, slot a < size) :
    l.length ≤ occupied t size := by
  have hinj : ∀ a ∈ l, ∀ b ∈ l, slot a = slot b → a = b := by
    intro a ha b hb heq
    have hsame := hslot a ha
    rw [heq, hslot b hb] at hsame
    exact (Option.some.inj hsame).symm
  have hslots : (l.map slot).Nodup := List.Nodup.map_on hinj hnd
  have hsub : (l.map slot).toFinset ⊆ (Finset.range size).filter fun i => (t i).isSome := by
    intro i hi
    obtain ⟨a, ha, rfl⟩ := List.mem_map.mp (List.mem_toFinset.mp hi)
    rw [Finset.mem_filter, Finset.mem_range]
    exact ⟨hlt a ha, by rw [hslot a ha]; rfl⟩
  calc l.length = (l.map slot).length := (List.length_map slot).symm
    _ = (l.map slot).toFinset.card := (List.toFinset_card_of_nodup hslots).symm
    _ ≤ occupied t size := Finset.card_le_card hsub

/-- `m` is the largest index in use, and zero when none above zero is. -/
structure IsTop (t : Nat → Option α) (m : Nat) : Prop where
  above : ∀ i, m < i → t i = none
  used : m ≠ 0 → (t m).isSome

theorem isTop_empty : IsTop (fun _ => (none : Option α)) 0 :=
  ⟨fun _ _ => rfl, fun h => absurd rfl h⟩

theorem IsTop.store {t : Nat → Option α} {m : Nat} (h : IsTop t m) (i : Nat) (a : α) :
    IsTop (Function.update t i (some a)) (if m < i then i else m) := by
  by_cases hm : m < i
  · simp only [hm, ↓reduceIte]
    refine ⟨fun j hj => ?_, fun _ => by simp⟩
    rw [Function.update_of_ne (by omega)]
    exact h.above j (by omega)
  · simp only [hm, ↓reduceIte]
    refine ⟨fun j hj => ?_, fun h0 => ?_⟩
    · rw [Function.update_of_ne (by omega)]
      exact h.above j hj
    · by_cases hmi : m = i
      · simp [hmi]
      · rw [Function.update_of_ne hmi]
        exact h.used h0

/-- Go down from `i` to the next index in use; stop at zero. -/
def scanDown (t : Nat → Option α) : Nat → Nat
  | 0 => 0
  | i + 1 => if (t (i + 1)).isNone then scanDown t i else i + 1

theorem isTop_scanDown {t : Nat → Option α} {i : Nat} (h : ∀ j, i < j → t j = none) :
    IsTop t (scanDown t i) := by
  induction i with
  | zero => exact ⟨h, fun h0 => absurd rfl h0⟩
  | succ i ih =>
    unfold scanDown
    by_cases hn : (t (i + 1)).isNone
    · simp only [hn, ↓reduceIte]
      apply ih
      intro j hj
      by_cases hji : j = i + 1
      · subst hji
        simpa using hn
      · exact h j (by omega)
    · simp only [hn]
      exact ⟨h, fun _ => by simpa [Option.isSome_iff_ne_none] using hn⟩

theorem IsTop.clear {t : Nat → Option α} {m : Nat} (h : IsTop t m) (i : Nat) :
    IsTop (Function.update t i none)
      (if m = i then scanDown (Function.update t i none) (i - 1) else m) := by
  by_cases hm : m = i
  · simp only [hm, ↓reduceIte]
    apply isTop_scanDown
    intro j hj
    by_cases hji : j = i
    · simp [hji]
    · rw [Function.update_of_ne hji]
      exact h.above j (by omega)
  · simp only [hm, ↓reduceIte]
    refine ⟨fun j hj => ?_, fun h0 => ?_⟩
    · by_cases hji : j = i
      · simp [hji]
      · rw [Function.update_of_ne hji]
        exact h.above j hj
    · rw [Function.update_of_ne hm]
      exact h.used h0

end LinuxNet.Lib.SlotTable
