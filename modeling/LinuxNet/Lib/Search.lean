import Mathlib.Data.List.Basic

/-!
# The search for a pattern

`search pat text` is the first position at which the pattern stands in the text, as `std::search`
finds it. A search that has failed need not be repeated when the text grows: it can be resumed
where a pattern may still begin. `Pieces` cuts a text at every occurrence it finds from left to
right; the cut is unique, and it exists for every pattern that is not empty.
-/

namespace LinuxNet.Lib.Search

variable {α : Type*}

/-- The pattern stands in the text from the position `i` on. -/
def OccursAt (pat text : List α) (i : Nat) : Prop := pat <+: text.drop i

theorem occursAt_zero {pat text : List α} : OccursAt pat text 0 ↔ pat <+: text := by
  simp [OccursAt]

theorem occursAt_succ {pat text : List α} {x : α} {i : Nat} :
    OccursAt pat (x :: text) (i + 1) ↔ OccursAt pat text i := by
  simp [OccursAt]

theorem occursAt_drop {pat text : List α} {k i : Nat} :
    OccursAt pat (text.drop k) i ↔ OccursAt pat text (k + i) := by
  simp [OccursAt, List.drop_drop]

theorem OccursAt.length_le {pat text : List α} {i : Nat} (h : OccursAt pat text i) :
    pat.length ≤ text.length - i := by
  have hle := List.IsPrefix.length_le h
  rwa [List.length_drop] at hle

/-- What is added at the end does not touch the occurrences that end before it. -/
theorem occursAt_append {pat text more : List α} {i : Nat} (hi : i + pat.length ≤ text.length) :
    OccursAt pat (text ++ more) i ↔ OccursAt pat text i := by
  have hdrop : (text ++ more).drop i = text.drop i ++ more :=
    List.drop_append_of_le_length (by omega)
  unfold OccursAt
  rw [hdrop]
  constructor
  · intro h
    exact List.prefix_of_prefix_length_le h (List.prefix_append _ _)
      (by rw [List.length_drop]; omega)
  · intro h
    exact h.trans (List.prefix_append _ _)

variable [DecidableEq α]

/-- The first position of the pattern. -/
def search (pat : List α) : List α → Option Nat
  | [] => if pat = [] then some 0 else none
  | x :: text => if pat <+: x :: text then some 0 else (search pat text).map (· + 1)

variable {pat text more : List α} {i k : Nat}

theorem search_eq_none_iff : search pat text = none ↔ ∀ i, ¬ OccursAt pat text i := by
  induction text with
  | nil => simp [search, OccursAt]
  | cons x text ih =>
    by_cases hx : pat <+: x :: text
    · simp only [search, hx, if_true, reduceCtorEq, false_iff, not_forall, not_not]
      exact ⟨0, occursAt_zero.mpr hx⟩
    · simp only [search, hx, if_false, Option.map_eq_none_iff, ih]
      constructor
      · intro h i
        cases i with
        | zero => exact fun h0 => hx (occursAt_zero.mp h0)
        | succ i => exact fun hi => h i (occursAt_succ.mp hi)
      · intro h i hi
        exact h (i + 1) (occursAt_succ.mpr hi)

/-- The position found is an occurrence, and there is none before it. -/
theorem search_eq_some_iff :
    search pat text = some i ↔ OccursAt pat text i ∧ ∀ j < i, ¬ OccursAt pat text j := by
  induction text generalizing i with
  | nil =>
    by_cases hp : pat = []
    · subst hp
      simp only [search, if_true, Option.some.injEq, OccursAt, List.nil_prefix, not_true_eq_false,
        true_and]
      constructor
      · rintro rfl j hj
        omega
      · intro h
        by_contra hi
        exact h 0 (by omega)
    · simp [search, OccursAt, hp]
  | cons x text ih =>
    by_cases hx : pat <+: x :: text
    · simp only [search, hx, if_true, Option.some.injEq]
      constructor
      · rintro rfl
        exact ⟨occursAt_zero.mpr hx, fun j hj => absurd hj (Nat.not_lt_zero j)⟩
      · rintro ⟨-, hfirst⟩
        by_contra hi
        exact hfirst 0 (by omega) (occursAt_zero.mpr hx)
    · simp only [search, hx, if_false, Option.map_eq_some_iff]
      constructor
      · rintro ⟨i, hi, rfl⟩
        obtain ⟨hocc, hfirst⟩ := ih.mp hi
        refine ⟨occursAt_succ.mpr hocc, fun j hj => ?_⟩
        cases j with
        | zero => exact fun h0 => hx (occursAt_zero.mp h0)
        | succ j => exact fun hj' => hfirst j (by omega) (occursAt_succ.mp hj')
      · rintro ⟨hocc, hfirst⟩
        cases i with
        | zero => exact absurd (occursAt_zero.mp hocc) hx
        | succ i =>
          refine ⟨i, ih.mpr ⟨occursAt_succ.mp hocc, fun j hj hj' => ?_⟩, rfl⟩
          exact hfirst (j + 1) (by omega) (occursAt_succ.mpr hj')

/-- Where no occurrence begins, the search need not look. -/
theorem search_drop (h : ∀ j < k, ¬ OccursAt pat text j) :
    search pat text = (search pat (text.drop k)).map (k + ·) := by
  cases hs : search pat (text.drop k) with
  | none =>
    rw [Option.map_none, search_eq_none_iff]
    rw [search_eq_none_iff] at hs
    intro j hj
    by_cases hjk : j < k
    · exact h j hjk hj
    · apply hs (j - k)
      rw [occursAt_drop, Nat.add_sub_cancel' (by omega)]
      exact hj
  | some i =>
    rw [Option.map_some, search_eq_some_iff]
    rw [search_eq_some_iff, occursAt_drop] at hs
    refine ⟨hs.1, fun j hj hocc => ?_⟩
    by_cases hjk : j < k
    · exact h j hjk hocc
    · apply hs.2 (j - k) (by omega)
      rw [occursAt_drop, Nat.add_sub_cancel' (by omega)]
      exact hocc

/-- A failed search is resumed in the longer text where a pattern may still begin. -/
theorem search_resume (h : search pat text = none) (hk : ∀ j < k, j + pat.length ≤ text.length) :
    search pat (text ++ more) = (search pat ((text ++ more).drop k)).map (k + ·) := by
  apply search_drop
  intro j hj hocc
  exact search_eq_none_iff.mp h j ((occursAt_append (hk j hj)).mp hocc)

/-- What is added at the end does not change a search that has succeeded. -/
theorem search_append (h : search pat text = some i) (hpat : pat ≠ []) :
    search pat (text ++ more) = some i := by
  obtain ⟨hocc, hfirst⟩ := search_eq_some_iff.mp h
  have hlen := hocc.length_le
  have hpos : 0 < pat.length := List.length_pos_iff.mpr hpat
  rw [search_eq_some_iff]
  refine ⟨(occursAt_append (by omega)).mpr hocc, fun j hj hocc' => ?_⟩
  exact hfirst j hj ((occursAt_append (by omega)).mp hocc')

/-- The pieces of the text in front of the occurrences, and the rest behind the last one. -/
inductive Pieces (pat : List α) : List α → List (List α) → List α → Prop where
  | rest {text : List α} : search pat text = none → Pieces pat text [] text
  | piece {text rest : List α} {i : Nat} {pieces : List (List α)} : search pat text = some i →
      Pieces pat (text.drop (i + pat.length)) pieces rest →
      Pieces pat text (text.take i :: pieces) rest

theorem Pieces.unique {rest rest' : List α} {pieces pieces' : List (List α)}
    (h : Pieces pat text pieces rest) (h' : Pieces pat text pieces' rest') :
    pieces = pieces' ∧ rest = rest' := by
  induction h generalizing pieces' rest' with
  | rest hs =>
    cases h' with
    | rest => exact ⟨rfl, rfl⟩
    | piece hs' => rw [hs] at hs'; cases hs'
  | piece hs _ ih =>
    cases h' with
    | rest hs' => rw [hs] at hs'; cases hs'
    | piece hs' hrest =>
      rw [hs] at hs'
      cases hs'
      obtain ⟨rfl, rfl⟩ := ih hrest
      exact ⟨rfl, rfl⟩

theorem Pieces.total (hpat : pat ≠ []) (text : List α) :
    ∃ pieces rest, Pieces pat text pieces rest := by
  induction hn : text.length using Nat.strongRecOn generalizing text with
  | ind n ih =>
    cases hs : search pat text with
    | none => exact ⟨[], text, .rest hs⟩
    | some i =>
      have hlen := (search_eq_some_iff.mp hs).1.length_le
      have hpos : 0 < pat.length := List.length_pos_iff.mpr hpat
      obtain ⟨pieces, rest, hrest⟩ := ih (text.drop (i + pat.length)).length
        (by rw [List.length_drop]; omega) _ rfl
      exact ⟨_, _, .piece hs hrest⟩

/-- A piece that is complete stays one when the text grows. -/
theorem Pieces.piece_append {rest : List α} {pieces : List (List α)} (hpat : pat ≠ [])
    (hs : search pat text = some i)
    (h : Pieces pat (text.drop (i + pat.length) ++ more) pieces rest) :
    Pieces pat (text ++ more) (text.take i :: pieces) rest := by
  have hlen := (search_eq_some_iff.mp hs).1.length_le
  have hpos : 0 < pat.length := List.length_pos_iff.mpr hpat
  have htake : (text ++ more).take i = text.take i := List.take_append_of_le_length (by omega)
  have hdrop : (text ++ more).drop (i + pat.length) = text.drop (i + pat.length) ++ more :=
    List.drop_append_of_le_length (by omega)
  rw [← htake]
  rw [← hdrop] at h
  exact .piece (search_append hs hpat) h

end LinuxNet.Lib.Search
