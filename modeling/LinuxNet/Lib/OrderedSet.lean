import Mathlib.Order.Lattice
import Mathlib.Data.List.Basic
import Mathlib.Data.List.Nodup
import Mathlib.Data.List.TakeWhile

/-!
# Ordered sets

A set kept as a strictly increasing list, with the operations of a search tree
container: insertion and removal of an element, the first element, and the
splitting of the set at a bound.
-/

namespace LinuxNet.Lib

set_option autoImplicit false

/-- A finite set, listed in increasing order. -/
structure OrderedSet (α : Type*) [LinearOrder α] where
  toList : List α
  sorted : toList.Pairwise (· < ·)

namespace OrderedSet

variable {α : Type*} [LinearOrder α]

instance : Membership α (OrderedSet α) := ⟨fun s a => a ∈ s.toList⟩

instance (a : α) (s : OrderedSet α) : Decidable (a ∈ s) :=
  inferInstanceAs (Decidable (a ∈ s.toList))

theorem mem_toList {a : α} {s : OrderedSet α} : a ∈ s.toList ↔ a ∈ s := Iff.rfl

def empty : OrderedSet α := ⟨[], List.Pairwise.nil⟩

def size (s : OrderedSet α) : Nat := s.toList.length

/-- The first element. -/
def begin? (s : OrderedSet α) : Option α := s.toList.head?

/-- Put `a` in its place; nothing changes if it is there already. -/
def insertList (a : α) : List α → List α
  | [] => [a]
  | b :: l => if a < b then a :: b :: l else if b < a then b :: insertList a l else b :: l

theorem mem_insertList {a x : α} {l : List α} : x ∈ insertList a l ↔ x = a ∨ x ∈ l := by
  induction l with
  | nil => simp [insertList]
  | cons b l ih =>
    unfold insertList
    split
    · simp
    · split
      · simp only [List.mem_cons, ih]
        tauto
      · have hab : a = b := le_antisymm (not_lt.mp ‹_›) (not_lt.mp ‹_›)
        simp [hab]

theorem pairwise_insertList {a : α} {l : List α} (h : l.Pairwise (· < ·)) :
    (insertList a l).Pairwise (· < ·) := by
  induction l with
  | nil => simp [insertList]
  | cons b l ih =>
    obtain ⟨hb, hl⟩ := List.pairwise_cons.mp h
    unfold insertList
    split
    · rename_i hab
      refine List.pairwise_cons.mpr ⟨fun x hx => ?_, h⟩
      rcases List.mem_cons.mp hx with rfl | hx
      · exact hab
      · exact hab.trans (hb x hx)
    · split
      · rename_i hba
        refine List.pairwise_cons.mpr ⟨fun x hx => ?_, ih hl⟩
        rcases mem_insertList.mp hx with rfl | hx
        · exact hba
        · exact hb x hx
      · exact h

def insert (s : OrderedSet α) (a : α) : OrderedSet α :=
  ⟨insertList a s.toList, pairwise_insertList s.sorted⟩

def erase (s : OrderedSet α) (a : α) : OrderedSet α :=
  ⟨s.toList.erase a, s.sorted.sublist List.erase_sublist⟩

/-- The elements in front of the lower bound of `a`. -/
def before (s : OrderedSet α) (a : α) : List α := s.toList.takeWhile (· < a)

/-- What is left when these are erased. -/
def dropBefore (s : OrderedSet α) (a : α) : OrderedSet α :=
  ⟨s.toList.dropWhile (· < a), s.sorted.sublist (List.dropWhile_sublist _)⟩

theorem nodup (s : OrderedSet α) : s.toList.Nodup := s.sorted.imp fun h => h.ne

@[simp] theorem not_mem_empty (a : α) : a ∉ (empty : OrderedSet α) := List.not_mem_nil

@[simp] theorem mem_insert {s : OrderedSet α} {a x : α} : x ∈ s.insert a ↔ x = a ∨ x ∈ s :=
  mem_insertList

@[simp] theorem mem_erase {s : OrderedSet α} {a x : α} : x ∈ s.erase a ↔ x ≠ a ∧ x ∈ s :=
  s.nodup.mem_erase_iff

theorem mem_takeWhile_lt {l : List α} (h : l.Pairwise (· < ·)) {a x : α} :
    x ∈ l.takeWhile (· < a) ↔ x ∈ l ∧ x < a := by
  induction l with
  | nil => simp
  | cons b l ih =>
    obtain ⟨hb, hl⟩ := List.pairwise_cons.mp h
    rw [List.takeWhile_cons]
    split
    · rename_i hlt
      simp only [List.mem_cons, ih hl]
      constructor
      · rintro (rfl | ⟨hx, hxa⟩)
        · exact ⟨.inl rfl, by simpa using hlt⟩
        · exact ⟨.inr hx, hxa⟩
      · rintro ⟨rfl | hx, hxa⟩
        · exact .inl rfl
        · exact .inr ⟨hx, hxa⟩
    · rename_i hle
      -- nothing behind an element that is not below `a` is below `a`
      refine iff_of_false List.not_mem_nil ?_
      rintro ⟨hx, hxa⟩
      have hba : ¬ b < a := by simpa using hle
      rcases List.mem_cons.mp hx with rfl | hx
      · exact hba hxa
      · exact hba ((hb x hx).trans hxa)

theorem mem_before {s : OrderedSet α} {a x : α} : x ∈ s.before a ↔ x ∈ s ∧ x < a :=
  mem_takeWhile_lt s.sorted

theorem nodup_before (s : OrderedSet α) (a : α) : (s.before a).Nodup :=
  s.nodup.sublist (List.takeWhile_sublist _)

@[simp] theorem mem_dropBefore {s : OrderedSet α} {a x : α} :
    x ∈ s.dropBefore a ↔ x ∈ s ∧ ¬ x < a := by
  have hcat : s.before a ++ (s.dropBefore a).toList = s.toList := List.takeWhile_append_dropWhile
  have hsorted := s.sorted
  rw [← hcat, List.pairwise_append] at hsorted
  have hin : x ∈ s ↔ x ∈ s.before a ∨ x ∈ s.dropBefore a := by
    rw [← mem_toList, ← hcat, List.mem_append, mem_toList]
  constructor
  · intro hx
    have hxs := hin.mpr (.inr hx)
    refine ⟨hxs, fun hlt => ?_⟩
    exact lt_irrefl x (hsorted.2.2 x (mem_before.mpr ⟨hxs, hlt⟩) x hx)
  · rintro ⟨hxs, hnot⟩
    rcases hin.mp hxs with hb | hd
    · exact absurd (mem_before.mp hb).2 hnot
    · exact hd

theorem begin?_eq_none {s : OrderedSet α} : s.begin? = none ↔ ∀ a, a ∉ s := by
  rw [begin?, List.head?_eq_none_iff, List.eq_nil_iff_forall_not_mem]
  rfl

/-- The first element is the least. -/
theorem begin?_eq_some {s : OrderedSet α} {m : α} (h : s.begin? = some m) :
    m ∈ s ∧ ∀ a ∈ s, m ≤ a := by
  obtain ⟨l, hl⟩ : ∃ l, s.toList = m :: l := by
    obtain ⟨l, hs⟩ := s
    cases l with
    | nil => cases h
    | cons b l =>
      cases h
      exact ⟨l, rfl⟩
  have hsorted := s.sorted
  rw [hl, List.pairwise_cons] at hsorted
  refine ⟨mem_toList.mp (by simp [hl]), fun a ha => ?_⟩
  rw [← mem_toList, hl, List.mem_cons] at ha
  rcases ha with rfl | ha
  · exact le_rfl
  · exact (hsorted.1 a ha).le

/-- Sets that project injectively onto the same elements have the same size. -/
theorem size_eq_of_proj {β γ : Type*} [LinearOrder β] {s : OrderedSet α} {t : OrderedSet β}
    (f : α → γ) (g : β → γ) (hf : ∀ a ∈ s, ∀ b ∈ s, f a = f b → a = b)
    (hg : ∀ a ∈ t, ∀ b ∈ t, g a = g b → a = b)
    (h : ∀ c, (∃ a ∈ s, f a = c) ↔ ∃ b ∈ t, g b = c) : s.size = t.size := by
  have hs : (s.toList.map f).Nodup := s.nodup.map_on hf
  have ht : (t.toList.map g).Nodup := t.nodup.map_on hg
  have hperm : (s.toList.map f).Perm (t.toList.map g) := by
    rw [List.perm_ext_iff_of_nodup hs ht]
    intro c
    simp only [List.mem_map]
    exact h c
  simpa [size] using hperm.length_eq

end OrderedSet

end LinuxNet.Lib
