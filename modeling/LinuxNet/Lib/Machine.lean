import Mathlib.Data.List.Basic

/-!
# Runs of machines with partial steps

A machine is a function `step : σ → ι → Option σ`; `none` means that the input
is not enabled in that state. `run` executes a list of inputs. The rules below
are the inductions over runs that the developments on top share: an invariant
carried by every step, an invariant carried by the steps that meet a side
condition, at the end of a run and throughout it, together with what has been observed
on the way, and the splitting of a run. `Along` and `Sometime` say of the steps of a
run that all of them, or one of them, meet a condition.
-/

namespace LinuxNet.Lib.Machine

variable {σ ι : Type*}

/-- Execute the inputs from left to right, stopping at one that is not enabled. -/
def run (step : σ → ι → Option σ) : σ → List ι → Option σ
  | s, [] => some s
  | s, i :: is => (step s i).bind fun t => run step t is

@[simp] theorem run_nil (step : σ → ι → Option σ) (s : σ) : run step s [] = some s := rfl

theorem run_cons_iff {step : σ → ι → Option σ} {s t : σ} {i : ι} {is : List ι} :
    run step s (i :: is) = some t ↔ ∃ m, step s i = some m ∧ run step m is = some t := by
  simp only [run, Option.bind_eq_some_iff]

theorem run_append_iff {step : σ → ι → Option σ} {s t : σ} {is js : List ι} :
    run step s (is ++ js) = some t ↔ ∃ m, run step s is = some m ∧ run step m js = some t := by
  induction is generalizing s with
  | nil => simp
  | cons i is ih =>
    simp only [List.cons_append, run_cons_iff, ih]
    constructor
    · rintro ⟨m, hm, m', hm', ht⟩
      exact ⟨m', ⟨m, hm, hm'⟩, ht⟩
    · rintro ⟨m', ⟨m, hm, hm'⟩, ht⟩
      exact ⟨m, hm, m', hm', ht⟩

theorem run_singleton (step : σ → ι → Option σ) (s : σ) (i : ι) :
    run step s [i] = step s i := by
  simp [run]

/-- A state some list of inputs leads to. -/
def Reachable (step : σ → ι → Option σ) (init s : σ) : Prop :=
  ∃ is, run step init is = some s

/-- What every step keeps, every run keeps. -/
theorem run_invariant {step : σ → ι → Option σ} {P : σ → Prop}
    (hstep : ∀ {s i t}, P s → step s i = some t → P t) {s t : σ} {is : List ι}
    (hs : P s) (hrun : run step s is = some t) : P t := by
  induction is generalizing s with
  | nil => simp only [run_nil, Option.some.injEq] at hrun; exact hrun ▸ hs
  | cons i is ih =>
    obtain ⟨m, hm, hrest⟩ := run_cons_iff.mp hrun
    exact ih (hstep hs hm) hrest

/-- What every step on an input that meets `G` keeps, every run on such inputs keeps. -/
theorem run_invariant_of_mem {step : σ → ι → Option σ} {G : ι → Prop} {P : σ → Prop}
    (hstep : ∀ {s i t}, P s → G i → step s i = some t → P t) {s t : σ} {is : List ι}
    (hs : P s) (hG : ∀ i ∈ is, G i) (hrun : run step s is = some t) : P t := by
  induction is generalizing s with
  | nil => simp only [run_nil, Option.some.injEq] at hrun; exact hrun ▸ hs
  | cons i is ih =>
    obtain ⟨m, hm, hrest⟩ := run_cons_iff.mp hrun
    have hi := hG i List.mem_cons_self
    exact ih (hstep hs hi hm) (fun j hj => hG j (List.mem_cons_of_mem i hj)) hrest

/-- What every step brings from its end to its beginning, every run does. -/
theorem run_back {step : σ → ι → Option σ} {P : σ → Prop}
    (hstep : ∀ {s i t}, step s i = some t → P t → P s) {s t : σ} {is : List ι}
    (hrun : run step s is = some t) (ht : P t) : P s := by
  induction is generalizing s with
  | nil => simp only [run_nil, Option.some.injEq] at hrun; exact hrun ▸ ht
  | cons i is ih =>
    obtain ⟨m, hm, hrest⟩ := run_cons_iff.mp hrun
    exact hstep hm (ih hrest)

theorem reachable_invariant {step : σ → ι → Option σ} {P : σ → Prop}
    (hstep : ∀ {s i t}, P s → step s i = some t → P t) {init s : σ}
    (hinit : P init) (hr : Reachable step init s) : P s := by
  obtain ⟨is, his⟩ := hr
  exact run_invariant hstep hinit his

/-- Every step of the run is taken in a state and with an input that meet `G`. -/
def Along (step : σ → ι → Option σ) (G : σ → ι → Prop) : σ → List ι → Prop
  | _, [] => True
  | s, i :: is => G s i ∧ ∀ t, step s i = some t → Along step G t is

instance decidableAlong (step : σ → ι → Option σ) (G : σ → ι → Prop)
    [∀ s i, Decidable (G s i)] : ∀ s is, Decidable (Along step G s is)
  | _, [] => isTrue trivial
  | s, i :: is =>
    match hm : step s i with
    | none => decidable_of_iff (G s i) (by simp [Along, hm])
    | some t =>
      have : Decidable (Along step G t is) := decidableAlong step G t is
      decidable_of_iff (G s i ∧ Along step G t is) (by simp [Along, hm])

/-- The inputs alone decide that every step meets `G`. -/
theorem along_of_mem {step : σ → ι → Option σ} {G : σ → ι → Prop} {is : List ι}
    (h : ∀ i ∈ is, ∀ s, G s i) (s : σ) : Along step G s is := by
  induction is generalizing s with
  | nil => trivial
  | cons i is ih =>
    refine ⟨h i List.mem_cons_self s, fun t _ => ih (fun j hj => ?_) t⟩
    exact h j (List.mem_cons_of_mem i hj)

/-- A step of the run is found by cutting the run in front of it. -/
theorem along_iff_split {step : σ → ι → Option σ} {G : σ → ι → Prop} {s : σ} {is : List ι} :
    Along step G s is ↔
      ∀ past i rest m, is = past ++ i :: rest → run step s past = some m → G m i := by
  induction is generalizing s with
  | nil => simp [Along]
  | cons j js ih =>
    rw [Along]
    constructor
    · rintro ⟨hj, hlater⟩ past i rest m hcut hm
      cases past with
      | nil =>
        simp only [run_nil, Option.some.injEq] at hm
        cases hcut
        exact hm ▸ hj
      | cons k past =>
        cases hcut
        obtain ⟨t, ht, hm⟩ := run_cons_iff.mp hm
        exact ih.mp (hlater t ht) past i rest m rfl hm
    · intro h
      refine ⟨h [] j js s rfl rfl, fun t ht => ih.mpr fun past i rest m hcut hm => ?_⟩
      exact h (j :: past) i rest m (by rw [hcut]; rfl) (run_cons_iff.mpr ⟨t, ht, hm⟩)

/-- Of a run that is not cut short the inputs alone decide it. -/
theorem along_iff_mem {step : σ → ι → Option σ} {G : ι → Prop} {s t : σ} {is : List ι}
    (hrun : run step s is = some t) :
    Along step (fun _ i => G i) s is ↔ ∀ i ∈ is, G i := by
  refine ⟨fun h => ?_, fun h => along_of_mem (fun i hi _ => h i hi) s⟩
  induction is generalizing s with
  | nil => exact fun i hi => absurd hi List.not_mem_nil
  | cons j js ih =>
    obtain ⟨m, hm, hrest⟩ := run_cons_iff.mp hrun
    exact List.forall_mem_cons.mpr ⟨h.1, ih hrest (h.2 m hm)⟩

/-- What every step that meets `G` keeps, every run whose steps all meet `G` keeps. -/
theorem run_invariant_along {step : σ → ι → Option σ} {G : σ → ι → Prop} {P : σ → Prop}
    (hstep : ∀ {s i t}, P s → G s i → step s i = some t → P t) {s t : σ} {is : List ι}
    (hs : P s) (hG : Along step G s is) (hrun : run step s is = some t) : P t := by
  induction is generalizing s with
  | nil => simp only [run_nil, Option.some.injEq] at hrun; exact hrun ▸ hs
  | cons i is ih =>
    obtain ⟨m, hm, hrest⟩ := run_cons_iff.mp hrun
    exact ih (hstep hs hG.1 hm) (hG.2 m hm) hrest

/-- Some step of the run is taken in a state and with an input that meet `G`. -/
def Sometime (step : σ → ι → Option σ) (G : σ → ι → Prop) : σ → List ι → Prop
  | _, [] => False
  | s, i :: is => G s i ∨ ∃ t, step s i = some t ∧ Sometime step G t is

instance decidableSometime (step : σ → ι → Option σ) (G : σ → ι → Prop)
    [∀ s i, Decidable (G s i)] : ∀ s is, Decidable (Sometime step G s is)
  | _, [] => isFalse id
  | s, i :: is =>
    match hm : step s i with
    | none => decidable_of_iff (G s i) (by simp [Sometime, hm])
    | some t =>
      have : Decidable (Sometime step G t is) := decidableSometime step G t is
      decidable_of_iff (G s i ∨ Sometime step G t is) (by simp [Sometime, hm])

/-- A step that meets `G` leads to `Q`, which no step undoes. -/
theorem run_of_sometime {step : σ → ι → Option σ} {G : σ → ι → Prop} {Q : σ → Prop}
    (henter : ∀ {s i t}, G s i → step s i = some t → Q t)
    (hkeep : ∀ {s i t}, Q s → step s i = some t → Q t) {s t : σ} {is : List ι}
    (hG : Sometime step G s is) (hrun : run step s is = some t) : Q t := by
  induction is generalizing s with
  | nil => exact absurd hG id
  | cons i is ih =>
    obtain ⟨m, hm, hrest⟩ := run_cons_iff.mp hrun
    rcases hG with hi | ⟨m', hm', hlater⟩
    · exact run_invariant hkeep (henter hi hm) hrest
    · obtain rfl : m = m' := Option.some.inj (hm.symm.trans hm')
      exact ih hlater hrest

/-- A flag that is set by the steps that meet `G`, as long as `C` holds, is set at the end
if it was at the beginning or if such a step was taken. -/
theorem run_flag {step : σ → ι → Option σ} {G : σ → ι → Prop} {C P : σ → Prop}
    (hback : ∀ {s i t}, step s i = some t → C t → C s)
    (hstep : ∀ {s i t}, step s i = some t → C t → (P t ↔ P s ∨ G s i)) {s t : σ} {is : List ι}
    (hrun : run step s is = some t) (ht : C t) : P t ↔ P s ∨ Sometime step G s is := by
  induction is generalizing s with
  | nil =>
    simp only [run_nil, Option.some.injEq] at hrun
    subst hrun
    exact ⟨.inl, fun h => h.resolve_right id⟩
  | cons i is ih =>
    obtain ⟨m, hm, hrest⟩ := run_cons_iff.mp hrun
    have hC : C m := run_back hback hrest ht
    rw [ih hrest, hstep hm hC, or_assoc]
    simp [Sometime, hm]

/-- What is observed of the steps of a run, in order. -/
def trace {ω : Type*} (step : σ → ι → Option σ) (obs : σ → ι → σ → List ω) : σ → List ι → List ω
  | _, [] => []
  | s, i :: is => (step s i).elim [] fun t => obs s i t ++ trace step obs t is

/-- What every step that meets `G` keeps, of the state and all that has been observed, every
run whose steps all meet `G` keeps. -/
theorem trace_invariant_along {ω : Type*} {step : σ → ι → Option σ} {obs : σ → ι → σ → List ω}
    {G : σ → ι → Prop} {P : List ω → σ → Prop}
    (hstep : ∀ {h s i t}, P h s → G s i → step s i = some t → P (h ++ obs s i t) t)
    {h : List ω} {s t : σ} {is : List ι} (hs : P h s) (hG : Along step G s is)
    (hrun : run step s is = some t) : P (h ++ trace step obs s is) t := by
  induction is generalizing s h with
  | nil =>
    simp only [run_nil, Option.some.injEq] at hrun
    subst hrun
    rwa [trace, List.append_nil]
  | cons i is ih =>
    obtain ⟨m, hm, hrest⟩ := run_cons_iff.mp hrun
    rw [trace, hm, Option.elim_some, ← List.append_assoc]
    exact ih (hstep hs hG.1 hm) (hG.2 m hm) hrest

theorem trace_invariant {ω : Type*} {step : σ → ι → Option σ} {obs : σ → ι → σ → List ω}
    {P : List ω → σ → Prop}
    (hstep : ∀ {h s i t}, P h s → step s i = some t → P (h ++ obs s i t) t)
    {h : List ω} {s t : σ} {is : List ι} (hs : P h s) (hrun : run step s is = some t) :
    P (h ++ trace step obs s is) t :=
  trace_invariant_along (G := fun _ _ => True) (fun hP _ => hstep hP) hs
    (along_of_mem (fun _ _ _ => trivial) s) hrun

/-- A step that does not meet `G` leads to `Q`, which no step undoes. -/
theorem trace_of_not_along {ω : Type*} {step : σ → ι → Option σ} {obs : σ → ι → σ → List ω}
    {G : σ → ι → Prop} {P Q : List ω → σ → Prop}
    (hP : ∀ {h s i t}, P h s → step s i = some t → P (h ++ obs s i t) t)
    (henter : ∀ {h s i t}, P h s → ¬ G s i → step s i = some t → Q (h ++ obs s i t) t)
    (hQ : ∀ {h s i t}, P h s → Q h s → step s i = some t → Q (h ++ obs s i t) t)
    {h : List ω} {s t : σ} {is : List ι} (hs : P h s) (hG : ¬ Along step G s is)
    (hrun : run step s is = some t) : Q (h ++ trace step obs s is) t := by
  induction is generalizing s h with
  | nil => exact absurd trivial hG
  | cons i is ih =>
    obtain ⟨m, hm, hrest⟩ := run_cons_iff.mp hrun
    rw [trace, hm, Option.elim_some, ← List.append_assoc]
    by_cases hi : G s i
    · refine ih (hP hs hm) (fun hal => hG ⟨hi, fun t ht => ?_⟩) hrest
      rw [hm, Option.some.injEq] at ht
      exact ht ▸ hal
    · have hkeep : ∀ {h s i t}, P h s ∧ Q h s → step s i = some t →
          P (h ++ obs s i t) t ∧ Q (h ++ obs s i t) t :=
        fun hPQ hst => ⟨hP hPQ.1 hst, hQ hPQ.1 hPQ.2 hst⟩
      exact (trace_invariant (P := fun h s => P h s ∧ Q h s) hkeep
        ⟨hP hs hm, henter hs hi hm⟩ hrest).2

/-- Every state of the run, the first and the last included, meets `P`. -/
def Throughout (step : σ → ι → Option σ) (P : σ → Prop) : σ → List ι → Prop
  | s, [] => P s
  | s, i :: is => P s ∧ ∀ t, step s i = some t → Throughout step P t is

theorem Throughout.head {step : σ → ι → Option σ} {P : σ → Prop} {s : σ} {is : List ι}
    (h : Throughout step P s is) : P s := by
  cases is with
  | nil => exact h
  | cons i is => exact h.1

theorem Throughout.last {step : σ → ι → Option σ} {P : σ → Prop} {s t : σ} {is : List ι}
    (h : Throughout step P s is) (hrun : run step s is = some t) : P t := by
  induction is generalizing s with
  | nil => simp only [run_nil, Option.some.injEq] at hrun; exact hrun ▸ h
  | cons i is ih =>
    obtain ⟨m, hm, hrest⟩ := run_cons_iff.mp hrun
    exact ih (h.2 m hm) hrest

/-- What every step that meets `G` keeps, and what implies `Q`, gives `Q` throughout the
runs whose steps all meet `G`. -/
theorem throughout_of_along {step : σ → ι → Option σ} {G : σ → ι → Prop} {P Q : σ → Prop}
    (hstep : ∀ {s i t}, P s → G s i → step s i = some t → P t) (hQ : ∀ {s}, P s → Q s)
    {s : σ} {is : List ι} (hs : P s) (hG : Along step G s is) : Throughout step Q s is := by
  induction is generalizing s with
  | nil => exact hQ hs
  | cons i is ih => exact ⟨hQ hs, fun t ht => ih (hstep hs hG.1 ht) (hG.2 t ht)⟩

/-- The same of runs on inputs that meet `H`. If moreover every step that does not meet `G`
ends in a state without `Q`, the runs with `Q` throughout are those whose steps all meet `G`. -/
theorem throughout_iff_along_of_mem {step : σ → ι → Option σ} {H : ι → Prop} {G : σ → ι → Prop}
    {P Q : σ → Prop} (hstep : ∀ {s i t}, P s → H i → G s i → step s i = some t → P t)
    (hQ : ∀ {s}, P s → Q s) (hbreak : ∀ {s i t}, P s → H i → ¬ G s i → step s i = some t → ¬ Q t)
    {s t : σ} {is : List ι} (hs : P s) (hH : ∀ i ∈ is, H i) (hrun : run step s is = some t) :
    Throughout step Q s is ↔ Along step G s is := by
  induction is generalizing s with
  | nil => exact ⟨fun _ => trivial, fun _ => hQ hs⟩
  | cons i is ih =>
    obtain ⟨m, hm, hrest⟩ := run_cons_iff.mp hrun
    have hi : H i := hH i List.mem_cons_self
    have hlater : ∀ {t}, step s i = some t → t = m := fun ht => Option.some.inj (ht.symm.trans hm)
    have hih : G s i → (Throughout step Q m is ↔ Along step G m is) := fun hG =>
      ih (hstep hs hi hG hm) (fun j hj => hH j (List.mem_cons_of_mem i hj)) hrest
    constructor
    · intro h
      have hG : G s i := by
        by_contra hG
        exact hbreak hs hi hG hm (h.2 m hm).head
      refine ⟨hG, fun t ht => ?_⟩
      obtain rfl := hlater ht
      exact (hih hG).mp (h.2 t hm)
    · intro h
      refine ⟨hQ hs, fun t ht => ?_⟩
      obtain rfl := hlater ht
      exact (hih h.1).mpr (h.2 t hm)

theorem throughout_iff_along {step : σ → ι → Option σ} {G : σ → ι → Prop} {P Q : σ → Prop}
    (hstep : ∀ {s i t}, P s → G s i → step s i = some t → P t) (hQ : ∀ {s}, P s → Q s)
    (hbreak : ∀ {s i t}, P s → ¬ G s i → step s i = some t → ¬ Q t) {s t : σ} {is : List ι}
    (hs : P s) (hrun : run step s is = some t) : Throughout step Q s is ↔ Along step G s is :=
  throughout_iff_along_of_mem (H := fun _ => True) (fun hP _ => hstep hP) hQ
    (fun hP _ => hbreak hP) hs (fun _ _ => trivial) hrun

/-- If every step on an input that meets `G` takes something off the work, a run on such inputs
is no longer than the work there is. -/
theorem run_length_le {step : σ → ι → Option σ} {G : ι → Prop} {P : σ → Prop} {work : σ → ℕ}
    (hstep : ∀ {s i t}, P s → G i → step s i = some t → P t)
    (hwork : ∀ {s i t}, P s → G i → step s i = some t → work t < work s) {s t : σ} {is : List ι}
    (hs : P s) (hG : ∀ i ∈ is, G i) (hrun : run step s is = some t) :
    is.length + work t ≤ work s := by
  induction is generalizing s with
  | nil =>
    cases hrun
    exact Nat.le_of_eq (Nat.zero_add _)
  | cons i is ih =>
    obtain ⟨m, hm, hrest⟩ := run_cons_iff.mp hrun
    have hi : G i := hG i List.mem_cons_self
    have hlt := hwork hs hi hm
    have hle := ih (hstep hs hi hm) (fun j hj => hG j (List.mem_cons_of_mem i hj)) hrest
    rw [List.length_cons]
    omega

end LinuxNet.Lib.Machine
