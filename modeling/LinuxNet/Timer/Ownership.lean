import LinuxNet.Timer.Model
import Mathlib.Data.Set.Insert

/-!
# Who owns a timer

A `Timer` that has been handed to the loop is in the two sets, or in the batch that
`HandleRead` is working on. The functions of the queue move one timer at a time in
or out of the sets; `Owns q out` is the invariant at every such moment, with `out`
the allocated addresses that are in neither set: the batch and the timers not yet
handed over.
-/

namespace LinuxNet

set_option autoImplicit false

open LinuxNet.Lib

namespace TimerQueue

/-- The two sets describe the allocated timers outside of `out`. -/
structure Indexed (q : TimerQueue) (out : Set Addr) : Prop where
  timers : ∀ e a, toLex (e, a) ∈ q.timers ↔ ∃ t, q.heap a = some t ∧ t.expiration = e ∧ a ∉ out
  active : ∀ a s, toLex (a, s) ∈ q.activeTimers ↔
    ∃ t, q.heap a = some t ∧ t.sequence = s ∧ a ∉ out
  allocated : ∀ a ∈ out, (q.heap a).isSome

/-- Every timer ever created is on the heap or has been deleted, once. -/
structure Accounted (q : TimerQueue) : Prop where
  named : ∀ a t, q.heap a = some t → q.created[t.uid]? = some a ∧ t.sequence = t.uid % 2 ^ 64
  inRange : ∀ a t, q.heap a = some t → a < UINTPTR_MAX
  deleted : ∀ u, u ∈ q.deleted ↔ u < q.created.length ∧ ∀ a t, q.heap a = some t → t.uid ≠ u
  once : q.deleted.Nodup

structure Owns (q : TimerQueue) (out : Set Addr) : Prop where
  indexed : q.Indexed out
  accounted : q.Accounted
  noFault : q.faults = []

/-! ## The account -/

theorem Accounted.congr {q q' : TimerQueue} (h : q.Accounted) (hh : q'.heap = q.heap)
    (hc : q'.created = q.created) (hd : q'.deleted = q.deleted) : q'.Accounted := by
  constructor
  · rw [hh, hc]
    exact h.named
  · rw [hh]
    exact h.inRange
  · rw [hh, hc, hd]
    exact h.deleted
  · rw [hd]
    exact h.once

theorem Accounted.addr_eq {q : TimerQueue} (h : q.Accounted) {a b : Addr} {t u : Timer}
    (ha : q.heap a = some t) (hb : q.heap b = some u) (huid : t.uid = u.uid) : a = b := by
  have h1 := (h.named a t ha).1
  have h2 := (h.named b u hb).1
  rw [huid, h2] at h1
  exact (Option.some.inj h1).symm

theorem Accounted.allocate {q : TimerQueue} (h : q.Accounted) {a : Addr} (hfree : q.heap a = none)
    (hlt : a < UINTPTR_MAX) (expiration : Nat) (intervalS : Int) :
    (q.allocate a expiration intervalS).Accounted := by
  -- the heap is the old one, but for the new timer at `a`
  have hheap : ∀ b t, (q.allocate a expiration intervalS).heap b = some t →
      (b = a ∧ t = Timer.new expiration intervalS q.created.length) ∨
      (b ≠ a ∧ q.heap b = some t) := by
    intro b t hb
    by_cases hba : b = a
    · subst hba
      exact .inl ⟨rfl, by simpa [TimerQueue.allocate, eq_comm] using hb⟩
    · exact .inr ⟨hba, by simpa [TimerQueue.allocate, hba] using hb⟩
  have hold : ∀ b t, q.heap b = some t → (q.allocate a expiration intervalS).heap b = some t := by
    intro b t hb
    have hba : b ≠ a := fun he => by rw [he, hfree] at hb; cases hb
    simpa [TimerQueue.allocate, hba] using hb
  have hlen : (q.allocate a expiration intervalS).created.length = q.created.length + 1 := by
    simp [TimerQueue.allocate]
  have huid : ∀ b t, q.heap b = some t → t.uid < q.created.length := fun b t hb =>
    (List.getElem?_eq_some_iff.mp (h.named b t hb).1).1
  refine ⟨fun b t hb => ?_, fun b t hb => ?_, fun u => ?_, h.once⟩
  · rcases hheap b t hb with ⟨rfl, rfl⟩ | ⟨_, hb'⟩
    · exact ⟨by simp [TimerQueue.allocate, Timer.new], rfl⟩
    · obtain ⟨hn, hs⟩ := h.named b t hb'
      refine ⟨?_, hs⟩
      rw [TimerQueue.allocate, List.getElem?_append_left (huid b t hb')]
      exact hn
  · rcases hheap b t hb with ⟨rfl, _⟩ | ⟨_, hb'⟩
    · exact hlt
    · exact h.inRange b t hb'
  · rw [hlen]
    constructor
    · intro hu
      obtain ⟨hu, hgone⟩ := (h.deleted u).mp hu
      refine ⟨by omega, fun b t hb => ?_⟩
      rcases hheap b t hb with ⟨_, rfl⟩ | ⟨_, hb'⟩
      · simp only [Timer.new]
        omega
      · exact hgone b t hb'
    · rintro ⟨hu, hgone⟩
      refine (h.deleted u).mpr ⟨?_, fun b t hb => hgone b t (hold b t hb)⟩
      have hne := hgone a (Timer.new expiration intervalS q.created.length)
        (by simp [TimerQueue.allocate])
      simp only [Timer.new] at hne
      omega

/-- A timer that keeps its number may change otherwise. -/
theorem Accounted.restart {q : TimerQueue} (h : q.Accounted) {a : Addr} {t t' : Timer}
    (ht : q.heap a = some t) (huid : t'.uid = t.uid) (hseq : t'.sequence = t.sequence) :
    ({ q with heap := Function.update q.heap a (some t') } : TimerQueue).Accounted := by
  have hself : Function.update q.heap a (some t') a = some t' := Function.update_self ..
  have hother : ∀ b, b ≠ a → Function.update q.heap a (some t') b = q.heap b := fun b hb =>
    Function.update_of_ne hb ..
  refine ⟨fun b u hb => ?_, fun b u hb => ?_, fun u => ?_, h.once⟩
  · by_cases hba : b = a
    · subst hba
      obtain rfl : t' = u := Option.some.inj (hself.symm.trans hb)
      rw [huid, hseq]
      exact h.named b t ht
    · exact h.named b u ((hother b hba).symm.trans hb)
  · by_cases hba : b = a
    · exact hba ▸ h.inRange a t ht
    · exact h.inRange b u ((hother b hba).symm.trans hb)
  · rw [h.deleted u]
    refine and_congr_right fun _ => ⟨fun hgone b v hb => ?_, fun hgone b v hb => ?_⟩
    · by_cases hba : b = a
      · subst hba
        obtain rfl : t' = v := Option.some.inj (hself.symm.trans hb)
        rw [huid]
        exact hgone b t ht
      · exact hgone b v ((hother b hba).symm.trans hb)
    · by_cases hba : b = a
      · subst hba
        obtain rfl : t = v := Option.some.inj (ht.symm.trans hb)
        rw [← huid]
        exact hgone b t' hself
      · exact hgone b v ((hother b hba).trans hb)

theorem delete_eq {q : TimerQueue} {a : Addr} {t : Timer} (ht : q.heap a = some t) :
    q.delete a =
      { q with heap := Function.update q.heap a none, deleted := q.deleted ++ [t.uid] } := by
  simp [TimerQueue.delete, ht]

theorem Accounted.delete {q : TimerQueue} (h : q.Accounted) {a : Addr} {t : Timer}
    (ht : q.heap a = some t) : (q.delete a).Accounted := by
  have hother : ∀ b u, Function.update q.heap a none b = some u → b ≠ a ∧ q.heap b = some u := by
    intro b u hb
    by_cases hba : b = a
    · subst hba
      simp at hb
    · exact ⟨hba, by simpa [hba] using hb⟩
  rw [delete_eq ht]
  refine ⟨fun b u hb => h.named b u (hother b u hb).2, fun b u hb => h.inRange b u (hother b u hb).2,
    fun u => ?_, ?_⟩
  · simp only [List.mem_append, List.mem_singleton, h.deleted u]
    constructor
    · rintro (⟨hu, hgone⟩ | rfl)
      · exact ⟨hu, fun b v hb => hgone b v (hother b v hb).2⟩
      · refine ⟨(List.getElem?_eq_some_iff.mp (h.named a t ht).1).1, fun b v hb huid => ?_⟩
        exact (hother b v hb).1 (h.addr_eq (hother b v hb).2 ht huid)
    · rintro ⟨hu, hgone⟩
      by_cases hut : u = t.uid
      · exact .inr hut
      · refine .inl ⟨hu, fun b v hb huid => ?_⟩
        by_cases hba : b = a
        · subst hba
          obtain rfl : t = v := Option.some.inj (ht.symm.trans hb)
          exact hut huid.symm
        · exact hgone b v (by simpa [hba] using hb) huid
  · refine List.nodup_append.mpr ⟨h.once, by simp, fun u hu v hv => ?_⟩
    rw [List.mem_singleton.mp hv]
    exact fun he => ((h.deleted u).mp hu).2 a t ht he.symm

/-! ## The two sets -/

theorem lex_eq_iff {α β : Type*} {a c : α} {b d : β} :
    toLex (a, b) = toLex (c, d) ↔ a = c ∧ b = d := by
  rw [toLex_inj, Prod.mk.injEq]

theorem Indexed.congr {q q' : TimerQueue} {out : Set Addr} (h : q.Indexed out)
    (hh : q'.heap = q.heap) (ht : q'.timers = q.timers) (ha : q'.activeTimers = q.activeTimers) :
    q'.Indexed out := by
  constructor
  · rw [hh, ht]
    exact h.timers
  · rw [hh, ha]
    exact h.active
  · rw [hh]
    exact h.allocated

/-- Both sets have one element for each timer, so they have the same size. -/
theorem Indexed.sizes {q : TimerQueue} {out : Set Addr} (h : q.Indexed out) :
    q.activeTimers.size = q.timers.size := by
  refine OrderedSet.size_eq_of_proj (fun x => (ofLex x).1) (fun x => (ofLex x).2) ?_ ?_ ?_
  · intro x hx y hy hxy
    obtain ⟨t, ht, hs, _⟩ := (h.active (ofLex x).1 (ofLex x).2).mp hx
    obtain ⟨u, hu, hs', _⟩ := (h.active (ofLex y).1 (ofLex y).2).mp hy
    rw [hxy, hu] at ht
    cases ht
    exact Prod.ext hxy (hs.symm.trans hs')
  · intro x hx y hy hxy
    obtain ⟨t, ht, he, _⟩ := (h.timers (ofLex x).1 (ofLex x).2).mp hx
    obtain ⟨u, hu, he', _⟩ := (h.timers (ofLex y).1 (ofLex y).2).mp hy
    rw [hxy, hu] at ht
    cases ht
    exact Prod.ext (he.symm.trans he') hxy
  · intro a
    constructor
    · rintro ⟨x, hx, rfl⟩
      obtain ⟨t, ht, _, hout⟩ := (h.active (ofLex x).1 (ofLex x).2).mp hx
      exact ⟨toLex (t.expiration, (ofLex x).1), (h.timers _ _).mpr ⟨t, ht, rfl, hout⟩, rfl⟩
    · rintro ⟨x, hx, rfl⟩
      obtain ⟨t, ht, _, hout⟩ := (h.timers (ofLex x).1 (ofLex x).2).mp hx
      exact ⟨toLex ((ofLex x).2, t.sequence), (h.active _ _).mpr ⟨t, ht, rfl, hout⟩, rfl⟩

theorem check_pos (q : TimerQueue) (f : Fault) {ok : Bool} (h : ok = true) : q.check f ok = q := by
  simp [check, h]

theorem Indexed.checkSizes {q : TimerQueue} {out : Set Addr} (h : q.Indexed out) :
    q.checkSizes = q :=
  check_pos q .sizes (by simpa using h.sizes)

/-- The queue with the timer at `a` in both sets. -/
def inserted (q : TimerQueue) (a : Addr) (t : Timer) : TimerQueue :=
  { q with
    timers := q.timers.insert (toLex (t.expiration, a))
    activeTimers := q.activeTimers.insert (toLex (a, t.sequence)) }

theorem Indexed.inserted {q : TimerQueue} {out : Set Addr} (h : q.Indexed out) {a : Addr}
    {t : Timer} (ht : q.heap a = some t) (ha : a ∈ out) : (q.inserted a t).Indexed (out \ {a}) := by
  refine ⟨fun e b => ?_, fun b s => ?_, fun b hb => h.allocated b hb.1⟩
  · simp only [TimerQueue.inserted, OrderedSet.mem_insert, lex_eq_iff, h.timers]
    by_cases hba : b = a
    · subst hba
      simp [ht, ha, eq_comm]
    · simp [hba]
  · simp only [TimerQueue.inserted, OrderedSet.mem_insert, lex_eq_iff, h.active]
    by_cases hba : b = a
    · subst hba
      simp [ht, ha, eq_comm]
    · simp [hba]

/-- **`Insert`** of a timer that is in neither set. -/
theorem insert_eq {q : TimerQueue} {out : Set Addr} (h : q.Indexed out) {a : Addr} {t : Timer}
    (ht : q.heap a = some t) (ha : a ∈ out) :
    q.insert a = (q.isEarliest t.expiration, q.inserted a t) := by
  have hnt : toLex (t.expiration, a) ∉ q.timers := fun hin => by
    obtain ⟨_, _, _, hout⟩ := (h.timers _ _).mp hin
    exact hout ha
  have hna : toLex (a, t.sequence) ∉ q.activeTimers := fun hin => by
    obtain ⟨_, _, _, hout⟩ := (h.active _ _).mp hin
    exact hout ha
  unfold TimerQueue.insert
  simp only [h.checkSizes, ht]
  rw [check_pos q _ (by simpa using hnt), check_pos _ _ (by simpa using hna)]
  exact congrArg (Prod.mk _) (h.inserted ht ha).checkSizes

theorem Owns.inserted {q : TimerQueue} {out : Set Addr} (h : q.Owns out) {a : Addr} {t : Timer}
    (ht : q.heap a = some t) (ha : a ∈ out) : (q.inserted a t).Owns (out \ {a}) :=
  ⟨h.indexed.inserted ht ha, h.accounted.congr rfl rfl rfl, h.noFault⟩

theorem Owns.resetTimerfd {q : TimerQueue} {out : Set Addr} (h : q.Owns out) (expired : Nat) :
    (q.resetTimerfd expired).Owns out :=
  ⟨h.indexed.congr rfl rfl rfl, h.accounted.congr rfl rfl rfl, h.noFault⟩

/-- **`AddTimerInLoop`** inserts, and arms the timerfd for a new earliest timer. -/
theorem addTimerInLoop_eq {q : TimerQueue} {out : Set Addr} (h : q.Indexed out) {a : Addr}
    {t : Timer} (ht : q.heap a = some t) (ha : a ∈ out) :
    q.addTimerInLoop a =
      if q.isEarliest t.expiration then
        ({ q with pending := q.pending.erase a }.inserted a t).resetTimerfd t.expiration
      else { q with pending := q.pending.erase a }.inserted a t := by
  have hins := insert_eq (q := { q with pending := q.pending.erase a }) (h.congr rfl rfl rfl) ht ha
  unfold TimerQueue.addTimerInLoop
  rw [hins]
  cases he : q.isEarliest t.expiration with
  | false =>
    rw [show ({ q with pending := q.pending.erase a } : TimerQueue).isEarliest t.expiration = false
      from he]
    rfl
  | true =>
    rw [show ({ q with pending := q.pending.erase a } : TimerQueue).isEarliest t.expiration = true
      from he]
    simp [TimerQueue.inserted, ht]

theorem Owns.addTimerInLoop {q : TimerQueue} {out : Set Addr} (h : q.Owns out) {a : Addr}
    {t : Timer} (ht : q.heap a = some t) (ha : a ∈ out) :
    (q.addTimerInLoop a).Owns (out \ {a}) := by
  have h0 : ({ q with pending := q.pending.erase a } : TimerQueue).Owns out :=
    ⟨h.indexed.congr rfl rfl rfl, h.accounted.congr rfl rfl rfl, h.noFault⟩
  rw [addTimerInLoop_eq h.indexed ht ha]
  split
  · exact (h0.inserted ht ha).resetTimerfd _
  · exact h0.inserted ht ha

/-- Deletion of a timer that is in neither set. -/
theorem Owns.delete {q : TimerQueue} {out : Set Addr} (h : q.Owns out) {a : Addr} {t : Timer}
    (ht : q.heap a = some t) (ha : a ∈ out) : (q.delete a).Owns (out \ {a}) := by
  refine ⟨?_, h.accounted.delete ht, ?_⟩
  · rw [delete_eq ht]
    refine ⟨fun e b => ?_, fun b s => ?_, fun b hb => ?_⟩
    · rw [h.indexed.timers]
      by_cases hba : b = a
      · subst hba
        simp [ha]
      · simp [hba]
    · rw [h.indexed.active]
      by_cases hba : b = a
      · subst hba
        simp [ha]
      · simp [hba]
    · have hba : b ≠ a := hb.2
      simpa [hba] using h.indexed.allocated b hb.1
  · rw [delete_eq ht]
    exact h.noFault

/-- The queue without the timer at `a`, which was in both sets. -/
def canceled (q : TimerQueue) (a : Addr) (t : Timer) : TimerQueue :=
  { q with
    heap := Function.update q.heap a none
    timers := q.timers.erase (toLex (t.expiration, a))
    activeTimers := q.activeTimers.erase (toLex (a, t.sequence))
    deleted := q.deleted ++ [t.uid] }

theorem Owns.canceled {q : TimerQueue} {out : Set Addr} (h : q.Owns out) {a : Addr} {t : Timer}
    (ht : q.heap a = some t) (ha : a ∉ out) : (q.canceled a t).Owns out := by
  refine ⟨⟨fun e b => ?_, fun b s => ?_, fun b hb => ?_⟩, ?_, h.noFault⟩
  · simp only [TimerQueue.canceled, OrderedSet.mem_erase, ne_eq, lex_eq_iff, h.indexed.timers]
    by_cases hba : b = a
    · subst hba
      simp only [ht, Option.some.injEq, exists_eq_left', and_true, Function.update_self, reduceCtorEq,
        false_and, exists_false, iff_false, not_and]
      exact fun hne he => absurd he.symm hne
    · simp [hba]
  · simp only [TimerQueue.canceled, OrderedSet.mem_erase, ne_eq, lex_eq_iff, h.indexed.active]
    by_cases hba : b = a
    · subst hba
      simp only [ht, Option.some.injEq, exists_eq_left', true_and, Function.update_self, reduceCtorEq,
        false_and, exists_false, iff_false, not_and]
      exact fun hne he => absurd he.symm hne
    · simp [hba]
  · have hba : b ≠ a := fun he => ha (he ▸ hb)
    simpa [TimerQueue.canceled, hba] using h.indexed.allocated b hb
  · have hacc := h.accounted.delete ht
    rw [delete_eq ht] at hacc
    exact hacc.congr rfl rfl rfl

/-- **`CancelInLoop`** deletes a timer that is in the sets, and otherwise notes the
request while callbacks are running. -/
theorem cancelInLoop_eq {q : TimerQueue} {out : Set Addr} (h : q.Owns out) (a : Addr) (n : Nat) :
    (∃ t, q.heap a = some t ∧ t.sequence = n ∧ a ∉ out ∧
      q.cancelInLoop (toLex (a, n)) = q.canceled a t) ∨
    (toLex (a, n) ∉ q.activeTimers ∧ q.cancelInLoop (toLex (a, n)) =
      if q.callingExpiredTimers then
        { q with cancelingTimers := q.cancelingTimers.insert (toLex (a, n)) }
      else q) := by
  unfold TimerQueue.cancelInLoop
  simp only [h.indexed.checkSizes]
  by_cases hin : toLex (a, n) ∈ q.activeTimers
  · left
    obtain ⟨t, ht, rfl, hout⟩ := (h.indexed.active a n).mp hin
    have hmem : toLex (t.expiration, a) ∈ q.timers := (h.indexed.timers _ _).mpr ⟨t, ht, rfl, hout⟩
    refine ⟨t, ht, rfl, hout, ?_⟩
    rw [if_pos hin]
    simp only [ofLex_toLex, ht]
    rw [check_pos q _ (by exact decide_eq_true hmem)]
    rw [delete_eq (q := { q with timers := q.timers.erase (toLex (t.expiration, a)) }) ht]
    exact (h.canceled ht hout).indexed.checkSizes
  · right
    refine ⟨hin, ?_⟩
    rw [if_neg hin]
    split
    · have hidx : ({ q with
          cancelingTimers := q.cancelingTimers.insert (toLex (a, n)) } : TimerQueue).Indexed out :=
        h.indexed.congr rfl rfl rfl
      exact hidx.checkSizes
    · exact h.indexed.checkSizes

theorem Owns.cancelInLoop {q : TimerQueue} {out : Set Addr} (h : q.Owns out) (id : ActiveTimer) :
    (q.cancelInLoop id).Owns out := by
  rcases cancelInLoop_eq h (ofLex id).1 (ofLex id).2 with ⟨t, ht, _, hout, heq⟩ | ⟨_, heq⟩
  · rw [show id = toLex ((ofLex id).1, (ofLex id).2) from rfl, heq]
    exact h.canceled ht hout
  · rw [show id = toLex ((ofLex id).1, (ofLex id).2) from rfl, heq]
    split
    · exact ⟨h.indexed.congr rfl rfl rfl, h.accounted.congr rfl rfl rfl, h.noFault⟩
    · exact h

/-! ## Expired timers leave the sets -/

theorem eraseActive_eq {q : TimerQueue} {e : Entry} {t : Timer}
    (ht : q.heap (ofLex e).2 = some t) (hin : toLex ((ofLex e).2, t.sequence) ∈ q.activeTimers) :
    q.eraseActive e =
      { q with activeTimers := q.activeTimers.erase (toLex ((ofLex e).2, t.sequence)) } := by
  unfold eraseActive
  simp only [ht]
  rw [check_pos q _ (by exact decide_eq_true hin)]

/-- The loop of `getExpired` takes exactly the timers of the list out of
`active_timers_`. -/
theorem foldl_eraseActive {q : TimerQueue} {l : List Entry}
    (hlive : ∀ e ∈ l, ∃ t, q.heap (ofLex e).2 = some t ∧
      toLex ((ofLex e).2, t.sequence) ∈ q.activeTimers)
    (hseq : ∀ a n, toLex (a, n) ∈ q.activeTimers → ∃ t, q.heap a = some t ∧ t.sequence = n)
    (hnd : (l.map fun e => (ofLex e).2).Nodup) :
    ∃ act : OrderedSet ActiveTimer, l.foldl eraseActive q = { q with activeTimers := act } ∧
      ∀ a n, toLex (a, n) ∈ act ↔
        toLex (a, n) ∈ q.activeTimers ∧ a ∉ l.map fun e => (ofLex e).2 := by
  induction l generalizing q with
  | nil => exact ⟨q.activeTimers, rfl, by simp⟩
  | cons e l ih =>
    obtain ⟨t, ht, hin⟩ := hlive e (by simp)
    rw [List.map_cons, List.nodup_cons] at hnd
    have hmem : ∀ a n, toLex (a, n) ∈
        q.activeTimers.erase (toLex ((ofLex e).2, t.sequence)) ↔
        toLex (a, n) ∈ q.activeTimers ∧ a ≠ (ofLex e).2 := by
      intro a n
      rw [OrderedSet.mem_erase, ne_eq, lex_eq_iff]
      constructor
      · rintro ⟨hne, hmem⟩
        refine ⟨hmem, fun ha => hne ⟨ha, ?_⟩⟩
        obtain ⟨t', ht', hn⟩ := hseq a n hmem
        rw [ha, ht] at ht'
        cases ht'
        exact hn.symm
      · rintro ⟨hmem, hne⟩
        exact ⟨fun h => hne h.1, hmem⟩
    obtain ⟨act, hact, hall⟩ := ih
      (q := { q with activeTimers := q.activeTimers.erase (toLex ((ofLex e).2, t.sequence)) })
      (fun e' he' => by
        obtain ⟨t', ht', hin'⟩ := hlive e' (by simp [he'])
        refine ⟨t', ht', (hmem _ _).mpr ⟨hin', fun heq => hnd.1 ?_⟩⟩
        exact heq ▸ List.mem_map_of_mem he')
      (fun a n h => hseq a n ((hmem a n).mp h).1) hnd.2
    refine ⟨act, ?_, fun a n => ?_⟩
    · rw [List.foldl_cons, eraseActive_eq ht hin, hact]
    · rw [hall a n, hmem a n]
      simp only [List.map_cons, List.mem_cons, not_or]
      tauto

theorem lt_sentry {x now : Nat} {a : Addr} (ha : a < UINTPTR_MAX) :
    (toLex (x, a) : Entry) < toLex (now, UINTPTR_MAX) ↔ x ≤ now := by
  rw [Prod.Lex.toLex_lt_toLex]
  constructor
  · rintro (hlt | ⟨heq, _⟩)
    · exact hlt.le
    · exact heq.le
  · intro hle
    rcases hle.lt_or_eq with hlt | heq
    · exact .inl hlt
    · exact .inr ⟨heq, ha⟩

/-- The entries in front of the sentry are those that are due. -/
theorem before_sentry {q : TimerQueue} {out : Set Addr} (h : q.Owns out) (now : Nat) (e : Entry) :
    e ∈ q.timers.before (toLex (now, UINTPTR_MAX)) ↔ e ∈ q.timers ∧ (ofLex e).1 ≤ now := by
  rw [OrderedSet.mem_before]
  refine and_congr_right fun hin => ?_
  obtain ⟨t, ht, _, _⟩ := (h.indexed.timers (ofLex e).1 (ofLex e).2).mp hin
  exact lt_sentry (h.accounted.inRange _ t ht)

theorem Owns.timer_of_mem {q : TimerQueue} {out : Set Addr} (h : q.Owns out) {e : Entry}
    (he : e ∈ q.timers) :
    ∃ t, q.heap (ofLex e).2 = some t ∧ t.expiration = (ofLex e).1 ∧ (ofLex e).2 ∉ out :=
  (h.indexed.timers (ofLex e).1 (ofLex e).2).mp he

theorem Owns.nodup_due {q : TimerQueue} {out : Set Addr} (h : q.Owns out) (now : Nat) :
    ((q.timers.before (toLex (now, UINTPTR_MAX))).map fun e => (ofLex e).2).Nodup := by
  refine (OrderedSet.nodup_before _ _).map_on fun e he e' he' heq => ?_
  obtain ⟨t, ht, hexp, _⟩ := h.timer_of_mem ((before_sentry h now e).mp he).1
  obtain ⟨t', ht', hexp', _⟩ := h.timer_of_mem ((before_sentry h now e').mp he').1
  rw [heq, ht'] at ht
  cases ht
  exact Prod.ext (hexp.symm.trans hexp') heq

theorem Owns.startsAfter_left {q : TimerQueue} {out : Set Addr} (h : q.Owns out) (now : Nat) :
    startsAfter (q.timers.dropBefore (toLex (now, UINTPTR_MAX))) now = true := by
  unfold startsAfter
  split
  · rfl
  · rename_i e he
    obtain ⟨hin, hnot⟩ := OrderedSet.mem_dropBefore.mp (OrderedSet.begin?_eq_some he).1
    rw [decide_eq_true_eq]
    by_contra hle
    exact hnot (OrderedSet.mem_before.mp ((before_sentry h now e).mpr ⟨hin, by omega⟩)).2

/-- A timer in the sets is in the batch exactly when it is due. -/
theorem Owns.mem_due_iff {q : TimerQueue} {out : Set Addr} (h : q.Owns out) (now : Nat) {a : Addr}
    {t : Timer} (ht : q.heap a = some t) (hout : a ∉ out) :
    a ∈ (q.timers.before (toLex (now, UINTPTR_MAX))).map (fun e => (ofLex e).2) ↔
      t.expiration ≤ now := by
  rw [List.mem_map]
  constructor
  · rintro ⟨e, he, rfl⟩
    obtain ⟨hin, hle⟩ := (before_sentry h now e).mp he
    obtain ⟨t', ht', hexp, _⟩ := h.timer_of_mem hin
    rw [ht] at ht'
    cases ht'
    omega
  · intro hle
    have hin : toLex (t.expiration, a) ∈ q.timers :=
      (h.indexed.timers _ _).mpr ⟨t, ht, rfl, hout⟩
    exact ⟨toLex (t.expiration, a), (before_sentry h now _).mpr ⟨hin, hle⟩, rfl⟩

/-- The timers that are due leave both sets together. -/
theorem Owns.takeDue {q : TimerQueue} {out : Set Addr} (h : q.Owns out) (now : Nat)
    {act : OrderedSet ActiveTimer}
    (hall : ∀ a n, toLex (a, n) ∈ act ↔ toLex (a, n) ∈ q.activeTimers ∧
      a ∉ (q.timers.before (toLex (now, UINTPTR_MAX))).map fun e => (ofLex e).2) :
    ({ q with
      timers := q.timers.dropBefore (toLex (now, UINTPTR_MAX)),
      activeTimers := act } : TimerQueue).Owns (out ∪ {a | a ∈
        (q.timers.before (toLex (now, UINTPTR_MAX))).map fun e => (ofLex e).2}) := by
  have hdue := before_sentry h now
  refine ⟨⟨fun e a => ?_, fun a n => ?_, fun a ha => ?_⟩, h.accounted.congr rfl rfl rfl,
    h.noFault⟩
  · rw [OrderedSet.mem_dropBefore, h.indexed.timers]
    constructor
    · rintro ⟨⟨t, ht, hexp, hout⟩, hnot⟩
      refine ⟨t, ht, hexp, ?_⟩
      rintro (ho | hb)
      · exact hout ho
      · refine hnot (OrderedSet.mem_before.mp ((hdue _).mpr ⟨?_, ?_⟩)).2
        · exact (h.indexed.timers _ _).mpr ⟨t, ht, hexp, hout⟩
        · exact hexp ▸ (h.mem_due_iff now ht hout).mp hb
    · rintro ⟨t, ht, hexp, hout⟩
      have ho : a ∉ out := fun ho => hout (.inl ho)
      refine ⟨⟨t, ht, hexp, ho⟩, fun hlt => hout (.inr ((h.mem_due_iff now ht ho).mpr ?_))⟩
      have hin : toLex (e, a) ∈ q.timers := (h.indexed.timers _ _).mpr ⟨t, ht, hexp, ho⟩
      exact hexp ▸ ((hdue _).mp (OrderedSet.mem_before.mpr ⟨hin, hlt⟩)).2
  · rw [hall, h.indexed.active]
    constructor
    · rintro ⟨⟨t, ht, hn, hout⟩, hnot⟩
      exact ⟨t, ht, hn, fun ho => ho.elim hout hnot⟩
    · rintro ⟨t, ht, hn, hout⟩
      exact ⟨⟨t, ht, hn, fun ho => hout (.inl ho)⟩, fun hb => hout (.inr hb)⟩
  · rcases ha with ha | ha
    · exact h.indexed.allocated a ha
    · obtain ⟨e, he, rfl⟩ := List.mem_map.mp ha
      obtain ⟨t, ht, _⟩ := h.timer_of_mem ((hdue e).mp he).1
      exact Option.isSome_iff_exists.mpr ⟨t, ht⟩

/-- **`getExpired`** moves the timers that are due from the two sets to the batch. -/
theorem getExpired_spec {q : TimerQueue} {out : Set Addr} (h : q.Owns out) (now : Nat) :
    ∃ (expired : List Entry) (act : OrderedSet ActiveTimer), q.getExpired now =
        (expired, { q with
          timers := q.timers.dropBefore (toLex (now, UINTPTR_MAX)), activeTimers := act }) ∧
      (∀ e, e ∈ expired ↔ e ∈ q.timers ∧ (ofLex e).1 ≤ now) ∧
      (expired.map fun e => (ofLex e).2).Nodup ∧
      ({ q with
        timers := q.timers.dropBefore (toLex (now, UINTPTR_MAX)),
        activeTimers := act } : TimerQueue).Owns
          (out ∪ {a | a ∈ expired.map fun e => (ofLex e).2}) := by
  have hdue := before_sentry h now
  have hnd := h.nodup_due now
  obtain ⟨act, hact, hall⟩ := foldl_eraseActive
    (q := { q with timers := q.timers.dropBefore (toLex (now, UINTPTR_MAX)) })
    (l := q.timers.before (toLex (now, UINTPTR_MAX)))
    (fun e he => by
      obtain ⟨t, ht, _, hout⟩ := h.timer_of_mem ((hdue e).mp he).1
      exact ⟨t, ht, (h.indexed.active _ _).mpr ⟨t, ht, rfl, hout⟩⟩)
    (fun a n hin => by
      obtain ⟨t, ht, hn, _⟩ := (h.indexed.active a n).mp hin
      exact ⟨t, ht, hn⟩) hnd
  have howns := h.takeDue now hall
  refine ⟨_, act, ?_, hdue, hnd, howns⟩
  unfold getExpired
  simp only [h.indexed.checkSizes]
  rw [check_pos q _ (h.startsAfter_left now), hact]
  exact congrArg (Prod.mk _) howns.indexed.checkSizes

/-! ## The batch goes back or is deleted -/

/-- What `Reset` leaves alone while it goes through the batch. -/
structure Frame (q q' : TimerQueue) : Prop where
  created : q'.created = q.created
  pending : q'.pending = q.pending
  started : q'.started = q.started
  canceling : q'.cancelingTimers = q.cancelingTimers
  calling : q'.callingExpiredTimers = q.callingExpiredTimers
  clock : q'.clock = q.clock
  timerfd : q'.timerfd = q.timerfd
  resets : q'.resets = q.resets

theorem Frame.refl (q : TimerQueue) : Frame q q := ⟨rfl, rfl, rfl, rfl, rfl, rfl, rfl, rfl⟩

theorem Frame.trans {q r s : TimerQueue} (h : Frame q r) (h' : Frame r s) : Frame q s :=
  ⟨h'.created.trans h.created, h'.pending.trans h.pending, h'.started.trans h.started,
    h'.canceling.trans h.canceling, h'.calling.trans h.calling, h'.clock.trans h.clock,
    h'.timerfd.trans h.timerfd, h'.resets.trans h.resets⟩

/-- The queue with a timer of the batch restarted and back in the sets. -/
def restarted (ts : Timestamps) (q : TimerQueue) (now : Nat) (a : Addr) (t : Timer) : TimerQueue :=
  ({ q with heap := Function.update q.heap a (some (t.restart ts now)) } : TimerQueue).inserted a
    (t.restart ts now)

/-- Deletion and restart both change the heap at one address of `out` only. -/
theorem Indexed.heap_out {q : TimerQueue} {out : Set Addr} (h : q.Indexed out) {a : Addr}
    (ha : a ∈ out) (t : Timer) :
    ({ q with heap := Function.update q.heap a (some t) } : TimerQueue).Indexed out := by
  refine ⟨fun e b => ?_, fun b n => ?_, fun b hb => ?_⟩
  · rw [h.timers]
    by_cases hba : b = a
    · subst hba
      simp [ha]
    · simp [hba]
  · rw [h.active]
    by_cases hba : b = a
    · subst hba
      simp [ha]
    · simp [hba]
  · by_cases hba : b = a
    · subst hba
      simp
    · simpa [hba] using h.allocated b hb

theorem resetEntry_eq {ts : Timestamps} {now : Nat} {q : TimerQueue} {out : Set Addr}
    (h : q.Indexed out) {e : Entry} {t : Timer} (ht : q.heap (ofLex e).2 = some t)
    (ha : (ofLex e).2 ∈ out) : resetEntry ts now q e =
      if t.repeat_ = true ∧ toLex ((ofLex e).2, t.sequence) ∉ q.cancelingTimers then
        q.restarted ts now (ofLex e).2 t
      else q.delete (ofLex e).2 := by
  unfold resetEntry
  simp only [ht]
  split
  · have hins := insert_eq (h.heap_out ha (t.restart ts now)) (Function.update_self ..) ha
    exact congrArg Prod.snd hins
  · rfl

theorem resetEntry_spec (ts : Timestamps) (now : Nat) {q : TimerQueue} {out : Set Addr}
    (h : q.Owns out) {e : Entry} (ha : (ofLex e).2 ∈ out) :
    (resetEntry ts now q e).Owns (out \ {(ofLex e).2}) ∧ Frame q (resetEntry ts now q e) := by
  obtain ⟨t, ht⟩ := Option.isSome_iff_exists.mp (h.indexed.allocated _ ha)
  rw [resetEntry_eq h.indexed ht ha]
  split
  · have hheap : ({ q with heap := Function.update q.heap (ofLex e).2 (some (t.restart ts now)) } :
        TimerQueue).Owns out :=
      ⟨h.indexed.heap_out ha _, h.accounted.restart ht rfl rfl, h.noFault⟩
    exact ⟨hheap.inserted (Function.update_self ..) ha, ⟨rfl, rfl, rfl, rfl, rfl, rfl, rfl, rfl⟩⟩
  · refine ⟨h.delete ht ha, ?_⟩
    rw [delete_eq ht]
    exact ⟨rfl, rfl, rfl, rfl, rfl, rfl, rfl, rfl⟩

theorem foldl_resetEntry (ts : Timestamps) (now : Nat) {l : List Entry} {q : TimerQueue}
    {out : Set Addr} (h : q.Owns out) (hin : ∀ e ∈ l, (ofLex e).2 ∈ out)
    (hnd : (l.map fun e => (ofLex e).2).Nodup) :
    (l.foldl (resetEntry ts now) q).Owns (out \ {a | a ∈ l.map fun e => (ofLex e).2}) ∧
      Frame q (l.foldl (resetEntry ts now) q) := by
  induction l generalizing q out with
  | nil =>
    have hset : out \ {a | a ∈ ([] : List Entry).map fun e => (ofLex e).2} = out := by
      ext a
      simp
    rw [hset]
    exact ⟨h, Frame.refl q⟩
  | cons e l ih =>
    rw [List.map_cons, List.nodup_cons] at hnd
    obtain ⟨ho, hf⟩ := resetEntry_spec ts now h (hin e (by simp))
    obtain ⟨ho', hf'⟩ := ih ho (fun e' he' => ⟨hin e' (by simp [he']), fun heq =>
      hnd.1 (Set.mem_singleton_iff.mp heq ▸ List.mem_map_of_mem he')⟩) hnd.2
    refine ⟨?_, hf.trans hf'⟩
    have hset : (out \ {(ofLex e).2}) \ {a | a ∈ l.map fun e => (ofLex e).2} =
        out \ {a | a ∈ (e :: l).map fun e => (ofLex e).2} := by
      ext a
      simp only [Set.mem_sdiff, Set.mem_singleton_iff, Set.mem_ofPred_eq, List.map_cons, List.mem_cons]
      tauto
    rw [← hset]
    exact ho'

/-- The end of `Reset`: the timerfd is set for the earliest timer, if there is one. -/
theorem reset_eq {ts : Timestamps} {now : Nat} {l : List Entry} {q : TimerQueue} {out : Set Addr}
    (h : (l.foldl (resetEntry ts now) q).Indexed out) :
    q.reset ts l now = match (l.foldl (resetEntry ts now) q).timers.begin? with
      | none => l.foldl (resetEntry ts now) q
      | some e => (l.foldl (resetEntry ts now) q).resetTimerfd (ofLex e).1 := by
  unfold reset
  generalize l.foldl (resetEntry ts now) q = r at h
  dsimp only
  cases he : r.timers.begin? with
  | none => rfl
  | some e =>
    obtain ⟨t, ht, hexp, _⟩ := (h.timers (ofLex e).1 (ofLex e).2).mp
      (OrderedSet.begin?_eq_some he).1
    simp only [ht, hexp]

theorem Owns.reset {l : List Entry} {q : TimerQueue} {out : Set Addr} (h : q.Owns out)
    (ts : Timestamps) (now : Nat) (hin : ∀ e ∈ l, (ofLex e).2 ∈ out)
    (hnd : (l.map fun e => (ofLex e).2).Nodup) :
    (q.reset ts l now).Owns (out \ {a | a ∈ l.map fun e => (ofLex e).2}) := by
  obtain ⟨ho, _⟩ := foldl_resetEntry ts now h hin hnd
  rw [reset_eq ho.indexed]
  split
  · exact ho
  · exact ho.resetTimerfd _

theorem reset_frame (ts : Timestamps) (now : Nat) {l : List Entry} {q : TimerQueue}
    {out : Set Addr} (h : q.Owns out) (hin : ∀ e ∈ l, (ofLex e).2 ∈ out)
    (hnd : (l.map fun e => (ofLex e).2).Nodup) :
    (q.reset ts l now).pending = q.pending ∧ (q.reset ts l now).started = q.started ∧
      (q.reset ts l now).callingExpiredTimers = q.callingExpiredTimers ∧
      (q.reset ts l now).deleted = (l.foldl (resetEntry ts now) q).deleted := by
  obtain ⟨ho, hf⟩ := foldl_resetEntry ts now h hin hnd
  rw [reset_eq ho.indexed]
  split <;> exact ⟨hf.pending, hf.started, hf.calling, rfl⟩

/-! ## Runs -/

/-- The rest of the loop in `HandleRead`. -/
def Phase.rest : Phase → List Entry
  | .idle => []
  | .firing _ _ rest => rest

@[simp] theorem Phase.batch_idle : Phase.idle.batch = [] := rfl

@[simp] theorem Phase.batch_firing (now : Nat) (expired rest : List Entry) :
    (Phase.firing now expired rest).batch = expired.map fun e => (ofLex e).2 := rfl

/-- Allocated, but in neither set. -/
def out (q : TimerQueue) : Set Addr := {a | a ∈ q.pending ∨ a ∈ q.phase.batch}

structure Good (q : TimerQueue) : Prop where
  owns : q.Owns q.out
  nodup : (q.pending ++ q.phase.batch).Nodup
  rest : ∀ e ∈ q.phase.rest, (ofLex e).2 ∈ q.phase.batch
  calling : q.callingExpiredTimers = !q.phase.isIdle

theorem good_init (clock : Nat) : (init clock).Good := by
  refine ⟨⟨⟨?_, ?_, ?_⟩, ⟨?_, ?_, ?_, ?_⟩, rfl⟩, ?_, ?_, rfl⟩ <;> simp [init, out, Phase.batch, Phase.rest]

theorem Owns.allocate {q : TimerQueue} {out : Set Addr} (h : q.Owns out) {a : Addr}
    (hfree : q.heap a = none) (hlt : a < UINTPTR_MAX) (expiration : Nat) (intervalS : Int) :
    (q.allocate a expiration intervalS).Owns (out ∪ {a}) := by
  refine ⟨⟨fun e b => ?_, fun b n => ?_, fun b hb => ?_⟩,
    h.accounted.allocate hfree hlt expiration intervalS, h.noFault⟩
  · rw [show (q.allocate a expiration intervalS).timers = q.timers from rfl, h.indexed.timers]
    by_cases hba : b = a
    · subst hba
      simp [hfree]
    · simp [TimerQueue.allocate, hba]
  · rw [show (q.allocate a expiration intervalS).activeTimers = q.activeTimers from rfl,
      h.indexed.active]
    by_cases hba : b = a
    · subst hba
      simp [hfree]
    · simp [TimerQueue.allocate, hba]
  · by_cases hba : b = a
    · subst hba
      simp [TimerQueue.allocate]
    · have hb' : b ∈ out := hb.resolve_right hba
      simpa [TimerQueue.allocate, hba] using h.indexed.allocated b hb'

theorem free_iff {q : TimerQueue} {a : Addr} (h : q.free a = true) :
    q.heap a = none ∧ a < UINTPTR_MAX := by
  simp only [free, Bool.and_eq_true, decide_eq_true_eq, Option.isNone_iff_eq_none] at h
  exact ⟨h.2, h.1.2⟩

/-- A free address is nowhere in the queue. -/
theorem Good.fresh {q : TimerQueue} (h : q.Good) {a : Addr} (hfree : q.heap a = none) :
    a ∉ q.pending ++ q.phase.batch := by
  intro hin
  have halloc := h.owns.indexed.allocated a (List.mem_append.mp hin)
  rw [hfree] at halloc
  cases halloc

theorem good_new {q : TimerQueue} (h : q.Good) {a : Addr} (hfree : q.free a = true)
    (expiration : Nat) (intervalS : Int) : (q.allocate a expiration intervalS).Good := by
  obtain ⟨hnone, hlt⟩ := free_iff hfree
  have hnot := h.fresh hnone
  refine ⟨?_, ?_, h.rest, h.calling⟩
  · have hset : (q.allocate a expiration intervalS).out = q.out ∪ {a} := by
      ext b
      simp only [out, TimerQueue.allocate, Set.mem_ofPred_eq, Set.mem_union, Set.mem_singleton_iff,
        List.mem_append, List.mem_singleton]
      tauto
    rw [hset]
    exact h.owns.allocate hnone hlt expiration intervalS
  · have hnd := h.nodup
    simp only [TimerQueue.allocate]
    rw [List.append_assoc, List.nodup_append_comm, List.append_assoc, List.singleton_append,
      List.nodup_cons]
    refine ⟨fun hin => hnot ?_, ?_⟩
    · rw [List.mem_append] at hin ⊢
      exact hin.symm
    · rw [List.nodup_append_comm]
      exact hnd

/-- A function that hands over the timer at `a` and touches the rest of the queue
as `AddTimerInLoop` does. -/
theorem good_addTimerInLoop {q : TimerQueue} (h : q.Good) {a : Addr} (ha : a ∈ q.pending) :
    (q.addTimerInLoop a).Good ∧ (q.addTimerInLoop a).heap = q.heap := by
  have hout : a ∈ q.out := .inl ha
  obtain ⟨t, ht⟩ := Option.isSome_iff_exists.mp (h.owns.indexed.allocated a hout)
  have hpend := (List.nodup_append.mp h.nodup).1
  have hfield : (q.addTimerInLoop a).pending = q.pending.erase a ∧
      (q.addTimerInLoop a).phase = q.phase ∧
      (q.addTimerInLoop a).callingExpiredTimers = q.callingExpiredTimers ∧
      (q.addTimerInLoop a).heap = q.heap := by
    rw [addTimerInLoop_eq h.owns.indexed ht hout]
    split <;> exact ⟨rfl, rfl, rfl, rfl⟩
  obtain ⟨hp, hph, hcall, hheap⟩ := hfield
  refine ⟨⟨?_, ?_, ?_, ?_⟩, hheap⟩
  · have hset : (q.addTimerInLoop a).out = q.out \ {a} := by
      ext b
      simp only [out, hp, hph, Set.mem_ofPred_eq, Set.mem_sdiff, Set.mem_singleton_iff,
        hpend.mem_erase_iff]
      constructor
      · rintro (⟨hne, hb⟩ | hb)
        · exact ⟨.inl hb, hne⟩
        · refine ⟨.inr hb, fun heq => ?_⟩
          exact (List.nodup_append.mp h.nodup).2.2 a ha b hb heq.symm
      · rintro ⟨hb | hb, hne⟩
        · exact .inl ⟨hne, hb⟩
        · exact .inr hb
    rw [hset]
    exact h.owns.addTimerInLoop ht hout
  · rw [hp, hph]
    exact h.nodup.sublist (List.Sublist.append_right List.erase_sublist _)
  · rw [hph]
    exact h.rest
  · rw [hph, hcall]
    exact h.calling

theorem addTimer_eq {q : TimerQueue} (h : q.Good) {a : Addr} (hfree : q.free a = true)
    {expiration : Nat} {intervalS : Int} : q.addTimer a expiration intervalS =
      (q.allocate a expiration intervalS).addTimerInLoop a := by
  obtain ⟨_, hheap⟩ := good_addTimerInLoop (good_new h hfree expiration intervalS) (a := a)
    (by simp [TimerQueue.allocate])
  unfold addTimer
  dsimp only
  exact check_pos _ _ (by rw [hheap]; simp [TimerQueue.allocate])

theorem good_addTimer {q : TimerQueue} (h : q.Good) {a : Addr} (hfree : q.free a = true)
    (expiration : Nat) (intervalS : Int) : (q.addTimer a expiration intervalS).Good := by
  rw [addTimer_eq h hfree]
  exact (good_addTimerInLoop (good_new h hfree expiration intervalS)
    (by simp [TimerQueue.allocate])).1

theorem good_cancelInLoop {q : TimerQueue} (h : q.Good) (id : ActiveTimer) :
    (q.cancelInLoop id).Good := by
  have hfield : (q.cancelInLoop id).pending = q.pending ∧ (q.cancelInLoop id).phase = q.phase ∧
      (q.cancelInLoop id).callingExpiredTimers = q.callingExpiredTimers := by
    rw [show id = toLex ((ofLex id).1, (ofLex id).2) from rfl]
    rcases cancelInLoop_eq h.owns (ofLex id).1 (ofLex id).2 with ⟨t, _, _, _, heq⟩ | ⟨_, heq⟩
    · rw [heq]
      exact ⟨rfl, rfl, rfl⟩
    · rw [heq]
      split <;> exact ⟨rfl, rfl, rfl⟩
  obtain ⟨hp, hph, hcall⟩ := hfield
  refine ⟨?_, ?_, ?_, ?_⟩
  · rw [out, hp, hph]
    exact h.owns.cancelInLoop id
  · rw [hp, hph]
    exact h.nodup
  · rw [hph]
    exact h.rest
  · rw [hph, hcall]
    exact h.calling

theorem readTimer_eq (q : TimerQueue) : ∃ fd, q.readTimer = { q with timerfd := fd } := by
  unfold TimerQueue.readTimer
  split
  · exact ⟨q.timerfd, rfl⟩
  · split
    · exact ⟨none, rfl⟩
    · exact ⟨q.timerfd, rfl⟩

/-- **`HandleRead`** up to its loop: the timers that are due are now in the batch. -/
theorem handleRead_spec {q : TimerQueue} {out : Set Addr} (h : q.Owns out) (delay : Nat) :
    ∃ fd expired act, q.handleRead delay = { q with
        clock := q.clock + delay
        timerfd := fd
        timers := q.timers.dropBefore (toLex (q.clock, UINTPTR_MAX))
        activeTimers := act
        callingExpiredTimers := true
        cancelingTimers := .empty
        phase := .firing q.clock expired expired } ∧
      (∀ e, e ∈ expired ↔ e ∈ q.timers ∧ (ofLex e).1 ≤ q.clock) ∧
      (expired.map fun e => (ofLex e).2).Nodup ∧
      (q.handleRead delay).Owns (out ∪ {a | a ∈ expired.map fun e => (ofLex e).2}) := by
  obtain ⟨fd, hfd⟩ := readTimer_eq { q with clock := q.clock + delay }
  have h0 : ({ q with clock := q.clock + delay, timerfd := fd } : TimerQueue).Owns out :=
    ⟨h.indexed.congr rfl rfl rfl, h.accounted.congr rfl rfl rfl, h.noFault⟩
  obtain ⟨expired, act, heq, hmem, hnd, howns⟩ := getExpired_spec h0 q.clock
  have hread : q.handleRead delay = { q with
      clock := q.clock + delay
      timerfd := fd
      timers := q.timers.dropBefore (toLex (q.clock, UINTPTR_MAX))
      activeTimers := act
      callingExpiredTimers := true
      cancelingTimers := .empty
      phase := .firing q.clock expired expired } := by
    unfold TimerQueue.handleRead
    simp only [hfd, heq]
  refine ⟨fd, expired, act, hread, hmem, hnd, ?_⟩
  rw [hread]
  exact ⟨howns.indexed.congr rfl rfl rfl, howns.accounted.congr rfl rfl rfl, howns.noFault⟩

theorem good_handleRead {q : TimerQueue} (h : q.Good) (hidle : q.phase.isIdle = true)
    (delay : Nat) : (q.handleRead delay).Good := by
  obtain ⟨fd, expired, act, heq, hmem, hnd, howns⟩ := handleRead_spec h.owns delay
  have hphase : q.phase.batch = [] := by
    cases hp : q.phase with
    | idle => rfl
    | firing now expired rest => simp [hp, Phase.isIdle] at hidle
  rw [heq] at howns ⊢
  refine ⟨?_, ?_, fun e he => List.mem_map_of_mem he, rfl⟩
  · have hset : ({ q with
        clock := q.clock + delay
        timerfd := fd
        timers := q.timers.dropBefore (toLex (q.clock, UINTPTR_MAX))
        activeTimers := act
        callingExpiredTimers := true
        cancelingTimers := .empty
        phase := .firing q.clock expired expired } : TimerQueue).out =
        q.out ∪ {a | a ∈ expired.map fun e => (ofLex e).2} := by
      ext b
      simp [out, hphase]
    rw [hset]
    exact howns
  · refine List.nodup_append.mpr ⟨(List.nodup_append.mp h.nodup).1, hnd, fun b hb c hc heq => ?_⟩
    -- what is pending is not in the sets, so it is not due either
    obtain ⟨e, he, rfl⟩ := List.mem_map.mp hc
    obtain ⟨_, _, _, hnot⟩ := (h.owns.indexed.timers (ofLex e).1 (ofLex e).2).mp ((hmem e).mp he).1
    exact hnot (.inl (heq ▸ hb))

/-- The batch as `Reset` finds it. -/
theorem Good.batch_ready {q : TimerQueue} (h : q.Good) {now : Nat} {expired rest : List Entry}
    (hph : q.phase = .firing now expired rest) :
    ({ q with callingExpiredTimers := false } : TimerQueue).Owns q.out ∧
      (∀ e ∈ expired, (ofLex e).2 ∈ q.out) ∧ (expired.map fun e => (ofLex e).2).Nodup := by
  have hbatch : q.phase.batch = expired.map fun e => (ofLex e).2 := by rw [hph]; rfl
  refine ⟨⟨h.owns.indexed.congr rfl rfl rfl, h.owns.accounted.congr rfl rfl rfl, h.owns.noFault⟩,
    fun e he => .inr (hbatch ▸ List.mem_map_of_mem he), ?_⟩
  rw [← hbatch]
  exact (List.nodup_append.mp h.nodup).2.1

theorem good_finish {ts : Timestamps} {q : TimerQueue} (h : q.Good) {now : Nat}
    {expired : List Entry} (hph : q.phase = .firing now expired []) :
    ({ { q with callingExpiredTimers := false }.reset ts expired now with phase := .idle } :
      TimerQueue).Good := by
  have hbatch : q.phase.batch = expired.map fun e => (ofLex e).2 := by rw [hph]; rfl
  obtain ⟨h0, hin, hnd⟩ := h.batch_ready hph
  obtain ⟨hpend, _, hdisj⟩ := List.nodup_append.mp h.nodup
  rw [hbatch] at hdisj
  have howns := h0.reset ts now hin hnd
  obtain ⟨hp, _, hcall, _⟩ := reset_frame ts now h0 hin hnd
  refine ⟨?_, ?_, (fun e he => by cases he), hcall⟩
  · have hset : ({ ({ q with callingExpiredTimers := false } : TimerQueue).reset ts expired now with
        phase := .idle } : TimerQueue).out =
        q.out \ {a | a ∈ expired.map fun e => (ofLex e).2} := by
      ext b
      simp only [out, hp, hbatch, Phase.batch_idle, Set.mem_ofPred_eq, Set.mem_sdiff]
      constructor
      · rintro (hb | hb)
        · exact ⟨.inl hb, fun hb' => hdisj b hb b hb' rfl⟩
        · cases hb
      · rintro ⟨hb | hb, hnot⟩
        · exact .inl hb
        · exact absurd hb hnot
    rw [hset]
    exact ⟨howns.indexed.congr rfl rfl rfl, howns.accounted.congr rfl rfl rfl, howns.noFault⟩
  · simp only [hp, Phase.batch_idle, List.append_nil]
    exact hpend

theorem good_runNext {q : TimerQueue} (h : q.Good) {now : Nat} {expired rest : List Entry}
    {e : Entry} (hph : q.phase = .firing now expired (e :: rest)) :
    ∃ t, q.heap (ofLex e).2 = some t ∧
      q.runCallback (ofLex e).2 = { q with started := q.started ++ [t.uid] } ∧
      ({ q.runCallback (ofLex e).2 with phase := .firing now expired rest } : TimerQueue).Good := by
  have hbatch : q.phase.batch = expired.map fun e => (ofLex e).2 := by rw [hph]; rfl
  have hin : ∀ e' ∈ e :: rest, (ofLex e').2 ∈ q.phase.batch := by
    have hrest := h.rest
    rw [hph] at hrest ⊢
    exact hrest
  obtain ⟨t, ht⟩ := Option.isSome_iff_exists.mp
    (h.owns.indexed.allocated _ (.inr (hin e (by simp))))
  have hrun : q.runCallback (ofLex e).2 = { q with started := q.started ++ [t.uid] } := by
    simp [runCallback, ht]
  refine ⟨t, ht, hrun, ?_⟩
  rw [hrun]
  refine ⟨?_, ?_, fun e' he' => ?_, ?_⟩
  · have hset : ({ { q with started := q.started ++ [t.uid] } with
        phase := .firing now expired rest } : TimerQueue).out = q.out := by
      rw [out, out, hbatch]
      rfl
    rw [hset]
    exact ⟨h.owns.indexed.congr rfl rfl rfl, h.owns.accounted.congr rfl rfl rfl, h.owns.noFault⟩
  · have hnd := h.nodup
    rw [hbatch] at hnd
    exact hnd
  · rw [hbatch] at hin
    exact hin e' (List.mem_cons_of_mem _ he')
  · have hcall := h.calling
    rw [hph] at hcall
    exact hcall

/-! ## Steps -/

/-- What a step can be, with all that is known when it is taken. -/
inductive Next (ts : Timestamps) (q : TimerQueue) : Input → TimerQueue → Prop where
  | new {a : Addr} {expiration : Nat} {intervalS : Int} (hfree : q.free a = true) :
      Next ts q (.new a expiration intervalS) (q.allocate a expiration intervalS)
  | addTimerInLoop {a : Addr} (hidle : q.phase.isIdle = true) (hpend : a ∈ q.pending) :
      Next ts q (.addTimerInLoop a) (q.addTimerInLoop a)
  | addTimer {a : Addr} {expiration : Nat} {intervalS : Int} (hfree : q.free a = true) :
      Next ts q (.addTimer a expiration intervalS) (q.addTimer a expiration intervalS)
  | cancelInLoop {id : ActiveTimer} : Next ts q (.cancelInLoop id) (q.cancelInLoop id)
  | handleRead {delay : Nat} (hidle : q.phase.isIdle = true) :
      Next ts q (.handleRead delay) (q.handleRead delay)
  | runNext {now : Nat} {expired rest : List Entry} {e : Entry}
      (hph : q.phase = .firing now expired (e :: rest)) :
      Next ts q .runNext { q.runCallback (ofLex e).2 with phase := .firing now expired rest }
  | finish {now : Nat} {expired : List Entry} (hph : q.phase = .firing now expired []) :
      Next ts q .finish
        { reset ts { q with callingExpiredTimers := false } expired now with phase := .idle }
  | tick {d : Nat} : Next ts q (.tick d) { q with clock := q.clock + d }

theorem step_next {ts : Timestamps} {q q' : TimerQueue} {i : Input} (hs : q.step ts i = some q') :
    q.Next ts i q' := by
  cases i with
  | new a expiration intervalS =>
    simp only [step] at hs
    split at hs
    · rename_i hfree
      cases hs
      exact .new hfree
    · cases hs
  | addTimerInLoop a =>
    simp only [step] at hs
    split at hs
    · rename_i hen
      cases hs
      exact .addTimerInLoop hen.1 hen.2
    · cases hs
  | addTimer a expiration intervalS =>
    simp only [step] at hs
    split at hs
    · rename_i hfree
      cases hs
      exact .addTimer hfree
    · cases hs
  | cancelInLoop id =>
    cases hs
    exact .cancelInLoop
  | handleRead delay =>
    simp only [step] at hs
    split at hs
    · rename_i hidle
      cases hs
      exact .handleRead hidle
    · cases hs
  | runNext =>
    simp only [step] at hs
    split at hs
    · rename_i hph
      cases hs
      exact .runNext hph
    · cases hs
  | finish =>
    simp only [step] at hs
    split at hs
    · rename_i hph
      cases hs
      exact .finish hph
    · cases hs
  | tick d =>
    cases hs
    exact .tick

/-- **One step.** -/
theorem step_timers_good {ts : Timestamps} {q q' : TimerQueue} {i : Input} (h : q.Good)
    (hn : q.Next ts i q') : q'.Good := by
  cases hn with
  | new hfree => exact good_new h hfree _ _
  | addTimerInLoop _ hpend => exact (good_addTimerInLoop h hpend).1
  | addTimer hfree => exact good_addTimer h hfree _ _
  | cancelInLoop => exact good_cancelInLoop h _
  | handleRead hidle => exact good_handleRead h hidle _
  | runNext hph => exact (good_runNext h hph).choose_spec.2.2
  | finish hph => exact good_finish h hph
  | tick =>
    exact ⟨⟨h.owns.indexed.congr rfl rfl rfl, h.owns.accounted.congr rfl rfl rfl, h.owns.noFault⟩,
      h.nodup, h.rest, h.calling⟩

theorem reachable_good {ts : Timestamps} {clock : Nat} {q : TimerQueue}
    (hr : Machine.Reachable (step ts) (init clock) q) : q.Good :=
  Machine.reachable_invariant (fun h hs => step_timers_good h (step_next hs)) (good_init clock) hr

/-- What the queue promises about its timers. -/
structure Ownership (q : TimerQueue) : Prop where
  agree : ∀ e a, toLex (e, a) ∈ q.timers ↔
    ∃ t, q.heap a = some t ∧ t.expiration = e ∧ toLex (a, t.sequence) ∈ q.activeTimers
  active : ∀ a n, toLex (a, n) ∈ q.activeTimers → ∃ t, q.heap a = some t ∧ t.sequence = n
  /-- A timer handed over is in exactly one of `timers_` and the batch. -/
  place : ∀ a t, q.heap a = some t → a ∉ q.pending →
    (toLex (t.expiration, a) ∈ q.timers ↔ a ∉ q.phase.batch)
  batch : q.phase.batch.Nodup ∧ ∀ a ∈ q.phase.batch, (q.heap a).isSome ∧ a ∉ q.pending
  /-- A timer is on the heap and was not deleted, or it was deleted, once. -/
  deletedOnce : ∀ u < q.created.length,
    ((∃ a t, q.heap a = some t ∧ t.uid = u) ∧ q.deleted.count u = 0) ∨
    ((¬ ∃ a t, q.heap a = some t ∧ t.uid = u) ∧ q.deleted.count u = 1)
  noFault : q.faults = []

theorem Good.ownership {q : TimerQueue} (h : q.Good) : q.Ownership := by
  have hidx := h.owns.indexed
  obtain ⟨_, hnd, hdisj⟩ := List.nodup_append.mp h.nodup
  refine ⟨fun e a => ?_, fun a n hin => ?_, fun a t ht hp => ?_, ⟨hnd, fun a ha => ?_⟩,
    fun u hu => ?_, h.owns.noFault⟩
  · rw [hidx.timers]
    constructor
    · rintro ⟨t, ht, he, hout⟩
      exact ⟨t, ht, he, (hidx.active _ _).mpr ⟨t, ht, rfl, hout⟩⟩
    · rintro ⟨t, ht, he, hin⟩
      obtain ⟨_, _, _, hout⟩ := (hidx.active _ _).mp hin
      exact ⟨t, ht, he, hout⟩
  · obtain ⟨t, ht, hn, _⟩ := (hidx.active a n).mp hin
    exact ⟨t, ht, hn⟩
  · rw [hidx.timers]
    constructor
    · rintro ⟨_, _, _, hout⟩ hb
      exact hout (.inr hb)
    · exact fun hb => ⟨t, ht, rfl, fun hout => hout.elim hp hb⟩
  · exact ⟨hidx.allocated a (.inr ha), fun hp => hdisj a hp a ha rfl⟩
  · by_cases hlive : ∃ a t, q.heap a = some t ∧ t.uid = u
    · obtain ⟨a, t, ht, htu⟩ := hlive
      refine .inl ⟨⟨a, t, ht, htu⟩, List.count_eq_zero.mpr fun hdel => ?_⟩
      exact ((h.owns.accounted.deleted u).mp hdel).2 a t ht htu
    · refine .inr ⟨hlive, List.count_eq_one_of_mem h.owns.accounted.once ?_⟩
      exact (h.owns.accounted.deleted u).mpr ⟨hu, fun a t ht htu => hlive ⟨a, t, ht, htu⟩⟩

/-- **The queue owns its timers.** After any run, in and out of `HandleRead`: the
two sets describe the same timers, each timer handed over is in `timers_` or in the
batch and not in both, no check has failed, and no timer was deleted twice or used
after its deletion. -/
theorem timers_owned (ts : Timestamps) (clock : Nat) (ins : List Input) (q : TimerQueue)
    (hr : Machine.run (step ts) (init clock) ins = some q) : q.Ownership :=
  (reachable_good ⟨ins, hr⟩).ownership

/-- Two timers of one batch, one of which is cancelled while it waits there. -/
theorem timers_owned_cancel_in_batch : ∃ q,
    Machine.run (step ⟨fun now s => now + s * 1000000, 0⟩) (init 1000)
      [.addTimer 8 500 0, .addTimer 16 600 2, .handleRead 3, .runNext,
        .cancelInLoop (toLex (16, 1)), .addTimer 24 5000 0, .runNext, .finish] = some q ∧
    q.Ownership ∧ q.deleted = [0, 1] := by
  have hrun : (Machine.run (step ⟨fun now s => now + s * 1000000, 0⟩) (init 1000)
      [.addTimer 8 500 0, .addTimer 16 600 2, .handleRead 3, .runNext,
        .cancelInLoop (toLex (16, 1)), .addTimer 24 5000 0, .runNext, .finish]).map
      (fun q => q.deleted) = some [0, 1] := by decide +kernel
  obtain ⟨q, hr, hdel⟩ := Option.map_eq_some_iff.mp hrun
  exact ⟨q, hr, timers_owned _ 1000 _ q hr, hdel⟩

end TimerQueue

end LinuxNet
