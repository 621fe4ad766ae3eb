import LinuxNet.Timer.Cancel
import Mathlib.Data.List.Forall2

/-!
# One pass of `HandleRead`

From the reading of the clock to the end of `Reset`. The callbacks of the batch may add and
cancel timers as they like; `acts` notes what they do. What is in `timers_` at the end is put
together from four sources: the timers that were not due, the timers that the callbacks added,
the repeating timers of the batch, and of all these the ones that no callback cancelled.
-/

namespace LinuxNet

set_option autoImplicit false

open LinuxNet.Lib

/-- The members that the constructor sets for good, with an `int` for the interval. -/
def Timer.Constructed (t : Timer) : Prop :=
  t.repeat_ = decide (0 < t.interval) ∧ t.interval < 2 ^ 31

namespace TimerQueue

/-- The timer `t` is in `timers_`, at the address `a`. -/
def Holds (q : TimerQueue) (a : Addr) (t : Timer) : Prop :=
  q.heap a = some t ∧ toLex (t.expiration, a) ∈ q.timers

/-- The entry of the timer number `u`. -/
def EntryOf (q : TimerQueue) (e : Entry) (u : Nat) : Prop :=
  ∃ t, q.Holds (ofLex e).2 t ∧ t.expiration = (ofLex e).1 ∧ t.uid = u

/-- What a callback does to a timer. -/
inductive Act where
  /-- `AddTimer` creates the timer `t` at the address `a`. -/
  | added (a : Addr) (t : Timer)
  /-- `Cancel` is called with the id of the timer number `u`. -/
  | cancelled (u : Nat)
  deriving DecidableEq

def acts (q : TimerQueue) (i : Input) (_ : TimerQueue) : List Act :=
  match i with
  | .addTimer a expiration intervalS => [.added a (Timer.new expiration intervalS q.created.length)]
  | .cancelInLoop id =>
    match q.heap (ofLex id).1 with
    | none => []
    | some t => if t.sequence = (ofLex id).2 then [.cancelled t.uid] else []
  | _ => []

/-- What a pass has done: `m` is the queue before the first callback, `h` is what the callbacks
did and `r` is the queue at the end. -/
structure Pass (q m : TimerQueue) (batch : List Entry) (h : List Act) (r : TimerQueue) : Prop where
  taken : m.phase = .firing q.clock batch batch
  due : ∀ e, e ∈ batch ↔ e ∈ q.timers ∧ (ofLex e).1 ≤ q.clock
  left : ∀ e, e ∈ m.timers ↔ e ∈ q.timers ∧ q.clock < (ofLex e).1
  ordered : batch.Pairwise fun e e' => (ofLex e).1 ≤ (ofLex e').1
  /-- The callbacks that ran, by the numbers of the timers. -/
  started : ∃ us, List.Forall₂ q.EntryOf batch us ∧ us.Nodup ∧ r.started = q.started ++ us
  entries : ∀ e ∈ r.timers, ∃ t, r.Holds (ofLex e).2 t ∧ t.expiration = (ofLex e).1
  holds : ∀ a t, r.Holds a t ↔
    (q.Holds a t ∧ q.clock < t.expiration ∧ .cancelled t.uid ∉ h) ∨
    (.added a t ∈ h ∧ .cancelled t.uid ∉ h) ∨
    ∃ t₀, q.Holds a t₀ ∧ t₀.expiration ≤ q.clock ∧ t₀.repeat_ = true ∧ .cancelled t₀.uid ∉ h ∧
      t = { t₀ with expiration := q.clock + t₀.interval.toNat * 1000000 } ∧
      q.clock < t.expiration
  deleted : ∀ a t, q.Holds a t → t.expiration ≤ q.clock →
    (t.repeat_ = false ∨ .cancelled t.uid ∈ h) → r.deleted.count t.uid = 1

/-! ## The timers in the sets -/

section Holds

variable {q : TimerQueue} {a b : Addr} {t u : Timer}

theorem Good.holds_iff (h : q.Good) : q.Holds a t ↔ q.heap a = some t ∧ a ∉ q.out := by
  constructor
  · rintro ⟨ht, hin⟩
    obtain ⟨_, _, _, hout⟩ := (h.owns.indexed.timers _ _).mp hin
    exact ⟨ht, hout⟩
  · rintro ⟨ht, hout⟩
    exact ⟨ht, (h.owns.indexed.timers _ _).mpr ⟨t, ht, rfl, hout⟩⟩

theorem Good.holds_of_mem (h : q.Good) {e : Entry} (he : e ∈ q.timers) :
    ∃ t, q.Holds (ofLex e).2 t ∧ t.expiration = (ofLex e).1 := by
  obtain ⟨t, ht, hexp, hout⟩ := h.owns.timer_of_mem he
  exact ⟨t, h.holds_iff.mpr ⟨ht, hout⟩, hexp⟩

theorem Good.uid_lt (h : q.Good) (ht : q.heap a = some t) : t.uid < q.created.length :=
  (List.getElem?_eq_some_iff.mp (h.owns.accounted.named a t ht).1).1

/-- A new timer is in the sets, and the others stay where they are. -/
theorem holds_addTimer (h : q.Good) (hfree : q.free a = true) (expiration : Nat)
    (intervalS : Int) : (q.addTimer a expiration intervalS).Holds b t ↔
      q.Holds b t ∨ (b = a ∧ t = Timer.new expiration intervalS q.created.length) := by
  have hnone := (free_iff hfree).1
  have hnew := good_new h hfree expiration intervalS
  have hpend : a ∈ (q.allocate a expiration intervalS).pending := by simp [TimerQueue.allocate]
  have hheap : (q.addTimer a expiration intervalS).heap = Function.update q.heap a
      (some (Timer.new expiration intervalS q.created.length)) := by
    rw [addTimer_eq h hfree, (good_addTimerInLoop hnew hpend).2]
    rfl
  have hout : (q.addTimer a expiration intervalS).out = q.out := by
    rw [out, out, addTimer_pending h hfree, (addTimer_frame h hfree expiration intervalS).2.1]
  rw [(good_addTimer h hfree expiration intervalS).holds_iff, h.holds_iff, hheap, hout]
  by_cases hba : b = a
  · subst hba
    have hfresh : b ∉ q.out := fun hin => h.fresh hnone (List.mem_append.mpr hin)
    simp [hnone, hfresh, eq_comm]
  · simp [hba]

/-- A timer that is not in the sets is somewhere else. -/
theorem Good.uid_ne_of_out (h : q.Good) (ha : q.heap a = some t) (hout : a ∈ q.out)
    (hb : q.Holds b u) : u.uid ≠ t.uid := by
  intro heq
  obtain rfl := h.owns.accounted.addr_eq hb.1 ha heq
  exact (h.holds_iff.mp hb).2 hout

theorem holds_canceled (h : q.Good) (ht : q.heap a = some t) (hout : a ∉ q.out) :
    (q.canceled a t).Holds b u ↔ q.Holds b u ∧ u.uid ≠ t.uid := by
  have hheap : ∀ c, (q.canceled a t).heap c = if c = a then none else q.heap c := fun c => by
    simp [TimerQueue.canceled, Function.update_apply]
  rw [Holds, hheap, Holds]
  by_cases hba : b = a
  · subst hba
    rw [if_pos rfl, ht]
    simp only [reduceCtorEq, false_and, false_iff, not_and, Option.some.injEq, and_imp]
    rintro rfl - hne
    exact hne rfl
  · have hne : ∀ u, q.heap b = some u → u.uid ≠ t.uid := fun u hu heq =>
      hba (h.owns.accounted.addr_eq hu ht heq)
    rw [if_neg hba]
    simp only [TimerQueue.canceled, OrderedSet.mem_erase, ne_eq, lex_eq_iff, hba, and_false,
      not_false_eq_true, true_and]
    exact ⟨fun hu => ⟨hu, hne u hu.1⟩, fun hu => hu.1⟩

end Holds

/-! ## The callbacks -/

/-- The queue while the callbacks run, when they have done `h`. -/
structure Firing (q : TimerQueue) (batch : List Entry) (h : List Act) (s : TimerQueue) :
    Prop where
  good : s.Good
  due : ∀ e ∈ batch, ∃ t, q.Holds (ofLex e).2 t ∧ t.expiration = (ofLex e).1
  turn : ∃ past rest us, batch = past ++ rest ∧ s.phase = .firing q.clock batch rest ∧
    List.Forall₂ q.EntryOf past us ∧ s.started = q.started ++ us
  stays : ∀ e ∈ batch, s.heap (ofLex e).2 = q.heap (ofLex e).2
  marked : ∀ e ∈ batch, ∀ t, q.heap (ofLex e).2 = some t →
    (toLex ((ofLex e).2, t.sequence) ∈ s.cancelingTimers ↔ .cancelled t.uid ∈ h)
  holds : ∀ a t, s.Holds a t ↔
    ((q.Holds a t ∧ q.clock < t.expiration) ∨ .added a t ∈ h) ∧ .cancelled t.uid ∉ h
  numbered : ∀ u, .cancelled u ∈ h → u < s.created.length

section Callbacks

variable {ts : Timestamps} {q s s' : TimerQueue} {batch : List Entry} {h : List Act}

theorem Firing.phase (hf : Firing q batch h s) :
    s.phase.isIdle = false ∧ s.phase.batch = batch.map fun e => (ofLex e).2 := by
  obtain ⟨past, rest, us, _, hph, _⟩ := hf.turn
  rw [hph]
  exact ⟨rfl, rfl⟩

theorem Firing.mem_out (hf : Firing q batch h s) {e : Entry} (he : e ∈ batch) :
    (ofLex e).2 ∈ s.out :=
  .inr (hf.phase.2 ▸ List.mem_map_of_mem he)

/-- A step that neither adds nor cancels. -/
theorem Firing.quiet (hf : Firing q batch h s) (hgood : s'.Good) (hph : s'.phase = s.phase)
    (hst : s'.started = s.started) (hheap : ∀ e ∈ batch, s'.heap (ofLex e).2 = s.heap (ofLex e).2)
    (hc : s'.cancelingTimers = s.cancelingTimers) (hh : ∀ a t, s'.Holds a t ↔ s.Holds a t)
    (hcr : s.created.length ≤ s'.created.length) : Firing q batch h s' := by
  refine ⟨hgood, hf.due, ?_, fun e he => (hheap e he).trans (hf.stays e he), ?_, fun a t => ?_, ?_⟩
  · rw [hph, hst]
    exact hf.turn
  · rw [hc]
    exact hf.marked
  · rw [hh]
    exact hf.holds a t
  · exact fun u hu => (hf.numbered u hu).trans_le hcr

theorem Firing.addTimer (hf : Firing q batch h s) {a : Addr} (hfree : s.free a = true)
    (expiration : Nat) (intervalS : Int) :
    Firing q batch (h ++ [.added a (Timer.new expiration intervalS s.created.length)])
      (s.addTimer a expiration intervalS) := by
  obtain ⟨_, hph, hc, hst, hheap⟩ := addTimer_frame hf.good hfree expiration intervalS
  refine ⟨good_addTimer hf.good hfree expiration intervalS, hf.due, ?_, fun e he => ?_,
    fun e he t ht => ?_, fun b t => ?_, fun u hu => ?_⟩
  · rw [hph, hst]
    exact hf.turn
  · rw [hheap _ (hf.phase.2 ▸ List.mem_map_of_mem he)]
    exact hf.stays e he
  · rw [hc, hf.marked e he t ht]
    simp
  · rw [holds_addTimer hf.good hfree, hf.holds]
    have hlast : Act.cancelled s.created.length ∉ h := fun hin =>
      absurd (hf.numbered _ hin) (lt_irrefl _)
    have hin : ∀ u, Act.cancelled u ∈
        h ++ [.added a (Timer.new expiration intervalS s.created.length)] ↔ .cancelled u ∈ h := by
      simp
    rw [hin, List.mem_append, List.mem_singleton, Act.added.injEq]
    constructor
    · rintro (⟨hold, hnot⟩ | ⟨rfl, rfl⟩)
      · exact ⟨hold.imp_right .inl, hnot⟩
      · exact ⟨.inr (.inr ⟨rfl, rfl⟩), hlast⟩
    · rintro ⟨hold | hold | hnew, hnot⟩
      · exact .inl ⟨.inl hold, hnot⟩
      · exact .inl ⟨.inr hold, hnot⟩
      · exact .inr hnew
  · have hu' : Act.cancelled u ∈ h := by simpa using hu
    have hlt := hf.numbered u hu'
    rw [addTimer_created hf.good hfree, List.length_append]
    omega

/-- A request to cancel the timer number `u`, or none. -/
theorem Firing.request (hf : Firing q batch h s) {k : List Act} (hgood : s'.Good)
    (hph : s'.phase = s.phase) (hst : s'.started = s.started) (hcr : s'.created = s.created)
    (hheap : ∀ e ∈ batch, s'.heap (ofLex e).2 = s.heap (ofLex e).2)
    (hk : ∀ x ∈ k, ∃ u < s.created.length, x = .cancelled u)
    (hmark : ∀ e ∈ batch, ∀ t, s.heap (ofLex e).2 = some t →
      (toLex ((ofLex e).2, t.sequence) ∈ s'.cancelingTimers ↔
        toLex ((ofLex e).2, t.sequence) ∈ s.cancelingTimers ∨ .cancelled t.uid ∈ k))
    (hh : ∀ a t, s'.Holds a t ↔ s.Holds a t ∧ .cancelled t.uid ∉ k) :
    Firing q batch (h ++ k) s' := by
  have hadded : ∀ a t, Act.added a t ∉ k := by
    intro a t hin
    obtain ⟨u, _, heq⟩ := hk _ hin
    cases heq
  refine ⟨hgood, hf.due, ?_, fun e he => (hheap e he).trans (hf.stays e he), fun e he t ht => ?_,
    fun a t => ?_, fun u hu => ?_⟩
  · rw [hph, hst]
    exact hf.turn
  · rw [hmark e he t ((hf.stays e he).trans ht), hf.marked e he t ht, List.mem_append]
  · rw [hh, hf.holds, List.mem_append, List.mem_append, or_iff_left (hadded a t), not_or, and_assoc]
  · rw [hcr]
    rcases List.mem_append.mp hu with hold | hnew
    · exact hf.numbered u hold
    · obtain ⟨v, hv, heq⟩ := hk _ hnew
      cases heq
      exact hv

/-- The request that is noted is for the timer at the address. -/
theorem cancelled_mem_acts {id : ActiveTimer} {u : Nat} :
    .cancelled u ∈ acts s (.cancelInLoop id) s' ↔
      ∃ t, s.heap (ofLex id).1 = some t ∧ t.sequence = (ofLex id).2 ∧ t.uid = u := by
  unfold acts
  cases hx : s.heap (ofLex id).1 with
  | none => simp [hx]
  | some x =>
    by_cases hseq : x.sequence = (ofLex id).2
    · simp [hx, hseq, eq_comm]
    · simp [hx, hseq]

theorem acts_cancelInLoop (hs : s.Good) {id : ActiveTimer} {x : Act}
    (hx : x ∈ acts s (.cancelInLoop id) s') : ∃ u < s.created.length, x = .cancelled u := by
  unfold acts at hx
  cases ht : s.heap (ofLex id).1 with
  | none => simp [ht] at hx
  | some t =>
    simp only [ht] at hx
    split at hx
    · exact ⟨t.uid, hs.uid_lt ht, List.mem_singleton.mp hx⟩
    · cases hx

/-- A timer is named by the id exactly when the request is for it. -/
theorem named_iff_cancelled (hs : s.Good) {a : Addr} {t : Timer} (ht : s.heap a = some t)
    {id : ActiveTimer} :
    toLex (a, t.sequence) = id ↔ .cancelled t.uid ∈ acts s (.cancelInLoop id) s' := by
  rw [cancelled_mem_acts]
  constructor
  · rintro rfl
    exact ⟨t, ht, rfl, rfl⟩
  · rintro ⟨t', ht', hseq, huid⟩
    have haddr := hs.owns.accounted.addr_eq ht ht' huid.symm
    rw [← haddr, ht] at ht'
    cases ht'
    exact Prod.ext haddr hseq

theorem Firing.cancelInLoop (hf : Firing q batch h s) (id : ActiveTimer) :
    Firing q batch (h ++ acts s (.cancelInLoop id) s') (s.cancelInLoop id) := by
  obtain ⟨_, hph, _, hst, hheap, _⟩ := cancelInLoop_frame hf.good id
  have hgood := good_cancelInLoop hf.good id
  have hcr := cancelInLoop_created hf.good id
  have hbatch : ∀ e ∈ batch, (s.cancelInLoop id).heap (ofLex e).2 = s.heap (ofLex e).2 :=
    fun e he => hheap _ (hf.mem_out he)
  have hall : ∀ x ∈ acts s (.cancelInLoop id) s', ∃ u < s.created.length, x = .cancelled u :=
    fun x hx => acts_cancelInLoop hf.good hx
  rcases cancelInLoop_eq hf.good.owns (ofLex id).1 (ofLex id).2 with
    ⟨t, ht, hseq, hout, heq⟩ | ⟨hna, heq⟩
  · rw [show toLex ((ofLex id).1, (ofLex id).2) = id from rfl] at heq
    refine hf.request hgood hph hst hcr hbatch hall (fun e he x hx => ?_) fun a x => ?_
    · have hnot : Act.cancelled x.uid ∉ acts s (.cancelInLoop id) s' := by
        rw [← named_iff_cancelled hf.good hx]
        rintro rfl
        exact hout (hf.mem_out he)
      rw [or_iff_left hnot, heq]
      rfl
    · rw [heq, holds_canceled hf.good ht hout, cancelled_mem_acts]
      refine and_congr_right fun _ => ⟨?_, fun hnot huid => hnot ⟨t, ht, hseq, huid.symm⟩⟩
      rintro hne ⟨t', ht', _, huid⟩
      rw [ht] at ht'
      cases ht'
      exact hne huid.symm
  · rw [show toLex ((ofLex id).1, (ofLex id).2) = id from rfl, hf.good.calling, hf.phase.1] at heq
    refine hf.request hgood hph hst hcr hbatch hall (fun e he x hx => ?_) fun a x => ?_
    · rw [heq, ← named_iff_cancelled hf.good hx]
      exact OrderedSet.mem_insert.trans or_comm
    · rw [heq]
      refine ⟨fun hx => ⟨hx, ?_⟩, fun hx => hx.1⟩
      rw [cancelled_mem_acts]
      rintro ⟨t', ht', hseq, huid⟩
      -- the timer is not in the sets, so that it is another one
      have hin : (ofLex id).1 ∈ s.out := by
        by_contra hnot
        exact hna ((hf.good.owns.indexed.active _ _).mpr ⟨t', ht', hseq, hnot⟩)
      exact hf.good.uid_ne_of_out ht' hin hx huid.symm

theorem Firing.runNext (hf : Firing q batch h s) {now : Nat} {expired rest : List Entry}
    {e : Entry} (hph : s.phase = .firing now expired (e :: rest)) :
    Firing q batch h { s.runCallback (ofLex e).2 with phase := .firing now expired rest } := by
  obtain ⟨past, rest', us, hcat, hph', hall, hst⟩ := hf.turn
  obtain ⟨t, ht, hrun, hgood⟩ := good_runNext hf.good hph
  rw [hph] at hph'
  cases hph'
  have he : e ∈ batch := hcat ▸ List.mem_append_right _ List.mem_cons_self
  have hqt : q.heap (ofLex e).2 = some t := (hf.stays e he).symm.trans ht
  obtain ⟨t', ht', hexp⟩ := hf.due e he
  obtain rfl : t' = t := Option.some.inj (ht'.1.symm.trans hqt)
  refine ⟨hgood, hf.due, ⟨past ++ [e], rest, us ++ [t'.uid], ?_, rfl, ?_, ?_⟩, ?_, ?_, ?_, ?_⟩
  · rw [hcat, List.append_assoc]
    rfl
  · exact List.rel_append hall (.cons ⟨t', ht', hexp, rfl⟩ .nil)
  · rw [hrun, ← List.append_assoc, ← hst]
  all_goals rw [hrun]
  · exact hf.stays
  · exact hf.marked
  · exact hf.holds
  · exact hf.numbered

/-- **One step** of the callbacks. -/
theorem step_firing {i : Input} (hf : Firing q batch h s) (hi : i ≠ .finish)
    (hs : s.step ts i = some s') : Firing q batch (h ++ acts s i s') s' := by
  have hn := step_next hs
  have hgood := step_timers_good hf.good hn
  have hcr := (step_history hf.good hn).2.length_le
  cases hn with
  | @new a expiration intervalS hfree =>
    have hnone := (free_iff hfree).1
    have hother : ∀ e ∈ batch, (s.allocate a expiration intervalS).heap (ofLex e).2 =
        s.heap (ofLex e).2 := fun e he =>
      allocate_batch hf.good hnone expiration intervalS _ (hf.phase.2 ▸ List.mem_map_of_mem he)
    simp only [acts, List.append_nil]
    refine hf.quiet hgood rfl rfl hother rfl (fun b t => ?_) hcr
    by_cases hba : b = a
    · subst hba
      have hfresh : ∀ x, toLex (x, b) ∉ s.timers := by
        intro x hin
        obtain ⟨t', ht', _⟩ := (hf.good.owns.indexed.timers x b).mp hin
        rw [hnone] at ht'
        cases ht'
      exact iff_of_false (fun hh => hfresh _ hh.2) (fun hh => hfresh _ hh.2)
    · rw [Holds, Holds]
      simp [TimerQueue.allocate, hba]
  | addTimerInLoop hidle => simp [hf.phase.1] at hidle
  | addTimer hfree => exact hf.addTimer hfree _ _
  | cancelInLoop => exact hf.cancelInLoop _
  | handleRead hidle => simp [hf.phase.1] at hidle
  | runNext hph =>
    simp only [acts, List.append_nil]
    exact hf.runNext hph
  | finish => exact absurd rfl hi
  | tick =>
    simp only [acts, List.append_nil]
    exact hf.quiet hgood rfl rfl (fun _ _ => rfl) rfl (fun _ _ => Iff.rfl) hcr

/-- **All callbacks.** -/
theorem run_firing {mids : List Input} (hf : Firing q batch h s) (hmids : .finish ∉ mids)
    (hr : Machine.run (step ts) s mids = some s') :
    Firing q batch (h ++ Machine.trace (step ts) acts s mids) s' := by
  have hstep : ∀ {h s i s'}, Firing q batch h s → i ≠ Input.finish → step ts s i = some s' →
      Firing q batch (h ++ acts s i s') s' := fun hf hi hs => step_firing hf hi hs
  have hal : Machine.Along (step ts) (fun _ i => i ≠ .finish) s mids := by
    refine Machine.along_of_mem (fun i hi _ heq => ?_) s
    exact hmids (heq ▸ hi)
  exact Machine.trace_invariant_along (G := fun _ i => i ≠ Input.finish) hstep hf hal hr

end Callbacks

/-! ## The beginning -/

theorem check_timers (q : TimerQueue) (f : Fault) (ok : Bool) :
    (q.check f ok).timers = q.timers := by
  unfold check
  split <;> rfl

theorem getExpired_fst (q : TimerQueue) (now : Nat) :
    (q.getExpired now).1 = q.timers.before (toLex (now, UINTPTR_MAX)) :=
  congrArg (fun s : OrderedSet Entry => s.before (toLex (now, UINTPTR_MAX))) (check_timers q _ _)

theorem handleRead_phase (q : TimerQueue) (delay : Nat) : (q.handleRead delay).phase =
    .firing q.clock (q.timers.before (toLex (q.clock, UINTPTR_MAX)))
      (q.timers.before (toLex (q.clock, UINTPTR_MAX))) := by
  obtain ⟨fd, hfd⟩ := readTimer_eq { q with clock := q.clock + delay }
  have hfst := getExpired_fst { q with clock := q.clock + delay, timerfd := fd } q.clock
  unfold handleRead
  dsimp only
  rw [hfd, hfst]

/-- The batch is in the order of the set. -/
theorem pairwise_before (q : TimerQueue) (sentry : Entry) :
    (q.timers.before sentry).Pairwise fun e e' => (ofLex e).1 ≤ (ofLex e').1 := by
  have hsorted := q.timers.sorted.sublist (List.takeWhile_sublist (· < sentry))
  refine hsorted.imp fun {e e'} hlt => ?_
  rcases Prod.Lex.lt_iff.mp hlt with hfst | ⟨heq, _⟩
  · exact hfst.le
  · exact heq.le

section Pass

variable {ts : Timestamps} {q s : TimerQueue} {batch : List Entry} {h : List Act}

/-- What is left in the sets was not due. -/
theorem Good.mem_left (hq : q.Good) (e : Entry) :
    e ∈ q.timers.dropBefore (toLex (q.clock, UINTPTR_MAX)) ↔
      e ∈ q.timers ∧ q.clock < (ofLex e).1 := by
  rw [OrderedSet.mem_dropBefore]
  refine and_congr_right fun hin => ?_
  have hdue := before_sentry hq.owns q.clock e
  rw [OrderedSet.mem_before] at hdue
  constructor
  · intro hnot
    by_contra hle
    exact hnot (hdue.mpr ⟨hin, by omega⟩).2
  · intro hlt hbefore
    have := (hdue.mp ⟨hin, hbefore⟩).2
    omega

theorem firing_handleRead (hq : q.Good) (hidle : q.phase.isIdle = true) (delay : Nat) :
    Firing q (q.timers.before (toLex (q.clock, UINTPTR_MAX))) [] (q.handleRead delay) := by
  have hgood := good_handleRead hq hidle delay
  have hphase := handleRead_phase q delay
  obtain ⟨fd, expired, act, heq, _⟩ := handleRead_spec hq.owns delay
  refine ⟨hgood, fun e he => hq.holds_of_mem (OrderedSet.mem_before.mp he).1,
    ⟨[], _, [], rfl, hphase, .nil, ?_⟩, fun e _ => ?_, fun e _ t _ => ?_, fun a t => ?_, by simp⟩
  · rw [heq, List.append_nil]
  · rw [heq]
  · rw [heq]
    simp
  · rw [heq, Holds, Holds, hq.mem_left]
    simp [and_assoc]

/-! ## The end -/

/-- What `Reset` makes of a timer of the batch. -/
theorem foldl_resetEntry_heap (ts : Timestamps) (now : Nat) {l : List Entry} {q : TimerQueue}
    {out : Set Addr} (h : q.Owns out) (hin : ∀ e ∈ l, (ofLex e).2 ∈ out)
    (hnd : (l.map fun e => (ofLex e).2).Nodup) {e : Entry} (he : e ∈ l) {t : Timer}
    (ht : q.heap (ofLex e).2 = some t) : (l.foldl (resetEntry ts now) q).heap (ofLex e).2 =
      if t.repeat_ = true ∧ toLex ((ofLex e).2, t.sequence) ∉ q.cancelingTimers then
        some (t.restart ts now)
      else none := by
  induction l generalizing q out with
  | nil => cases he
  | cons e' l ih =>
    rw [List.map_cons, List.nodup_cons] at hnd
    have hout := hin e' (by simp)
    obtain ⟨ho, hf⟩ := resetEntry_spec ts now h hout
    have hne : ∀ x ∈ l, (ofLex x).2 ≠ (ofLex e').2 :=
      fun x hx heq => hnd.1 (heq ▸ List.mem_map_of_mem hx)
    have hin' : ∀ x ∈ l, (ofLex x).2 ∈ out \ {(ofLex e').2} := fun x hx =>
      ⟨hin x (by simp [hx]), hne x hx⟩
    rw [List.foldl_cons]
    rcases List.mem_cons.mp he with rfl | hmem
    · -- the entries behind it leave it alone
      rw [foldl_resetEntry_other ts now ho hin' hnd.2 hnd.1, resetEntry_eq h.indexed ht hout]
      split
      · exact Function.update_self ..
      · rw [delete_eq ht]
        exact Function.update_self ..
    · rw [ih ho hin' hnd.2 hmem ((resetEntry_other h hout (hne e hmem)).trans ht), hf.canceling]

/-- A repeating timer is due again after its interval. -/
theorem restart_eq (hts : ∀ now n, ts.addTime now n = now + n * 1000000) {t : Timer}
    (ht : t.Constructed) (hre : t.repeat_ = true) (now : Nat) :
    t.restart ts now = { t with expiration := now + t.interval.toNat * 1000000 } ∧
      now < now + t.interval.toNat * 1000000 := by
  obtain ⟨hrep, hlt⟩ := ht
  have hpos : 0 < t.interval := by simpa [hrep] using hre
  have hmod : t.interval % 2 ^ 64 = t.interval := Int.emod_eq_of_lt hpos.le (by omega)
  refine ⟨?_, by omega⟩
  rw [Timer.restart, if_pos hre, hmod, hts]

/-- An entry is that of one timer, and the other way round. -/
theorem Good.entryOf_biUnique (hq : q.Good) : Relator.BiUnique q.EntryOf := by
  constructor
  · rintro e e' u ⟨t, ht, hexp, hu⟩ ⟨t', ht', hexp', hu'⟩
    have haddr := hq.owns.accounted.addr_eq ht.1 ht'.1 (hu.trans hu'.symm)
    have htt : t = t' := by
      have hheap := ht.1
      rw [haddr, ht'.1] at hheap
      exact (Option.some.inj hheap).symm
    exact Prod.ext (hexp.symm.trans ((congrArg Timer.expiration htt).trans hexp')) haddr
  · rintro e u u' ⟨t, ht, _, hu⟩ ⟨t', ht', _, hu'⟩
    obtain rfl : t = t' := Option.some.inj (ht.1.symm.trans ht'.1)
    exact hu.symm.trans hu'

/-- What becomes of a timer of the batch. -/
theorem Firing.reset_batch (hts : ∀ now n, ts.addTime now n = now + n * 1000000)
    (hcon : ∀ a t, q.heap a = some t → t.Constructed) (hf : Firing q batch h s)
    (hph : s.phase = .firing q.clock batch []) {e : Entry} (he : e ∈ batch) {t₀ : Timer}
    (ht₀ : q.Holds (ofLex e).2 t₀) (t : Timer) :
    (batch.foldl (resetEntry ts q.clock) { s with callingExpiredTimers := false }).heap
      (ofLex e).2 = some t ↔
    t₀.repeat_ = true ∧ .cancelled t₀.uid ∉ h ∧
      t = { t₀ with expiration := q.clock + t₀.interval.toNat * 1000000 } ∧
      q.clock < t.expiration := by
  obtain ⟨h0, hin, hnd⟩ := hf.good.batch_ready hph
  have hmark := hf.marked e he t₀ ht₀.1
  rw [foldl_resetEntry_heap ts q.clock h0 hin hnd he ((hf.stays e he).trans ht₀.1)]
  constructor
  · intro heap
    split at heap
    · rename_i hre
      obtain ⟨heq, hlt⟩ := restart_eq hts (hcon _ t₀ ht₀.1) hre.1 q.clock
      rw [Option.some.injEq, heq] at heap
      refine ⟨hre.1, fun hc => hre.2 (hmark.mpr hc), heap.symm, ?_⟩
      rw [← heap]
      exact hlt
    · cases heap
  · rintro ⟨hre, hc, heq, _⟩
    rw [if_pos ⟨hre, fun hin => hc (hmark.mp hin)⟩,
      (restart_eq hts (hcon _ t₀ ht₀.1) hre q.clock).1, heq]

/-- The queue behind `Reset`, timer by timer. -/
theorem Firing.finish_holds (hts : ∀ now n, ts.addTime now n = now + n * 1000000)
    (hcon : ∀ a t, q.heap a = some t → t.Constructed) (hf : Firing q batch h s)
    (hdue : ∀ e, e ∈ batch ↔ e ∈ q.timers ∧ (ofLex e).1 ≤ q.clock)
    (hph : s.phase = .firing q.clock batch []) {r : TimerQueue}
    (hr : r = { reset ts { s with callingExpiredTimers := false } batch q.clock with
      phase := .idle }) (a : Addr) (t : Timer) :
    r.Holds a t ↔
      (q.Holds a t ∧ q.clock < t.expiration ∧ .cancelled t.uid ∉ h) ∨
      (.added a t ∈ h ∧ .cancelled t.uid ∉ h) ∨
      ∃ t₀, q.Holds a t₀ ∧ t₀.expiration ≤ q.clock ∧ t₀.repeat_ = true ∧ .cancelled t₀.uid ∉ h ∧
        t = { t₀ with expiration := q.clock + t₀.interval.toNat * 1000000 } ∧
        q.clock < t.expiration := by
  obtain ⟨h0, hin, hnd⟩ := hf.good.batch_ready hph
  have hgood : r.Good := hr ▸ good_finish hf.good hph
  have hheap : r.heap = (batch.foldl (resetEntry ts q.clock)
      { s with callingExpiredTimers := false }).heap := by
    rw [hr]
    exact (reset_kept ts q.clock h0 hin hnd).2.2
  have hout : r.out = {b | b ∈ s.pending} := by
    have hpend := (reset_frame ts q.clock h0 hin hnd).1
    rw [hr, out, hpend]
    simp
  rw [hgood.holds_iff, hheap, hout, Set.mem_ofPred_eq]
  by_cases hb : a ∈ batch.map fun e => (ofLex e).2
  · -- a timer of the batch
    obtain ⟨e, he, rfl⟩ := List.mem_map.mp hb
    obtain ⟨t₀, ht₀, hexp⟩ := hf.due e he
    have hle : t₀.expiration ≤ q.clock := hexp ▸ ((hdue e).mp he).2
    have hsame : ∀ x, q.Holds (ofLex e).2 x → x = t₀ := fun x hx =>
      Option.some.inj (hx.1.symm.trans ht₀.1)
    have hnp : (ofLex e).2 ∉ s.pending := fun hp =>
      (List.nodup_append.mp hf.good.nodup).2.2 _ hp _ (hf.phase.2 ▸ hb) rfl
    have hnot : ¬ s.Holds (ofLex e).2 t := fun hs =>
      (hf.good.holds_iff.mp hs).2 (hf.mem_out he)
    rw [hf.holds] at hnot
    rw [hf.reset_batch hts hcon hph he ht₀, and_iff_left hnp]
    constructor
    · intro hrest
      exact .inr (.inr ⟨t₀, ht₀, hle, hrest⟩)
    · rintro (⟨hold, hlt, _⟩ | ⟨hadd, hc⟩ | ⟨x, hx, _, hrest⟩)
      · rw [hsame t hold] at hlt
        omega
      · exact absurd ⟨.inr hadd, hc⟩ hnot
      · obtain rfl := hsame x hx
        exact hrest
  · -- a timer that the callbacks could reach
    have hmem : a ∈ s.out ↔ a ∈ s.pending := by
      refine ⟨fun ho => ho.resolve_right fun hbat => hb ?_, .inl⟩
      rw [← hf.phase.2]
      exact hbat
    have hkept := foldl_resetEntry_other ts q.clock h0 hin hnd hb
    rw [hkept, ← hmem]
    change s.heap a = some t ∧ a ∉ s.out ↔ _
    rw [← hf.good.holds_iff, hf.holds]
    constructor
    · rintro ⟨hold | hadd, hc⟩
      · exact .inl ⟨hold.1, hold.2, hc⟩
      · exact .inr (.inl ⟨hadd, hc⟩)
    · rintro (⟨hold, hlt, hc⟩ | ⟨hadd, hc⟩ | ⟨x, hx, hle, _⟩)
      · exact ⟨.inl ⟨hold, hlt⟩, hc⟩
      · exact ⟨.inr hadd, hc⟩
      · have he := (hdue (toLex (x.expiration, a))).mpr ⟨hx.2, hle⟩
        exact absurd (List.mem_map_of_mem (f := fun e : Entry => (ofLex e).2) he) hb

/-! ## What the constructor has set -/

/-- The interval is an `int`. -/
def Input.IntRange : Input → Prop
  | .new _ _ intervalS | .addTimer _ _ intervalS => intervalS < 2 ^ 31
  | _ => True

theorem constructed_update (hcon : ∀ a t, q.heap a = some t → t.Constructed) {a : Addr}
    {o : Option Timer} (ho : ∀ t, o = some t → t.Constructed) {b : Addr} {t : Timer}
    (ht : Function.update q.heap a o b = some t) : t.Constructed := by
  by_cases hba : b = a
  · rw [hba, Function.update_self] at ht
    exact ho t ht
  · rw [Function.update_of_ne hba] at ht
    exact hcon b t ht

theorem step_constructed {q' : TimerQueue} {i : Input} (hq : q.Good)
    (hcon : ∀ a t, q.heap a = some t → t.Constructed) (hi : i.IntRange) (hn : q.Next ts i q') :
    ∀ a t, q'.heap a = some t → t.Constructed := by
  have hnew : ∀ {expiration : Nat} {intervalS : Int}, intervalS < 2 ^ 31 → ∀ t,
      some (Timer.new expiration intervalS q.created.length) = some t → t.Constructed := by
    rintro expiration intervalS hlt t heq
    cases heq
    exact ⟨rfl, hlt⟩
  cases hn with
  | new => exact fun b t ht => constructed_update hcon (hnew hi) ht
  | addTimerInLoop _ hpend =>
    rw [(good_addTimerInLoop hq hpend).2]
    exact hcon
  | @addTimer a expiration intervalS hfree =>
    have hpend : a ∈ (q.allocate a expiration intervalS).pending := by simp [TimerQueue.allocate]
    rw [addTimer_eq hq hfree, (good_addTimerInLoop (good_new hq hfree _ _) hpend).2]
    exact fun b t ht => constructed_update hcon (hnew hi) ht
  | @cancelInLoop id =>
    rw [show id = toLex ((ofLex id).1, (ofLex id).2) from rfl]
    rcases cancelInLoop_eq hq.owns (ofLex id).1 (ofLex id).2 with ⟨x, _, _, _, heq⟩ | ⟨_, heq⟩
    · rw [heq]
      exact fun b t ht => constructed_update (o := none) hcon (fun _ hno => by cases hno) ht
    · rw [heq]
      split <;> exact hcon
  | @handleRead delay =>
    obtain ⟨fd, expired, act, heq, _⟩ := handleRead_spec hq.owns delay
    rw [heq]
    exact hcon
  | runNext hph =>
    obtain ⟨x, _, hrun, _⟩ := good_runNext hq hph
    rw [hrun]
    exact hcon
  | @finish now expired hph =>
    obtain ⟨h0, hin, hnd⟩ := hq.batch_ready hph
    intro b t ht
    change (reset ts { q with callingExpiredTimers := false } expired now).heap b = some t at ht
    rw [(reset_kept ts now h0 hin hnd).2.2] at ht
    by_cases hb : b ∈ expired.map fun e => (ofLex e).2
    · obtain ⟨e, he, rfl⟩ := List.mem_map.mp hb
      obtain ⟨x, hx⟩ := Option.isSome_iff_exists.mp (hq.owns.indexed.allocated _ (hin e he))
      rw [foldl_resetEntry_heap ts now h0 hin hnd he hx] at ht
      split at ht
      · cases ht
        exact hcon _ x hx
      · cases ht
    · rw [foldl_resetEntry_other ts now h0 hin hnd hb] at ht
      exact hcon b t ht
  | tick => exact hcon

/-- A timer keeps what its constructor has set. -/
theorem run_constructed {clock : Nat} {ins : List Input} (hins : ∀ i ∈ ins, i.IntRange)
    (hr : Machine.run (step ts) (init clock) ins = some q) :
    ∀ a t, q.heap a = some t → t.Constructed := by
  have hstep : ∀ {s i t}, (s.Good ∧ ∀ a x, s.heap a = some x → x.Constructed) → i.IntRange →
      step ts s i = some t → t.Good ∧ ∀ a x, t.heap a = some x → x.Constructed := by
    intro s i t hs hi hst
    have hn := step_next hst
    exact ⟨step_timers_good hs.1 hn, step_constructed hs.1 hs.2 hi hn⟩
  exact (Machine.run_invariant_of_mem
    (P := fun s => s.Good ∧ ∀ a x, s.heap a = some x → x.Constructed) hstep
    ⟨good_init clock, fun _ _ hx => by cases hx⟩ hins hr).2

end Pass

/-- **One pass of `HandleRead`.** A queue that owns its timers is read at any time, and the
callbacks add and cancel timers in any way. The timers taken out are those that are due; their
callbacks run once each, in the order of their expirations. At the end `timers_` has the timers
that were not due and were not cancelled, those that were added and not cancelled again, and the
repeating timers of the batch that were not cancelled, due again after their interval. The other
timers of the batch have been deleted. -/
theorem handleRead_pass (ts : Timestamps) (hts : ∀ now n, ts.addTime now n = now + n * 1000000)
    (q : TimerQueue) (hq : q.Good) (hcon : ∀ a t, q.heap a = some t → t.Constructed)
    (delay : Nat) (mids : List Input) (hmids : .finish ∉ mids) (r : TimerQueue)
    (hr : Machine.run (step ts) q (.handleRead delay :: mids ++ [.finish]) = some r) :
    ∃ batch, Pass q (q.handleRead delay) batch
      (Machine.trace (step ts) acts (q.handleRead delay) mids) r := by
  obtain ⟨m, hm, hrest⟩ := Machine.run_cons_iff.mp hr
  obtain ⟨s, hs, hfin⟩ := Machine.run_append_iff.mp hrest
  rw [Machine.run_singleton] at hfin
  cases step_next hm with
  | handleRead hidle =>
    have hf := run_firing (firing_handleRead hq hidle delay) hmids hs
    rw [List.nil_append] at hf
    cases step_next hfin with
    | @finish now expired hph =>
      obtain ⟨past, rest, us, hcat, hph', hall, hst⟩ := hf.turn
      rw [hph] at hph'
      cases hph'
      rw [List.append_nil] at hcat
      have hdue := before_sentry hq.owns q.clock
      have hgood := @good_finish ts s hf.good _ _ hph
      obtain ⟨h0, hin, hnd⟩ := hf.good.batch_ready hph
      have hstarted := (reset_frame ts q.clock h0 hin hnd).2.1
      refine ⟨_, handleRead_phase q delay, hdue, fun e => ?_, pairwise_before q _,
        ⟨us, hcat ▸ hall, ?_, hstarted.trans hst⟩, fun e he => hgood.holds_of_mem he,
        hf.finish_holds hts hcon hdue hph rfl, fun a t ht hle hend => ?_⟩
      · obtain ⟨fd, expired, act, heq, _⟩ := handleRead_spec hq.owns delay
        rw [heq]
        exact hq.mem_left e
      · exact (List.rel_nodup hq.entryOf_biUnique hall).mp (hcat ▸ OrderedSet.nodup_before _ _)
      · have he := (hdue (toLex (t.expiration, a))).mpr ⟨ht.2, hle⟩
        refine List.count_eq_one_of_mem hgood.owns.accounted.once ?_
        refine (mem_finish_deleted ts hf.good hph t.uid).mpr (.inr ⟨a, ?_, t, ?_, rfl, ?_⟩)
        · rw [hf.phase.2]
          exact List.mem_map_of_mem (f := fun e : Entry => (ofLex e).2) he
        · exact (hf.stays _ he).trans ht.1
        · rintro ⟨hre, hnot⟩
          rcases hend with honce | hc
          · rw [honce] at hre
            cases hre
          · exact hnot ((hf.marked _ he t ht.1).mpr hc)

/-- Two timers are due at the same time and a third at the very time of the reading. The first
cancels itself and adds a timer that is already due; the second cancels a timer that is not due,
and adds one that it cancels again. -/
theorem handleRead_pass_entangled : ∃ q r batch,
    Machine.run (step ⟨fun now n => now + n * 1000000, 0⟩) (init 1000)
      [.addTimer 16 500 2, .addTimer 8 500 1, .addTimer 24 1000 0, .addTimer 32 5000 0] = some q ∧
    Pass q (q.handleRead 3) batch [.added 40 ⟨700, 0, false, 4, 4⟩, .cancelled 1, .cancelled 3,
      .added 48 ⟨9000, 0, false, 5, 5⟩, .cancelled 5] r ∧
    r.timers.toList = [toLex (700, 40), toLex (2001000, 16)] := by
  have hrun : (Machine.run (step ⟨fun now n => now + n * 1000000, 0⟩) (init 1000)
      [.addTimer 16 500 2, .addTimer 8 500 1, .addTimer 24 1000 0, .addTimer 32 5000 0]).map
      (fun q => ((Machine.run (step ⟨fun now n => now + n * 1000000, 0⟩) q
        (.handleRead 3 :: [.runNext, .addTimer 40 700 0, .cancelInLoop (toLex (8, 1)), .runNext,
          .cancelInLoop (toLex (32, 3)), .addTimer 48 9000 0, .cancelInLoop (toLex (48, 5)),
          .runNext] ++ [.finish])).map fun r => r.timers.toList,
        Machine.trace (step ⟨fun now n => now + n * 1000000, 0⟩) acts (q.handleRead 3)
          [.runNext, .addTimer 40 700 0, .cancelInLoop (toLex (8, 1)), .runNext,
          .cancelInLoop (toLex (32, 3)), .addTimer 48 9000 0, .cancelInLoop (toLex (48, 5)),
          .runNext])) =
      some (some [toLex (700, 40), toLex (2001000, 16)],
        [.added 40 ⟨700, 0, false, 4, 4⟩, .cancelled 1, .cancelled 3,
          .added 48 ⟨9000, 0, false, 5, 5⟩, .cancelled 5]) := by
    decide +kernel
  obtain ⟨q, hr, hq⟩ := Option.map_eq_some_iff.mp hrun
  rw [Prod.mk.injEq] at hq
  obtain ⟨r, hr', htimers⟩ := Option.map_eq_some_iff.mp hq.1
  obtain ⟨batch, hpass⟩ := handleRead_pass _ (fun _ _ => rfl) q (reachable_good ⟨_, hr⟩)
    (run_constructed (by simp [Input.IntRange]) hr) 3 _ (by decide) r hr'
  rw [hq.2] at hpass
  exact ⟨q, r, batch, hr, hpass, htimers⟩

end TimerQueue

end LinuxNet
