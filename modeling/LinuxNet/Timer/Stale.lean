import LinuxNet.Timer.Cancel

/-!
# Cancelling a timer that is gone

The id of a timer is the address and the sequence number. The address may be in use again when
the id is cancelled, the number may not, as long as fewer than 2^64 timers are created: no timer
on the heap has the name. So the request finds nothing in `active_timers_`, and an entry it
leaves in `canceling_timers_` matches no timer of the batch.

That nothing else comes of it is a simulation: a run with the request and the same run without
it go through states that differ in `canceling_timers_` only.
-/

namespace LinuxNet

set_option autoImplicit false

open LinuxNet.Lib

namespace TimerQueue

def withCanceling (q : TimerQueue) (c : OrderedSet ActiveTimer) : TimerQueue :=
  { q with cancelingTimers := c }

/-! ## `canceling_timers_` is read in `Reset` only -/

section Frame

variable {ts : Timestamps} {q : TimerQueue} {out : Set Addr} {c : OrderedSet ActiveTimer}

theorem Owns.withCanceling (h : q.Owns out) : (q.withCanceling c).Owns out :=
  ⟨h.indexed.congr rfl rfl rfl, h.accounted.congr rfl rfl rfl, h.noFault⟩

theorem check_withCanceling (f : Fault) (ok : Bool) :
    (q.withCanceling c).check f ok = (q.check f ok).withCanceling c := by
  unfold check
  split <;> rfl

theorem checkSizes_withCanceling :
    (q.withCanceling c).checkSizes = q.checkSizes.withCanceling c :=
  check_withCanceling _ _

theorem addTimerInLoop_withCanceling (h : q.Indexed out) {a : Addr} (ha : a ∈ out) :
    (q.withCanceling c).addTimerInLoop a = (q.addTimerInLoop a).withCanceling c := by
  obtain ⟨t, ht⟩ := Option.isSome_iff_exists.mp (h.allocated a ha)
  have h' : (q.withCanceling c).Indexed out := h.congr rfl rfl rfl
  rw [addTimerInLoop_eq h ht ha, addTimerInLoop_eq (q := q.withCanceling c) h' ht ha]
  change (if q.isEarliest t.expiration = true then _ else _) = _
  split <;> rfl

theorem eraseActive_withCanceling (e : Entry) :
    (q.withCanceling c).eraseActive e = (q.eraseActive e).withCanceling c := by
  unfold eraseActive
  rw [show (q.withCanceling c).heap = q.heap from rfl]
  cases q.heap (ofLex e).2 with
  | none => rfl
  | some t =>
    dsimp only
    rw [check_withCanceling]
    rfl

theorem foldl_eraseActive_withCanceling (l : List Entry) :
    l.foldl eraseActive (q.withCanceling c) = (l.foldl eraseActive q).withCanceling c := by
  induction l generalizing q with
  | nil => rfl
  | cons e l ih => rw [List.foldl_cons, List.foldl_cons, eraseActive_withCanceling, ih]

theorem getExpired_withCanceling (now : Nat) :
    (q.withCanceling c).getExpired now =
      ((q.getExpired now).1, (q.getExpired now).2.withCanceling c) := by
  unfold getExpired
  dsimp only
  rw [checkSizes_withCanceling]
  generalize q.checkSizes = r
  have hset : ∀ ok left, ({ (r.withCanceling c).check .expiredBound ok with
      timers := left } : TimerQueue) =
        ({ r.check .expiredBound ok with timers := left } : TimerQueue).withCanceling c := by
    intro ok left
    rw [check_withCanceling]
    rfl
  rw [hset, foldl_eraseActive_withCanceling, checkSizes_withCanceling]
  rfl

theorem readTimer_withCanceling :
    (q.withCanceling c).readTimer = q.readTimer.withCanceling c := by
  obtain ⟨heap, timers, active, calling, canceling, timerfd, clock, phase, created⟩ := q
  cases timerfd with
  | none => rfl
  | some a =>
    by_cases hdue : a.deadline ≤ clock
    · simp [readTimer, withCanceling, hdue]
    · simp [readTimer, withCanceling, hdue]

/-- `HandleRead` clears the set. -/
theorem handleRead_withCanceling (delay : Nat) :
    (q.withCanceling c).handleRead delay = q.handleRead delay := by
  have hread : ({ q.withCanceling c with clock := q.clock + delay } : TimerQueue).readTimer =
      ({ q with clock := q.clock + delay } : TimerQueue).readTimer.withCanceling c :=
    readTimer_withCanceling (q := { q with clock := q.clock + delay })
  have hget := getExpired_withCanceling (c := c) q.clock
    (q := ({ q with clock := q.clock + delay } : TimerQueue).readTimer)
  rw [← hread] at hget
  unfold handleRead
  dsimp only
  rw [show (q.withCanceling c).clock = q.clock from rfl, hget]
  rfl

/-- One entry of the batch, if its mark is the same in both sets. -/
theorem resetEntry_withCanceling (h : q.Owns out) {now : Nat} {e : Entry}
    (ha : (ofLex e).2 ∈ out) (hmark : ∀ t, q.heap (ofLex e).2 = some t →
      (toLex ((ofLex e).2, t.sequence) ∈ c ↔ toLex ((ofLex e).2, t.sequence) ∈ q.cancelingTimers)) :
    resetEntry ts now (q.withCanceling c) e = (resetEntry ts now q e).withCanceling c := by
  obtain ⟨t, ht⟩ := Option.isSome_iff_exists.mp (h.indexed.allocated _ ha)
  have hcond : (t.repeat_ = true ∧ toLex ((ofLex e).2, t.sequence) ∉
      (q.withCanceling c).cancelingTimers) ↔
        (t.repeat_ = true ∧ toLex ((ofLex e).2, t.sequence) ∉ q.cancelingTimers) :=
    and_congr_right fun _ => not_congr (hmark t ht)
  rw [resetEntry_eq h.indexed ht ha,
    resetEntry_eq (q := q.withCanceling c) h.withCanceling.indexed ht ha]
  by_cases hre : t.repeat_ = true ∧ toLex ((ofLex e).2, t.sequence) ∉ q.cancelingTimers
  · rw [if_pos hre, if_pos (hcond.mpr hre)]
    rfl
  · rw [if_neg hre, if_neg fun hre' => hre (hcond.mp hre'), delete_eq ht,
      delete_eq (q := q.withCanceling c) ht]
    rfl

theorem foldl_resetEntry_withCanceling (ts : Timestamps) (now : Nat) {l : List Entry}
    (h : q.Owns out) (hin : ∀ e ∈ l, (ofLex e).2 ∈ out) (hnd : (l.map fun e => (ofLex e).2).Nodup)
    (hmark : ∀ e ∈ l, ∀ t, q.heap (ofLex e).2 = some t →
      (toLex ((ofLex e).2, t.sequence) ∈ c ↔ toLex ((ofLex e).2, t.sequence) ∈ q.cancelingTimers)) :
    l.foldl (resetEntry ts now) (q.withCanceling c) =
      (l.foldl (resetEntry ts now) q).withCanceling c := by
  induction l generalizing q out with
  | nil => rfl
  | cons e l ih =>
    rw [List.map_cons, List.nodup_cons] at hnd
    have hout := hin e (by simp)
    obtain ⟨ho, hf⟩ := resetEntry_spec ts now h hout
    have hne : ∀ e' ∈ l, (ofLex e').2 ≠ (ofLex e).2 :=
      fun e' he' heq => hnd.1 (heq ▸ List.mem_map_of_mem he')
    rw [List.foldl_cons, List.foldl_cons,
      resetEntry_withCanceling h hout (hmark e (by simp))]
    refine ih ho (fun e' he' => ⟨hin e' (by simp [he']), hne e' he'⟩) hnd.2 ?_
    intro e' he' t ht
    rw [resetEntry_other h hout (hne e' he')] at ht
    rw [hf.canceling]
    exact hmark e' (by simp [he']) t ht

theorem reset_withCanceling (ts : Timestamps) (now : Nat) {l : List Entry} (h : q.Owns out)
    (hin : ∀ e ∈ l, (ofLex e).2 ∈ out) (hnd : (l.map fun e => (ofLex e).2).Nodup)
    (hmark : ∀ e ∈ l, ∀ t, q.heap (ofLex e).2 = some t →
      (toLex ((ofLex e).2, t.sequence) ∈ c ↔ toLex ((ofLex e).2, t.sequence) ∈ q.cancelingTimers)) :
    (q.withCanceling c).reset ts l now = (q.reset ts l now).withCanceling c := by
  have hfold := foldl_resetEntry_withCanceling ts now h hin hnd hmark
  have ho := (foldl_resetEntry ts now h hin hnd).1
  have ho' := ho.withCanceling (c := c)
  rw [← hfold] at ho'
  rw [reset_eq ho.indexed, reset_eq ho'.indexed, hfold]
  generalize l.foldl (resetEntry ts now) q = r
  rw [show (r.withCanceling c).timers = r.timers from rfl]
  cases r.timers.begin? <;> rfl

end Frame

/-! ## The simulation -/

/-- No timer on the heap has the name. -/
def Unclaimed (q : TimerQueue) (id : ActiveTimer) : Prop :=
  ∀ a t, q.heap a = some t → toLex (a, t.sequence) ≠ id

/-- The second queue is the first, but for `canceling_timers_`. -/
def Agrees (q q' : TimerQueue) : Prop := ∃ c, q' = q.withCanceling c

/-- They differ in the mark of `id` only. -/
def Twin (id : ActiveTimer) (q q' : TimerQueue) : Prop :=
  ∃ c, q' = q.withCanceling c ∧ ∀ x, x ≠ id → (x ∈ c ↔ x ∈ q.cancelingTimers)

section Simulation

variable {ts : Timestamps} {q q' r : TimerQueue} {i : Input} {id : ActiveTimer}

/-- The name of a deleted timer, as long as the numbers do not run out. -/
theorem Good.unclaimed (h : q.Good) (hlen : q.created.length < 2 ^ 64) {u : Nat} {a : Addr}
    (hu : u ∈ q.deleted) (ha : q.created[u]? = some a) : q.Unclaimed (toLex (a, u % 2 ^ 64)) := by
  intro b t hb heq
  obtain ⟨hname, hseq⟩ := h.owns.accounted.named b t hb
  have htlt := (List.getElem?_eq_some_iff.mp hname).1
  have hult := (List.getElem?_eq_some_iff.mp ha).1
  have hmod : t.uid % 2 ^ 64 = u % 2 ^ 64 := by
    rw [← hseq]
    exact (lex_eq_iff.mp heq).2
  rw [Nat.mod_eq_of_lt (by omega), Nat.mod_eq_of_lt (by omega)] at hmod
  exact ((h.owns.accounted.deleted u).mp hu).2 b t hb hmod

/-- The request itself. -/
theorem Unclaimed.cancelInLoop_eq (hid : q.Unclaimed id) (h : q.Good) : q.cancelInLoop id =
    if q.callingExpiredTimers then q.withCanceling (q.cancelingTimers.insert id) else q := by
  rcases TimerQueue.cancelInLoop_eq h.owns (ofLex id).1 (ofLex id).2 with
    ⟨t, ht, hs, hout, _⟩ | ⟨_, heq⟩
  · exact absurd (by rw [hs]; rfl) (hid _ t ht)
  · exact heq

theorem Unclaimed.twin (hid : q.Unclaimed id) (h : q.Good) : Twin id q (q.cancelInLoop id) := by
  rw [hid.cancelInLoop_eq h]
  split
  · refine ⟨_, rfl, fun x hx => ?_⟩
    rw [OrderedSet.mem_insert]
    exact ⟨fun hin => hin.resolve_left hx, .inr⟩
  · exact ⟨q.cancelingTimers, rfl, fun x _ => Iff.rfl⟩

theorem Good.withCanceling (h : q.Good) (c : OrderedSet ActiveTimer) : (q.withCanceling c).Good :=
  ⟨h.owns.withCanceling, h.nodup, h.rest, h.calling⟩

/-- Another request in the course of the run. -/
theorem Twin.cancelInLoop (ht : Twin id q q') (h : q.Good) (x : ActiveTimer) :
    Twin id (q.cancelInLoop x) (q'.cancelInLoop x) := by
  obtain ⟨c, rfl, hmarks⟩ := ht
  have h' := (h.withCanceling c).owns
  rw [show x = toLex ((ofLex x).1, (ofLex x).2) from rfl]
  rcases TimerQueue.cancelInLoop_eq h.owns (ofLex x).1 (ofLex x).2 with
    ⟨t, htm, hs, hout, heq⟩ | ⟨hna, heq⟩
  · have hin : toLex ((ofLex x).1, (ofLex x).2) ∈ q.activeTimers :=
      (h.owns.indexed.active _ _).mpr ⟨t, htm, hs, hout⟩
    rcases TimerQueue.cancelInLoop_eq h' (ofLex x).1 (ofLex x).2 with
      ⟨t', htm', _, _, heq'⟩ | ⟨hna, _⟩
    · obtain rfl : t = t' := Option.some.inj (htm.symm.trans htm')
      rw [heq, heq']
      exact ⟨c, rfl, hmarks⟩
    · exact absurd hin hna
  · rcases TimerQueue.cancelInLoop_eq h' (ofLex x).1 (ofLex x).2 with
      ⟨t', htm', hs', hout', _⟩ | ⟨_, heq'⟩
    · exact absurd ((h.owns.indexed.active _ _).mpr ⟨t', htm', hs', hout'⟩) hna
    · have hcalling : (q.withCanceling c).callingExpiredTimers = q.callingExpiredTimers := rfl
      rw [heq, heq', hcalling]
      split
      · refine ⟨c.insert _, rfl, fun y hy => ?_⟩
        rw [OrderedSet.mem_insert, OrderedSet.mem_insert, hmarks y hy]
      · exact ⟨c, rfl, hmarks⟩

theorem Twin.addTimer (ht : Twin id q q') (h : q.Good) {a : Addr} (hfree : q.free a = true)
    (expiration : Nat) (intervalS : Int) :
    Twin id (q.addTimer a expiration intervalS) (q'.addTimer a expiration intervalS) := by
  obtain ⟨c, rfl, hmarks⟩ := ht
  have hpend : a ∈ (q.allocate a expiration intervalS).pending := by simp [TimerQueue.allocate]
  have hadd := addTimerInLoop_withCanceling (c := c)
    (good_new h hfree expiration intervalS).owns.indexed (.inl hpend)
  refine ⟨c, ?_, ?_⟩
  · rw [addTimer_eq h hfree, addTimer_eq (h.withCanceling c) hfree]
    exact hadd
  · rw [(addTimer_frame h hfree expiration intervalS).2.2.1]
    exact hmarks

/-- `Reset` meets no timer with the name. -/
theorem Twin.finish (ht : Twin id q q') (h : q.Good) (hid : q.Unclaimed id) {now : Nat}
    {expired : List Entry} (hph : q.phase = .firing now expired []) :
    Twin id
      { reset ts { q with callingExpiredTimers := false } expired now with phase := .idle }
      { reset ts { q' with callingExpiredTimers := false } expired now with phase := .idle } := by
  obtain ⟨c, rfl, hmarks⟩ := ht
  obtain ⟨h0, hin, hnd⟩ := h.batch_ready hph
  have hreset := reset_withCanceling (c := c) ts now h0 hin hnd
    fun e _ t ht => hmarks _ (hid _ t ht)
  refine ⟨c, ?_, ?_⟩
  · rw [show ({ q.withCanceling c with callingExpiredTimers := false } : TimerQueue) =
      ({ q with callingExpiredTimers := false } : TimerQueue).withCanceling c from rfl, hreset]
    rfl
  · have hframe : (reset ts { q with callingExpiredTimers := false } expired now).cancelingTimers =
        q.cancelingTimers := (reset_kept ts now h0 hin hnd).1
    rw [hframe]
    exact hmarks

/-- One step, taken by both. -/
theorem step_twin (h : q.Good) (hid : q.Unclaimed id) (ht : Twin id q q')
    (hs : q.step ts i = some r) : ∃ r', q'.step ts i = some r' ∧ Twin id r r' := by
  have htwin := ht
  obtain ⟨c, rfl, hmarks⟩ := ht
  cases step_next hs with
  | new hfree => exact ⟨_, if_pos hfree, c, rfl, hmarks⟩
  | addTimerInLoop hidle hpend =>
    refine ⟨_, if_pos ⟨hidle, hpend⟩, c, ?_, ?_⟩
    · exact addTimerInLoop_withCanceling h.owns.indexed (.inl hpend)
    · rw [(addTimerInLoop_frame h hpend).2.2.1]
      exact hmarks
  | addTimer hfree => exact ⟨_, if_pos hfree, htwin.addTimer h hfree _ _⟩
  | cancelInLoop => exact ⟨_, rfl, htwin.cancelInLoop h _⟩
  | @handleRead delay hidle =>
    refine ⟨_, if_pos hidle, _, ?_, fun x _ => Iff.rfl⟩
    rw [handleRead_withCanceling]
    rfl
  | @runNext now expired rest e hph =>
    have hph' : (q.withCanceling c).phase = .firing now expired (e :: rest) := hph
    obtain ⟨t, htm, hrun, _⟩ := good_runNext h hph
    obtain ⟨t', htm', hrun', _⟩ := good_runNext (h.withCanceling c) hph'
    obtain rfl : t = t' := Option.some.inj (htm.symm.trans htm')
    refine ⟨_, by simp only [step, hph']; rfl, c, ?_, ?_⟩
    · rw [hrun, hrun']
      rfl
    · rw [hrun]
      exact hmarks
  | @finish now expired hph =>
    have hph' : (q.withCanceling c).phase = .firing now expired [] := hph
    exact ⟨_, by simp only [step, hph'], htwin.finish h hid hph⟩
  | tick => exact ⟨_, rfl, c, rfl, hmarks⟩

theorem run_created {ins : List Input} (h : q.Good) (hr : Machine.run (step ts) q ins = some r) :
    q.created.length ≤ r.created.length := by
  have hstep : ∀ {s i t}, s.Good ∧ q.created.length ≤ s.created.length → step ts s i = some t →
      t.Good ∧ q.created.length ≤ t.created.length := by
    intro s i t hs hst
    have hn := step_next hst
    exact ⟨step_timers_good hs.1 hn, hs.2.trans (step_history hs.1 hn).2.length_le⟩
  exact (Machine.run_invariant (P := fun s => s.Good ∧ q.created.length ≤ s.created.length) hstep
    ⟨h, le_refl _⟩ hr).2

/-- A whole run, taken by both. -/
theorem run_twin {ins : List Input} {u : Nat} {a : Addr} (h : q.Good) (hu : u ∈ q.deleted)
    (ha : q.created[u]? = some a) (ht : Twin (toLex (a, u % 2 ^ 64)) q q')
    (hr : Machine.run (step ts) q ins = some r) (hlen : r.created.length < 2 ^ 64) :
    ∃ r', Machine.run (step ts) q' ins = some r' ∧ Twin (toLex (a, u % 2 ^ 64)) r r' := by
  induction ins generalizing q q' with
  | nil =>
    simp only [Machine.run_nil, Option.some.injEq] at hr
    exact ⟨q', rfl, hr ▸ ht⟩
  | cons i ins ih =>
    have hid := h.unclaimed ((run_created h hr).trans_lt hlen) hu ha
    obtain ⟨m, hm, hrest⟩ := Machine.run_cons_iff.mp hr
    obtain ⟨m', hm', htm⟩ := step_twin h hid ht hm
    have hn := step_next hm
    obtain ⟨hdel, hcr⟩ := step_history h hn
    obtain ⟨r', hr', htr⟩ := ih (step_timers_good h hn) (hdel hu) (created_of_append hcr ha) htm
      hrest
    exact ⟨r', Machine.run_cons_iff.mpr ⟨m', hm', hr'⟩, htr⟩

end Simulation

/-- **A stale id is harmless.** The timer number `u`, created at `a`, has been deleted, and its
id is cancelled, inside a callback or outside. Neither set changes. Whatever happens next, with
fewer than 2^64 timers created by then, happens just as it would have happened without the request:
the same timers fire, are inserted again and are deleted, and the queue is the same but for
`canceling_timers_`. -/
theorem stale_cancel_harmless (ts : Timestamps) (clock : Nat) (ins : List Input) (q : TimerQueue)
    (hr : Machine.run (step ts) (init clock) ins = some q) (hlen : q.created.length < 2 ^ 64)
    (u : Nat) (a : Addr) (hu : u ∈ q.deleted) (ha : q.created[u]? = some a) :
    (q.cancelInLoop (toLex (a, u % 2 ^ 64))).timers = q.timers ∧
    (q.cancelInLoop (toLex (a, u % 2 ^ 64))).activeTimers = q.activeTimers ∧
    ∀ ins' r, Machine.run (step ts) q ins' = some r → r.created.length < 2 ^ 64 →
      ∃ r', Machine.run (step ts) (q.cancelInLoop (toLex (a, u % 2 ^ 64))) ins' = some r' ∧
        r.Agrees r' := by
  have h := reachable_good ⟨ins, hr⟩
  have ht := (h.unclaimed hlen hu ha).twin h
  refine ⟨?_, ?_, fun ins' r hr' hlen' => ?_⟩
  · obtain ⟨c, heq, _⟩ := ht
    rw [heq]
    rfl
  · obtain ⟨c, heq, _⟩ := ht
    rw [heq]
    rfl
  · obtain ⟨r', hrun, c, heq, _⟩ := run_twin h hu ha ht hr' hlen'
    exact ⟨r', hrun, c, heq⟩

/-- A timer is deleted and its address used again by a repeating timer; the callback of the
latter cancels the id of the former, and the repeating timer is inserted again. -/
theorem stale_cancel_harmless_reused : ∃ q r',
    Machine.run (step ⟨fun now s => now + s * 1000000, 0⟩) (init 1000)
      [.addTimer 8 500 0, .handleRead 0, .runNext, .finish, .addTimer 8 600 2, .handleRead 0,
        .runNext] = some q ∧ q.deleted = [0] ∧ q.phase.batch = [8] ∧
    Machine.run (step ⟨fun now s => now + s * 1000000, 0⟩)
      (q.cancelInLoop (toLex (8, 0 % 2 ^ 64))) [.finish] = some r' ∧
    toLex (2001000, 8) ∈ r'.timers := by
  have hrun : (Machine.run (step ⟨fun now s => now + s * 1000000, 0⟩) (init 1000)
      [.addTimer 8 500 0, .handleRead 0, .runNext, .finish, .addTimer 8 600 2, .handleRead 0,
        .runNext]).map (fun q => (q.deleted, q.phase.batch, q.created,
        (Machine.run (step ⟨fun now s => now + s * 1000000, 0⟩) q [.finish]).map
          fun r => (decide (toLex (2001000, 8) ∈ r.timers), r.created.length))) =
      some ([0], [8], [8, 8], some (true, 2)) := by
    decide +kernel
  obtain ⟨q, hr, hq⟩ := Option.map_eq_some_iff.mp hrun
  simp only [Prod.mk.injEq] at hq
  obtain ⟨hdel, hbatch, hcr, hfin⟩ := hq
  obtain ⟨r, hr', hobs⟩ := Option.map_eq_some_iff.mp hfin
  simp only [Prod.mk.injEq, decide_eq_true_eq] at hobs
  obtain ⟨r', hrun', c, rfl⟩ := (stale_cancel_harmless _ 1000 _ q hr (by rw [hcr]; decide) 0 8
    (by rw [hdel]; decide) (by rw [hcr]; rfl)).2.2 [.finish] r hr' (by rw [hobs.2]; decide)
  exact ⟨q, _, hr, hdel, hbatch, hrun', hobs.1⟩

end TimerQueue

end LinuxNet
