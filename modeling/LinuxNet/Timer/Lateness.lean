import LinuxNet.Timer.Arming
import LinuxNet.Timer.Schedule

/-!
# How late a timer can be

The queue sets the timerfd, the rest is up to the loop. Let the loop call `HandleRead` within
`wake` microseconds of the deadline of the timerfd, get through the callbacks of a pass within
`pass`, and let no timer be more than `handOver` behind when it is handed over. Then no timer is
later than the sum of these, one more `pass` and the 100 microseconds that the timerfd waits at
least. The second `pass` is for the timer that is due just behind the reading of the clock: it
is armed by `Reset` and not by `AddTimerInLoop`.
-/

namespace LinuxNet

set_option autoImplicit false

open LinuxNet.Lib

namespace TimerQueue

/-- What the loop promises, in microseconds. -/
structure Service where
  wake : Nat
  pass : Nat
  handOver : Nat

/-- How late a timer is at most when its pass begins. -/
def Service.atPass (v : Service) : Nat := v.wake + v.handOver + v.pass + 100

/-- How late its callback starts at most. -/
def Service.bound (v : Service) : Nat := v.atPass + v.pass

section Steps

variable {v : Service} {ts : Timestamps} {q q' : TimerQueue} {i : Input}

/-- The loop is in time at `clock`. -/
def Phase.InTime (v : Service) (timerfd : Option Arming) (clock : Nat) : Phase → Prop
  | .idle => ∀ w, timerfd = some w → clock ≤ w.deadline + v.wake
  | .firing now _ _ => clock ≤ now + v.pass

/-- The promise about a step. -/
def Served (v : Service) (q : TimerQueue) : Input → Prop
  | .addTimerInLoop a => ∀ t, q.heap a = some t → q.clock ≤ t.expiration + v.handOver
  | .addTimer _ expiration _ => q.clock ≤ expiration + v.handOver
  | .handleRead delay => delay ≤ v.pass
  | .tick d => q.phase.InTime v q.timerfd (q.clock + d)
  | _ => True

instance : DecidablePred Input.IntRange := fun i =>
  match i with
  | .new _ _ intervalS | .addTimer _ _ intervalS => inferInstanceAs (Decidable (intervalS < 2 ^ 31))
  | .addTimerInLoop _ | .cancelInLoop _ | .handleRead _ | .runNext | .finish | .tick _ =>
    inferInstanceAs (Decidable True)

instance (v : Service) (timerfd : Option Arming) (clock : Nat) (p : Phase) :
    Decidable (p.InTime v timerfd clock) :=
  match p with
  | .idle => inferInstanceAs (Decidable (∀ w ∈ timerfd, clock ≤ w.deadline + v.wake))
  | .firing now _ _ => inferInstanceAs (Decidable (clock ≤ now + v.pass))

instance (v : Service) (q : TimerQueue) : DecidablePred (q.Served v) := fun i =>
  match i with
  | .addTimerInLoop a =>
    inferInstanceAs (Decidable (∀ t ∈ q.heap a, q.clock ≤ t.expiration + v.handOver))
  | .addTimer _ expiration _ => inferInstanceAs (Decidable (q.clock ≤ expiration + v.handOver))
  | .handleRead delay => inferInstanceAs (Decidable (delay ≤ v.pass))
  | .tick d => inferInstanceAs (Decidable (q.phase.InTime v q.timerfd (q.clock + d)))
  | .new _ _ _ | .cancelInLoop _ | .runNext | .finish => inferInstanceAs (Decidable True)

/-- Outside of `HandleRead` the timerfd is armed for every timer, and it has not been readable
for long. -/
def Awaited (v : Service) (q : TimerQueue) : Prop :=
  ∀ e ∈ q.timers, ∃ w, q.timerfd = some w ∧
    w.deadline ≤ (ofLex e).1 + (v.handOver + v.pass + 100) ∧ q.clock ≤ w.deadline + v.wake

/-- In a pass that has read `now`. -/
structure Prompt (v : Service) (q : TimerQueue) (now : Nat) (expired : List Entry) : Prop where
  started : now ≤ q.clock
  clock : q.clock ≤ now + v.pass
  left : ∀ e ∈ q.timers, now ≤ (ofLex e).1 + v.handOver
  batch : ∀ e ∈ expired, ∀ t, q.heap (ofLex e).2 = some t → now ≤ t.expiration + v.atPass

structure Timely (v : Service) (q : TimerQueue) : Prop where
  awaited : q.phase.isIdle = true → q.Awaited v
  prompt : ∀ now expired rest, q.phase = .firing now expired rest → q.Prompt v now expired

/-! ## The calls of `ResetTimerfd` -/

theorem addTimerInLoop_resets {out : Set Addr} (h : q.Indexed out) {a : Addr} {t : Timer}
    (ht : q.heap a = some t) (ha : a ∈ out) :
    ∃ l, (q.addTimerInLoop a).resets = q.resets ++ l := by
  rw [addTimerInLoop_eq h ht ha]
  split
  · exact ⟨_, rfl⟩
  · exact ⟨[], (List.append_nil _).symm⟩

theorem step_resets (hq : q.Good) (hn : q.Next ts i q') : ∃ l, q'.resets = q.resets ++ l := by
  have hsame : ∀ {r : TimerQueue}, r.resets = q.resets → ∃ l, r.resets = q.resets ++ l :=
    fun hr => ⟨[], hr.trans (List.append_nil _).symm⟩
  cases hn with
  | new => exact hsame rfl
  | @addTimerInLoop a _ hpend =>
    obtain ⟨t, ht⟩ := Option.isSome_iff_exists.mp (hq.owns.indexed.allocated a (.inl hpend))
    exact addTimerInLoop_resets hq.owns.indexed ht (.inl hpend)
  | @addTimer a expiration intervalS hfree =>
    have hnew := good_new hq hfree expiration intervalS
    have hpend : a ∈ (q.allocate a expiration intervalS).pending := by simp [allocate]
    rw [addTimer_eq hq hfree]
    exact addTimerInLoop_resets hnew.owns.indexed (Function.update_self ..) (.inl hpend)
  | @cancelInLoop id =>
    rw [show id = toLex ((ofLex id).1, (ofLex id).2) from rfl]
    rcases cancelInLoop_eq hq.owns (ofLex id).1 (ofLex id).2 with ⟨_, _, _, _, heq⟩ | ⟨_, heq⟩
    · rw [heq]
      exact hsame rfl
    · rw [heq]
      split <;> exact hsame rfl
  | @handleRead delay =>
    obtain ⟨fd, expired, act, heq, _⟩ := handleRead_spec hq.owns delay
    rw [heq]
    exact hsame rfl
  | runNext hph =>
    obtain ⟨_, _, hrun, _⟩ := good_runNext hq hph
    rw [hrun]
    exact hsame rfl
  | @finish now expired hph =>
    obtain ⟨h0, hin, hnd⟩ := hq.batch_ready hph
    obtain ⟨hfold, hframe⟩ := foldl_resetEntry ts now h0 hin hnd
    rw [reset_eq hfold.indexed]
    split
    · exact hsame hframe.resets
    · exact ⟨_, congrArg (· ++ _) hframe.resets⟩
  | tick => exact hsame rfl

/-- The waits were small before the step. -/
theorem SmallWaits.before (hw : q'.SmallWaits) (hq : q.Good) (hn : q.Next ts i q') :
    q.SmallWaits := by
  obtain ⟨l, hl⟩ := step_resets hq hn
  intro r hr
  refine hw r ?_
  rw [hl]
  exact List.mem_append_left l hr

/-! ## The steps -/

/-- The queue has the timers of another one at most, and waits for them as long. -/
theorem Awaited.mono (h : q.Awaited v) (hsub : ∀ e ∈ q'.timers, e ∈ q.timers)
    (hfd : q'.timerfd = q.timerfd) (hcl : q'.clock = q.clock) : q'.Awaited v := by
  intro e he
  rw [hfd, hcl]
  exact h e (hsub e he)

/-- `ResetTimerfd` for the earliest timer. -/
theorem awaited_resetTimerfd {expired : Nat} (hw : (q.resetTimerfd expired).SmallWaits)
    (hle : ∀ e ∈ q.timers, expired ≤ (ofLex e).1)
    (hclock : ∀ e ∈ q.timers, q.clock ≤ (ofLex e).1 + (v.handOver + v.pass)) :
    (q.resetTimerfd expired).Awaited v := by
  have hsmall : SmallWait expired q.clock := hw (expired, q.clock) (by simp [resetTimerfd])
  intro e he
  have hexp := hle e he
  have hcl := hclock e he
  refine ⟨⟨q.clock, max expired (q.clock + 100)⟩, ?_, ?_, ?_⟩
  · simp only [resetTimerfd, timerfdSettime_deadline hsmall]
  · show max expired (q.clock + 100) ≤ _
    omega
  · show q.clock ≤ max expired (q.clock + 100) + v.wake
    omega

/-- A timer that is handed over in time. -/
theorem awaited_addTimerInLoop {out : Set Addr} (h : q.Indexed out) {a : Addr} {t : Timer}
    (ht : q.heap a = some t) (ha : a ∈ out) (hw : (q.addTimerInLoop a).SmallWaits)
    (hdue : q.clock ≤ t.expiration + v.handOver) (haw : q.Awaited v) :
    (q.addTimerInLoop a).Awaited v := by
  rw [addTimerInLoop_eq h ht ha] at hw ⊢
  have hmem (e : Entry) :
      e ∈ (({ q with pending := q.pending.erase a } : TimerQueue).inserted a t).timers ↔
        e = toLex (t.expiration, a) ∨ e ∈ q.timers := OrderedSet.mem_insert
  cases hearly : q.isEarliest t.expiration with
  | true =>
    rw [hearly, if_pos rfl] at hw
    rw [if_pos rfl]
    have hfirst :
        ∀ e ∈ (({ q with pending := q.pending.erase a } : TimerQueue).inserted a t).timers,
          t.expiration ≤ (ofLex e).1 := by
      intro e he
      rcases (hmem e).mp he with rfl | hold
      · exact le_rfl
      · unfold isEarliest at hearly
        cases hm : q.timers.begin? with
        | none => exact absurd hold (OrderedSet.begin?_eq_none.mp hm e)
        | some m =>
          rw [hm] at hearly
          have hlt : t.expiration < (ofLex m).1 := by simpa using hearly
          exact hlt.le.trans (entry_le ((OrderedSet.begin?_eq_some hm).2 e hold))
    refine awaited_resetTimerfd hw hfirst fun e he => ?_
    have hle := hfirst e he
    show q.clock ≤ _
    omega
  | false =>
    rw [if_neg (by decide)]
    intro e he
    rcases (hmem e).mp he with rfl | hold
    · unfold isEarliest at hearly
      cases hm : q.timers.begin? with
      | none =>
        rw [hm] at hearly
        cases hearly
      | some m =>
        rw [hm] at hearly
        have hle : (ofLex m).1 ≤ t.expiration := by simpa using hearly
        obtain ⟨w, hfd, hdl, hcl⟩ := haw m (OrderedSet.begin?_eq_some hm).1
        refine ⟨w, hfd, ?_, hcl⟩
        show w.deadline ≤ t.expiration + _
        omega
    · exact haw e hold

/-- A callback adds a timer. -/
theorem Prompt.insert {now : Nat} {expired : List Entry} (hp : q.Prompt v now expired)
    {expiration : Nat} {a : Addr} (hdue : q.clock ≤ expiration + v.handOver)
    (htimers : ∀ e ∈ q'.timers, e = toLex (expiration, a) ∨ e ∈ q.timers)
    (hheap : ∀ e ∈ expired, q'.heap (ofLex e).2 = q.heap (ofLex e).2)
    (hcl : q'.clock = q.clock) : q'.Prompt v now expired := by
  refine ⟨?_, ?_, fun e he => ?_, fun e he t ht => ?_⟩
  · rw [hcl]
    exact hp.started
  · rw [hcl]
    exact hp.clock
  · rcases htimers e he with rfl | hold
    · exact hp.started.trans hdue
    · exact hp.left e hold
  · rw [hheap e he] at ht
    exact hp.batch e he t ht

/-- `HandleRead` begins a pass. -/
theorem Timely.handleRead (h : q.Timely v) (hq : q.Good) (hidle : q.phase.isIdle = true)
    {delay : Nat} (hdelay : delay ≤ v.pass) : (q.handleRead delay).Timely v := by
  obtain ⟨fd, expired, act, heq, hmem, _⟩ := handleRead_spec hq.owns delay
  rw [heq]
  refine ⟨fun hno => (by cases hno), fun now expired' rest hph => ?_⟩
  cases hph
  refine ⟨Nat.le_add_right _ _, Nat.add_le_add_left hdelay _, fun e he => ?_, fun e he t ht => ?_⟩
  · have hlt := ((hq.mem_left e).mp he).2
    omega
  · obtain ⟨hin, _⟩ := (hmem e).mp he
    obtain ⟨t', ht', hexp, _⟩ := hq.owns.timer_of_mem hin
    have hheap : q.heap (ofLex e).2 = some t := ht
    rw [hheap, Option.some.injEq] at ht'
    obtain ⟨w, _, hdl, hcl⟩ := h.awaited hidle e hin
    rw [Service.atPass, ht', hexp]
    omega

/-- `Reset` ends it. -/
theorem Timely.finish (h : q.Timely v) (hts : ∀ now n, ts.addTime now n = now + n * 1000000)
    (hq : q.Good) (hcon : ∀ a t, q.heap a = some t → t.Constructed) {now : Nat}
    {expired : List Entry} (hph : q.phase = .firing now expired [])
    (hw : (reset ts { q with callingExpiredTimers := false } expired now).SmallWaits) :
    (reset ts { q with callingExpiredTimers := false } expired now).Awaited v := by
  have hp := h.prompt now expired [] hph
  obtain ⟨h0, hin, hnd⟩ := hq.batch_ready hph
  have hgood : ({ reset ts { q with callingExpiredTimers := false } expired now with
      phase := .idle } : TimerQueue).Good := good_finish hq hph
  -- what is in the set is behind the reading of the clock, or close to it
  have hnear : ∀ e ∈ (reset ts { q with callingExpiredTimers := false } expired now).timers,
      now ≤ (ofLex e).1 + v.handOver := by
    intro e he
    obtain ⟨t, ht, hexp, hout⟩ := hgood.owns.timer_of_mem he
    rw [← hexp]
    cases step_heap hts hq hcon (.finish hph) ht with
    | kept heap hfin =>
      have hnot := hfin rfl
      have hpend : (ofLex e).2 ∉ q.pending := fun hpe => hout (.inl (by
        rw [(reset_frame ts now h0 hin hnd).1]
        exact hpe))
      have hheld := hq.holds_iff.mpr ⟨heap, fun ho => ho.elim hpend hnot⟩
      exact hp.left _ hheld.2
    | created _ _ _ hi => rcases hi with hi | hi <;> cases hi
    | @restarted t₀ now' expired' _ _ hph' _ _ heq =>
      rw [hph] at hph'
      cases hph'
      rw [heq]
      show now ≤ now + t₀.period + v.handOver
      omega
  obtain ⟨hfold, hframe⟩ := foldl_resetEntry ts now h0 hin hnd
  have hclock : q.clock ≤ now + v.pass := hp.clock
  rw [reset_eq hfold.indexed] at hw hnear ⊢
  have hcl : (expired.foldl (resetEntry ts now) { q with callingExpiredTimers := false }).clock =
      q.clock := hframe.clock
  generalize expired.foldl (resetEntry ts now) { q with callingExpiredTimers := false } = r
    at hw hnear hcl ⊢
  cases hb : r.timers.begin? with
  | none => exact fun e he => absurd he (OrderedSet.begin?_eq_none.mp hb e)
  | some m =>
    simp only [hb] at hw hnear ⊢
    refine awaited_resetTimerfd hw (fun e he => ?_) fun e he => ?_
    · exact entry_le ((OrderedSet.begin?_eq_some hb).2 e he)
    · have hle := hnear e he
      rw [hcl]
      omega

/-- **One step.** -/
theorem step_timely (hts : ∀ now n, ts.addTime now n = now + n * 1000000) (hq : q.Good)
    (hcon : ∀ a t, q.heap a = some t → t.Constructed) (h : q.Timely v) (hs : q.Served v i)
    (hw : q'.SmallWaits) (hn : q.Next ts i q') : q'.Timely v := by
  cases hn with
  | @new a expiration intervalS hfree =>
    refine ⟨h.awaited, fun now expired rest hph => ?_⟩
    have hp := h.prompt now expired rest hph
    refine ⟨hp.started, hp.clock, hp.left, fun e he t ht => hp.batch e he t ?_⟩
    have hne : (ofLex e).2 ≠ a := fun heq => by
      have hbatch : (ofLex e).2 ∈ q.phase.batch := by
        rw [show q.phase = _ from hph]
        exact List.mem_map_of_mem he
      rw [heq] at hbatch
      exact hq.fresh (free_iff hfree).1 (List.mem_append_right _ hbatch)
    exact (Function.update_of_ne hne _ _).symm.trans ht
  | @addTimerInLoop a hidle hpend =>
    obtain ⟨t, ht⟩ := Option.isSome_iff_exists.mp (hq.owns.indexed.allocated a (.inl hpend))
    have hph := (addTimerInLoop_frame hq hpend).2.1
    refine ⟨fun _ => ?_, fun now expired rest hf => ?_⟩
    · exact awaited_addTimerInLoop hq.owns.indexed ht (.inl hpend) hw (hs t ht) (h.awaited hidle)
    · rw [hph] at hf
      rw [hf] at hidle
      cases hidle
  | @addTimer a expiration intervalS hfree =>
    have hnew := good_new hq hfree expiration intervalS
    have hpend : a ∈ (q.allocate a expiration intervalS).pending := by simp [allocate]
    have ht : (q.allocate a expiration intervalS).heap a =
        some (Timer.new expiration intervalS q.created.length) := Function.update_self ..
    have hph : (q.addTimer a expiration intervalS).phase = q.phase :=
      (addTimer_frame hq hfree expiration intervalS).2.1
    refine ⟨fun hidle => ?_, fun now expired rest hf => ?_⟩
    · rw [hph] at hidle
      rw [addTimer_eq hq hfree] at hw ⊢
      exact awaited_addTimerInLoop hnew.owns.indexed ht (.inl hpend) hw hs (h.awaited hidle)
    · rw [hph] at hf
      refine (h.prompt now expired rest hf).insert (a := a) hs (fun e he => ?_) (fun e he => ?_) ?_
      · rw [addTimer_eq hq hfree, addTimerInLoop_eq hnew.owns.indexed ht (.inl hpend)] at he
        split at he <;> exact OrderedSet.mem_insert.mp he
      · rw [addTimer_eq hq hfree, (good_addTimerInLoop hnew hpend).2]
        refine Function.update_of_ne (fun heq => ?_) _ _
        have hbatch : (ofLex e).2 ∈ q.phase.batch := by
          rw [hf]
          exact List.mem_map_of_mem he
        rw [heq] at hbatch
        exact hq.fresh (free_iff hfree).1 (List.mem_append_right _ hbatch)
      · rw [addTimer_eq hq hfree, addTimerInLoop_clock hnew hpend]
        rfl
  | @cancelInLoop id =>
    rw [show id = toLex ((ofLex id).1, (ofLex id).2) from rfl]
    rcases cancelInLoop_eq hq.owns (ofLex id).1 (ofLex id).2 with ⟨t, ht, _, hout, heq⟩ | ⟨_, heq⟩
    · rw [heq]
      have hsub : ∀ e ∈ (q.canceled (ofLex id).1 t).timers, e ∈ q.timers :=
        fun e he => (OrderedSet.mem_erase.mp he).2
      refine ⟨fun hidle => (h.awaited hidle).mono hsub rfl rfl, fun now expired rest hf => ?_⟩
      have hp := h.prompt now expired rest hf
      refine ⟨hp.started, hp.clock, fun e he => hp.left e (hsub e he), fun e he x hx => ?_⟩
      refine hp.batch e he x ?_
      by_cases hab : (ofLex e).2 = (ofLex id).1
      · rw [hab] at hx
        rw [show (q.canceled (ofLex id).1 t).heap (ofLex id).1 = none from
          Function.update_self ..] at hx
        cases hx
      · exact (Function.update_of_ne hab _ _).symm.trans hx
    · rw [heq]
      split
      · refine ⟨h.awaited, fun now expired rest hf => ?_⟩
        exact { h.prompt now expired rest hf with }
      · exact h
  | handleRead hidle => exact h.handleRead hq hidle hs
  | @runNext now expired rest e hph =>
    obtain ⟨_, _, hrun, _⟩ := good_runNext hq hph
    rw [hrun]
    refine ⟨fun hidle => (by cases hidle), fun now' expired' rest' hf => ?_⟩
    cases hf
    exact { h.prompt now expired _ hph with }
  | finish hph =>
    refine ⟨fun _ => ?_, fun now expired rest hf => (by cases hf)⟩
    exact fun e he => h.finish hts hq hcon hph hw e he
  | @tick d =>
    refine ⟨fun hidle e he => ?_, fun now expired rest hf => ?_⟩
    · obtain ⟨w, hfd, hdl, _⟩ := h.awaited hidle e he
      refine ⟨w, hfd, hdl, ?_⟩
      have hin : q.phase.InTime v q.timerfd (q.clock + d) := hs
      have hph : q.phase = .idle := by
        cases hph : q.phase with
        | idle => rfl
        | firing now expired rest =>
          rw [show ({ q with clock := q.clock + d } : TimerQueue).phase = q.phase from rfl,
            hph] at hidle
          cases hidle
      rw [hph] at hin
      exact hin w hfd
    · have hf : q.phase = .firing now expired rest := hf
      have hp := h.prompt now expired rest hf
      have hin : q.phase.InTime v q.timerfd (q.clock + d) := hs
      rw [hf] at hin
      exact ⟨hp.started.trans (Nat.le_add_right _ _), hin, hp.left, hp.batch⟩

/-! ## Whole runs -/

/-- A timer that is on the heap and has been handed over is in `timers_` or in the batch. -/
theorem Timely.clock_le (h : q.Timely v) (hq : q.Good) {a : Addr} {t : Timer}
    (ht : q.heap a = some t) (hpend : a ∉ q.pending) : q.clock ≤ t.expiration + v.bound := by
  rw [Service.bound, Service.atPass]
  cases hph : q.phase with
  | idle =>
    have hout : a ∉ q.out := fun ho => ho.elim hpend fun hb => by
      rw [hph] at hb
      cases hb
    have hheld := hq.holds_iff.mpr ⟨ht, hout⟩
    obtain ⟨w, _, hdl, hcl⟩ := h.awaited (by rw [hph]; rfl) _ hheld.2
    have hdl : w.deadline ≤ t.expiration + (v.handOver + v.pass + 100) := hdl
    omega
  | firing now expired rest =>
    have hp := h.prompt now expired rest hph
    have hclock := hp.clock
    by_cases hb : a ∈ q.phase.batch
    · rw [hph] at hb
      obtain ⟨e, he, rfl⟩ := List.mem_map.mp hb
      have hlate := hp.batch e he t ht
      rw [Service.atPass] at hlate
      omega
    · have hheld := hq.holds_iff.mpr ⟨ht, fun ho => ho.elim hpend hb⟩
      have hleft : now ≤ t.expiration + v.handOver := hp.left _ hheld.2
      omega

end Steps

/-- **No timer is late by more than the loop is slow.** In every run in which the loop keeps its
promise: as long as a timer is there, the clock is not more than `bound` behind its expiration.
So by then its last callback has started, or it has been cancelled. -/
theorem timers_prompt (v : Service) (ts : Timestamps)
    (hts : ∀ now n, ts.addTime now n = now + n * 1000000) (clock : Nat) (ins : List Input)
    (hserved : Machine.Along (step ts) (fun q i => i.IntRange ∧ q.Served v i) (init clock) ins)
    (q : TimerQueue) (hr : Machine.run (step ts) (init clock) ins = some q) (hw : q.SmallWaits)
    (a : Addr) (t : Timer) (ht : q.heap a = some t) (hpend : a ∉ q.pending) :
    q.clock ≤ t.expiration + v.bound := by
  have hinit : (init clock).Timely v := by
    refine ⟨fun _ e he => ?_, fun now expired rest hf => ?_⟩
    · exact absurd he (OrderedSet.not_mem_empty e)
    · cases hf
  have hinv := Machine.run_invariant_along
    (P := fun q => q.Good ∧ (∀ a t, q.heap a = some t → t.Constructed) ∧
      (q.SmallWaits → q.Timely v))
    (fun hP hG hs => ⟨step_timers_good hP.1 (step_next hs),
      step_constructed hP.1 hP.2.1 hG.1 (step_next hs), fun hw =>
        step_timely hts hP.1 hP.2.1 (hP.2.2 (hw.before hP.1 (step_next hs))) hG.2 hw
          (step_next hs)⟩)
    ⟨good_init clock, fun _ _ hx => (by cases hx), fun _ => hinit⟩ hserved hr
  exact (hinv.2.2 hw).clock_le hinv.1 ht hpend

/-- The second timer is due just behind the reading of the clock by the first pass, and
`Reset` waits for it another 100 microseconds. -/
theorem timers_prompt_second_pass : ∃ q t,
    Machine.run (step ⟨fun now n => now + n * 1000000, 0⟩) (init 1000)
      [.addTimer 16 2000 1, .addTimer 24 2160 0, .tick 1150, .handleRead 50, .runNext, .tick 100,
        .finish, .tick 250, .handleRead 20] = some q ∧
    q.heap 24 = some t ∧ t.expiration = 2160 ∧ q.clock = 2570 ∧
    q.clock ≤ t.expiration + Service.bound ⟨200, 300, 0⟩ := by
  obtain ⟨q, hr, hq⟩ := Option.map_eq_some_iff.mp (show (Machine.run
      (step ⟨fun now n => now + n * 1000000, 0⟩) (init 1000)
      [.addTimer 16 2000 1, .addTimer 24 2160 0, .tick 1150, .handleRead 50, .runNext, .tick 100,
        .finish, .tick 250, .handleRead 20]).map
      (fun q => (q.heap 24, q.pending, q.clock, q.resets)) =
      some (some ⟨2160, 0, false, 1, 1⟩, [], 2570, [(2000, 1000), (2160, 2300)]) by decide +kernel)
  simp only [Prod.mk.injEq] at hq
  obtain ⟨ht, hpend, hclock, hres⟩ := hq
  have hw : q.SmallWaits := by
    intro r hrm
    rw [hres] at hrm
    simp only [List.mem_cons, List.not_mem_nil, or_false] at hrm
    rcases hrm with rfl | rfl <;> constructor <;> decide
  have hserved : Machine.Along (step ⟨fun now n => now + n * 1000000, 0⟩)
      (fun q i => i.IntRange ∧ q.Served ⟨200, 300, 0⟩ i) (init 1000)
      [.addTimer 16 2000 1, .addTimer 24 2160 0, .tick 1150, .handleRead 50, .runNext, .tick 100,
        .finish, .tick 250, .handleRead 20] := by decide +kernel
  refine ⟨q, _, hr, ht, rfl, hclock, ?_⟩
  exact timers_prompt _ _ (fun _ _ => rfl) 1000 _ hserved q hr hw 24 _ ht (by rw [hpend]; simp)

end TimerQueue

end LinuxNet
