import LinuxNet.Timer.Ownership
import Mathlib.Order.MinMax

/-!
# The timerfd

The timerfd is set by `AddTimerInLoop` for a new earliest timer and at the end of
`Reset`, and at no other place. Outside of `HandleRead` that is enough: a timer
inserted behind the earliest or a cancelled one only moves the earliest expiration
away from the deadline.
-/

namespace LinuxNet

set_option autoImplicit false

open LinuxNet.Lib

/-- The two time stamps are less than `2^63` microseconds apart. -/
def SmallWait (expired now : Nat) : Prop := expired < now + 2 ^ 63 ∧ now < expired + 2 ^ 63

/-- The seconds and the nanoseconds make up the microseconds again. -/
theorem seconds_add_nanoseconds (us : Int) :
    us.tdiv kMicrosecondsPerSecond * kMicrosecondsPerSecond +
      us.tmod kMicrosecondsPerSecond * 1000 / 1000 = us := by
  rw [Int.mul_ediv_cancel _ (by decide), Int.add_comm]
  exact Int.tmod_add_tdiv_mul us kMicrosecondsPerSecond

/-- For such a wait the timerfd expires with the timer, but not before 100
microseconds have passed. -/
theorem timerfdSettime_deadline {expired now : Nat} (h : SmallWait expired now) :
    timerfdSettime now (howManyTimeLeftNow expired now) = ⟨now, max expired (now + 100)⟩ := by
  have hmod : ((expired : Int) - now).bmod (2 ^ 64) = (expired : Int) - now := by
    obtain ⟨h1, h2⟩ := h
    refine Int.bmod_eq_of_le ?_ ?_ <;> omega
  unfold timerfdSettime howManyTimeLeftNow
  simp only [hmod, seconds_add_nanoseconds, Arming.mk.injEq, true_and]
  split <;> omega

/-! ## The wait for any two time stamps -/

/-- The time that a `timespec` denotes, in nanoseconds. -/
def Timespec.nanoseconds (t : Timespec) : Int := t.sec * 10 ^ 9 + t.nsec

/-- The wait is one that `timerfd_settime` takes, it arms the timerfd, and it does not end before
the timer is due. -/
structure Timespec.ValidWait (t : Timespec) (expired now : Nat) : Prop where
  sec : 0 ≤ t.sec
  nsec : 0 ≤ t.nsec ∧ t.nsec < 10 ^ 9
  armed : 100 * 1000 ≤ t.nanoseconds
  notShort : now < expired → ((expired : Int) - now) * 1000 ≤ t.nanoseconds

/-- The microseconds that are split into seconds and nanoseconds, and what the split keeps. -/
theorem howManyTimeLeftNow_spec (expired now : Nat) {us : Int}
    (hus : us = max 100 (((expired : Int) - now).bmod (2 ^ 64))) :
    0 ≤ (howManyTimeLeftNow expired now).sec ∧ 0 ≤ (howManyTimeLeftNow expired now).nsec ∧
      (howManyTimeLeftNow expired now).nsec < 10 ^ 9 ∧
      (howManyTimeLeftNow expired now).nanoseconds = us * 1000 := by
  have hsplit : howManyTimeLeftNow expired now =
      ⟨us.tdiv kMicrosecondsPerSecond, us.tmod kMicrosecondsPerSecond * 1000⟩ := by
    have hclamp : (if ((expired : Int) - now).bmod (2 ^ 64) < 100 then 100
        else ((expired : Int) - now).bmod (2 ^ 64)) = us := by
      rw [hus]
      split <;> omega
    unfold howManyTimeLeftNow
    dsimp only
    rw [hclamp]
  have hpos : 0 ≤ us := by omega
  have hk : kMicrosecondsPerSecond = 1000000 := rfl
  rw [hsplit, Timespec.nanoseconds]
  dsimp only
  rw [Int.tdiv_eq_ediv_of_nonneg hpos, Int.tmod_eq_emod_of_nonneg hpos, hk]
  omega

/-- **When the armed wait is right.** For any two unsigned 64-bit time stamps, the `timespec` of
`HowManyTimeLeftNow` is valid, denotes at least 100 microseconds and does not end before a timer
that is not yet due, if and only if `when` is less than `2^63` microseconds after `now`. -/
theorem armed_wait_valid_iff (expired now : BitVec 64) :
    (howManyTimeLeftNow expired.toNat now.toNat).ValidWait expired.toNat now.toNat ↔
      expired.toNat < now.toNat + 2 ^ 63 := by
  have he := expired.isLt
  have hn := now.isLt
  obtain ⟨hsec, hnsec, hlt, hnano⟩ := howManyTimeLeftNow_spec expired.toNat now.toNat rfl
  constructor
  · intro h
    by_contra hfar
    -- the difference is negative as an `int64_t`, and the wait is the shortest one
    have hneg : ((expired.toNat : Int) - now.toNat).bmod (2 ^ 64) < 0 := by
      rw [Int.bmod_def]
      split <;> omega
    have hshort := h.notShort (by omega)
    rw [hnano] at hshort
    omega
  · intro hnear
    refine ⟨hsec, ⟨hnsec, hlt⟩, ?_, ?_⟩
    · rw [hnano]
      omega
    · intro hlater
      have hdiff : ((expired.toNat : Int) - now.toNat).bmod (2 ^ 64) =
          (expired.toNat : Int) - now.toNat := by
        refine Int.bmod_eq_of_le ?_ ?_ <;> omega
      rw [hnano, hdiff]
      omega

/-- A timer that is due `2^63` microseconds from the start of the clock is waited for with 100
microseconds. -/
theorem far_wait_too_short :
    howManyTimeLeftNow (9223372036854775808#64).toNat (0#64).toNat = ⟨0, 100000⟩ ∧
    ¬ (howManyTimeLeftNow (9223372036854775808#64).toNat (0#64).toNat).ValidWait
      (9223372036854775808#64).toNat (0#64).toNat := by
  have hwait : howManyTimeLeftNow (9223372036854775808#64).toNat (0#64).toNat = ⟨0, 100000⟩ := by
    decide
  refine ⟨hwait, fun h => ?_⟩
  have hshort := h.notShort (by decide)
  rw [hwait] at hshort
  exact absurd hshort (by decide)

namespace TimerQueue

def SmallWaits (q : TimerQueue) : Prop := ∀ r ∈ q.resets, SmallWait r.1 r.2

/-- The timerfd is armed, and early enough for every timer in `timers_`. -/
def Armed (q : TimerQueue) : Prop :=
  ∀ e ∈ q.timers, ∃ a, q.timerfd = some a ∧ a.deadline ≤ max (ofLex e).1 (a.armedAt + 100)

theorem entry_le {e e' : Entry} (h : e ≤ e') : (ofLex e).1 ≤ (ofLex e').1 :=
  Prod.Lex.monotone_fst e e' h

/-- Timers may disappear, or appear behind others. -/
theorem Armed.mono {q q' : TimerQueue} (h : q.Armed) (hfd : q'.timerfd = q.timerfd)
    (hle : ∀ e' ∈ q'.timers, ∃ e ∈ q.timers, (ofLex e).1 ≤ (ofLex e').1) : q'.Armed := by
  intro e' he'
  obtain ⟨e, he, hlt⟩ := hle e' he'
  obtain ⟨a, ha, hd⟩ := h e he
  exact ⟨a, hfd.trans ha, hd.trans (max_le_max hlt le_rfl)⟩

/-- `ResetTimerfd` with a time stamp that is not behind any timer. -/
theorem armed_resetTimerfd {q : TimerQueue} {expired : Nat}
    (hw : (q.resetTimerfd expired).SmallWaits) (hle : ∀ e ∈ q.timers, expired ≤ (ofLex e).1) :
    (q.resetTimerfd expired).Armed := by
  have hsmall : SmallWait expired q.clock := hw (expired, q.clock) (by simp [resetTimerfd])
  intro e he
  refine ⟨⟨q.clock, max expired (q.clock + 100)⟩, ?_, ?_⟩
  · simp only [resetTimerfd, timerfdSettime_deadline hsmall]
  · exact max_le_max (hle e he) le_rfl

theorem armed_addTimerInLoop {q : TimerQueue} {out : Set Addr} (h : q.Indexed out) {a : Addr}
    {t : Timer} (ht : q.heap a = some t) (ha : a ∈ out)
    (hw : (q.addTimerInLoop a).SmallWaits) (harm : q.SmallWaits → q.Armed) :
    (q.addTimerInLoop a).Armed := by
  rw [addTimerInLoop_eq h ht ha] at hw ⊢
  have hmem : ∀ e, e ∈ (({ q with pending := q.pending.erase a } : TimerQueue).inserted a t).timers ↔
      e = toLex (t.expiration, a) ∨ e ∈ q.timers := fun e => OrderedSet.mem_insert
  split
  · rename_i hearly
    rw [if_pos hearly] at hw
    refine armed_resetTimerfd hw fun e he => ?_
    rcases (hmem e).mp he with rfl | hold
    · exact le_rfl
    · unfold isEarliest at hearly
      split at hearly
      · rename_i hnone
        exact absurd hold (OrderedSet.begin?_eq_none.mp hnone e)
      · rename_i m hm
        have hlt : t.expiration < (ofLex m).1 := by simpa using hearly
        exact hlt.le.trans (entry_le ((OrderedSet.begin?_eq_some hm).2 e hold))
  · rename_i hlate
    rw [if_neg hlate] at hw
    refine (harm hw).mono rfl fun e he => ?_
    rcases (hmem e).mp he with rfl | hold
    · unfold isEarliest at hlate
      split at hlate
      · exact absurd rfl hlate
      · rename_i m hm
        exact ⟨m, (OrderedSet.begin?_eq_some hm).1, by simpa using hlate⟩
    · exact ⟨e, hold, le_rfl⟩

/-- The invariant: as long as all waits were small, the queue is armed outside of
`HandleRead`. -/
structure Covered (q : TimerQueue) : Prop where
  good : q.Good
  armed : q.SmallWaits → q.phase.isIdle = true → q.Armed

theorem step_covered {ts : Timestamps} {q q' : TimerQueue} {i : Input} (h : q.Covered)
    (hn : q.Next ts i q') : q'.Covered := by
  refine ⟨step_timers_good h.good hn, fun hw hidle => ?_⟩
  have hg := h.good
  cases hn with
  | new => exact h.armed hw hidle
  | @addTimerInLoop a hq hpend =>
    obtain ⟨t, ht⟩ := Option.isSome_iff_exists.mp (hg.owns.indexed.allocated a (.inl hpend))
    exact armed_addTimerInLoop hg.owns.indexed ht (.inl hpend) hw fun hw' => h.armed hw' hq
  | @addTimer a expiration intervalS hfree =>
    have hnew := good_new hg hfree expiration intervalS
    have hpend : a ∈ (q.allocate a expiration intervalS).pending := by simp [allocate]
    have ht : (q.allocate a expiration intervalS).heap a =
        some (Timer.new expiration intervalS q.created.length) := Function.update_self ..
    rw [addTimer_eq hg hfree] at hw hidle ⊢
    refine armed_addTimerInLoop hnew.owns.indexed ht (.inl hpend) hw fun hw' => h.armed hw' ?_
    rw [addTimerInLoop_eq hnew.owns.indexed ht (.inl hpend)] at hidle
    split at hidle <;> exact hidle
  | @cancelInLoop id =>
    rw [show id = toLex ((ofLex id).1, (ofLex id).2) from rfl] at hw hidle ⊢
    rcases cancelInLoop_eq hg.owns (ofLex id).1 (ofLex id).2 with ⟨t, _, _, _, heq⟩ | ⟨_, heq⟩
    · rw [heq] at hw hidle ⊢
      refine (h.armed hw hidle).mono rfl fun e he => ⟨e, ?_, le_rfl⟩
      exact (OrderedSet.mem_erase.mp he).2
    · cases hcall : q.callingExpiredTimers <;> rw [heq, hcall] at hw hidle ⊢ <;>
        exact h.armed hw hidle
  | @handleRead delay =>
    obtain ⟨fd, expired, act, heq, _⟩ := handleRead_spec hg.owns delay
    rw [heq] at hidle
    cases hidle
  | runNext => cases hidle
  | @finish now expired hph =>
    obtain ⟨h0, hin, hnd⟩ := hg.batch_ready hph
    have hfold := (foldl_resetEntry ts now h0 hin hnd).1
    rw [reset_eq hfold.indexed] at hw ⊢
    generalize expired.foldl (resetEntry ts now) { q with callingExpiredTimers := false } = r
      at hw ⊢
    cases hb : r.timers.begin? with
    | none =>
      exact fun e he => absurd he (OrderedSet.begin?_eq_none.mp hb e)
    | some m =>
      simp only [hb] at hw ⊢
      exact armed_resetTimerfd (q := r) hw fun e he =>
        entry_le ((OrderedSet.begin?_eq_some hb).2 e he)
  | tick => exact h.armed hw hidle

/-- **No timer is forgotten.** After any run that ends outside of `HandleRead` and
in which no wait given to the timerfd reached `2^63` microseconds: if `timers_` is not
empty, the timerfd is armed, or readable since its deadline, and the deadline is
not later than the earliest expiration, or than 100 microseconds after the arming. -/
theorem timerfd_covers_timers (ts : Timestamps) (clock : Nat) (ins : List Input) (q : TimerQueue)
    (hr : Machine.run (step ts) (init clock) ins = some q) (hidle : q.phase.isIdle = true)
    (hw : q.SmallWaits) (m : Entry) (hm : q.timers.begin? = some m) :
    ∃ a, q.timerfd = some a ∧ a.deadline ≤ max (ofLex m).1 (a.armedAt + 100) := by
  have hinit : (init clock).Covered := by
    refine ⟨good_init clock, fun _ _ e he => ?_⟩
    exact absurd he (OrderedSet.not_mem_empty e)
  have hcov := Machine.run_invariant (fun h hs => step_covered h (step_next hs)) hinit hr
  exact hcov.armed hw hidle m (OrderedSet.begin?_eq_some hm).1

/-- The earliest of three timers fires and another is cancelled by its callback: the
deadline is that of the one left. -/
theorem timerfd_covers_timers_after_cancel : ∃ q a m,
    Machine.run (step ⟨fun now s => now + s * 1000000, 0⟩) (init 1000)
      [.addTimer 8 1500 0, .addTimer 16 1700 0, .addTimer 24 9000 0, .tick 600, .handleRead 0,
        .runNext, .cancelInLoop (toLex (16, 1)), .finish] = some q ∧
    q.timers.begin? = some m ∧ (ofLex m).1 = 9000 ∧ q.timerfd = some a ∧
    a.deadline ≤ max (ofLex m).1 (a.armedAt + 100) := by
  have hrun : (Machine.run (step ⟨fun now s => now + s * 1000000, 0⟩) (init 1000)
      [.addTimer 8 1500 0, .addTimer 16 1700 0, .addTimer 24 9000 0, .tick 600, .handleRead 0,
        .runNext, .cancelInLoop (toLex (16, 1)), .finish]).map
      (fun q => (q.phase.isIdle, q.resets, q.timers.toList)) =
      some (true, [(1500, 1000), (9000, 1600)], [toLex (9000, 24)]) := by decide +kernel
  obtain ⟨q, hr, hq⟩ := Option.map_eq_some_iff.mp hrun
  simp only [Prod.mk.injEq] at hq
  obtain ⟨hidle, hres, hlist⟩ := hq
  have hm : q.timers.begin? = some (toLex (9000, 24)) := by rw [OrderedSet.begin?, hlist]; rfl
  have hw : q.SmallWaits := by
    intro r hrm
    rw [hres] at hrm
    simp only [List.mem_cons, List.not_mem_nil, or_false] at hrm
    rcases hrm with rfl | rfl <;> constructor <;> decide
  obtain ⟨a, ha, hd⟩ := timerfd_covers_timers _ 1000 _ q hr hidle hw _ hm
  exact ⟨q, a, _, hr, hm, rfl, ha, hd⟩

end TimerQueue

end LinuxNet
