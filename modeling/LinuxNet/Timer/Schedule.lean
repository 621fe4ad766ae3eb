import LinuxNet.Timer.Pass

/-!
# When timers start

Over a whole run a timer is never early. A timer that does not repeat starts once at most, at
its expiration or later; the start number `k` of a repeating timer, counted from 0, comes no
earlier than `k` intervals behind its first expiration, however late the passes of `HandleRead`
are and whatever the callbacks do. `step_heap` says where a timer on the heap comes from: it was
there before the step, or it has just been created, or `Reset` has restarted it.
-/

namespace LinuxNet

set_option autoImplicit false

open LinuxNet.Lib

/-- The interval in microseconds. -/
def Timer.period (t : Timer) : Nat := t.interval.toNat * 1000000

namespace TimerQueue

/-- What is seen of the timers. -/
inductive Sight where
  /-- `AddTimer` creates the timer. -/
  | made (t : Timer)
  /-- The callback of the timer number `uid` starts. -/
  | started (uid clock : Nat)
  deriving DecidableEq

def sights (q : TimerQueue) (i : Input) (_ : TimerQueue) : List Sight :=
  match i with
  | .new _ expiration intervalS | .addTimer _ expiration intervalS =>
    [.made (Timer.new expiration intervalS q.created.length)]
  | .runNext =>
    match q.phase with
    | .firing _ _ (e :: _) =>
      match q.heap (ofLex e).2 with
      | some t => [.started t.uid q.clock]
      | none => []
    | _ => []
  | _ => []

/-- The times at which the timer number `u` has started. -/
def startsOf (h : List Sight) (u : Nat) : List Nat :=
  h.filterMap fun x =>
    match x with
    | .started v c => if v = u then some c else none
    | .made _ => none

/-- No start is early, and none is one too many. -/
structure Punctual (h : List Sight) : Prop where
  early : ∀ t, .made t ∈ h → ∀ k c, (startsOf h t.uid)[k]? = some c →
    t.expiration + k * t.period ≤ c
  once : ∀ t, .made t ∈ h → t.repeat_ = false → (startsOf h t.uid).length ≤ 1
  known : ∀ u c, .started u c ∈ h → ∃ t, .made t ∈ h ∧ t.uid = u

/-! ## Where the timers on the heap come from -/

section Steps

variable {ts : Timestamps} {q q' : TimerQueue} {i : Input} {h : List Sight} {a : Addr} {t : Timer}

/-- The timer `t` on the heap behind a step, at the address `a`. -/
inductive Origin (q : TimerQueue) (i : Input) (a : Addr) (t : Timer) : Prop where
  | kept (heap : q.heap a = some t) (hfin : i = .finish → a ∉ q.phase.batch)
  | created (expiration : Nat) (intervalS : Int) (hnone : q.heap a = none)
      (hi : i = .new a expiration intervalS ∨ i = .addTimer a expiration intervalS)
      (heq : t = Timer.new expiration intervalS q.created.length)
  | restarted {t₀ : Timer} {now : Nat} {expired : List Entry} (heap : q.heap a = some t₀)
      (hi : i = .finish) (hph : q.phase = .firing now expired []) (hin : a ∈ q.phase.batch)
      (hre : t₀.repeat_ = true) (heq : t = { t₀ with expiration := now + t₀.period })

/-- Only a creation and `Reset` put something new on the heap. -/
theorem Origin.heap_kept (h : Origin q i a t) (hfin : i ≠ .finish) (hnew : ∀ e s, i ≠ .new a e s)
    (hadd : ∀ e s, i ≠ .addTimer a e s) : q.heap a = some t := by
  cases h with
  | kept heap => exact heap
  | created e s _ hi =>
    rcases hi with hi | hi
    · exact absurd hi (hnew e s)
    · exact absurd hi (hadd e s)
  | restarted _ hi => exact absurd hi hfin

/-- What a creation leaves on the heap. -/
theorem Origin.of_create (h : Origin q i a t) {b : Addr} {e : Nat} {s : Int}
    (hi : i = .new b e s ∨ i = .addTimer b e s) :
    q.heap a = some t ∨ q.heap a = none ∧ t = Timer.new e s q.created.length := by
  cases h with
  | kept heap => exact .inl heap
  | created e' s' hnone hi' heq =>
    refine .inr ⟨hnone, ?_⟩
    rcases hi with rfl | rfl <;> rcases hi' with hi' | hi' <;> cases hi' <;> exact heq
  | restarted _ hi' =>
    rw [hi'] at hi
    rcases hi with hi | hi <;> cases hi

theorem step_heap (hts : ∀ now n, ts.addTime now n = now + n * 1000000) (hq : q.Good)
    (hcon : ∀ a t, q.heap a = some t → t.Constructed) (hn : q.Next ts i q')
    (ht : q'.heap a = some t) : Origin q i a t := by
  have hupdate : ∀ {b : Addr} {e : Nat} {s : Int}, q.free b = true →
      (i = .new b e s ∨ i = .addTimer b e s) →
      Function.update q.heap b (some (Timer.new e s q.created.length)) a = some t →
      Origin q i a t := by
    intro b e s hfree hi hu
    by_cases hab : a = b
    · subst hab
      rw [Function.update_self, Option.some.injEq] at hu
      exact .created e s (free_iff hfree).1 hi hu.symm
    · rw [Function.update_of_ne hab] at hu
      refine .kept hu fun hfin => ?_
      rcases hi with rfl | rfl <;> cases hfin
  cases hn with
  | new hfree => exact hupdate hfree (.inl rfl) ht
  | addTimerInLoop _ hpend =>
    rw [(good_addTimerInLoop hq hpend).2] at ht
    exact .kept ht (by simp)
  | @addTimer b expiration intervalS hfree =>
    have hpend : b ∈ (q.allocate b expiration intervalS).pending := by simp [TimerQueue.allocate]
    rw [addTimer_eq hq hfree, (good_addTimerInLoop (good_new hq hfree _ _) hpend).2] at ht
    exact hupdate hfree (.inr rfl) ht
  | @cancelInLoop id =>
    rw [show id = toLex ((ofLex id).1, (ofLex id).2) from rfl] at ht
    rcases cancelInLoop_eq hq.owns (ofLex id).1 (ofLex id).2 with ⟨x, _, _, _, heq⟩ | ⟨_, heq⟩
    · rw [heq] at ht
      have hu : Function.update q.heap (ofLex id).1 none a = some t := ht
      by_cases hab : a = (ofLex id).1
      · rw [hab, Function.update_self] at hu
        cases hu
      · rw [Function.update_of_ne hab] at hu
        exact .kept hu (by simp)
    · have hheap : (q.cancelInLoop (toLex ((ofLex id).1, (ofLex id).2))).heap = q.heap := by
        rw [heq]
        split <;> rfl
      rw [hheap] at ht
      exact .kept ht (by simp)
  | @handleRead delay =>
    obtain ⟨fd, expired, act, heq, _⟩ := handleRead_spec hq.owns delay
    rw [heq] at ht
    exact .kept ht (by simp)
  | runNext hph =>
    obtain ⟨x, _, hrun, _⟩ := good_runNext hq hph
    rw [hrun] at ht
    exact .kept ht (by simp)
  | @finish now expired hph =>
    obtain ⟨h0, hin, hnd⟩ := hq.batch_ready hph
    have hbatch : q.phase.batch = expired.map fun e => (ofLex e).2 := by rw [hph]; rfl
    change (reset ts { q with callingExpiredTimers := false } expired now).heap a = some t at ht
    rw [(reset_kept ts now h0 hin hnd).2.2] at ht
    by_cases hb : a ∈ expired.map fun e => (ofLex e).2
    · obtain ⟨e, he, rfl⟩ := List.mem_map.mp hb
      obtain ⟨x, hx⟩ := Option.isSome_iff_exists.mp (hq.owns.indexed.allocated _ (hin e he))
      rw [foldl_resetEntry_heap ts now h0 hin hnd he hx] at ht
      split at ht
      · rename_i hre
        rw [Option.some.injEq, (restart_eq hts (hcon _ x hx) hre.1 now).1] at ht
        exact .restarted hx rfl hph (hbatch ▸ hb) hre.1 ht.symm
      · cases ht
    · rw [foldl_resetEntry_other ts now h0 hin hnd hb] at ht
      exact .kept ht fun _ => hbatch ▸ hb
  | tick => exact .kept ht (by simp)

theorem addTimerInLoop_clock (hq : q.Good) (ha : a ∈ q.pending) :
    (q.addTimerInLoop a).clock = q.clock := by
  obtain ⟨t, ht⟩ := Option.isSome_iff_exists.mp (hq.owns.indexed.allocated a (.inl ha))
  rw [addTimerInLoop_eq hq.owns.indexed ht (.inl ha)]
  split <;> rfl

theorem cancelInLoop_clock (hq : q.Good) (x : ActiveTimer) :
    (q.cancelInLoop x).clock = q.clock := by
  rw [show x = toLex ((ofLex x).1, (ofLex x).2) from rfl]
  rcases cancelInLoop_eq hq.owns (ofLex x).1 (ofLex x).2 with ⟨_, _, _, _, heq⟩ | ⟨_, heq⟩
  · rw [heq]
    rfl
  · rw [heq]
    split <;> rfl

/-! ## The starts of a timer -/

@[simp] theorem startsOf_append (h k : List Sight) (u : Nat) :
    startsOf (h ++ k) u = startsOf h u ++ startsOf k u := List.filterMap_append

@[simp] theorem startsOf_nil (u : Nat) : startsOf [] u = [] := rfl

@[simp] theorem startsOf_made (t : Timer) (u : Nat) : startsOf [.made t] u = [] := rfl

@[simp] theorem startsOf_started (v c u : Nat) :
    startsOf [.started v c] u = if v = u then [c] else [] := by
  by_cases hv : v = u <;> simp [startsOf, hv]

theorem startsOf_eq_nil {u : Nat} (hne : ∀ c, .started u c ∉ h) : startsOf h u = [] := by
  rw [startsOf, List.filterMap_eq_nil_iff]
  intro x hx
  cases x with
  | made t => rfl
  | started v c =>
    refine if_neg fun hv => ?_
    exact hne c (hv ▸ hx)

/-! ## How far the timers have come -/

/-- The time the pass has read. -/
def Phase.time : Phase → Nat
  | .idle => 0
  | .firing now _ _ => now

/-- The callback of the timer has run in this pass. -/
def Phase.ran (p : Phase) (a : Addr) : Prop := a ∈ p.batch ∧ a ∉ p.waiting

/-- The timer `t` at the address `a`, which was created as `t₀`. -/
structure Paced (h : List Sight) (q : TimerQueue) (a : Addr) (t t₀ : Timer) : Prop where
  made : .made t₀ ∈ h
  uid : t.uid = t₀.uid
  interval : t.interval = t₀.interval
  repeats : t.repeat_ = t₀.repeat_
  ahead : ¬ q.phase.ran a →
    t₀.expiration + (startsOf h t₀.uid).length * t₀.period ≤ t.expiration ∧
      (t₀.repeat_ = false → startsOf h t₀.uid = [])
  behind : q.phase.ran a → ∃ n, (startsOf h t₀.uid).length = n + 1 ∧
    t₀.expiration + n * t₀.period ≤ q.phase.time

structure Scheduled (h : List Sight) (q : TimerQueue) : Prop where
  punctual : Punctual h
  madeLt : ∀ t, .made t ∈ h → t.uid < q.created.length
  unique : ∀ t u, .made t ∈ h → .made u ∈ h → t.uid = u.uid → t = u
  paced : ∀ a t, q.heap a = some t → ∃ t₀, Paced h q a t t₀
  turn : q.phase.waiting.Nodup
  due : ∀ a ∈ q.phase.waiting, ∀ t, q.heap a = some t → t.expiration ≤ q.phase.time
  time : q.phase.time ≤ q.clock

theorem Paced.congr {t₀ : Timer} (hp : Paced h q a t t₀) (hph : q'.phase = q.phase) :
    Paced h q' a t t₀ := by
  refine ⟨hp.made, hp.uid, hp.interval, hp.repeats, ?_, ?_⟩
  · rw [hph]
    exact hp.ahead
  · rw [hph]
    exact hp.behind

/-- A step that neither creates nor starts a timer, in the same phase. -/
theorem Scheduled.quiet (hs : Scheduled h q) (hheap : ∀ a t, q'.heap a = some t → q.heap a = some t)
    (hph : q'.phase = q.phase) (hcl : q.clock ≤ q'.clock) (hcr : q'.created = q.created) :
    Scheduled h q' := by
  refine ⟨hs.punctual, ?_, hs.unique, fun a t ht => ?_, ?_, ?_, ?_⟩
  · rw [hcr]
    exact hs.madeLt
  · obtain ⟨t₀, hp⟩ := hs.paced a t (hheap a t ht)
    exact ⟨t₀, hp.congr hph⟩
  · rw [hph]
    exact hs.turn
  · rw [hph]
    exact fun a ha t ht => hs.due a ha t (hheap a t ht)
  · rw [hph]
    exact hs.time.trans hcl

/-- A timer that has just been created has not started. -/
theorem Scheduled.unstarted (hs : Scheduled h q) : startsOf h q.created.length = [] := by
  refine startsOf_eq_nil fun c hc => ?_
  obtain ⟨t, ht, huid⟩ := hs.punctual.known _ c hc
  have hlt := hs.madeLt t ht
  omega

/-- `AddTimer` creates a timer. -/
theorem Scheduled.create (hs : Scheduled h q) (hq : q.Good) {expiration : Nat} {intervalS : Int}
    (horig : ∀ b t, q'.heap b = some t → q.heap b = some t ∨
      q.heap b = none ∧ t = Timer.new expiration intervalS q.created.length)
    (hph : q'.phase = q.phase) (hcl : q'.clock = q.clock) {a : Addr}
    (hcr : q'.created = q.created ++ [a]) :
    Scheduled (h ++ [.made (Timer.new expiration intervalS q.created.length)]) q' := by
  obtain ⟨n, hn⟩ : ∃ n, n = Timer.new expiration intervalS q.created.length := ⟨_, rfl⟩
  rw [← hn] at horig ⊢
  have huid : n.uid = q.created.length := hn ▸ rfl
  have hmem : ∀ t, Sight.made t ∈ h ++ [.made n] ↔ .made t ∈ h ∨ t = n := fun t => by simp
  have hstarts : ∀ u, startsOf (h ++ [.made n]) u = startsOf h u := fun u => by simp
  have hnew : startsOf h n.uid = [] := huid ▸ hs.unstarted
  refine ⟨⟨fun t ht k c hc => ?_, fun t ht hre => ?_, fun u c hc => ?_⟩, fun t ht => ?_,
    fun t u ht hu heq => ?_, fun b t ht => ?_, ?_, fun b hb t ht => ?_, ?_⟩
  · rw [hstarts] at hc
    rcases (hmem t).mp ht with ht | rfl
    · exact hs.punctual.early t ht k c hc
    · rw [hnew] at hc
      cases hc
  · rw [hstarts]
    rcases (hmem t).mp ht with ht | rfl
    · exact hs.punctual.once t ht hre
    · rw [hnew]
      exact Nat.zero_le _
  · have hc : Sight.started u c ∈ h := by simpa using hc
    obtain ⟨t, ht, heq⟩ := hs.punctual.known u c hc
    exact ⟨t, (hmem t).mpr (.inl ht), heq⟩
  · rw [hcr, List.length_append, List.length_singleton]
    rcases (hmem t).mp ht with ht | rfl
    · have hlt := hs.madeLt t ht
      omega
    · omega
  · rcases (hmem t).mp ht with hold | rfl
    · rcases (hmem u).mp hu with hold' | rfl
      · exact hs.unique t u hold hold' heq
      · have hlt := hs.madeLt t hold
        omega
    · rcases (hmem u).mp hu with hold' | rfl
      · have hlt := hs.madeLt u hold'
        omega
      · rfl
  · rcases horig b t ht with ht | ⟨hnone, rfl⟩
    · obtain ⟨t₀, hp⟩ := hs.paced b t ht
      have hp' := hp.congr hph
      refine ⟨t₀, (hmem t₀).mpr (.inl hp.made), hp.uid, hp.interval, hp.repeats, ?_, ?_⟩
      · rw [hstarts]
        exact hp'.ahead
      · rw [hstarts]
        exact hp'.behind
    · refine ⟨t, (hmem t).mpr (.inr rfl), rfl, rfl, rfl, fun _ => ?_, fun hran => ?_⟩
      · rw [hstarts, hnew]
        simp
      · rw [hph] at hran
        exact absurd (List.mem_append_right _ hran.1) (hq.fresh hnone)
  · rw [hph]
    exact hs.turn
  · rw [hph] at hb ⊢
    rcases horig b t ht with ht | ⟨hnone, -⟩
    · exact hs.due b hb t ht
    · obtain ⟨e, he, rfl⟩ := List.mem_map.mp hb
      exact absurd (List.mem_append_right _ (hq.rest e he)) (hq.fresh hnone)
  · rw [hph, hcl]
    exact hs.time

/-- `HandleRead` takes out the timers that are due. -/
theorem Scheduled.handleRead (hs : Scheduled h q) (hq : q.Good) (hidle : q.phase.isIdle = true)
    (delay : Nat) : Scheduled h (q.handleRead delay) := by
  have hidle : q.phase = .idle := by
    cases hph : q.phase with
    | idle => rfl
    | firing now expired rest =>
      rw [hph] at hidle
      cases hidle
  obtain ⟨fd, expired, act, heq, hmem, hnd, _⟩ := handleRead_spec hq.owns delay
  have hheap : (q.handleRead delay).heap = q.heap := by rw [heq]
  have hph : (q.handleRead delay).phase = .firing q.clock expired expired := by rw [heq]
  refine ⟨hs.punctual, ?_, hs.unique, fun a t ht => ?_, ?_, fun a ha t ht => ?_, ?_⟩
  · rw [heq]
    exact hs.madeLt
  · rw [hheap] at ht
    obtain ⟨t₀, hp⟩ := hs.paced a t ht
    refine ⟨t₀, hp.made, hp.uid, hp.interval, hp.repeats, fun _ => hp.ahead ?_, ?_⟩
    · rw [hidle]
      exact fun hran => absurd hran.1 List.not_mem_nil
    · rw [hph]
      exact fun hran => absurd hran.1 hran.2
  · rw [hph]
    exact hnd
  · rw [hph] at ha ⊢
    rw [hheap] at ht
    obtain ⟨e, he, rfl⟩ := List.mem_map.mp ha
    obtain ⟨hin, hle⟩ := (hmem e).mp he
    obtain ⟨t', ht', hexp, -⟩ := hq.owns.timer_of_mem hin
    rw [ht, Option.some.injEq] at ht'
    subst ht'
    rw [hexp]
    exact hle
  · rw [hph, heq]
    exact Nat.le_add_right _ _

/-- The next callback of the batch starts. -/
theorem Scheduled.runNext (hs : Scheduled h q) (hq : q.Good) {now : Nat} {expired rest : List Entry}
    {e : Entry} (hph : q.phase = .firing now expired (e :: rest)) {x : Timer}
    (hx : q.heap (ofLex e).2 = some x) (hheap : q'.heap = q.heap)
    (hph' : q'.phase = .firing now expired rest) (hcl : q'.clock = q.clock)
    (hcr : q'.created = q.created) : Scheduled (h ++ [.started x.uid q.clock]) q' := by
  have hturn : (ofLex e).2 ∉ rest.map (fun e => (ofLex e).2) ∧
      (rest.map fun e => (ofLex e).2).Nodup := by
    have hnd := hs.turn
    rw [hph] at hnd
    exact List.nodup_cons.mp hnd
  have hbatch : (ofLex e).2 ∈ q.phase.batch := hq.rest e (by rw [hph]; exact List.mem_cons_self)
  have hwait : (ofLex e).2 ∈ q.phase.waiting := by
    rw [hph]
    exact List.mem_cons_self
  have hnow : now ≤ q.clock := by
    have htime := hs.time
    rwa [hph] at htime
  obtain ⟨x₀, hp⟩ := hs.paced _ x hx
  obtain ⟨hahead, honce⟩ := hp.ahead fun hran => hran.2 hwait
  have hdue : x.expiration ≤ now := by
    have hdue := hs.due _ hwait x hx
    rwa [hph] at hdue
  -- the timer that starts is the one created as `x₀`, and no other
  have hstarts : ∀ u, startsOf (h ++ [.started x.uid q.clock]) u =
      startsOf h u ++ if x.uid = u then [q.clock] else [] := fun u => by simp
  have hmem : ∀ t, Sight.made t ∈ h ++ [.started x.uid q.clock] ↔ .made t ∈ h := fun t => by simp
  refine ⟨⟨fun t ht k c hc => ?_, fun t ht hre => ?_, fun u c hc => ?_⟩, fun t ht => ?_,
    fun t u ht hu heq => ?_, fun b t ht => ?_, ?_, fun b hb t ht => ?_, ?_⟩
  · have ht := (hmem t).mp ht
    rw [hstarts] at hc
    by_cases huid : x.uid = t.uid
    · obtain rfl : t = x₀ := hs.unique t x₀ ht hp.made (huid.symm.trans hp.uid)
      rw [if_pos huid] at hc
      by_cases hk : k < (startsOf h t.uid).length
      · rw [List.getElem?_append_left hk] at hc
        exact hs.punctual.early t ht k c hc
      · rw [List.getElem?_append_right (by omega)] at hc
        obtain ⟨hlt, hval⟩ := List.getElem?_eq_some_iff.mp hc
        have hk : k = (startsOf h t.uid).length := by
          rw [List.length_singleton] at hlt
          omega
        have hc : c = q.clock := by
          rw [← hval]
          exact List.getElem_singleton _
        rw [hk, hc]
        omega
    · rw [if_neg huid, List.append_nil] at hc
      exact hs.punctual.early t ht k c hc
  · have ht := (hmem t).mp ht
    rw [hstarts]
    by_cases huid : x.uid = t.uid
    · obtain rfl : t = x₀ := hs.unique t x₀ ht hp.made (huid.symm.trans hp.uid)
      rw [if_pos huid, honce hre]
      exact Nat.le_refl _
    · rw [if_neg huid, List.append_nil]
      exact hs.punctual.once t ht hre
  · rcases List.mem_append.mp hc with hc | hc
    · obtain ⟨t, ht, heq⟩ := hs.punctual.known u c hc
      exact ⟨t, (hmem t).mpr ht, heq⟩
    · obtain ⟨rfl, -⟩ := Sight.started.inj (List.mem_singleton.mp hc)
      exact ⟨x₀, (hmem x₀).mpr hp.made, hp.uid.symm⟩
  · rw [hcr]
    exact hs.madeLt t ((hmem t).mp ht)
  · exact hs.unique t u ((hmem t).mp ht) ((hmem u).mp hu) heq
  · rw [hheap] at ht
    by_cases hb : b = (ofLex e).2
    · subst hb
      rw [hx, Option.some.injEq] at ht
      subst ht
      refine ⟨x₀, (hmem x₀).mpr hp.made, hp.uid, hp.interval, hp.repeats, fun hran => ?_,
        fun _ => ?_⟩
      · refine absurd ⟨?_, ?_⟩ hran
        · rw [hph] at hbatch
          rw [hph']
          exact hbatch
        · rw [hph']
          exact hturn.1
      · refine ⟨(startsOf h x₀.uid).length, ?_, ?_⟩
        · rw [hstarts, if_pos hp.uid, List.length_append, List.length_singleton]
        · rw [hph']
          exact hahead.trans hdue
    · obtain ⟨t₀, hpt⟩ := hs.paced b t ht
      have hne : x.uid ≠ t₀.uid := fun heq =>
        hb (hq.owns.accounted.addr_eq hx ht (heq.trans hpt.uid.symm)).symm
      have hran : q'.phase.ran b ↔ q.phase.ran b := by
        rw [hph, hph']
        show _ ∧ b ∉ rest.map _ ↔ _ ∧ b ∉ (e :: rest).map _
        rw [List.map_cons, List.mem_cons, not_or]
        exact and_congr_right fun _ => ⟨fun hn => ⟨hb, hn⟩, fun hn => hn.2⟩
      have htime : q'.phase.time = q.phase.time := by
        rw [hph, hph']
        rfl
      refine ⟨t₀, (hmem t₀).mpr hpt.made, hpt.uid, hpt.interval, hpt.repeats, ?_, ?_⟩
      · rw [hran, hstarts, if_neg hne, List.append_nil]
        exact hpt.ahead
      · rw [hran, hstarts, if_neg hne, List.append_nil, htime]
        exact hpt.behind
  · rw [hph']
    exact hturn.2
  · rw [hph'] at hb ⊢
    rw [hheap] at ht
    have hdue := hs.due b (by rw [hph]; exact List.mem_cons_of_mem _ hb) t ht
    rwa [hph] at hdue
  · rw [hph', hcl]
    exact hnow

/-- `Reset` puts the repeating timers back. -/
theorem Scheduled.finish (hs : Scheduled h q) {now : Nat} {expired : List Entry}
    (hph : q.phase = .firing now expired [])
    (horig : ∀ a t, q'.heap a = some t → Origin q .finish a t) (hph' : q'.phase = .idle)
    (hcr : q'.created = q.created) : Scheduled h q' := by
  have hnone : ∀ a, ¬ q'.phase.ran a := fun a hran => by
    rw [hph'] at hran
    exact absurd hran.1 List.not_mem_nil
  refine ⟨hs.punctual, ?_, hs.unique, fun a t ht => ?_, ?_, fun a ha => ?_, ?_⟩
  · rw [hcr]
    exact hs.madeLt
  · cases horig a t ht with
    | kept heap hout =>
      obtain ⟨t₀, hp⟩ := hs.paced a t heap
      exact ⟨t₀, hp.made, hp.uid, hp.interval, hp.repeats,
        fun _ => hp.ahead fun hran => hout rfl hran.1, fun hran => absurd hran (hnone a)⟩
    | created expiration intervalS hno hi => rcases hi with hi | hi <;> cases hi
    | @restarted x now' expired' heap _ hph₂ hin hre heq =>
      obtain ⟨t₀, hp⟩ := hs.paced a x heap
      rw [hph] at hph₂
      cases hph₂
      obtain ⟨n, hlen, hle⟩ := hp.behind ⟨hin, by rw [hph]; exact List.not_mem_nil⟩
      rw [hph] at hle
      have hper : x.period = t₀.period := by rw [Timer.period, hp.interval, Timer.period]
      subst heq
      refine ⟨t₀, hp.made, hp.uid, hp.interval, hp.repeats, fun _ => ⟨?_, fun hno => ?_⟩,
        fun hran => absurd hran (hnone a)⟩
      · show t₀.expiration + _ * t₀.period ≤ now + x.period
        rw [hlen, hper, Nat.add_mul, Nat.one_mul]
        have hle : t₀.expiration + n * t₀.period ≤ now := hle
        omega
      · rw [← hp.repeats, hre] at hno
        cases hno
  · rw [hph']
    exact List.nodup_nil
  · rw [hph'] at ha
    exact absurd ha List.not_mem_nil
  · rw [hph']
    exact Nat.zero_le _

/-- **One step.** -/
theorem step_scheduled (hts : ∀ now n, ts.addTime now n = now + n * 1000000) (hq : q.Good)
    (hcon : ∀ a t, q.heap a = some t → t.Constructed) (hs : Scheduled h q) (hn : q.Next ts i q') :
    Scheduled (h ++ sights q i q') q' := by
  have horig : ∀ a t, q'.heap a = some t → Origin q i a t := fun a t ht =>
    step_heap hts hq hcon hn ht
  cases hn with
  | new hfree => exact hs.create hq (fun b t ht => (horig b t ht).of_create (.inl rfl)) rfl rfl rfl
  | addTimerInLoop _ hpend =>
    rw [show sights q (.addTimerInLoop _) _ = [] from rfl, List.append_nil]
    refine hs.quiet (fun a t ht => (horig a t ht).heap_kept (by simp) (by simp) (by simp))
      (addTimerInLoop_frame hq hpend).2.1 ?_ (addTimerInLoop_created hq hpend)
    exact (addTimerInLoop_clock hq hpend).ge
  | @addTimer a expiration intervalS hfree =>
    have hpend : a ∈ (q.allocate a expiration intervalS).pending := by simp [TimerQueue.allocate]
    refine hs.create hq (fun b t ht => (horig b t ht).of_create (.inr rfl))
      (addTimer_frame hq hfree expiration intervalS).2.1 ?_
      (addTimer_created hq hfree expiration intervalS)
    rw [addTimer_eq hq hfree, addTimerInLoop_clock (good_new hq hfree _ _) hpend]
    rfl
  | @cancelInLoop id =>
    rw [show sights q (.cancelInLoop id) _ = [] from rfl, List.append_nil]
    exact hs.quiet (fun a t ht => (horig a t ht).heap_kept (by simp) (by simp) (by simp))
      (cancelInLoop_frame hq id).2.1 (cancelInLoop_clock hq id).ge (cancelInLoop_created hq id)
  | handleRead hidle =>
    rw [show sights q (.handleRead _) _ = [] from rfl, List.append_nil]
    exact hs.handleRead hq hidle _
  | runNext hph =>
    obtain ⟨x, hx, hrun, _⟩ := good_runNext hq hph
    rw [hrun]
    have hsight : ∀ r, sights q .runNext r = [.started x.uid q.clock] := fun r => by
      simp only [sights, hph, hx]
    rw [hsight]
    exact hs.runNext hq hph hx rfl rfl rfl rfl
  | @finish now expired hph =>
    rw [show sights q .finish _ = [] from rfl, List.append_nil]
    obtain ⟨h0, hin, hnd⟩ := hq.batch_ready hph
    exact hs.finish hph horig rfl (reset_kept ts now h0 hin hnd).2.1
  | tick =>
    rw [show sights q (.tick _) _ = [] from rfl, List.append_nil]
    exact hs.quiet (fun _ _ ht => ht) rfl (Nat.le_add_right _ _) rfl

/-! ## Whole runs -/

theorem scheduled_init (clock : Nat) : Scheduled [] (init clock) := by
  refine ⟨⟨?_, ?_, ?_⟩, ?_, ?_, ?_, List.nodup_nil, ?_, Nat.zero_le _⟩ <;>
    simp [init, Phase.waiting, Phase.rest]

end Steps

/-- **No timer is early, and none starts too often.** In every run of the queue, of the timers
created and the callbacks started: the start number `k` of a timer, counted from 0, is not before
its expiration and `k` of its intervals, a timer without repetition starts once at most, and
only timers that have been created start. -/
theorem starts_punctual (ts : Timestamps) (hts : ∀ now n, ts.addTime now n = now + n * 1000000)
    (clock : Nat) (ins : List Input) (hins : ∀ i ∈ ins, i.IntRange) (q : TimerQueue)
    (hr : Machine.run (step ts) (init clock) ins = some q) :
    Punctual (Machine.trace (step ts) sights (init clock) ins) := by
  have hal : Machine.Along (step ts) (fun _ i => i.IntRange) (init clock) ins :=
    Machine.along_of_mem (fun i hi _ => hins i hi) _
  have hinv := Machine.trace_invariant_along
    (P := fun h q => q.Good ∧ (∀ a t, q.heap a = some t → t.Constructed) ∧ Scheduled h q)
    (fun hP hi hs => ⟨step_timers_good hP.1 (step_next hs),
      step_constructed hP.1 hP.2.1 hi (step_next hs),
      step_scheduled hts hP.1 hP.2.1 hP.2.2 (step_next hs)⟩)
    ⟨good_init clock, fun _ _ hx => (by cases hx), scheduled_init clock⟩ hal hr
  exact hinv.2.2.punctual

/-- A timer repeats every second; its first pass is late, and the second one is on time. -/
theorem starts_punctual_late_pass : ∃ q,
    Machine.run (step ⟨fun now n => now + n * 1000000, 0⟩) (init 1000)
      [.addTimer 16 2000 1, .tick 700000, .handleRead 5, .runNext, .finish, .tick 1000000,
        .handleRead 5, .runNext, .finish] = some q ∧
    Machine.trace (step ⟨fun now n => now + n * 1000000, 0⟩) sights (init 1000)
      [.addTimer 16 2000 1, .tick 700000, .handleRead 5, .runNext, .finish, .tick 1000000,
        .handleRead 5, .runNext, .finish] =
      [.made ⟨2000, 1, true, 0, 0⟩, .started 0 701005, .started 0 1701010] ∧
    Punctual [.made ⟨2000, 1, true, 0, 0⟩, .started 0 701005, .started 0 1701010] := by
  have htrace : Machine.trace (step ⟨fun now n => now + n * 1000000, 0⟩) sights (init 1000)
      [.addTimer 16 2000 1, .tick 700000, .handleRead 5, .runNext, .finish, .tick 1000000,
        .handleRead 5, .runNext, .finish] =
      [.made ⟨2000, 1, true, 0, 0⟩, .started 0 701005, .started 0 1701010] := by decide +kernel
  obtain ⟨q, hr⟩ := Option.isSome_iff_exists.mp (show (Machine.run
      (step ⟨fun now n => now + n * 1000000, 0⟩) (init 1000)
      [.addTimer 16 2000 1, .tick 700000, .handleRead 5, .runNext, .finish, .tick 1000000,
        .handleRead 5, .runNext, .finish]).isSome = true by decide +kernel)
  refine ⟨q, hr, htrace, ?_⟩
  rw [← htrace]
  exact starts_punctual _ (fun _ _ => rfl) 1000 _ (by simp [Input.IntRange]) q hr

end TimerQueue

end LinuxNet
