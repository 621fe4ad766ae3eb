import LinuxNet.Timer.Lateness

/-!
# The rate of a repeating timer

`Restart` counts the interval from the time the pass has read and not from the last expiration,
so a repeating timer drifts: every pass that comes late moves all later starts. A loop that keeps
its promise bounds the drift. From one start to the next it is never more than the interval and
the delay of one pass, so the number of starts up to any moment lies between two straight lines.
-/

namespace LinuxNet

set_option autoImplicit false

open LinuxNet.Lib

namespace TimerQueue

/-- The interval together with the delay of one pass. -/
def Service.cycle (v : Service) (t : Timer) : Nat := t.period + v.atPass

/-- How far the timer `t` at the address `a`, which was created as `t₀`, may have drifted. -/
structure Slack (v : Service) (h : List Sight) (q : TimerQueue) (a : Addr) (t t₀ : Timer) :
    Prop where
  ahead : ¬ q.phase.ran a →
    t.expiration ≤ t₀.expiration + (startsOf h t₀.uid).length * v.cycle t₀
  behind : q.phase.ran a → ∃ n, (startsOf h t₀.uid).length = n + 1 ∧
    q.phase.time ≤ t₀.expiration + n * v.cycle t₀ + v.atPass

/-- No start has been late, and no timer is about to be. -/
structure Regular (v : Service) (h : List Sight) (q : TimerQueue) : Prop where
  late : ∀ t, .made t ∈ h → ∀ k c, (startsOf h t.uid)[k]? = some c →
    c ≤ t.expiration + k * v.cycle t + v.bound
  slack : ∀ a t, q.heap a = some t → ∀ t₀, .made t₀ ∈ h → t₀.uid = t.uid → Slack v h q a t t₀

section Steps

variable {v : Service} {ts : Timestamps} {q q' : TimerQueue} {i : Input} {h : List Sight}
  {a : Addr} {t : Timer}

/-- The timer on the heap is one of those created, and only one. -/
theorem Scheduled.maker (hs : Scheduled h q) (ht : q.heap a = some t) {t₀ : Timer}
    (hmade : .made t₀ ∈ h) (huid : t₀.uid = t.uid) : Paced h q a t t₀ := by
  obtain ⟨t₁, hp⟩ := hs.paced a t ht
  obtain rfl : t₀ = t₁ := hs.unique t₀ t₁ hmade hp.made (huid.trans hp.uid)
  exact hp

/-- A step that neither creates nor starts a timer, in the same phase. -/
theorem Regular.quiet (hr : Regular v h q) (hheap : ∀ a t, q'.heap a = some t → q.heap a = some t)
    (hph : q'.phase = q.phase) : Regular v h q' := by
  refine ⟨hr.late, fun a t ht t₀ hmade huid => ?_⟩
  have hslack := hr.slack a t (hheap a t ht) t₀ hmade huid
  constructor
  · rw [hph]
    exact hslack.ahead
  · rw [hph]
    exact hslack.behind

/-- `AddTimer` creates a timer, which has not started. -/
theorem Regular.create (hr : Regular v h q) (hs : Scheduled h q) (hq : q.Good) {expiration : Nat}
    {intervalS : Int} (horig : ∀ b t, q'.heap b = some t → q.heap b = some t ∨
      q.heap b = none ∧ t = Timer.new expiration intervalS q.created.length)
    (hph : q'.phase = q.phase) :
    Regular v (h ++ [.made (Timer.new expiration intervalS q.created.length)]) q' := by
  generalize hn : Timer.new expiration intervalS q.created.length = n at horig ⊢
  have huid : n.uid = q.created.length := by rw [← hn]; rfl
  have hstarts : ∀ u, startsOf (h ++ [.made n]) u = startsOf h u := by simp
  have hnew : startsOf h n.uid = [] := by
    rw [huid]
    exact hs.unstarted
  have hcases : ∀ {t}, Sight.made t ∈ h ++ [.made n] → .made t ∈ h ∨ t = n := by
    intro t ht
    simpa using ht
  constructor
  · intro t ht k c hc
    rw [hstarts] at hc
    rcases hcases ht with hold | rfl
    · exact hr.late t hold k c hc
    · rw [hnew] at hc
      cases hc
  · intro b t ht t₀ hmade heq
    rcases horig b t ht with hold | ⟨hnone, rfl⟩
    · rcases hcases hmade with hmade | rfl
      · have hslack := hr.slack b t hold t₀ hmade heq
        constructor
        · rw [hph, hstarts]
          exact hslack.ahead
        · rw [hph, hstarts]
          exact hslack.behind
      · obtain ⟨t₁, hp⟩ := hs.paced b t hold
        have hlt := hs.madeLt t₁ hp.made
        have hne : t.uid = t₁.uid := hp.uid
        omega
    · rcases hcases hmade with hmade | rfl
      · have hlt := hs.madeLt t₀ hmade
        omega
      · refine ⟨fun _ => Nat.le_add_right _ _, fun hran => ?_⟩
        rw [hph] at hran
        exact absurd (List.mem_append_right _ hran.1) (hq.fresh hnone)

/-- `HandleRead` begins a pass: no timer of it has run. -/
theorem Regular.handleRead (hr : Regular v h q) (hidle : q.phase.isIdle = true) {delay : Nat}
    (hq : q.Good) : Regular v h (q.handleRead delay) := by
  obtain ⟨fd, expired, act, heq, -⟩ := handleRead_spec hq.owns delay
  have hnone : ∀ a, ¬ q.phase.ran a := by
    intro a hran
    cases hph : q.phase with
    | idle =>
      rw [hph] at hran
      exact absurd hran.1 List.not_mem_nil
    | firing now expired rest =>
      rw [hph] at hidle
      cases hidle
  refine ⟨hr.late, fun a t ht t₀ hmade huid => ?_⟩
  rw [heq] at ht ⊢
  have hslack := hr.slack a t ht t₀ hmade huid
  exact ⟨fun _ => hslack.ahead (hnone a), fun hran => absurd hran.1 hran.2⟩

/-- The next callback of the batch starts, in time. -/
theorem Regular.runNext (hr : Regular v h q) (hs : Scheduled h q) (hv : q.Timely v) (hq : q.Good)
    {now : Nat} {expired rest : List Entry} {e : Entry}
    (hph : q.phase = .firing now expired (e :: rest)) {x : Timer}
    (hx : q.heap (ofLex e).2 = some x) (hheap : q'.heap = q.heap)
    (hph' : q'.phase = .firing now expired rest) :
    Regular v (h ++ [.started x.uid q.clock]) q' := by
  have hprompt := hv.prompt now expired (e :: rest) hph
  have hturn : (ofLex e).2 ∉ rest.map (fun e => (ofLex e).2) := by
    have hnd := hs.turn
    rw [hph] at hnd
    exact (List.nodup_cons.mp hnd).1
  have hwait : (ofLex e).2 ∈ q.phase.waiting := by
    rw [hph]
    exact List.mem_cons_self
  have hbatch : (ofLex e).2 ∈ q.phase.batch := hq.rest e (by rw [hph]; exact List.mem_cons_self)
  have hdue : now ≤ x.expiration + v.atPass := by
    rw [hph] at hbatch
    obtain ⟨e', he', haddr⟩ := List.mem_map.mp hbatch
    exact hprompt.batch e' he' x (by rw [haddr]; exact hx)
  obtain ⟨x₀, hp⟩ := hs.paced _ x hx
  have hahead := (hr.slack _ x hx x₀ hp.made hp.uid.symm).ahead fun hran => hran.2 hwait
  have hclock := hprompt.clock
  have hstarts : ∀ u, startsOf (h ++ [.started x.uid q.clock]) u =
      startsOf h u ++ if x.uid = u then [q.clock] else [] := by simp
  have hmem : ∀ {t}, Sight.made t ∈ h ++ [.started x.uid q.clock] → .made t ∈ h := by simp
  constructor
  · intro t ht k c hc
    have ht := hmem ht
    rw [hstarts] at hc
    by_cases huid : x.uid = t.uid
    · obtain rfl : t = x₀ := hs.unique t x₀ ht hp.made (huid.symm.trans hp.uid)
      rw [if_pos huid] at hc
      by_cases hk : k < (startsOf h t.uid).length
      · rw [List.getElem?_append_left hk] at hc
        exact hr.late t ht k c hc
      · rw [List.getElem?_append_right (by omega)] at hc
        obtain ⟨hlt, hval⟩ := List.getElem?_eq_some_iff.mp hc
        rw [List.length_singleton] at hlt
        have hk : k = (startsOf h t.uid).length := by omega
        have hc : c = q.clock := by
          rw [← hval]
          exact List.getElem_singleton _
        rw [hk, hc, Service.bound]
        omega
    · rw [if_neg huid, List.append_nil] at hc
      exact hr.late t ht k c hc
  · intro b t ht t₀ hmade huid
    have hmade := hmem hmade
    rw [hheap] at ht
    by_cases hb : b = (ofLex e).2
    · subst hb
      obtain rfl : x = t := Option.some.inj (hx.symm.trans ht)
      obtain rfl : t₀ = x₀ := hs.unique t₀ x₀ hmade hp.made (huid.trans hp.uid)
      constructor
      · intro hran
        refine absurd ⟨?_, ?_⟩ hran
        · rw [hph] at hbatch
          rw [hph']
          exact hbatch
        · rw [hph']
          exact hturn
      · intro _
        refine ⟨(startsOf h t₀.uid).length, ?_, ?_⟩
        · rw [hstarts, if_pos hp.uid, List.length_append, List.length_singleton]
        · rw [hph']
          show now ≤ _
          omega
    · have hne : x.uid ≠ t₀.uid := fun heq =>
        hb (hq.owns.accounted.addr_eq hx ht (heq.trans huid)).symm
      have hran : q'.phase.ran b ↔ q.phase.ran b := by
        rw [hph, hph']
        show _ ∧ b ∉ rest.map _ ↔ _ ∧ b ∉ (e :: rest).map _
        rw [List.map_cons, List.mem_cons, not_or]
        exact and_congr_right fun _ => ⟨fun hn => ⟨hb, hn⟩, fun hn => hn.2⟩
      have htime : q'.phase.time = q.phase.time := by
        rw [hph, hph']
        rfl
      have hslack := hr.slack b t ht t₀ hmade huid
      constructor
      · rw [hran, hstarts, if_neg hne, List.append_nil]
        exact hslack.ahead
      · rw [hran, hstarts, if_neg hne, List.append_nil, htime]
        exact hslack.behind

/-- `Reset` counts the interval from the time of the pass. -/
theorem Regular.finish (hr : Regular v h q) (hs : Scheduled h q) {now : Nat} {expired : List Entry}
    (hph : q.phase = .firing now expired [])
    (horig : ∀ a t, q'.heap a = some t → Origin q .finish a t) (hph' : q'.phase = .idle) :
    Regular v h q' := by
  have hnone : ∀ a, ¬ q'.phase.ran a := fun a hran => by
    rw [hph'] at hran
    exact absurd hran.1 List.not_mem_nil
  refine ⟨hr.late, fun a t ht t₀ hmade huid => ⟨fun _ => ?_, fun hran => absurd hran (hnone a)⟩⟩
  cases horig a t ht with
  | kept heap hout =>
    exact (hr.slack a t heap t₀ hmade huid).ahead fun hran => hout rfl hran.1
  | created expiration intervalS hno hi => rcases hi with hi | hi <;> cases hi
  | @restarted x now' expired' heap _ hph₂ hin hre heq =>
    rw [hph] at hph₂
    cases hph₂
    subst heq
    have hp := hs.maker heap hmade huid
    obtain ⟨n, hlen, hle⟩ := (hr.slack a x heap t₀ hmade huid).behind
      ⟨hin, by rw [hph]; exact List.not_mem_nil⟩
    rw [hph] at hle
    have hle : now ≤ t₀.expiration + n * v.cycle t₀ + v.atPass := hle
    have hper : x.period = t₀.period := by rw [Timer.period, hp.interval, Timer.period]
    have hcycle : v.cycle t₀ = t₀.period + v.atPass := rfl
    show now + x.period ≤ _
    rw [hlen, hper, Nat.add_mul, Nat.one_mul]
    omega

/-- **One step.** -/
theorem step_regular (hts : ∀ now n, ts.addTime now n = now + n * 1000000) (hq : q.Good)
    (hcon : ∀ a t, q.heap a = some t → t.Constructed) (hs : Scheduled h q) (hv : q.Timely v)
    (hr : Regular v h q) (hn : q.Next ts i q') : Regular v (h ++ sights q i q') q' := by
  have horig : ∀ a t, q'.heap a = some t → Origin q i a t := fun a t ht =>
    step_heap hts hq hcon hn ht
  cases hn with
  | new => exact hr.create hs hq (fun b t ht => (horig b t ht).of_create (.inl rfl)) rfl
  | addTimerInLoop _ hpend =>
    rw [show sights q (.addTimerInLoop _) _ = [] from rfl, List.append_nil]
    exact hr.quiet (fun a t ht => (horig a t ht).heap_kept (by simp) (by simp) (by simp))
      (addTimerInLoop_frame hq hpend).2.1
  | @addTimer a expiration intervalS hfree =>
    exact hr.create hs hq (fun b t ht => (horig b t ht).of_create (.inr rfl))
      (addTimer_frame hq hfree expiration intervalS).2.1
  | @cancelInLoop id =>
    rw [show sights q (.cancelInLoop id) _ = [] from rfl, List.append_nil]
    exact hr.quiet (fun a t ht => (horig a t ht).heap_kept (by simp) (by simp) (by simp))
      (cancelInLoop_frame hq id).2.1
  | handleRead hidle =>
    rw [show sights q (.handleRead _) _ = [] from rfl, List.append_nil]
    exact hr.handleRead hidle hq
  | runNext hph =>
    obtain ⟨x, hx, hrun, _⟩ := good_runNext hq hph
    rw [hrun]
    have hsight : ∀ r, sights q .runNext r = [.started x.uid q.clock] := fun r => by
      simp only [sights, hph, hx]
    rw [hsight]
    exact hr.runNext hs hv hq hph hx rfl rfl
  | finish hph =>
    rw [show sights q .finish _ = [] from rfl, List.append_nil]
    exact hr.finish hs hph horig rfl
  | tick =>
    rw [show sights q (.tick _) _ = [] from rfl, List.append_nil]
    exact hr.quiet (fun _ _ ht => ht) rfl

/-- The timer is still there, so it has started often enough. -/
theorem Regular.clock_le (hr : Regular v h q) (hv : q.Timely v) (hq : q.Good)
    (ht : q.heap a = some t) (hpend : a ∉ q.pending) {t₀ : Timer} (hmade : .made t₀ ∈ h)
    (huid : t₀.uid = t.uid) :
    q.clock ≤ t₀.expiration + (startsOf h t₀.uid).length * v.cycle t₀ + v.bound := by
  have hslack := hr.slack a t ht t₀ hmade huid
  by_cases hran : q.phase.ran a
  · obtain ⟨n, hlen, htime⟩ := hslack.behind hran
    cases hph : q.phase with
    | idle =>
      rw [hph] at hran
      exact absurd hran.1 List.not_mem_nil
    | firing now expired rest =>
      have hclock := (hv.prompt now expired rest hph).clock
      rw [hph] at htime
      have htime : now ≤ t₀.expiration + n * v.cycle t₀ + v.atPass := htime
      rw [hlen, Nat.add_mul, Nat.one_mul, Service.bound]
      omega
  · have hahead := hslack.ahead hran
    have hclock := hv.clock_le hq ht hpend
    omega

end Steps

/-! ## Whole runs -/

/-- **A repeating timer keeps its rate.** In every run in which the loop keeps its promise, the
start number `k` of a timer, counted from 0, is not before `k` intervals behind its expiration,
and not after `k` intervals and as many delays of a pass, up to `bound`. As long as the timer is
there the next start is not overdue, so by any moment it has started as often as that says. -/
theorem timer_rate (v : Service) (ts : Timestamps)
    (hts : ∀ now n, ts.addTime now n = now + n * 1000000) (clock : Nat) (ins : List Input)
    (hserved : Machine.Along (step ts) (fun q i => i.IntRange ∧ q.Served v i) (init clock) ins)
    (q : TimerQueue) (hr : Machine.run (step ts) (init clock) ins = some q) (hw : q.SmallWaits)
    (h : List Sight) (hh : h = Machine.trace (step ts) sights (init clock) ins) (t₀ : Timer)
    (hmade : .made t₀ ∈ h) :
    (∀ k c, (startsOf h t₀.uid)[k]? = some c →
      t₀.expiration + k * t₀.period ≤ c ∧ c ≤ t₀.expiration + k * v.cycle t₀ + v.bound) ∧
    ∀ a t, q.heap a = some t → t.uid = t₀.uid → a ∉ q.pending →
      q.clock ≤ t₀.expiration + (startsOf h t₀.uid).length * v.cycle t₀ + v.bound := by
  have hinit : (init clock).Timely v := by
    refine ⟨fun _ e he => ?_, fun now expired rest hf => ?_⟩
    · exact absurd he (OrderedSet.not_mem_empty e)
    · cases hf
  have hfresh : Regular v [] (init clock) := by
    refine ⟨fun t ht => absurd ht List.not_mem_nil, fun a t ht => ?_⟩
    cases ht
  have hinv := Machine.trace_invariant_along
    (P := fun h q => q.Good ∧ (∀ a t, q.heap a = some t → t.Constructed) ∧ Scheduled h q ∧
      (q.SmallWaits → q.Timely v ∧ Regular v h q))
    (fun hP hG hs => by
      obtain ⟨hgood, hcon, hsch, hrest⟩ := hP
      have hn := step_next hs
      refine ⟨step_timers_good hgood hn, step_constructed hgood hcon hG.1 hn,
        step_scheduled hts hgood hcon hsch hn, fun hw => ?_⟩
      obtain ⟨hv, hreg⟩ := hrest (hw.before hgood hn)
      exact ⟨step_timely hts hgood hcon hv hG.2 hw hn,
        step_regular hts hgood hcon hsch hv hreg hn⟩)
    ⟨good_init clock, fun _ _ hx => (by cases hx), scheduled_init clock,
      fun _ => ⟨hinit, hfresh⟩⟩ hserved hr
  rw [← hh] at hinv
  obtain ⟨hgood, -, hsch, hrest⟩ := hinv
  obtain ⟨hv, hreg⟩ := hrest hw
  refine ⟨fun k c hc => ⟨?_, ?_⟩, fun a t ht huid hpend => ?_⟩
  · exact hsch.punctual.early t₀ hmade k c hc
  · exact hreg.late t₀ hmade k c hc
  · exact hreg.clock_le hv hgood ht hpend hmade huid.symm

/-- A timer that repeats every second. The first pass is 200 microseconds behind it, which moves
the second start as well. -/
theorem timer_rate_second_start : ∃ q t,
    Machine.run (step ⟨fun now n => now + n * 1000000, 0⟩) (init 1000)
      [.addTimer 16 2000 1, .tick 1200, .handleRead 50, .runNext, .tick 100, .finish, .tick 1000050,
        .handleRead 20, .runNext, .finish] = some q ∧
    Machine.trace (step ⟨fun now n => now + n * 1000000, 0⟩) sights (init 1000)
      [.addTimer 16 2000 1, .tick 1200, .handleRead 50, .runNext, .tick 100, .finish, .tick 1000050,
        .handleRead 20, .runNext, .finish] =
      [.made ⟨2000, 1, true, 0, 0⟩, .started 0 2250, .started 0 1002420] ∧
    (2000 + 1 * 1000000 ≤ 1002420 ∧
      1002420 ≤ 2000 + 1 * Service.cycle ⟨300, 200, 0⟩ ⟨2000, 1, true, 0, 0⟩ +
        Service.bound ⟨300, 200, 0⟩) ∧
    q.heap 16 = some t ∧ t.expiration = 2002400 ∧
    q.clock ≤ 2000 + 2 * Service.cycle ⟨300, 200, 0⟩ ⟨2000, 1, true, 0, 0⟩ +
      Service.bound ⟨300, 200, 0⟩ := by
  have htrace : Machine.trace (step ⟨fun now n => now + n * 1000000, 0⟩) sights (init 1000)
      [.addTimer 16 2000 1, .tick 1200, .handleRead 50, .runNext, .tick 100, .finish, .tick 1000050,
        .handleRead 20, .runNext, .finish] =
      [.made ⟨2000, 1, true, 0, 0⟩, .started 0 2250, .started 0 1002420] := by decide +kernel
  obtain ⟨q, hr, hq⟩ := Option.map_eq_some_iff.mp (show (Machine.run
      (step ⟨fun now n => now + n * 1000000, 0⟩) (init 1000)
      [.addTimer 16 2000 1, .tick 1200, .handleRead 50, .runNext, .tick 100, .finish, .tick 1000050,
        .handleRead 20, .runNext, .finish]).map (fun q => (q.heap 16, q.pending, q.resets)) =
      some (some ⟨2002400, 1, true, 0, 0⟩, [], [(2000, 1000), (1002200, 2350), (2002400, 1002420)])
      by decide +kernel)
  simp only [Prod.mk.injEq] at hq
  obtain ⟨ht, hpend, hres⟩ := hq
  have hw : q.SmallWaits := by
    intro r hrm
    rw [hres] at hrm
    simp only [List.mem_cons, List.not_mem_nil, or_false] at hrm
    rcases hrm with rfl | rfl | rfl <;> constructor <;> decide
  have hserved : Machine.Along (step ⟨fun now n => now + n * 1000000, 0⟩)
      (fun q i => i.IntRange ∧ q.Served ⟨300, 200, 0⟩ i) (init 1000)
      [.addTimer 16 2000 1, .tick 1200, .handleRead 50, .runNext, .tick 100, .finish, .tick 1000050,
        .handleRead 20, .runNext, .finish] := by decide +kernel
  obtain ⟨hstarts, hnext⟩ := timer_rate ⟨300, 200, 0⟩ _ (fun _ _ => rfl) 1000 _ hserved q hr hw _
    htrace.symm ⟨2000, 1, true, 0, 0⟩ List.mem_cons_self
  refine ⟨q, _, hr, htrace, hstarts 1 1002420 rfl, ht, rfl, ?_⟩
  exact hnext 16 _ ht rfl (by rw [hpend]; exact List.not_mem_nil)

end TimerQueue

end LinuxNet
