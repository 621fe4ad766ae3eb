import LinuxNet.Udp.Model

/-!
# The threads of a `UDPWorkder`

A thread leaves `OnThreadProcessPacket` when it finds `running_` false or when `Pop` gives it an
empty packet, which is meant to come from `Wakeup`. `Pop` tests the queue again only once behind
`cond_.wait`, so that a thread which was woken for a packet returns if another one has taken the
packet (`FindsNothing`). At the other end `Stop` calls `notify_one` a single time, before a
thread that has already found `running_` true reaches `cond_.wait`, and for one of the threads
that are waiting there.
-/

namespace LinuxNet

set_option autoImplicit false

open LinuxNet.Lib

/-- Not on the way out of `OnThreadProcessPacket`. -/
def WorkerPc.Busy (pc : WorkerPc) : Prop :=
  pc ≠ .returned ∧ ∀ pkt, pc = .popped pkt → 0 < pkt.effective

namespace UDPWorkder

/-! ## Threads that return -/

/-- No thread has returned while the worker is running. -/
def Survives (s : UDPWorkder) : Prop := s.running = true → .returned ∉ s.threadList

/-- A thread that was woken takes the mutex again and finds the queue empty, while `running_`
is true. -/
def findsNothing (s : UDPWorkder) : Input → Bool
  | .work w => s.running && s.threadList[w]? == some .notified && s.pktQueue.isEmpty
  | _ => false

/-- What holds as long as no thread finds nothing. -/
structure Staffed (s : UDPWorkder) : Prop where
  queue : ∀ pkt ∈ s.pktQueue, 0 < pkt.effective
  threads : s.running = true → ∀ pc ∈ s.threadList, pc.Busy

section Surviving

variable {s s' : UDPWorkder} {i : Input} {q q' : List DatagramPacket} {pc pc' : WorkerPc}

theorem staffed_init (threadNums : Nat) : (init threadNums).Staffed where
  queue := by simp [init]
  threads := by
    intro _ pc hpc
    rw [List.eq_of_mem_replicate hpc]
    exact ⟨by decide, by simp⟩

theorem Staffed.survives (h : s.Staffed) : s.Survives :=
  fun hrun hret => (h.threads hrun _ hret).1 rfl

/-- A thread takes packets out of the queue, and adds none. -/
theorem onThreadProcessPacket_queue {running : Bool}
    (h : onThreadProcessPacket running q pc = some (q', pc')) : ∀ pkt ∈ q', pkt ∈ q := by
  have hpop : q' = q ∨ ∃ pkt, q = pkt :: q' := by
    cases pc <;> cases q <;> simp_all [onThreadProcessPacket, pop, popNotified]
  rcases hpop with rfl | ⟨pkt, rfl⟩
  · exact fun _ hm => hm
  · exact fun _ hm => List.mem_cons_of_mem pkt hm

/-- A busy thread does not return while the worker is running. -/
theorem not_returned_of_busy (hb : pc.Busy)
    (h : onThreadProcessPacket true q pc = some (q', pc')) : pc' ≠ .returned := by
  rintro rfl
  cases pc with
  | testing | handling | waiting | returned => simp [onThreadProcessPacket] at h
  | popping | notified => cases q <;> simp [onThreadProcessPacket, pop, popNotified] at h
  | popped pkt =>
    have hpkt : pkt.effective ≠ 0 := Nat.pos_iff_ne_zero.mp (hb.2 pkt rfl)
    simp [onThreadProcessPacket, hpkt] at h

/-- It stays busy, unless it was woken and finds nothing. -/
theorem busy_of_busy (hb : pc.Busy) (hq : ∀ pkt ∈ q, 0 < pkt.effective)
    (hfound : pc = .notified → q ≠ [])
    (h : onThreadProcessPacket true q pc = some (q', pc')) : pc'.Busy := by
  refine ⟨not_returned_of_busy hb h, ?_⟩
  rintro pkt rfl
  cases pc with
  | testing | handling | waiting | returned => simp [onThreadProcessPacket] at h
  | popping =>
    cases q with
    | nil => simp [onThreadProcessPacket, pop] at h
    | cons p rest =>
      simp only [onThreadProcessPacket, pop, Option.some.injEq, Prod.mk.injEq,
        WorkerPc.popped.injEq] at h
      exact hq pkt (by simp [h.2])
  | notified =>
    cases q with
    | nil => exact absurd rfl (hfound rfl)
    | cons p rest =>
      simp only [onThreadProcessPacket, popNotified, Option.some.injEq, Prod.mk.injEq,
        WorkerPc.popped.injEq] at h
      exact hq pkt (by simp [h.2])
  | popped p =>
    have hp : p.effective ≠ 0 := Nat.pos_iff_ne_zero.mp (hb.2 p rfl)
    simp [onThreadProcessPacket, hp] at h

theorem busy_notifyOne {threads threads' : List WorkerPc} {w : Option Nat}
    (hb : ∀ pc ∈ threads, pc.Busy) (h : notifyOne threads w = some threads') :
    ∀ pc ∈ threads', pc.Busy := by
  rcases notifyOne_cases h with ⟨_, rfl⟩ | ⟨k, _, rfl⟩
  · exact hb
  · intro pc hpc
    rcases List.mem_or_eq_of_mem_set hpc with hold | rfl
    · exact hb pc hold
    · exact ⟨by decide, by simp⟩

theorem step_staffed (h : s.Staffed) (hi : ¬ s.findsNothing i = true)
    (hstep : s.step i = some s') : s'.Staffed := by
  cases step_next hstep with
  | @handleRead pkt _ hpkt =>
    refine ⟨?_, h.threads⟩
    intro p hp
    rcases List.mem_append.mp hp with hold | hnew
    · exact h.queue p hold
    · rw [List.mem_singleton.mp hnew]
      exact hpkt
  | readNothing | stopAgain => exact h
  | notify _ hn => exact ⟨h.queue, fun hrun => busy_notifyOne (h.threads hrun) hn⟩
  | @work w pc pc' q hpc hgo =>
    refine ⟨fun pkt hm => h.queue pkt (onThreadProcessPacket_queue hgo pkt hm), ?_⟩
    intro hrun p hp
    change s.running = true at hrun
    rw [hrun] at hgo
    rcases List.mem_or_eq_of_mem_set hp with hold | rfl
    · exact h.threads hrun p hold
    · refine busy_of_busy (h.threads hrun pc (List.mem_of_getElem? hpc)) h.queue ?_ hgo
      rintro rfl hempty
      exact hi (by simp [findsNothing, hrun, hpc, hempty])
  | stop => exact ⟨h.queue, fun hrun => absurd hrun Bool.false_ne_true⟩
  | wakeup _ hn => exact ⟨h.queue, fun hrun => busy_notifyOne (h.threads hrun) hn⟩
  | join => exact ⟨h.queue, h.threads⟩

theorem Staffed.work_survives (h : s.Staffed) {w : Nat} (hstep : s.step (.work w) = some s') :
    s'.Survives := by
  cases step_next hstep with
  | @work _ pc pc' q hpc hgo =>
    intro hrun hret
    change s.running = true at hrun
    rw [hrun] at hgo
    rcases List.mem_or_eq_of_mem_set hret with hold | hnew
    · exact h.survives hrun hold
    · exact not_returned_of_busy (h.threads hrun pc (List.mem_of_getElem? hpc)) hgo hnew.symm

/-- A thread that has found nothing returns. -/
theorem returns_of_findsNothing (hi : s.findsNothing i = true) (hstep : s.step i = some s') :
    ∃ w t, s'.step (.work w) = some t ∧ ¬ t.Survives := by
  cases step_next hstep with
  | @work w pc pc' q hpc hgo =>
    simp only [findsNothing, Bool.and_eq_true, beq_iff_eq, List.isEmpty_iff] at hi
    obtain ⟨⟨hrun, hnot⟩, hempty⟩ := hi
    rw [hpc, Option.some.injEq] at hnot
    subst hnot
    rw [hempty] at hgo
    simp only [onThreadProcessPacket, popNotified, Option.some.injEq, Prod.mk.injEq] at hgo
    obtain ⟨rfl, rfl⟩ := hgo
    have hlt : w < s.threadList.length := (List.getElem?_eq_some_iff.mp hpc).1
    have hret : onThreadProcessPacket s.running [] (.popped .empty) = some ([], .returned) := by
      simp [onThreadProcessPacket, DatagramPacket.empty]
    refine ⟨w, _, step_work (by simp [hlt]) hret, fun hsurv => ?_⟩
    refine hsurv hrun (List.mem_iff_getElem?.mpr ⟨w, ?_⟩)
    simp [hlt]
  | _ => exact absurd hi Bool.false_ne_true

end Surviving

/-- **A thread returns while the worker is running only if it was woken in vain.** In every run,
no thread returns from `OnThreadProcessPacket` before `Stop`, and none is about to, exactly if
no thread that was woken for a packet finds the queue empty when it has the mutex again. -/
theorem workers_survive_iff {threadNums : Nat} {is : List Input} {s : UDPWorkder}
    (hrun : Machine.run step (init threadNums) is = some s) :
    Machine.Throughout step
      (fun s => s.Survives ∧ ∀ w t, s.step (.work w) = some t → t.Survives)
      (init threadNums) is ↔
    Machine.Along step (fun s i => ¬ s.findsNothing i = true) (init threadNums) is := by
  have hkeep : ∀ {s i s'}, Staffed s → ¬ s.findsNothing i = true → s.step i = some s' →
      Staffed s' := step_staffed
  have hok : ∀ {s}, Staffed s →
      s.Survives ∧ ∀ w t, s.step (.work w) = some t → t.Survives :=
    fun h => ⟨h.survives, fun w t => h.work_survives⟩
  refine Machine.throughout_iff_along (P := Staffed) hkeep hok ?_ (staffed_init threadNums) hrun
  intro s i s' _ hi hstep hok'
  obtain ⟨w, t, hnext, hlost⟩ := returns_of_findsNothing (not_not.mp hi) hstep
  exact hlost (hok'.2 w t hnext)

/-- One of two threads is woken for a packet and handles it. -/
theorem workers_survive_iff_handled : ∃ s,
    Machine.run step (init 2) [.work 0, .work 0, .work 1, .work 1, .handleRead ⟨[1, 2], 2⟩,
      .notify (some 1), .work 1, .work 1] = some s ∧
    s.threadList = [.waiting, .handling ⟨[1, 2], 2⟩] ∧ s.Survives := by
  have hobs : (Machine.run step (init 2) [.work 0, .work 0, .work 1, .work 1,
      .handleRead ⟨[1, 2], 2⟩, .notify (some 1), .work 1, .work 1]).map (·.threadList) =
      some [.waiting, .handling ⟨[1, 2], 2⟩] := by
    decide +kernel
  obtain ⟨s, hrun, hthreads⟩ := Option.map_eq_some_iff.mp hobs
  have h := (workers_survive_iff hrun).mpr (by decide +kernel)
  exact ⟨s, hrun, hthreads, (h.last hrun).1⟩

/-- A packet comes in while one thread waits and another one is about to call `Pop`. The thread
that waits is woken, the other one takes the packet before it, and it returns although nobody
has called `Stop`. -/
theorem woken_thread_returns : ∃ s,
    Machine.run step (init 2) [.work 0, .work 0, .work 1, .handleRead ⟨[1, 2], 2⟩,
      .notify (some 0), .work 1, .work 0, .work 0] = some s ∧
    s.running = true ∧ s.stop = .notCalled ∧
    s.threadList = [.returned, .popped ⟨[1, 2], 2⟩] ∧ ¬ s.Survives := by
  have hobs : (Machine.run step (init 2) [.work 0, .work 0, .work 1, .handleRead ⟨[1, 2], 2⟩,
      .notify (some 0), .work 1, .work 0, .work 0]).map
      (fun s => (s.running, s.stop, s.threadList)) =
      some (true, .notCalled, [.returned, .popped ⟨[1, 2], 2⟩]) := by
    decide +kernel
  obtain ⟨s, hrun, heq⟩ := Option.map_eq_some_iff.mp hobs
  simp only [Prod.mk.injEq] at heq
  obtain ⟨hrunning, hstop, hthreads⟩ := heq
  refine ⟨s, hrun, hrunning, hstop, hthreads, fun hsurv => hsurv hrunning ?_⟩
  rw [hthreads]
  exact List.mem_cons_self

/-! ## Threads that `Stop` waits for -/

section Stopping

variable {s s' : UDPWorkder} {i : Input}

theorem count_set_add {threads : List WorkerPc} {w : Nat} {pc : WorkerPc}
    (h : threads[w]? = some pc) (pc' b : WorkerPc) :
    (threads.set w pc').count b + (if pc = b then 1 else 0) =
      threads.count b + (if pc' = b then 1 else 0) := by
  obtain ⟨hlt, rfl⟩ := List.getElem?_eq_some_iff.mp h
  rw [List.count_set hlt]
  simp only [beq_iff_eq]
  by_cases hb : threads[w] = b
  · have hpos : 0 < threads.count b := List.count_pos_iff.mpr (hb ▸ List.getElem_mem hlt)
    rw [if_pos hb]
    omega
  · rw [if_neg hb]
    omega

/-- Nobody waits, and there is a packet for every thread that is going to look for one. -/
structure Released (s : UDPWorkder) : Prop where
  running : s.running = false
  waiting : s.threadList.count .waiting = 0
  packets : s.threadList.count .popping = 0 ∨
    s.threadList.count .popping + s.threadList.count .notified ≤ s.pktQueue.length

theorem Released.nobody (h : s.Released) : .waiting ∉ s.threadList :=
  List.count_eq_zero.mp h.waiting

theorem Released.notifyOne (h : s.Released) {threads : List WorkerPc} {w : Option Nat}
    (hn : notifyOne s.threadList w = some threads) : threads = s.threadList := by
  rcases notifyOne_cases hn with ⟨_, rfl⟩ | ⟨k, hk, _⟩
  · rfl
  · exact absurd (List.mem_of_getElem? hk) h.nobody

theorem step_released (h : s.Released) (hi : ∀ pkt, i ≠ .handleRead pkt)
    (hstep : s.step i = some s') : s'.Released := by
  cases step_next hstep with
  | @handleRead pkt | @readNothing pkt => exact absurd rfl (hi pkt)
  | notify _ hn | wakeup _ hn =>
    rw [h.notifyOne hn]
    exact ⟨h.running, h.waiting, h.packets⟩
  | @work w pc pc' q hpc hgo =>
    have hw := count_set_add hpc pc' .waiting
    have hp := count_set_add hpc pc' .popping
    have hn := count_set_add hpc pc' .notified
    have hmem := List.count_pos_iff.mpr (List.mem_of_getElem? hpc)
    have hwait := h.waiting
    have hroom := h.packets
    rw [h.running] at hgo
    cases pc with
    | testing | popped | handling =>
      simp only [onThreadProcessPacket, Option.some.injEq, Prod.mk.injEq, Bool.false_eq_true,
        ↓reduceIte] at hgo
      obtain ⟨rfl, rfl⟩ := hgo
      simp only [reduceCtorEq, ↓reduceIte] at hw hp hn
      exact ⟨h.running, by simp only; omega, by simp only; omega⟩
    | waiting | returned => simp [onThreadProcessPacket] at hgo
    | popping =>
      -- the queue holds a packet for this thread
      cases hq : s.pktQueue with
      | nil =>
        rw [hq, List.length_nil] at hroom
        omega
      | cons pkt rest =>
        rw [hq] at hgo hroom
        simp only [onThreadProcessPacket, pop, Option.some.injEq, Prod.mk.injEq] at hgo
        obtain ⟨rfl, rfl⟩ := hgo
        simp only [reduceCtorEq, ↓reduceIte, List.length_cons] at hw hp hn hroom
        exact ⟨h.running, by simp only; omega, by simp only; omega⟩
    | notified =>
      cases hq : s.pktQueue with
      | nil =>
        rw [hq] at hgo hroom
        simp only [onThreadProcessPacket, popNotified, Option.some.injEq, Prod.mk.injEq] at hgo
        obtain ⟨rfl, rfl⟩ := hgo
        simp only [reduceCtorEq, ↓reduceIte, List.length_nil] at hw hp hn hroom
        exact ⟨h.running, by simp only; omega, by simp only [List.length_nil]; omega⟩
      | cons pkt rest =>
        rw [hq] at hgo hroom
        simp only [onThreadProcessPacket, popNotified, Option.some.injEq, Prod.mk.injEq] at hgo
        obtain ⟨rfl, rfl⟩ := hgo
        simp only [reduceCtorEq, ↓reduceIte, List.length_cons] at hw hp hn hroom
        exact ⟨h.running, by simp only; omega, by simp only; omega⟩
  | stop hrun => exact absurd hrun (by simp [h.running])
  | stopAgain => exact h
  | join => exact ⟨h.running, h.waiting, h.packets⟩

theorem run_released {is : List Input} (h : s.Released) (hin : ∀ pkt, .handleRead pkt ∉ is)
    (hrun : Machine.run step s is = some s') : s'.Released := by
  have hkeep : ∀ {s i s'}, Released s → (∀ pkt, i ≠ Input.handleRead pkt) → s.step i = some s' →
      Released s' := step_released
  exact Machine.run_invariant_of_mem (G := fun i => ∀ pkt, i ≠ .handleRead pkt) hkeep h
    (fun i hi pkt he => hin pkt (by rw [← he]; exact hi)) hrun

/-- There are more threads looking for a packet than packets, and one of them has not waited
yet. Another one can take the next packet. -/
theorem exists_take {n : Nat} (hn : s.pktQueue.length = n + 1)
    (hpop : 0 < s.threadList.count .popping)
    (hmore : n + 1 < s.threadList.count .popping + s.threadList.count .notified) :
    ∃ w t, s.step (.work w) = some t ∧ t.pktQueue.length = n ∧
      0 < t.threadList.count .popping ∧
      n < t.threadList.count .popping + t.threadList.count .notified := by
  obtain ⟨pkt, rest, hq⟩ := List.exists_cons_of_length_eq_add_one hn
  have hlen : rest.length = n := by simpa [hq] using hn
  by_cases hnot : 0 < s.threadList.count .notified
  · obtain ⟨w, hw⟩ := List.mem_iff_getElem?.mp (List.count_pos_iff.mp hnot)
    have hgo : onThreadProcessPacket s.running s.pktQueue .notified =
        some (rest, .popped pkt) := by
      rw [hq]
      rfl
    have hp := count_set_add hw (.popped pkt) .popping
    have hn' := count_set_add hw (.popped pkt) .notified
    simp only [reduceCtorEq, ↓reduceIte] at hp hn'
    exact ⟨w, _, step_work hw hgo, hlen, by simp only; omega, by simp only; omega⟩
  · -- nobody was woken: there are two threads before the mutex
    obtain ⟨w, hw⟩ := List.mem_iff_getElem?.mp (List.count_pos_iff.mp hpop)
    have hgo : onThreadProcessPacket s.running s.pktQueue .popping =
        some (rest, .popped pkt) := by
      rw [hq]
      rfl
    have hp := count_set_add hw (.popped pkt) .popping
    have hn' := count_set_add hw (.popped pkt) .notified
    simp only [reduceCtorEq, ↓reduceIte] at hp hn'
    exact ⟨w, _, step_work hw hgo, hlen, by simp only; omega, by simp only; omega⟩

/-- The thread that has not waited yet is the one that waits, if the others come before it. -/
theorem exists_waiting {n : Nat} (hn : s.pktQueue.length = n)
    (hpop : 0 < s.threadList.count .popping)
    (hmore : n < s.threadList.count .popping + s.threadList.count .notified) :
    ∃ is s', (∀ pkt, .handleRead pkt ∉ is) ∧ Machine.run step s is = some s' ∧
      .waiting ∈ s'.threadList := by
  induction n generalizing s with
  | zero =>
    have hempty := List.length_eq_zero_iff.mp hn
    obtain ⟨w, hw⟩ := List.mem_iff_getElem?.mp (List.count_pos_iff.mp hpop)
    have hgo : onThreadProcessPacket s.running s.pktQueue .popping = some ([], .waiting) := by
      rw [hempty]
      rfl
    refine ⟨[.work w], _, by simp, (Machine.run_singleton step s _).trans (step_work hw hgo), ?_⟩
    exact List.mem_of_getElem? (i := w) (by simp [(List.getElem?_eq_some_iff.mp hw).1])
  | succ n ih =>
    obtain ⟨w, t, hstep, hlen, hpop', hmore'⟩ := exists_take hn hpop hmore
    obtain ⟨is, s', hin, hrun, hwait⟩ := ih hlen hpop' hmore'
    refine ⟨.work w :: is, s', ?_, Machine.run_cons_iff.mpr ⟨t, hstep, hrun⟩, hwait⟩
    simpa using hin

theorem count_notifyOne {threads threads' : List WorkerPc} {w : Option Nat}
    (h : notifyOne threads w = some threads') :
    threads'.count .popping = threads.count .popping ∧
    threads'.count .waiting = threads.count .waiting - 1 ∧
    threads'.count .notified = threads.count .notified + min 1 (threads.count .waiting) := by
  rcases notifyOne_cases h with ⟨hnone, rfl⟩ | ⟨k, hk, rfl⟩
  · have hzero : threads'.count .waiting = 0 := List.count_eq_zero.mpr hnone
    omega
  · have hpos := List.count_pos_iff.mpr (List.mem_of_getElem? hk)
    have hw := count_set_add hk .notified .waiting
    have hp := count_set_add hk .notified .popping
    have hn := count_set_add hk .notified .notified
    simp only [reduceCtorEq, ↓reduceIte] at hw hp hn
    omega

/-- `Stop` has set `running_` to false before it does anything else. -/
theorem run_stopping {threadNums : Nat} {is : List Input}
    (hrun : Machine.run step (init threadNums) is = some s) (hstop : s.stop ≠ .notCalled) :
    s.running = false := by
  refine Machine.run_invariant (P := fun s => s.stop ≠ .notCalled → s.running = false)
    ?_ (fun h => absurd rfl h) hrun hstop
  intro s i s' h hstep
  cases step_next hstep with
  | handleRead | readNothing | notify | work | stopAgain => exact h
  | stop => exact fun _ => rfl
  | wakeup hs | join hs => exact fun _ => h (by simp [hs])

end Stopping

/-- At most one thread waits when `Wakeup` is called, and if there are threads that have yet to
enter `Pop`, the queue has a packet for everyone who is going to look for one. -/
def WakeupSuffices (s : UDPWorkder) : Prop :=
  s.threadList.count .waiting ≤ 1 ∧
  (s.threadList.count .popping = 0 ∨
    s.threadList.count .popping + s.threadList.count .notified + s.threadList.count .waiting ≤
      s.pktQueue.length)

instance (s : UDPWorkder) : Decidable s.WakeupSuffices :=
  inferInstanceAs (Decidable (_ ∧ _))

/-- **`Stop` reaches its threads exactly if one `notify_one` is enough.** Whatever led to the
call of `Wakeup`, no thread waits in any state behind it, without a packet being pushed, exactly
if at most one thread waits at that moment, and those that have found `running_` true and are
before the mutex of `Pop` will find packets there. -/
theorem stop_reaches_iff {threadNums : Nat} {is : List Input} {s : UDPWorkder}
    (hrun : Machine.run step (init threadNums) is = some s) (hstop : s.stop = .wakeup) :
    (∀ w t js s', s.step (.wakeup w) = some t → (∀ pkt, .handleRead pkt ∉ js) →
      Machine.run step t js = some s' → .waiting ∉ s'.threadList) ↔
    s.WakeupSuffices := by
  have hhalt : s.running = false := run_stopping hrun (by simp [hstop])
  constructor
  · intro h
    obtain ⟨w, threads, hn⟩ := exists_notifyOne s.threadList
    obtain ⟨hp, hw, hnot⟩ := count_notifyOne hn
    have hstep : s.step (.wakeup w) =
        some { s with threadList := threads, stop := .joining 0 } := by
      simp [step, hstop, hn]
    have hone : s.threadList.count .waiting ≤ 1 := by
      by_contra hmany
      have hleft : WorkerPc.waiting ∈ threads := List.count_pos_iff.mp (by omega)
      exact h w _ [] _ hstep (fun _ => List.not_mem_nil) (Machine.run_nil step _) hleft
    refine ⟨hone, ?_⟩
    by_contra hshort
    obtain ⟨js, s', hin, hlater, hwait⟩ := exists_waiting
      (s := { s with threadList := threads, stop := .joining 0 }) rfl
      (by simp only; omega) (by simp only; omega)
    exact h w _ js s' hstep hin hlater hwait
  · rintro ⟨hone, hroom⟩ w t js s' hstep hin hlater
    cases step_next hstep with
    | @wakeup _ threads _ hn =>
      obtain ⟨hp, hw, hnot⟩ := count_notifyOne hn
      have hrel : Released { s with threadList := threads, stop := .joining 0 } :=
        ⟨hhalt, by simp only; omega, by simp only; omega⟩
      exact (run_released hrel hin hlater).nobody

/-- One thread waits and the other one is in its callback. -/
theorem stop_reaches_iff_one_waits : ∃ s,
    Machine.run step (init 2) [.work 0, .work 0, .handleRead ⟨[1], 1⟩, .notify (some 0), .work 0,
      .work 1, .work 1, .work 0, .stop] = some s ∧
    ∀ w t js s', s.step (.wakeup w) = some t → (∀ pkt, .handleRead pkt ∉ js) →
      Machine.run step t js = some s' → .waiting ∉ s'.threadList := by
  have hobs : (Machine.run step (init 2) [.work 0, .work 0, .handleRead ⟨[1], 1⟩,
      .notify (some 0), .work 0, .work 1, .work 1, .work 0, .stop]).map
      (fun s => (s.stop, decide s.WakeupSuffices)) = some (.wakeup, true) := by
    decide +kernel
  obtain ⟨s, hrun, heq⟩ := Option.map_eq_some_iff.mp hobs
  simp only [Prod.mk.injEq, decide_eq_true_eq] at heq
  exact ⟨s, hrun, (stop_reaches_iff hrun heq.1).mpr heq.2⟩

/-- Eight threads, as many as the test of the server starts, wait for a packet; `Stop` wakes
one of them. -/
theorem stop_leaves_threads_waiting : ∃ s,
    Machine.run step (init 8) ((List.range 8).flatMap (fun w => [.work w, .work w]) ++
      [.stop, .wakeup (some 0)]) = some s ∧
    s.stop = .joining 0 ∧ s.threadList.count .waiting = 7 := by
  have hobs : (Machine.run step (init 8) ((List.range 8).flatMap (fun w => [.work w, .work w]) ++
      [.stop, .wakeup (some 0)])).map (fun s => (s.stop, s.threadList.count .waiting)) =
      some (.joining 0, 7) := by
    decide +kernel
  obtain ⟨s, hrun, heq⟩ := Option.map_eq_some_iff.mp hobs
  simp only [Prod.mk.injEq] at heq
  exact ⟨s, hrun, heq⟩

end UDPWorkder

end LinuxNet
