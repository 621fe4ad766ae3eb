import LinuxNet.Timer.Cancel

/-!
# `AddTimer` and `Cancel` in other threads

In the thread of the loop `RunInLoop` executes `AddTimerInLoop` and `CancelInLoop` at once. In
any other thread it queues them, and `AddTimer` goes on to read `timer->sequence()` while the
loop may already be working on the timer. The machine below takes the three actions of such a
call apart: the timer is created, the task is queued, the sequence number is read. The loop
swaps its task list, executes what it has swapped out and calls `HandleRead` between two rounds
of tasks.
-/

namespace LinuxNet

set_option autoImplicit false

open LinuxNet.Lib

/-- What `AddTimer` and `Cancel` queue in the loop. The number of the timer is kept for the
observer. -/
inductive TimerTask where
  | addTimerInLoop (a : Addr) (u : Nat)
  | cancelInLoop (id : ActiveTimer)
  deriving DecidableEq

/-- Where a thread stands in its call of `AddTimer`. -/
inductive AddTimerCall where
  /-- Behind `new Timer`. -/
  | allocated (a : Addr) (u : Nat)
  /-- Behind `RunInLoop`, before `timer->sequence()`. -/
  | queued (a : Addr) (u : Nat)
  deriving DecidableEq

def AddTimerCall.addr : AddTimerCall → Addr
  | .allocated a _ | .queued a _ => a

def AddTimerCall.uid : AddTimerCall → Nat
  | .allocated _ u | .queued _ u => u

structure TimerLoop where
  queue : TimerQueue
  taskList : List TimerTask
  /-- What `DoPendingTasks` has swapped out and not executed yet. -/
  tasks : List TimerTask
  /-- The calls of `AddTimer` in progress, by thread. -/
  calls : Nat → Option AddTimerCall
  /-- The ids that have been returned, with the number of the timer. -/
  returned : List (Nat × ActiveTimer)
  /-- The timers that were gone when `AddTimer` read them. -/
  deadReads : List Nat

namespace TimerLoop

def init (clock : Nat) : TimerLoop where
  queue := .init clock
  taskList := []
  tasks := []
  calls := fun _ => none
  returned := []
  deadReads := []

/-- `TimerId(timer, timer->sequence())`: whatever lives at the address is read. -/
def readSequence (s : TimerLoop) (a : Addr) (u : Nat) : TimerLoop :=
  match s.queue.heap a with
  | none => { s with deadReads := s.deadReads ++ [u] }
  | some t => { s with
      returned := s.returned ++ [(u, toLex (a, t.sequence))]
      deadReads := if t.uid = u then s.deadReads else s.deadReads ++ [u] }

def runTask (q : TimerQueue) : TimerTask → TimerQueue
  | .addTimerInLoop a _ => q.addTimerInLoop a
  | .cancelInLoop id => q.cancelInLoop id

inductive Input where
  /-- A thread enters `AddTimer` and creates the timer. -/
  | new (th : Nat) (a : Addr) (expiration : Nat) (intervalS : Int)
  /-- It queues `AddTimerInLoop`. -/
  | queueInLoop (th : Nat)
  /-- It reads the sequence number and returns. -/
  | readSequence (th : Nat)
  /-- A thread other than the loop's calls `Cancel`. -/
  | cancel (id : ActiveTimer)
  /-- `DoPendingTasks` begins. -/
  | swap
  /-- It executes the next task. -/
  | task
  /-- What the thread of the loop does by itself, `AddTimer` and `Cancel` included. -/
  | loop (i : TimerQueue.Input)
  deriving DecidableEq

/-- `HandleRead` is called. -/
def isHandleRead : TimerQueue.Input → Bool
  | .handleRead _ => true
  | _ => false

/-- `AddTimer` in the thread of the loop returns the id of the timer number `u`. -/
def returns (s : TimerLoop) (u : Nat) : TimerQueue.Input → TimerLoop
  | .addTimer a _ _ => s.readSequence a u
  | _ => s

def step (ts : Timestamps) (s : TimerLoop) : Input → Option TimerLoop
  | .new th a expiration intervalS =>
    if s.calls th = none ∧ s.queue.free a = true then
      some { s with
        queue := s.queue.allocate a expiration intervalS
        calls := Function.update s.calls th (some (.allocated a s.queue.created.length)) }
    else none
  | .queueInLoop th =>
    match s.calls th with
    | some (.allocated a u) => some { s with
        taskList := s.taskList ++ [.addTimerInLoop a u]
        calls := Function.update s.calls th (some (.queued a u)) }
    | _ => none
  | .readSequence th =>
    match s.calls th with
    | some (.queued a u) =>
      some ({ s with calls := Function.update s.calls th none }.readSequence a u)
    | _ => none
  | .cancel id => some { s with taskList := s.taskList ++ [.cancelInLoop id] }
  | .swap =>
    if s.tasks = [] ∧ s.queue.phase.isIdle = true then
      some { s with tasks := s.taskList, taskList := [] }
    else none
  | .task =>
    match s.tasks with
    | [] => none
    | t :: rest =>
      if s.queue.phase.isIdle then some { s with queue := runTask s.queue t, tasks := rest }
      else none
  | .loop i =>
    if i.ownThread = true ∧ (s.tasks = [] ∨ isHandleRead i = false) then
      (s.queue.step ts i).map fun q => returns { s with queue := q } s.queue.created.length i
    else none

/-! ## Steps -/

/-- What a step can be, with all that is known when it is taken. -/
inductive Next (ts : Timestamps) (s : TimerLoop) : Input → TimerLoop → Prop where
  | new {th : Nat} {a : Addr} {expiration : Nat} {intervalS : Int} (hcall : s.calls th = none)
      (hfree : s.queue.free a = true) :
      Next ts s (.new th a expiration intervalS) { s with
        queue := s.queue.allocate a expiration intervalS
        calls := Function.update s.calls th (some (.allocated a s.queue.created.length)) }
  | queueInLoop {th : Nat} {a : Addr} {u : Nat} (hcall : s.calls th = some (.allocated a u)) :
      Next ts s (.queueInLoop th) { s with
        taskList := s.taskList ++ [.addTimerInLoop a u]
        calls := Function.update s.calls th (some (.queued a u)) }
  | readSequence {th : Nat} {a : Addr} {u : Nat} (hcall : s.calls th = some (.queued a u)) :
      Next ts s (.readSequence th)
        (TimerLoop.readSequence { s with calls := Function.update s.calls th none } a u)
  | cancel {id : ActiveTimer} :
      Next ts s (.cancel id) { s with taskList := s.taskList ++ [.cancelInLoop id] }
  | swap (htasks : s.tasks = []) : Next ts s .swap { s with tasks := s.taskList, taskList := [] }
  | task {t : TimerTask} {rest : List TimerTask} (htasks : s.tasks = t :: rest)
      (hidle : s.queue.phase.isIdle = true) :
      Next ts s .task { s with queue := runTask s.queue t, tasks := rest }
  | loop {i : TimerQueue.Input} {q : TimerQueue} (hown : i.ownThread = true)
      (hq : s.queue.Next ts i q) :
      Next ts s (.loop i) (returns { s with queue := q } s.queue.created.length i)

theorem step_next {ts : Timestamps} {s t : TimerLoop} {i : Input} (h : s.step ts i = some t) :
    s.Next ts i t := by
  cases i with
  | new th a expiration intervalS =>
    simp only [step] at h
    split at h
    · rename_i hen
      cases h
      exact .new hen.1 hen.2
    · cases h
  | queueInLoop th =>
    simp only [step] at h
    split at h
    · rename_i hcall
      cases h
      exact .queueInLoop hcall
    · cases h
  | readSequence th =>
    simp only [step] at h
    split at h
    · rename_i hcall
      cases h
      exact .readSequence hcall
    · cases h
  | cancel id =>
    cases h
    exact .cancel
  | swap =>
    simp only [step] at h
    split at h
    · rename_i hen
      cases h
      exact .swap hen.1
    · cases h
  | task =>
    simp only [step] at h
    split at h
    · cases h
    · rename_i htasks
      split at h
      · rename_i hidle
        cases h
        exact .task htasks hidle
      · cases h
  | loop i =>
    simp only [step] at h
    split at h
    · rename_i hen
      obtain ⟨q, hq, rfl⟩ := Option.map_eq_some_iff.mp h
      exact .loop hen.1 (TimerQueue.step_next hq)
    · cases h

/-! ## Who has a timer that the loop has not -/

/-- The tasks in the order of their execution. -/
def todo (s : TimerLoop) : List TimerTask := s.tasks ++ s.taskList

/-- The timer number `u` is at `a`. -/
def Alive (s : TimerLoop) (a : Addr) (u : Nat) : Prop := ∃ t, s.queue.heap a = some t ∧ t.uid = u

/-- The timer is on its way to the loop: its task waits, or is still to be queued. -/
def Hands (s : TimerLoop) (a : Addr) (u : Nat) : Prop :=
  .addTimerInLoop a u ∈ s.todo ∨ ∃ th, s.calls th = some (.allocated a u)

structure Inv (s : TimerLoop) : Prop where
  good : s.queue.Good
  hands : ∀ a u, s.Hands a u → a ∈ s.queue.pending ∧ s.Alive a u
  handed : ∀ a ∈ s.queue.pending, ∃ u, s.Hands a u
  once : ∀ a u, s.todo.count (.addTimerInLoop a u) ≤ 1
  apart : ∀ th a u, s.calls th = some (.allocated a u) → .addTimerInLoop a u ∉ s.todo
  named : ∀ th c, s.calls th = some c →
    s.queue.created[c.uid]? = some c.addr ∧ c.uid ∉ s.returned.map (·.1)
  own : ∀ th th' c c', s.calls th = some c → s.calls th' = some c' → c.uid = c'.uid → th = th'
  returned : ∀ p ∈ s.returned, p.1 ∈ s.queue.deleted ∨
    ∃ a, s.queue.created[p.1]? = some a ∧ p.2 = toLex (a, p.1 % 2 ^ 64)

theorem inv_init (clock : Nat) : (init clock).Inv where
  good := TimerQueue.good_init clock
  hands := by simp [Hands, todo, init]
  handed := by simp [init, TimerQueue.init]
  once := by simp [todo, init]
  apart := by simp [init]
  named := by simp [init]
  own := by simp [init]
  returned := by simp [init]

section Steps

variable {ts : Timestamps} {s t : TimerLoop} {i : Input}

theorem Inv.returned_lt (h : s.Inv) {u : Nat} (hu : u ∈ s.returned.map (·.1)) :
    u < s.queue.created.length := by
  obtain ⟨p, hp, rfl⟩ := List.mem_map.mp hu
  rcases h.returned p hp with hdel | ⟨a, ha, _⟩
  · exact ((h.good.owns.accounted.deleted _).mp hdel).1
  · exact (List.getElem?_eq_some_iff.mp ha).1

theorem Inv.call_lt (h : s.Inv) {th : Nat} {c : AddTimerCall} (hc : s.calls th = some c) :
    c.uid < s.queue.created.length :=
  (List.getElem?_eq_some_iff.mp (h.named th c hc).1).1

/-- What has been returned is the id of the timer as long as the timer exists. -/
theorem Inv.returned_mono (h : s.Inv) {created : List Addr} {deleted : List Nat}
    (hcr : s.queue.created <+: created) (hdel : s.queue.deleted ⊆ deleted) :
    ∀ p ∈ s.returned, p.1 ∈ deleted ∨
      ∃ a, created[p.1]? = some a ∧ p.2 = toLex (a, p.1 % 2 ^ 64) := by
  intro p hp
  rcases h.returned p hp with hd | ⟨a, ha, hid⟩
  · exact .inl (hdel hd)
  · exact .inr ⟨a, TimerQueue.created_of_append hcr ha, hid⟩

/-- The loop works on the timers it has. -/
theorem Inv.setQueue (h : s.Inv) {q : TimerQueue} (hgood : q.Good)
    (hpend : q.pending = s.queue.pending) (hheap : ∀ a ∈ s.queue.pending, q.heap a = s.queue.heap a)
    (hcr : s.queue.created <+: q.created) (hdel : s.queue.deleted ⊆ q.deleted) :
    ({ s with queue := q } : TimerLoop).Inv := by
  refine ⟨hgood, ?_, ?_, h.once, h.apart, ?_, h.own, h.returned_mono hcr hdel⟩
  · intro a u hh
    obtain ⟨hin, t, ht, hu⟩ := h.hands a u hh
    exact ⟨by rw [hpend]; exact hin, t, (hheap a hin).trans ht, hu⟩
  · intro a ha
    exact h.handed a (hpend ▸ ha)
  · intro th c hc
    exact ⟨TimerQueue.created_of_append hcr (h.named th c hc).1, (h.named th c hc).2⟩

/-- A timer that was created at `a` is there until it is deleted. -/
theorem alive_iff {a : Addr} {u : Nat} (h : s.queue.Good) (hu : s.queue.created[u]? = some a) :
    s.Alive a u ↔ u ∉ s.queue.deleted := by
  rw [h.owns.accounted.deleted]
  constructor
  · rintro ⟨t, ht, htu⟩ ⟨-, hnone⟩
    exact hnone a t ht htu
  · intro hdel
    by_contra hdead
    refine hdel ⟨(List.getElem?_eq_some_iff.mp hu).1, fun b t hb htu => hdead ⟨t, ?_, htu⟩⟩
    have hname := (h.owns.accounted.named b t hb).1
    rw [htu, hu, Option.some.injEq] at hname
    rw [hname]
    exact hb

/-- The id that is returned, of a timer created at the address that is read. -/
theorem Inv.readSequence (h : s.Inv) {a : Addr} {u : Nat} (hu : s.queue.created[u]? = some a)
    (hcalls : ∀ th c, s.calls th = some c → c.uid ≠ u) : (s.readSequence a u).Inv := by
  unfold TimerLoop.readSequence
  cases hx : s.queue.heap a with
  | none => exact { h with }
  | some x =>
    refine { h with named := ?_, returned := ?_ }
    · intro th c hc
      refine ⟨(h.named th c hc).1, ?_⟩
      rw [List.map_append, List.mem_append, not_or]
      exact ⟨(h.named th c hc).2, by simpa using hcalls th c hc⟩
    · intro p hp
      rcases List.mem_append.mp hp with hold | hnew
      · exact h.returned p hold
      · rw [List.mem_singleton.mp hnew]
        obtain ⟨hname, hseq⟩ := h.good.owns.accounted.named a x hx
        by_cases hxu : x.uid = u
        · exact .inr ⟨a, hu, by rw [hseq, hxu]⟩
        · -- another timer lives there, so that the one created there is gone
          refine .inl (not_not.mp fun hdel => ?_)
          obtain ⟨y, hy, hyu⟩ := (alive_iff h.good hu).mpr hdel
          rw [hx, Option.some.injEq] at hy
          exact hxu (hy ▸ hyu)

/-- The calls after one of them has moved on. -/
theorem calls_update {calls : Nat → Option AddTimerCall} {th th' : Nat} {o : Option AddTimerCall}
    {c : AddTimerCall} (h : Function.update calls th o th' = some c) :
    (th' = th ∧ o = some c) ∨ (th' ≠ th ∧ calls th' = some c) := by
  by_cases hth : th' = th
  · rw [hth, Function.update_self] at h
    exact .inl ⟨hth, h⟩
  · rw [Function.update_of_ne hth] at h
    exact .inr ⟨hth, h⟩

/-- A thread that has not just created a timer moves on: the timers of the others are theirs. -/
theorem allocated_update {calls : Nat → Option AddTimerCall} {th th' : Nat}
    {o : Option AddTimerCall} {a : Addr} {u : Nat} (hth : ∀ b v, calls th ≠ some (.allocated b v))
    (h : calls th' = some (.allocated a u)) :
    Function.update calls th o th' = some (.allocated a u) := by
  have hne : th' ≠ th := by
    rintro rfl
    exact hth a u h
  rw [Function.update_of_ne hne]
  exact h

/-- Two threads are not in the call of the same timer, if a new call is for no timer of
another one. -/
theorem Inv.own_update (h : s.Inv) {th : Nat} {o : Option AddTimerCall}
    (hnew : ∀ c, o = some c → ∀ th' c', th' ≠ th → s.calls th' = some c' → c'.uid ≠ c.uid)
    (th1 th2 : Nat) (c1 c2 : AddTimerCall) (h1 : Function.update s.calls th o th1 = some c1)
    (h2 : Function.update s.calls th o th2 = some c2) (huid : c1.uid = c2.uid) : th1 = th2 := by
  rcases calls_update h1 with ⟨heq1, hnew1⟩ | ⟨hne1, hold1⟩
  · rcases calls_update h2 with ⟨heq2, -⟩ | ⟨hne2, hold2⟩
    · rw [heq1, heq2]
    · exact absurd huid.symm (hnew c1 hnew1 th2 c2 hne2 hold2)
  · rcases calls_update h2 with ⟨-, hnew2⟩ | ⟨-, hold2⟩
    · exact absurd huid (hnew c2 hnew2 th1 c1 hne1 hold1)
    · exact h.own th1 th2 c1 c2 hold1 hold2 huid

theorem Inv.new (h : s.Inv) {th : Nat} {a : Addr} (hcall : s.calls th = none)
    (hfree : s.queue.free a = true) (expiration : Nat) (intervalS : Int) :
    ({ s with
      queue := s.queue.allocate a expiration intervalS
      calls := Function.update s.calls th (some (.allocated a s.queue.created.length)) } :
      TimerLoop).Inv := by
  have hnot : a ∉ s.queue.pending := fun hin =>
    h.good.fresh (TimerQueue.free_iff hfree).1 (List.mem_append_left _ hin)
  have hother : ∀ b ∈ s.queue.pending,
      (s.queue.allocate a expiration intervalS).heap b = s.queue.heap b := by
    intro b hb
    refine Function.update_of_ne (fun heq => ?_) ..
    exact hnot (heq ▸ hb)
  have hcr : s.queue.created <+: s.queue.created ++ [a] := List.prefix_append _ _
  have hold : ∀ {b u}, s.Hands b u → b ∈ (s.queue.allocate a expiration intervalS).pending ∧
      ∃ x, (s.queue.allocate a expiration intervalS).heap b = some x ∧ x.uid = u := by
    intro b u hh
    obtain ⟨hin, x, hx, hu⟩ := h.hands b u hh
    exact ⟨List.mem_append_left _ hin, x, (hother b hin).trans hx, hu⟩
  refine ⟨TimerQueue.good_new h.good hfree expiration intervalS, ?_, ?_, h.once, ?_, ?_,
    h.own_update ?_, h.returned_mono hcr (List.Subset.refl _)⟩
  · rintro b u (hin | ⟨th', hc⟩)
    · exact hold (.inl hin)
    · rcases calls_update hc with ⟨-, heq⟩ | ⟨-, hc⟩
      · cases heq
        have hmem : a ∈ s.queue.pending ++ [a] :=
          List.mem_append_right _ (List.mem_singleton.mpr rfl)
        exact ⟨hmem, _, Function.update_self .., rfl⟩
      · exact hold (.inr ⟨th', hc⟩)
  · intro b hb
    rcases List.mem_append.mp hb with hb | hb
    · obtain ⟨u, hin | ⟨th', hc⟩⟩ := h.handed b hb
      · exact ⟨u, .inl hin⟩
      · exact ⟨u, .inr ⟨th', allocated_update (by simp [hcall]) hc⟩⟩
    · rw [List.mem_singleton.mp hb]
      exact ⟨_, .inr ⟨th, Function.update_self ..⟩⟩
  · intro th' b u hc hin
    rcases calls_update hc with ⟨-, heq⟩ | ⟨-, hc⟩
    · cases heq
      exact hnot (h.hands a _ (.inl hin)).1
    · exact h.apart th' b u hc hin
  · intro th' c hc
    rcases calls_update hc with ⟨-, heq⟩ | ⟨-, hc⟩
    · cases heq
      exact ⟨List.getElem?_concat_length, fun hin => lt_irrefl _ (h.returned_lt hin)⟩
    · exact ⟨TimerQueue.created_of_append hcr (h.named th' c hc).1, (h.named th' c hc).2⟩
  · -- the number is new
    rintro c ⟨⟩ th' c' - hc'
    exact (h.call_lt hc').ne

/-- One more task that is not there yet. -/
theorem count_snoc_le_one {l : List TimerTask} {x y : TimerTask} (hx : x ∉ l)
    (hy : l.count y ≤ 1) : (l ++ [x]).count y ≤ 1 := by
  rw [List.count_append]
  by_cases hyx : y = x
  · rw [hyx, List.count_eq_zero_of_not_mem hx, List.count_singleton_self]
  · have hzero : [x].count y = 0 :=
      List.count_eq_zero_of_not_mem fun hin => hyx (List.mem_singleton.mp hin)
    omega

theorem Inv.queueInLoop (h : s.Inv) {th : Nat} {a : Addr} {u : Nat}
    (hcall : s.calls th = some (.allocated a u)) :
    ({ s with
      taskList := s.taskList ++ [.addTimerInLoop a u]
      calls := Function.update s.calls th (some (.queued a u)) } : TimerLoop).Inv := by
  have htodo : ∀ x, x ∈ s.tasks ++ (s.taskList ++ [.addTimerInLoop a u]) ↔
      x ∈ s.todo ∨ x = .addTimerInLoop a u := by
    intro x
    simp only [todo, List.mem_append, List.mem_singleton, or_assoc]
  have hother : ∀ th' c, th' ≠ th → s.calls th' = some c → c.uid ≠ u :=
    fun th' c hth hc huid => hth (h.own th' th c _ hc hcall huid)
  refine ⟨h.good, ?_, ?_, ?_, ?_, ?_, h.own_update ?_, h.returned⟩
  · rintro b v (hin | ⟨th', hc⟩)
    · rcases (htodo _).mp hin with hold | heq
      · exact h.hands b v (.inl hold)
      · cases heq
        exact h.hands a u (.inr ⟨th, hcall⟩)
    · rcases calls_update hc with ⟨-, heq⟩ | ⟨-, hc⟩
      · cases heq
      · exact h.hands b v (.inr ⟨th', hc⟩)
  · intro b hb
    obtain ⟨v, hin | ⟨th', hc⟩⟩ := h.handed b hb
    · exact ⟨v, .inl ((htodo _).mpr (.inl hin))⟩
    · by_cases hth : th' = th
      · rw [hth, hcall] at hc
        cases hc
        exact ⟨u, .inl ((htodo _).mpr (.inr rfl))⟩
      · exact ⟨v, .inr ⟨th', (Function.update_of_ne hth ..).trans hc⟩⟩
  · intro b v
    change (s.tasks ++ (s.taskList ++ [TimerTask.addTimerInLoop a u])).count _ ≤ 1
    rw [← List.append_assoc]
    exact count_snoc_le_one (h.apart th a u hcall) (h.once b v)
  · intro th' b v hc hin
    rcases calls_update hc with ⟨-, heq⟩ | ⟨hth, hc⟩
    · cases heq
    · rcases (htodo _).mp hin with hold | heq
      · exact h.apart th' b v hc hold
      · cases heq
        exact hother th' _ hth hc rfl
  · intro th' c hc
    rcases calls_update hc with ⟨-, heq⟩ | ⟨-, hc⟩
    · cases heq
      have hnamed := h.named th _ hcall
      exact hnamed
    · exact h.named th' c hc
  · rintro c ⟨⟩ th' c' hth hc'
    exact hother th' c' hth hc'

/-- A call ends; its timer has been handed on. -/
theorem Inv.endCall (h : s.Inv) {th : Nat} {a : Addr} {u : Nat}
    (hcall : s.calls th = some (.queued a u)) :
    ({ s with calls := Function.update s.calls th none } : TimerLoop).Inv := by
  have hback : ∀ th' c, Function.update s.calls th none th' = some c → s.calls th' = some c := by
    intro th' c hc
    rcases calls_update hc with ⟨-, heq⟩ | ⟨-, hc⟩
    · cases heq
    · exact hc
  refine ⟨h.good, ?_, ?_, h.once, ?_, ?_, ?_, h.returned⟩
  · rintro b v (hin | ⟨th', hc⟩)
    · exact h.hands b v (.inl hin)
    · exact h.hands b v (.inr ⟨th', hback th' _ hc⟩)
  · intro b hb
    obtain ⟨v, hin | ⟨th', hc⟩⟩ := h.handed b hb
    · exact ⟨v, .inl hin⟩
    · exact ⟨v, .inr ⟨th', allocated_update (by simp [hcall]) hc⟩⟩
  · exact fun th' b v hc => h.apart th' b v (hback th' _ hc)
  · exact fun th' c hc => h.named th' c (hback th' c hc)
  · exact fun th1 th2 c1 c2 h1 h2 => h.own th1 th2 c1 c2 (hback th1 c1 h1) (hback th2 c2 h2)

/-- Nobody else has the timer that `DoPendingTasks` hands over next. -/
theorem Inv.hands_of_rest (h : s.Inv) {a b : Addr} {u v : Nat} {rest : List TimerTask}
    (htodo : s.todo = .addTimerInLoop a u :: rest)
    (hh : .addTimerInLoop b v ∈ rest ∨ ∃ th, s.calls th = some (.allocated b v)) :
    s.Hands b v ∧ b ≠ a := by
  have hfirst : .addTimerInLoop a u ∈ s.todo := by
    rw [htodo]
    exact List.mem_cons_self
  have hands : s.Hands b v := hh.imp_left fun hin => by
    rw [htodo]
    exact List.mem_cons_of_mem _ hin
  refine ⟨hands, ?_⟩
  rintro rfl
  obtain ⟨-, x, hx, hxu⟩ := h.hands b u (.inl hfirst)
  obtain ⟨-, y, hy, hyv⟩ := h.hands b v hands
  rw [hx, Option.some.injEq] at hy
  obtain rfl : u = v := hxu.symm.trans (by rw [hy]; exact hyv)
  rcases hh with hin | ⟨th, hc⟩
  · have hone := h.once b u
    have hpos := List.count_pos_iff.mpr hin
    rw [htodo, List.count_cons_self] at hone
    omega
  · exact h.apart th b u hc hfirst

/-- `DoPendingTasks` hands a timer over. -/
theorem Inv.addTask (h : s.Inv) {a : Addr} {u : Nat} {rest : List TimerTask}
    (htasks : s.tasks = .addTimerInLoop a u :: rest) :
    ({ s with queue := s.queue.addTimerInLoop a, tasks := rest } : TimerLoop).Inv := by
  have htodo : s.todo = .addTimerInLoop a u :: (rest ++ s.taskList) := by
    rw [todo, htasks, List.cons_append]
  obtain ⟨hpend, _⟩ := h.hands a u (.inl (by rw [htodo]; exact List.mem_cons_self))
  obtain ⟨hgood, hheap⟩ := TimerQueue.good_addTimerInLoop h.good hpend
  have herase := TimerQueue.addTimerInLoop_pending h.good hpend
  have hnd := (List.nodup_append.mp h.good.nodup).1
  refine ⟨hgood, ?_, ?_, ?_, ?_, ?_, h.own, ?_⟩
  · intro b v hh
    obtain ⟨hands, hne⟩ := h.hands_of_rest htodo hh
    obtain ⟨hin, y, hy, hyv⟩ := h.hands b v hands
    refine ⟨?_, y, ?_, hyv⟩
    · change b ∈ (s.queue.addTimerInLoop a).pending
      rw [herase]
      exact (List.mem_erase_of_ne hne).mpr hin
    · change (s.queue.addTimerInLoop a).heap b = some y
      rw [hheap, hy]
  · intro b hb
    change b ∈ (s.queue.addTimerInLoop a).pending at hb
    rw [herase, hnd.mem_erase_iff] at hb
    obtain ⟨v, hin | hc⟩ := h.handed b hb.2
    · rw [htodo] at hin
      rcases List.mem_cons.mp hin with heq | hin
      · cases heq
        exact absurd rfl hb.1
      · exact ⟨v, .inl hin⟩
    · exact ⟨v, .inr hc⟩
  · intro b v
    have hone := h.once b v
    rw [htodo, List.count_cons] at hone
    change (rest ++ s.taskList).count _ ≤ 1
    omega
  · intro th b v hc hin
    refine h.apart th b v hc ?_
    rw [htodo]
    exact List.mem_cons_of_mem _ hin
  · intro th c hc
    have hnamed := h.named th c hc
    rw [← TimerQueue.addTimerInLoop_created h.good hpend] at hnamed
    exact hnamed
  · intro p hp
    have hret := h.returned p hp
    rw [← (TimerQueue.addTimerInLoop_frame h.good hpend).1,
      ← TimerQueue.addTimerInLoop_created h.good hpend] at hret
    exact hret

/-- Tasks of `Cancel` are queued and executed; the others keep their places. -/
theorem Inv.setTasks (h : s.Inv) {tasks taskList : List TimerTask}
    (hcount : ∀ a u, (tasks ++ taskList).count (.addTimerInLoop a u) =
      s.todo.count (.addTimerInLoop a u)) :
    ({ s with tasks := tasks, taskList := taskList } : TimerLoop).Inv := by
  have hmem : ∀ a u, .addTimerInLoop a u ∈ tasks ++ taskList ↔ .addTimerInLoop a u ∈ s.todo := by
    intro a u
    rw [← List.count_pos_iff, ← List.count_pos_iff, hcount]
  refine ⟨h.good, ?_, ?_, ?_, ?_, h.named, h.own, h.returned⟩
  · exact fun a u hh => h.hands a u (hh.imp_left (hmem a u).mp)
  · intro a ha
    obtain ⟨u, hu⟩ := h.handed a ha
    exact ⟨u, hu.imp_left (hmem a u).mpr⟩
  · exact fun a u => (hcount a u).trans_le (h.once a u)
  · exact fun th a u hc hin => h.apart th a u hc ((hmem a u).mp hin)

theorem Inv.cancelInLoop (h : s.Inv) (id : ActiveTimer) :
    ({ s with queue := s.queue.cancelInLoop id } : TimerLoop).Inv := by
  obtain ⟨hdel, _, _, _, hheap, hpend⟩ := TimerQueue.cancelInLoop_frame h.good id
  have hcr := TimerQueue.cancelInLoop_created h.good id
  exact h.setQueue (TimerQueue.good_cancelInLoop h.good id) hpend
    (fun a ha => hheap a (.inl ha)) (hcr ▸ List.prefix_refl _) hdel

theorem Inv.loop (h : s.Inv) {i : TimerQueue.Input} {q : TimerQueue} (hown : i.ownThread = true)
    (hq : s.queue.Next ts i q) :
    (returns { s with queue := q } s.queue.created.length i).Inv := by
  obtain ⟨hpend, hheap⟩ := TimerQueue.next_pending h.good hown hq
  obtain ⟨hdel, hcr⟩ := TimerQueue.step_history h.good hq
  have hset := h.setQueue (TimerQueue.step_timers_good h.good hq) hpend hheap hcr hdel
  cases hq with
  | @addTimer a expiration intervalS hfree =>
    refine hset.readSequence (u := s.queue.created.length) ?_ fun th c hc => (h.call_lt hc).ne
    change (s.queue.addTimer a expiration intervalS).created[s.queue.created.length]? = some a
    rw [TimerQueue.addTimer_created h.good hfree]
    exact List.getElem?_concat_length
  | _ => exact hset

theorem step_inv (h : s.Inv) (hn : s.Next ts i t) : t.Inv := by
  cases hn with
  | new hcall hfree => exact h.new hcall hfree _ _
  | queueInLoop hcall => exact h.queueInLoop hcall
  | @readSequence th a u hcall =>
    refine (h.endCall hcall).readSequence (h.named th _ hcall).1 fun th' c hc huid => ?_
    rcases calls_update hc with ⟨-, heq⟩ | ⟨hth, hc⟩
    · cases heq
    · exact hth (h.own th' th c _ hc hcall huid)
  | @cancel id =>
    refine h.setTasks fun a u => ?_
    rw [← List.append_assoc, List.count_append, todo]
    simp
  | swap htasks =>
    refine h.setTasks fun a u => ?_
    rw [todo, htasks, List.append_nil, List.nil_append]
  | @task t rest htasks hidle =>
    cases t with
    | addTimerInLoop a u => exact h.addTask htasks
    | cancelInLoop id =>
      refine Inv.cancelInLoop (s := { s with tasks := rest }) (h.setTasks fun a u => ?_) id
      rw [todo, htasks]
      simp
  | loop hown hq => exact h.loop hown hq

end Steps

/-! ## The queue under the calls -/

def taskInput : TimerTask → TimerQueue.Input
  | .addTimerInLoop a _ => .addTimerInLoop a
  | .cancelInLoop id => .cancelInLoop id

/-- What the step does to the queue. -/
def queueInput (s : TimerLoop) : Input → Option TimerQueue.Input
  | .new _ a expiration intervalS => some (.new a expiration intervalS)
  | .task => s.tasks.head?.map taskInput
  | .loop i => some i
  | _ => none

section Queue

variable {ts : Timestamps} {s t : TimerLoop} {i : Input}

theorem readSequence_queue (a : Addr) (u : Nat) : (s.readSequence a u).queue = s.queue := by
  unfold readSequence
  split <;> rfl

theorem readSequence_calls (a : Addr) (u : Nat) : (s.readSequence a u).calls = s.calls := by
  unfold readSequence
  split <;> rfl

theorem returns_queue (u : Nat) (j : TimerQueue.Input) : (s.returns u j).queue = s.queue := by
  unfold returns
  split
  · exact readSequence_queue _ _
  · rfl

theorem returns_calls (u : Nat) (j : TimerQueue.Input) : (s.returns u j).calls = s.calls := by
  unfold returns
  split
  · exact readSequence_calls _ _
  · rfl

theorem next_queue (h : s.Inv) (hn : s.Next ts i t) :
    (s.queueInput i = none ∧ t.queue = s.queue) ∨
    ∃ j, s.queueInput i = some j ∧ s.queue.Next ts j t.queue := by
  cases hn with
  | new _ hfree => exact .inr ⟨_, rfl, .new hfree⟩
  | queueInLoop | cancel | swap => exact .inl ⟨rfl, rfl⟩
  | readSequence => exact .inl ⟨rfl, readSequence_queue _ _⟩
  | @task t rest htasks hidle =>
    cases t with
    | addTimerInLoop a u =>
      have hpend := (h.hands a u (.inl (by rw [todo, htasks]; simp))).1
      exact .inr ⟨.addTimerInLoop a, by simp [queueInput, htasks, taskInput],
        .addTimerInLoop hidle hpend⟩
    | cancelInLoop id =>
      exact .inr ⟨.cancelInLoop id, by simp [queueInput, htasks, taskInput], .cancelInLoop⟩
  | loop hown hq =>
    refine .inr ⟨_, rfl, ?_⟩
    rw [returns_queue]
    exact hq

end Queue

/-! ## The read at the end of `AddTimer` -/

/-- The step deletes the timer at `a`: `CancelInLoop` finds it, or `Reset` is through with it. -/
def DeletesAt (q : TimerQueue) (a : Addr) : TimerQueue.Input → Prop
  | .cancelInLoop id => (ofLex id).1 = a ∧ id ∈ q.activeTimers
  | .finish => a ∈ q.phase.batch ∧ ∃ t, q.heap a = some t ∧ q.Spent a t
  | _ => False

/-- It does so while an `AddTimer` that has queued the timer has not read it yet. -/
def DeletesUnread (s : TimerLoop) (i : Input) : Prop :=
  ∃ th a u, s.calls th = some (.queued a u) ∧ ∃ j ∈ s.queueInput i, DeletesAt s.queue a j

/-- No `AddTimer` has read a timer that was gone, and none is about to. -/
structure ReadsAlive (s : TimerLoop) : Prop where
  past : s.deadReads = []
  next : ∀ th a u, s.calls th = some (.queued a u) → s.Alive a u

section Reads

variable {ts : Timestamps} {s t : TimerLoop} {i : Input}

/-- A timer is deleted by `CancelInLoop` if the loop has it and waits for it to expire. -/
theorem mem_cancelInLoop_deleted {q : TimerQueue} (h : q.Good) (id : ActiveTimer) (u : Nat) :
    u ∈ (q.cancelInLoop id).deleted ↔ u ∈ q.deleted ∨
      ∃ a t, q.heap a = some t ∧ t.uid = u ∧ (ofLex id).1 = a ∧ id ∈ q.activeTimers := by
  have hid : id = toLex ((ofLex id).1, (ofLex id).2) := rfl
  rcases TimerQueue.cancelInLoop_eq h.owns (ofLex id).1 (ofLex id).2 with
    ⟨t, ht, hs, hout, heq⟩ | ⟨hna, heq⟩
  · have hin : id ∈ q.activeTimers :=
      (h.owns.indexed.active (ofLex id).1 (ofLex id).2).mpr ⟨t, ht, hs, hout⟩
    rw [hid, heq]
    simp only [TimerQueue.canceled, List.mem_append, List.mem_singleton]
    refine or_congr_right ⟨?_, ?_⟩
    · rintro rfl
      exact ⟨_, t, ht, rfl, rfl, hin⟩
    · rintro ⟨a, t', ht', rfl, rfl, -⟩
      obtain rfl : t = t' := Option.some.inj (ht.symm.trans ht')
      rfl
  · have hkeep : (q.cancelInLoop id).deleted = q.deleted := by
      rw [hid, heq]
      split <;> rfl
    rw [hkeep, or_iff_left]
    rintro ⟨_, _, _, _, _, hin⟩
    exact hna hin

theorem mem_deleted_iff {q q' : TimerQueue} {j : TimerQueue.Input} (h : q.Good)
    (hn : q.Next ts j q') (u : Nat) : u ∈ q'.deleted ↔
      u ∈ q.deleted ∨ ∃ a t, q.heap a = some t ∧ t.uid = u ∧ DeletesAt q a j := by
  cases hn with
  | new | tick => simp [TimerQueue.allocate, DeletesAt]
  | addTimerInLoop _ hpend =>
    rw [(TimerQueue.addTimerInLoop_frame h hpend).1]
    simp [DeletesAt]
  | @addTimer a expiration intervalS hfree =>
    rw [(TimerQueue.addTimer_frame h hfree expiration intervalS).1]
    simp [DeletesAt]
  | @cancelInLoop id => exact mem_cancelInLoop_deleted h id u
  | @handleRead delay hidle =>
    obtain ⟨fd, expired, act, heq, _⟩ := TimerQueue.handleRead_spec h.owns delay
    rw [heq]
    simp [DeletesAt]
  | runNext hph =>
    obtain ⟨t, _, hrun, _⟩ := TimerQueue.good_runNext h hph
    rw [hrun]
    simp [DeletesAt]
  | @finish now expired hph =>
    refine (TimerQueue.mem_finish_deleted ts h hph u).trans (or_congr_right ⟨?_, ?_⟩)
    · rintro ⟨a, ha, t, ht, hu, hspent⟩
      exact ⟨a, t, ht, hu, ha, t, ht, hspent⟩
    · rintro ⟨a, t, ht, hu, ha, t', ht', hspent⟩
      obtain rfl : t = t' := Option.some.inj (ht.symm.trans ht')
      exact ⟨a, ha, t, ht, hu, hspent⟩

/-- A timer that is not deleted by the step stays where it is. -/
theorem Inv.alive_next (h : s.Inv) (hn : s.Next ts i t) {a : Addr} {u : Nat} (ha : s.Alive a u) :
    t.Alive a u ↔ ¬ ∃ j ∈ s.queueInput i, DeletesAt s.queue a j := by
  have hinv := step_inv h hn
  rcases next_queue h hn with ⟨hnone, heq⟩ | ⟨j, hj, hq⟩
  · have hno : ¬ ∃ j ∈ s.queueInput i, DeletesAt s.queue a j := by
      rintro ⟨j, hj, _⟩
      rw [hnone] at hj
      cases hj
    rw [Alive, heq]
    exact ⟨fun _ => hno, fun _ => ha⟩
  · obtain ⟨x, hx, hxu⟩ := ha
    obtain ⟨-, hcr⟩ := TimerQueue.step_history h.good hq
    have hname := (h.good.owns.accounted.named a x hx).1
    rw [hxu] at hname
    have hname' := TimerQueue.created_of_append hcr hname
    have hold : u ∉ s.queue.deleted := (alive_iff h.good hname).mp ⟨x, hx, hxu⟩
    rw [alive_iff hinv.good hname', mem_deleted_iff h.good hq, hj]
    simp only [Option.mem_def, Option.some.injEq, exists_eq_left']
    refine not_congr ⟨?_, fun hd => .inr ⟨a, x, hx, hxu, hd⟩⟩
    rintro (hdel | ⟨b, y, hy, hyu, hd⟩)
    · exact absurd hdel hold
    · rwa [h.good.owns.accounted.addr_eq hx hy (hxu.trans hyu.symm)]

theorem readSequence_deadReads {a : Addr} {u : Nat} (h : s.Alive a u) :
    (s.readSequence a u).deadReads = s.deadReads := by
  obtain ⟨t, ht, htu⟩ := h
  simp [TimerLoop.readSequence, ht, htu]

/-- A call that is about to read was so before, or its task is being queued. -/
theorem next_unread (hn : s.Next ts i t) {th : Nat} {a : Addr} {u : Nat}
    (hc : t.calls th = some (.queued a u)) :
    s.calls th = some (.queued a u) ∨
      s.calls th = some (.allocated a u) ∧ s.queueInput i = none := by
  cases hn with
  | new =>
    rcases calls_update hc with ⟨-, heq⟩ | ⟨-, hc⟩
    · cases heq
    · exact .inl hc
  | queueInLoop hcall =>
    rcases calls_update hc with ⟨rfl, heq⟩ | ⟨-, hc⟩
    · cases heq
      exact .inr ⟨hcall, rfl⟩
    · exact .inl hc
  | readSequence =>
    rw [readSequence_calls] at hc
    rcases calls_update hc with ⟨-, heq⟩ | ⟨-, hc⟩
    · cases heq
    · exact .inl hc
  | loop =>
    rw [returns_calls] at hc
    exact .inl hc
  | cancel | swap | task => exact .inl hc

theorem next_past (h : s.Inv) (hr : s.ReadsAlive) (hn : s.Next ts i t) :
    t.deadReads = s.deadReads := by
  cases hn with
  | @readSequence th a u hcall => exact readSequence_deadReads (hr.next th a u hcall)
  | @loop j q hown hq =>
    cases hq with
    | @addTimer a expiration intervalS hfree =>
      refine readSequence_deadReads (s := { s with queue := _ }) ?_
      have hgood := TimerQueue.good_addTimer h.good hfree expiration intervalS
      have hcr := TimerQueue.addTimer_created h.good hfree expiration intervalS
      refine (alive_iff hgood (by rw [hcr]; exact List.getElem?_concat_length)).mpr fun hdel => ?_
      change s.queue.created.length ∈ (s.queue.addTimer a expiration intervalS).deleted at hdel
      rw [(TimerQueue.addTimer_frame h.good hfree expiration intervalS).1] at hdel
      exact lt_irrefl _ ((h.good.owns.accounted.deleted _).mp hdel).1
    | _ => rfl
  | _ => rfl

theorem step_readsAlive (h : s.Inv) (hr : s.ReadsAlive) (hn : s.Next ts i t)
    (hi : ¬ DeletesUnread s i) : t.ReadsAlive := by
  refine ⟨(next_past h hr hn).trans hr.past, fun th a u hc => ?_⟩
  rcases next_unread hn hc with hold | ⟨halloc, hnone⟩
  · exact (h.alive_next hn (hr.next th a u hold)).mpr fun hd => hi ⟨th, a, u, hold, hd⟩
  · refine (h.alive_next hn (h.hands a u (.inr ⟨th, halloc⟩)).2).mpr ?_
    rw [hnone]
    simp

/-- A step of the queue leaves the calls that are about to read where they are. -/
theorem next_calls (hn : s.Next ts i t) (hi : s.queueInput i ≠ none) {th : Nat} {a : Addr} {u : Nat}
    (hc : s.calls th = some (.queued a u)) : t.calls th = some (.queued a u) := by
  cases hn with
  | @new th' b expiration intervalS hcall =>
    have hth : th ≠ th' := by
      rintro rfl
      rw [hcall] at hc
      cases hc
    exact (Function.update_of_ne hth ..).trans hc
  | task => exact hc
  | loop =>
    rw [returns_calls]
    exact hc
  | queueInLoop | readSequence | cancel | swap => exact absurd rfl hi

/-- The timer is gone when the call comes to read it. -/
theorem step_deletesUnread (h : s.Inv) (hr : s.ReadsAlive) (hn : s.Next ts i t)
    (hi : DeletesUnread s i) : ¬ t.ReadsAlive := by
  obtain ⟨th, a, u, hc, hd⟩ := hi
  intro ht
  have hsome : s.queueInput i ≠ none := by
    obtain ⟨j, hj, _⟩ := hd
    rw [Option.mem_def.mp hj]
    exact Option.some_ne_none j
  exact (h.alive_next hn (hr.next th a u hc)).mp (ht.next th a u (next_calls hn hsome hc)) hd

end Reads

/-- **`AddTimer` reads a live timer, unless the loop is through with it by then.** In every run
of the loop and of the threads that call `AddTimer`, no read of `timer->sequence()` finds the
timer deleted, in all states of the run, if and only if no step deletes a timer, at the end of a
batch or by `CancelInLoop`, whose `AddTimer` in another thread has queued it and not read it. -/
theorem reads_alive_iff (ts : Timestamps) (clock : Nat) (ins : List Input) (s : TimerLoop)
    (hrun : Machine.run (step ts) (init clock) ins = some s) :
    Machine.Throughout (step ts) ReadsAlive (init clock) ins ↔
      Machine.Along (step ts) (fun s i => ¬ DeletesUnread s i) (init clock) ins := by
  have hkeep : ∀ {s i t}, s.Inv ∧ s.ReadsAlive → ¬ DeletesUnread s i → step ts s i = some t →
      t.Inv ∧ t.ReadsAlive := by
    intro s i t h hi hst
    have hn := step_next hst
    exact ⟨step_inv h.1 hn, step_readsAlive h.1 h.2 hn hi⟩
  have hbreak : ∀ {s i t}, s.Inv ∧ s.ReadsAlive → ¬ ¬ DeletesUnread s i → step ts s i = some t →
      ¬ t.ReadsAlive :=
    fun h hi hst => step_deletesUnread h.1 h.2 (step_next hst) (not_not.mp hi)
  have hinit : (init clock).ReadsAlive := ⟨rfl, by simp [init]⟩
  exact Machine.throughout_iff_along (P := fun s => s.Inv ∧ s.ReadsAlive) hkeep
    (fun h => h.2) hbreak ⟨inv_init clock, hinit⟩ hrun

/-- The loop runs the callback of a timer while the `AddTimer` that made it has not returned;
the read comes before the end of the batch. -/
theorem reads_alive_iff_callback_running : ∃ s,
    Machine.run (step ⟨fun now s => now + s * 1000000, 0⟩) (init 1000)
      [.new 1 8 500 0, .queueInLoop 1, .swap, .task, .loop (.handleRead 0), .loop .runNext,
        .readSequence 1] = some s ∧ s.queue.started = [0] ∧ s.returned = [(0, toLex (8, 0))] ∧
    Machine.Throughout (step ⟨fun now s => now + s * 1000000, 0⟩) ReadsAlive (init 1000)
      [.new 1 8 500 0, .queueInLoop 1, .swap, .task, .loop (.handleRead 0), .loop .runNext,
        .readSequence 1] := by
  have hobs : (Machine.run (step ⟨fun now s => now + s * 1000000, 0⟩) (init 1000)
      [.new 1 8 500 0, .queueInLoop 1, .swap, .task, .loop (.handleRead 0), .loop .runNext,
        .readSequence 1]).map (fun s => (s.queue.started, s.returned)) =
      some ([0], [(0, toLex (8, 0))]) := by
    decide +kernel
  obtain ⟨s, hrun, heq⟩ := Option.map_eq_some_iff.mp hobs
  simp only [Prod.mk.injEq] at heq
  refine ⟨s, hrun, heq.1, heq.2, (reads_alive_iff _ 1000 _ s hrun).mpr ?_⟩
  have hno : ∀ {s i}, (∀ j ∈ queueInput s i, ∀ a, ¬ DeletesAt s.queue a j) →
      ¬ DeletesUnread s i := by
    rintro s i h ⟨th, a, u, _, j, hj, hd⟩
    exact h j hj a hd
  refine ⟨hno (by rintro j ⟨⟩ a; exact id), fun t ht => ?_⟩
  cases ht
  refine ⟨hno (by rintro j ⟨⟩), fun t ht => ?_⟩
  cases ht
  refine ⟨hno (by rintro j ⟨⟩), fun t ht => ?_⟩
  cases ht
  refine ⟨hno (by rintro j ⟨⟩ a; exact id), fun t ht => ?_⟩
  cases ht
  refine ⟨hno (by rintro j ⟨⟩ a; exact id), fun t ht => ?_⟩
  cases ht
  refine ⟨hno (by rintro j ⟨⟩ a; exact id), fun t ht => ?_⟩
  cases ht
  exact ⟨hno (by rintro j ⟨⟩), fun _ _ => trivial⟩

/-- The whole batch is through before the read: the timer, fired once, has been deleted. -/
theorem read_of_deleted_timer : ∃ s,
    Machine.run (step ⟨fun now s => now + s * 1000000, 0⟩) (init 1000)
      [.new 1 8 500 0, .queueInLoop 1, .swap, .task, .loop (.handleRead 0), .loop .runNext,
        .loop .finish, .readSequence 1] = some s ∧
    s.queue.heap 8 = none ∧ s.deadReads = [0] ∧ ¬ s.ReadsAlive := by
  have hobs : (Machine.run (step ⟨fun now s => now + s * 1000000, 0⟩) (init 1000)
      [.new 1 8 500 0, .queueInLoop 1, .swap, .task, .loop (.handleRead 0), .loop .runNext,
        .loop .finish, .readSequence 1]).map (fun s => (s.queue.heap 8, s.deadReads)) =
      some (none, [0]) := by
    decide +kernel
  obtain ⟨s, hrun, heq⟩ := Option.map_eq_some_iff.mp hobs
  simp only [Prod.mk.injEq] at heq
  refine ⟨s, hrun, heq.1, heq.2, fun h => ?_⟩
  have hpast := h.past
  rw [heq.2] at hpast
  cases hpast

/-! ## Cancelling from any thread -/

/-- The step executes `CancelInLoop` of the id, outside of `HandleRead`. -/
def Cancels (s : TimerLoop) (id : ActiveTimer) : Input → Prop
  | .loop (.cancelInLoop x) => x = id ∧ s.queue.phase.isIdle = true
  | .task => s.tasks.head? = some (.cancelInLoop id)
  | _ => False

section Cancel

variable {ts : Timestamps} {s t : TimerLoop} {i : Input} {id : ActiveTimer} {u : Nat}

theorem next_cancels (hi : Cancels s id i) (hn : s.Next ts i t) :
    t.queue = s.queue.cancelInLoop id ∧ s.queue.phase.isIdle = true := by
  cases hn with
  | @task x rest htasks hidle =>
    change s.tasks.head? = _ at hi
    rw [htasks, List.head?_cons, Option.some.injEq] at hi
    subst hi
    exact ⟨rfl, hidle⟩
  | @loop j q hown hq =>
    cases hq with
    | cancelInLoop =>
      obtain ⟨rfl, hidle⟩ := hi
      exact ⟨rfl, hidle⟩
    | _ => exact False.elim hi
  | _ => exact False.elim hi

/-- A timer that has been returned is with the loop, or its task is in the queue. -/
theorem Inv.handed_over (h : s.Inv) (hret : u ∈ s.returned.map (·.1)) {a : Addr}
    (hq : .addTimerInLoop a u ∉ s.todo) (halive : s.Alive a u) : a ∉ s.queue.pending := by
  intro hpend
  obtain ⟨v, hh⟩ := h.handed a hpend
  obtain ⟨x, hx, hxu⟩ := halive
  obtain ⟨-, y, hy, hyv⟩ := h.hands a v hh
  rw [hx, Option.some.injEq] at hy
  obtain rfl : u = v := hxu.symm.trans (by rw [hy]; exact hyv)
  rcases hh with hin | ⟨th, hc⟩
  · exact hq hin
  · exact (h.named th _ hc).2 hret

theorem run_never_starts {r : TimerLoop} {ins : List Input} (h : s.Inv)
    (hfin : s.queue.Finished u) (hst : u ∉ s.queue.started)
    (hrun : Machine.run (step ts) s ins = some r) : u ∉ r.queue.started := by
  have hstep : ∀ {s i t}, s.Inv ∧ s.queue.Finished u ∧ u ∉ s.queue.started → step ts s i = some t →
      t.Inv ∧ t.queue.Finished u ∧ u ∉ t.queue.started := by
    intro s i t hs hst
    obtain ⟨hinv, hfin, hnot⟩ := hs
    have hn := step_next hst
    refine ⟨step_inv hinv hn, ?_⟩
    rcases next_queue hinv hn with ⟨-, heq⟩ | ⟨j, -, hq⟩
    · rw [heq]
      exact ⟨hfin, hnot⟩
    · obtain ⟨hfin', hcount⟩ := TimerQueue.step_finished hinv.good hfin hq
      refine ⟨hfin', ?_⟩
      rw [← List.count_eq_zero, hcount, List.count_eq_zero]
      exact hnot
  exact (Machine.run_invariant (P := fun s => s.Inv ∧ s.queue.Finished u ∧ u ∉ s.queue.started)
    hstep ⟨h, hfin, hst⟩ hrun).2.2

/-- The request reaches a timer that is with the loop. -/
theorem Inv.cancels_finished (h : s.Inv) (hret : (u, id) ∈ s.returned)
    (hidle : s.queue.phase.isIdle = true) (hq : ∀ a, .addTimerInLoop a u ∉ s.todo) :
    (s.queue.cancelInLoop id).Finished u := by
  rcases h.returned _ hret with hdel | ⟨a, ha, hid⟩
  · exact .inl ((TimerQueue.cancelInLoop_frame h.good id).1 hdel)
  · rw [show id = toLex (a, u % 2 ^ 64) from hid]
    refine TimerQueue.cancelInLoop_finished h.good ha (fun x hx hxu => ?_) ?_
    · exact h.handed_over (List.mem_map_of_mem hret) (hq a) ⟨x, hx, hxu⟩
    · rintro ⟨b, x, _, _, hwait⟩
      cases hph : s.queue.phase with
      | idle =>
        rw [hph] at hwait
        cases hwait
      | firing now expired rest =>
        rw [hph] at hidle
        cases hidle

/-- It does nothing to a timer that is not. -/
theorem Inv.cancels_nothing (h : s.Inv) (hret : (u, id) ∈ s.returned)
    (hidle : s.queue.phase.isIdle = true) {a : Addr} (hq : .addTimerInLoop a u ∈ s.todo) :
    s.queue.cancelInLoop id = s.queue := by
  obtain ⟨hpend, x, hx, hxu⟩ := h.hands a u (.inl hq)
  have hname := (h.good.owns.accounted.named a x hx).1
  rw [hxu] at hname
  have hid : id = toLex (a, u % 2 ^ 64) := by
    rcases h.returned _ hret with hdel | ⟨b, hb, hid⟩
    · exact absurd hdel ((alive_iff h.good hname).mp ⟨x, hx, hxu⟩)
    · rw [hname, Option.some.injEq] at hb
      rw [hb]
      exact hid
  rw [hid]
  rcases TimerQueue.cancelInLoop_eq h.good.owns a (u % 2 ^ 64) with ⟨_, _, _, hout, _⟩ | ⟨_, heq⟩
  · exact absurd (.inl hpend) hout
  · rw [heq, if_neg (by rw [h.good.calling, hidle]; decide)]

end Cancel

/-- **A cancelled timer never starts, if the loop had been handed it.** `AddTimer`, called in any
thread, has returned the id of the timer number `u`, which has not been started; a step executes
`CancelInLoop` of that id outside of `HandleRead`. If the `AddTimerInLoop` of the timer is not
waiting in the task list, no continuation starts the timer; if it is, the request changes nothing
at all. -/
theorem cancelled_before_start (ts : Timestamps) (clock : Nat) (ins : List Input) (s t : TimerLoop)
    (hrun : Machine.run (step ts) (init clock) ins = some s) (u : Nat) (id : ActiveTimer)
    (hret : (u, id) ∈ s.returned) (hnew : u ∉ s.queue.started) (i : Input) (hi : Cancels s id i)
    (hstep : step ts s i = some t) :
    ((∀ a, .addTimerInLoop a u ∉ s.todo) →
      ∀ ins' r, Machine.run (step ts) t ins' = some r → u ∉ r.queue.started) ∧
    ((∃ a, .addTimerInLoop a u ∈ s.todo) → t.queue = s.queue) := by
  have hkeep : ∀ {s i t}, s.Inv → step ts s i = some t → t.Inv :=
    fun h hst => step_inv h (step_next hst)
  have h : s.Inv := Machine.run_invariant hkeep (inv_init clock) hrun
  obtain ⟨heq, hidle⟩ := next_cancels hi (step_next hstep)
  constructor
  · intro hq ins' r hr
    refine run_never_starts (hkeep h hstep) ?_ ?_ hr
    · rw [heq]
      exact h.cancels_finished hret hidle hq
    · rw [heq, (TimerQueue.cancelInLoop_frame h.good id).2.2.2.1]
      exact hnew
  · rintro ⟨a, hq⟩
    rw [heq]
    exact h.cancels_nothing hret hidle hq

/-- A timer added by one thread and cancelled by another: the two tasks are executed in order. -/
theorem cancelled_before_start_other_thread : ∃ s t,
    Machine.run (step ⟨fun now s => now + s * 1000000, 0⟩) (init 1000)
      [.new 1 8 500 0, .queueInLoop 1, .readSequence 1, .cancel (toLex (8, 0)), .swap, .task] =
        some s ∧ s.returned = [(0, toLex (8, 0))] ∧
    step ⟨fun now s => now + s * 1000000, 0⟩ s .task = some t ∧
    ∀ ins' r, Machine.run (step ⟨fun now s => now + s * 1000000, 0⟩) t ins' = some r →
      0 ∉ r.queue.started := by
  have hobs : ((Machine.run (step ⟨fun now s => now + s * 1000000, 0⟩) (init 1000)
      [.new 1 8 500 0, .queueInLoop 1, .readSequence 1, .cancel (toLex (8, 0)), .swap,
        .task]).bind fun s => (step ⟨fun now s => now + s * 1000000, 0⟩ s .task).map
          fun _ => decide (s.returned = [(0, toLex (8, 0))] ∧ s.queue.started = [] ∧
            s.tasks = [.cancelInLoop (toLex (8, 0))] ∧ s.taskList = [])) = some true := by
    decide +kernel
  obtain ⟨s, hrun, hobs⟩ := Option.bind_eq_some_iff.mp hobs
  obtain ⟨t, hstep, heq⟩ := Option.map_eq_some_iff.mp hobs
  obtain ⟨hret, hst, htasks, hlist⟩ := of_decide_eq_true heq
  refine ⟨s, t, hrun, hret, hstep, ?_⟩
  have hq : ∀ a, .addTimerInLoop a 0 ∉ s.todo := by
    intro a
    rw [todo, htasks, hlist]
    simp
  exact (cancelled_before_start _ 1000 _ s t hrun 0 (toLex (8, 0)) (by rw [hret]; simp)
    (by rw [hst]; simp) .task (by rw [Cancels, htasks]; rfl) hstep).1 hq

/-- The id is handed to the thread of the loop, which cancels it at once, before the queued
`AddTimerInLoop`: the timer is inserted and started all the same. -/
theorem cancelled_timer_handed_over : ∃ s t r,
    Machine.run (step ⟨fun now s => now + s * 1000000, 0⟩) (init 1000)
      [.new 1 8 500 0, .queueInLoop 1, .readSequence 1] = some s ∧
    (0, toLex (8, 0)) ∈ s.returned ∧ 0 ∉ s.queue.started ∧
    Cancels s (toLex (8, 0)) (.loop (.cancelInLoop (toLex (8, 0)))) ∧
    step ⟨fun now s => now + s * 1000000, 0⟩ s (.loop (.cancelInLoop (toLex (8, 0)))) = some t ∧
    Machine.run (step ⟨fun now s => now + s * 1000000, 0⟩) t
      [.swap, .task, .loop (.handleRead 0), .loop .runNext] = some r ∧ 0 ∈ r.queue.started := by
  have hobs : ((Machine.run (step ⟨fun now s => now + s * 1000000, 0⟩) (init 1000)
      [.new 1 8 500 0, .queueInLoop 1, .readSequence 1]).bind fun s =>
      (step ⟨fun now s => now + s * 1000000, 0⟩ s
        (.loop (.cancelInLoop (toLex (8, 0))))).bind fun t =>
      (Machine.run (step ⟨fun now s => now + s * 1000000, 0⟩) t
        [.swap, .task, .loop (.handleRead 0), .loop .runNext]).map fun r =>
      (s.returned, s.queue.started, s.queue.phase.isIdle, r.queue.started)) =
      some ([(0, toLex (8, 0))], [], true, [0]) := by
    decide +kernel
  obtain ⟨s, hrun, hobs⟩ := Option.bind_eq_some_iff.mp hobs
  obtain ⟨t, hstep, hobs⟩ := Option.bind_eq_some_iff.mp hobs
  obtain ⟨r, hrun', heq⟩ := Option.map_eq_some_iff.mp hobs
  simp only [Prod.mk.injEq] at heq
  obtain ⟨hret, hst, hidle, hst'⟩ := heq
  exact ⟨s, t, r, hrun, by rw [hret]; simp, by rw [hst]; simp, ⟨rfl, hidle⟩, hstep, hrun',
    by rw [hst']; simp⟩

end TimerLoop

end LinuxNet
