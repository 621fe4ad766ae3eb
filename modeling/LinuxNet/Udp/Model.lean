import LinuxNet.Lib.Machine

/-!
# `net::PacketQueue` and `net::UDPWorkder`

The embedding of `packet_queue.cc` and `udp_worker.cc`, with the `HandleRead` of
`udp_receiver.cc` that feeds the queue. The threads of the worker, the receiver and the thread
that calls `Stop` go on in any order, from one access to shared state to the next: a critical
section of the mutex is one step, a `notify_one` outside of it is another. Which of the waiting
threads `notify_one` wakes is an input, and a thread it has woken takes the mutex again in a
step of its own. Nothing else wakes a thread.
-/

namespace LinuxNet

set_option autoImplicit false

structure DatagramPacket where
  dat : List UInt8
  effective : Nat
  deriving DecidableEq, Repr

/-- `DatagramPacket()`. -/
def DatagramPacket.empty : DatagramPacket := ⟨[], 0⟩

/-- Where a thread is in `OnThreadProcessPacket` and the `Pop` it calls. -/
inductive WorkerPc where
  /-- At `while(running_)`. -/
  | testing
  /-- Before `Pop` takes the mutex. -/
  | popping
  /-- In `cond_.wait`. -/
  | waiting
  /-- Woken up in `cond_.wait`, which has to take the mutex again. -/
  | notified
  /-- `Pop` has returned. -/
  | popped (pkt : DatagramPacket)
  /-- In `callback_rcv_pkt_`. -/
  | handling (pkt : DatagramPacket)
  | returned
  deriving DecidableEq, Repr

/-- Where the thread is that has called `UDPWorkder::Stop`. -/
inductive StopPc where
  | notCalled
  /-- `running_` is false, `Wakeup` is next. -/
  | wakeup
  /-- The first `k` threads have been joined. -/
  | joining (k : Nat)
  deriving DecidableEq, Repr

/-- A worker with its threads, its queue, and the receiver that pushes to it. -/
structure UDPWorkder where
  running : Bool
  pktQueue : List DatagramPacket
  threadList : List WorkerPc
  /-- The receiver is in `Push`, between the critical section and `notify_one`. -/
  pushing : Bool
  stop : StopPc
  deriving DecidableEq, Repr

namespace UDPWorkder

/-- `Start`. -/
def init (threadNums : Nat) : UDPWorkder where
  running := true
  pktQueue := []
  threadList := List.replicate threadNums .testing
  pushing := false
  stop := .notCalled

/-! ## `PacketQueue` -/

/-- `Pop` up to `cond_.wait`, or to its end. -/
def pop : List DatagramPacket → List DatagramPacket × WorkerPc
  | [] => ([], .waiting)
  | pkt :: rest => (rest, .popped pkt)

/-- `Pop` behind `cond_.wait`. -/
def popNotified : List DatagramPacket → List DatagramPacket × WorkerPc
  | [] => ([], .popped .empty)
  | pkt :: rest => (rest, .popped pkt)

/-- `cond_.notify_one`, which wakes the thread `w` if there is one that waits. -/
def notifyOne (threads : List WorkerPc) : Option Nat → Option (List WorkerPc)
  | some w => if threads[w]? = some .waiting then some (threads.set w .notified) else none
  | none => if .waiting ∈ threads then none else some threads

/-! ## `UDPWorkder` -/

/-- The next step of a thread in `OnThreadProcessPacket`. -/
def onThreadProcessPacket (running : Bool) (q : List DatagramPacket) :
    WorkerPc → Option (List DatagramPacket × WorkerPc)
  | .testing => some (q, if running then .popping else .returned)
  | .popping => some (pop q)
  | .waiting => none
  | .notified => some (popNotified q)
  | .popped pkt =>
    some (q, if running = false then .returned
      else if pkt.effective = 0 then .returned else .handling pkt)
  | .handling _ => some (q, .testing)
  | .returned => none

inductive Input where
  /-- `HandleRead` of the receiver gets a packet, and `Push` appends it to the queue. -/
  | handleRead (pkt : DatagramPacket)
  /-- `Push` calls `notify_one`. -/
  | notify (w : Option Nat)
  /-- The thread `w` goes on. -/
  | work (w : Nat)
  /-- A thread calls `Stop`. -/
  | stop
  /-- `Stop` calls `Wakeup`. -/
  | wakeup (w : Option Nat)
  /-- `Stop` has joined the next thread. -/
  | join
  deriving DecidableEq, Repr

def step (s : UDPWorkder) : Input → Option UDPWorkder
  | .handleRead pkt =>
    if s.pushing then none
    else if pkt.effective = 0 then some s
    else some { s with pktQueue := s.pktQueue ++ [pkt], pushing := true }
  | .notify w =>
    if s.pushing then
      (notifyOne s.threadList w).map fun threads =>
        { s with threadList := threads, pushing := false }
    else none
  | .work w =>
    match s.threadList[w]? with
    | none => none
    | some pc =>
      (onThreadProcessPacket s.running s.pktQueue pc).map fun r =>
        { s with pktQueue := r.1, threadList := s.threadList.set w r.2 }
  | .stop =>
    if s.running then some { s with running := false, stop := .wakeup } else some s
  | .wakeup w =>
    if s.stop = .wakeup then
      (notifyOne s.threadList w).map fun threads =>
        { s with threadList := threads, stop := .joining 0 }
    else none
  | .join =>
    match s.stop with
    | .joining k =>
      if s.threadList[k]? = some .returned then some { s with stop := .joining (k + 1) }
      else none
    | _ => none

/-! ## Steps -/

/-- What a step can be, with all that is known when it is taken. -/
inductive Next (s : UDPWorkder) : Input → UDPWorkder → Prop where
  | handleRead {pkt : DatagramPacket} (hidle : s.pushing = false) (hpkt : 0 < pkt.effective) :
      Next s (.handleRead pkt) { s with pktQueue := s.pktQueue ++ [pkt], pushing := true }
  | readNothing {pkt : DatagramPacket} (hpkt : pkt.effective = 0) : Next s (.handleRead pkt) s
  | notify {w : Option Nat} {threads : List WorkerPc} (hpush : s.pushing = true)
      (hn : notifyOne s.threadList w = some threads) :
      Next s (.notify w) { s with threadList := threads, pushing := false }
  | work {w : Nat} {pc pc' : WorkerPc} {q : List DatagramPacket}
      (hpc : s.threadList[w]? = some pc)
      (hgo : onThreadProcessPacket s.running s.pktQueue pc = some (q, pc')) :
      Next s (.work w) { s with pktQueue := q, threadList := s.threadList.set w pc' }
  | stop (hrun : s.running = true) : Next s .stop { s with running := false, stop := .wakeup }
  | stopAgain (hrun : s.running = false) : Next s .stop s
  | wakeup {w : Option Nat} {threads : List WorkerPc} (hstop : s.stop = .wakeup)
      (hn : notifyOne s.threadList w = some threads) :
      Next s (.wakeup w) { s with threadList := threads, stop := .joining 0 }
  | join {k : Nat} (hstop : s.stop = .joining k) (hret : s.threadList[k]? = some .returned) :
      Next s .join { s with stop := .joining (k + 1) }

theorem step_next {s s' : UDPWorkder} {i : Input} (h : s.step i = some s') : s.Next i s' := by
  cases i with
  | handleRead pkt =>
    simp only [step] at h
    split at h
    · cases h
    · rename_i hidle
      split at h
      · rename_i hpkt
        cases h
        exact .readNothing hpkt
      · rename_i hpkt
        cases h
        exact .handleRead (Bool.eq_false_iff.mpr hidle) (Nat.pos_of_ne_zero hpkt)
  | notify w =>
    simp only [step] at h
    split at h
    · rename_i hpush
      obtain ⟨threads, hn, rfl⟩ := Option.map_eq_some_iff.mp h
      exact .notify hpush hn
    · cases h
  | work w =>
    simp only [step] at h
    split at h
    · cases h
    · rename_i pc hpc
      obtain ⟨r, hgo, rfl⟩ := Option.map_eq_some_iff.mp h
      exact .work hpc hgo
  | stop =>
    simp only [step] at h
    split at h
    · rename_i hrun
      cases h
      exact .stop hrun
    · rename_i hrun
      cases h
      exact .stopAgain (Bool.eq_false_iff.mpr hrun)
  | wakeup w =>
    simp only [step] at h
    split at h
    · rename_i hstop
      obtain ⟨threads, hn, rfl⟩ := Option.map_eq_some_iff.mp h
      exact .wakeup hstop hn
    · cases h
  | join =>
    simp only [step] at h
    split at h
    · rename_i k hstop
      split at h
      · rename_i hret
        cases h
        exact .join hstop hret
      · cases h
    · cases h

theorem step_work {s : UDPWorkder} {w : Nat} {pc pc' : WorkerPc} {q : List DatagramPacket}
    (hpc : s.threadList[w]? = some pc)
    (hgo : onThreadProcessPacket s.running s.pktQueue pc = some (q, pc')) :
    s.step (.work w) = some { s with pktQueue := q, threadList := s.threadList.set w pc' } := by
  simp [step, hpc, hgo]

/-- `notify_one` finds nobody, or wakes one of those who wait. -/
theorem notifyOne_cases {threads threads' : List WorkerPc} {w : Option Nat}
    (h : notifyOne threads w = some threads') :
    (.waiting ∉ threads ∧ threads' = threads) ∨
    ∃ k, threads[k]? = some .waiting ∧ threads' = threads.set k .notified := by
  cases w with
  | none =>
    simp only [notifyOne] at h
    split at h
    · cases h
    · rename_i hnone
      cases h
      exact .inl ⟨hnone, rfl⟩
  | some k =>
    simp only [notifyOne] at h
    split at h
    · rename_i hk
      cases h
      exact .inr ⟨k, hk, rfl⟩
    · cases h

/-- Whoever waits can be woken. -/
theorem exists_notifyOne (threads : List WorkerPc) :
    ∃ w threads', notifyOne threads w = some threads' := by
  by_cases hw : WorkerPc.waiting ∈ threads
  · obtain ⟨k, hk⟩ := List.mem_iff_getElem?.mp hw
    exact ⟨some k, _, if_pos hk⟩
  · exact ⟨none, threads, if_neg hw⟩

end UDPWorkder

end LinuxNet
