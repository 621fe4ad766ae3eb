import LinuxNet.Udp.Workers
import Mathlib.Data.List.Perm.Basic

/-!
# What becomes of a packet

The receiver pushes the packets it reads, and a thread that has taken one out of the queue hands
it to `callback_rcv_pkt_`, or leaves with it when it finds `running_` false. The history of a run
says which thread did what. Whatever the order in which the threads go on, the queue gives the
packets away as they came, each to one thread, and a packet is handled once, dropped once, in the
hands of one thread, or still in the queue.
-/

namespace LinuxNet

set_option autoImplicit false

open LinuxNet.Lib

/-- What happens to a packet; the numbers are those of the threads. -/
inductive Transfer where
  | pushed (pkt : DatagramPacket)
  | taken (w : Nat) (pkt : DatagramPacket)
  /-- `callback_rcv_pkt_` is called. -/
  | handled (w : Nat) (pkt : DatagramPacket)
  /-- The thread returns with it. -/
  | dropped (w : Nat) (pkt : DatagramPacket)
  deriving DecidableEq, Repr

namespace Transfer

def pushed? : Transfer → Option DatagramPacket
  | .pushed pkt => some pkt
  | _ => none

def taken? : Transfer → Option (Nat × DatagramPacket)
  | .taken w pkt => some (w, pkt)
  | _ => none

def handled? : Transfer → Option (Nat × DatagramPacket)
  | .handled w pkt => some (w, pkt)
  | _ => none

def dropped? : Transfer → Option (Nat × DatagramPacket)
  | .dropped w pkt => some (w, pkt)
  | _ => none

end Transfer

/-- The packets, without the threads. -/
def packets (l : List (Nat × DatagramPacket)) : List DatagramPacket := l.map Prod.snd

/-- The packets of the thread `w`. -/
def packetsOf (w : Nat) (l : List (Nat × DatagramPacket)) : List DatagramPacket :=
  packets (l.filter fun e => e.1 == w)

/-- The packet a thread has taken and not yet handed on. -/
def WorkerPc.inHand : WorkerPc → Option DatagramPacket
  | .popped pkt => if pkt.effective = 0 then none else some pkt
  | _ => none

theorem WorkerPc.inHand_popped {pkt : DatagramPacket} (h : 0 < pkt.effective) :
    (WorkerPc.popped pkt).inHand = some pkt := if_neg (Nat.pos_iff_ne_zero.mp h)

namespace UDPWorkder

/-- What the thread `w` does with a packet in its next step. -/
def worked (running : Bool) (q : List DatagramPacket) (w : Nat) : WorkerPc → List Transfer
  | .popping | .notified => q.head?.toList.map (.taken w)
  | .popped pkt =>
    if pkt.effective = 0 then [] else if running then [.handled w pkt] else [.dropped w pkt]
  | _ => []

def observed (s : UDPWorkder) : Input → UDPWorkder → List Transfer
  | .handleRead pkt, _ => if pkt.effective = 0 then [] else [.pushed pkt]
  | .work w, _ => s.threadList[w]?.elim [] (worked s.running s.pktQueue w)
  | .notify _, _ | .stop, _ | .wakeup _, _ | .join, _ => []

/-- The packets in the hands of the threads. -/
def inHands (s : UDPWorkder) : List DatagramPacket := s.threadList.filterMap WorkerPc.inHand

/-- What is true of a worker with `n` threads and of all that has happened to packets. -/
structure Conveys (s : UDPWorkder) (n : Nat) (h : List Transfer) : Prop where
  /-- The queue gives away what was pushed first. -/
  fifo : packets (h.filterMap Transfer.taken?) ++ s.pktQueue = h.filterMap Transfer.pushed?
  /-- No packet is lost, or comes twice. -/
  conserved : (h.filterMap Transfer.pushed?).Perm
    (packets (h.filterMap Transfer.handled?) ++ packets (h.filterMap Transfer.dropped?) ++
      s.inHands ++ s.pktQueue)
  /-- Every packet that was read is worth a callback. -/
  nonempty : ∀ pkt ∈ h.filterMap Transfer.pushed?, 0 < pkt.effective
  /-- A thread handles its packets in the order in which it took them, and returns with the last
  of them if at all. -/
  ordered : ∀ w, packetsOf w (h.filterMap Transfer.handled?) ++
    packetsOf w (h.filterMap Transfer.dropped?) ++
    (s.threadList[w]?.bind WorkerPc.inHand).toList = packetsOf w (h.filterMap Transfer.taken?)
  /-- A thread that has dropped a packet does nothing any more. -/
  last : ∀ w, packetsOf w (h.filterMap Transfer.dropped?) ≠ [] →
    s.threadList[w]? = some .returned
  running : s.running = true → h.filterMap Transfer.dropped? = []
  dropped : (h.filterMap Transfer.dropped?).length ≤ s.threadList.count .returned
  length : s.threadList.length = n
  threads : ∀ e ∈ h.filterMap Transfer.taken? ++ h.filterMap Transfer.handled?, e.1 < n

/-! ## One step of a thread -/

/-- What a thread takes comes from the front of the queue, and what it has had in its hands or
has taken is what it hands on, drops, or has in its hands now. -/
structure Moves (running : Bool) (w : Nat) (q q' : List DatagramPacket) (pc pc' : WorkerPc)
    (new : List Transfer) : Prop where
  fifo : packets (new.filterMap Transfer.taken?) ++ q' = q
  balance : packets (new.filterMap Transfer.handled?) ++
    packets (new.filterMap Transfer.dropped?) ++ pc'.inHand.toList =
      pc.inHand.toList ++ packets (new.filterMap Transfer.taken?)
  pushed : new.filterMap Transfer.pushed? = []
  own : ∀ e ∈ new.filterMap Transfer.taken? ++ new.filterMap Transfer.handled? ++
    new.filterMap Transfer.dropped?, e.1 = w
  dropped : new.filterMap Transfer.dropped? ≠ [] →
    running = false ∧ pc' = .returned ∧ (new.filterMap Transfer.dropped?).length = 1

section Moving

variable {running : Bool} {q q' : List DatagramPacket} {pc pc' : WorkerPc}

theorem moves_nothing (w : Nat) (hpc : pc.inHand = none) (hpc' : pc'.inHand = none) :
    Moves running w q q pc pc' [] where
  fifo := rfl
  balance := by simp [hpc, hpc', packets]
  pushed := rfl
  own := by simp
  dropped := fun hne => absurd rfl hne

theorem moves_takes (w : Nat) {pkt : DatagramPacket} (hpkt : 0 < pkt.effective)
    (hpc : pc.inHand = none) : Moves running w (pkt :: q) q pc (.popped pkt) [.taken w pkt] where
  fifo := rfl
  balance := by
    rw [hpc, WorkerPc.inHand_popped hpkt]
    rfl
  pushed := rfl
  own := by simp [Transfer.taken?, Transfer.handled?, Transfer.dropped?]
  dropped := fun hne => absurd rfl hne

theorem moves_handles (w : Nat) {pkt : DatagramPacket} (hpkt : 0 < pkt.effective) :
    Moves running w q q (.popped pkt) (.handling pkt) [.handled w pkt] where
  fifo := rfl
  balance := by
    rw [WorkerPc.inHand_popped hpkt]
    rfl
  pushed := rfl
  own := by simp [Transfer.taken?, Transfer.handled?, Transfer.dropped?]
  dropped := fun hne => absurd rfl hne

theorem moves_drops (w : Nat) {pkt : DatagramPacket} (hpkt : 0 < pkt.effective) :
    Moves false w q q (.popped pkt) .returned [.dropped w pkt] where
  fifo := rfl
  balance := by
    rw [WorkerPc.inHand_popped hpkt]
    rfl
  pushed := rfl
  own := by simp [Transfer.taken?, Transfer.handled?, Transfer.dropped?]
  dropped := fun _ => ⟨rfl, rfl, rfl⟩

theorem moves_of_pop (w : Nat) (hpc : pc = .popping ∨ pc = .notified)
    (hq : ∀ pkt ∈ q, 0 < pkt.effective)
    (h : onThreadProcessPacket running q pc = some (q', pc')) :
    Moves running w q q' pc pc' (worked running q w pc) := by
  have hnone : pc.inHand = none := by rcases hpc with rfl | rfl <;> rfl
  have hworked : worked running q w pc = q.head?.toList.map (.taken w) := by
    rcases hpc with rfl | rfl <;> rfl
  rw [hworked]
  cases q with
  | nil =>
    have hend : q' = [] ∧ pc'.inHand = none := by
      rcases hpc with rfl | rfl <;>
        simp only [onThreadProcessPacket, pop, popNotified, Option.some.injEq, Prod.mk.injEq] at h
      · obtain ⟨rfl, rfl⟩ := h
        exact ⟨rfl, rfl⟩
      · obtain ⟨rfl, rfl⟩ := h
        exact ⟨rfl, rfl⟩
    obtain ⟨rfl, hpc'⟩ := hend
    exact moves_nothing w hnone hpc'
  | cons pkt rest =>
    have hend : rest = q' ∧ .popped pkt = pc' := by
      rcases hpc with rfl | rfl <;>
        simpa [onThreadProcessPacket, pop, popNotified] using h
    obtain ⟨rfl, rfl⟩ := hend
    exact moves_takes w (hq pkt List.mem_cons_self) hnone

theorem moves_of_step (w : Nat) (hq : ∀ pkt ∈ q, 0 < pkt.effective)
    (h : onThreadProcessPacket running q pc = some (q', pc')) :
    Moves running w q q' pc pc' (worked running q w pc) := by
  cases pc with
  | testing =>
    simp only [onThreadProcessPacket, Option.some.injEq, Prod.mk.injEq] at h
    obtain ⟨rfl, rfl⟩ := h
    exact moves_nothing w rfl (by cases running <;> rfl)
  | popping => exact moves_of_pop w (.inl rfl) hq h
  | waiting | returned => cases h
  | notified => exact moves_of_pop w (.inr rfl) hq h
  | popped pkt =>
    simp only [onThreadProcessPacket, Option.some.injEq, Prod.mk.injEq] at h
    obtain ⟨rfl, rfl⟩ := h
    by_cases hpkt : pkt.effective = 0
    · -- behind `cond_.wait` nothing was found
      have hnothing : worked running q w (.popped pkt) = [] := if_pos hpkt
      rw [hnothing]
      refine moves_nothing w (if_pos hpkt) ?_
      cases running <;> simp [hpkt, WorkerPc.inHand]
    · have hpos : 0 < pkt.effective := Nat.pos_of_ne_zero hpkt
      cases running with
      | true =>
        have hhands : worked true q w (.popped pkt) = [.handled w pkt] := if_neg hpkt
        rw [hhands, if_neg (by decide), if_neg hpkt]
        exact moves_handles w hpos
      | false =>
        have hleaves : worked false q w (.popped pkt) = [.dropped w pkt] := if_neg hpkt
        rw [hleaves, if_pos rfl]
        exact moves_drops w hpos
  | handling pkt =>
    simp only [onThreadProcessPacket, Option.some.injEq, Prod.mk.injEq] at h
    obtain ⟨rfl, rfl⟩ := h
    exact moves_nothing w rfl rfl

end Moving

/-! ## The threads of a worker, one of which goes on -/

section Setting

variable {threads : List WorkerPc} {w : Nat} {pc pc' : WorkerPc}

theorem filterMap_inHand_cons (pc : WorkerPc) (rest : List WorkerPc) :
    (pc :: rest).filterMap WorkerPc.inHand =
      pc.inHand.toList ++ rest.filterMap WorkerPc.inHand := by
  rw [List.filterMap_cons]
  cases pc.inHand <;> rfl

/-- What the thread `w` had in its hands is exchanged for what it has now. -/
theorem inHand_set_perm (h : threads[w]? = some pc) (pc' : WorkerPc) :
    ((threads.set w pc').filterMap WorkerPc.inHand ++ pc.inHand.toList).Perm
      (threads.filterMap WorkerPc.inHand ++ pc'.inHand.toList) := by
  obtain ⟨hlt, rfl⟩ := List.getElem?_eq_some_iff.mp h
  have hset := (List.set_perm_cons_eraseIdx hlt pc').filterMap WorkerPc.inHand
  have hold := (List.getElem_cons_eraseIdx_perm hlt).filterMap WorkerPc.inHand
  rw [filterMap_inHand_cons] at hset hold
  rw [List.perm_iff_count] at hset hold ⊢
  intro pkt
  have hs := hset pkt
  have ho := hold pkt
  simp only [List.count_append] at hs ho ⊢
  omega

end Setting

theorem packets_append (l l' : List (Nat × DatagramPacket)) :
    packets (l ++ l') = packets l ++ packets l' := List.map_append

theorem packetsOf_append (w : Nat) (l l' : List (Nat × DatagramPacket)) :
    packetsOf w (l ++ l') = packetsOf w l ++ packetsOf w l' := by
  simp [packetsOf, packets]

theorem packetsOf_own {w : Nat} {l : List (Nat × DatagramPacket)} (h : ∀ e ∈ l, e.1 = w) :
    packetsOf w l = packets l := by
  rw [packetsOf, List.filter_eq_self.mpr]
  exact fun e he => beq_iff_eq.mpr (h e he)

theorem packetsOf_other {w k : Nat} {l : List (Nat × DatagramPacket)} (h : ∀ e ∈ l, e.1 = w)
    (hk : k ≠ w) : packetsOf k l = [] := by
  rw [packetsOf, List.filter_eq_nil_iff.mpr]
  · rfl
  · intro e he hek
    exact hk ((beq_iff_eq.mp hek).symm.trans (h e he))

/-! ## One step of the worker -/

section Steps

variable {n w : Nat} {h : List Transfer} {s s' : UDPWorkder} {pc pc' : WorkerPc}
  {q : List DatagramPacket}

theorem conveys_init (n : Nat) : (init n).Conveys n [] where
  fifo := rfl
  conserved := by
    have hnone : (init n).inHands = [] := by
      simp [inHands, init, WorkerPc.inHand, List.filterMap_replicate]
    rw [hnone]
    exact .refl _
  nonempty := by simp
  ordered := by
    intro w
    simp only [init, List.getElem?_replicate]
    split <;> rfl
  last := by
    intro w hw
    exact absurd rfl hw
  running := fun _ => rfl
  dropped := Nat.zero_le _
  length := List.length_replicate
  threads := by simp

theorem Conveys.queue_nonempty (hc : s.Conveys n h) : ∀ pkt ∈ s.pktQueue, 0 < pkt.effective := by
  intro pkt hpkt
  refine hc.nonempty pkt ?_
  rw [← hc.fifo]
  exact List.mem_append_right _ hpkt

/-- A thread that can go on has dropped nothing. -/
theorem Conveys.not_dropped (hc : s.Conveys n h) (hpc : s.threadList[w]? = some pc)
    (hret : pc ≠ .returned) : packetsOf w (h.filterMap Transfer.dropped?) = [] := by
  by_contra hne
  have hlast := hc.last w hne
  rw [hpc] at hlast
  exact hret (Option.some.inj hlast)

/-- A thread makes a move. -/
theorem Conveys.move {new : List Transfer} (hc : s.Conveys n h)
    (hpc : s.threadList[w]? = some pc) (hret : pc ≠ .returned)
    (hm : Moves s.running w s.pktQueue q pc pc' new) :
    { s with pktQueue := q, threadList := s.threadList.set w pc' }.Conveys n (h ++ new) := by
  have hown := hm.own
  simp only [List.mem_append, or_imp, forall_and] at hown
  obtain ⟨⟨htaken, hhandled⟩, hdropped⟩ := hown
  have hnone := hc.not_dropped hpc hret
  obtain ⟨hlt, _⟩ := List.getElem?_eq_some_iff.mp hpc
  refine ⟨?_, ?_, ?_, ?_, ?_, ?_, ?_, ?_, ?_⟩
  · rw [List.filterMap_append, List.filterMap_append, hm.pushed, List.append_nil, packets_append,
      List.append_assoc, hm.fifo]
    exact hc.fifo
  · -- what leaves the queue or the hands of the thread is accounted for
    have hset := inHand_set_perm hpc pc'
    have hold := hc.conserved
    rw [List.perm_iff_count] at hset hold ⊢
    intro pkt
    have hs := hset pkt
    have ho := hold pkt
    have hb := congrArg (List.count pkt) hm.balance
    have hf := congrArg (List.count pkt) hm.fifo
    simp only [List.filterMap_append, hm.pushed, packets_append, List.count_append, inHands,
      List.append_nil] at hs ho hb hf ⊢
    omega
  · rw [List.filterMap_append, hm.pushed, List.append_nil]
    exact hc.nonempty
  · intro k
    have hk := hc.ordered k
    simp only [List.filterMap_append, packetsOf_append]
    by_cases hkw : k = w
    · subst hkw
      rw [hnone, hpc, List.append_nil] at hk
      rw [packetsOf_own htaken, packetsOf_own hhandled, packetsOf_own hdropped, hnone, ← hk,
        List.getElem?_set_self hlt, List.nil_append, Option.bind_some, Option.bind_some,
        List.append_assoc, List.append_assoc, List.append_assoc, ← hm.balance, List.append_assoc]
    · rw [packetsOf_other htaken hkw, packetsOf_other hhandled hkw, packetsOf_other hdropped hkw,
        List.getElem?_set_ne (Ne.symm hkw)]
      simpa using hk
  · intro k
    simp only [List.filterMap_append, packetsOf_append]
    by_cases hkw : k = w
    · subst hkw
      rw [packetsOf_own hdropped, hnone, List.nil_append, List.getElem?_set_self hlt]
      intro hne
      have hnew : new.filterMap Transfer.dropped? ≠ [] := by
        intro hnil
        rw [hnil] at hne
        exact hne rfl
      rw [(hm.dropped hnew).2.1]
    · rw [packetsOf_other hdropped hkw, List.append_nil, List.getElem?_set_ne (Ne.symm hkw)]
      exact hc.last k
  · intro hrun
    rw [List.filterMap_append, hc.running hrun, List.nil_append]
    by_contra hne
    exact absurd hrun (by rw [(hm.dropped hne).1]; decide)
  · have hcount := count_set_add hpc pc' .returned
    have hold := hc.dropped
    rw [if_neg hret] at hcount
    rw [List.filterMap_append, List.length_append]
    change _ ≤ (s.threadList.set w pc').count .returned
    by_cases hne : new.filterMap Transfer.dropped? = []
    · rw [hne, List.length_nil]
      omega
    · obtain ⟨_, hpc', hone⟩ := hm.dropped hne
      rw [if_pos hpc'] at hcount
      omega
  · exact (List.length_set ..).trans hc.length
  · have hw : w < n := hc.length ▸ hlt
    have hold := hc.threads
    simp only [List.filterMap_append, List.mem_append, or_imp, forall_and] at hold ⊢
    exact ⟨⟨hold.1, fun e he => htaken e he ▸ hw⟩, hold.2, fun e he => hhandled e he ▸ hw⟩

/-- A thread that is woken keeps what it has. -/
theorem Conveys.notify {threads : List WorkerPc} {k : Option Nat} (hc : s.Conveys n h)
    (hn : notifyOne s.threadList k = some threads) :
    { s with threadList := threads }.Conveys n h := by
  rcases notifyOne_cases hn with ⟨_, rfl⟩ | ⟨w, hw, rfl⟩
  · exact hc
  · have hnothing : Moves s.running w s.pktQueue s.pktQueue .waiting .notified [] :=
      moves_nothing w rfl rfl
    have hwoken := hc.move hw (by decide) hnothing
    rwa [List.append_nil] at hwoken

/-- A packet arrives. -/
theorem Conveys.push {pkt : DatagramPacket} (hc : s.Conveys n h) (hpkt : 0 < pkt.effective) :
    { s with pktQueue := s.pktQueue ++ [pkt], pushing := true }.Conveys n
      (h ++ [Transfer.pushed pkt]) := by
  have htaken : (h ++ [Transfer.pushed pkt]).filterMap Transfer.taken? =
      h.filterMap Transfer.taken? := by
    simp [Transfer.taken?]
  have hhandled : (h ++ [Transfer.pushed pkt]).filterMap Transfer.handled? =
      h.filterMap Transfer.handled? := by
    simp [Transfer.handled?]
  have hdropped : (h ++ [Transfer.pushed pkt]).filterMap Transfer.dropped? =
      h.filterMap Transfer.dropped? := by
    simp [Transfer.dropped?]
  have hpushed : (h ++ [Transfer.pushed pkt]).filterMap Transfer.pushed? =
      h.filterMap Transfer.pushed? ++ [pkt] := by
    simp [Transfer.pushed?]
  refine ⟨?_, ?_, ?_, ?_, ?_, ?_, ?_, hc.length, ?_⟩
  · rw [htaken, hpushed, ← hc.fifo, List.append_assoc]
  · rw [hpushed, hhandled, hdropped]
    have hgrown := hc.conserved.append_right [pkt]
    rwa [List.append_assoc _ s.pktQueue] at hgrown
  · rw [hpushed]
    intro p hp
    rcases List.mem_append.mp hp with hold | hnew
    · exact hc.nonempty p hold
    · rw [List.mem_singleton.mp hnew]
      exact hpkt
  · rw [htaken, hhandled, hdropped]
    exact hc.ordered
  · rw [hdropped]
    exact hc.last
  · rw [hdropped]
    exact hc.running
  · rw [hdropped]
    exact hc.dropped
  · rw [htaken, hhandled]
    exact hc.threads

theorem step_conveys {i : Input} (hc : s.Conveys n h) (hstep : s.step i = some s') :
    s'.Conveys n (h ++ s.observed i s') := by
  cases step_next hstep with
  | handleRead _ hpkt =>
    rw [observed, if_neg (Nat.pos_iff_ne_zero.mp hpkt)]
    exact hc.push hpkt
  | readNothing hpkt =>
    rw [observed, if_pos hpkt, List.append_nil]
    exact hc
  | notify _ hn =>
    rw [observed, List.append_nil]
    exact { hc.notify hn with }
  | @work w pc pc' q hpc hgo =>
    have hret : pc ≠ .returned := by
      rintro rfl
      cases hgo
    rw [observed, hpc, Option.elim_some]
    exact hc.move hpc hret (moves_of_step w hc.queue_nonempty hgo)
  | stop =>
    rw [observed, List.append_nil]
    exact { hc with running := fun hrun => absurd hrun Bool.false_ne_true }
  | stopAgain =>
    rw [observed, List.append_nil]
    exact hc
  | wakeup _ hn =>
    rw [observed, List.append_nil]
    exact { hc.notify hn with }
  | join =>
    rw [observed, List.append_nil]
    exact { hc with }

/-- What a thread has handled it has taken out of the queue in that order. -/
theorem Conveys.handled_sublist (hc : s.Conveys n h) (w : Nat) :
    (packetsOf w (h.filterMap Transfer.handled?)).Sublist (h.filterMap Transfer.pushed?) := by
  have hown : (packetsOf w (h.filterMap Transfer.handled?)).Sublist
      (packetsOf w (h.filterMap Transfer.taken?)) := by
    rw [← hc.ordered w, List.append_assoc]
    exact List.sublist_append_left _ _
  have htaken : (packetsOf w (h.filterMap Transfer.taken?)).Sublist
      (packets (h.filterMap Transfer.taken?)) := List.filter_sublist.map Prod.snd
  rw [← hc.fifo]
  exact (hown.trans htaken).trans (List.sublist_append_left _ _)

/-- A single thread handles the packets as they were pushed. -/
theorem Conveys.handled_prefix (hc : s.Conveys 1 h) :
    packets (h.filterMap Transfer.handled?) <+: h.filterMap Transfer.pushed? := by
  have hthreads := hc.threads
  simp only [List.mem_append, or_imp, forall_and, Nat.lt_one_iff] at hthreads
  have hall := hc.ordered 0
  rw [packetsOf_own hthreads.1, packetsOf_own hthreads.2, List.append_assoc] at hall
  rw [← hc.fifo, ← hall, List.append_assoc]
  exact List.prefix_append _ _

end Steps

/-! ## Runs -/

/-- **What becomes of the packets.** Whatever the receiver, `n` threads and the one that calls
`Stop` do, and in whatever order: the packets leave the queue as they were pushed; a packet that
was pushed has been handled once, or was dropped by a thread that found the worker stopped, or is
in the hands of one thread, or waits in the queue; nothing is dropped while the worker is running,
and at most one packet for each thread ever; and every thread handles its packets in the order in
which they were pushed, which for a single thread means the first ones without a gap. -/
theorem packets_conveyed {n : Nat} {s : UDPWorkder} {is : List Input} {h : List Transfer}
    (hrun : Machine.run step (init n) is = some s)
    (hh : Machine.trace step observed (init n) is = h) :
    packets (h.filterMap Transfer.taken?) ++ s.pktQueue = h.filterMap Transfer.pushed? ∧
    (h.filterMap Transfer.pushed?).Perm
      (packets (h.filterMap Transfer.handled?) ++ packets (h.filterMap Transfer.dropped?) ++
        s.inHands ++ s.pktQueue) ∧
    (s.running = true → h.filterMap Transfer.dropped? = []) ∧
    (h.filterMap Transfer.dropped?).length ≤ n ∧
    (∀ w, (packetsOf w (h.filterMap Transfer.handled?)).Sublist (h.filterMap Transfer.pushed?)) ∧
    (n = 1 → packets (h.filterMap Transfer.handled?) <+: h.filterMap Transfer.pushed?) := by
  have hc : s.Conveys n ([] ++ Machine.trace step observed (init n) is) :=
    Machine.trace_invariant (P := fun h s => s.Conveys n h) step_conveys (conveys_init n) hrun
  rw [List.nil_append, hh] at hc
  have hdropped : (h.filterMap Transfer.dropped?).length ≤ n := by
    have hcount := List.count_le_length (a := WorkerPc.returned) (l := s.threadList)
    have hreturned := hc.dropped
    have hlength := hc.length
    omega
  refine ⟨hc.fifo, hc.conserved, hc.running, hdropped, hc.handled_sublist, ?_⟩
  rintro rfl
  exact hc.handled_prefix

/-- Three packets for two threads: the second packet is handled before the first one, and when the
worker is stopped the thread that has taken the first one drops it. The third one stays where it
is. -/
theorem packets_conveyed_two_threads :
    ∃ (s : UDPWorkder) (h : List Transfer),
      h.filterMap Transfer.handled? = [(1, ⟨[2], 1⟩)] ∧
      h.filterMap Transfer.dropped? = [(0, ⟨[1], 1⟩)] ∧
      (h.filterMap Transfer.pushed?).Perm
        (packets (h.filterMap Transfer.handled?) ++ packets (h.filterMap Transfer.dropped?) ++
          s.inHands ++ s.pktQueue) := by
  obtain ⟨s, hrun, -⟩ := Option.map_eq_some_iff.mp
    (show (Machine.run step (init 2)
      [.handleRead ⟨[1], 1⟩, .notify none, .handleRead ⟨[2], 1⟩, .notify none, .work 0, .work 0,
        .work 1, .work 1, .work 1, .handleRead ⟨[3], 1⟩, .stop, .work 0]).map
      (fun s => s.pktQueue) = some [⟨[3], 1⟩] by decide +kernel)
  exact ⟨s, _, by decide +kernel, by decide +kernel, (packets_conveyed hrun rfl).2.1⟩

end UDPWorkder

end LinuxNet
