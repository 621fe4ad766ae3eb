import LinuxNet.Udp.Pipeline
import LinuxNet.Udp.Socket

/-!
# A UDP server, from datagram to datagram

A running `UDPServer`: its socket, the receiver that reads it, the queue, and the threads of the
worker, whose callback may send with `UDPServer::Send`. The network may lose, repeat and reorder
what is sent to the server. `UDPWorkder` has the packets without `address_`; here the addresses
travel beside them, as the packets are pushed, popped and moved.

Every datagram is accounted for from the network to the callback, and what a callback sends back
with the packet it was given goes to where the datagram came from.
-/

namespace LinuxNet

set_option autoImplicit false

open LinuxNet.Lib

structure UDPService where
  socket : DatagramSocket
  worker : UDPWorkder
  /-- `address_` of the packets in `pkt_queue_`. -/
  addressQueue : List InetAddress
  /-- `address_` of the packet that each thread has had last. -/
  addressList : List InetAddress
  /-- On their way to the server. -/
  flying : List Datagram
  /-- In the socket. -/
  unread : List Datagram
  deriving DecidableEq

namespace UDPService

/-- What `Start` gives to `set_pkt_size`. -/
def kPktSize : Nat := 1500

/-- `UDPServer(rcv_addr)` and `Start`. -/
def start (rcvAddr : InetAddress) (ok : Bool) (threadNums : Nat) : Option UDPService :=
  (DatagramSocket.ofAddr rcvAddr ok).map fun socket =>
    { socket := socket
      worker := .init threadNums
      addressQueue := []
      addressList := List.replicate threadNums .zero
      flying := []
      unread := [] }

/-- What `Receive` makes of a datagram. -/
@[irreducible] def received (d : Datagram) : AddressedPacket :=
  DatagramSocket.receive kPktSize (some d)

/-- In its next step the thread `w` takes a packet out of the queue, with its address. -/
def pops (s : UDPService) (w : Nat) : Bool :=
  (s.worker.threadList[w]? == some .popping || s.worker.threadList[w]? == some .notified) &&
    !s.worker.pktQueue.isEmpty

inductive Input where
  /-- Somebody sends a datagram to the server. -/
  | arrive (d : Datagram)
  | duplicate (k : Nat)
  | lose (k : Nat)
  /-- A datagram gets to the socket. -/
  | deliver (k : Nat)
  /-- `UDPReceiver::HandleRead`. -/
  | handleRead
  /-- The thread `w` goes on. -/
  | work (w : Nat)
  /-- The callback in the thread `w` calls `UDPServer::Send` with its packet. -/
  | reply (w : Nat) (own : InEndpoint) (ok : Bool)
  /-- The other steps of the receiver and of the thread that calls `Stop`. -/
  | notify (w : Option Nat)
  | stop
  | wakeup (w : Option Nat)
  | join
  deriving DecidableEq

/-- A step that moves no packet. -/
def workerStep (s : UDPService) (i : UDPWorkder.Input) : Option UDPService :=
  (s.worker.step i).map fun worker => { s with worker := worker }

def step (s : UDPService) : Input → Option UDPService
  | .arrive d => some { s with flying := s.flying ++ [d] }
  | .duplicate k => s.flying[k]?.map fun d => { s with flying := s.flying ++ [d] }
  | .lose k => s.flying[k]?.map fun _ => { s with flying := s.flying.eraseIdx k }
  | .deliver k =>
    s.flying[k]?.map fun d =>
      { s with flying := s.flying.eraseIdx k, unread := s.unread ++ [d] }
  | .handleRead =>
    match s.unread with
    | [] => none
    | d :: rest =>
      if s.worker.pushing then none
      else if (received d).effective = 0 then some { s with unread := rest }
      else
        (s.worker.step (.handleRead (received d).toDatagramPacket)).map fun worker =>
          { s with
            worker := worker
            unread := rest
            addressQueue := s.addressQueue ++ [(received d).address] }
  | .work w =>
    (s.worker.step (.work w)).map fun worker =>
      if s.pops w then
        { s with
          worker := worker
          addressQueue := s.addressQueue.tail
          addressList := s.addressList.set w (s.addressQueue.headD .zero) }
      else { s with worker := worker }
  | .reply w _ _ =>
    match s.worker.threadList[w]? with
    | some (.handling _) => some s
    | _ => none
  | .notify w => s.workerStep (.notify w)
  | .stop => s.workerStep .stop
  | .wakeup w => s.workerStep (.wakeup w)
  | .join => s.workerStep .join

/-! ## What is seen of a run -/

inductive Event where
  /-- The network has got a datagram from its sender, or by itself. -/
  | entered (d : Datagram)
  | lost (d : Datagram)
  /-- `HandleRead` returns on an empty packet. -/
  | ignored (d : Datagram)
  /-- `HandleRead` pushes the packet. -/
  | read (d : Datagram)
  /-- `callback_rcv_pkt_` is called. -/
  | handled (pkt : AddressedPacket)
  /-- A thread returns with the packet. -/
  | dropped (pkt : AddressedPacket)
  /-- `UDPServer::Send` with the packet of the callback, and what goes out. -/
  | replied (pkt : AddressedPacket) (own : InEndpoint) (ok : Bool) (out : Option Datagram)
  deriving DecidableEq

namespace Event

def entered? : Event → Option Datagram
  | .entered d => some d
  | _ => none

def lost? : Event → Option Datagram
  | .lost d => some d
  | _ => none

def ignored? : Event → Option Datagram
  | .ignored d => some d
  | _ => none

def read? : Event → Option Datagram
  | .read d => some d
  | _ => none

def handled? : Event → Option AddressedPacket
  | .handled pkt => some pkt
  | _ => none

def dropped? : Event → Option AddressedPacket
  | .dropped pkt => some pkt
  | _ => none

end Event

/-- What the thread `w` does in its next step with the packet it has taken. -/
def worked (s : UDPService) (w : Nat) : List Event :=
  match s.worker.threadList[w]?, s.addressList[w]? with
  | some (.popped pkt), some a =>
    if pkt.effective = 0 then []
    else if s.worker.running then [.handled ⟨pkt, a⟩] else [.dropped ⟨pkt, a⟩]
  | _, _ => []

/-- What `UDPServer::Send` does with the packet of the callback. -/
def replied (s : UDPService) (w : Nat) (own : InEndpoint) (ok : Bool) : List Event :=
  match s.worker.threadList[w]?, s.addressList[w]? with
  | some (.handling pkt), some a =>
    [.replied ⟨pkt, a⟩ own ok (s.socket.send own ⟨pkt, a⟩ ok)]
  | _, _ => []

def observed (s : UDPService) : Input → UDPService → List Event
  | .arrive d, _ => [.entered d]
  | .duplicate k, _ => s.flying[k]?.toList.map .entered
  | .lose k, _ => s.flying[k]?.toList.map .lost
  | .handleRead, _ =>
    s.unread.head?.toList.map fun d =>
      if (received d).effective = 0 then .ignored d else .read d
  | .work w, _ => s.worked w
  | .reply w own ok, _ => s.replied w own ok
  | .deliver _, _ | .notify _, _ | .stop, _ | .wakeup _, _ | .join, _ => []

/-- The packet a thread has taken and not yet handed on, with its address. -/
def inHand (pc : WorkerPc) (a : InetAddress) : List AddressedPacket :=
  (pc.inHand.map fun pkt => ⟨pkt, a⟩).toList

def heldBy : List WorkerPc → List InetAddress → List AddressedPacket
  | pc :: threads, a :: addresses => inHand pc a ++ heldBy threads addresses
  | _, _ => []

/-- The packets in the hands of the threads. -/
def held (s : UDPService) : List AddressedPacket := heldBy s.worker.threadList s.addressList

/-- The packets in the queue. -/
def waiting (s : UDPService) : List AddressedPacket :=
  List.zipWith AddressedPacket.mk s.worker.pktQueue s.addressQueue

/-- What is true of a server and of all that has been seen. -/
structure Serves (h : List Event) (s : UDPService) : Prop where
  /-- No datagram disappears between the network and the receiver. -/
  network : (h.filterMap Event.entered?).Perm
    (h.filterMap Event.lost? ++ s.flying ++ s.unread ++ h.filterMap Event.ignored? ++
      h.filterMap Event.read?)
  /-- No packet disappears between the receiver and the callbacks. -/
  pipeline : ((h.filterMap Event.read?).map received).Perm
    (h.filterMap Event.handled? ++ h.filterMap Event.dropped? ++ s.held ++ s.waiting)
  ignored : ∀ d ∈ h.filterMap Event.ignored?, d.data = []
  read : ∀ d ∈ h.filterMap Event.read?, d.data ≠ []
  queue : ∀ pkt ∈ s.worker.pktQueue, 0 < pkt.effective
  queueLength : s.addressQueue.length = s.worker.pktQueue.length
  listLength : s.addressList.length = s.worker.threadList.length
  running : s.worker.running = true → h.filterMap Event.dropped? = []
  /-- A callback has the packet it was called with. -/
  handling : ∀ (w : Nat) (pkt : DatagramPacket) a, s.worker.threadList[w]? = some (.handling pkt) →
    s.addressList[w]? = some a → ⟨pkt, a⟩ ∈ h.filterMap Event.handled?
  replied : ∀ pkt own ok out, .replied pkt own ok out ∈ h →
    pkt ∈ h.filterMap Event.handled? ∧ out = s.socket.send own pkt ok
  unconnected : s.socket.connected = false

/-! ## The packets in the hands of the threads -/

section Setting

variable {threads : List WorkerPc} {addresses : List InetAddress} {w : Nat} {pc : WorkerPc}
  {a : InetAddress}

/-- What the thread `w` had in its hands is exchanged for what it has now. -/
theorem heldBy_set (hpc : threads[w]? = some pc) (ha : addresses[w]? = some a) (pc' : WorkerPc)
    (a' : InetAddress) :
    (heldBy (threads.set w pc') (addresses.set w a') ++ inHand pc a).Perm
      (heldBy threads addresses ++ inHand pc' a') := by
  induction threads generalizing addresses w with
  | nil => cases hpc
  | cons first threads ih =>
    cases addresses with
    | nil => cases ha
    | cons b addresses =>
      cases w with
      | zero =>
        cases hpc
        cases ha
        simp only [List.set_cons_zero, heldBy, List.perm_iff_count, List.count_append]
        omega
      | succ w =>
        have hrest := @ih addresses w hpc ha
        simp only [List.set_cons_succ, heldBy, List.perm_iff_count, List.count_append] at hrest ⊢
        intro pkt
        have := hrest pkt
        omega

theorem heldBy_replicate (n : Nat) :
    heldBy (List.replicate n .testing) (List.replicate n .zero) = [] := by
  induction n with
  | zero => rfl
  | succ n ih => exact ih

/-- Who is woken up has nothing in its hands. -/
theorem heldBy_notifyOne {threads' : List WorkerPc} {k : Option Nat}
    (h : UDPWorkder.notifyOne threads k = some threads')
    (hlen : addresses.length = threads.length) :
    (heldBy threads' addresses).Perm (heldBy threads addresses) ∧
    threads'.length = threads.length ∧
    ∀ (w : Nat) (pkt : DatagramPacket), threads'[w]? = some (.handling pkt) →
      threads[w]? = some (.handling pkt) := by
  rcases UDPWorkder.notifyOne_cases h with ⟨-, rfl⟩ | ⟨k, hk, rfl⟩
  · exact ⟨.refl _, rfl, fun _ _ h => h⟩
  · obtain ⟨hlt, -⟩ := List.getElem?_eq_some_iff.mp hk
    have hb : addresses[k]? = some addresses[k] := List.getElem?_eq_getElem (by omega)
    have hset := heldBy_set hk hb .notified addresses[k]
    rw [List.set_getElem_self] at hset
    refine ⟨by simpa [inHand, WorkerPc.inHand] using hset, List.length_set, ?_⟩
    intro w pkt hw
    rw [List.getElem?_set] at hw
    split at hw
    · cases hw
    · exact hw

end Setting

section Steps

variable {h : List Event} {s s' : UDPService}

/-- Events of other kinds are skipped. -/
theorem filterMap_skip {α : Type} {f : Event → Option α} {new : List Event} (h : List Event)
    (hnew : ∀ e ∈ new, f e = none) : (h ++ new).filterMap f = h.filterMap f := by
  rw [List.filterMap_append, List.filterMap_eq_nil_iff.mpr hnew, List.append_nil]

/-! ## The network -/

theorem serves_start {rcvAddr : InetAddress} {ok : Bool} {threadNums : Nat}
    (hs : start rcvAddr ok threadNums = some s) : Serves [] s := by
  obtain ⟨socket, hsocket, rfl⟩ := Option.map_eq_some_iff.mp hs
  have hheld := heldBy_replicate threadNums
  rw [DatagramSocket.ofAddr, DatagramSocket.bind] at hsocket
  split at hsocket
  · cases hsocket
    refine ⟨?_, ?_, ?_, ?_, ?_, ?_, ?_, ?_, ?_, ?_, rfl⟩
    all_goals simp [held, waiting, UDPWorkder.init, hheld, List.getElem?_replicate]
  · cases hsocket

/-- Datagrams enter the network, get lost, or get to the socket. -/
theorem Serves.carry {new : List Event} {flying unread : List Datagram} (hs : Serves h s)
    (hnew : ∀ e ∈ new, (∃ d, e = .entered d) ∨ ∃ d, e = .lost d)
    (hnet : (new.filterMap Event.entered? ++ s.flying ++ s.unread).Perm
      (new.filterMap Event.lost? ++ flying ++ unread)) :
    Serves (h ++ new) { s with flying := flying, unread := unread } := by
  have hnone {α : Type} (f : Event → Option α) (hentered : ∀ d, f (.entered d) = none)
      (hlost : ∀ d, f (.lost d) = none) : (h ++ new).filterMap f = h.filterMap f := by
    refine filterMap_skip h fun e he => ?_
    rcases hnew e he with ⟨d, rfl⟩ | ⟨d, rfl⟩
    · exact hentered d
    · exact hlost d
  have hignored := hnone Event.ignored? (fun _ => rfl) fun _ => rfl
  have hread := hnone Event.read? (fun _ => rfl) fun _ => rfl
  have hhandled := hnone Event.handled? (fun _ => rfl) fun _ => rfl
  have hdropped := hnone Event.dropped? (fun _ => rfl) fun _ => rfl
  constructor
  case network =>
    rw [hignored, hread, List.filterMap_append, List.filterMap_append]
    have hold := hs.network
    simp only [List.perm_iff_count, List.count_append] at hold hnet ⊢
    intro d
    have := hold d
    have := hnet d
    omega
  case pipeline =>
    rw [hread, hhandled, hdropped]
    exact hs.pipeline
  case ignored => rw [hignored]; exact hs.ignored
  case read => rw [hread]; exact hs.read
  case queue => exact hs.queue
  case queueLength => exact hs.queueLength
  case listLength => exact hs.listLength
  case running => rw [hdropped]; exact hs.running
  case handling => rw [hhandled]; exact hs.handling
  case replied =>
    rw [hhandled]
    intro pkt own ok out hmem
    rcases List.mem_append.mp hmem with hold | hnow
    · exact hs.replied pkt own ok out hold
    · rcases hnew _ hnow with ⟨d, hd⟩ | ⟨d, hd⟩ <;> cases hd
  case unconnected => exact hs.unconnected

theorem Serves.enter (hs : Serves h s) (d : Datagram) :
    Serves (h ++ [.entered d]) { s with flying := s.flying ++ [d] } := by
  refine hs.carry (by simp) ?_
  simp only [List.perm_iff_count, List.count_append, List.filterMap_cons, List.filterMap_nil,
    Event.entered?, Event.lost?, List.count_nil]
  intro x
  omega

theorem Serves.lose (hs : Serves h s) {k : Nat} {d : Datagram} (hk : s.flying[k]? = some d) :
    Serves (h ++ [.lost d]) { s with flying := s.flying.eraseIdx k } := by
  obtain ⟨hlt, rfl⟩ := List.getElem?_eq_some_iff.mp hk
  refine hs.carry (by simp) ?_
  have hcut := List.getElem_cons_eraseIdx_perm hlt
  exact (hcut.symm.append_right _)

theorem Serves.deliver (hs : Serves h s) {k : Nat} {d : Datagram} (hk : s.flying[k]? = some d) :
    Serves (h ++ []) { s with flying := s.flying.eraseIdx k, unread := s.unread ++ [d] } := by
  obtain ⟨hlt, rfl⟩ := List.getElem?_eq_some_iff.mp hk
  refine hs.carry (by simp) ?_
  have hcut := List.getElem_cons_eraseIdx_perm hlt
  simp only [List.perm_iff_count, List.count_append, List.count_cons, List.filterMap_nil,
    List.count_nil] at hcut ⊢
  intro x
  have := hcut x
  omega

/-! ## The receiver -/

theorem received_effective (d : Datagram) : (received d).effective = 0 ↔ d.data = [] := by
  have hsize : 0 < kPktSize := by decide
  have heffective := DatagramSocket.effective_receive (d := d) hsize
  unfold received
  exact heffective

/-- `HandleRead` returns on an empty packet. -/
theorem Serves.ignore (hs : Serves h s) {d : Datagram} {rest : List Datagram}
    (hd : s.unread = d :: rest) (hempty : d.data = []) :
    Serves (h ++ [.ignored d]) { s with unread := rest } := by
  have hread : (h ++ [Event.ignored d]).filterMap Event.read? = h.filterMap Event.read? :=
    filterMap_skip h (by simp [Event.read?])
  have hhandled : (h ++ [Event.ignored d]).filterMap Event.handled? = h.filterMap Event.handled? :=
    filterMap_skip h (by simp [Event.handled?])
  have hdropped : (h ++ [Event.ignored d]).filterMap Event.dropped? = h.filterMap Event.dropped? :=
    filterMap_skip h (by simp [Event.dropped?])
  constructor
  case network =>
    have hold := hs.network
    rw [hd] at hold
    simp only [List.perm_iff_count, List.count_append, List.count_cons, List.filterMap_append,
      List.filterMap_cons, List.filterMap_nil, Event.entered?, Event.lost?, Event.ignored?,
      Event.read?, List.count_nil] at hold ⊢
    intro x
    have := hold x
    omega
  case pipeline =>
    rw [hread, hhandled, hdropped]
    exact hs.pipeline
  case ignored =>
    simp only [List.filterMap_append, List.mem_append]
    rintro x (hold | hnew)
    · exact hs.ignored x hold
    · cases List.mem_singleton.mp hnew
      exact hempty
  case read => rw [hread]; exact hs.read
  case queue => exact hs.queue
  case queueLength => exact hs.queueLength
  case listLength => exact hs.listLength
  case running => rw [hdropped]; exact hs.running
  case handling => rw [hhandled]; exact hs.handling
  case replied => rw [hhandled]; simpa using hs.replied
  case unconnected => exact hs.unconnected

/-- `HandleRead` pushes the packet. -/
theorem Serves.push (hs : Serves h s) {d : Datagram} {rest : List Datagram}
    (hd : s.unread = d :: rest) (hne : d.data ≠ []) :
    Serves (h ++ [.read d])
      { s with
        worker := { s.worker with
          pktQueue := s.worker.pktQueue ++ [(received d).toDatagramPacket], pushing := true }
        unread := rest
        addressQueue := s.addressQueue ++ [(received d).address] } := by
  have hignored : (h ++ [Event.read d]).filterMap Event.ignored? = h.filterMap Event.ignored? :=
    filterMap_skip h (by simp [Event.ignored?])
  have hhandled : (h ++ [Event.read d]).filterMap Event.handled? = h.filterMap Event.handled? :=
    filterMap_skip h (by simp [Event.handled?])
  have hdropped : (h ++ [Event.read d]).filterMap Event.dropped? = h.filterMap Event.dropped? :=
    filterMap_skip h (by simp [Event.dropped?])
  constructor
  case network =>
    have hold := hs.network
    rw [hd] at hold
    simp only [List.perm_iff_count, List.count_append, List.count_cons, List.filterMap_append,
      List.filterMap_cons, List.filterMap_nil, Event.entered?, Event.lost?, Event.ignored?,
      Event.read?, List.count_nil] at hold ⊢
    intro x
    have := hold x
    omega
  case pipeline =>
    have hzip : List.zipWith AddressedPacket.mk
        (s.worker.pktQueue ++ [(received d).toDatagramPacket])
        (s.addressQueue ++ [(received d).address]) = s.waiting ++ [received d] :=
      List.zipWith_append hs.queueLength.symm
    have hgrown := hs.pipeline.append_right [received d]
    rw [List.append_assoc _ s.waiting] at hgrown
    rw [hhandled, hdropped, List.filterMap_append, List.map_append, waiting, hzip]
    exact hgrown
  case ignored => rw [hignored]; exact hs.ignored
  case read =>
    simp only [List.filterMap_append, List.mem_append]
    rintro x (hold | hnew)
    · exact hs.read x hold
    · cases List.mem_singleton.mp hnew
      exact hne
  case queue =>
    simp only [List.mem_append, List.mem_singleton]
    rintro pkt (hold | rfl)
    · exact hs.queue pkt hold
    · exact Nat.pos_of_ne_zero fun hzero => hne ((received_effective d).mp hzero)
  case queueLength => simp [hs.queueLength]
  case listLength => exact hs.listLength
  case running => rw [hdropped]; exact hs.running
  case handling => rw [hhandled]; exact hs.handling
  case replied => rw [hhandled]; simpa using hs.replied
  case unconnected => exact hs.unconnected

/-! ## The threads -/

/-- The thread `w` goes on; `new` is what it does with a packet. -/
theorem Serves.move {w : Nat} {pc : WorkerPc} {a : InetAddress} (hs : Serves h s)
    (new : List Event) (pc' : WorkerPc) (a' : InetAddress) (q : List DatagramPacket)
    (addresses : List InetAddress) (hpc : s.worker.threadList[w]? = some pc)
    (ha : s.addressList[w]? = some a)
    (hnew : ∀ e ∈ new, (∃ pkt, e = .handled pkt) ∨ ∃ pkt, e = .dropped pkt)
    (hbal : (new.filterMap Event.handled? ++ new.filterMap Event.dropped? ++ inHand pc' a' ++
      List.zipWith AddressedPacket.mk q addresses).Perm (inHand pc a ++ s.waiting))
    (hq : ∀ pkt ∈ q, pkt ∈ s.worker.pktQueue) (hlen : addresses.length = q.length)
    (hrun : s.worker.running = true → new.filterMap Event.dropped? = [])
    (hhand : ∀ pkt, pc' = .handling pkt → ⟨pkt, a'⟩ ∈ new.filterMap Event.handled?) :
    Serves (h ++ new)
      { s with
        worker := { s.worker with
          pktQueue := q, threadList := s.worker.threadList.set w pc' }
        addressQueue := addresses
        addressList := s.addressList.set w a' } := by
  have hnone {α : Type} (f : Event → Option α) (hh : ∀ pkt, f (.handled pkt) = none)
      (hd : ∀ pkt, f (.dropped pkt) = none) : (h ++ new).filterMap f = h.filterMap f := by
    refine filterMap_skip h fun e he => ?_
    rcases hnew e he with ⟨d, rfl⟩ | ⟨d, rfl⟩
    · exact hh d
    · exact hd d
  have hread := hnone Event.read? (fun _ => rfl) fun _ => rfl
  have hignored := hnone Event.ignored? (fun _ => rfl) fun _ => rfl
  constructor
  case network =>
    rw [hread, hignored, hnone Event.entered? (fun _ => rfl) fun _ => rfl,
      hnone Event.lost? (fun _ => rfl) fun _ => rfl]
    exact hs.network
  case pipeline =>
    rw [hread, List.filterMap_append, List.filterMap_append]
    have hold := hs.pipeline
    have hset := heldBy_set hpc ha pc' a'
    simp only [held, waiting, List.perm_iff_count, List.count_append] at hold hset hbal ⊢
    intro pkt
    have := hold pkt
    have := hset pkt
    have := hbal pkt
    omega
  case ignored => rw [hignored]; exact hs.ignored
  case read => rw [hread]; exact hs.read
  case queue => exact fun pkt hpkt => hs.queue pkt (hq pkt hpkt)
  case queueLength => exact hlen
  case listLength => rw [List.length_set, List.length_set]; exact hs.listLength
  case running =>
    intro hr
    rw [List.filterMap_append, hs.running hr, hrun hr]
    rfl
  case handling =>
    intro k pkt b hk hb
    rw [List.filterMap_append]
    rw [List.getElem?_set] at hk hb
    by_cases hwk : w = k
    · rw [if_pos hwk] at hk hb
      split at hk
      · split at hb
        · cases hb
          exact List.mem_append_right _ (hhand pkt (Option.some.inj hk))
        · cases hb
      · cases hk
    · rw [if_neg hwk] at hk hb
      exact List.mem_append_left _ (hs.handling k pkt b hk hb)
  case replied =>
    rw [List.filterMap_append]
    intro pkt own ok out hmem
    rcases List.mem_append.mp hmem with hold | hnow
    · obtain ⟨hmem, hout⟩ := hs.replied pkt own ok out hold
      exact ⟨List.mem_append_left _ hmem, hout⟩
    · rcases hnew _ hnow with ⟨d, hd⟩ | ⟨d, hd⟩ <;> cases hd
  case unconnected => exact hs.unconnected

/-- A move without a packet. -/
theorem Serves.stay {w : Nat} {pc pc' : WorkerPc} {a : InetAddress} (hs : Serves h s)
    (hpc : s.worker.threadList[w]? = some pc) (ha : s.addressList[w]? = some a)
    (hnone : pc.inHand = none) (hnone' : pc'.inHand = none) (hhand : ∀ pkt, pc' ≠ .handling pkt) :
    Serves (h ++ [])
      { s with worker := { s.worker with threadList := s.worker.threadList.set w pc' } } := by
  have hbal : (inHand pc' a ++ s.waiting).Perm (inHand pc a ++ s.waiting) := by
    rw [inHand, inHand, hnone, hnone']
  have hmove := hs.move [] pc' a s.worker.pktQueue s.addressQueue hpc ha (by simp) hbal
    (fun _ hpkt => hpkt) hs.queueLength (fun _ => rfl) (fun pkt hpkt => absurd hpkt (hhand pkt))
  obtain ⟨hlt, rfl⟩ := List.getElem?_eq_some_iff.mp ha
  rwa [List.set_getElem_self hlt] at hmove

/-- A thread takes a packet, and its address. -/
theorem Serves.take {w : Nat} {pc : WorkerPc} {a b : InetAddress} {pkt : DatagramPacket}
    {q : List DatagramPacket} {addresses : List InetAddress} (hs : Serves h s)
    (hpc : s.worker.threadList[w]? = some pc) (ha : s.addressList[w]? = some a)
    (hnone : pc.inHand = none) (hq : s.worker.pktQueue = pkt :: q)
    (haddr : s.addressQueue = b :: addresses) :
    Serves (h ++ [])
      { s with
        worker := { s.worker with
          pktQueue := q, threadList := s.worker.threadList.set w (.popped pkt) }
        addressQueue := addresses
        addressList := s.addressList.set w b } := by
  have hpos : 0 < pkt.effective := hs.queue pkt (by rw [hq]; exact List.mem_cons_self)
  have hlen := hs.queueLength
  rw [haddr, hq, List.length_cons, List.length_cons] at hlen
  refine hs.move [] (.popped pkt) b q addresses hpc ha (by simp) ?_ ?_ (by omega) (fun _ => rfl)
    (by simp)
  · rw [inHand, inHand, hnone, WorkerPc.inHand_popped hpos, waiting, hq, haddr]
    exact .refl _
  · intro p hp
    rw [hq]
    exact List.mem_cons_of_mem _ hp

/-- A thread calls the callback with its packet, or returns with it. -/
theorem Serves.handOver {w : Nat} {pkt : DatagramPacket} {a : InetAddress} (hs : Serves h s)
    (hpc : s.worker.threadList[w]? = some (.popped pkt)) (ha : s.addressList[w]? = some a)
    (hpkt : pkt.effective ≠ 0) :
    Serves (h ++ [if s.worker.running then .handled ⟨pkt, a⟩ else .dropped ⟨pkt, a⟩])
      { s with worker := { s.worker with
          threadList := s.worker.threadList.set w
            (if s.worker.running then .handling pkt else .returned) } } := by
  have hin : inHand (.popped pkt) a = [⟨pkt, a⟩] := by
    rw [inHand, WorkerPc.inHand_popped (Nat.pos_of_ne_zero hpkt)]
    rfl
  obtain ⟨hlt, haw⟩ := List.getElem?_eq_some_iff.mp ha
  cases hrun : s.worker.running with
  | true =>
    have hmove := hs.move [.handled ⟨pkt, a⟩] (.handling pkt) a s.worker.pktQueue s.addressQueue
      hpc ha (by simp) (by rw [hin]; exact .refl _) (fun _ hp => hp) hs.queueLength
      (fun _ => rfl) (by simp [Event.handled?])
    rw [← haw, List.set_getElem_self hlt, haw] at hmove
    exact hmove
  | false =>
    have hmove := hs.move [.dropped ⟨pkt, a⟩] .returned a s.worker.pktQueue s.addressQueue
      hpc ha (by simp) (by rw [hin]; exact .refl _) (fun _ hp => hp) hs.queueLength
      (fun hr => absurd (hrun.symm.trans hr) Bool.false_ne_true) (by simp)
    rw [← haw, List.set_getElem_self hlt, haw] at hmove
    exact hmove

/-- `Pop` finds nothing, or the packet in front. -/
theorem pop_cases {running : Bool} {pc pc' : WorkerPc} {queue q : List DatagramPacket}
    (hpc : pc = .popping ∨ pc = .notified)
    (hgo : UDPWorkder.onThreadProcessPacket running queue pc = some (q, pc')) :
    (queue = [] ∧ q = [] ∧ pc'.inHand = none ∧ ∀ pkt, pc' ≠ .handling pkt) ∨
    ∃ pkt, queue = pkt :: q ∧ pc' = .popped pkt := by
  cases queue with
  | nil =>
    refine .inl ?_
    rcases hpc with rfl | rfl
    · cases hgo
      exact ⟨rfl, rfl, rfl, by simp⟩
    · cases hgo
      exact ⟨rfl, rfl, rfl, by simp⟩
  | cons pkt rest =>
    refine .inr ⟨pkt, ?_⟩
    rcases hpc with rfl | rfl
    · cases hgo
      exact ⟨rfl, rfl⟩
    · cases hgo
      exact ⟨rfl, rfl⟩

theorem Serves.pop {w : Nat} {pc pc' : WorkerPc} {q : List DatagramPacket} (hs : Serves h s)
    (hwhere : pc = .popping ∨ pc = .notified) (hpc : s.worker.threadList[w]? = some pc)
    (hgo : UDPWorkder.onThreadProcessPacket s.worker.running s.worker.pktQueue pc =
      some (q, pc')) (hstep : s.step (.work w) = some s') : Serves (h ++ s.worked w) s' := by
  have hnone : pc.inHand = none := by rcases hwhere with rfl | rfl <;> rfl
  have hworked : s.worked w = [] := by rcases hwhere with rfl | rfl <;> rw [worked, hpc]
  obtain ⟨hlt, -⟩ := List.getElem?_eq_some_iff.mp hpc
  obtain ⟨a, ha⟩ : ∃ a, s.addressList[w]? = some a :=
    ⟨_, List.getElem?_eq_getElem (by rw [hs.listLength]; exact hlt)⟩
  rw [step, UDPWorkder.step_work hpc hgo, Option.map_some, Option.some.injEq] at hstep
  rw [hworked]
  rcases pop_cases hwhere hgo with ⟨hqueue, rfl, hnone', hhand⟩ | ⟨pkt, hqueue, rfl⟩
  · have hpops : s.pops w = false := by simp [pops, hqueue]
    rw [hpops, if_neg Bool.false_ne_true, ← hqueue] at hstep
    rw [← hstep]
    exact hs.stay hpc ha hnone hnone' hhand
  · have hpops : s.pops w = true := by rcases hwhere with rfl | rfl <;> simp [pops, hqueue, hpc]
    rw [hpops, if_pos rfl] at hstep
    have hlen := hs.queueLength
    rw [hqueue, List.length_cons] at hlen
    obtain ⟨b, addresses, haddr⟩ := List.exists_cons_of_length_eq_add_one hlen
    rw [← hstep, haddr]
    exact hs.take hpc ha hnone hqueue haddr

theorem Serves.work {w : Nat} (hs : Serves h s) (hstep : s.step (.work w) = some s') :
    Serves (h ++ s.worked w) s' := by
  obtain ⟨worker, hworker, hs'⟩ := Option.map_eq_some_iff.mp hstep
  cases UDPWorkder.step_next hworker with
  | @work _ pc pc' q hpc hgo =>
    obtain ⟨hlt, -⟩ := List.getElem?_eq_some_iff.mp hpc
    obtain ⟨a, ha⟩ : ∃ a, s.addressList[w]? = some a :=
      ⟨_, List.getElem?_eq_getElem (by rw [hs.listLength]; exact hlt)⟩
    cases pc with
    | popping => exact hs.pop (.inl rfl) hpc hgo hstep
    | notified => exact hs.pop (.inr rfl) hpc hgo hstep
    | waiting | returned => cases hgo
    | testing =>
      have hpops : s.pops w = false := by simp [pops, hpc]
      have hworked : s.worked w = [] := by rw [worked, hpc]
      rw [hpops, if_neg Bool.false_ne_true] at hs'
      cases hgo
      rw [hworked, ← hs']
      refine hs.stay hpc ha rfl ?_ ?_ <;> cases s.worker.running <;> simp [WorkerPc.inHand]
    | handling pkt =>
      have hpops : s.pops w = false := by simp [pops, hpc]
      have hworked : s.worked w = [] := by rw [worked, hpc]
      rw [hpops, if_neg Bool.false_ne_true] at hs'
      cases hgo
      rw [hworked, ← hs']
      exact hs.stay hpc ha rfl rfl (by simp)
    | popped pkt =>
      have hpops : s.pops w = false := by simp [pops, hpc]
      rw [hpops, if_neg Bool.false_ne_true] at hs'
      cases hgo
      rw [worked, hpc, ha, ← hs']
      by_cases hpkt : pkt.effective = 0
      · simp only [hpkt, if_true]
        refine hs.stay hpc ha (if_pos hpkt) ?_ ?_ <;> cases s.worker.running <;>
          simp [WorkerPc.inHand]
      · have hover := hs.handOver hpc ha hpkt
        simp only [hpkt, if_false]
        cases hrun : s.worker.running <;> simpa [hrun] using hover

theorem Serves.bookkeep {worker : UDPWorkder} (hs : Serves h s)
    (hq : worker.pktQueue = s.worker.pktQueue)
    (hheld : (heldBy worker.threadList s.addressList).Perm s.held)
    (hlen : worker.threadList.length = s.worker.threadList.length)
    (hhand : ∀ (w : Nat) (pkt : DatagramPacket), worker.threadList[w]? = some (.handling pkt) →
      s.worker.threadList[w]? = some (.handling pkt))
    (hrun : worker.running = true → s.worker.running = true) :
    Serves (h ++ []) { s with worker := worker } := by
  rw [List.append_nil]
  refine { hs with
    pipeline := ?_
    queue := by rw [hq]; exact hs.queue
    queueLength := by rw [hq]; exact hs.queueLength
    listLength := by rw [hlen]; exact hs.listLength
    running := fun hr => hs.running (hrun hr)
    handling := fun w pkt a hw => hs.handling w pkt a (hhand w pkt hw) }
  have hgrown := hheld.symm.append_left (h.filterMap Event.handled? ++ h.filterMap Event.dropped?)
  rw [waiting, hq]
  exact hs.pipeline.trans (hgrown.append_right _)

/-- The callback sends its packet. -/
theorem Serves.reply {w : Nat} {pkt : DatagramPacket} {a : InetAddress} (hs : Serves h s)
    (hpc : s.worker.threadList[w]? = some (.handling pkt)) (ha : s.addressList[w]? = some a)
    (own : InEndpoint) (ok : Bool) :
    Serves (h ++ [.replied ⟨pkt, a⟩ own ok (s.socket.send own ⟨pkt, a⟩ ok)]) s := by
  have hskip {α : Type} (f : Event → Option α) (hf : ∀ p e b out, f (.replied p e b out) = none) :
      (h ++ [Event.replied ⟨pkt, a⟩ own ok (s.socket.send own ⟨pkt, a⟩ ok)]).filterMap f =
        h.filterMap f := by
    refine filterMap_skip h fun e he => ?_
    rw [List.mem_singleton.mp he]
    exact hf _ _ _ _
  have hentered := hskip Event.entered? fun _ _ _ _ => rfl
  have hlost := hskip Event.lost? fun _ _ _ _ => rfl
  have hignored := hskip Event.ignored? fun _ _ _ _ => rfl
  have hread := hskip Event.read? fun _ _ _ _ => rfl
  have hhandled := hskip Event.handled? fun _ _ _ _ => rfl
  have hdropped := hskip Event.dropped? fun _ _ _ _ => rfl
  constructor
  case network => rw [hentered, hlost, hignored, hread]; exact hs.network
  case pipeline => rw [hread, hhandled, hdropped]; exact hs.pipeline
  case ignored => rw [hignored]; exact hs.ignored
  case read => rw [hread]; exact hs.read
  case queue => exact hs.queue
  case queueLength => exact hs.queueLength
  case listLength => exact hs.listLength
  case running => rw [hdropped]; exact hs.running
  case handling => rw [hhandled]; exact hs.handling
  case replied =>
    rw [hhandled]
    intro p e b out hmem
    rcases List.mem_append.mp hmem with hold | hnow
    · exact hs.replied p e b out hold
    · cases List.mem_singleton.mp hnow
      exact ⟨hs.handling w pkt a hpc ha, rfl⟩
  case unconnected => exact hs.unconnected

/-- The steps of the worker in which no thread has a packet. -/
theorem Serves.bookkeep_step {i : UDPWorkder.Input} (hs : Serves h s)
    (hi : (∃ k, i = .notify k) ∨ i = .stop ∨ (∃ k, i = .wakeup k) ∨ i = .join)
    (hstep : s.workerStep i = some s') : Serves (h ++ []) s' := by
  obtain ⟨worker, hworker, rfl⟩ := Option.map_eq_some_iff.mp hstep
  cases UDPWorkder.step_next hworker with
  | handleRead | readNothing | work => simp at hi
  | notify _ hn =>
    obtain ⟨hheld, hlen, hhand⟩ := heldBy_notifyOne hn hs.listLength
    exact hs.bookkeep rfl hheld hlen hhand id
  | wakeup _ hn =>
    obtain ⟨hheld, hlen, hhand⟩ := heldBy_notifyOne hn hs.listLength
    exact hs.bookkeep rfl hheld hlen hhand id
  | stop hrun => exact hs.bookkeep rfl (.refl _) rfl (fun _ _ h => h) fun _ => hrun
  | stopAgain => exact hs.bookkeep rfl (.refl _) rfl (fun _ _ h => h) id
  | join => exact hs.bookkeep rfl (.refl _) rfl (fun _ _ h => h) id

theorem Serves.handleRead (hs : Serves h s) (hstep : s.step .handleRead = some s') :
    Serves (h ++ s.observed .handleRead s') s' := by
  simp only [step] at hstep
  split at hstep
  · cases hstep
  · rename_i d rest hd
    split at hstep
    · cases hstep
    · rename_i hidle
      rw [observed, hd, List.head?_cons, Option.toList_some, List.map_singleton]
      split at hstep
      · rename_i hzero
        cases hstep
        rw [if_pos hzero]
        exact hs.ignore hd ((received_effective d).mp hzero)
      · rename_i hpos
        obtain ⟨worker, hworker, rfl⟩ := Option.map_eq_some_iff.mp hstep
        rw [if_neg hpos]
        cases UDPWorkder.step_next hworker with
        | handleRead => exact hs.push hd fun hempty => hpos ((received_effective d).mpr hempty)
        | readNothing hzero => exact absurd hzero hpos

theorem step_serves {i : Input} (hs : Serves h s) (hstep : s.step i = some s') :
    Serves (h ++ s.observed i s') s' := by
  cases i with
  | arrive d =>
    cases hstep
    exact hs.enter d
  | duplicate k =>
    obtain ⟨d, hk, rfl⟩ := Option.map_eq_some_iff.mp hstep
    rw [observed, hk]
    exact hs.enter d
  | lose k =>
    obtain ⟨d, hk, rfl⟩ := Option.map_eq_some_iff.mp hstep
    rw [observed, hk]
    exact hs.lose hk
  | deliver k =>
    obtain ⟨d, hk, rfl⟩ := Option.map_eq_some_iff.mp hstep
    exact hs.deliver hk
  | handleRead => exact hs.handleRead hstep
  | work w => exact hs.work hstep
  | reply w own ok =>
    simp only [step] at hstep
    split at hstep
    · rename_i pkt hpc
      cases hstep
      obtain ⟨hlt, -⟩ := List.getElem?_eq_some_iff.mp hpc
      obtain ⟨a, ha⟩ : ∃ a, s.addressList[w]? = some a :=
        ⟨_, List.getElem?_eq_getElem (by rw [hs.listLength]; exact hlt)⟩
      rw [observed, replied, hpc, ha]
      exact hs.reply hpc ha own ok
    · cases hstep
  | notify k => exact hs.bookkeep_step (.inl ⟨k, rfl⟩) hstep
  | stop => exact hs.bookkeep_step (.inr (.inl rfl)) hstep
  | wakeup k => exact hs.bookkeep_step (.inr (.inr (.inl ⟨k, rfl⟩))) hstep
  | join => exact hs.bookkeep_step (.inr (.inr (.inr rfl))) hstep

/-- What is handled was read. -/
theorem Serves.handled_read (hs : Serves h s) {pkt : AddressedPacket}
    (hpkt : pkt ∈ h.filterMap Event.handled?) :
    ∃ d ∈ h.filterMap Event.read?, received d = pkt := by
  have hmem : pkt ∈ (h.filterMap Event.read?).map received := by
    rw [hs.pipeline.mem_iff]
    simp only [List.mem_append]
    exact .inl (.inl (.inl hpkt))
  exact List.mem_map.mp hmem

end Steps

/-! ## Runs -/

/-- **What a UDP server does with the datagrams.** Whatever the network, the receiver, the
threads, their callbacks and the one that calls `Stop` do, and in whatever order: every datagram
that has entered the network (from its sender, or once more) got lost, is on its way, is in the
socket, was ignored because it was empty, or was read; the packets that were read, with the first
1500 bytes and the address of the sender, have been handled once, or dropped by a thread that
found the worker stopped, or are in the hands of one thread, or wait in the queue; and what a
callback sends with its packet goes to where the datagram came from and is what was read of it,
unless the kernel refuses it or the sender has no port. -/
theorem datagrams_served {rcvAddr : InetAddress} {ok : Bool} {threadNums : Nat}
    {s₀ s : UDPService} {is : List Input} {h : List Event}
    (hstart : start rcvAddr ok threadNums = some s₀) (hrun : Machine.run step s₀ is = some s)
    (hh : Machine.trace step observed s₀ is = h) :
    (h.filterMap Event.entered?).Perm
      (h.filterMap Event.lost? ++ s.flying ++ s.unread ++ h.filterMap Event.ignored? ++
        h.filterMap Event.read?) ∧
    (∀ d ∈ h.filterMap Event.ignored?, d.data = []) ∧
    ((h.filterMap Event.read?).map received).Perm
      (h.filterMap Event.handled? ++ h.filterMap Event.dropped? ++ s.held ++ s.waiting) ∧
    (s.worker.running = true → h.filterMap Event.dropped? = []) ∧
    (∀ d ∈ h.filterMap Event.read?, d.data ≠ [] ∧
      (received d).dat.take (received d).effective = d.data.take kPktSize ∧
      (received d).address = d.src.endpoint.address) ∧
    ∀ pkt own ok out, .replied pkt own ok out ∈ h →
      ∃ d ∈ h.filterMap Event.read?, received d = pkt ∧ pkt ∈ h.filterMap Event.handled? ∧
        out = if ok = true ∧ d.src.endpoint.port ≠ 0
          then some ⟨own, d.src, d.data.take kPktSize⟩ else none := by
  have hs : Serves ([] ++ Machine.trace step observed s₀ is) s :=
    Machine.trace_invariant (P := fun h s => Serves h s) step_serves (serves_start hstart) hrun
  rw [List.nil_append, hh] at hs
  have hsize : 0 < kPktSize := by decide
  refine ⟨hs.network, hs.ignored, hs.pipeline, hs.running, ?_, ?_⟩
  · intro d hd
    obtain ⟨hdat, -, haddr⟩ := DatagramSocket.receive_nonempty hsize (hs.read d hd)
    unfold received
    exact ⟨hs.read d hd, hdat, haddr⟩
  · intro pkt own ok out hmem
    obtain ⟨hhandled, rfl⟩ := hs.replied pkt own ok out hmem
    obtain ⟨d, hd, rfl⟩ := hs.handled_read hhandled
    have hsend := DatagramSocket.send_receive hs.unconnected hsize (hs.read d hd) own ok
    refine ⟨d, hd, rfl, hhandled, ?_⟩
    unfold received
    exact hsend

/-- A port of the host itself. -/
def sampleEndpoint (port : BitVec 16) : InEndpoint :=
  ⟨⟨AF_INET, [127, 0, 0, 1], port, .inl ⟨rfl, rfl⟩⟩, rfl⟩

/-- Two clients, two threads: a datagram comes twice, the one sent last gets to the socket first
and is answered, an empty one is ignored. -/
theorem datagrams_served_two_clients : ∃ (s : UDPService) (h : List Event),
    h.filterMap Event.ignored? = [⟨sampleEndpoint 6000, sampleEndpoint 9999, []⟩] ∧
    (∃ pkt, Event.replied pkt (sampleEndpoint 9999) true
      (some ⟨sampleEndpoint 9999, sampleEndpoint 6000, [7, 8]⟩) ∈ h) ∧
    ((h.filterMap Event.read?).map received).Perm
      (h.filterMap Event.handled? ++ h.filterMap Event.dropped? ++ s.held ++ s.waiting) := by
  have hstart : start (sampleEndpoint 9999).endpoint.address true 2 = some
      ((start (sampleEndpoint 9999).endpoint.address true 2).get rfl) := (Option.some_get rfl).symm
  generalize hs₀ : (start (sampleEndpoint 9999).endpoint.address true 2).get rfl = s₀ at hstart
  obtain ⟨s, hrun, -⟩ := Option.map_eq_some_iff.mp
    (show (Machine.run step s₀
      [.arrive ⟨sampleEndpoint 5000, sampleEndpoint 9999, [1]⟩, .duplicate 0,
        .arrive ⟨sampleEndpoint 6000, sampleEndpoint 9999, [7, 8]⟩, .deliver 2,
        .arrive ⟨sampleEndpoint 6000, sampleEndpoint 9999, []⟩, .deliver 0, .deliver 0, .deliver 0,
        .handleRead, .notify none, .work 0, .work 0, .handleRead, .notify none, .work 0,
        .reply 0 (sampleEndpoint 9999) true, .work 1, .work 1, .work 1, .handleRead,
        .notify none, .handleRead]).map (fun s => s.unread.length) = some 0 by
      rw [← hs₀]
      decide +kernel)
  refine ⟨s, _, ?_, ⟨received ⟨sampleEndpoint 6000, sampleEndpoint 9999, [7, 8]⟩, ?_⟩,
    (datagrams_served hstart hrun rfl).2.2.1⟩
  · rw [← hs₀]
    decide +kernel
  · rw [← hs₀]
    decide +kernel

end UDPService

end LinuxNet
