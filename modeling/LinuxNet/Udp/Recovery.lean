import LinuxNet.Poller.Registry
import LinuxNet.Udp.Model

/-!
# The recovery of `net::UDPServer`

The embedding of `udp_receiver.cc` and of `UDPServer::OnReceiverError`, over the poller of the
server's loop. An error event reaches the server from inside `HandleEvent_` of the channel of
its receiver: `HandleError` takes the channel out of the poller and calls `OnReceiverError`,
which replaces the receiver, and with it the channel, while its `HandleEvent_` is still to
return. A destroyed channel keeps its address, so that what is done with it can be said.
-/

namespace LinuxNet

set_option autoImplicit false

open LinuxNet.Lib

structure UDPReceiver where
  channel : ChanId
  pktSize : Nat
  /-- `callback_error_` is set. -/
  callbackError : Bool
  deriving DecidableEq, Repr

inductive UDPServer.Fault where
  /-- The assert of `~Channel` on `handling_`. -/
  | dtorHandling
  /-- `HandleEvent_` goes on in a channel that has been destroyed. -/
  | channelGone
  deriving DecidableEq, Repr

structure UDPServer where
  /-- The poller of `loop_`, with the `Channel` objects. -/
  poller : Epoller
  /-- `socket_->fd()`. -/
  fd : Nat
  receiver : UDPReceiver
  /-- Where the next `Channel` will be allocated. -/
  nextChan : ChanId
  destroyed : List ChanId
  /-- What the receiver has pushed. -/
  pktQueue : List DatagramPacket
  faults : List UDPServer.Fault

namespace UDPServer

def exec (s : UDPServer) (c : ChanId) (ok : Bool) (op : Epoller.Op) : UDPServer :=
  { s with poller := s.poller.exec c ok op }

def setChannel (s : UDPServer) (c : ChanId) (ch : Channel) : UDPServer :=
  { s with poller := s.poller.setChannel c ch }

/-- `~Channel`. -/
def destroyChannel (s : UDPServer) (c : ChanId) : UDPServer :=
  { s with
    destroyed := s.destroyed ++ [c]
    faults := if (s.poller.chans c).handling then s.faults ++ [.dtorHandling] else s.faults }

/-! ## `UDPReceiver` -/

/-- `new UDPReceiver`, which becomes `receiver_`. -/
def newReceiver (s : UDPServer) : UDPServer :=
  { s.setChannel s.nextChan (Channel.new s.fd) with
    receiver := ⟨s.nextChan, 1024, false⟩
    nextChan := s.nextChan + 1 }

/-- `~UDPReceiver` of the receiver with the channel `c`, which is destroyed with it. -/
def destroyReceiver (s : UDPServer) (c : ChanId) : UDPServer :=
  ((s.exec c true .disableAll).exec c true .remove).destroyChannel c

def setPktSize (s : UDPServer) (size : Nat) : UDPServer :=
  { s with receiver := { s.receiver with pktSize := size } }

def setCallbackError (s : UDPServer) : UDPServer :=
  { s with receiver := { s.receiver with callbackError := true } }

/-- `UDPReceiver::Start`; `ok` says whether `epoll_ctl` has the memory for it. -/
def receiverStart (s : UDPServer) (ok : Bool) : UDPServer :=
  s.exec s.receiver.channel ok .enableReading

/-- `UDPReceiver::Stop`; the `shutdown` of the socket is of no concern here. -/
def receiverStop (s : UDPServer) : UDPServer := s.exec s.receiver.channel true .disableAll

/-- `UDPReceiver::HandleRead`, where `Receive` returns `pkt`. -/
def handleRead (s : UDPServer) (pkt : DatagramPacket) : UDPServer :=
  if pkt.effective = 0 then s else { s with pktQueue := s.pktQueue ++ [pkt] }

/-! ## `UDPServer` -/

def onReceiverError (s : UDPServer) (ok : Bool) : UDPServer :=
  let old := s.receiver.channel
  let s := s.receiverStop
  let s := s.newReceiver
  let s := s.destroyReceiver old
  let s := s.setPktSize 1500
  s.receiverStart ok

/-- `UDPReceiver::HandleError`. -/
def handleError (s : UDPServer) (ok : Bool) : UDPServer :=
  let c := s.receiver.channel
  let s := (s.exec c true .disableAll).exec c true .remove
  if s.receiver.callbackError then s.onReceiverError ok else s

/-- The end of `HandleEvent_`. -/
def leave (s : UDPServer) (c : ChanId) : UDPServer :=
  if c ∈ s.destroyed then { s with faults := s.faults ++ [.channelGone] }
  else s.setChannel c { s.poller.chans c with handling := false }

/-- `HandleEvent_` of the channel of the receiver, which has no `close_cb_` and no `write_cb_`. -/
def handleEvent (s : UDPServer) (revents : EventMask) (pkt : DatagramPacket) (ok : Bool) :
    UDPServer :=
  let c := s.receiver.channel
  let s := s.setChannel c { s.poller.chans c with revents := revents, handling := true }
  let s :=
    if revents.has (EPOLLHUP ||| EPOLLRDHUP) then s
    else if revents.has EPOLLERR then s.handleError ok
    else if revents.has (EPOLLIN ||| EPOLLPRI) then s.handleRead pkt
    else s
  s.leave c

/-- The constructor and `Start`, on a loop with the poller `p`; the channel is allocated at `c`. -/
def start (p : Epoller) (c : ChanId) (fd : Nat) : UDPServer :=
  let s : UDPServer := newReceiver {
    poller := p
    fd := fd
    receiver := ⟨c, 0, false⟩
    nextChan := c
    destroyed := []
    pktQueue := []
    faults := [] }
  ((s.setPktSize 1500).setCallbackError).receiverStart true

/-- The loop calls `HandleEvent` of the receiver's channel. `pkt` is what a `Receive` would
return, and `ok` is whether `epoll_ctl` has the memory for a new registration. -/
inductive Input where
  | event (revents : EventMask) (pkt : DatagramPacket) (ok : Bool)
  deriving DecidableEq, Repr

/-- `epoll_wait` may report `revents` for the receiver's channel: what it is registered for, and
errors and hangups always. -/
def reports (s : UDPServer) (revents : EventMask) : Bool :=
  (s.poller.kernel s.fd).any fun e =>
    e.2 == s.receiver.channel && revents &&& ~~~(e.1 ||| EPOLLERR ||| EPOLLHUP) == 0#32

def step (s : UDPServer) : Input → Option UDPServer
  | .event revents pkt ok =>
    if s.reports revents = true ∧ pkt.dat.length = s.receiver.pktSize ∧
        pkt.effective ≤ pkt.dat.length then
      some (s.handleEvent revents pkt ok)
    else none

/-! ## Steps -/

/-- One channel is registered for the socket, for reading, and its receiver will report an
error to the server. -/
structure Listening (s : UDPServer) : Prop where
  slot : s.poller.channels s.fd = some s.receiver.channel
  only : ∀ c, (s.poller.chans c).fd = s.fd → (s.poller.chans c).status ≠ .kNew →
    c = s.receiver.channel
  interest : s.poller.kernel s.fd = some (Channel.kReadEvent, s.receiver.channel)
  callback : s.receiver.callbackError = true

/-- The event makes `HandleEvent_` call `error_cb_`. -/
def isError : Input → Bool
  | .event revents _ _ => !revents.has (EPOLLHUP ||| EPOLLRDHUP) && revents.has EPOLLERR

/-- What holds until there is an error. -/
structure Sound (s : UDPServer) : Prop where
  listening : s.Listening
  allocated : s.receiver.channel < s.nextChan
  kept : s.destroyed = []
  noFault : s.faults = []

section Steps

variable {s s' : UDPServer} {c : ChanId} {ch : Channel} {i : Input}

/-- The poller takes no interest in the other fields of a channel. -/
theorem Listening.setChannel (h : s.Listening) (hfd : ch.fd = (s.poller.chans c).fd)
    (hst : ch.status = (s.poller.chans c).status) : (s.setChannel c ch).Listening where
  slot := h.slot
  only c' hfd' hst' := by
    by_cases hc : c' = c
    · subst hc
      simp only [UDPServer.setChannel, Epoller.setChannel, Function.update_self] at hfd' hst'
      exact h.only c' (hfd ▸ hfd') (hst ▸ hst')
    · simp only [UDPServer.setChannel, Epoller.setChannel, Function.update_of_ne hc] at hfd' hst'
      exact h.only c' hfd' hst'
  interest := h.interest
  callback := h.callback

theorem Sound.setChannel (h : s.Sound) (hfd : ch.fd = (s.poller.chans c).fd)
    (hst : ch.status = (s.poller.chans c).status) : (s.setChannel c ch).Sound :=
  ⟨h.listening.setChannel hfd hst, h.allocated, h.kept, h.noFault⟩

theorem Sound.handleRead (h : s.Sound) (pkt : DatagramPacket) : (s.handleRead pkt).Sound := by
  unfold UDPServer.handleRead
  split
  · exact h
  · exact ⟨⟨h.listening.slot, h.listening.only, h.listening.interest, h.listening.callback⟩,
      h.allocated, h.kept, h.noFault⟩

theorem Sound.leave (h : s.Sound) (c : ChanId) : (s.leave c).Sound := by
  unfold UDPServer.leave
  rw [if_neg (by simp [h.kept])]
  exact h.setChannel rfl rfl

theorem Sound.handleEvent (h : s.Sound) {revents : EventMask} {pkt : DatagramPacket} {ok : Bool}
    (he : isError (.event revents pkt ok) = false) : (s.handleEvent revents pkt ok).Sound := by
  simp only [isError, Bool.and_eq_false_iff, Bool.not_eq_false'] at he
  have hin : (s.setChannel s.receiver.channel { s.poller.chans s.receiver.channel with
      revents := revents, handling := true }).Sound := h.setChannel rfl rfl
  unfold UDPServer.handleEvent
  apply Sound.leave
  split
  · exact hin
  · rename_i hup
    rw [if_neg (by simpa [hup] using he)]
    split
    · exact hin.handleRead pkt
    · exact hin

theorem exec_handling (s : UDPServer) (c : ChanId) (ok : Bool) (op : Epoller.Op) (c' : ChanId) :
    ((s.exec c ok op).poller.chans c').handling = (s.poller.chans c').handling := by
  obtain ⟨st, hst⟩ := Epoller.exec_chans s.poller c ok op
  by_cases hc : c' = c
  · subst hc
    simp [exec, hst]
  · simp [exec, hst, hc]

theorem newReceiver_handling (hc : c ≠ s.nextChan) :
    (s.newReceiver.poller.chans c).handling = (s.poller.chans c).handling := by
  simp [newReceiver, UDPServer.setChannel, Epoller.setChannel, hc]

/-- The receiver is replaced while its channel is handling the event. -/
theorem onReceiverError_faults (hlt : s.receiver.channel < s.nextChan)
    (hh : (s.poller.chans s.receiver.channel).handling = true) (ok : Bool) :
    (s.onReceiverError ok).faults = s.faults ++ [.dtorHandling] := by
  have hold : (((s.receiverStop.newReceiver.exec s.receiver.channel true .disableAll).exec
      s.receiver.channel true .remove).poller.chans s.receiver.channel).handling = true := by
    rw [exec_handling, exec_handling, newReceiver_handling (by exact hlt.ne), receiverStop,
      exec_handling, hh]
  change (if _ then _ else _) = _
  rw [if_pos hold]
  rfl

theorem mem_leave_faults {f : Fault} (h : f ∈ s.faults) (c : ChanId) : f ∈ (s.leave c).faults := by
  unfold leave
  split
  · exact List.mem_append_left _ h
  · exact h

theorem Sound.error_faults (h : s.Sound) {revents : EventMask} {pkt : DatagramPacket} {ok : Bool}
    (he : isError (.event revents pkt ok) = true) :
    Fault.dtorHandling ∈ (s.handleEvent revents pkt ok).faults := by
  simp only [isError, Bool.and_eq_true, Bool.not_eq_true'] at he
  unfold UDPServer.handleEvent
  apply mem_leave_faults
  rw [if_neg (by simp [he.1]), if_pos he.2]
  unfold handleError
  dsimp only
  rw [if_pos (by exact h.listening.callback), onReceiverError_faults]
  · exact List.mem_append_right _ List.mem_cons_self
  · exact h.allocated
  · change (((exec _ _ _ _).exec _ _ _).poller.chans s.receiver.channel).handling = true
    rw [exec_handling, exec_handling]
    simp [UDPServer.setChannel, Epoller.setChannel]

theorem step_sound (h : s.Sound) (hi : ¬ isError i = true)
    (hstep : s.step i = some s') : s'.Sound := by
  cases i with
  | event revents pkt ok =>
    simp only [step] at hstep
    split at hstep
    · cases hstep
      exact h.handleEvent (Bool.eq_false_iff.mpr hi)
    · cases hstep

theorem Sound.broken (h : s.Sound) (hi : ¬ ¬ isError i = true)
    (hstep : s.step i = some s') : ¬ (s'.faults = [] ∧ s'.Listening) := by
  rintro ⟨hno, _⟩
  cases i with
  | event revents pkt ok =>
    simp only [step] at hstep
    split at hstep
    · cases hstep
      have hfault := h.error_faults (not_not.mp hi)
      rw [hno] at hfault
      exact absurd hfault List.not_mem_nil
    · cases hstep

end Steps

/-! ## Runs -/

/-- What the constructor finds: a loop whose poller is in order, with room for the descriptor of
the new socket, on which nothing is registered. No channel is registered at `c` or behind. -/
structure Vacant (p : Epoller) (c : ChanId) (fd : Nat) : Prop where
  registry : p.Registry
  pos : 0 < fd
  lt : fd < p.size
  slot : p.channels fd = none
  fresh : ∀ c', c ≤ c' → (p.chans c').status = .kNew

theorem sound_start {p : Epoller} {c : ChanId} {fd : Nat} (h : Vacant p c fd) :
    (start p c fd).Sound := by
  have hnew : (p.setChannel c (Channel.new fd)).Registry :=
    h.registry.newChannel (h.fresh c le_rfl) rfl
  have hch : (p.setChannel c (Channel.new fd)).chans c = Channel.new fd :=
    Function.update_self _ _ _
  have hadm : (p.setChannel c (Channel.new fd)).Admissible (c, .enableReading) := by
    apply Epoller.admissible_of_usable hnew
    simp [Epoller.usable, Channel.new, Epoller.setChannel, h.pos, h.lt, h.slot]
  have hout := Epoller.exec_spec hnew hadm
  have hself : (start p c fd).poller.chans c =
      { Channel.new fd with events := Channel.kReadEvent, status := .kAdded } := by
    change ((p.setChannel c (Channel.new fd)).exec c true .enableReading).chans c = _
    have hmask : Channel.kNoneEvent ||| Channel.kReadEvent = Channel.kReadEvent := by decide
    have hread : Channel.kReadEvent ≠ Channel.kNoneEvent := by decide
    rw [hout.chans, Function.update_self, hch]
    simp [Epoller.Op.effect, Epoller.Op.mask, Epoller.listening, Channel.new, hmask, hread]
  have hreg : (start p c fd).poller.Registry := hout.registry
  have hslot : (start p c fd).poller.channels fd = some c := by
    rw [hreg.slot, hself]
    exact ⟨rfl, by simp⟩
  have hinterest : (start p c fd).poller.kernel fd = some (Channel.kReadEvent, c) := by
    rw [hreg.interest, hself]
    exact ⟨rfl, rfl, rfl⟩
  refine ⟨⟨hslot, fun c' hfd hst => ?_, hinterest, rfl⟩, Nat.lt_succ_self c, rfl, rfl⟩
  have hslot' := (hreg.slot fd c').mpr ⟨hfd, hst⟩
  rw [hslot] at hslot'
  exact (Option.some.inj hslot').symm

/-- **No error is ever recovered from.** In every run of a server, no channel is destroyed while
its `HandleEvent_` is executing, and one channel is registered for the socket, for reading, with
an error callback in its receiver, exactly if the loop has never delivered an error. -/
theorem recovery_iff {p : Epoller} {c : ChanId} {fd : Nat} (h : Vacant p c fd) {is : List Input}
    {s : UDPServer} (hrun : Machine.run step (start p c fd) is = some s) :
    Machine.Throughout step (fun s => s.faults = [] ∧ s.Listening) (start p c fd) is ↔
    Machine.Along step (fun _ i => ¬ isError i = true) (start p c fd) is := by
  have hkeep : ∀ {s i s'}, Sound s → ¬ isError i = true → s.step i = some s' → Sound s' :=
    step_sound
  have hbreak : ∀ {s i s'}, Sound s → ¬ ¬ isError i = true → s.step i = some s' →
      ¬ (s'.faults = [] ∧ s'.Listening) := Sound.broken
  exact Machine.throughout_iff_along (P := Sound) hkeep (fun h => ⟨h.noFault, h.listening⟩) hbreak
    (sound_start h) hrun

/-- A loop with nothing registered on it. -/
theorem vacant_new : Vacant (Epoller.new 16 (fun _ => 0)) 0 7 where
  registry := Epoller.registry_new 16 _
  pos := by decide
  lt := by decide
  slot := rfl
  fresh _ _ := rfl

/-- Two packets arrive, the second together with a hangup. -/
theorem recovery_iff_packets : ∃ s,
    Machine.run step (start (Epoller.new 16 (fun _ => 0)) 0 7)
      [.event EPOLLIN ⟨List.replicate 1500 0, 3⟩ true,
       .event (EPOLLIN ||| EPOLLHUP) ⟨List.replicate 1500 0, 4⟩ true] = some s ∧
    s.Listening := by
  have hobs : (Machine.run step (start (Epoller.new 16 (fun _ => 0)) 0 7)
      [.event EPOLLIN ⟨List.replicate 1500 0, 3⟩ true,
       .event (EPOLLIN ||| EPOLLHUP) ⟨List.replicate 1500 0, 4⟩ true]).map
      (fun s => s.pktQueue.length) = some 1 := by
    decide +kernel
  obtain ⟨s, hrun, _⟩ := Option.map_eq_some_iff.mp hobs
  have hall := (recovery_iff vacant_new hrun).mpr (by decide +kernel)
  exact ⟨s, hrun, (hall.last hrun).2⟩

/-- At the first error the channel is destroyed in its own `HandleEvent_`, and the new receiver
is not told whom to report an error to; the second error leaves the socket without a channel. -/
theorem error_not_recovered : ∃ s t,
    Machine.run step (start (Epoller.new 16 (fun _ => 0)) 0 7)
      [.event EPOLLERR ⟨List.replicate 1500 0, 0⟩ true] = some s ∧
    Fault.dtorHandling ∈ s.faults ∧ s.receiver.callbackError = false ∧ ¬ s.Listening ∧
    s.step (.event EPOLLERR ⟨List.replicate 1500 0, 0⟩ true) = some t ∧
    t.poller.channels 7 = none := by
  have hobs : (Machine.run step (start (Epoller.new 16 (fun _ => 0)) 0 7)
      [.event EPOLLERR ⟨List.replicate 1500 0, 0⟩ true]).map
      (fun s => (s.faults, s.receiver.callbackError,
        (s.step (.event EPOLLERR ⟨List.replicate 1500 0, 0⟩ true)).map
          fun t => t.poller.channels 7)) =
      some ([.dtorHandling, .channelGone], false, some none) := by
    decide +kernel
  obtain ⟨s, hrun, heq⟩ := Option.map_eq_some_iff.mp hobs
  simp only [Prod.mk.injEq] at heq
  obtain ⟨hfaults, hcallback, hnext⟩ := heq
  obtain ⟨t, hstep, hnone⟩ := Option.map_eq_some_iff.mp hnext
  refine ⟨s, t, hrun, by simp [hfaults], hcallback, fun hl => ?_, hstep, hnone⟩
  exact absurd hl.callback (by simp [hcallback])

end UDPServer

end LinuxNet
