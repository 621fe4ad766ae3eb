import LinuxNet.Lib.SlotTable

/-!
# `net::Channel` and `net::Epoller`

The registration side of `channel.h`, `epoller.cc` and `poller.cc`. A loop's
`Channel` objects are a function from their addresses (`ChanId`); `channels_` is
a function from the descriptor together with the vector's size; the kernel's
interest set is a function from the descriptor to the registered mask and
`data.ptr`. The kernel answers `epoll_ctl` as documented: ADD fails on a
descriptor that is in the set, MOD and DEL on one that is not. `ok = false` lets
a legal ADD or MOD fail for want of resources.

As everywhere, a failed `assert` is recorded and execution goes on.
-/

namespace LinuxNet

open LinuxNet.Lib.SlotTable

/-- The bits of `epoll_event::events`. -/
abbrev EventMask := BitVec 32

def EPOLLIN : EventMask := 0x001#32
def EPOLLPRI : EventMask := 0x002#32
def EPOLLOUT : EventMask := 0x004#32
def EPOLLERR : EventMask := 0x008#32
def EPOLLHUP : EventMask := 0x010#32
def EPOLLRDHUP : EventMask := 0x2000#32

/-- Some bit of `bits` is set in `m`. -/
def EventMask.has (m bits : EventMask) : Bool := m &&& bits != 0#32

theorem EventMask.has_or (a b bits : EventMask) :
    EventMask.has (a ||| b) bits = (a.has bits || b.has bits) := by
  unfold has
  rw [BitVec.and_comm, BitVec.and_or_distrib_left]
  grind

theorem EventMask.has_and_not (a bits : EventMask) : EventMask.has (a &&& ~~~bits) bits = false := by
  simp [has, BitVec.and_assoc]

theorem EventMask.has_of_and_not {mask m bits : EventMask} (h : mask &&& ~~~m = 0#32)
    (hb : mask.has bits = true) : m.has bits = true := by
  have hsub : mask &&& m = mask := by
    ext k hk
    have hbit := congrArg (fun x : BitVec 32 => x.getLsbD k) h
    simp only [BitVec.getLsbD_and, BitVec.getLsbD_not, BitVec.getLsbD_zero] at hbit
    simp only [BitVec.getElem_and, BitVec.getLsbD_eq_getElem hk] at hbit ⊢
    grind
  unfold has at hb ⊢
  rw [bne_iff_ne] at hb ⊢
  intro hz
  apply hb
  rw [← hsub, BitVec.and_assoc, hz, BitVec.and_zero]

/-- `status_` of a channel, with the names `epoller.cc` gives its three values. -/
inductive Status where
  | kNew | kAdded | kDel
  deriving DecidableEq, Repr

/-- A `Channel` object: `fd_`, `events_`, `revents_`, `status_`, `handling_`. -/
structure Channel where
  fd : Nat
  events : EventMask
  revents : EventMask
  status : Status
  handling : Bool
  deriving DecidableEq, Repr

namespace Channel

def kNoneEvent : EventMask := 0#32
def kReadEvent : EventMask := EPOLLIN ||| EPOLLPRI
def kWriteEvent : EventMask := EPOLLOUT

/-- The constructor: nothing of interest, not known to the poller. -/
def new (fd : Nat) : Channel := ⟨fd, kNoneEvent, kNoneEvent, .kNew, false⟩

def isWriting (ch : Channel) : Bool := ch.events.has kWriteEvent

def isNoneEvent (ch : Channel) : Bool := ch.events == kNoneEvent

end Channel

/-- The address of a `Channel` object. -/
abbrev ChanId := Nat

/-- The `assert` statements of `epoller.cc` and `poller.cc`. -/
inductive Epoller.Assert where
  | addExists | addedMismatch | delMismatch | removeMismatch | removeNotAdded | removeNotDel
  | epollCtl | dumpMaxFd | dumpIndex | dumpCount
  deriving DecidableEq, Repr

/-- `channels_` (with its size), `channel_nums_`, `cur_max_fd_`, the channel
objects of the loop and the kernel's interest set. -/
structure Epoller where
  size : Nat
  chans : ChanId → Channel
  channels : Nat → Option ChanId
  channelNums : Nat
  curMaxFd : Nat
  kernel : Nat → Option (EventMask × ChanId)
  asserts : List Epoller.Assert

namespace Epoller

/-- A poller of which no channel has been told yet; `size` is `kInitTotalChannelSize`. -/
def new (size : Nat) (fdOf : ChanId → Nat) : Epoller :=
  ⟨size, fun c => Channel.new (fdOf c), fun _ => none, 0, 0, fun _ => none, []⟩

/-- `assert(ok)`. -/
def check (p : Epoller) (site : Assert) (ok : Bool) : Epoller :=
  if ok then p else { p with asserts := p.asserts ++ [site] }

def setChannel (p : Epoller) (c : ChanId) (ch : Channel) : Epoller :=
  { p with chans := Function.update p.chans c ch }

def setEvents (p : Epoller) (c : ChanId) (ev : EventMask) : Epoller :=
  p.setChannel c { p.chans c with events := ev }

def setStatus (p : Epoller) (c : ChanId) (st : Status) : Epoller :=
  p.setChannel c { p.chans c with status := st }

/-! ## The kernel -/

inductive CtlOp where
  | add | mod | del
  deriving DecidableEq, Repr

/-- `::epoll_ctl`; `none` is a negative result. -/
def epollCtl (kernel : Nat → Option (EventMask × ChanId)) (op : CtlOp) (fd : Nat)
    (event : EventMask × ChanId) (ok : Bool) : Option (Nat → Option (EventMask × ChanId)) :=
  match op with
  | .add => if (kernel fd).isNone && ok then some (Function.update kernel fd (some event)) else none
  | .mod => if (kernel fd).isSome && ok then some (Function.update kernel fd (some event)) else none
  | .del => if (kernel fd).isSome then some (Function.update kernel fd none) else none

/-- `Epoller::Update`: the request for a channel, and whether it succeeded. -/
def update (p : Epoller) (op : CtlOp) (c : ChanId) (ok : Bool) : Bool × Epoller :=
  match epollCtl p.kernel op (p.chans c).fd ((p.chans c).events, c) ok with
  | some kernel => (true, { p with kernel := kernel })
  | none => (false, p.check .epollCtl false)

/-! ## The table -/

/-- The assert inside the loop of `DumpChannels`: a channel sits at its own descriptor. -/
def slotMatches (p : Epoller) (i : Nat) : Bool :=
  match p.channels i with
  | none => true
  | some c => (p.chans c).fd == i

/-- `Poller::DumpChannels`: the loop over `channels_[0..cur_max_fd_]` and its asserts. -/
def dumpChannels (p : Epoller) : Epoller :=
  let p := p.check .dumpMaxFd (p.curMaxFd < p.size)
  let idx := List.range (p.curMaxFd + 1)
  let p := p.check .dumpIndex (idx.all p.slotMatches)
  p.check .dumpCount ((idx.countP fun i => (p.channels i).isSome) == p.channelNums)

def addChannelListItem (p : Epoller) (c : ChanId) : Epoller :=
  let fd := (p.chans c).fd
  let p := { p with
    channels := Function.update p.channels fd (some c)
    channelNums := p.channelNums + 1
    curMaxFd := if p.curMaxFd < fd then fd else p.curMaxFd }
  p.dumpChannels

def delChannelListItem (p : Epoller) (c : ChanId) : Epoller :=
  let fd := (p.chans c).fd
  let channels := Function.update p.channels fd none
  let p := { p with
    channels := channels
    channelNums := p.channelNums - 1
    curMaxFd := if p.curMaxFd = fd then scanDown channels (fd - 1) else p.curMaxFd }
  p.dumpChannels

/-- `Epoller::UpdateChannel`. The `switch` has no other case: `status_` is only
ever set to one of the three. -/
def updateChannel (p : Epoller) (c : ChanId) (ok : Bool) : Epoller :=
  let ch := p.chans c
  match ch.status with
  | .kNew =>
    if (p.channels ch.fd).isSome then p.check .addExists false
    else if !ch.isNoneEvent then
      let (done, p) := p.update .add c ok
      if !done then p else (p.setStatus c .kAdded).addChannelListItem c
    else (p.setStatus c .kDel).addChannelListItem c
  | .kAdded =>
    if p.channels ch.fd ≠ some c then p.check .addedMismatch false
    else if !ch.isNoneEvent then (p.update .mod c ok).2
    else
      let (done, p) := p.update .del c ok
      if !done then p else p.setStatus c .kDel
  | .kDel =>
    if p.channels ch.fd ≠ some c then p.check .delMismatch false
    else if !ch.isNoneEvent then
      let (done, p) := p.update .add c ok
      if !done then p else p.setStatus c .kAdded
    else p

/-- `Epoller::RemoveChannel`. -/
def removeChannel (p : Epoller) (c : ChanId) : Epoller :=
  let ch := p.chans c
  if ch.status = .kNew then p
  else
    let p := p.check .removeMismatch (p.channels ch.fd == some c)
    if !ch.isNoneEvent then
      let p := p.check .removeNotAdded (ch.status == .kAdded)
      let (done, p) := p.update .del c true
      if !done then p else (p.setStatus c .kNew).delChannelListItem c
    else
      let p := p.check .removeNotDel (ch.status == .kDel)
      (p.setStatus c .kNew).delChannelListItem c

/-! ## What a channel asks for -/

def enableReading (p : Epoller) (c : ChanId) (ok : Bool) : Epoller :=
  (p.setEvents c ((p.chans c).events ||| Channel.kReadEvent)).updateChannel c ok

def disableReading (p : Epoller) (c : ChanId) (ok : Bool) : Epoller :=
  (p.setEvents c ((p.chans c).events &&& ~~~Channel.kReadEvent)).updateChannel c ok

def enableWriting (p : Epoller) (c : ChanId) (ok : Bool) : Epoller :=
  (p.setEvents c ((p.chans c).events ||| Channel.kWriteEvent)).updateChannel c ok

def disableWriting (p : Epoller) (c : ChanId) (ok : Bool) : Epoller :=
  (p.setEvents c ((p.chans c).events &&& ~~~Channel.kWriteEvent)).updateChannel c ok

def disableAll (p : Epoller) (c : ChanId) (ok : Bool) : Epoller :=
  (p.setEvents c Channel.kNoneEvent).updateChannel c ok

/-- The member functions of `Channel` that reach the poller. -/
inductive Op where
  | enableReading | disableReading | enableWriting | disableWriting | disableAll | remove
  deriving DecidableEq, Repr

def exec (p : Epoller) (c : ChanId) (ok : Bool) : Op → Epoller
  | .enableReading => p.enableReading c ok
  | .disableReading => p.disableReading c ok
  | .enableWriting => p.enableWriting c ok
  | .disableWriting => p.disableWriting c ok
  | .disableAll => p.disableAll c ok
  | .remove => p.removeChannel c

/-- The descriptor of `c` indexes the table, and no other channel is registered on it. -/
def usable (p : Epoller) (c : ChanId) : Bool :=
  0 < (p.chans c).fd && (p.chans c).fd < p.size &&
    ((p.chans c).status != .kNew || p.channels (p.chans c).fd == none)

/-- The mask an operation asks for. -/
def Op.mask (ev : EventMask) : Op → EventMask
  | .enableReading => ev ||| Channel.kReadEvent
  | .disableReading => ev &&& ~~~Channel.kReadEvent
  | .enableWriting => ev ||| Channel.kWriteEvent
  | .disableWriting => ev &&& ~~~Channel.kWriteEvent
  | .disableAll => Channel.kNoneEvent
  | .remove => ev

/-! ## What the poller leaves alone

Whatever the registry looks like, `UpdateChannel` and `RemoveChannel` change at
most the status of the channel they are given. -/

@[simp] theorem check_chans (p : Epoller) (site : Assert) (ok : Bool) :
    (p.check site ok).chans = p.chans := by
  unfold check
  split <;> rfl

@[simp] theorem update_chans (p : Epoller) (op : CtlOp) (c : ChanId) (ok : Bool) :
    (p.update op c ok).2.chans = p.chans := by
  unfold update
  split
  · rfl
  · exact check_chans _ _ _

@[simp] theorem dumpChannels_chans (p : Epoller) : p.dumpChannels.chans = p.chans := by
  simp [dumpChannels]

@[simp] theorem addChannelListItem_chans (p : Epoller) (c : ChanId) :
    (p.addChannelListItem c).chans = p.chans := by
  simp [addChannelListItem]

@[simp] theorem delChannelListItem_chans (p : Epoller) (c : ChanId) :
    (p.delChannelListItem c).chans = p.chans := by
  simp [delChannelListItem]

/-- The channel objects with at most the status of `c` replaced. -/
def StatusOnly (p p' : Epoller) (c : ChanId) : Prop :=
  ∃ st, p'.chans = Function.update p.chans c { p.chans c with status := st }

theorem statusOnly_of_eq {p p' : Epoller} (c : ChanId) (h : p'.chans = p.chans) :
    StatusOnly p p' c :=
  ⟨(p.chans c).status, h.trans (Function.update_eq_self c p.chans).symm⟩

theorem statusOnly_setStatus {p q p' : Epoller} {c : ChanId} (st : Status)
    (hq : q.chans = p.chans) (h : p'.chans = (q.setStatus c st).chans) : StatusOnly p p' c :=
  ⟨st, by rw [h, setStatus, setChannel, hq]⟩

theorem updateChannel_statusOnly (p : Epoller) (c : ChanId) (ok : Bool) :
    StatusOnly p (p.updateChannel c ok) c := by
  unfold updateChannel
  dsimp only
  cases (p.chans c).status with
  | kNew =>
    dsimp only
    split
    · exact statusOnly_of_eq c (check_chans _ _ _)
    · split
      · split
        · exact statusOnly_of_eq c (update_chans _ _ _ _)
        · exact statusOnly_setStatus .kAdded (update_chans p .add c ok) (addChannelListItem_chans _ _)
      · exact statusOnly_setStatus .kDel rfl (addChannelListItem_chans _ _)
  | kAdded =>
    dsimp only
    split
    · exact statusOnly_of_eq c (check_chans _ _ _)
    · split
      · exact statusOnly_of_eq c (update_chans _ _ _ _)
      · split
        · exact statusOnly_of_eq c (update_chans _ _ _ _)
        · exact statusOnly_setStatus .kDel (update_chans p .del c ok) rfl
  | kDel =>
    dsimp only
    split
    · exact statusOnly_of_eq c (check_chans _ _ _)
    · split
      · split
        · exact statusOnly_of_eq c (update_chans _ _ _ _)
        · exact statusOnly_setStatus .kAdded (update_chans p .add c ok) rfl
      · exact statusOnly_of_eq c rfl

theorem removeChannel_statusOnly (p : Epoller) (c : ChanId) :
    StatusOnly p (p.removeChannel c) c := by
  unfold removeChannel
  dsimp only
  split
  · exact statusOnly_of_eq c rfl
  · split
    · split
      · exact statusOnly_of_eq c (by simp)
      · exact statusOnly_setStatus .kNew (by simp) (delChannelListItem_chans _ _)
    · exact statusOnly_setStatus .kNew (by simp) (delChannelListItem_chans _ _)

/-- An operation sets the mask it asks for and touches no other field of the
channel but the status, and no other channel. -/
theorem exec_chans (p : Epoller) (c : ChanId) (ok : Bool) (op : Op) :
    ∃ st, (p.exec c ok op).chans = Function.update p.chans c
      { p.chans c with events := op.mask (p.chans c).events, status := st } := by
  have hupd : ∀ ev, ∃ st, ((p.setEvents c ev).updateChannel c ok).chans =
      Function.update p.chans c { p.chans c with events := ev, status := st } := by
    intro ev
    obtain ⟨st, hst⟩ := updateChannel_statusOnly (p.setEvents c ev) c ok
    exact ⟨st, by simpa [setEvents, setChannel] using hst⟩
  cases op with
  | remove => exact removeChannel_statusOnly p c
  | _ => exact hupd _

theorem exec_events (p : Epoller) (c : ChanId) (ok : Bool) (op : Op) :
    ((p.exec c ok op).chans c).events = op.mask (p.chans c).events := by
  obtain ⟨st, h⟩ := exec_chans p c ok op
  simp [h]

end Epoller

end LinuxNet
