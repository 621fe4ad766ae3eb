import LinuxNet.Lib.Machine
import LinuxNet.Poller.Model

/-!
# `net::TCPConnector` in its `EventLoop`

The embedding of `tcp_connector.cc`, of the iteration of `EventLoop::Loop` it is called
from (the batch of active channels, then the task queue), and of what `tcp_client.cc`
does with it. The handlers of all other channels are user code: while one runs, it may
ask anything of any channel but the connector's own, and may call the connector.

What the system answers is part of the inputs: the descriptor, the address of the
`Channel` and the result of a connection attempt, the socket's error, whether the
socket is connected to itself. A failed `assert` ends the process: nothing behind it is
executed and no step follows.
-/

namespace LinuxNet

set_option autoImplicit false

def EINTR : Nat := 4
def EISCONN : Nat := 106
def EINPROGRESS : Nat := 115

/-- `state_` of a connector. -/
inductive ConnectorState where
  | disconnected | connecting | connected
  deriving DecidableEq, Repr

def kInitRetryDelay : Nat := 1000
def kMaxRetryDelay : Nat := 30 * 1000

structure TCPConnector where
  running : Bool
  state : ConnectorState
  channel : Option ChanId
  retryDelay : Nat
  /-- The retry timer scheduled last; they are numbered from 1. -/
  timerId : Nat
  deriving DecidableEq, Repr

/-- The tasks the connector puts into the queue of its loop. -/
inductive ConnectorTask where
  | startInLoop | stopInLoop | resetChannel
  deriving DecidableEq, Repr

/-- What a connection attempt gets: a descriptor from `socket`, the result of
`connect` (0 if it succeeds) and the address of a new `Channel`. -/
structure Attempt where
  fd : Nat
  errno : Nat
  channel : ChanId
  deriving DecidableEq, Repr

inductive EventLoop.Assert where
  | startInLoop | connecting | connectingChannel | handleWrite | nullChannel
  deriving DecidableEq, Repr

/-- What can be observed of the loop and of the connector. -/
inductive EventLoop.Event where
  /-- `HandleEvent` of a channel is called while its status is `st`. -/
  | handleEvent (c : ChanId) (st : Status)
  /-- `TCPConnector::HandleWrite` is entered. -/
  | handleWrite (st : ConnectorState)
  | socket (fd : Nat)
  | close (fd : Nat)
  | newConn (fd : Nat)
  | timerAfter (delayS : Nat)
  deriving DecidableEq, Repr

structure EventLoop where
  poller : Epoller
  /-- The entries of `active_channels_` whose turn is still to come. -/
  activeChannels : List ChanId
  /-- A handler, a callback or a task of the user is running. -/
  busy : Bool
  taskList : List ConnectorTask
  /-- The retry timers in the timer queue. -/
  timers : List Nat
  /-- The retry timers of the batch being fired. -/
  expired : List Nat
  connector : TCPConnector
  /-- `connection_` of the client is set. -/
  connection : Bool
  /-- The `Channel` objects the connector has made. -/
  made : List ChanId
  asserts : List EventLoop.Assert
  log : List EventLoop.Event

namespace EventLoop

/-- A loop in which nothing has happened to the connector yet. -/
def new (p : Epoller) : EventLoop where
  poller := p
  activeChannels := []
  busy := false
  taskList := []
  timers := []
  expired := []
  connector := ⟨false, .disconnected, none, kInitRetryDelay, 0⟩
  connection := false
  made := []
  asserts := []
  log := []

def abort (s : EventLoop) (a : Assert) : EventLoop := { s with asserts := s.asserts ++ [a] }

def observe (s : EventLoop) (e : Event) : EventLoop := { s with log := s.log ++ [e] }

def setState (s : EventLoop) (st : ConnectorState) : EventLoop :=
  { s with connector := { s.connector with state := st } }

def setRunning (s : EventLoop) (running : Bool) : EventLoop :=
  { s with connector := { s.connector with running := running } }

def queueInLoop (s : EventLoop) (t : ConnectorTask) : EventLoop :=
  { s with taskList := s.taskList ++ [t] }

def exec (s : EventLoop) (c : ChanId) (op : Epoller.Op) : EventLoop :=
  { s with poller := s.poller.exec c true op }

/-! ## `TCPConnector` -/

def removeAndResetChannel (s : EventLoop) : EventLoop :=
  match s.connector.channel with
  | none => s.abort .nullChannel
  | some c => ((s.exec c .disableAll).exec c .remove).queueInLoop .resetChannel

def resetChannel (s : EventLoop) : EventLoop :=
  { s with connector := { s.connector with channel := none } }

def retry (s : EventLoop) : EventLoop :=
  let s := s.setState .disconnected
  if s.connector.running then
    let s := s.observe (.timerAfter (s.connector.retryDelay / 1000))
    { s with
      timers := s.timers ++ [s.connector.timerId + 1]
      connector := { s.connector with
        timerId := s.connector.timerId + 1
        retryDelay := min (s.connector.retryDelay * 2) kMaxRetryDelay } }
  else s

/-- `Connecting`. -/
def connecting (s : EventLoop) (fd : Nat) (c : ChanId) : EventLoop :=
  if s.connector.state ≠ .disconnected then s.abort .connecting
  else if s.connector.channel.isSome then s.abort .connectingChannel
  else
    let s := s.setState .connecting
    let s := { s with
      connector := { s.connector with channel := some c }
      poller := s.poller.setChannel c (Channel.new fd)
      made := c :: s.made }
    s.exec c .enableWriting

/-- `Connect`. -/
def connect (s : EventLoop) (r : Attempt) : EventLoop :=
  let s := s.observe (.socket r.fd)
  if r.errno = 0 ∨ r.errno = EINTR ∨ r.errno = EINPROGRESS ∨ r.errno = EISCONN then
    s.connecting r.fd r.channel
  else (s.observe (.close r.fd)).retry

def startInLoop (s : EventLoop) (r : Attempt) : EventLoop :=
  if s.connector.state ≠ .disconnected then s.abort .startInLoop
  else if s.connector.running then s.connect r
  else s

/-- `StopInLoop`; `TimerCancel` does not reach a timer of the batch being fired. -/
def stopInLoop (s : EventLoop) : EventLoop :=
  let s := { s with timers := s.timers.erase s.connector.timerId }
  if s.connector.state = .connecting then (s.setState .disconnected).removeAndResetChannel
  else s

/-- `Restart`. -/
def restart (s : EventLoop) (r : Attempt) : EventLoop :=
  let s := { s with connector := { s.connector with
    running := true, state := .disconnected, retryDelay := kInitRetryDelay } }
  s.startInLoop r

/-- `HandleWrite`. The user's part of `new_conn_cb_` follows its end. -/
def handleWrite (s : EventLoop) (errCode : Nat) (selfConnect : Bool) : EventLoop :=
  let s := s.observe (.handleWrite s.connector.state)
  if s.connector.state ≠ .connecting then s.abort .handleWrite
  else
    match s.connector.channel with
    | none => s.abort .nullChannel
    | some c =>
      let sockfd := (s.poller.chans c).fd
      let s := s.removeAndResetChannel
      if 0 < errCode then (s.observe (.close sockfd)).retry
      else if selfConnect then (s.observe (.close sockfd)).retry
      else
        let s := s.setState .connected
        if s.connector.running then
          { s.observe (.newConn sockfd) with connection := true, busy := true }
        else s.observe (.close sockfd)

/-- `HandleError`. -/
def handleError (s : EventLoop) : EventLoop :=
  if s.connector.state = .connecting then
    match s.connector.channel with
    | none => s.abort .nullChannel
    | some c =>
      let fd := (s.poller.chans c).fd
      let s := s.removeAndResetChannel
      (s.observe (.close fd)).retry
  else s

/-! ## The loop -/

/-- `Channel::HandleEvent`. A channel of the connector has no `read_cb_`. -/
def handleEvent (s : EventLoop) (c : ChanId) (errCode : Nat) (selfConnect : Bool) : EventLoop :=
  let s := s.observe (.handleEvent c (s.poller.chans c).status)
  if s.made.contains c then
    let revents := (s.poller.chans c).revents
    if revents.has (EPOLLHUP ||| EPOLLRDHUP) then s.handleError
    else if revents.has EPOLLERR then s.handleError
    else if revents.has EPOLLOUT then s.handleWrite errCode selfConnect
    else s
  else { s with busy := true }

def runTask (s : EventLoop) (r : Attempt) : ConnectorTask → EventLoop
  | .startInLoop => s.startInLoop r
  | .stopInLoop => s.stopInLoop
  | .resetChannel => s.resetChannel

/-- `FillActiveChannel` for one event. -/
def setRevents (p : Epoller) (e : ChanId × EventMask) : Epoller :=
  p.setChannel e.1 { p.chans e.1 with revents := e.2 }

/-- `epoll_wait` may report the event: the channel is in the interest set, and the
bits are of interest or are the two that are always reported. -/
def reported (s : EventLoop) (e : ChanId × EventMask) : Bool :=
  match s.poller.kernel (s.poller.chans e.1).fd with
  | none => false
  | some (m, c) => c == e.1 && e.2 &&& ~~~(m ||| EPOLLERR ||| EPOLLHUP) == 0#32

/-- The attempt is one the system can hand out: a descriptor that no channel is
registered on and an address at which no other `Channel` lives. -/
def mayAttempt (s : EventLoop) (r : Attempt) : Bool :=
  0 < r.fd && r.fd < s.poller.size && s.poller.channels r.fd == none &&
    (s.poller.chans r.channel).status == .kNew && !s.made.contains r.channel &&
    !s.activeChannels.contains r.channel

/-- What user code in the loop's thread can do. -/
inductive Action where
  | op (c : ChanId) (op : Epoller.Op)
  /-- `TCPClient::Connect`. -/
  | start (r : Attempt)
  /-- The connector's part of `TCPClient::Disconnect`. -/
  | stop
  /-- `TCPClient::RemoveConnection`, with `Restart` if the client is to retry. -/
  | removeConnection (r : Option Attempt)
  /-- `TimerQueue::HandleRead` takes these retry timers as expired. -/
  | expire (ts : List Nat)
  /-- It calls the callback of the next of them. -/
  | fire (r : Attempt)
  deriving DecidableEq, Repr

def act (s : EventLoop) : Action → Option EventLoop
  | .op c op =>
    if s.made.contains c = false ∧ s.poller.usable c = true then some (s.exec c op) else none
  | .start r =>
    if s.mayAttempt r then some ((s.setRunning true).startInLoop r) else none
  | .stop => some (s.setRunning false).stopInLoop
  | .removeConnection r =>
    if s.connection then
      match r with
      | none => some { s with connection := false }
      | some r =>
        if s.mayAttempt r then some ({ s with connection := false }.restart r) else none
    else none
  | .expire ts =>
    if s.expired = [] ∧ ts.Nodup ∧ ts.all s.timers.contains = true then
      some { s with expired := ts, timers := s.timers.filter fun t => !ts.contains t }
    else none
  | .fire r =>
    match s.expired with
    | [] => none
    | _ :: rest =>
      if s.mayAttempt r then some ({ s with expired := rest }.startInLoop r) else none

inductive Input where
  /-- `Poll` reports these events. -/
  | poll (events : List (ChanId × EventMask))
  /-- The loop calls `HandleEvent` of the next active channel. -/
  | dispatch (errCode : Nat) (selfConnect : Bool)
  /-- The user code that is running does something. -/
  | act (a : Action)
  /-- It returns to the loop. -/
  | ret
  /-- `DoPendingTasks` runs the next task of the connector. -/
  | task (r : Attempt)
  /-- `DoPendingTasks` runs a task of the user. -/
  | userTask
  /-- Another thread calls `Start` or `Stop`. -/
  | startElsewhere
  | stopElsewhere
  deriving DecidableEq, Repr

def stepOn (s : EventLoop) : Input → Option EventLoop
  | .poll events =>
    if s.activeChannels = [] ∧ s.busy = false ∧ (events.map (·.1)).Nodup ∧
        events.all s.reported = true then
      some { s with
        poller := events.foldl setRevents s.poller
        activeChannels := events.map (·.1) }
    else none
  | .dispatch errCode selfConnect =>
    if s.busy then none
    else
      match s.activeChannels with
      | [] => none
      | c :: rest =>
        some ({ s with activeChannels := rest }.handleEvent c errCode selfConnect)
  | .act a => if s.busy then s.act a else none
  | .ret => if s.busy = true ∧ s.expired = [] then some { s with busy := false } else none
  | .task r =>
    if s.activeChannels = [] ∧ s.busy = false ∧ s.mayAttempt r = true then
      match s.taskList with
      | [] => none
      | t :: rest => some ({ s with taskList := rest }.runTask r t)
    else none
  | .userTask =>
    if s.activeChannels = [] ∧ s.busy = false then some { s with busy := true } else none
  | .startElsewhere => some ((s.setRunning true).queueInLoop .startInLoop)
  | .stopElsewhere => some ((s.setRunning false).queueInLoop .stopInLoop)

def step (s : EventLoop) (i : Input) : Option EventLoop :=
  if s.asserts = [] then s.stepOn i else none

/-! ## What the handlers can do -/

/-- The ends of `HandleWrite`. -/
inductive WriteHandled (s : EventLoop) (errCode : Nat) (selfConnect : Bool) : EventLoop → Prop where
  | notConnecting (hs : s.connector.state ≠ .connecting) :
      WriteHandled s errCode selfConnect
        ((s.observe (.handleWrite s.connector.state)).abort .handleWrite)
  | nullChannel (hs : s.connector.state = .connecting) (hc : s.connector.channel = none) :
      WriteHandled s errCode selfConnect
        ((s.observe (.handleWrite s.connector.state)).abort .nullChannel)
  | refused {c : ChanId} (hs : s.connector.state = .connecting)
      (hc : s.connector.channel = some c) (hbad : 0 < errCode ∨ selfConnect = true) :
      WriteHandled s errCode selfConnect
        ((s.observe (.handleWrite s.connector.state)).removeAndResetChannel.observe
          (.close (s.poller.chans c).fd)).retry
  | accepted {c : ChanId} (hs : s.connector.state = .connecting)
      (hc : s.connector.channel = some c) (hok : errCode = 0 ∧ selfConnect = false)
      (hrun : s.connector.running = true) :
      WriteHandled s errCode selfConnect
        { ((s.observe (.handleWrite s.connector.state)).removeAndResetChannel.setState
            .connected).observe (.newConn (s.poller.chans c).fd) with
          connection := true, busy := true }
  | stopped {c : ChanId} (hs : s.connector.state = .connecting)
      (hc : s.connector.channel = some c) (hok : errCode = 0 ∧ selfConnect = false)
      (hrun : s.connector.running = false) :
      WriteHandled s errCode selfConnect
        (((s.observe (.handleWrite s.connector.state)).removeAndResetChannel.setState
          .connected).observe (.close (s.poller.chans c).fd))

theorem connector_removeAndResetChannel (s : EventLoop) :
    s.removeAndResetChannel.connector = s.connector := by
  unfold removeAndResetChannel
  split <;> rfl

theorem writeHandled (s : EventLoop) (errCode : Nat) (selfConnect : Bool) :
    s.WriteHandled errCode selfConnect (s.handleWrite errCode selfConnect) := by
  unfold handleWrite
  dsimp only
  split
  · rename_i hs
    exact .notConnecting hs
  · rename_i hs
    have hs : s.connector.state = .connecting := not_not.mp hs
    split
    · rename_i hc
      exact .nullChannel hs hc
    · rename_i c hc
      split
      · rename_i herr
        exact .refused hs hc (.inl herr)
      · rename_i herr
        split
        · rename_i hself
          exact .refused hs hc (.inr hself)
        · rename_i hself
          have hok : errCode = 0 ∧ selfConnect = false :=
            ⟨Nat.eq_zero_of_not_pos herr, Bool.eq_false_iff.mpr hself⟩
          have hsame := connector_removeAndResetChannel
            (s.observe (.handleWrite s.connector.state))
          split
          · rename_i hrun
            exact .accepted hs hc hok ((congrArg TCPConnector.running hsame).symm.trans hrun)
          · rename_i hrun
            exact .stopped hs hc hok ((congrArg TCPConnector.running hsame).symm.trans
              (Bool.eq_false_iff.mpr hrun))

/-- What `HandleEvent` of a channel comes to. -/
inductive EventHandled (s : EventLoop) (c : ChanId) (errCode : Nat) (selfConnect : Bool) :
    EventLoop → Prop where
  | foreign (hmade : c ∉ s.made) :
      EventHandled s c errCode selfConnect
        { s.observe (.handleEvent c (s.poller.chans c).status) with busy := true }
  | error (hmade : c ∈ s.made) :
      EventHandled s c errCode selfConnect
        (s.observe (.handleEvent c (s.poller.chans c).status)).handleError
  | write (hmade : c ∈ s.made) :
      EventHandled s c errCode selfConnect
        ((s.observe (.handleEvent c (s.poller.chans c).status)).handleWrite errCode selfConnect)
  | ignored (hmade : c ∈ s.made) :
      EventHandled s c errCode selfConnect (s.observe (.handleEvent c (s.poller.chans c).status))

theorem eventHandled (s : EventLoop) (c : ChanId) (errCode : Nat) (selfConnect : Bool) :
    s.EventHandled c errCode selfConnect (s.handleEvent c errCode selfConnect) := by
  unfold handleEvent
  dsimp only
  split
  · rename_i hmade
    have hmade : c ∈ s.made := List.contains_iff_mem.mp hmade
    split
    · exact .error hmade
    · split
      · exact .error hmade
      · split
        · exact .write hmade
        · exact .ignored hmade
  · rename_i hmade
    exact .foreign fun h => hmade (List.contains_iff_mem.mpr h)

end EventLoop

end LinuxNet
