import LinuxNet.Lib.Machine
import LinuxNet.Lib.SlotTable
import LinuxNet.Connection.Model
import Mathlib.Tactic.Simps.Basic

/-!
# `net::TCPServer` and its loops

The embedding of `tcp_server.cc`, of what `tcp_connection.cc` does about the life of
a connection, and of the stop of the thread pool, over any number of loops. Loop 0
is `owner_loop_`, the loops 1 to `loopNums` are those of the pool. A loop executes
one thing at a time, the loops execute in any order: a loop polls, dispatches what
`active_channels_` has for it, or runs the task at the head of its queue; the
server's loop also accepts.

`HandleClose` is cut at the user's `disconnection_cb_`: `closing` is the connection
whose callback the loop is in. A call of `ForceClose` is cut between its test of
`state_` and its `QueueInLoop`. The reference count of a connection is not kept:
`Input.drop` may destroy it, and close its descriptor, as soon as the server has no
reference left. Which loop `GetNextEventLoop` picks is an input.
-/

namespace LinuxNet

set_option autoImplicit false

open LinuxNet.Lib.SlotTable

/-- A loop; 0 is the loop of the server. -/
abbrev LoopId := Nat

/-- A connection, by the number `next_connect_id_` it was created with. -/
abbrev ConnId := Nat

/-- The tasks that move a connection between the loops. -/
inductive ServerTask where
  | connectionEstablished (c : ConnId)
  | forceCloseInLoop (c : ConnId)
  | onConnectionRemoveInLoop (c : ConnId)
  | connectionDestroy (c : ConnId)
  deriving DecidableEq, Repr

def ServerTask.conn : ServerTask → ConnId
  | .connectionEstablished c | .forceCloseInLoop c | .onConnectionRemoveInLoop c
  | .connectionDestroy c => c

/-- What the server's side depends on of a `TCPConnection`. -/
structure ServerConn where
  fd : Nat
  loop : LoopId
  state : ConnState
  /-- The channel is in the interest set of its poller. -/
  interest : Bool
  /-- The object exists and its descriptor is open. -/
  alive : Bool
  /-- `OnNewConnection` has put it into the table. -/
  accepted : Bool
  /-- `OnConnectionRemoveInLoop` has run for it. -/
  removed : Bool
  /-- How often `HandleClose` has run. -/
  closes : Nat
  deriving DecidableEq, Repr

namespace ServerConn

@[simps]
def connectionEstablished (k : ServerConn) : ServerConn :=
  { k with state := .connected, interest := true }

@[simps]
def handleClose (k : ServerConn) : ServerConn :=
  { k with state := .disconnecting, interest := false, closes := k.closes + 1 }

@[simps]
def connectionDestroy (k : ServerConn) : ServerConn :=
  { k with state := .disconnected, interest := false }

end ServerConn

inductive TCPServer.Fault where
  | addOccupied | outOfBounds | delMissing | delOther | dumpIndex | dumpCount
  | deadLoop | deadChannel
  deriving DecidableEq, Repr

/-- `Stop` has not been called; it is joining the threads of the pool and has
finished with the first `k`; it has returned. -/
inductive TCPServer.Phase where
  | running
  | stopping (k : Nat)
  | stopped
  deriving DecidableEq, Repr

def TCPServer.Phase.isStopping : TCPServer.Phase → Bool
  | .stopping _ => true
  | _ => false

structure TCPServer where
  loopNums : Nat
  /-- `tcp_conn_list_.size()`. -/
  size : Nat
  tcpConnList : Nat → Option ConnId
  tcpConnCount : Nat
  nextConnectId : Nat
  conns : ConnId → ServerConn
  taskList : LoopId → List ServerTask
  loopAlive : LoopId → Bool
  /-- The connections in `active_channels_` whose turn is still to come. -/
  activeChannels : LoopId → List ConnId
  /-- Calls of `ForceClose` between the test of `state_` and the push. -/
  inFlight : List ConnId
  /-- The connection whose `HandleClose` is in `disconnection_cb_`. -/
  closing : LoopId → Option ConnId
  phase : TCPServer.Phase
  /-- The calls of `RunInLoop` by `Stop`, and whether the loop still existed. -/
  stopCalls : List (ConnId × Bool)
  /-- The calls of `ConnectionDestroy`, and the thread they were made in. -/
  destroyed : List (ConnId × LoopId)
  faults : List TCPServer.Fault

namespace TCPServer

/-- The constructor and `Start`, with `loopNums` threads in the pool; `size` is
`kConnSize`. -/
def init (loopNums size : Nat) : TCPServer where
  loopNums := loopNums
  size := size
  tcpConnList := fun _ => none
  tcpConnCount := 0
  nextConnectId := 0
  conns := fun _ => ⟨0, 0, .connecting, false, false, false, false, 0⟩
  taskList := fun _ => []
  loopAlive := fun _ => true
  activeChannels := fun _ => []
  inFlight := []
  closing := fun _ => none
  phase := .running
  stopCalls := []
  destroyed := []
  faults := []

def check (s : TCPServer) (f : Fault) (ok : Bool) : TCPServer :=
  if ok then s else { s with faults := s.faults ++ [f] }

def setConn (s : TCPServer) (c : ConnId) (k : ServerConn) : TCPServer :=
  { s with conns := Function.update s.conns c k }

def setTaskList (s : TCPServer) (l : LoopId) (ts : List ServerTask) : TCPServer :=
  { s with taskList := Function.update s.taskList l ts }

def setActive (s : TCPServer) (l : LoopId) (cs : List ConnId) : TCPServer :=
  { s with activeChannels := Function.update s.activeChannels l cs }

def setClosing (s : TCPServer) (l : LoopId) (o : Option ConnId) : TCPServer :=
  { s with closing := Function.update s.closing l o }

/-- `QueueInLoop`. -/
def queueInLoop (s : TCPServer) (l : LoopId) (t : ServerTask) : TCPServer :=
  if s.loopAlive l then s.setTaskList l (s.taskList l ++ [t]) else s.check .deadLoop false

/-- `RunInLoop` called in a thread for a loop, where `run` is what the task does. -/
def runInLoop (s : TCPServer) (thread l : LoopId) (t : ServerTask)
    (run : TCPServer → TCPServer) : TCPServer :=
  if thread = l then run s else s.queueInLoop l t

/-! ## `TCPConnection` -/

def connectionEstablished (c : ConnId) (s : TCPServer) : TCPServer :=
  s.setConn c (s.conns c).connectionEstablished

def connectionDestroy (c : ConnId) (thread : LoopId) (s : TCPServer) : TCPServer :=
  { s.setConn c (s.conns c).connectionDestroy with
    destroyed := s.destroyed ++ [(c, thread)] }

/-- `HandleClose` up to `disconnection_cb_`, in the thread of the connection. -/
def handleClose (c : ConnId) (thread : LoopId) (s : TCPServer) : TCPServer :=
  (s.setConn c (s.conns c).handleClose).setClosing thread (some c)

def forceCloseInLoop (c : ConnId) (thread : LoopId) (s : TCPServer) : TCPServer :=
  if (s.conns c).state = .disconnecting ∨ (s.conns c).state = .disconnected then s
  else s.handleClose c thread

/-- `Channel::HandleEvent` as far as closing is concerned; the channel is part of
the connection. -/
def handleEvent (s : TCPServer) (c : ConnId) (thread : LoopId) (close : Bool) : TCPServer :=
  let s := s.check .deadChannel (s.conns c).alive
  if close then s.handleClose c thread else s

/-! ## The table -/

/-- The resize at the begin of `AddConnListItem`. -/
def growConnList (s : TCPServer) (fd : Nat) : TCPServer :=
  if s.size ≤ fd then { s with size := s.size * 2 } else s

/-- `AddConnListItem`. -/
def addConnListItem (s : TCPServer) (c : ConnId) : Bool × TCPServer :=
  let fd := (s.conns c).fd
  let s := s.growConnList fd
  if s.size < fd then (false, s)
  else
    let s := s.check .outOfBounds (fd < s.size)
    let s := s.check .addOccupied (s.tcpConnList fd).isNone
    (true, { s with
      tcpConnList := Function.update s.tcpConnList fd (some c)
      tcpConnCount := s.tcpConnCount + 1 })

/-- `DelConnListItem`; that the slot holds another connection is not noticed. -/
def delConnListItem (s : TCPServer) (c : ConnId) : TCPServer :=
  let fd := (s.conns c).fd
  let s := s.check .delMissing (s.tcpConnList fd).isSome
  let s := s.check .delOther (s.tcpConnList fd == some c)
  { s with
    tcpConnList := Function.update s.tcpConnList fd none
    tcpConnCount := s.tcpConnCount - 1 }

/-- An entry of the table sits at its own descriptor. -/
def slotMatches (s : TCPServer) (i : Nat) : Bool :=
  match s.tcpConnList i with
  | none => true
  | some c => (s.conns c).fd == i

/-- `DumpConnections`: its loop and its asserts. -/
def dumpConnections (s : TCPServer) : TCPServer :=
  let s := s.check .dumpIndex ((List.range s.size).all s.slotMatches)
  s.check .dumpCount
    ((List.range s.size).countP (fun i => (s.tcpConnList i).isSome) == s.tcpConnCount)

/-- `OnNewConnection` for a connection of the loop `l`. -/
def onNewConnection (s : TCPServer) (fd : Nat) (l : LoopId) : TCPServer :=
  let c := s.nextConnectId
  let s := { s.setConn c ⟨fd, l, .connecting, false, true, false, false, 0⟩ with nextConnectId := c + 1 }
  match s.addConnListItem c with
  | (false, s) => s.setConn c { s.conns c with alive := false }
  | (true, s) =>
    let s := s.setConn c { s.conns c with accepted := true }
    s.runInLoop 0 l (.connectionEstablished c) (connectionEstablished c)

/-- `OnConnectionRemoveInLoop`, in the thread of the server's loop. -/
def onConnectionRemoveInLoop (c : ConnId) (s : TCPServer) : TCPServer :=
  let s := s.delConnListItem c
  let s := s.setConn c { s.conns c with removed := true }
  let s := s.runInLoop 0 (s.conns c).loop (.connectionDestroy c) (connectionDestroy c 0)
  s.dumpConnections

/-- `OnConnectionRemove`, in the thread of the connection. -/
def onConnectionRemove (c : ConnId) (thread : LoopId) (s : TCPServer) : TCPServer :=
  s.runInLoop thread 0 (.onConnectionRemoveInLoop c) (onConnectionRemoveInLoop c)

def runTask (s : TCPServer) (l : LoopId) : ServerTask → TCPServer
  | .connectionEstablished c => s.connectionEstablished c
  | .forceCloseInLoop c => s.forceCloseInLoop c l
  | .onConnectionRemoveInLoop c => s.onConnectionRemoveInLoop c
  | .connectionDestroy c => s.connectionDestroy c l

/-! ## Stopping -/

/-- The connections in `tcp_conn_list_`, in the order of the table. -/
def entries (s : TCPServer) : List ConnId := (List.range s.size).filterMap s.tcpConnList

/-- The body of the loop in `Stop`, in the thread of the server's loop. -/
def stopConn (s : TCPServer) (c : ConnId) : TCPServer :=
  let l := (s.conns c).loop
  let s := { s with stopCalls := s.stopCalls ++ [(c, s.loopAlive l)] }
  s.runInLoop 0 l (.connectionDestroy c) (connectionDestroy c 0)

/-! ## The machine -/

inductive Input where
  /-- The server's loop accepts `fd` for the loop `l`. -/
  | accept (fd : Nat) (l : LoopId)
  /-- A loop executes the task at the head of its queue. -/
  | runTask (l : LoopId)
  /-- `Poll` of a loop fills `active_channels_`. -/
  | poll (l : LoopId) (cs : List ConnId)
  /-- A loop calls `HandleEvent` of the next active channel; `close` says whether
  the handlers call `HandleClose`. -/
  | dispatch (l : LoopId) (close : Bool)
  /-- `disconnection_cb_` returns, and `HandleClose` calls `remove_cb_`. -/
  | removeCb (l : LoopId)
  /-- A thread calls `ForceClose` and tests `state_`. -/
  | forceClose (c : ConnId)
  /-- The `i`-th of these calls reaches its `QueueInLoop`. -/
  | push (i : Nat)
  /-- The last reference to a connection is dropped. -/
  | drop (c : ConnId)
  /-- The thread of the server's loop calls `Stop`. -/
  | stop
  /-- The next thread of the pool has left its loop and is joined. -/
  | join
  /-- `Stop` goes through `tcp_conn_list_` and returns. -/
  | sweep
  deriving DecidableEq, Repr

/-- The thread of `l` is free to run something: it exists, it is not in a callback,
and it is not the one that executes `Stop`. -/
def ready (s : TCPServer) (l : LoopId) : Bool :=
  s.loopAlive l && (s.closing l).isNone && (l != 0 || !s.phase.isStopping)

/-- The loops `GetNextEventLoop` may return. -/
def mayServe (s : TCPServer) (l : LoopId) : Bool :=
  if s.loopNums = 0 then l == 0 else 0 < l && l ≤ s.loopNums

/-- `accept` may return `fd`: no connection has it open. -/
def fdFree (s : TCPServer) (fd : Nat) : Bool :=
  0 < fd && (List.range s.nextConnectId).all fun c => !(s.conns c).alive || (s.conns c).fd != fd

/-- The server, a queue or a thread still refers to the connection. -/
def referenced (s : TCPServer) (c : ConnId) : Bool :=
  s.tcpConnList (s.conns c).fd == some c || s.inFlight.contains c ||
    (List.range (s.loopNums + 1)).any fun l =>
      s.closing l == some c || (s.taskList l).any fun t => t.conn == c

/-- `epoll_wait` of the loop may report the connection. -/
def polls (s : TCPServer) (l : LoopId) (c : ConnId) : Bool :=
  (s.conns c).loop == l && (s.conns c).interest

def step (s : TCPServer) : Input → Option TCPServer
  | .accept fd l =>
    if s.phase = .running ∧ s.ready 0 = true ∧ s.mayServe l = true ∧ s.fdFree fd = true then
      some (s.onNewConnection fd l)
    else none
  | .runTask l =>
    if s.ready l = true ∧ s.activeChannels l = [] then
      match s.taskList l with
      | [] => none
      | t :: rest => some ((s.setTaskList l rest).runTask l t)
    else none
  | .poll l cs =>
    if s.ready l = true ∧ s.activeChannels l = [] ∧ cs.Nodup ∧ cs.all (s.polls l) = true then
      some (s.setActive l cs)
    else none
  | .dispatch l close =>
    if s.ready l then
      match s.activeChannels l with
      | [] => none
      | c :: rest => some ((s.setActive l rest).handleEvent c l close)
    else none
  | .removeCb l =>
    match s.closing l with
    | none => none
    | some c =>
      if s.loopAlive l = true ∧ (l ≠ 0 ∨ s.phase.isStopping = false) then
        some ((s.setClosing l none).onConnectionRemove c l)
      else none
  | .forceClose c =>
    if (s.conns c).alive then
      if (s.conns c).state = .connected then some { s with inFlight := s.inFlight ++ [c] }
      else some s
    else none
  | .push i =>
    match s.inFlight[i]? with
    | none => none
    | some c => some ({ s with inFlight := s.inFlight.eraseIdx i }.queueInLoop (s.conns c).loop
        (.forceCloseInLoop c))
  | .drop c =>
    if (s.conns c).alive = true ∧ s.referenced c = false then
      some (s.setConn c { s.conns c with alive := false })
    else none
  | .stop =>
    if s.phase = .running then some { s with phase := .stopping 0 } else none
  | .join =>
    match s.phase with
    | .stopping k =>
      if k < s.loopNums ∧ s.closing (k + 1) = none ∧ s.activeChannels (k + 1) = [] then
        some { s.setTaskList (k + 1) [] with
          phase := .stopping (k + 1)
          loopAlive := Function.update s.loopAlive (k + 1) false }
      else none
    | _ => none
  | .sweep =>
    if s.phase = .stopping s.loopNums then
      some { s.entries.foldl stopConn s with phase := .stopped }
    else none

end TCPServer

end LinuxNet
