import LinuxNet.Connection.Model
import LinuxNet.Connector.Model

/-!
# `TCPClient::Disconnect` in another thread

The embedding of `tcp_client.cc`, with the parts of `tcp_connector.cc` and `tcp_connection.cc`
it rests on, cut at every access to what the thread of the loop and the thread that calls
`Disconnect` share: `connect_`, `connection_` under `mutex_`, the state of the connection,
`running_` of the connector and the queue of the loop. Between two steps of the one thread the
other one may do any number of steps. The loop takes the events and the tasks in any order; a
channel of the connector is registered in the state CONNECTING, so that only there it is told
of the end of an attempt. A failed `assert` ends the process.
-/

namespace LinuxNet

set_option autoImplicit false

open LinuxNet.Lib

/-- The tasks of the client, its connector and its connections. -/
inductive ClientTask where
  | startInLoop | stopInLoop | resetChannel
  | forceCloseInLoop (c : Nat)
  | connectionDestroy (c : Nat)
  deriving DecidableEq, Repr

/-- What the thread of the loop is going to do next. -/
inductive ClientLoopPc where
  /-- The next event or task. -/
  | idle
  /-- `HandleWrite`: the test of `running_`. -/
  | testing
  /-- `NewConnection`: `connection_ = conn_ptr`. -/
  | publishing (c : Nat)
  /-- `ConnectionEstablished`: `state_ = CONNECTED`. -/
  | establishing (c : Nat)
  /-- `Retry`. -/
  | retrying
  /-- `RemoveConnection`: `connection_.reset()`. -/
  | removing (c : Nat)
  /-- `RemoveConnection`: the test of `retry_ && connect_`. -/
  | removed
  /-- `Restart`. -/
  | restarting
  /-- `StartInLoop`, called by `Restart`. -/
  | starting
  deriving DecidableEq, Repr

/-- What the thread that calls `Disconnect` is going to do next. -/
inductive DisconnectPc where
  | notCalled
  /-- Lock `mutex_` and look at `connection_`. -/
  | looking
  /-- `ForceClose`: the test of `state_`; it holds `mutex_`. -/
  | testing (c : Nat)
  /-- `ForceClose`: `QueueInLoop`; it holds `mutex_`. -/
  | queueing (c : Nat)
  /-- `Stop`: `running_ = false`. -/
  | stopping
  /-- `Stop`: `RunInLoop`. -/
  | queueingStop
  deriving DecidableEq, Repr

def DisconnectPc.holdsMutex : DisconnectPc → Bool
  | .testing _ | .queueing _ => true
  | _ => false

/-- A client, the thread of its loop, and a thread that calls `Disconnect`. -/
structure SharedClient where
  /-- `retry_` and `connect_`. -/
  retry : Bool
  connect : Bool
  connection : Option Nat
  /-- `state_` of the connections, by the number they were created with. -/
  conns : Nat → ConnState
  nextConnId : Nat
  connector : TCPConnector
  /-- The retry timers in the timer queue. -/
  timers : List Nat
  taskList : List ClientTask
  loop : ClientLoopPc
  disconnect : DisconnectPc
  aborted : Bool

namespace SharedClient

def new : SharedClient where
  retry := false
  connect := false
  connection := none
  conns := fun _ => .disconnected
  nextConnId := 0
  connector := ⟨false, .disconnected, none, kInitRetryDelay, 0⟩
  timers := []
  taskList := []
  loop := .idle
  disconnect := .notCalled
  aborted := false

def setConn (s : SharedClient) (c : Nat) (st : ConnState) : SharedClient :=
  { s with conns := Function.update s.conns c st }

def setState (s : SharedClient) (st : ConnectorState) : SharedClient :=
  { s with connector := { s.connector with state := st } }

def setRunning (s : SharedClient) (running : Bool) : SharedClient :=
  { s with connector := { s.connector with running := running } }

def queueInLoop (s : SharedClient) (t : ClientTask) : SharedClient :=
  { s with taskList := s.taskList ++ [t] }

def goto (s : SharedClient) (pc : ClientLoopPc) : SharedClient := { s with loop := pc }

def abort (s : SharedClient) : SharedClient := { s with aborted := true }

/-! ## `TCPConnector` -/

/-- `RemoveAndResetChannel`, without the poller. -/
def removeAndResetChannel (s : SharedClient) : SharedClient := s.queueInLoop .resetChannel

def retryConnect (s : SharedClient) : SharedClient :=
  let s := s.setState .disconnected
  if s.connector.running then
    { s with
      timers := s.timers ++ [s.connector.timerId + 1]
      connector := { s.connector with
        timerId := s.connector.timerId + 1
        retryDelay := min (s.connector.retryDelay * 2) kMaxRetryDelay } }
  else s

def connecting (s : SharedClient) (c : ChanId) : SharedClient :=
  if s.connector.state ≠ .disconnected ∨ s.connector.channel.isSome = true then s.abort
  else { s with connector := { s.connector with state := .connecting, channel := some c } }

/-- `TCPConnector::Connect`; a refused attempt goes on with `Retry`. -/
def connectSocket (s : SharedClient) (r : Attempt) : SharedClient :=
  if r.errno = 0 ∨ r.errno = EINTR ∨ r.errno = EINPROGRESS ∨ r.errno = EISCONN then
    s.connecting r.channel
  else s.goto .retrying

def startInLoop (s : SharedClient) (r : Attempt) : SharedClient :=
  if s.connector.state ≠ .disconnected then s.abort
  else if s.connector.running then s.connectSocket r
  else s

def stopInLoop (s : SharedClient) : SharedClient :=
  let s := { s with timers := s.timers.erase s.connector.timerId }
  if s.connector.state = .connecting then (s.setState .disconnected).removeAndResetChannel
  else s

/-- `HandleWrite` up to the test of `running_`; `ok` is false if the socket has an error or is
connected to itself. -/
def handleWrite (s : SharedClient) (ok : Bool) : SharedClient :=
  let s := s.removeAndResetChannel
  if ok then (s.setState .connected).goto .testing else s.goto .retrying

/-- `HandleError` in the state CONNECTING. -/
def handleError (s : SharedClient) : SharedClient := s.removeAndResetChannel.goto .retrying

/-! ## `TCPConnection` -/

/-- `HandleClose` up to `remove_cb_`; the client sets no `disconnection_cb_`. -/
def handleClose (s : SharedClient) (c : Nat) : SharedClient :=
  (s.setConn c .disconnecting).goto (.removing c)

def forceCloseInLoop (s : SharedClient) (c : Nat) : SharedClient :=
  if s.conns c = .disconnecting ∨ s.conns c = .disconnected then s else s.handleClose c

/-! ## The two threads -/

def runTask (s : SharedClient) (r : Attempt) : ClientTask → SharedClient
  | .startInLoop => s.startInLoop r
  | .stopInLoop => s.stopInLoop
  | .resetChannel => { s with connector := { s.connector with channel := none } }
  | .forceCloseInLoop c => s.forceCloseInLoop c
  | .connectionDestroy c => s.setConn c .disconnected

/-- The thread of the loop goes on with what it is doing. -/
def loopStep (s : SharedClient) (r : Attempt) : Option SharedClient :=
  match s.loop with
  | .idle => none
  | .testing =>
    if s.connector.running then
      some { s.setConn s.nextConnId .connecting with
        nextConnId := s.nextConnId + 1
        loop := .publishing s.nextConnId }
    else some (s.goto .idle)
  | .publishing c =>
    if s.disconnect.holdsMutex then none
    else some { s with connection := some c, loop := .establishing c }
  | .establishing c => some ((s.setConn c .connected).goto .idle)
  | .retrying => some (s.retryConnect.goto .idle)
  | .removing c =>
    if s.disconnect.holdsMutex then none
    else if s.connection ≠ some c then some s.abort
    else some ({ s with connection := none, loop := .removed }.queueInLoop (.connectionDestroy c))
  | .removed => some (s.goto (if s.retry && s.connect then .restarting else .idle))
  | .restarting =>
    some { s with
      connector := { s.connector with
        running := true, state := .disconnected, retryDelay := kInitRetryDelay }
      loop := .starting }
  | .starting => some ((s.goto .idle).startInLoop r)

/-- `Disconnect` goes on. -/
def disconnectStep (s : SharedClient) : SharedClient :=
  match s.disconnect with
  | .notCalled => { s with connect := false, disconnect := .looking }
  | .looking =>
    match s.connection with
    | none => { s with disconnect := .stopping }
    | some c => { s with disconnect := .testing c }
  | .testing c =>
    { s with disconnect := if s.conns c = .connected then .queueing c else .stopping }
  | .queueing c => { s with disconnect := .stopping }.queueInLoop (.forceCloseInLoop c)
  | .stopping => { s.setRunning false with disconnect := .queueingStop }
  | .queueingStop => { s with disconnect := .notCalled }.queueInLoop .stopInLoop

inductive Input where
  /-- A thread calls `EnableRetry`, or `Connect` while no `Disconnect` is under way. -/
  | enableRetry
  | connect
  /-- The thread that calls `Disconnect` goes on, or calls it. -/
  | disconnect
  /-- The loop goes on. -/
  | loop (r : Attempt)
  /-- The loop runs the next task. -/
  | task (r : Attempt)
  /-- The loop calls `HandleWrite` or `HandleError` of the connector. -/
  | writable (ok : Bool)
  | failed
  /-- A retry timer fires. -/
  | timer (t : Nat) (r : Attempt)
  /-- The peer has closed the connection `c`. -/
  | close (c : Nat)
  deriving DecidableEq, Repr

def stepOn (s : SharedClient) : Input → Option SharedClient
  | .enableRetry => some { s with retry := true }
  | .connect =>
    if s.disconnect = .notCalled then
      some ({ s.setRunning true with connect := true }.queueInLoop .startInLoop)
    else none
  | .disconnect => some s.disconnectStep
  | .loop r => s.loopStep r
  | .task r =>
    if s.loop = .idle then
      match s.taskList with
      | [] => none
      | t :: rest => some ({ s with taskList := rest }.runTask r t)
    else none
  | .writable ok =>
    if s.loop = .idle ∧ s.connector.state = .connecting then some (s.handleWrite ok) else none
  | .failed =>
    if s.loop = .idle ∧ s.connector.state = .connecting then some s.handleError else none
  | .timer t r =>
    if s.loop = .idle ∧ t ∈ s.timers then
      some ({ s with timers := s.timers.erase t }.startInLoop r)
    else none
  | .close c =>
    if s.loop = .idle ∧ s.conns c = .connected then some (s.handleClose c) else none

def step (s : SharedClient) (i : Input) : Option SharedClient :=
  if s.aborted then none else s.stepOn i

/-! ## Steps -/

/-- Once `Disconnect` has looked at `connection_`, and as long as there is no new `Connect`, the
connection it may have found is going to be closed: `ForceClose` is about to look at its state
or to queue the close, or the close is in the queue. -/
def Heeded (s : SharedClient) : Prop :=
  s.connect = false → s.disconnect ≠ .looking → ∀ c, s.connection = some c →
    (s.conns c = .connecting → s.disconnect = .testing c) ∧
    (s.conns c = .connected → s.disconnect = .testing c ∨ s.disconnect = .queueing c ∨
      .forceCloseInLoop c ∈ s.taskList)

structure Inv (s : SharedClient) : Prop where
  heeded : s.Heeded
  called : s.disconnect ≠ .notCalled → s.connect = false
  mutex : ∀ c, s.disconnect = .testing c ∨ s.disconnect = .queueing c → s.connection = some c
  fresh : ∀ c, s.connection = some c → c < s.nextConnId
  made : ∀ c, s.loop = .publishing c ∨ s.loop = .establishing c →
    c < s.nextConnId ∧ s.conns c = .connecting

/-- `Disconnect` overlooks a connection: it is not published before `Disconnect` has looked, or
it is published and not yet established when `ForceClose` tests its state. -/
def overlooks (s : SharedClient) : Input → Bool
  | .loop _ =>
    match s.loop with
    | .publishing _ => !s.connect && s.disconnect != .looking
    | _ => false
  | .disconnect =>
    match s.disconnect with
    | .testing c => s.conns c == .connecting
    | _ => false
  | _ => false

/-- What the steps that only concern the connector leave alone. -/
structure Frame (s s' : SharedClient) : Prop where
  connect : s'.connect = s.connect
  disconnect : s'.disconnect = s.disconnect
  connection : s'.connection = s.connection
  nextConnId : s'.nextConnId = s.nextConnId
  conns : s'.conns = s.conns
  tasks : ∀ c, .forceCloseInLoop c ∈ s.taskList → .forceCloseInLoop c ∈ s'.taskList
  loop : ∀ c, s'.loop = .publishing c ∨ s'.loop = .establishing c → s'.loop = s.loop

section Steps

variable {s s' s'' : SharedClient} {i : Input} {r : Attempt} {c : Nat}

theorem inv_new : new.Inv where
  heeded _ _ c hc := absurd hc (by simp [new])
  called h := absurd rfl h
  mutex c h := by simp [new] at h
  fresh c h := by simp [new] at h
  made c h := by simp [new] at h

theorem Inv.frame (h : s.Inv) (hf : Frame s s') : s'.Inv where
  heeded := by
    intro hconnect hdis c hc
    rw [hf.connect] at hconnect
    rw [hf.disconnect] at hdis ⊢
    rw [hf.connection] at hc
    rw [hf.conns]
    obtain ⟨h1, h2⟩ := h.heeded hconnect hdis c hc
    exact ⟨h1, fun hst => (h2 hst).imp_right (Or.imp_right (hf.tasks c))⟩
  called := by
    rw [hf.connect, hf.disconnect]
    exact h.called
  mutex := by
    rw [hf.disconnect, hf.connection]
    exact h.mutex
  fresh := by
    rw [hf.connection, hf.nextConnId]
    exact h.fresh
  made := by
    intro c hl
    rw [hf.nextConnId, hf.conns]
    exact h.made c (by rw [← hf.loop c hl]; exact hl)

/-- The state of one connection changes, to one in which it is not open. -/
theorem Inv.shut (h : s.Inv) {st : ConnState} (hst : st ≠ .connecting ∧ st ≠ .connected)
    (hconns : s'.conns = Function.update s.conns c st) (hconnect : s'.connect = s.connect)
    (hdis : s'.disconnect = s.disconnect) (hcon : s'.connection = s.connection)
    (hnext : s'.nextConnId = s.nextConnId)
    (htasks : ∀ c', c' ≠ c → .forceCloseInLoop c' ∈ s.taskList →
      .forceCloseInLoop c' ∈ s'.taskList)
    (hloop : ∀ c', s'.loop ≠ .publishing c' ∧ s'.loop ≠ .establishing c') : s'.Inv where
  heeded := by
    intro hconnect' hdis' c' hc'
    rw [hconnect] at hconnect'
    rw [hdis] at hdis' ⊢
    rw [hcon] at hc'
    by_cases hcc : c' = c
    · subst hcc
      rw [hconns, Function.update_self]
      exact ⟨fun he => absurd he hst.1, fun he => absurd he hst.2⟩
    · rw [hconns, Function.update_of_ne hcc]
      obtain ⟨h1, h2⟩ := h.heeded hconnect' hdis' c' hc'
      exact ⟨h1, fun hs => (h2 hs).imp_right (Or.imp_right (htasks c' hcc))⟩
  called := by
    rw [hconnect, hdis]
    exact h.called
  mutex := by
    rw [hdis, hcon]
    exact h.mutex
  fresh := by
    rw [hcon, hnext]
    exact h.fresh
  made c' hl := absurd hl (by simp [hloop c'])

/-! ### The connector -/

theorem Frame.trans (h : Frame s s') (h' : Frame s' s'') : Frame s s'' where
  connect := h'.connect.trans h.connect
  disconnect := h'.disconnect.trans h.disconnect
  connection := h'.connection.trans h.connection
  nextConnId := h'.nextConnId.trans h.nextConnId
  conns := h'.conns.trans h.conns
  tasks c hc := h'.tasks c (h.tasks c hc)
  loop c hl := (h'.loop c hl).trans (h.loop c (by rw [← h'.loop c hl]; exact hl))

theorem Frame.refl (s : SharedClient) : Frame s s :=
  ⟨rfl, rfl, rfl, rfl, rfl, fun _ h => h, fun _ _ => rfl⟩

/-- Only the connector and its timers change. -/
theorem frame_connector (k : TCPConnector) (ts : List Nat) :
    Frame s { s with connector := k, timers := ts } :=
  ⟨rfl, rfl, rfl, rfl, rfl, fun _ h => h, fun _ _ => rfl⟩

theorem frame_abort : Frame s s.abort :=
  ⟨rfl, rfl, rfl, rfl, rfl, fun _ h => h, fun _ _ => rfl⟩

theorem frame_goto {pc : ClientLoopPc} (hpc : ∀ c, pc ≠ .publishing c ∧ pc ≠ .establishing c) :
    Frame s (s.goto pc) :=
  ⟨rfl, rfl, rfl, rfl, rfl, fun _ h => h, fun c hl => absurd hl (by simp [goto, hpc c])⟩

theorem frame_queueInLoop (t : ClientTask) : Frame s (s.queueInLoop t) :=
  ⟨rfl, rfl, rfl, rfl, rfl, fun _ h => List.mem_append_left _ h, fun _ _ => rfl⟩

theorem frame_retryConnect : Frame s s.retryConnect := by
  unfold retryConnect
  dsimp only
  split
  · exact frame_connector _ _
  · exact frame_connector _ _

theorem frame_startInLoop (r : Attempt) : Frame s (s.startInLoop r) := by
  unfold startInLoop connectSocket connecting
  split
  · exact frame_abort
  · split
    · split
      · split
        · exact frame_abort
        · exact frame_connector _ _
      · exact frame_goto (by simp)
    · exact Frame.refl s

theorem frame_stopInLoop : Frame s s.stopInLoop := by
  unfold stopInLoop removeAndResetChannel
  dsimp only
  split
  · exact (frame_connector _ _).trans (frame_queueInLoop _)
  · exact frame_connector _ _

theorem frame_handleWrite (ok : Bool) : Frame s (s.handleWrite ok) := by
  have hqueue := frame_queueInLoop (s := s) .resetChannel
  unfold handleWrite removeAndResetChannel
  dsimp only
  split
  · exact hqueue.trans ((frame_connector _ _).trans (frame_goto (by simp)))
  · exact hqueue.trans (frame_goto (by simp))

theorem frame_pop {t : ClientTask} {rest : List ClientTask} (hq : s.taskList = t :: rest)
    (ht : ∀ c, t ≠ .forceCloseInLoop c) : Frame s { s with taskList := rest } := by
  refine ⟨rfl, rfl, rfl, rfl, rfl, fun c hc => ?_, fun _ _ => rfl⟩
  rw [hq] at hc
  exact (List.mem_cons.mp hc).resolve_left fun he => ht c he.symm

theorem Inv.handleClose (h : s.Inv) (c : Nat) : (s.handleClose c).Inv :=
  h.shut (c := c) (by decide) rfl rfl rfl rfl rfl (fun _ _ hm => hm)
    (by simp [SharedClient.handleClose, goto])

/-! ### The thread of the loop -/

theorem Inv.runTask (h : s.Inv) (hidle : s.loop = .idle) {t : ClientTask} {rest : List ClientTask}
    (hq : s.taskList = t :: rest) (r : Attempt) :
    (runTask { s with taskList := rest } r t).Inv := by
  cases t with
  | startInLoop => exact h.frame ((frame_pop hq (by simp)).trans (frame_startInLoop r))
  | stopInLoop => exact h.frame ((frame_pop hq (by simp)).trans frame_stopInLoop)
  | resetChannel => exact h.frame ((frame_pop hq (by simp)).trans (frame_connector _ _))
  | forceCloseInLoop c =>
    have htasks : ∀ c', c' ≠ c → .forceCloseInLoop c' ∈ s.taskList →
        .forceCloseInLoop c' ∈ rest := by
      intro c' hc hm
      rw [hq] at hm
      exact (List.mem_cons.mp hm).resolve_left fun he => hc (by simpa using he)
    simp only [SharedClient.runTask, forceCloseInLoop]
    split
    · rename_i hst
      have hshut : s.conns c ≠ .connecting ∧ s.conns c ≠ .connected := by
        rcases hst with hst | hst
        · simp [hst]
        · simp [hst]
      exact h.shut hshut (Function.update_eq_self c s.conns).symm rfl rfl rfl rfl htasks
        (by simp [hidle])
    · exact h.shut (c := c) (by decide) rfl rfl rfl rfl rfl htasks
        (by simp [SharedClient.handleClose, goto])
  | connectionDestroy c =>
    exact (h.frame (frame_pop hq (by simp))).shut (c := c) (by decide) rfl rfl rfl rfl rfl
      (fun _ _ hm => hm) (by simp [SharedClient.runTask, setConn, hidle])

/-- Outside of its critical section `Disconnect` has no connection in hand. -/
theorem not_held (hm : s.disconnect.holdsMutex = false) (c : Nat) :
    ¬ (s.disconnect = .testing c ∨ s.disconnect = .queueing c) := by
  rintro (hd | hd)
  · simp [hd, DisconnectPc.holdsMutex] at hm
  · simp [hd, DisconnectPc.holdsMutex] at hm

/-- A connection is created by a test of `running_` that found it true. -/
theorem Inv.create (h : s.Inv) :
    ({ s.setConn s.nextConnId .connecting with
      nextConnId := s.nextConnId + 1
      loop := .publishing s.nextConnId } : SharedClient).Inv where
  heeded hconnect hdis c hc := by
    have hne : c ≠ s.nextConnId := (h.fresh c hc).ne
    simp only [setConn, Function.update_of_ne hne]
    exact h.heeded hconnect hdis c hc
  called := h.called
  mutex := h.mutex
  fresh c hc := Nat.lt_succ_of_lt (h.fresh c hc)
  made c hl := by
    obtain rfl : s.nextConnId = c := by simpa using hl
    simp [setConn]

theorem Inv.publish (h : s.Inv) (hl : s.loop = .publishing c)
    (hm : s.disconnect.holdsMutex = false) (hlook : s.connect = true ∨ s.disconnect = .looking) :
    ({ s with connection := some c, loop := .establishing c } : SharedClient).Inv where
  heeded hconnect hdis := absurd hlook (by simp_all)
  called := h.called
  mutex c' hd := absurd hd (not_held hm c')
  fresh c' hc := by
    obtain rfl : c = c' := Option.some.inj hc
    exact (h.made c (.inl hl)).1
  made c' hl' := by
    obtain rfl : c = c' := by simpa using hl'
    exact h.made c (.inl hl)

theorem Inv.establish (h : s.Inv) (hl : s.loop = .establishing c) :
    ((s.setConn c .connected).goto .idle).Inv where
  heeded hconnect hdis c' hc' := by
    have hold := h.heeded hconnect hdis c' hc'
    by_cases hcc : c' = c
    · subst hcc
      have hst := (h.made c' (.inr hl)).2
      simp only [goto, setConn, Function.update_self]
      exact ⟨fun he => absurd he (by decide), fun _ => .inl (hold.1 hst)⟩
    · simp only [goto, setConn, Function.update_of_ne hcc]
      exact hold
  called := h.called
  mutex := h.mutex
  fresh := h.fresh
  made c' hl' := absurd hl' (by simp [goto])

theorem Inv.remove (h : s.Inv) (hm : s.disconnect.holdsMutex = false) :
    ({ s with connection := none, loop := .removed } : SharedClient).Inv where
  heeded _ _ c' hc' := absurd hc' (by simp)
  called := h.called
  mutex c' hd := absurd hd (not_held hm c')
  fresh c' hc' := absurd hc' (by simp)
  made c' hl' := absurd hl' (by simp)

theorem Inv.loopStep (h : s.Inv) (hi : ¬ s.overlooks (.loop r) = true)
    (hstep : s.loopStep r = some s') : s'.Inv := by
  unfold SharedClient.loopStep at hstep
  cases hl : s.loop with
  | idle => simp [hl] at hstep
  | testing =>
    simp only [hl] at hstep
    split at hstep
    · cases hstep
      exact h.create
    · cases hstep
      exact h.frame (frame_goto (by simp))
  | publishing c =>
    simp only [hl] at hstep
    split at hstep
    · cases hstep
    · rename_i hm
      cases hstep
      refine h.publish hl (Bool.eq_false_iff.mpr hm) ?_
      by_contra hno
      simp only [not_or, Bool.not_eq_true] at hno
      exact hi (by simp [overlooks, hl, hno])
  | establishing c =>
    simp only [hl] at hstep
    cases hstep
    exact h.establish hl
  | retrying =>
    simp only [hl] at hstep
    cases hstep
    exact h.frame (frame_retryConnect.trans (frame_goto (by simp)))
  | removing c =>
    simp only [hl] at hstep
    split at hstep
    · cases hstep
    · rename_i hm
      split at hstep
      · cases hstep
        exact h.frame frame_abort
      · cases hstep
        exact (h.remove (Bool.eq_false_iff.mpr hm)).frame (frame_queueInLoop _)
  | removed =>
    simp only [hl] at hstep
    cases hstep
    refine h.frame (frame_goto fun c => ?_)
    split <;> simp
  | restarting =>
    simp only [hl] at hstep
    cases hstep
    exact h.frame ⟨rfl, rfl, rfl, rfl, rfl, fun _ hm => hm, by simp⟩
  | starting =>
    simp only [hl] at hstep
    cases hstep
    exact h.frame ((frame_goto (by simp)).trans (frame_startInLoop r))

/-! ### The thread that calls `Disconnect` -/

/-- `Disconnect` gets on to `pc`, and the loop sees at most a new task. -/
theorem Inv.proceed (h : s.Inv) (hd : s.disconnect ≠ .notCalled) (pc : DisconnectPc)
    (hpc : ∀ c, pc = .testing c ∨ pc = .queueing c → s.connection = some c) (ts : List ClientTask)
    (hheed : ∀ c, s.connection = some c → (s.conns c = .connecting → pc = .testing c) ∧
      (s.conns c = .connected → pc = .testing c ∨ pc = .queueing c ∨
        .forceCloseInLoop c ∈ s.taskList ++ ts)) :
    ({ s with disconnect := pc, taskList := s.taskList ++ ts } : SharedClient).Inv :=
  ⟨fun _ _ => hheed, fun _ => h.called hd, hpc, h.fresh, h.made⟩

/-- Behind `ForceClose` only the queue can still close the connection. -/
theorem Inv.behind (h : s.Inv) (hd : s.disconnect = .stopping ∨ s.disconnect = .queueingStop)
    (hc : s.connection = some c) :
    s.conns c ≠ .connecting ∧ (s.conns c = .connected → .forceCloseInLoop c ∈ s.taskList) := by
  rcases hd with hd | hd
  · have hold := h.heeded (h.called (by simp [hd])) (by simp [hd]) c hc
    simpa [hd] using hold
  · have hold := h.heeded (h.called (by simp [hd])) (by simp [hd]) c hc
    simpa [hd] using hold

theorem Inv.disconnectStep (h : s.Inv) (hi : ¬ s.overlooks .disconnect = true) :
    s.disconnectStep.Inv := by
  have hnil : ∀ pc : DisconnectPc, ({ s with disconnect := pc } : SharedClient) =
      { s with disconnect := pc, taskList := s.taskList ++ [] } := by simp
  unfold SharedClient.disconnectStep
  split
  · exact ⟨fun _ hne => absurd rfl hne, fun _ => rfl, by simp, h.fresh, h.made⟩
  · rename_i hd
    split
    · rename_i hc
      rw [hnil]
      exact h.proceed (by simp [hd]) _ (by simp) [] (by simp [hc])
    · rename_i c hc
      rw [hnil]
      refine h.proceed (by simp [hd]) _ (fun c' he => ?_) [] (fun c' hc' => ?_)
      · obtain rfl : c = c' := by simpa using he
        exact hc
      · obtain rfl : c = c' := Option.some.inj (hc.symm.trans hc')
        exact ⟨fun _ => rfl, fun _ => .inl rfl⟩
  · rename_i c hd
    have hc : s.connection = some c := h.mutex c (.inl hd)
    have hst : s.conns c ≠ .connecting := by simpa [overlooks, hd] using hi
    rw [hnil]
    refine h.proceed (by simp [hd]) _ (fun c' he => ?_) [] (fun c' hc' => ?_)
    · split at he
      · obtain rfl : c = c' := by simpa using he
        exact hc
      · simp at he
    · obtain rfl : c = c' := Option.some.inj (hc.symm.trans hc')
      exact ⟨fun he => absurd he hst, fun he => by simp [he]⟩
  · rename_i c hd
    have hc : s.connection = some c := h.mutex c (.inr hd)
    refine h.proceed (by simp [hd]) _ (by simp) [.forceCloseInLoop c] (fun c' hc' => ?_)
    obtain rfl : c = c' := Option.some.inj (hc.symm.trans hc')
    have hold := h.heeded (h.called (by simp [hd])) (by simp [hd]) c hc
    exact ⟨fun he => absurd (hold.1 he) (by simp [hd]), fun _ => by simp⟩
  · rename_i hd
    have hrun := h.frame (frame_connector { s.connector with running := false } s.timers)
    have hp := hrun.proceed (by simp [hd]) .queueingStop (by simp) [] fun c hc => by
      have hold := h.behind (.inl hd) hc
      exact ⟨fun he => absurd he hold.1, fun he => by simp [hold.2 he]⟩
    rw [List.append_nil] at hp
    exact hp
  · rename_i hd
    refine h.proceed (by simp [hd]) _ (by simp) [.stopInLoop] fun c hc => ?_
    have hold := h.behind (.inr hd) hc
    exact ⟨fun he => absurd he hold.1, fun he => by simp [hold.2 he]⟩

theorem step_inv (h : s.Inv) (hi : ¬ s.overlooks i = true) (hstep : s.step i = some s') :
    s'.Inv := by
  unfold step at hstep
  split at hstep
  · cases hstep
  cases i with
  | enableRetry =>
    cases hstep
    exact ⟨h.heeded, h.called, h.mutex, h.fresh, h.made⟩
  | connect =>
    simp only [stepOn] at hstep
    split at hstep
    · rename_i hd
      cases hstep
      refine ⟨fun hc => absurd hc (by simp [queueInLoop]), fun hne => absurd hd hne, h.mutex,
        h.fresh, h.made⟩
    · cases hstep
  | disconnect =>
    cases hstep
    exact h.disconnectStep hi
  | loop r => exact h.loopStep hi hstep
  | task r =>
    simp only [stepOn] at hstep
    split at hstep
    · rename_i hidle
      split at hstep
      · cases hstep
      · rename_i t rest hq
        cases hstep
        exact h.runTask hidle hq r
    · cases hstep
  | writable ok =>
    simp only [stepOn] at hstep
    split at hstep
    · cases hstep
      exact h.frame (frame_handleWrite ok)
    · cases hstep
  | failed =>
    simp only [stepOn] at hstep
    split at hstep
    · cases hstep
      exact h.frame ((frame_queueInLoop _).trans (frame_goto (by simp)))
    · cases hstep
  | timer t r =>
    simp only [stepOn] at hstep
    split at hstep
    · cases hstep
      exact h.frame ((frame_connector s.connector _).trans (frame_startInLoop r))
    · cases hstep
  | close c =>
    simp only [stepOn] at hstep
    split at hstep
    · cases hstep
      exact h.handleClose c
    · cases hstep

/-- Nobody is going to close a connection that was overlooked. -/
theorem Inv.not_heeded (h : s.Inv) (hi : s.overlooks i = true) (hstep : s.step i = some s') :
    ¬ s'.Heeded := by
  intro hheed
  unfold step at hstep
  split at hstep
  · cases hstep
  cases i with
  | loop r =>
    simp only [overlooks] at hi
    split at hi
    · rename_i c hl
      simp only [Bool.and_eq_true, Bool.not_eq_true', bne_iff_ne, ne_eq] at hi
      simp only [stepOn, SharedClient.loopStep, hl] at hstep
      split at hstep
      · cases hstep
      · rename_i hm
        cases hstep
        have hst := (h.made c (.inl hl)).2
        have htest : s.disconnect = .testing c := (hheed hi.1 hi.2 c rfl).1 hst
        exact hm (by rw [htest]; rfl)
    · cases hi
  | disconnect =>
    simp only [overlooks] at hi
    split at hi
    · rename_i c hd
      have hst : s.conns c = .connecting := by simpa using hi
      cases hstep
      have hnext : s.disconnectStep = { s with disconnect := .stopping } := by
        simp [SharedClient.disconnectStep, hd, hst]
      rw [hnext] at hheed
      have htest := (hheed (h.called (by simp [hd])) (by simp) c (h.mutex c (.inl hd))).1 hst
      cases htest
    · cases hi
  | _ => cases hi

end Steps

/-! ## Runs -/

/-- `Disconnect` was called last and has returned, the loop is in no handler, and its queue has
been drained. -/
def Finished (s : SharedClient) : Prop :=
  s.connect = false ∧ s.disconnect = .notCalled ∧ s.loop = .idle ∧ s.taskList = []

/-- The client has a connection in the state CONNECTING or CONNECTED. -/
def Open (s : SharedClient) : Prop :=
  ∃ c, s.connection = some c ∧ (s.conns c = .connecting ∨ s.conns c = .connected)

theorem Heeded.closed {s : SharedClient} (h : s.Heeded) (hf : s.Finished) : ¬ s.Open := by
  obtain ⟨hconnect, hd, _, hq⟩ := hf
  rintro ⟨c, hc, hst⟩
  obtain ⟨h1, h2⟩ := h hconnect (by simp [hd]) c hc
  rcases hst with hst | hst
  · exact absurd (h1 hst) (by simp [hd])
  · exact absurd (h2 hst) (by simp [hd, hq])

/-- **`Disconnect` is lost exactly if it overlooks a connection.** In every interleaving of the
two threads, the connection that `Disconnect` finds is on its way to being closed, and no
connection is open once both threads have finished and the queue is drained, exactly if
`Disconnect` never looks at `connection_` before the loop publishes a connection that is on its
way, and never at the state of one that the loop has not established yet. -/
theorem disconnect_heeded_iff {is : List Input} {s : SharedClient}
    (hrun : Machine.run step new is = some s) :
    Machine.Throughout step (fun s => s.Heeded ∧ (s.Finished → ¬ s.Open)) new is ↔
    Machine.Along step (fun s i => ¬ s.overlooks i = true) new is := by
  have hkeep : ∀ {s i s'}, Inv s → ¬ s.overlooks i = true → s.step i = some s' → Inv s' :=
    step_inv
  have hbreak : ∀ {s i s'}, Inv s → ¬ ¬ s.overlooks i = true → s.step i = some s' →
      ¬ (s'.Heeded ∧ (s'.Finished → ¬ s'.Open)) :=
    fun h hi hstep hok => h.not_heeded (not_not.mp hi) hstep hok.1
  exact Machine.throughout_iff_along (P := Inv) hkeep (fun h => ⟨h.heeded, h.heeded.closed⟩) hbreak
    inv_new hrun

/-- `Disconnect` finds an established connection. -/
theorem disconnect_heeded_iff_established : ∃ s,
    Machine.run step new [.connect, .task ⟨7, EINPROGRESS, 1⟩, .writable true,
      .loop ⟨0, 0, 0⟩, .loop ⟨0, 0, 0⟩, .loop ⟨0, 0, 0⟩, .disconnect, .disconnect, .disconnect,
      .disconnect, .disconnect, .disconnect, .task ⟨0, 0, 0⟩, .task ⟨0, 0, 0⟩, .loop ⟨0, 0, 0⟩,
      .loop ⟨0, 0, 0⟩, .task ⟨0, 0, 0⟩, .task ⟨0, 0, 0⟩] = some s ∧
    s.Finished ∧ ¬ s.Open := by
  have hobs : (Machine.run step new [.connect, .task ⟨7, EINPROGRESS, 1⟩, .writable true,
      .loop ⟨0, 0, 0⟩, .loop ⟨0, 0, 0⟩, .loop ⟨0, 0, 0⟩, .disconnect, .disconnect, .disconnect,
      .disconnect, .disconnect, .disconnect, .task ⟨0, 0, 0⟩, .task ⟨0, 0, 0⟩, .loop ⟨0, 0, 0⟩,
      .loop ⟨0, 0, 0⟩, .task ⟨0, 0, 0⟩, .task ⟨0, 0, 0⟩]).map
      (fun s => (s.connect, s.disconnect, s.loop, s.taskList)) =
      some (false, .notCalled, .idle, []) := by
    decide +kernel
  obtain ⟨s, hrun, heq⟩ := Option.map_eq_some_iff.mp hobs
  simp only [Prod.mk.injEq] at heq
  have h := (disconnect_heeded_iff hrun).mpr (by decide +kernel)
  exact ⟨s, hrun, heq, (h.last hrun).2 heq⟩

/-- The loop has found `running_` true and is about to publish the connection when `Disconnect`
runs from its beginning to its end. The connection stays. -/
theorem disconnect_lost : ∃ s,
    Machine.run step new [.connect, .task ⟨7, EINPROGRESS, 1⟩, .writable true,
      .loop ⟨0, 0, 0⟩, .disconnect, .disconnect, .disconnect, .disconnect, .loop ⟨0, 0, 0⟩,
      .loop ⟨0, 0, 0⟩, .task ⟨0, 0, 0⟩, .task ⟨0, 0, 0⟩] = some s ∧
    s.Finished ∧ s.connection = some 0 ∧ s.conns 0 = .connected := by
  have hobs : (Machine.run step new [.connect, .task ⟨7, EINPROGRESS, 1⟩, .writable true,
      .loop ⟨0, 0, 0⟩, .disconnect, .disconnect, .disconnect, .disconnect, .loop ⟨0, 0, 0⟩,
      .loop ⟨0, 0, 0⟩, .task ⟨0, 0, 0⟩, .task ⟨0, 0, 0⟩]).map
      (fun s => ((s.connect, s.disconnect, s.loop, s.taskList), s.connection, s.conns 0)) =
      some ((false, .notCalled, .idle, []), some 0, .connected) := by
    decide +kernel
  obtain ⟨s, hrun, heq⟩ := Option.map_eq_some_iff.mp hobs
  simp only [Prod.mk.injEq] at heq
  exact ⟨s, hrun, heq.1, heq.2⟩

end SharedClient

end LinuxNet
