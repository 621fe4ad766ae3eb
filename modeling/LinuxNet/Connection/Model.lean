import LinuxNet.Lib.Machine
import LinuxNet.Buffer.Model
import LinuxNet.Poller.Model

/-!
# `net::TCPConnection` in its loop

The embedding of `tcp_connection.cc` together with `Channel::HandleEvent_`, as a
machine over everything the connection touches: its two buffers, its channel in
the poller of its loop, the loop's task list, and the kernel's side of the
socket (`wire` is the byte stream the kernel has accepted).

User callbacks are cut out of the handlers. A handler that reaches one stops
with a program counter `pc` that says where; from there user code may call the
connection any number of times, and `Input.ret` resumes the handler behind the
call. Results of system calls are inputs. A call made by another thread is two
inputs, its test of `state_` (`Input.call`) and its `QueueInLoop` (`Input.push`).
-/

namespace LinuxNet

set_option autoImplicit false

open Buffer (ReadvResult)

inductive ConnState where
  | disconnected | connecting | connected | disconnecting
  deriving DecidableEq, Repr

/-- `EWOULDBLOCK` is the same number. -/
def EAGAIN : Nat := 11

/-- The result of `::send`: the kernel takes at most `k` of the bytes offered, or
the call returns -1 with `errno`. -/
inductive SendResult where
  | accepted (k : Nat)
  | error (errno : Nat)
  deriving DecidableEq, Repr

def SendResult.isError : SendResult → Bool
  | .accepted _ => false
  | .error _ => true

/-- Tasks of the loop that concern the connection. -/
inductive ConnTask where
  | sendInLoop (dat : List UInt8)
  | shutdownWriteInLoop
  | forceCloseInLoop
  | connectionDestroy
  | writeComplete
  | highWaterMark (waitSendSize : Nat)
  deriving DecidableEq, Repr

/-- The tasks the public member functions queue. -/
def ConnTask.isCall : ConnTask → Bool
  | .sendInLoop _ | .shutdownWriteInLoop | .forceCloseInLoop => true
  | .connectionDestroy | .writeComplete | .highWaterMark _ => false

/-- Which of the user's callbacks are set. -/
structure Callbacks where
  connection : Bool
  disconnection : Bool
  read : Bool
  writeComplete : Bool
  highWaterMark : Bool
  deriving DecidableEq, Repr

/-- What `remove_cb_` is bound to: `TCPServer::OnConnectionRemove` of a server in
the same loop or in another one, or `TCPClient::RemoveConnection`. -/
inductive Remover where
  | serverLoop | otherLoop | client
  deriving DecidableEq, Repr

/-- Where the loop thread is with respect to the connection: outside of its
handlers, or inside one of the user's callbacks. `disconnectionCb true` is the
one called for an end of file found by `HandleRead`. -/
inductive ConnPc where
  | idle | userCb | readCb | disconnectionCb (inRead : Bool)
  deriving DecidableEq, Repr

/-- What an observer of the connection sees it do, in order. -/
inductive ConnObs where
  | handleRead (st : ConnState)
  | handleWrite (st : ConnState)
  | handleClose
  | send
  | updateChannel
  | removeChannel
  deriving DecidableEq, Repr

inductive Connection.Assert where
  | handleRead | handleWrite | sendMostPossible
  deriving DecidableEq, Repr

structure Connection where
  state : ConnState
  bufferInput : Buffer
  bufferOutput : Buffer
  overstockSize : Nat
  callbacks : Callbacks
  remover : Remover
  channel : ChanId
  poller : Epoller
  taskList : List ConnTask
  /-- Calls of other threads between their test of `state_` and their push. -/
  inFlight : List ConnTask
  /-- `OnConnectionRemoveInLoop` waits in the server's loop. -/
  removing : Bool
  wire : List UInt8
  shutWr : Bool
  pc : ConnPc
  /-- The messages of the `_Send` calls executed in state CONNECTED. -/
  sent : List (List UInt8)
  log : List ConnObs
  asserts : List Connection.Assert

namespace Connection

/-- The constructor and `Initialize`, for a channel that the poller holds. -/
def new (poller : Epoller) (channel : ChanId) (callbacks : Callbacks) (remover : Remover)
    (overstockSize : Nat) : Connection where
  state := .connecting
  bufferInput := Buffer.new
  bufferOutput := Buffer.new
  overstockSize := overstockSize
  callbacks := callbacks
  remover := remover
  channel := channel
  poller := poller
  taskList := []
  inFlight := []
  removing := false
  wire := []
  shutWr := false
  pc := .idle
  sent := []
  log := []
  asserts := []

def check (w : Connection) (site : Assert) (ok : Bool) : Connection :=
  if ok then w else { w with asserts := w.asserts ++ [site] }

def observe (w : Connection) (o : ConnObs) : Connection := { w with log := w.log ++ [o] }

def queueInLoop (w : Connection) (t : ConnTask) : Connection :=
  { w with taskList := w.taskList ++ [t] }

/-! ## The channel of the connection -/

/-- The `Channel` object `channel_` points to. -/
def chan (w : Connection) : Channel := w.poller.chans w.channel

def isWriting (w : Connection) : Bool := w.chan.isWriting

/-- A member function of `channel_` that ends in `UpdateEvent`. -/
def updateEvent (w : Connection) (op : Epoller.Op) : Connection :=
  { w with poller := w.poller.exec w.channel true op }.observe .updateChannel

def setRevents (w : Connection) (mask : EventMask) : Connection :=
  { w with poller := w.poller.setChannel w.channel { w.chan with revents := mask } }

def setHandling (w : Connection) (h : Bool) : Connection :=
  { w with poller := w.poller.setChannel w.channel { w.chan with handling := h } }

/-! ## Sending -/

/-- `_SendMostPossible`; `none` is -1. -/
def sendMostPossible_ (w : Connection) (dat : List UInt8) (r : SendResult) :
    Option Nat × Connection :=
  if w.isWriting = false then
    let w := w.check .sendMostPossible (w.bufferOutput.readableBytes = 0)
    let w := w.observe .send
    match r with
    -- would-block is not told apart from the errors that end the connection
    | .error _ => (none, w)
    | .accepted k =>
      let wlen := min k dat.length
      (some (dat.length - wlen), { w with wire := w.wire ++ dat.take wlen })
  else (some dat.length, w)

/-- `_SendDatQueueInBuffer`. -/
def sendDatQueueInBuffer_ (w : Connection) (dat : List UInt8) : Connection :=
  let waitSendSize := w.bufferOutput.readableBytes + dat.length
  let w := if w.overstockSize ≤ waitSendSize ∧ w.callbacks.highWaterMark = true then
    w.queueInLoop (.highWaterMark waitSendSize) else w
  let w := { w with bufferOutput := w.bufferOutput.append dat }
  if w.isWriting = false then w.updateEvent .enableWriting else w

def queueWriteComplete (w : Connection) : Connection :=
  if w.callbacks.writeComplete then w.queueInLoop .writeComplete else w

/-- `_Send`. -/
def send_ (w : Connection) (dat : List UInt8) (r : SendResult) : Connection :=
  if w.state = .connected then
    let w := { w with sent := w.sent ++ [dat] }
    match w.sendMostPossible_ dat r with
    | (none, w) => w
    | (some remain, w) =>
      if remain ≠ 0 then w.sendDatQueueInBuffer_ (dat.drop (dat.length - remain))
      else w.queueWriteComplete
  else w

/-- `Send` called in the thread of the loop. -/
def send (w : Connection) (dat : List UInt8) (r : SendResult) : Connection :=
  if w.state = .connected then w.send_ dat r else w

def shutdownWriteInLoop (w : Connection) : Connection :=
  if w.isWriting = false then { w with shutWr := true } else w

/-! ## Establishing and closing -/

def connectionEstablished (w : Connection) : Connection :=
  let w := { w with state := .connected }
  let w := w.updateEvent .enableReading
  if w.callbacks.connection then { w with pc := .userCb } else w

def connectionDestroy (w : Connection) : Connection :=
  { w with state := .disconnected, poller := w.poller.exec w.channel true .remove }.observe
    .removeChannel

/-- `remove_cb_(guard)`. In the server's own loop `OnConnectionRemoveInLoop` and
the `ConnectionDestroy` it asks for run at once. -/
def removeCb (w : Connection) : Connection :=
  match w.remover with
  | .serverLoop => w.connectionDestroy
  | .otherLoop => { w with removing := true }
  | .client => w.queueInLoop .connectionDestroy

/-- `HandleWrite`. -/
def handleWrite (w : Connection) (r : SendResult) : Connection :=
  let w := w.observe (.handleWrite w.state)
  let w := w.check .handleWrite (w.state = .connected)
  let readableLen := w.bufferOutput.readableBytes
  let w := w.observe .send
  match r with
  -- the test of `errno` only decides about a line in the log
  | .error _ => w
  | .accepted k =>
    let wlen := min k readableLen
    if 0 < wlen then
      let w := { w with
        wire := w.wire ++ w.bufferOutput.contents.take wlen
        bufferOutput := w.bufferOutput.retrieve wlen }
      if readableLen = wlen then (w.updateEvent .disableWriting).queueWriteComplete else w
    else w

/-- The end of `HandleEvent_`: the writable part and `handling_ = false`. -/
def handleEventWrite (w : Connection) (r : SendResult) : Connection :=
  let w := if w.chan.revents.has EPOLLOUT then w.handleWrite r else w
  { w.setHandling false with pc := .idle }

/-- What is left of a handler behind `disconnection_cb_`: the rest of
`HandleClose`, and behind it the rest of `HandleEvent_` if `HandleRead` called it. -/
def handleCloseRest (w : Connection) (inRead : Bool) (r : SendResult) : Connection :=
  let w := w.removeCb
  if inRead then w.handleEventWrite r else { w.setHandling false with pc := .idle }

/-- `HandleClose`. -/
def handleClose (w : Connection) (inRead : Bool) (r : SendResult) : Connection :=
  let w := { w with state := .disconnecting }
  let w := w.updateEvent .disableAll
  let w := w.observe .handleClose
  if w.callbacks.disconnection then { w with pc := .disconnectionCb inRead }
  else w.handleCloseRest inRead r

def forceCloseInLoop (w : Connection) (r : SendResult) : Connection :=
  if w.state = .disconnecting ∨ w.state = .disconnected then w else w.handleClose false r

/-! ## Events -/

/-- `HandleRead`, and the rest of `HandleEvent_` unless a callback comes first. -/
def handleRead (w : Connection) (read : ReadvResult) (r : SendResult) : Connection :=
  let w := w.observe (.handleRead w.state)
  let w := w.check .handleRead (w.state = .connected)
  let (result, buffer) := w.bufferInput.readFd read
  let w := { w with bufferInput := buffer }
  if 0 < result.rlen then
    if w.callbacks.read then { w with pc := .readCb } else w.handleEventWrite r
  else if result.rlen = 0 then w.handleClose true r
  else w.handleEventWrite r

/-- `Channel::HandleEvent_` with the callbacks `Initialize` has set. -/
def handleEvent (w : Connection) (read : ReadvResult) (r : SendResult) : Connection :=
  let w := w.setHandling true
  let revents := w.chan.revents
  if revents.has (EPOLLHUP ||| EPOLLRDHUP) then w.handleClose false r
  else if revents.has EPOLLERR then w.setHandling false
  else if revents.has (EPOLLIN ||| EPOLLPRI) then w.handleRead read r
  else w.handleEventWrite r

/-! ## The machine -/

inductive Input where
  /-- `epoll_wait` reports `mask` for the channel and the loop dispatches it. -/
  | event (mask : EventMask) (read : ReadvResult) (r : SendResult)
  /-- The user's callback returns. -/
  | ret (r : SendResult)
  /-- Code in the loop thread calls `Send`. -/
  | send (dat : List UInt8) (r : SendResult)
  /-- User code takes bytes from `buffer_input_`. -/
  | take (len : Nat)
  /-- A thread calls `Send`, `ShutdownWirte` or `ForceClose` and tests `state_`. -/
  | call (t : ConnTask)
  /-- The `i`-th of these threads reaches its `QueueInLoop`. -/
  | push (i : Nat)
  /-- `DoPendingTasks` runs the next task. -/
  | task (r : SendResult)
  /-- The server's loop runs `OnConnectionRemoveInLoop`. -/
  | removeInLoop
  /-- Another channel of the loop asks something of the poller. -/
  | other (c : ChanId) (op : Epoller.Op)
  deriving DecidableEq, Repr

/-- `epoll_wait` may report `mask`: the channel is in the interest set, and the
bits are of interest or are the two that are always reported. -/
def deliverable (w : Connection) (mask : EventMask) : Bool :=
  match w.poller.kernel w.chan.fd with
  | none => false
  | some (m, c) => c == w.channel && mask &&& ~~~(m ||| EPOLLERR ||| EPOLLHUP) == 0#32

def runTask (w : Connection) (t : ConnTask) (r : SendResult) : Connection :=
  match t with
  | .sendInLoop dat => w.send_ dat r
  | .shutdownWriteInLoop => w.shutdownWriteInLoop
  | .forceCloseInLoop => w.forceCloseInLoop r
  | .connectionDestroy => w.connectionDestroy
  | .writeComplete | .highWaterMark _ => { w with pc := .userCb }

def step (w : Connection) : Input → Option Connection
  | .event mask read r =>
    if w.pc = .idle ∧ w.deliverable mask = true then
      some ((w.setRevents mask).handleEvent read r)
    else none
  | .ret r =>
    match w.pc with
    | .idle => none
    | .userCb => some { w with pc := .idle }
    | .readCb => some (w.handleEventWrite r)
    | .disconnectionCb inRead => some (w.handleCloseRest inRead r)
  | .send dat r => some (w.send dat r)
  | .take len =>
    some { w with bufferInput := w.bufferInput.retrieve (min len w.bufferInput.readableBytes) }
  | .call t =>
    if t.isCall then
      if w.state = .connected then some { w with inFlight := w.inFlight ++ [t] } else some w
    else none
  | .push i =>
    match w.inFlight[i]? with
    | none => none
    | some t => some ({ w with inFlight := w.inFlight.eraseIdx i }.queueInLoop t)
  | .task r =>
    if w.pc = .idle then
      match w.taskList with
      | [] => none
      | t :: rest => some ({ w with taskList := rest }.runTask t r)
    else none
  | .removeInLoop =>
    if w.removing then some ({ w with removing := false }.queueInLoop .connectionDestroy) else none
  | .other c op =>
    if c ≠ w.channel ∧ w.poller.usable c = true then
      some { w with poller := w.poller.exec c true op }
    else none

end Connection

end LinuxNet
