import LinuxNet.Buffer.Fifo
import LinuxNet.Connection.Model

/-!
# The byte stream of a connection

Bytes reach the kernel on two paths, directly from `_Send` and from
`buffer_output_` in `HandleWrite`. The write interest hands over between them:
while it is off the buffer is empty (`View.Flow`), so a direct send never
overtakes buffered data. `View.send` and `View.flush` are `_Send` and `HandleWrite`
seen from the stream, and `step_moves` says that a step of a connected connection is
one of them or leaves the stream alone. `step_stream` follows: a step appends the
message it executes, or it executes a message and loses all of it, and the second
happens exactly when a direct `::send` of a non-empty message returns -1.

`Frame` and `step_tasks` are what the other developments about the connection need of
its handlers: the fields they leave alone, and how they use the queue.
-/

namespace LinuxNet

set_option autoImplicit false

open LinuxNet.Lib

/-- The tasks that call back the user. -/
def ConnTask.isNotice : ConnTask → Bool
  | .writeComplete | .highWaterMark _ => true
  | _ => false

/-- How many bytes the kernel is ready to take. -/
def SendResult.taken : SendResult → Nat
  | .accepted k => k
  | .error _ => 0

namespace Connection

/-- The part of a connection that the stream depends on. -/
structure View where
  state : ConnState
  wire : List UInt8
  output : Buffer
  sent : List (List UInt8)
  writing : Bool

def view (w : Connection) : View := ⟨w.state, w.wire, w.bufferOutput, w.sent, w.isWriting⟩

/-- The bytes accepted by the kernel, and behind them those still buffered. -/
def View.stream (v : View) : List UInt8 := v.wire ++ v.output.contents

/-- Without write interest nothing is buffered. -/
structure View.Flow (v : View) : Prop where
  buffer : v.output.Inv
  handover : v.writing = false → v.output.contents = []

/-! ## What the small steps do to the view -/

section Views

variable (w : Connection)

@[simp] theorem view_state : w.view.state = w.state := rfl

@[simp] theorem view_wire : w.view.wire = w.wire := rfl

@[simp] theorem view_output : w.view.output = w.bufferOutput := rfl

@[simp] theorem view_sent : w.view.sent = w.sent := rfl

@[simp] theorem view_writing : w.view.writing = w.isWriting := rfl

/-- `assert` records its failure and changes nothing else. -/
theorem check_eq (site : Assert) (ok : Bool) :
    ∃ failed, w.check site ok = { w with asserts := failed } := by
  unfold check
  split
  · exact ⟨w.asserts, rfl⟩
  · exact ⟨_, rfl⟩

@[simp] theorem view_check (site : Assert) (ok : Bool) : (w.check site ok).view = w.view := by
  obtain ⟨failed, h⟩ := w.check_eq site ok
  rw [h]
  rfl

@[simp] theorem check_chan (site : Assert) (ok : Bool) : (w.check site ok).chan = w.chan := by
  obtain ⟨failed, h⟩ := w.check_eq site ok
  rw [h]
  rfl

@[simp] theorem check_callbacks (site : Assert) (ok : Bool) :
    (w.check site ok).callbacks = w.callbacks := by
  obtain ⟨failed, h⟩ := w.check_eq site ok
  rw [h]

@[simp] theorem check_taskList (site : Assert) (ok : Bool) :
    (w.check site ok).taskList = w.taskList := by
  obtain ⟨failed, h⟩ := w.check_eq site ok
  rw [h]

@[simp] theorem check_bufferOutput (site : Assert) (ok : Bool) :
    (w.check site ok).bufferOutput = w.bufferOutput := by
  obtain ⟨failed, h⟩ := w.check_eq site ok
  rw [h]

@[simp] theorem view_observe (o : ConnObs) : (w.observe o).view = w.view := rfl

@[simp] theorem view_queueInLoop (t : ConnTask) : (w.queueInLoop t).view = w.view := rfl

@[simp] theorem view_queueWriteComplete : w.queueWriteComplete.view = w.view := by
  unfold queueWriteComplete
  split <;> rfl

@[simp] theorem view_setRevents (m : EventMask) : (w.setRevents m).view = w.view := by
  simp [view, setRevents, isWriting, chan, Epoller.setChannel, Channel.isWriting]

@[simp] theorem view_setHandling (h : Bool) : (w.setHandling h).view = w.view := by
  simp [view, setHandling, isWriting, chan, Epoller.setChannel, Channel.isWriting]

@[simp] theorem view_pc (pc : ConnPc) : { w with pc := pc }.view = w.view := rfl

/-- `HandleEvent_` reads what `FillActiveChannel` has set. -/
@[simp] theorem revents_setRevents (mask : EventMask) (h : Bool) :
    ((w.setRevents mask).setHandling h).chan.revents = mask := by
  simp [setHandling, setRevents, chan, Epoller.setChannel]

theorem connectionEstablished_eq : w.connectionEstablished =
    { updateEvent { w with state := .connected } .enableReading with
      pc := if w.callbacks.connection then .userCb else w.pc } := by
  cases h : w.callbacks.connection <;>
    simp [connectionEstablished, updateEvent, observe, h]

theorem chan_other {c : ChanId} (hc : c ≠ w.channel) (op : Epoller.Op) :
    { w with poller := w.poller.exec c true op }.chan = w.chan := by
  obtain ⟨st, h⟩ := Epoller.exec_chans w.poller c true op
  simp [chan, h, hc.symm]

theorem view_other {c : ChanId} (hc : c ≠ w.channel) (op : Epoller.Op) :
    { w with poller := w.poller.exec c true op }.view = w.view := by
  have h := chan_other w hc op
  simp only [view, isWriting, h]

theorem chan_updateEvent (op : Epoller.Op) :
    (w.updateEvent op).chan.events = op.mask w.chan.events :=
  Epoller.exec_events w.poller w.channel true op

theorem view_updateEvent (op : Epoller.Op) :
    (w.updateEvent op).view =
      { w.view with writing := (op.mask w.chan.events).has Channel.kWriteEvent } := by
  simp only [view, isWriting, Channel.isWriting, chan_updateEvent]
  rfl

theorem view_enableWriting :
    (w.updateEvent .enableWriting).view = { w.view with writing := true } := by
  rw [view_updateEvent, Epoller.Op.mask, EventMask.has_or]
  simp [EventMask.has, Channel.kWriteEvent, EPOLLOUT]

theorem view_disableWriting :
    (w.updateEvent .disableWriting).view = { w.view with writing := false } := by
  rw [view_updateEvent, Epoller.Op.mask, EventMask.has_and_not]

end Views

/-! ## What the handlers of the channel come to -/

/-- `ReadFd` reports the end of the stream exactly when `readv` gave no bytes. -/
theorem readFd_rlen (b : Buffer) (read : Buffer.ReadvResult) :
    (b.readFd read).1.rlen = 0 ↔ read = .bytes [] := by
  cases read with
  | error errno => simp [Buffer.readFd]
  | bytes dat =>
    have hlen : (b.readFd (.bytes dat)).1.rlen = dat.length := by
      unfold Buffer.readFd
      dsimp only
      split <;> rfl
    rw [hlen]
    simp

/-- The connection behind `ReadFd` in `HandleRead`. -/
def afterReadFd (w : Connection) (read : Buffer.ReadvResult) : Connection :=
  { w.observe (.handleRead w.state) with
    asserts := (w.check .handleRead (w.state = .connected)).asserts
    bufferInput := (w.bufferInput.readFd read).2 }

/-- The ends of `HandleRead`. -/
inductive ReadHandled (w : Connection) (read : Buffer.ReadvResult) (r : SendResult) :
    Connection → Prop where
  | callback (hread : read ≠ .bytes []) (hcb : w.callbacks.read = true) :
      ReadHandled w read r { w.afterReadFd read with pc := .readCb }
  | write (hread : read ≠ .bytes []) :
      ReadHandled w read r ((w.afterReadFd read).handleEventWrite r)
  | eof (hread : read = .bytes []) : ReadHandled w read r ((w.afterReadFd read).handleClose true r)

theorem readHandled (w : Connection) (read : Buffer.ReadvResult) (r : SendResult) :
    w.ReadHandled read r (w.handleRead read r) := by
  have hq : (w.observe (.handleRead w.state)).check .handleRead
      ((w.observe (.handleRead w.state)).state = .connected) =
      { w.observe (.handleRead w.state) with
        asserts := (w.check .handleRead (w.state = .connected)).asserts } := by
    show (w.observe (.handleRead w.state)).check .handleRead (w.state = .connected) = _
    unfold check
    split <;> rfl
  have hrlen := readFd_rlen w.bufferInput read
  unfold handleRead
  dsimp only
  rw [hq]
  split
  · rename_i hpos
    have hpos : 0 < (w.bufferInput.readFd read).1.rlen := hpos
    have hread : read ≠ .bytes [] := fun h => hpos.ne (hrlen.mpr h).symm
    split
    · rename_i hcb
      exact .callback hread hcb
    · exact .write hread
  · split
    · rename_i hzero
      exact .eof (hrlen.mp hzero)
    · rename_i hzero
      exact .write fun h => hzero (hrlen.mpr h)

/-- The ends of `HandleEvent_`, with the mask that leads to them. -/
inductive EventHandled (w : Connection) (read : Buffer.ReadvResult) (r : SendResult) :
    Connection → Prop where
  | close (hhup : (w.setHandling true).chan.revents.has (EPOLLHUP ||| EPOLLRDHUP) = true) :
      EventHandled w read r ((w.setHandling true).handleClose false r)
  | error (hhup : (w.setHandling true).chan.revents.has (EPOLLHUP ||| EPOLLRDHUP) = false)
      (herr : (w.setHandling true).chan.revents.has EPOLLERR = true) :
      EventHandled w read r ((w.setHandling true).setHandling false)
  | read (hhup : (w.setHandling true).chan.revents.has (EPOLLHUP ||| EPOLLRDHUP) = false)
      (herr : (w.setHandling true).chan.revents.has EPOLLERR = false)
      (hin : (w.setHandling true).chan.revents.has (EPOLLIN ||| EPOLLPRI) = true) :
      EventHandled w read r ((w.setHandling true).handleRead read r)
  | write (hhup : (w.setHandling true).chan.revents.has (EPOLLHUP ||| EPOLLRDHUP) = false)
      (herr : (w.setHandling true).chan.revents.has EPOLLERR = false)
      (hin : (w.setHandling true).chan.revents.has (EPOLLIN ||| EPOLLPRI) = false) :
      EventHandled w read r ((w.setHandling true).handleEventWrite r)

theorem eventHandled (w : Connection) (read : Buffer.ReadvResult) (r : SendResult) :
    w.EventHandled read r (w.handleEvent read r) := by
  unfold handleEvent
  dsimp only
  split
  · rename_i hhup
    exact .close hhup
  · rename_i hhup
    have hhup := Bool.eq_false_iff.mpr hhup
    split
    · rename_i herr
      exact .error hhup herr
    · rename_i herr
      have herr := Bool.eq_false_iff.mpr herr
      split
      · rename_i hin
        exact .read hhup herr hin
      · rename_i hin
        exact .write hhup herr (Bool.eq_false_iff.mpr hin)

/-! ## Sending -/

/-- `_SendDatQueueInBuffer` puts the bytes behind the stream and turns the write
interest on. -/
theorem sendDatQueueInBuffer_view (w : Connection) (dat : List UInt8) :
    (w.sendDatQueueInBuffer_ dat).view =
      { w.view with output := w.bufferOutput.append dat, writing := true } := by
  have hq : ∀ q : Connection, q.view = w.view →
      (if { q with bufferOutput := q.bufferOutput.append dat }.isWriting = false
        then { q with bufferOutput := q.bufferOutput.append dat }.updateEvent .enableWriting
        else { q with bufferOutput := q.bufferOutput.append dat }).view =
      { w.view with output := w.bufferOutput.append dat, writing := true } := by
    intro q hv
    have ho : q.bufferOutput = w.bufferOutput := congrArg View.output hv
    split
    · rw [view_enableWriting, ← hv, ← ho]
      rfl
    · rename_i hw
      rw [← hv, ← ho]
      simp only [view, View.mk.injEq, true_and]
      simpa using hw
  unfold sendDatQueueInBuffer_
  dsimp only
  split
  · exact hq _ (view_queueInLoop w _)
  · exact hq _ rfl

theorem sendMostPossible_writing {w : Connection} (hw : w.isWriting = true) (dat : List UInt8)
    (r : SendResult) : w.sendMostPossible_ dat r = (some dat.length, w) := by
  simp [sendMostPossible_, hw]

theorem sendMostPossible_error {w : Connection} (hw : w.isWriting = false) (dat : List UInt8)
    (errno : Nat) : ∃ q, w.sendMostPossible_ dat (.error errno) = (none, q) ∧ q.view = w.view := by
  unfold sendMostPossible_
  rw [if_pos hw]
  exact ⟨_, rfl, by simp⟩

theorem sendMostPossible_accepted {w : Connection} (hw : w.isWriting = false) (dat : List UInt8)
    (k : Nat) : ∃ q, w.sendMostPossible_ dat (.accepted k) =
        (some (dat.length - min k dat.length), q) ∧
      q.view = { w.view with wire := w.wire ++ dat.take (min k dat.length) } := by
  unfold sendMostPossible_
  rw [if_pos hw]
  dsimp only
  refine ⟨_, rfl, ?_⟩
  have hv : ((w.check .sendMostPossible (w.bufferOutput.readableBytes = 0)).observe .send).view =
      w.view := by simp
  generalize (w.check .sendMostPossible (w.bufferOutput.readableBytes = 0)).observe .send = q at hv
  have hwire : q.wire = w.wire := congrArg View.wire hv
  rw [← hv, ← hwire]
  rfl

/-- What `_Send` does to the view of a connected connection. -/
def View.send (v : View) (dat : List UInt8) (r : SendResult) : View :=
  if v.writing = false ∧ r.isError = true then { v with sent := v.sent ++ [dat] }
  else
    let k := if v.writing then 0 else min r.taken dat.length
    { v with
      sent := v.sent ++ [dat]
      wire := v.wire ++ dat.take k
      output := if k < dat.length then v.output.append (dat.drop k) else v.output
      writing := v.writing || decide (k < dat.length) }

/-- What `HandleWrite` does to the view. -/
def View.flush (v : View) (r : SendResult) : View :=
  let n := min r.taken v.output.readableBytes
  if n = 0 then v
  else { v with
    wire := v.wire ++ v.output.contents.take n
    output := v.output.retrieve n
    writing := v.writing && decide (n ≠ v.output.readableBytes) }

theorem view_send_ {w : Connection} (hc : w.state = .connected) (dat : List UInt8)
    (r : SendResult) : (w.send_ dat r).view = w.view.send dat r := by
  unfold send_
  rw [if_pos hc]
  dsimp only
  generalize hw0 : ({ w with sent := w.sent ++ [dat] } : Connection) = w0
  have hv0 : w0.view = { w.view with sent := w.sent ++ [dat] } := by rw [← hw0]; rfl
  have hwr : w0.isWriting = w.isWriting := congrArg View.writing hv0
  have hout : w0.bufferOutput = w.bufferOutput := congrArg View.output hv0
  have hwire : w0.wire = w.wire := congrArg View.wire hv0
  cases hw : w.isWriting with
  | true =>
    rw [sendMostPossible_writing (hwr.trans hw), View.send, if_neg (by simp [hw])]
    by_cases hlen : dat.length = 0
    · obtain rfl := List.eq_nil_of_length_eq_zero hlen
      simp [hv0, hw]
    · simp [hlen, hw, Nat.pos_of_ne_zero hlen, sendDatQueueInBuffer_view, hv0, hout]
  | false =>
    cases r with
    | error errno =>
      obtain ⟨q, he, hq⟩ := sendMostPossible_error (hwr.trans hw) dat errno
      rw [he, View.send, if_pos ⟨hw, rfl⟩]
      exact hq.trans hv0
    | accepted k =>
      obtain ⟨q, he, hq⟩ := sendMostPossible_accepted (hwr.trans hw) dat k
      rw [he, View.send, if_neg (by simp [SendResult.isError])]
      have hqo : q.bufferOutput = w.bufferOutput := (congrArg View.output hq).trans hout
      dsimp only
      by_cases hrem : dat.length - min k dat.length = 0
      · have hall : ¬ min k dat.length < dat.length := by omega
        simp [hrem, hq, hv0, hw, hall, hwire, SendResult.taken]
      · have hpart : min k dat.length < dat.length := by omega
        have hdrop : dat.length - (dat.length - min k dat.length) = min k dat.length := by omega
        simp [hrem, sendDatQueueInBuffer_view, hq, hv0, hqo, hw, hpart, hdrop, hwire,
          SendResult.taken]

theorem view_handleWrite (w : Connection) (r : SendResult) :
    (w.handleWrite r).view = w.view.flush r := by
  unfold handleWrite
  dsimp only
  generalize hq0 : ((w.observe (.handleWrite w.state)).check .handleWrite
    ((w.observe (.handleWrite w.state)).state = .connected)) = q
  have hq : q.view = w.view := by rw [← hq0, view_check, view_observe]
  have hqo : q.bufferOutput = w.bufferOutput := congrArg View.output hq
  have hqw : q.wire = w.wire := congrArg View.wire hq
  have hobs : (q.observe .send).view = w.view := (view_observe q .send).trans hq
  cases r with
  | error errno =>
    rw [View.flush, if_pos (by simp [SendResult.taken])]
    exact hobs
  | accepted k =>
    have hn : min (SendResult.accepted k).taken w.view.output.readableBytes =
        min k q.bufferOutput.readableBytes := by rw [hqo]; rfl
    dsimp only
    rw [View.flush]
    simp only [hn]
    split
    · rename_i hpos
      rw [if_neg (Nat.ne_of_gt hpos)]
      have hview : ({ q.observe .send with
          wire := (q.observe .send).wire ++
            (q.observe .send).bufferOutput.contents.take (min k q.bufferOutput.readableBytes)
          bufferOutput :=
            (q.observe .send).bufferOutput.retrieve (min k q.bufferOutput.readableBytes) } :
          Connection).view = { w.view with
            wire := w.wire ++ w.bufferOutput.contents.take (min k q.bufferOutput.readableBytes)
            output := w.bufferOutput.retrieve (min k q.bufferOutput.readableBytes) } := by
        rw [← hobs, ← hqo, ← hqw]
        rfl
      split
      · rename_i hall
        rw [view_queueWriteComplete, view_disableWriting, hview]
        simp [← hqo, ← hall]
      · rename_i hpart
        rw [hview]
        have hne : min k q.bufferOutput.readableBytes ≠ w.bufferOutput.readableBytes := by
          rw [← hqo]
          exact Ne.symm hpart
        simp [hne]
    · rename_i hzero
      rw [if_pos (Nat.eq_zero_of_not_pos hzero)]
      exact hobs

/-! ## What sending leaves alone -/

/-- `_Send` and `HandleWrite` change the stream, the interest of the channel and the log;
what they queue calls back the user. -/
structure SendFrame (w t : Connection) : Prop where
  state : t.state = w.state
  pc : t.pc = w.pc
  callbacks : t.callbacks = w.callbacks
  remover : t.remover = w.remover
  inFlight : t.inFlight = w.inFlight
  removing : t.removing = w.removing
  shutWr : t.shutWr = w.shutWr
  revents : t.chan.revents = w.chan.revents
  tasks : ∃ ts : List ConnTask, t.taskList = w.taskList ++ ts ∧ ∀ x ∈ ts, x.isNotice = true

section SendFrame

variable {w q t : Connection}

theorem SendFrame.refl (w : Connection) : SendFrame w w :=
  ⟨rfl, rfl, rfl, rfl, rfl, rfl, rfl, rfl, [], by simp, by simp⟩

theorem SendFrame.trans (h : SendFrame w q) (h' : SendFrame q t) : SendFrame w t := by
  obtain ⟨ts, hts, hn⟩ := h.tasks
  obtain ⟨ts', hts', hn'⟩ := h'.tasks
  refine ⟨h'.state.trans h.state, h'.pc.trans h.pc, h'.callbacks.trans h.callbacks,
    h'.remover.trans h.remover, h'.inFlight.trans h.inFlight, h'.removing.trans h.removing,
    h'.shutWr.trans h.shutWr, h'.revents.trans h.revents, ts ++ ts', ?_, fun x hx => ?_⟩
  · rw [hts', hts, List.append_assoc]
  · rcases List.mem_append.mp hx with hx | hx
    · exact hn x hx
    · exact hn' x hx

/-- A change of the stream and the log. -/
theorem SendFrame.of_stream (w : Connection) (out : Buffer) (wire : List UInt8)
    (sent : List (List UInt8)) (log : List ConnObs) (asserts : List Assert) :
    SendFrame w { w with
      bufferOutput := out, wire := wire, sent := sent, log := log, asserts := asserts } :=
  ⟨rfl, rfl, rfl, rfl, rfl, rfl, rfl, rfl, [], by simp, by simp⟩

theorem SendFrame.check (w : Connection) (site : Assert) (ok : Bool) :
    SendFrame w (w.check site ok) := by
  unfold Connection.check
  split
  · exact .refl w
  · exact .of_stream w _ _ _ _ _

theorem SendFrame.observe (w : Connection) (o : ConnObs) : SendFrame w (w.observe o) :=
  .of_stream w _ _ _ _ _

theorem SendFrame.queue (w : Connection) {x : ConnTask} (hx : x.isNotice = true) :
    SendFrame w (w.queueInLoop x) :=
  ⟨rfl, rfl, rfl, rfl, rfl, rfl, rfl, rfl, [x], rfl, by simpa using hx⟩

theorem SendFrame.queueWriteComplete (w : Connection) : SendFrame w w.queueWriteComplete := by
  unfold Connection.queueWriteComplete
  split
  · exact .queue w rfl
  · exact .refl w

theorem SendFrame.updateEvent (w : Connection) (op : Epoller.Op) :
    SendFrame w (w.updateEvent op) := by
  refine ⟨rfl, rfl, rfl, rfl, rfl, rfl, rfl, ?_, [], by simp [Connection.updateEvent,
    Connection.observe], by simp⟩
  obtain ⟨st, hst⟩ := Epoller.exec_chans w.poller w.channel true op
  simp [Connection.updateEvent, Connection.observe, chan, hst]

theorem sendMostPossible_frame (w : Connection) (dat : List UInt8) (r : SendResult) :
    SendFrame w (w.sendMostPossible_ dat r).2 := by
  unfold sendMostPossible_
  dsimp only
  split
  · have hobs : SendFrame w ((w.check .sendMostPossible (w.bufferOutput.readableBytes = 0)).observe
        .send) := (SendFrame.check w _ _).trans (.observe _ _)
    cases r with
    | error errno => exact hobs
    | accepted k => exact hobs.trans (.of_stream _ _ _ _ _ _)
  · exact .refl w

theorem sendDatQueueInBuffer_frame (w : Connection) (dat : List UInt8) :
    SendFrame w (w.sendDatQueueInBuffer_ dat) := by
  have happend : ∀ q : Connection, SendFrame q
      (if { q with bufferOutput := q.bufferOutput.append dat }.isWriting = false
        then { q with bufferOutput := q.bufferOutput.append dat }.updateEvent .enableWriting
        else { q with bufferOutput := q.bufferOutput.append dat }) := by
    intro q
    have happ : SendFrame q { q with bufferOutput := q.bufferOutput.append dat } :=
      .of_stream q _ _ _ _ _
    split
    · exact happ.trans (.updateEvent _ _)
    · exact happ
  unfold sendDatQueueInBuffer_
  dsimp only
  split
  · exact (SendFrame.queue w rfl).trans (happend _)
  · exact happend w

theorem send_frame (w : Connection) (dat : List UInt8) (r : SendResult) :
    SendFrame w (w.send_ dat r) := by
  unfold send_
  split
  · have hfirst : SendFrame w ({ w with sent := w.sent ++ [dat] }.sendMostPossible_ dat r).2 :=
      (SendFrame.of_stream w _ _ _ _ _).trans (sendMostPossible_frame _ dat r)
    dsimp only
    split
    · rename_i q heq
      rw [heq] at hfirst
      exact hfirst
    · rename_i remain q heq
      rw [heq] at hfirst
      split
      · exact hfirst.trans (sendDatQueueInBuffer_frame q _)
      · exact hfirst.trans (.queueWriteComplete q)
  · exact .refl w

theorem handleWrite_frame (w : Connection) (r : SendResult) : SendFrame w (w.handleWrite r) := by
  unfold handleWrite
  dsimp only
  have hobs : SendFrame w (((w.observe (.handleWrite w.state)).check .handleWrite
      ((w.observe (.handleWrite w.state)).state = .connected)).observe .send) :=
    ((SendFrame.observe w _).trans (.check _ _ _)).trans (.observe _ _)
  cases r with
  | error errno => exact hobs
  | accepted k =>
    dsimp only
    split
    · split
      · refine hobs.trans (SendFrame.trans (SendFrame.trans ?_ (.updateEvent _ .disableWriting))
          (.queueWriteComplete _))
        exact .of_stream _ _ _ _ _ _
      · exact hobs.trans (.of_stream _ _ _ _ _ _)
    · exact hobs

end SendFrame

/-! ## The stream of the view -/

section Flow

variable {v : View}

@[simp] theorem View.send_state (v : View) (dat : List UInt8) (r : SendResult) :
    (v.send dat r).state = v.state := by
  unfold View.send
  split <;> rfl

@[simp] theorem View.send_sent (v : View) (dat : List UInt8) (r : SendResult) :
    (v.send dat r).sent = v.sent ++ [dat] := by
  unfold View.send
  split <;> rfl

@[simp] theorem View.flush_sent (v : View) (r : SendResult) : (v.flush r).sent = v.sent := by
  unfold View.flush
  dsimp only
  split <;> rfl

theorem View.Flow.send (h : v.Flow) (dat : List UInt8) (r : SendResult) : (v.send dat r).Flow := by
  unfold View.send
  split
  · exact ⟨h.buffer, h.handover⟩
  · refine ⟨?_, fun hoff => ?_⟩
    · generalize (if v.writing = true then 0 else min r.taken dat.length) = k
      by_cases hk : k < dat.length
      · simpa [hk] using (Buffer.append_spec h.buffer (dat.drop k)).1
      · simpa [hk] using h.buffer
    · simp only [Bool.or_eq_false_iff, decide_eq_false_iff_not] at hoff
      simp only [hoff.2, ↓reduceIte]
      exact h.handover hoff.1

/-- The message joins the stream, unless a direct `::send` returned -1. -/
theorem View.Flow.send_stream (h : v.Flow) (dat : List UInt8) (r : SendResult) :
    (v.send dat r).stream =
      if v.writing = false ∧ r.isError = true then v.stream else v.stream ++ dat := by
  unfold View.send View.stream
  split
  · rfl
  · cases hw : v.writing with
    | true =>
      simp only [↓reduceIte, List.take_zero, List.append_nil, List.drop_zero]
      split
      · rw [(Buffer.append_spec h.buffer dat).2, List.append_assoc]
      · have hnil : dat = [] := by
          apply List.eq_nil_of_length_eq_zero
          omega
        rw [hnil, List.append_nil]
    | false =>
      -- The kernel takes the first part at once; nothing is in front of the rest.
      simp only [Bool.false_eq_true, ↓reduceIte, h.handover hw, List.append_nil]
      split
      · rw [(Buffer.append_spec h.buffer _).2, h.handover hw, List.nil_append, List.append_assoc,
          List.take_append_drop]
      · rw [h.handover hw, List.append_nil, List.take_of_length_le (by omega)]

theorem View.Flow.flush (h : v.Flow) (r : SendResult) : (v.flush r).Flow := by
  unfold View.flush
  dsimp only
  split
  · exact h
  · rename_i hpos
    obtain ⟨hi, hret⟩ := Buffer.retrieve_spec h.buffer (Nat.min_le_right r.taken _)
    refine ⟨hi, fun hoff => ?_⟩
    rw [hret]
    simp only [Bool.and_eq_false_iff, decide_eq_false_iff_not, Decidable.not_not] at hoff
    rcases hoff with hoff | hall
    · rw [h.handover hoff, List.drop_nil]
    · rw [hall, ← h.buffer.length_contents, List.drop_length]

/-- `HandleWrite` moves bytes from the buffer to the wire; the stream stays. -/
theorem View.flush_stream (hb : v.output.Inv) (r : SendResult) :
    (v.flush r).output.Inv ∧ (v.flush r).stream = v.stream := by
  unfold View.flush View.stream
  dsimp only
  split
  · exact ⟨hb, rfl⟩
  · obtain ⟨hi, hret⟩ := Buffer.retrieve_spec hb (Nat.min_le_right r.taken _)
    refine ⟨hi, ?_⟩
    rw [hret, List.append_assoc, List.take_append_drop]

end Flow

theorem view_handleEventWrite (w : Connection) (r : SendResult) :
    (w.handleEventWrite r).view =
      if w.chan.revents.has EPOLLOUT then w.view.flush r else w.view := by
  unfold handleEventWrite
  dsimp only
  split
  · rw [view_pc, view_setHandling, view_handleWrite]
  · rw [view_pc, view_setHandling]

/-! ## Closing leaves the connected state for good -/

theorem handleWrite_state (w : Connection) (r : SendResult) : (w.handleWrite r).state = w.state :=
  (handleWrite_frame w r).state

theorem handleEventWrite_state (w : Connection) (r : SendResult) :
    (w.handleEventWrite r).state = w.state := by
  unfold handleEventWrite
  dsimp only
  split
  · exact handleWrite_state w r
  · rfl

theorem removeCb_cases (w : Connection) :
    w.removeCb.state = .disconnected ∨ w.removeCb.view = w.view := by
  unfold removeCb
  cases w.remover with
  | serverLoop => exact .inl rfl
  | otherLoop => exact .inr rfl
  | client => exact .inr rfl

theorem handleCloseRest_state (w : Connection) (inRead : Bool) (r : SendResult) :
    (w.handleCloseRest inRead r).state = w.removeCb.state := by
  unfold handleCloseRest
  dsimp only
  split
  · exact handleEventWrite_state _ r
  · rfl

theorem removeCb_state {w : Connection} (h : w.state ≠ .connected) :
    w.removeCb.state ≠ .connected := by
  rcases removeCb_cases w with hd | hv
  · simp [hd]
  · exact fun hc => h ((congrArg View.state hv).symm.trans hc)

theorem handleClose_state (w : Connection) (inRead : Bool) (r : SendResult) :
    (w.handleClose inRead r).state ≠ .connected := by
  unfold handleClose
  dsimp only
  split
  · simp [observe, updateEvent]
  · rw [handleCloseRest_state]
    exact removeCb_state (by simp [observe, updateEvent])

/-! ## What the handlers leave alone -/

/-- The handlers of the channel change neither the calls under way nor the write side of
the socket; what they queue is not a call of the user. -/
structure Frame (w t : Connection) : Prop where
  callbacks : t.callbacks = w.callbacks
  inFlight : t.inFlight = w.inFlight
  shutWr : t.shutWr = w.shutWr
  tasks : ∃ ts : List ConnTask, t.taskList = w.taskList ++ ts ∧ ∀ x ∈ ts, x.isCall = false

section Frame

variable {w q t : Connection}

theorem Frame.refl (w : Connection) : Frame w w :=
  ⟨rfl, rfl, rfl, [], by simp, by simp⟩

theorem Frame.trans (h : Frame w q) (h' : Frame q t) : Frame w t := by
  obtain ⟨ts, hts, hn⟩ := h.tasks
  obtain ⟨ts', hts', hn'⟩ := h'.tasks
  refine ⟨h'.callbacks.trans h.callbacks, h'.inFlight.trans h.inFlight, h'.shutWr.trans h.shutWr,
    ts ++ ts', ?_, fun x hx => ?_⟩
  · rw [hts', hts, List.append_assoc]
  · rcases List.mem_append.mp hx with hx | hx
    · exact hn x hx
    · exact hn' x hx

theorem SendFrame.frame (h : SendFrame w t) : Frame w t := by
  obtain ⟨ts, hts, hn⟩ := h.tasks
  refine ⟨h.callbacks, h.inFlight, h.shutWr, ts, hts, fun x hx => ?_⟩
  have hx := hn x hx
  cases x <;> first | rfl | cases hx

/-- `Frame` reads four fields. -/
theorem Frame.congr (h : Frame w q) (hc : t.callbacks = q.callbacks)
    (hf : t.inFlight = q.inFlight) (hs : t.shutWr = q.shutWr) (hl : t.taskList = q.taskList) :
    Frame w t := by
  obtain ⟨ts, hts, hn⟩ := h.tasks
  exact ⟨hc.trans h.callbacks, hf.trans h.inFlight, hs.trans h.shutWr, ts, hl.trans hts, hn⟩

theorem handleEventWrite_frame (w : Connection) (r : SendResult) :
    Frame w (w.handleEventWrite r) := by
  unfold handleEventWrite
  dsimp only
  split
  · exact (handleWrite_frame w r).frame.congr rfl rfl rfl rfl
  · exact (Frame.refl w).congr rfl rfl rfl rfl

theorem removeCb_frame (w : Connection) : Frame w w.removeCb := by
  unfold removeCb
  cases w.remover with
  | serverLoop => exact (Frame.refl w).congr rfl rfl rfl rfl
  | otherLoop => exact (Frame.refl w).congr rfl rfl rfl rfl
  | client => exact ⟨rfl, rfl, rfl, [.connectionDestroy], rfl, by simp [ConnTask.isCall]⟩

theorem handleCloseRest_frame (w : Connection) (inRead : Bool) (r : SendResult) :
    Frame w (w.handleCloseRest inRead r) := by
  unfold handleCloseRest
  dsimp only
  split
  · exact (removeCb_frame w).trans (handleEventWrite_frame _ r)
  · exact (removeCb_frame w).congr rfl rfl rfl rfl

theorem handleClose_frame (w : Connection) (inRead : Bool) (r : SendResult) :
    Frame w (w.handleClose inRead r) := by
  unfold handleClose
  dsimp only
  split
  · exact (Frame.refl w).congr rfl rfl rfl rfl
  · refine Frame.trans ?_ (handleCloseRest_frame _ inRead r)
    exact (Frame.refl w).congr rfl rfl rfl rfl

theorem handleRead_frame (w : Connection) (read : Buffer.ReadvResult) (r : SendResult) :
    Frame w (w.handleRead read r) := by
  have hread : Frame w (w.afterReadFd read) := (Frame.refl w).congr rfl rfl rfl rfl
  have hend := w.readHandled read r
  generalize w.handleRead read r = t at hend ⊢
  cases hend with
  | callback => exact hread.congr rfl rfl rfl rfl
  | write => exact hread.trans (handleEventWrite_frame _ r)
  | eof => exact hread.trans (handleClose_frame _ true r)

theorem handleEvent_frame (w : Connection) (read : Buffer.ReadvResult) (r : SendResult) :
    Frame w (w.handleEvent read r) := by
  have hh : Frame w (w.setHandling true) := (Frame.refl w).congr rfl rfl rfl rfl
  have hend := w.eventHandled read r
  generalize w.handleEvent read r = t at hend ⊢
  cases hend with
  | close => exact hh.trans (handleClose_frame _ false r)
  | error => exact (Frame.refl w).congr rfl rfl rfl rfl
  | read => exact hh.trans (handleRead_frame _ read r)
  | write => exact hh.trans (handleEventWrite_frame _ r)

end Frame

/-! ## Steps -/

/-- What a step can be, with all that is known when it is taken. -/
inductive Next (w : Connection) : Input → Connection → Prop where
  | event {mask : EventMask} {read : Buffer.ReadvResult} {r : SendResult} (hpc : w.pc = .idle)
      (hd : w.deliverable mask = true) :
      Next w (.event mask read r) ((w.setRevents mask).handleEvent read r)
  | retUser {r : SendResult} (hpc : w.pc = .userCb) : Next w (.ret r) { w with pc := .idle }
  | retRead {r : SendResult} (hpc : w.pc = .readCb) : Next w (.ret r) (w.handleEventWrite r)
  | retClose {r : SendResult} {inRead : Bool} (hpc : w.pc = .disconnectionCb inRead) :
      Next w (.ret r) (w.handleCloseRest inRead r)
  | send {dat : List UInt8} {r : SendResult} (hc : w.state = .connected) :
      Next w (.send dat r) (w.send_ dat r)
  | sendLate {dat : List UInt8} {r : SendResult} (hc : w.state ≠ .connected) :
      Next w (.send dat r) w
  | take {len : Nat} :
      Next w (.take len) { w with
        bufferInput := w.bufferInput.retrieve (min len w.bufferInput.readableBytes) }
  | call {t : ConnTask} (hcall : t.isCall = true) (hc : w.state = .connected) :
      Next w (.call t) { w with inFlight := w.inFlight ++ [t] }
  | callLate {t : ConnTask} : Next w (.call t) w
  | push {k : Nat} {t : ConnTask} (hget : w.inFlight[k]? = some t) :
      Next w (.push k) (queueInLoop { w with inFlight := w.inFlight.eraseIdx k } t)
  | task {t : ConnTask} {rest : List ConnTask} {r : SendResult} (hpc : w.pc = .idle)
      (hlist : w.taskList = t :: rest) :
      Next w (.task r) (runTask { w with taskList := rest } t r)
  | removeInLoop (hr : w.removing = true) :
      Next w .removeInLoop (queueInLoop { w with removing := false } .connectionDestroy)
  | other {c : ChanId} {op : Epoller.Op} (hne : c ≠ w.channel) (hu : w.poller.usable c = true) :
      Next w (.other c op) { w with poller := w.poller.exec c true op }

theorem step_next {w t : Connection} {i : Input} (hs : w.step i = some t) : w.Next i t := by
  cases i with
  | event mask read r =>
    simp only [step] at hs
    split at hs
    · rename_i hen
      cases hs
      exact .event hen.1 hen.2
    · cases hs
  | ret r =>
    simp only [step] at hs
    split at hs
    · cases hs
    · rename_i hpc
      cases hs
      exact .retUser hpc
    · rename_i hpc
      cases hs
      exact .retRead hpc
    · rename_i inRead hpc
      cases hs
      exact .retClose hpc
  | send dat r =>
    simp only [step, Option.some.injEq] at hs
    subst hs
    unfold send
    split
    · exact .send ‹_›
    · exact .sendLate ‹_›
  | take len =>
    cases hs
    exact .take
  | call task =>
    simp only [step] at hs
    split at hs
    · rename_i hcall
      split at hs
      · rename_i hc
        cases hs
        exact .call hcall hc
      · cases hs
        exact .callLate
    · cases hs
  | push k =>
    simp only [step] at hs
    split at hs
    · cases hs
    · rename_i task hget
      cases hs
      exact .push hget
  | task r =>
    simp only [step] at hs
    split at hs
    · rename_i hpc
      split at hs
      · cases hs
      · rename_i task rest hlist
        cases hs
        exact .task hpc hlist
    · cases hs
  | removeInLoop =>
    simp only [step] at hs
    split at hs
    · rename_i hr
      cases hs
      exact .removeInLoop hr
    · cases hs
  | other c op =>
    simp only [step] at hs
    split at hs
    · rename_i hen
      cases hs
      exact .other hen.1 hen.2
    · cases hs

/-! ## The queue -/

/-- The inputs that are no calls of the user and run no task. -/
def Input.isOwn : Input → Bool
  | .event _ _ _ | .ret _ | .take _ | .removeInLoop | .other _ _ => true
  | _ => false

/-- `DoPendingTasks` runs a task. -/
def Input.isTask : Input → Bool
  | .task _ => true
  | _ => false

section Queue

variable {w t : Connection} {i : Input}

theorem own_frame (hn : w.Next i t) (hi : i.isOwn = true) : Frame w t := by
  cases hn with
  | @event mask read r =>
    have hrev : Frame w (w.setRevents mask) := (Frame.refl w).congr rfl rfl rfl rfl
    exact hrev.trans (handleEvent_frame (w.setRevents mask) read r)
  | retUser => exact (Frame.refl w).congr rfl rfl rfl rfl
  | @retRead r => exact handleEventWrite_frame w r
  | @retClose r inRead => exact handleCloseRest_frame w inRead r
  | take => exact (Frame.refl w).congr rfl rfl rfl rfl
  | removeInLoop => exact ⟨rfl, rfl, rfl, [.connectionDestroy], rfl, by simp [ConnTask.isCall]⟩
  | other => exact (Frame.refl w).congr rfl rfl rfl rfl
  | _ => cases hi

theorem runTask_queue (w : Connection) (task : ConnTask) (r : SendResult) :
    (w.runTask task r).callbacks = w.callbacks ∧ (w.runTask task r).inFlight = w.inFlight ∧
      ∃ ts, (w.runTask task r).taskList = w.taskList ++ ts ∧ ∀ x ∈ ts, x.isCall = false := by
  cases task with
  | sendInLoop dat =>
    have h := (send_frame w dat r).frame
    exact ⟨h.callbacks, h.inFlight, h.tasks⟩
  | shutdownWriteInLoop =>
    simp only [runTask, shutdownWriteInLoop]
    split <;> exact ⟨rfl, rfl, [], by simp, by simp⟩
  | forceCloseInLoop =>
    simp only [runTask, forceCloseInLoop]
    split
    · exact ⟨rfl, rfl, [], by simp, by simp⟩
    · have h := handleClose_frame w false r
      exact ⟨h.callbacks, h.inFlight, h.tasks⟩
  | connectionDestroy =>
    exact ⟨rfl, rfl, [], by simp [runTask, connectionDestroy, observe], by simp⟩
  | writeComplete => exact ⟨rfl, rfl, [], by simp [runTask], by simp⟩
  | highWaterMark n => exact ⟨rfl, rfl, [], by simp [runTask], by simp⟩

/-- A task is taken from the front, and new tasks come in at the end. -/
theorem step_tasks (hn : w.Next i t) :
    ∃ ts, t.taskList = (if i.isTask then w.taskList.tail else w.taskList) ++ ts := by
  cases hn with
  | event hpc hd =>
    obtain ⟨ts, hts, -⟩ := (own_frame (.event hpc hd) rfl).tasks
    exact ⟨ts, hts⟩
  | @retRead r =>
    obtain ⟨ts, hts, -⟩ := (handleEventWrite_frame w r).tasks
    exact ⟨ts, hts⟩
  | @retClose r inRead =>
    obtain ⟨ts, hts, -⟩ := (handleCloseRest_frame w inRead r).tasks
    exact ⟨ts, hts⟩
  | @send dat r =>
    obtain ⟨ts, hts, -⟩ := (send_frame w dat r).tasks
    exact ⟨ts, hts⟩
  | @push _ task => exact ⟨[task], rfl⟩
  | @task task rest r _ hlist =>
    obtain ⟨-, -, ts, hts, -⟩ := runTask_queue { w with taskList := rest } task r
    exact ⟨ts, by rw [hts, hlist]; rfl⟩
  | removeInLoop => exact ⟨[.connectionDestroy], rfl⟩
  | _ => exact ⟨[], (List.append_nil _).symm⟩

end Queue

/-! ## One step of the stream -/

/-- The message `i` makes the loop execute in `w`, and the result of its `::send`. -/
def message (w : Connection) : Input → Option (List UInt8 × SendResult)
  | .send dat r => some (dat, r)
  | .task r =>
    match w.taskList with
    | .sendInLoop dat :: _ => some (dat, r)
    | _ => none
  | _ => none

/-- A non-empty message meets a direct `::send` that returns -1. -/
def Blocked (w : Connection) (i : Input) : Prop :=
  w.state = .connected ∧ w.isWriting = false ∧
    ∃ dat r, w.message i = some (dat, r) ∧ dat ≠ [] ∧ r.isError = true

/-- A step executed the bytes `m`: they joined the stream unless it was blocked. -/
def Executed (w t : Connection) (i : Input) (m : List UInt8) : Prop :=
  t.sent.flatten = w.sent.flatten ++ m ∧
    (Blocked w i ∧ m ≠ [] ∧ t.view.stream = w.view.stream ∨
      ¬ Blocked w i ∧ t.view.stream = w.view.stream ++ m)

/-- What a step that ends connected does. -/
structure Flows (w t : Connection) (i : Input) : Prop where
  connected : w.state = .connected
  flow : w.view.Flow → t.view.Flow
  executed : w.view.Flow → ∃ m, Executed w t i m

/-- What a step that ends connected does to the view. -/
inductive Moves (w : Connection) (i : Input) : View → Prop where
  | same (hm : w.message i = none) (hc : w.state = .connected) : Moves w i w.view
  | flush (hm : w.message i = none) (hc : w.state = .connected) (r : SendResult) :
      Moves w i (w.view.flush r)
  | send {dat : List UInt8} {r : SendResult} (hm : w.message i = some (dat, r))
      (hc : w.state = .connected) : Moves w i (w.view.send dat r)

theorem moves_of_view {w t : Connection} {i : Input} (hm : w.message i = none)
    (hv : t.view = w.view) (hc : t.state = .connected) : Moves w i t.view := by
  rw [hv]
  exact .same hm ((congrArg View.state hv).symm.trans hc)

theorem moves_of_eventWrite {w q : Connection} {i : Input} (hm : w.message i = none)
    (hv : q.view = w.view) (r : SendResult) (hc : (q.handleEventWrite r).state = .connected) :
    Moves w i (q.handleEventWrite r).view := by
  rw [handleEventWrite_state] at hc
  have hw : w.state = .connected := (congrArg View.state hv).symm.trans hc
  rw [view_handleEventWrite, hv]
  split
  · exact .flush hm hw r
  · exact .same hm hw

theorem handleRead_moves {w q : Connection} {i : Input} (hm : w.message i = none)
    (hv : q.view = w.view) (read : Buffer.ReadvResult) (r : SendResult)
    (hc : (q.handleRead read r).state = .connected) : Moves w i (q.handleRead read r).view := by
  have hq : (q.afterReadFd read).view = w.view := hv
  have hend := q.readHandled read r
  generalize q.handleRead read r = t at hend hc ⊢
  cases hend with
  | callback => exact moves_of_view hm hq hc
  | write => exact moves_of_eventWrite hm hq r hc
  | eof => exact absurd hc (handleClose_state _ _ _)

theorem handleEvent_moves {w q : Connection} {i : Input} (hm : w.message i = none)
    (hv : q.view = w.view) (read : Buffer.ReadvResult) (r : SendResult)
    (hc : (q.handleEvent read r).state = .connected) : Moves w i (q.handleEvent read r).view := by
  have hh : (q.setHandling true).view = w.view := (view_setHandling q true).trans hv
  have hend := q.eventHandled read r
  generalize q.handleEvent read r = t at hend hc ⊢
  cases hend with
  | close => exact absurd hc (handleClose_state _ _ _)
  | error => exact moves_of_view hm ((view_setHandling _ _).trans hh) hc
  | read => exact handleRead_moves hm hh read r hc
  | write => exact moves_of_eventWrite hm hh r hc

theorem handleCloseRest_moves {w : Connection} {i : Input} (hm : w.message i = none)
    (inRead : Bool) (r : SendResult) (hc : (w.handleCloseRest inRead r).state = .connected) :
    Moves w i (w.handleCloseRest inRead r).view := by
  have hv : w.removeCb.view = w.view := by
    rw [handleCloseRest_state] at hc
    rcases removeCb_cases w with hd | hv
    · rw [hc] at hd
      cases hd
    · exact hv
  revert hc
  unfold handleCloseRest
  dsimp only
  split
  · exact moves_of_eventWrite hm hv r
  · exact moves_of_view hm ((view_setHandling w.removeCb false).trans hv)

theorem runTask_moves {w q : Connection} {i : Input} {t : ConnTask} {r : SendResult}
    (hsend : ∀ dat, t = .sendInLoop dat → w.message i = some (dat, r))
    (hm : (∀ dat, t ≠ .sendInLoop dat) → w.message i = none) (hv : q.view = w.view)
    (hc : (q.runTask t r).state = .connected) : Moves w i (q.runTask t r).view := by
  have hs : q.state = w.state := congrArg View.state hv
  revert hc
  cases t with
  | sendInLoop dat =>
    intro hc
    have hw : w.state = .connected := by
      by_contra hn
      have hskip : q.send_ dat r = q := if_neg (hs ▸ hn)
      rw [runTask, hskip] at hc
      exact hn (hs.symm.trans hc)
    rw [runTask, view_send_ (hs.trans hw), hv]
    exact .send (hsend dat rfl) hw
  | shutdownWriteInLoop =>
    simp only [runTask, shutdownWriteInLoop]
    split
    · exact moves_of_view (hm nofun) hv
    · exact moves_of_view (hm nofun) hv
  | forceCloseInLoop =>
    simp only [runTask, forceCloseInLoop]
    split
    · exact moves_of_view (hm nofun) hv
    · exact fun hc => absurd hc (handleClose_state _ _ _)
  | connectionDestroy =>
    intro hc
    cases hc
  | writeComplete => exact moves_of_view (hm nofun) hv
  | highWaterMark n => exact moves_of_view (hm nofun) hv

/-- **What one step does to the view.** -/
theorem step_moves {w t : Connection} {i : Input} (hn : w.Next i t)
    (hc : t.state = .connected) : Moves w i t.view := by
  cases hn with
  | @event mask read r => exact handleEvent_moves rfl (view_setRevents w mask) read r hc
  | retUser => exact moves_of_view rfl rfl hc
  | @retRead r => exact moves_of_eventWrite rfl rfl r hc
  | @retClose r => exact handleCloseRest_moves rfl _ r hc
  | @send dat r hw =>
    rw [view_send_ hw]
    exact .send rfl hw
  | sendLate hw => exact absurd hc hw
  | take => exact moves_of_view rfl rfl hc
  | call => exact moves_of_view rfl rfl hc
  | callLate => exact moves_of_view rfl rfl hc
  | push => exact moves_of_view rfl rfl hc
  | @task task _ _ _ hlist =>
    refine runTask_moves (fun dat heq => ?_) (fun hne => ?_) rfl hc
    · simp only [message, hlist, heq]
    · simp only [message, hlist]
      cases task <;> first | rfl | exact absurd rfl (hne _)
  | removeInLoop => exact moves_of_view rfl rfl hc
  | @other _ op hne => exact moves_of_view rfl (view_other w hne op) hc

theorem not_blocked_of_none {w : Connection} {i : Input} (hm : w.message i = none) :
    ¬ Blocked w i := by
  rintro ⟨_, _, dat, r, hmsg, _⟩
  rw [hm] at hmsg
  cases hmsg

theorem blocked_of_message {w : Connection} {i : Input} {dat : List UInt8} {r : SendResult}
    (hm : w.message i = some (dat, r)) (hc : w.state = .connected) :
    Blocked w i ↔ w.isWriting = false ∧ r.isError = true ∧ dat ≠ [] := by
  constructor
  · rintro ⟨_, hoff, dat', r', hmsg, hne, herr⟩
    rw [hm] at hmsg
    cases hmsg
    exact ⟨hoff, herr, hne⟩
  · rintro ⟨hoff, herr, hne⟩
    exact ⟨hc, hoff, dat, r, hm, hne, herr⟩

/-- **One step of the stream.** -/
theorem step_stream {w t : Connection} {i : Input} (hn : w.Next i t)
    (hc : t.state = .connected) : Flows w t i := by
  have hmove := step_moves hn hc
  generalize hv : t.view = v at hmove
  have hsent : t.sent = v.sent := congrArg View.sent hv
  cases hmove with
  | same hm hw =>
    refine ⟨hw, fun hf => hv ▸ hf, fun hf => ⟨[], by simp [hsent], .inr ?_⟩⟩
    exact ⟨not_blocked_of_none hm, by rw [hv, List.append_nil]⟩
  | flush hm hw r =>
    refine ⟨hw, fun hf => hv ▸ hf.flush r, fun hf => ⟨[], by simp [hsent], .inr ?_⟩⟩
    exact ⟨not_blocked_of_none hm, by rw [hv, (View.flush_stream hf.buffer r).2, List.append_nil]⟩
  | @send dat r hm hw =>
    refine ⟨hw, fun hf => hv ▸ hf.send dat r, fun hf => ⟨dat, by simp [hsent], ?_⟩⟩
    have hstream := hf.send_stream dat r
    have hblocked := blocked_of_message hm hw
    by_cases hloss : w.isWriting = false ∧ r.isError = true
    · rw [if_pos (by exact hloss)] at hstream
      by_cases hnil : dat = []
      · refine .inr ⟨fun hb => (hblocked.mp hb).2.2 hnil, ?_⟩
        rw [hv, hstream, hnil, List.append_nil]
      · exact .inl ⟨hblocked.mpr ⟨hloss.1, hloss.2, hnil⟩, hnil, by rw [hv, hstream]⟩
    · rw [if_neg (by exact hloss)] at hstream
      refine .inr ⟨fun hb => hloss ⟨(hblocked.mp hb).1, (hblocked.mp hb).2.1⟩, ?_⟩
      rw [hv, hstream]

/-! ## Whole runs -/

/-- The part of a run behind a blocked step never makes up for the loss. -/
theorem run_stream_short {w t : Connection} {ins : List Input}
    (hw : w.state = .connected → w.view.Flow ∧ w.view.stream.length < w.sent.flatten.length)
    (hr : Machine.run step w ins = some t) (hc : t.state = .connected) :
    t.view.stream.length < t.sent.flatten.length := by
  refine (Machine.run_invariant (P := fun w => w.state = .connected →
    w.view.Flow ∧ w.view.stream.length < w.sent.flatten.length) ?_ hw hr hc).2
  intro s i s' hp hs hc'
  have hfl := step_stream (step_next hs) hc'
  obtain ⟨hf, hlt⟩ := hp hfl.connected
  refine ⟨hfl.flow hf, ?_⟩
  obtain ⟨m, hm, ⟨_, _, hst⟩ | ⟨_, hst⟩⟩ := hfl.executed hf
  · rw [hst, hm, List.length_append]
    omega
  · rw [hst, hm, List.length_append, List.length_append]
    omega

theorem run_stream_iff {w t : Connection} {ins : List Input}
    (hw : w.state = .connected → w.view.Flow ∧ w.view.stream = w.sent.flatten)
    (hr : Machine.run step w ins = some t) (hc : t.state = .connected) :
    t.view.stream = t.sent.flatten ↔ Machine.Along step (fun w i => ¬ Blocked w i) w ins := by
  induction ins generalizing w with
  | nil =>
    simp only [Machine.run_nil, Option.some.injEq] at hr
    subst hr
    exact iff_of_true (hw hc).2 trivial
  | cons i ins ih =>
    obtain ⟨m, hm, hrest⟩ := Machine.run_cons_iff.mp hr
    simp only [Machine.Along, hm, Option.some.injEq, forall_eq']
    by_cases hb : Blocked w i
    · -- the message of this step is missing from every later stream
      refine iff_of_false (fun heq => ?_) (fun h => h.1 hb)
      have hshort := run_stream_short (w := m) (fun hmc => ?_) hrest hc
      · rw [heq] at hshort
        exact absurd hshort (lt_irrefl _)
      · have hfl := step_stream (step_next hm) hmc
        obtain ⟨hf, hst⟩ := hw hfl.connected
        obtain ⟨d, hd, ⟨_, hne, hsame⟩ | ⟨hnb, _⟩⟩ := hfl.executed hf
        · refine ⟨hfl.flow hf, ?_⟩
          have hpos := List.length_pos_of_ne_nil hne
          rw [hsame, hd, hst, List.length_append]
          omega
        · exact absurd hb hnb
    · rw [ih (fun hmc => ?_) hrest]
      · exact ⟨fun h => ⟨hb, h⟩, fun h => h.2⟩
      · have hfl := step_stream (step_next hm) hmc
        obtain ⟨hf, hst⟩ := hw hfl.connected
        obtain ⟨d, hd, ⟨hbl, _⟩ | ⟨_, happ⟩⟩ := hfl.executed hf
        · exact absurd hbl hb
        · exact ⟨hfl.flow hf, by rw [happ, hd, hst]⟩

theorem established_stream (p : Epoller) (c : ChanId) (cb : Callbacks) (rm : Remover) (ov : Nat) :
    (Connection.new p c cb rm ov).connectionEstablished.view.Flow ∧
      (Connection.new p c cb rm ov).connectionEstablished.view.stream = [] ∧
      (Connection.new p c cb rm ov).connectionEstablished.sent = [] := by
  have hv : (Connection.new p c cb rm ov).connectionEstablished.view.output = Buffer.new ∧
      (Connection.new p c cb rm ov).connectionEstablished.view.wire = [] ∧
      (Connection.new p c cb rm ov).connectionEstablished.sent = [] := by
    rw [connectionEstablished_eq]
    exact ⟨rfl, rfl, rfl⟩
  obtain ⟨ho, hw, hs⟩ := hv
  refine ⟨⟨ho ▸ Buffer.inv_new, fun _ => ho ▸ Buffer.contents_new⟩, ?_, hs⟩
  rw [View.stream, ho, hw, Buffer.contents_new]
  rfl

/-- **No byte is lost exactly when no direct send is refused.** After any run of
an established connection that is still connected, the bytes taken by the kernel
followed by those in `buffer_output_` are the messages executed, in order, if and
only if no step of the run executed a non-empty message, with the write interest
off, whose `::send` returned -1. -/
theorem stream_complete_iff (p : Epoller) (c : ChanId) (cb : Callbacks) (rm : Remover) (ov : Nat)
    (ins : List Input) (w : Connection)
    (hr : Machine.run step (Connection.new p c cb rm ov).connectionEstablished ins = some w)
    (hc : w.state = .connected) :
    w.wire ++ w.bufferOutput.contents = w.sent.flatten ↔
      Machine.Along step (fun w i => ¬ Blocked w i)
        (Connection.new p c cb rm ov).connectionEstablished ins := by
  obtain ⟨hf, hst, hse⟩ := established_stream p c cb rm ov
  exact run_stream_iff (fun _ => ⟨hf, by rw [hst, hse]; rfl⟩) hr hc

/-- A short write on an idle connection: the rest waits in the buffer. -/
theorem stream_complete_iff_short_write : ∃ w,
    Machine.run step (Connection.new (Epoller.new 8 (· + 1)) 3 ⟨false, false, false, false, false⟩
      .serverLoop 100).connectionEstablished [.send [65, 66] (.accepted 1)] = some w ∧
    w.wire ++ w.bufferOutput.contents = w.sent.flatten ∧ w.sent = [[65, 66]] := by
  generalize hw0 : (Connection.new (Epoller.new 8 (· + 1)) 3 ⟨false, false, false, false, false⟩
    .serverLoop 100).connectionEstablished = w0
  have hc0 : w0.state = .connected := by rw [← hw0]; rfl
  obtain ⟨hf, _, hse⟩ := established_stream (Epoller.new 8 (· + 1)) 3
    ⟨false, false, false, false, false⟩ .serverLoop 100
  rw [hw0] at hf hse
  have hview := view_send_ hc0 [65, 66] (.accepted 1)
  have hc : (w0.send_ [65, 66] (.accepted 1)).state = .connected := by
    rw [← view_state, hview, View.send_state, view_state, hc0]
  have hsent : (w0.send_ [65, 66] (.accepted 1)).sent = w0.sent ++ [[65, 66]] := by
    rw [← view_sent, hview, View.send_sent, view_sent]
  have hr : Machine.run step w0 [.send [65, 66] (.accepted 1)] =
      some (w0.send_ [65, 66] (.accepted 1)) := by
    rw [Machine.run_singleton, step, send, if_pos hc0]
  refine ⟨_, hr, ?_, by rw [hsent, hse]; rfl⟩
  refine (stream_complete_iff _ _ _ _ _ [.send [65, 66] (.accepted 1)] _
    (by rw [hw0]; exact hr) hc).mpr ?_
  refine ⟨?_, fun _ _ => trivial⟩
  rintro ⟨_, _, dat, r, hm, _, herr⟩
  cases hm
  cases herr

/-- A full socket buffer on an idle connection: the message is in neither place,
and the connection goes on. -/
theorem stream_hole : ∃ w,
    Machine.run step (Connection.new (Epoller.new 8 (· + 1)) 3 ⟨false, false, false, false, false⟩
      .serverLoop 100).connectionEstablished [.send [65] (.error EAGAIN)] = some w ∧
    w.state = .connected ∧ w.sent = [[65]] ∧
    w.wire ++ w.bufferOutput.contents ≠ w.sent.flatten := by
  have hw : (Connection.new (Epoller.new 8 (· + 1)) 3 ⟨false, false, false, false, false⟩
    .serverLoop 100).connectionEstablished.isWriting = false := by decide
  obtain ⟨hf, hst, hse⟩ := established_stream (Epoller.new 8 (· + 1)) 3
    ⟨false, false, false, false, false⟩ .serverLoop 100
  generalize hw0 : (Connection.new (Epoller.new 8 (· + 1)) 3 ⟨false, false, false, false, false⟩
    .serverLoop 100).connectionEstablished = w0 at hw hf hst hse
  have hc0 : w0.state = .connected := by rw [← hw0]; rfl
  have hview := view_send_ hc0 [65] (.error EAGAIN)
  have hc : (w0.send_ [65] (.error EAGAIN)).state = .connected := by
    rw [← view_state, hview, View.send_state, view_state, hc0]
  have hsent : (w0.send_ [65] (.error EAGAIN)).sent = w0.sent ++ [[65]] := by
    rw [← view_sent, hview, View.send_sent, view_sent]
  have hstream := hf.send_stream [65] (.error EAGAIN)
  rw [if_pos ⟨hw, rfl⟩, hst, ← hview] at hstream
  refine ⟨w0.send_ [65] (.error EAGAIN), ?_, hc, by rw [hsent, hse]; rfl, ?_⟩
  · rw [Machine.run_singleton, step, send, if_pos hc0]
  · intro heq
    have hnil : (w0.send_ [65] (.error EAGAIN)).sent.flatten = [] := heq.symm.trans hstream
    rw [hsent, hse] at hnil
    cases hnil

end Connection

end LinuxNet
