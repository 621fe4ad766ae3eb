import LinuxNet.Connection.Attached

/-!
# The bytes that a connection receives

`HandleRead` is the only place where bytes enter `buffer_input_`, and user code the only
place where they leave it. `step_input` says so of one step: what `readv` delivered joins the
unread bytes at the end, what the user takes leaves them at the front. Nothing is reordered,
dropped or shown twice, however `readv` cuts the stream and however much the user leaves in
the buffer from one callback to the next.
-/

namespace LinuxNet

set_option autoImplicit false

open LinuxNet.Lib

namespace Connection

/-- `HandleEvent_` gets to `HandleRead` with this mask. -/
def reachesRead (mask : EventMask) : Bool :=
  !mask.has (EPOLLHUP ||| EPOLLRDHUP) && !mask.has EPOLLERR && mask.has (EPOLLIN ||| EPOLLPRI)

/-- The bytes that `readv` delivers in the step on an input. -/
def Input.arrives : Input → List UInt8
  | .event mask (.bytes dat) _ => if reachesRead mask then dat else []
  | _ => []

/-- The bytes that user code takes in the step on an input. -/
def takes (w : Connection) : Input → List UInt8
  | .take len => w.bufferInput.contents.take (min len w.bufferInput.readableBytes)
  | _ => []

/-- The bytes that user code takes in a run. -/
def consumed (w : Connection) (ins : List Input) : List UInt8 :=
  Machine.trace step (fun w i _ => w.takes i) w ins

/-! ## The handlers leave `buffer_input_` alone -/

section Handlers

variable {w t : Connection} {i : Input}

@[simp] theorem check_bufferInput (w : Connection) (site : Assert) (ok : Bool) :
    (w.check site ok).bufferInput = w.bufferInput := by
  obtain ⟨failed, h⟩ := w.check_eq site ok
  rw [h]

@[simp] theorem queueWriteComplete_bufferInput (w : Connection) :
    w.queueWriteComplete.bufferInput = w.bufferInput := by
  unfold queueWriteComplete
  split <;> rfl

theorem sendMostPossible_bufferInput (w : Connection) (dat : List UInt8) (r : SendResult) :
    (w.sendMostPossible_ dat r).2.bufferInput = w.bufferInput := by
  unfold sendMostPossible_
  dsimp only
  split
  · cases r <;> exact check_bufferInput _ _ _
  · rfl

theorem sendDatQueueInBuffer_bufferInput (w : Connection) (dat : List UInt8) :
    (w.sendDatQueueInBuffer_ dat).bufferInput = w.bufferInput := by
  unfold sendDatQueueInBuffer_
  dsimp only
  split <;> split <;> rfl

theorem send_bufferInput (w : Connection) (dat : List UInt8) (r : SendResult) :
    (w.send_ dat r).bufferInput = w.bufferInput := by
  unfold send_
  split
  · have hfirst := sendMostPossible_bufferInput { w with sent := w.sent ++ [dat] } dat r
    dsimp only
    split
    · rename_i q heq
      rw [heq] at hfirst
      exact hfirst
    · rename_i remain q heq
      rw [heq] at hfirst
      split
      · exact (sendDatQueueInBuffer_bufferInput q _).trans hfirst
      · exact (queueWriteComplete_bufferInput q).trans hfirst
  · rfl

theorem handleWrite_bufferInput (w : Connection) (r : SendResult) :
    (w.handleWrite r).bufferInput = w.bufferInput := by
  have hobs : (((w.observe (.handleWrite w.state)).check .handleWrite
      ((w.observe (.handleWrite w.state)).state = .connected)).observe .send).bufferInput =
      w.bufferInput := check_bufferInput _ _ _
  unfold handleWrite
  dsimp only
  cases r with
  | error errno => exact hobs
  | accepted k =>
    dsimp only
    split
    · split
      · exact (queueWriteComplete_bufferInput _).trans hobs
      · exact hobs
    · exact hobs

theorem handleEventWrite_bufferInput (w : Connection) (r : SendResult) :
    (w.handleEventWrite r).bufferInput = w.bufferInput := by
  unfold handleEventWrite
  dsimp only
  split
  · exact handleWrite_bufferInput w r
  · rfl

theorem handleCloseRest_bufferInput (w : Connection) (inRead : Bool) (r : SendResult) :
    (w.handleCloseRest inRead r).bufferInput = w.bufferInput := by
  have hremove : w.removeCb.bufferInput = w.bufferInput := by
    unfold removeCb
    cases w.remover <;> rfl
  unfold handleCloseRest
  dsimp only
  split
  · exact (handleEventWrite_bufferInput _ r).trans hremove
  · exact hremove

theorem handleClose_bufferInput (w : Connection) (inRead : Bool) (r : SendResult) :
    (w.handleClose inRead r).bufferInput = w.bufferInput := by
  unfold handleClose
  dsimp only
  split
  · rfl
  · exact handleCloseRest_bufferInput _ inRead r

theorem runTask_bufferInput (w : Connection) (task : ConnTask) (r : SendResult) :
    (w.runTask task r).bufferInput = w.bufferInput := by
  cases task with
  | sendInLoop dat => exact send_bufferInput w dat r
  | shutdownWriteInLoop =>
    simp only [runTask, shutdownWriteInLoop]
    split <;> rfl
  | forceCloseInLoop =>
    simp only [runTask, forceCloseInLoop]
    split
    · rfl
    · exact handleClose_bufferInput w false r
  | connectionDestroy => rfl
  | writeComplete => rfl
  | highWaterMark n => rfl

/-! ## Reading -/

/-- `HandleRead` appends to `buffer_input_` what `readv` delivered. -/
theorem handleRead_bufferInput (w : Connection) (read : Buffer.ReadvResult) (r : SendResult) :
    (w.handleRead read r).bufferInput = (w.bufferInput.readFd read).2 := by
  have hq : (w.afterReadFd read).bufferInput = (w.bufferInput.readFd read).2 := rfl
  have hend := w.readHandled read r
  generalize w.handleRead read r = t at hend ⊢
  cases hend with
  | callback => exact hq
  | write => exact (handleEventWrite_bufferInput _ r).trans hq
  | eof => exact (handleClose_bufferInput _ true r).trans hq

/-- Bytes that have arrived are shown to the user at once. -/
theorem handleRead_calls {dat : List UInt8} (hne : dat ≠ []) (hcb : w.callbacks.read = true)
    (r : SendResult) : (w.handleRead (.bytes dat) r).pc = .readCb := by
  have hrlen : (w.bufferInput.readFd (.bytes dat)).1.rlen = dat.length := by
    unfold Buffer.readFd
    dsimp only
    split <;> rfl
  have hpos : 0 < dat.length := List.length_pos_of_ne_nil hne
  unfold handleRead
  dsimp only
  have hread : (((w.observe (.handleRead w.state)).check .handleRead
      ((w.observe (.handleRead w.state)).state = .connected)).bufferInput) = w.bufferInput :=
    check_bufferInput _ _ _
  have hset : (((w.observe (.handleRead w.state)).check .handleRead
      ((w.observe (.handleRead w.state)).state = .connected)).callbacks) = w.callbacks :=
    check_callbacks _ _ _
  rw [hread, hrlen, if_pos (by omega), hset, if_pos hcb]

/-- `HandleEvent_` gets to `HandleRead`, or leaves `buffer_input_` as it is. -/
theorem handleEvent_reads (w : Connection) (mask : EventMask) (read : Buffer.ReadvResult)
    (r : SendResult) :
    (reachesRead mask = true ∧ (w.setRevents mask).handleEvent read r =
      ((w.setRevents mask).setHandling true).handleRead read r) ∨
    (reachesRead mask = false ∧
      ((w.setRevents mask).handleEvent read r).bufferInput = w.bufferInput) := by
  have hrev := revents_setRevents w mask true
  have hend := (w.setRevents mask).eventHandled read r
  generalize hv : (w.setRevents mask).handleEvent read r = t at hend ⊢
  cases hend with
  | close hhup =>
    rw [hrev] at hhup
    exact .inr ⟨by simp [reachesRead, hhup], handleClose_bufferInput _ false r⟩
  | error hhup herr =>
    rw [hrev] at herr
    exact .inr ⟨by simp [reachesRead, herr], rfl⟩
  | read hhup herr hin =>
    rw [hrev] at hhup herr hin
    exact .inl ⟨by simp [reachesRead, hhup, herr, hin], rfl⟩
  | write hhup herr hin =>
    rw [hrev] at hin
    exact .inr ⟨by simp [reachesRead, hin], handleEventWrite_bufferInput _ r⟩

/-- The unread bytes behind a step, with what came in and what went out. -/
structure Passed (w t : Connection) (i : Input) : Prop where
  buffer : t.bufferInput.Inv
  stream : w.takes i ++ t.bufferInput.contents = w.bufferInput.contents ++ i.arrives

theorem Passed.same (hb : w.bufferInput.Inv) (ht : t.bufferInput = w.bufferInput)
    (htake : w.takes i = []) (harr : i.arrives = []) : Passed w t i := by
  refine ⟨ht ▸ hb, ?_⟩
  rw [htake, harr, ht, List.append_nil, List.nil_append]

theorem passed_event (hb : w.bufferInput.Inv) (mask : EventMask) (read : Buffer.ReadvResult)
    (r : SendResult) :
    Passed w ((w.setRevents mask).handleEvent read r) (.event mask read r) := by
  rcases w.handleEvent_reads mask read r with ⟨hreach, heq⟩ | ⟨hreach, hsame⟩
  · have hin : ((w.setRevents mask).handleEvent read r).bufferInput =
        (w.bufferInput.readFd read).2 := by
      rw [heq, handleRead_bufferInput]
      rfl
    cases read with
    | error errno => exact .same hb hin rfl rfl
    | bytes dat =>
      obtain ⟨hinv, hcont⟩ := Buffer.readFd_bytes_spec hb dat
      refine ⟨hin ▸ hinv, ?_⟩
      show _ ++ _ = _ ++ (if reachesRead mask then dat else [])
      rw [hin, hcont, if_pos hreach]
      rfl
  · refine .same hb hsame rfl ?_
    cases read with
    | error errno => rfl
    | bytes dat =>
      show (if reachesRead mask then dat else []) = []
      rw [hreach, if_neg Bool.false_ne_true]

/-- **One step of the received stream.** -/
theorem step_input (hb : w.bufferInput.Inv) (hn : w.Next i t) : Passed w t i := by
  cases hn with
  | event => exact passed_event hb _ _ _
  | retRead => exact .same hb (handleEventWrite_bufferInput w _) rfl rfl
  | retClose => exact .same hb (handleCloseRest_bufferInput w _ _) rfl rfl
  | send => exact .same hb (send_bufferInput w _ _) rfl rfl
  | @take len =>
    obtain ⟨hinv, hcont⟩ := Buffer.retrieve_spec hb (Nat.min_le_right len _)
    refine ⟨hinv, ?_⟩
    show w.bufferInput.contents.take _ ++ _ = _ ++ []
    rw [hcont, List.take_append_drop, List.append_nil]
  | task => exact .same hb (runTask_bufferInput _ _ _) rfl rfl
  | _ => exact .same hb rfl rfl rfl

/-- Bytes that arrive are shown to the user in the same step, behind all that is unread. -/
theorem step_shown (hb : w.bufferInput.Inv) (hcb : w.callbacks.read = true) (hn : w.Next i t)
    (harr : i.arrives ≠ []) :
    t.pc = .readCb ∧ t.bufferInput.contents = w.bufferInput.contents ++ i.arrives := by
  have hpass := step_input hb hn
  cases hn with
  | @event mask read r hpc hd =>
    refine ⟨?_, hpass.stream⟩
    cases read with
    | error errno => exact absurd rfl harr
    | bytes dat =>
      rcases w.handleEvent_reads mask (.bytes dat) r with ⟨hreach, heq⟩ | ⟨hreach, -⟩
      · have hdat : dat ≠ [] := by
          intro hnil
          apply harr
          show (if reachesRead mask then dat else []) = []
          rw [hreach, if_pos rfl, hnil]
        rw [heq]
        exact handleRead_calls (w := (w.setRevents mask).setHandling true) hdat hcb r
      · refine absurd ?_ harr
        show (if reachesRead mask then dat else []) = []
        rw [hreach, if_neg Bool.false_ne_true]
  | _ => exact absurd rfl harr

end Handlers

/-! ## Whole runs -/

section Runs

variable {w t : Connection}

theorem established_input (p : Epoller) (c : ChanId) (cb : Callbacks) (rm : Remover) (ov : Nat) :
    (Connection.new p c cb rm ov).connectionEstablished.bufferInput = Buffer.new := by
  rw [connectionEstablished_eq]
  rfl

/-- What has been taken, and behind it what is unread, is what has arrived. -/
theorem run_input {ins : List Input} (hb : w.bufferInput.Inv)
    (hr : Machine.run step w ins = some t) : t.bufferInput.Inv ∧
      w.consumed ins ++ t.bufferInput.contents =
        w.bufferInput.contents ++ ins.flatMap Input.arrives := by
  induction ins generalizing w with
  | nil =>
    simp only [Machine.run_nil, Option.some.injEq] at hr
    subst hr
    exact ⟨hb, by simp [consumed, Machine.trace]⟩
  | cons i ins ih =>
    obtain ⟨m, hm, hrest⟩ := Machine.run_cons_iff.mp hr
    have hpass := step_input hb (step_next hm)
    obtain ⟨hinv, hstream⟩ := ih hpass.buffer hrest
    refine ⟨hinv, ?_⟩
    have hsplit : w.consumed (i :: ins) = w.takes i ++ m.consumed ins := by
      rw [consumed, Machine.trace, hm]
      rfl
    calc w.consumed (i :: ins) ++ t.bufferInput.contents
        = w.takes i ++ (m.bufferInput.contents ++ ins.flatMap Input.arrives) := by
          rw [hsplit, List.append_assoc, hstream]
      _ = w.bufferInput.contents ++ (i :: ins).flatMap Input.arrives := by
          rw [← List.append_assoc, hpass.stream, List.flatMap_cons, List.append_assoc]

/-- **The user sees the received stream.** After any run of an established connection, in
whatever state it is, the bytes user code has taken followed by the unread ones are the bytes
`readv` has delivered, in order; no assertion of `buffer_input_` has failed. If `read_cb_` is
set, a step in which bytes arrive stops in it, with these bytes behind all that is unread. -/
theorem input_complete (p : Epoller) (c : ChanId) (cb : Callbacks) (rm : Remover) (ov : Nat)
    (ins : List Input) (w : Connection)
    (hr : Machine.run step (Connection.new p c cb rm ov).connectionEstablished ins = some w) :
    (Connection.new p c cb rm ov).connectionEstablished.consumed ins ++ w.bufferInput.contents =
      ins.flatMap Input.arrives ∧
    w.bufferInput.asserts = [] ∧
    ∀ (i : Input) (t : Connection), w.step i = some t → w.callbacks.read = true →
      i.arrives ≠ [] →
        t.pc = .readCb ∧ t.bufferInput.contents = w.bufferInput.contents ++ i.arrives := by
  have hnew := established_input p c cb rm ov
  obtain ⟨hinv, hstream⟩ := run_input (hnew ▸ Buffer.inv_new) hr
  rw [hnew, Buffer.contents_new, List.nil_append] at hstream
  exact ⟨hstream, hinv.noAssert, fun i t ht hcb harr => step_shown hinv hcb (step_next ht) harr⟩

/-- Two reads, of which `read_cb_` takes only a part each time. -/
theorem input_complete_two_reads : ∃ w,
    Machine.run step (Connection.new (Epoller.new 8 (· + 1)) 3 ⟨false, false, true, false, false⟩
      .serverLoop 100).connectionEstablished
      [.event EPOLLIN (.bytes [65, 66]) (.error 0), .take 1, .ret (.error 0),
       .event EPOLLIN (.bytes [67, 68]) (.error 0), .take 2] = some w ∧
    w.bufferInput.contents = [68] ∧
    (Connection.new (Epoller.new 8 (· + 1)) 3 ⟨false, false, true, false, false⟩
      .serverLoop 100).connectionEstablished.consumed
      [.event EPOLLIN (.bytes [65, 66]) (.error 0), .take 1, .ret (.error 0),
       .event EPOLLIN (.bytes [67, 68]) (.error 0), .take 2] ++ w.bufferInput.contents =
      [65, 66, 67, 68] := by
  obtain ⟨w, hr, hw⟩ := Option.map_eq_some_iff.mp (show (Machine.run step (Connection.new
      (Epoller.new 8 (· + 1)) 3 ⟨false, false, true, false, false⟩ .serverLoop
      100).connectionEstablished [.event EPOLLIN (.bytes [65, 66]) (.error 0), .take 1,
      .ret (.error 0), .event EPOLLIN (.bytes [67, 68]) (.error 0), .take 2]).map
      (fun w => w.bufferInput.contents) = some [68] by decide +kernel)
  exact ⟨w, hr, hw, (input_complete _ 3 _ _ _ _ w hr).1⟩

end Runs

end Connection

end LinuxNet
