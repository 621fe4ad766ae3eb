import LinuxNet.Connection.Attached

/-!
# The order of the user's callbacks

`connection_cb_`, `read_cb_` and `disconnection_cb_` are called at once, by the handlers;
`write_complete_cb_` and `high_water_mark_cb_` are called by tasks. `HandleClose` does not
wait for those that are in the queue, and the writable part of a mask whose readable part
has closed the connection may queue another one. Nothing else runs a callback behind
`disconnection_cb_`.
-/

namespace LinuxNet

set_option autoImplicit false

open LinuxNet.Lib

inductive UserCallback where
  | connection | read | writeComplete | highWaterMark (waitSendSize : Nat) | disconnection
  deriving DecidableEq, Repr

/-- First `connection_cb_`, and nothing behind `disconnection_cb_`. -/
structure CallbackProtocol (cb : Callbacks) (log : List UserCallback) : Prop where
  opened : ∃ rest, log = (if cb.connection then [.connection] else []) ++ rest ∧
    .connection ∉ rest
  closed : ∀ before after, log = before ++ .disconnection :: after → after = []

namespace Connection

/-- The callback in which a handler has stopped. -/
def ConnPc.callback : ConnPc → List UserCallback
  | .readCb => [.read]
  | .disconnectionCb _ => [.disconnection]
  | _ => []

/-- The callback that the step from `w` to `t` runs, if any. -/
def calledBack (w : Connection) (i : Input) (t : Connection) : List UserCallback :=
  match i with
  | .event _ _ _ => ConnPc.callback t.pc
  | .task _ =>
    match w.taskList.head? with
    | some .writeComplete => [.writeComplete]
    | some (.highWaterMark n) => [.highWaterMark n]
    | some .forceCloseInLoop => if w.state = .connected then ConnPc.callback t.pc else []
    | _ => []
  | _ => []

/-- The callbacks of a run, that of `ConnectionEstablished` included. -/
def callbacksRun (w : Connection) (ins : List Input) : List UserCallback :=
  (if w.callbacks.connection then [.connection] else []) ++ Machine.trace step calledBack w ins

/-! ## What breaks the order -/

/-- The step runs `HandleClose`. -/
def closes (w : Connection) : Input → Bool
  | .event mask read _ =>
    mask.has (EPOLLHUP ||| EPOLLRDHUP) ||
      !mask.has EPOLLERR && mask.has (EPOLLIN ||| EPOLLPRI) && read == .bytes []
  | .task _ => w.taskList.head? == some .forceCloseInLoop && w.state == .connected
  | _ => false

/-- `disconnection_cb_` is called while a callback waits in the queue. -/
def Overtakes (w : Connection) (i : Input) : Prop :=
  w.callbacks.disconnection = true ∧ w.closes i = true ∧ ∃ x ∈ w.taskList, x.isNotice = true

/-- `HandleWrite` sends all that is pending and calls back. -/
def Completes (w : Connection) (r : SendResult) : Prop :=
  w.callbacks.writeComplete = true ∧ 0 < w.bufferOutput.readableBytes ∧
    w.bufferOutput.readableBytes ≤ r.taken

/-- It does so behind `disconnection_cb_`. -/
def FlushesLate (w : Connection) (i : Input) : Prop :=
  ∃ r, i = .ret r ∧ w.pc = .disconnectionCb true ∧ w.chan.revents.has EPOLLOUT = true ∧
    Completes w r

/-- Either of them. -/
def Disorders (w : Connection) (i : Input) : Prop := Overtakes w i ∨ FlushesLate w i

instance (w : Connection) (i : Input) : Decidable (Overtakes w i) :=
  inferInstanceAs (Decidable (_ ∧ _))

instance (w : Connection) (r : SendResult) : Decidable (Completes w r) :=
  inferInstanceAs (Decidable (_ ∧ _))

instance (w : Connection) : (i : Input) → Decidable (FlushesLate w i)
  | .ret r => decidable_of_iff (w.pc = .disconnectionCb true ∧
      w.chan.revents.has EPOLLOUT = true ∧ Completes w r) (by simp [FlushesLate])
  | .event _ _ _ | .send _ _ | .take _ | .call _ | .push _ | .task _ | .removeInLoop |
    .other _ _ => isFalse (by simp [FlushesLate])

instance (w : Connection) (i : Input) : Decidable (Disorders w i) :=
  inferInstanceAs (Decidable (_ ∨ _))

/-! ## The callbacks of a step -/

section CalledBack

variable {w t : Connection} {i : Input}

theorem handleClose_called (hd : w.callbacks.disconnection = true) (inRead : Bool)
    (r : SendResult) : (w.handleClose inRead r).pc = .disconnectionCb inRead ∧
      (w.handleClose inRead r).taskList = w.taskList := by
  unfold handleClose
  dsimp only
  split
  · exact ⟨rfl, rfl⟩
  · rename_i hn
    exact absurd hd hn

theorem handleClose_silent (hd : w.callbacks.disconnection = false) (inRead : Bool)
    (r : SendResult) : (w.handleClose inRead r).pc = .idle := by
  unfold handleClose
  dsimp only
  split
  · rename_i hn
    rw [show w.callbacks.disconnection = true from hn] at hd
    cases hd
  · exact handleCloseRest_pc _ inRead r

/-- With a mask that closes the connection `HandleEvent_` is `HandleClose`. -/
theorem handleEvent_closes {mask : EventMask} {read : Buffer.ReadvResult} {r : SendResult}
    (hcl : w.closes (.event mask read r) = true) :
    ∃ (q : Connection) (b : Bool), (w.setRevents mask).handleEvent read r = q.handleClose b r ∧
      q.callbacks = w.callbacks ∧ q.taskList = w.taskList := by
  have hrev := revents_setRevents w mask true
  simp only [closes, Bool.or_eq_true, Bool.and_eq_true, Bool.not_eq_true', beq_iff_eq] at hcl
  unfold handleEvent
  simp only [hrev]
  split
  · exact ⟨_, false, rfl, rfl, rfl⟩
  · rename_i hhup
    obtain ⟨⟨herr, hin⟩, rfl⟩ := hcl.resolve_left hhup
    simp only [herr, hin, Bool.false_eq_true, ↓reduceIte]
    obtain ⟨q, hq, -, hcb, hl⟩ := handleRead_eof ((w.setRevents mask).setHandling true) r
    exact ⟨q, true, hq, hcb, hl⟩

/-- With any other mask it does not reach `disconnection_cb_`. -/
theorem handleEvent_open {mask : EventMask} {read : Buffer.ReadvResult} {r : SendResult}
    (hcl : w.closes (.event mask read r) = false) (hpc : w.pc = .idle) (b : Bool) :
    ((w.setRevents mask).handleEvent read r).pc ≠ .disconnectionCb b := by
  have hrev := revents_setRevents w mask true
  simp only [closes, Bool.or_eq_false_iff, Bool.and_eq_false_iff, Bool.not_eq_false',
    beq_eq_false_iff_ne] at hcl
  obtain ⟨hhup, hrest⟩ := hcl
  have hend := (w.setRevents mask).eventHandled read r
  generalize (w.setRevents mask).handleEvent read r = t at hend ⊢
  cases hend with
  | close hhup' =>
    rw [hrev, hhup] at hhup'
    cases hhup'
  | error =>
    rw [show (((w.setRevents mask).setHandling true).setHandling false).pc = w.pc from rfl, hpc]
    exact ConnPc.noConfusion
  | read _ herr hin =>
    rw [hrev] at herr hin
    have hread : read ≠ .bytes [] := by
      rcases hrest with (herr' | hin') | hread
      · rw [herr'] at herr
        cases herr
      · rw [hin'] at hin
        cases hin
      · exact hread
    have hends := ((w.setRevents mask).setHandling true).readHandled read r
    generalize ((w.setRevents mask).setHandling true).handleRead read r = t at hends ⊢
    cases hends with
    | callback => exact ConnPc.noConfusion
    | write => exact ConnPc.noConfusion
    | eof heof => exact absurd heof hread
  | write => exact ConnPc.noConfusion

/-- A step that closes the connection ends in `HandleClose`. -/
theorem step_closes (hn : w.Next i t) (hcl : w.closes i = true) :
    ∃ (q : Connection) (b : Bool) (r : SendResult), t = q.handleClose b r ∧
      q.callbacks = w.callbacks ∧
      q.taskList = if i.isTask then w.taskList.tail else w.taskList := by
  cases hn with
  | @event mask read r =>
    obtain ⟨q, b, hq, hcb, hl⟩ := handleEvent_closes hcl
    exact ⟨q, b, r, hq, hcb, hl⟩
  | @task task rest r hpc hlist =>
    simp only [closes, Bool.and_eq_true, beq_iff_eq, hlist, List.head?_cons,
      Option.some.injEq] at hcl
    obtain ⟨rfl, hc⟩ := hcl
    refine ⟨{ w with taskList := rest }, false, r, ?_, rfl, by rw [hlist]; rfl⟩
    simp [runTask, forceCloseInLoop, hc]
  | _ => cases hcl

/-- No other step calls `disconnection_cb_`. -/
theorem step_open (hw : w.Attached) (hn : w.Next i t) (hcl : w.closes i = false) (b : Bool)
    (hpc : t.pc = .disconnectionCb b) : w.pc = .disconnectionCb b := by
  cases hn with
  | event hidle => exact absurd hpc (handleEvent_open hcl hidle b)
  | retUser => cases hpc
  | retRead => cases hpc
  | retClose =>
    rw [handleCloseRest_pc] at hpc
    cases hpc
  | @send dat r => exact (send_frame w dat r).pc.symm.trans hpc
  | @task task rest r hidle hlist =>
    cases task with
    | sendInLoop dat =>
      exact (send_frame { w with taskList := rest } dat r).pc.symm.trans hpc
    | shutdownWriteInLoop =>
      simp only [runTask, shutdownWriteInLoop] at hpc
      split at hpc <;> exact hpc
    | forceCloseInLoop =>
      have hclosed : w.state ≠ .connected := by
        intro hc
        simp [closes, hlist, hc] at hcl
      rw [runTask, show forceCloseInLoop { w with taskList := rest } r = { w with taskList := rest }
        from if_pos (hw.wired.closed hclosed)] at hpc
      exact hpc
    | connectionDestroy => exact hpc
    | writeComplete => cases hpc
    | highWaterMark n => cases hpc
  | _ => exact hpc

theorem not_connection_called (w : Connection) (i : Input) (t : Connection) :
    .connection ∉ calledBack w i t := by
  have hpc : ∀ pc : ConnPc, UserCallback.connection ∉ ConnPc.callback pc := by
    intro pc
    cases pc <;> simp [ConnPc.callback]
  unfold calledBack
  split
  · exact hpc _
  · split
    · simp
    · simp
    · split
      · exact hpc _
      · simp
    · simp
  · simp

theorem called_of_closes (hn : w.Next i t) (hcl : w.closes i = true)
    (hd : w.callbacks.disconnection = true) : calledBack w i t = [.disconnection] ∧
      t.taskList = if i.isTask then w.taskList.tail else w.taskList := by
  obtain ⟨q, b, r, rfl, hcb, hl⟩ := step_closes hn hcl
  obtain ⟨hpc, hlist⟩ := handleClose_called (hcb ▸ hd) b r
  refine ⟨?_, hlist.trans hl⟩
  cases i with
  | event mask read r => simp [calledBack, hpc, ConnPc.callback]
  | task r =>
    simp only [closes, Bool.and_eq_true, beq_iff_eq] at hcl
    simp [calledBack, hcl.1, hcl.2, hpc, ConnPc.callback]
  | _ => cases hcl

theorem disconnectionCb_of_called (hd : .disconnection ∈ calledBack w i t) :
    ∃ b, t.pc = .disconnectionCb b := by
  have hcallback : ∀ pc : ConnPc, UserCallback.disconnection ∈ ConnPc.callback pc →
      ∃ b, pc = .disconnectionCb b := by
    intro pc h
    cases pc <;> simp_all [ConnPc.callback]
  unfold calledBack at hd
  split at hd
  · exact hcallback _ hd
  · split at hd
    · simp at hd
    · simp at hd
    · split at hd
      · exact hcallback _ hd
      · simp at hd
    · simp at hd
  · simp at hd

theorem idle_of_called (hn : w.Next i t) {x : UserCallback} (hx : x ∈ calledBack w i t) :
    w.pc = .idle := by
  cases hn with
  | event hpc => exact hpc
  | task hpc => exact hpc
  | _ => simp [calledBack] at hx

/-- `disconnection_cb_` is called by `HandleClose`. -/
theorem closes_of_called (hw : w.Attached) (hn : w.Next i t)
    (hd : .disconnection ∈ calledBack w i t) :
    w.closes i = true ∧ w.callbacks.disconnection = true := by
  obtain ⟨b, hpc⟩ := disconnectionCb_of_called hd
  have hcl : w.closes i = true := by
    by_contra hcl
    have hat := step_open hw hn (Bool.eq_false_iff.mpr hcl) b hpc
    rw [idle_of_called hn hd] at hat
    cases hat
  refine ⟨hcl, ?_⟩
  obtain ⟨q, b', r, rfl, hcb, -⟩ := step_closes hn hcl
  by_contra hoff
  rw [← hcb] at hoff
  rw [handleClose_silent (Bool.eq_false_iff.mpr hoff)] at hpc
  cases hpc

end CalledBack

/-! ## The callbacks that a step queues -/

section Queued

variable {w t : Connection} {i : Input}

theorem queueWriteComplete_tasks (w : Connection) : w.queueWriteComplete.taskList =
    w.taskList ++ if w.callbacks.writeComplete = true then [.writeComplete] else [] := by
  unfold queueWriteComplete
  split
  · rfl
  · rw [List.append_nil]

theorem handleWrite_tasks (w : Connection) (r : SendResult) : (w.handleWrite r).taskList =
    w.taskList ++ if Completes w r then [.writeComplete] else [] := by
  unfold handleWrite
  dsimp only
  have hout : ∀ ok, ((w.observe (.handleWrite w.state)).check .handleWrite ok).bufferOutput =
      w.bufferOutput := fun ok => check_bufferOutput _ _ ok
  cases r with
  | error errno =>
    have hno : ¬ Completes w (.error errno) := fun h => absurd (h.2.1.trans_le h.2.2) (lt_irrefl _)
    rw [if_neg hno, List.append_nil]
    exact check_taskList _ _ _
  | accepted k =>
    simp only [hout]
    split
    · rename_i hpos
      split
      · rename_i hall
        have hiff : Completes w (.accepted k) ↔ w.callbacks.writeComplete = true :=
          ⟨fun h => h.1, fun h => ⟨h, by omega, show _ ≤ k by omega⟩⟩
        rw [queueWriteComplete_tasks]
        simp [updateEvent, observe, hiff]
      · rename_i hpart
        have hno : ¬ Completes w (.accepted k) := by
          rintro ⟨-, -, hle⟩
          simp only [SendResult.taken] at hle
          omega
        rw [if_neg hno, List.append_nil]
        exact check_taskList _ _ _
    · rename_i hzero
      have hno : ¬ Completes w (.accepted k) := by
        rintro ⟨-, hpos, hle⟩
        simp only [SendResult.taken] at hle
        omega
      rw [if_neg hno, List.append_nil]
      exact check_taskList _ _ _

theorem handleCloseRest_tasks (w : Connection) (inRead : Bool) (r : SendResult) :
    (w.handleCloseRest inRead r).taskList = w.removeCb.taskList ++
      if inRead = true ∧ w.chan.revents.has EPOLLOUT = true ∧ Completes w r then [.writeComplete]
      else [] := by
  have hcb : Completes w.removeCb r ↔ Completes w r := by
    unfold removeCb
    cases w.remover <;> rfl
  unfold handleCloseRest
  dsimp only
  split
  · rename_i hin
    unfold handleEventWrite
    dsimp only
    rw [revents_removeCb]
    split
    · rename_i hout
      show (w.removeCb.handleWrite r).taskList = _
      simp [handleWrite_tasks, hcb, hin, hout]
    · rename_i hout
      simp [hout, setHandling]
  · rename_i hin
    simp [hin, setHandling]

/-- Behind the close no callback runs, and none is queued unless `HandleWrite` does so. -/
theorem step_closed (hw : w.Attached) (hcalls : ∀ x ∈ w.inFlight, x.isCall = true)
    (hn : w.Next i t) (hs : w.state ≠ .connected) (hlist : ∀ x ∈ w.taskList, x.isNotice = false)
    (hlate : ¬ FlushesLate w i) :
    calledBack w i t = [] ∧ ∀ x ∈ t.taskList, x.isNotice = false := by
  cases hn with
  | event _ hd => exact absurd (hw.connected_of_deliverable hd) hs
  | retUser => exact ⟨rfl, hlist⟩
  | retRead hpc => exact absurd (hw.inRead hpc) hs
  | @retClose r inRead hpc =>
    have hno : ¬ (inRead = true ∧ w.chan.revents.has EPOLLOUT = true ∧ Completes w r) := by
      rintro ⟨rfl, hout, hc⟩
      exact hlate ⟨r, rfl, hpc, hout, hc⟩
    refine ⟨rfl, ?_⟩
    rw [handleCloseRest_tasks, if_neg hno, List.append_nil]
    unfold removeCb
    cases w.remover with
    | serverLoop => exact hlist
    | otherLoop => exact hlist
    | client => exact List.forall_mem_append.mpr ⟨hlist, by simp [ConnTask.isNotice]⟩
  | send hc => exact absurd hc hs
  | @push k task hget =>
    have hcall := hcalls task (List.mem_of_getElem? hget)
    refine ⟨rfl, List.forall_mem_append.mpr ⟨hlist, ?_⟩⟩
    cases task <;> simp_all [ConnTask.isCall, ConnTask.isNotice]
  | @task task rest r hpc hl =>
    have hhead : task.isNotice = false := hlist task (by rw [hl]; exact List.mem_cons_self)
    have hrest : ∀ x ∈ rest, x.isNotice = false :=
      fun x hx => hlist x (by rw [hl]; exact List.mem_cons_of_mem _ hx)
    cases task with
    | sendInLoop dat =>
      rw [runTask, show send_ { w with taskList := rest } dat r = { w with taskList := rest } from
        if_neg hs]
      exact ⟨by simp [calledBack, hl], hrest⟩
    | shutdownWriteInLoop =>
      refine ⟨by simp [calledBack, hl], ?_⟩
      simp only [runTask, shutdownWriteInLoop]
      split <;> exact hrest
    | forceCloseInLoop =>
      refine ⟨by simp [calledBack, hl, hs], ?_⟩
      rw [runTask, show forceCloseInLoop { w with taskList := rest } r = { w with taskList := rest }
        from if_pos (hw.wired.closed hs)]
      exact hrest
    | connectionDestroy => exact ⟨by simp [calledBack, hl], hrest⟩
    | writeComplete => cases hhead
    | highWaterMark n => cases hhead
  | removeInLoop => exact ⟨rfl, List.forall_mem_append.mpr ⟨hlist, by simp [ConnTask.isNotice]⟩⟩
  | _ => exact ⟨rfl, hlist⟩

theorem step_callbacks (hn : w.Next i t) : t.callbacks = w.callbacks := by
  cases hn with
  | event hpc hd => exact (own_frame (.event hpc hd) rfl).callbacks
  | @retRead r => exact (handleEventWrite_frame w r).callbacks
  | @retClose r inRead => exact (handleCloseRest_frame w inRead r).callbacks
  | @send dat r => exact (send_frame w dat r).callbacks
  | @task task rest r => exact (runTask_queue { w with taskList := rest } task r).1
  | _ => rfl

theorem step_calls (hcalls : ∀ x ∈ w.inFlight, x.isCall = true) (hn : w.Next i t) :
    ∀ x ∈ t.inFlight, x.isCall = true := by
  cases hn with
  | event hpc hd =>
    rw [(own_frame (.event hpc hd) rfl).inFlight]
    exact hcalls
  | @retRead r =>
    rw [(handleEventWrite_frame w r).inFlight]
    exact hcalls
  | @retClose r inRead =>
    rw [(handleCloseRest_frame w inRead r).inFlight]
    exact hcalls
  | @send dat r =>
    rw [(send_frame w dat r).inFlight]
    exact hcalls
  | @call task hcall =>
    exact List.forall_mem_append.mpr ⟨hcalls, by simpa using hcall⟩
  | @push k task => exact fun x hx => hcalls x (List.mem_of_mem_eraseIdx hx)
  | @task task rest r =>
    rw [(runTask_queue { w with taskList := rest } task r).2.1]
    exact hcalls
  | _ => exact hcalls

end Queued

/-! ## The history of a run -/

/-- The connection with the callbacks that have been run for it so far. -/
structure History (cb : Callbacks) (h : List UserCallback) (w : Connection) : Prop where
  attached : w.Attached
  callbacks : w.callbacks = cb
  calls : ∀ x ∈ w.inFlight, x.isCall = true
  opened : ∃ rest, h = (if cb.connection then [.connection] else []) ++ rest ∧
    .connection ∉ rest
  disconnected : ∀ b, w.pc = .disconnectionCb b → .disconnection ∈ h

/-- `disconnection_cb_` has not been run, or nothing has been run behind it and nothing
waits to be. -/
def Orderly (h : List UserCallback) (w : Connection) : Prop :=
  .disconnection ∉ h ∨ (∀ before after, h = before ++ .disconnection :: after → after = []) ∧
    w.state ≠ .connected ∧ ∀ x ∈ w.taskList, x.isNotice = false

/-- A callback has been run behind `disconnection_cb_`, or waits to be. -/
def Late (h : List UserCallback) (w : Connection) : Prop :=
  ∃ before after, h = before ++ .disconnection :: after ∧
    (after ≠ [] ∨ ∃ x ∈ w.taskList, x.isNotice = true)

section History

variable {cb : Callbacks} {h : List UserCallback} {w t : Connection} {i : Input}

theorem step_history (hh : History cb h w) (hn : w.Next i t) :
    History cb (h ++ calledBack w i t) t := by
  refine ⟨step_attached hh.attached hn, (step_callbacks hn).trans hh.callbacks,
    step_calls hh.calls hn, ?_, fun b hpc => ?_⟩
  · obtain ⟨rest, rfl, hrest⟩ := hh.opened
    refine ⟨rest ++ calledBack w i t, List.append_assoc _ _ _, fun hmem => ?_⟩
    rcases List.mem_append.mp hmem with hmem | hmem
    · exact hrest hmem
    · exact not_connection_called w i t hmem
  · by_cases hcl : w.closes i = true
    · have hd : w.callbacks.disconnection = true := by
        obtain ⟨q, b', r, rfl, hcb, -⟩ := step_closes hn hcl
        by_contra hoff
        rw [← hcb] at hoff
        rw [handleClose_silent (Bool.eq_false_iff.mpr hoff)] at hpc
        cases hpc
      rw [(called_of_closes hn hcl hd).1]
      exact List.mem_append_right _ List.mem_cons_self
    · have hat := step_open hh.attached hn (Bool.eq_false_iff.mpr hcl) b hpc
      exact List.mem_append_left _ (hh.disconnected b hat)

/-- The task that closes is no callback. -/
theorem notice_of_closes (hn : w.Next i t) (hcl : w.closes i = true) {x : ConnTask}
    (hx : x ∈ w.taskList) (hnote : x.isNotice = true) :
    x ∈ if i.isTask then w.taskList.tail else w.taskList := by
  cases hn with
  | event => exact hx
  | @task task rest r hpc hl =>
    simp only [closes, Bool.and_eq_true, beq_iff_eq, hl, List.head?_cons,
      Option.some.injEq] at hcl
    rw [hl] at hx ⊢
    rcases List.mem_cons.mp hx with rfl | hx
    · rw [hcl.1] at hnote
      cases hnote
    · exact hx
  | _ => cases hcl

/-- A callback that leaves the queue is run. -/
theorem called_of_taken (hn : w.Next i t) {x : ConnTask} (hx : x ∈ w.taskList)
    (hnote : x.isNotice = true)
    (hout : x ∉ if i.isTask then w.taskList.tail else w.taskList) : calledBack w i t ≠ [] := by
  cases hn with
  | @task task rest r hpc hl =>
    rw [hl] at hx hout
    rcases List.mem_cons.mp hx with rfl | hx
    · cases x with
      | writeComplete => simp [calledBack, hl]
      | highWaterMark n => simp [calledBack, hl]
      | _ => cases hnote
    · exact absurd hx hout
  | _ => exact absurd hx hout

theorem step_orderly (hh : History cb h w) (ho : Orderly h w) (hg : ¬ Disorders w i)
    (hn : w.Next i t) : Orderly (h ++ calledBack w i t) t := by
  rcases ho with hopen | ⟨hclosed, hs, hlist⟩
  · by_cases hd : .disconnection ∈ calledBack w i t
    · obtain ⟨hcl, hcb⟩ := closes_of_called hh.attached hn hd
      obtain ⟨hcalled, htasks⟩ := called_of_closes hn hcl hcb
      rw [hcalled]
      refine .inr ⟨fun before after heq => ?_, ?_, fun x hx => ?_⟩
      · exact ((List.append_cons_inj_of_notMem hopen List.not_mem_nil).mp heq).2.2.symm
      · obtain ⟨q, b, r, rfl, -⟩ := step_closes hn hcl
        exact handleClose_state q b r
      · by_contra hx'
        refine hg (.inl ⟨hcb, hcl, x, ?_, by simpa using hx'⟩)
        rw [htasks] at hx
        split at hx
        · exact List.mem_of_mem_tail hx
        · exact hx
    · refine .inl fun hmem => ?_
      rcases List.mem_append.mp hmem with hmem | hmem
      · exact hopen hmem
      · exact hd hmem
  · have hlate : ¬ FlushesLate w i := fun h => hg (.inr h)
    obtain ⟨hcalled, hlist'⟩ := step_closed hh.attached hh.calls hn hs hlist hlate
    rw [hcalled, List.append_nil]
    exact .inr ⟨hclosed, fun hc => hs (step_stream hn hc).connected, hlist'⟩

theorem late_of_disorders (hh : History cb h w) (hg : Disorders w i) (hn : w.Next i t) :
    Late (h ++ calledBack w i t) t := by
  rcases hg with ⟨hcb, hcl, x, hx, hnote⟩ | ⟨r, rfl, hpc, hout, hcomp⟩
  · obtain ⟨hcalled, htasks⟩ := called_of_closes hn hcl hcb
    refine ⟨h, [], by rw [hcalled], .inr ⟨x, ?_, hnote⟩⟩
    rw [htasks]
    exact notice_of_closes hn hcl hx hnote
  · obtain ⟨before, after, rfl⟩ := List.append_of_mem (hh.disconnected true hpc)
    refine ⟨before, after ++ calledBack w (.ret r) t, by simp, .inr ⟨.writeComplete, ?_, rfl⟩⟩
    cases hn with
    | retUser hpc' =>
      rw [hpc'] at hpc
      cases hpc
    | retRead hpc' =>
      rw [hpc'] at hpc
      cases hpc
    | @retClose r inRead hpc' =>
      rw [hpc', ConnPc.disconnectionCb.injEq] at hpc
      rw [handleCloseRest_tasks, if_pos ⟨hpc, hout, hcomp⟩]
      exact List.mem_append_right _ List.mem_cons_self

theorem step_late (hl : Late h w) (hn : w.Next i t) : Late (h ++ calledBack w i t) t := by
  obtain ⟨before, after, rfl, hl⟩ := hl
  refine ⟨before, after ++ calledBack w i t, by simp, ?_⟩
  rcases hl with hne | ⟨x, hx, hnote⟩
  · exact .inl fun hnil => hne (List.append_eq_nil_iff.mp hnil).1
  · obtain ⟨ts, hts⟩ := step_tasks hn
    by_cases hrest : x ∈ if i.isTask then w.taskList.tail else w.taskList
    · refine .inr ⟨x, ?_, hnote⟩
      rw [hts]
      exact List.mem_append_left _ hrest
    · refine .inl fun hnil => called_of_taken hn hx hnote hrest (List.append_eq_nil_iff.mp hnil).2

end History

theorem history_established {p : Epoller} (hp : p.Registry) {c : ChanId}
    (ha : p.Admissible (c, .enableReading)) (cb : Callbacks) (rm : Remover) (ov : Nat) :
    History cb (if cb.connection then [.connection] else [])
      (Connection.new p c cb rm ov).connectionEstablished := by
  have hview : (Connection.new p c cb rm ov).connectionEstablished.callbacks = cb ∧
      (Connection.new p c cb rm ov).connectionEstablished.inFlight = [] ∧
      ∀ b, (Connection.new p c cb rm ov).connectionEstablished.pc ≠ .disconnectionCb b := by
    rw [connectionEstablished_eq]
    refine ⟨rfl, rfl, fun b => ?_⟩
    dsimp only
    split <;> simp [Connection.new]
  obtain ⟨hcb, hcalls, hpc⟩ := hview
  refine ⟨attached_established hp ha cb rm ov, hcb, ?_, ⟨[], (List.append_nil _).symm, nofun⟩,
    fun b h => absurd h (hpc b)⟩
  rw [hcalls]
  nofun

theorem callbacksRun_established (p : Epoller) (c : ChanId) (cb : Callbacks) (rm : Remover)
    (ov : Nat) (ins : List Input) :
    callbacksRun (Connection.new p c cb rm ov).connectionEstablished ins =
      (if cb.connection then [.connection] else []) ++ Machine.trace step calledBack
        (Connection.new p c cb rm ov).connectionEstablished ins := by
  have hcb : (Connection.new p c cb rm ov).connectionEstablished.callbacks = cb := by
    rw [connectionEstablished_eq]
    rfl
  rw [callbacksRun, hcb]

/-- **The callbacks come in order exactly when none is overtaken.** In every run of an
established connection the callbacks are those of the protocol if no step runs
`disconnection_cb_` while another callback waits in the queue or queues one behind it. Such
a step breaks the protocol as soon as the queue has been worked off. -/
theorem callbacks_ordered_iff (p : Epoller) (hp : p.Registry) (c : ChanId)
    (ha : p.Admissible (c, .enableReading)) (cb : Callbacks) (rm : Remover) (ov : Nat)
    (ins : List Input) (w : Connection)
    (hr : Machine.run step (Connection.new p c cb rm ov).connectionEstablished ins = some w) :
    (Machine.Along step (fun w i => ¬ Disorders w i)
        (Connection.new p c cb rm ov).connectionEstablished ins →
      CallbackProtocol cb
        (callbacksRun (Connection.new p c cb rm ov).connectionEstablished ins)) ∧
    ((∀ x ∈ w.taskList, x.isNotice = false) →
      (CallbackProtocol cb
          (callbacksRun (Connection.new p c cb rm ov).connectionEstablished ins) ↔
        Machine.Along step (fun w i => ¬ Disorders w i)
          (Connection.new p c cb rm ov).connectionEstablished ins)) := by
  have hinit := history_established hp ha cb rm ov
  rw [callbacksRun_established]
  have hkeep : Machine.Along step (fun w i => ¬ Disorders w i)
        (Connection.new p c cb rm ov).connectionEstablished ins →
      CallbackProtocol cb ((if cb.connection then [.connection] else []) ++
        Machine.trace step calledBack (Connection.new p c cb rm ov).connectionEstablished ins) := by
    intro hal
    have hopen : Orderly (if cb.connection then [.connection] else [])
        (Connection.new p c cb rm ov).connectionEstablished := by
      refine .inl ?_
      split <;> simp
    have hstep : ∀ {h w i t}, History cb h w ∧ Orderly h w → ¬ Disorders w i → step w i = some t →
        History cb (h ++ calledBack w i t) t ∧ Orderly (h ++ calledBack w i t) t :=
      fun hP hg hs => ⟨step_history hP.1 (step_next hs), step_orderly hP.1 hP.2 hg (step_next hs)⟩
    obtain ⟨hh, ho⟩ := Machine.trace_invariant_along
      (P := fun h w => History cb h w ∧ Orderly h w) hstep ⟨hinit, hopen⟩ hal hr
    refine ⟨hh.opened, fun before after heq => ?_⟩
    rcases ho with hnone | ⟨hclosed, -⟩
    · refine absurd ?_ hnone
      rw [heq]
      exact List.mem_append_right _ List.mem_cons_self
    · exact hclosed before after heq
  refine ⟨hkeep, fun hempty => ⟨fun hproto => ?_, hkeep⟩⟩
  by_contra hal
  have hhist : ∀ {h w i t}, History cb h w → step w i = some t →
      History cb (h ++ calledBack w i t) t := fun hh hs => step_history hh (step_next hs)
  have henter : ∀ {h w i t}, History cb h w → ¬ ¬ Disorders w i → step w i = some t →
      Late (h ++ calledBack w i t) t :=
    fun hh hg hs => late_of_disorders hh (not_not.mp hg) (step_next hs)
  have hlate : ∀ {h w i t}, History cb h w → Late h w → step w i = some t →
      Late (h ++ calledBack w i t) t := fun _ hl hs => step_late hl (step_next hs)
  obtain ⟨before, after, heq, hne | ⟨x, hx, hnote⟩⟩ :=
    Machine.trace_of_not_along (P := History cb) (Q := Late) hhist henter hlate hinit hal hr
  · exact hne (hproto.closed before after heq)
  · rw [hempty x hx] at hnote
    cases hnote

/-- `read_cb_` answers at once; the peer hangs up when `write_complete_cb_` has run. -/
theorem callbacks_ordered_iff_hup : ∃ w,
    Machine.run step (Connection.new (Epoller.new 8 (· + 1)) 3 ⟨true, true, true, true, false⟩
      .serverLoop 100).connectionEstablished
      [.ret (.error 0), .event EPOLLIN (.bytes [67]) (.error 0), .send [65] (.accepted 1),
       .ret (.error 0), .task (.error 0), .ret (.error 0),
       .event EPOLLHUP (.error 0) (.error 0)] = some w ∧
    callbacksRun (Connection.new (Epoller.new 8 (· + 1)) 3 ⟨true, true, true, true, false⟩
      .serverLoop 100).connectionEstablished
      [.ret (.error 0), .event EPOLLIN (.bytes [67]) (.error 0), .send [65] (.accepted 1),
       .ret (.error 0), .task (.error 0), .ret (.error 0),
       .event EPOLLHUP (.error 0) (.error 0)] =
      [.connection, .read, .writeComplete, .disconnection] ∧
    CallbackProtocol ⟨true, true, true, true, false⟩
      (callbacksRun (Connection.new (Epoller.new 8 (· + 1)) 3 ⟨true, true, true, true, false⟩
        .serverLoop 100).connectionEstablished
        [.ret (.error 0), .event EPOLLIN (.bytes [67]) (.error 0), .send [65] (.accepted 1),
         .ret (.error 0), .task (.error 0), .ret (.error 0),
         .event EPOLLHUP (.error 0) (.error 0)]) := by
  have ha : (Epoller.new 8 (· + 1)).Admissible (3, .enableReading) :=
    ⟨by decide, by decide, fun _ _ c _ _ => rfl⟩
  obtain ⟨w, hr⟩ := Option.isSome_iff_exists.mp (show (Machine.run step (Connection.new
      (Epoller.new 8 (· + 1)) 3 ⟨true, true, true, true, false⟩ .serverLoop
      100).connectionEstablished [.ret (.error 0), .event EPOLLIN (.bytes [67]) (.error 0),
      .send [65] (.accepted 1), .ret (.error 0), .task (.error 0), .ret (.error 0),
      .event EPOLLHUP (.error 0) (.error 0)]).isSome = true by decide +kernel)
  refine ⟨w, hr, by decide +kernel, ?_⟩
  have hiff := callbacks_ordered_iff _ (Epoller.registry_new _ _) 3 ha _ _ _ _ w hr
  exact hiff.1 (by decide +kernel)

/-- `read_cb_` calls `ForceClose` and then `Send`: the close is queued in front of
`write_complete_cb_`, which is run for a connection that is already destroyed. -/
theorem callbacks_overtaken : ∃ w,
    Machine.run step (Connection.new (Epoller.new 8 (· + 1)) 3 ⟨true, true, true, true, false⟩
      .serverLoop 100).connectionEstablished
      [.ret (.error 0), .event EPOLLIN (.bytes [67]) (.error 0), .call .forceCloseInLoop, .push 0,
       .send [65] (.accepted 1), .ret (.error 0), .task (.error 0), .ret (.error 0),
       .task (.error 0)] = some w ∧
    w.state = .disconnected ∧
    callbacksRun (Connection.new (Epoller.new 8 (· + 1)) 3 ⟨true, true, true, true, false⟩
      .serverLoop 100).connectionEstablished
      [.ret (.error 0), .event EPOLLIN (.bytes [67]) (.error 0), .call .forceCloseInLoop, .push 0,
       .send [65] (.accepted 1), .ret (.error 0), .task (.error 0), .ret (.error 0),
       .task (.error 0)] = [.connection, .read, .disconnection, .writeComplete] ∧
    ¬ CallbackProtocol ⟨true, true, true, true, false⟩
      (callbacksRun (Connection.new (Epoller.new 8 (· + 1)) 3 ⟨true, true, true, true, false⟩
        .serverLoop 100).connectionEstablished
        [.ret (.error 0), .event EPOLLIN (.bytes [67]) (.error 0), .call .forceCloseInLoop,
         .push 0, .send [65] (.accepted 1), .ret (.error 0), .task (.error 0), .ret (.error 0),
         .task (.error 0)]) := by
  obtain ⟨w, hr, hs⟩ := Option.map_eq_some_iff.mp (show (Machine.run step (Connection.new
      (Epoller.new 8 (· + 1)) 3 ⟨true, true, true, true, false⟩ .serverLoop
      100).connectionEstablished [.ret (.error 0), .event EPOLLIN (.bytes [67]) (.error 0),
      .call .forceCloseInLoop, .push 0, .send [65] (.accepted 1), .ret (.error 0),
      .task (.error 0), .ret (.error 0), .task (.error 0)]).map (fun w => w.state) =
      some .disconnected by decide +kernel)
  have hrun : callbacksRun (Connection.new (Epoller.new 8 (· + 1)) 3 ⟨true, true, true, true, false⟩
      .serverLoop 100).connectionEstablished
      [.ret (.error 0), .event EPOLLIN (.bytes [67]) (.error 0), .call .forceCloseInLoop, .push 0,
       .send [65] (.accepted 1), .ret (.error 0), .task (.error 0), .ret (.error 0),
       .task (.error 0)] = [.connection, .read, .disconnection, .writeComplete] := by
    decide +kernel
  refine ⟨w, hr, hs, hrun, fun hproto => ?_⟩
  cases hproto.closed [.connection, .read] [.writeComplete] hrun

end Connection

end LinuxNet
