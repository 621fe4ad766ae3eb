import LinuxNet.Connection.Close

/-!
# The write interest and the output buffer

While a connection is CONNECTED the write interest is on exactly when `buffer_output_`
holds bytes (`View.Mirror`). The buffer is filled by `_Send`, which turns the interest on
behind the append, and emptied by `HandleWrite`, which turns it off behind the last byte.
A writable event is reported for a channel with the interest only, and the interest
outlasts `read_cb_`, so `HandleWrite` always finds something to send.
-/

namespace LinuxNet

set_option autoImplicit false

open LinuxNet.Lib

namespace Connection

/-! ## What is observed during a step -/

/-- Entry to and exit from `_Send`, `HandleRead` and `HandleWrite`. -/
inductive Point where
  | sendEntry | sendExit | readEntry | readExit | writeEntry | writeExit
  deriving DecidableEq, Repr

def observedSend (w : Connection) (dat : List UInt8) (r : SendResult) : List (Point × Connection) :=
  [(.sendEntry, w), (.sendExit, w.send_ dat r)]

/-- In `handleEventWrite`. -/
def observedEventWrite (w : Connection) (r : SendResult) : List (Point × Connection) :=
  if w.chan.revents.has EPOLLOUT then [(.writeEntry, w), (.writeExit, w.handleWrite r)] else []

/-- In `handleCloseRest`; the return from `HandleClose` is that from `HandleRead` too. -/
def observedCloseRest (w : Connection) (inRead : Bool) (r : SendResult) :
    List (Point × Connection) :=
  if inRead then (.readExit, w.removeCb) :: w.removeCb.observedEventWrite r else []

/-- In `handleClose`. -/
def observedClose (w : Connection) (inRead : Bool) (r : SendResult) : List (Point × Connection) :=
  let w := { w with state := .disconnecting }
  let w := w.updateEvent .disableAll
  let w := w.observe .handleClose
  if w.callbacks.disconnection then [] else w.observedCloseRest inRead r

/-- In `handleRead`. -/
def observedRead (w : Connection) (read : Buffer.ReadvResult) (r : SendResult) :
    List (Point × Connection) :=
  let w' := (w.observe (.handleRead w.state)).check .handleRead (w.state = .connected)
  let (result, buffer) := w'.bufferInput.readFd read
  let w' := { w' with bufferInput := buffer }
  (.readEntry, w) ::
    if 0 < result.rlen then
      if w'.callbacks.read then [] else (.readExit, w') :: w'.observedEventWrite r
    else if result.rlen = 0 then w'.observedClose true r
    else (.readExit, w') :: w'.observedEventWrite r

/-- In `handleEvent`. -/
def observedEvent (w : Connection) (read : Buffer.ReadvResult) (r : SendResult) :
    List (Point × Connection) :=
  let w := w.setHandling true
  let revents := w.chan.revents
  if revents.has (EPOLLHUP ||| EPOLLRDHUP) then w.observedClose false r
  else if revents.has EPOLLERR then []
  else if revents.has (EPOLLIN ||| EPOLLPRI) then w.observedRead read r
  else w.observedEventWrite r

/-- In `runTask`. -/
def observedTask (w : Connection) (t : ConnTask) (r : SendResult) : List (Point × Connection) :=
  match t with
  | .sendInLoop dat => w.observedSend dat r
  | .forceCloseInLoop =>
    if w.state = .disconnecting ∨ w.state = .disconnected then [] else w.observedClose false r
  | _ => []

/-- The connection at the points that the step on `i` passes, in order. -/
def observed (w : Connection) : Input → List (Point × Connection)
  | .event mask read r => (w.setRevents mask).observedEvent read r
  | .ret r =>
    match w.pc with
    | .idle | .userCb => []
    | .readCb => (.readExit, w) :: w.observedEventWrite r
    | .disconnectionCb inRead => w.observedCloseRest inRead r
  | .send dat r => if w.state = .connected then w.observedSend dat r else []
  | .task r =>
    match w.taskList with
    | [] => []
    | t :: rest => { w with taskList := rest }.observedTask t r
  | _ => []

/-! ## The invariant of the view -/

/-- The write interest is on exactly when the buffer holds bytes. -/
structure View.Mirror (v : View) : Prop where
  flow : v.Flow
  pending : v.writing = true → v.output.contents ≠ []

section Mirror

variable {v : View}

theorem View.Mirror.writing_iff (h : v.Mirror) :
    v.writing = true ↔ 0 < v.output.readableBytes := by
  rw [← h.flow.buffer.length_contents, List.length_pos_iff]
  refine ⟨h.pending, fun hne => ?_⟩
  by_contra hoff
  exact hne (h.flow.handover (by simpa using hoff))

theorem View.Mirror.send (h : v.Mirror) (dat : List UInt8) (r : SendResult) :
    (v.send dat r).Mirror := by
  refine ⟨h.flow.send dat r, ?_⟩
  unfold View.send
  split
  · exact h.pending
  · generalize (if v.writing = true then 0 else min r.taken dat.length) = k
    intro hon
    by_cases hk : k < dat.length
    · simp only [hk, ↓reduceIte, (Buffer.append_spec h.flow.buffer _).2]
      intro hnil
      have hdrop := List.drop_eq_nil_iff.mp (List.append_eq_nil_iff.mp hnil).2
      omega
    · simp only [hk, decide_false, Bool.or_false, ↓reduceIte] at hon ⊢
      exact h.pending hon

theorem View.Mirror.flush (h : v.Mirror) (r : SendResult) : (v.flush r).Mirror := by
  refine ⟨h.flow.flush r, ?_⟩
  unfold View.flush
  dsimp only
  split
  · exact h.pending
  · intro hon
    simp only [Bool.and_eq_true, decide_eq_true_eq] at hon
    have hle := Nat.min_le_right r.taken v.output.readableBytes
    rw [(Buffer.retrieve_spec h.flow.buffer hle).2]
    intro hnil
    have hdrop := List.drop_eq_nil_iff.mp hnil
    rw [h.flow.buffer.length_contents] at hdrop
    exact hon.2 (Nat.le_antisymm hle hdrop)

end Mirror

/-! ## The points of a step -/

/-- What holds of an observation made in state CONNECTED. -/
def Seen (o : Point × Connection) : Prop :=
  o.2.state = .connected → o.2.view.Mirror ∧ (o.1 = .writeEntry → o.2.isWriting = true)

section Points

variable {w : Connection}

theorem seen_of_mirror {p : Point} (hm : w.state = .connected → w.view.Mirror)
    (hp : p ≠ .writeEntry) : Seen (p, w) :=
  fun hc => ⟨hm hc, fun hw => absurd hw hp⟩

theorem seen_send (hm : w.state = .connected → w.view.Mirror) (dat : List UInt8) (r : SendResult) :
    ∀ o ∈ w.observedSend dat r, Seen o := by
  have hsend : (w.send_ dat r).state = .connected → (w.send_ dat r).view.Mirror := by
    intro hc
    by_cases hw : w.state = .connected
    · rw [view_send_ hw]
      exact (hm hw).send dat r
    · rw [show w.send_ dat r = w from if_neg hw] at hc
      exact absurd hc hw
  intro o ho
  simp only [observedSend, List.mem_cons, List.not_mem_nil, or_false] at ho
  rcases ho with rfl | rfl
  · exact seen_of_mirror hm nofun
  · exact seen_of_mirror hsend nofun

theorem seen_eventWrite (hm : w.state = .connected → w.view.Mirror)
    (hout : w.state = .connected → w.chan.revents.has EPOLLOUT = true → w.isWriting = true)
    (r : SendResult) : ∀ o ∈ w.observedEventWrite r, Seen o := by
  intro o ho
  unfold observedEventWrite at ho
  split at ho
  · rename_i hrev
    simp only [List.mem_cons, List.not_mem_nil, or_false] at ho
    rcases ho with rfl | rfl
    · exact fun hc => ⟨hm hc, fun _ => hout hc hrev⟩
    · refine seen_of_mirror (fun hc => ?_) nofun
      rw [handleWrite_state] at hc
      rw [view_handleWrite]
      exact (hm hc).flush r
  · cases ho

theorem seen_closeRest (hs : w.state ≠ .connected) (inRead : Bool) (r : SendResult) :
    ∀ o ∈ w.observedCloseRest inRead r, Seen o := by
  have hclosed := removeCb_state hs
  intro o ho
  unfold observedCloseRest at ho
  split at ho
  · rcases List.mem_cons.mp ho with rfl | ho
    · exact fun hc => absurd hc hclosed
    · exact seen_eventWrite (fun hc => absurd hc hclosed) (fun hc => absurd hc hclosed) r o ho
  · cases ho

theorem seen_close (inRead : Bool) (r : SendResult) : ∀ o ∈ w.observedClose inRead r, Seen o := by
  intro o ho
  unfold observedClose at ho
  dsimp only at ho
  split at ho
  · cases ho
  · exact seen_closeRest (by simp [observe, updateEvent]) inRead r o ho

theorem seen_read (hm : w.state = .connected → w.view.Mirror)
    (hout : w.state = .connected → w.chan.revents.has EPOLLOUT = true → w.isWriting = true)
    (read : Buffer.ReadvResult) (r : SendResult) : ∀ o ∈ w.observedRead read r, Seen o := by
  generalize hq : (w.observe (.handleRead w.state)).check .handleRead (w.state = .connected) = q
  have hv : q.view = w.view := by rw [← hq, view_check, view_observe]
  have hs : q.state = w.state := congrArg View.state hv
  have hch : q.chan = w.chan := by
    rw [← hq, check_chan]
    rfl
  have hread : ∀ b : Buffer, ∀ o ∈ (.readExit, { q with bufferInput := b }) ::
      ({ q with bufferInput := b } : Connection).observedEventWrite r, Seen o := by
    intro b o ho
    have hm' : q.state = .connected → q.view.Mirror := fun hc => hv ▸ hm (hs.symm.trans hc)
    rcases List.mem_cons.mp ho with rfl | ho
    · exact seen_of_mirror hm' nofun
    · refine seen_eventWrite (w := { q with bufferInput := b }) hm' (fun hc hrev => ?_) r o ho
      exact (congrArg View.writing hv).trans (hout (hs.symm.trans hc) (hch ▸ hrev))
  intro o ho
  unfold observedRead at ho
  simp only [hq] at ho
  rcases List.mem_cons.mp ho with rfl | ho
  · exact seen_of_mirror hm nofun
  · split at ho
    · split at ho
      · cases ho
      · exact hread _ o ho
    · split at ho
      · exact seen_close _ r o ho
      · exact hread _ o ho

end Points

/-! ## The interest outlasts the read callback -/

section Reading

variable {w t : Connection} {i : Input}

/-- A writable event needs the write interest. -/
theorem writing_of_deliverable (h : w.Tidy) {mask : EventMask} (hd : w.deliverable mask = true)
    (hout : mask.has EPOLLOUT = true) : w.isWriting = true := by
  unfold deliverable at hd
  split at hd
  · cases hd
  · rename_i m c hk
    simp only [Bool.and_eq_true, beq_iff_eq] at hd
    obtain ⟨rfl, hmask⟩ := hd
    have hm : m = w.chan.events := ((h.registry.interest _ _ _).mp hk).2.2
    have hbit := EventMask.has_of_and_not hmask hout
    rw [EventMask.has_or, EventMask.has_or] at hbit
    rw [isWriting, Channel.isWriting, ← hm]
    simpa [EventMask.has, EPOLLERR, EPOLLHUP, EPOLLOUT, Channel.kWriteEvent] using hbit

/-- The program counter behind `HandleClose`. -/
theorem handleClose_pc (w : Connection) (inRead : Bool) (r : SendResult) :
    (w.handleClose inRead r).pc ≠ .readCb := by
  unfold handleClose
  dsimp only
  split
  · nofun
  · rw [handleCloseRest_pc]
    nofun

theorem handleRead_readCb {read : Buffer.ReadvResult} {r : SendResult}
    (hpc : (w.handleRead read r).pc = .readCb) :
    (w.handleRead read r).chan = w.chan ∧ (w.handleRead read r).view = w.view := by
  have hend := w.readHandled read r
  generalize w.handleRead read r = t at hend hpc ⊢
  cases hend with
  | callback => exact ⟨rfl, rfl⟩
  | write => cases hpc
  | eof => exact absurd hpc (handleClose_pc _ _ _)

/-- `HandleEvent_` stops in `read_cb_` with the mask and the interest it began with. -/
theorem handleEvent_readCb {mask : EventMask} {read : Buffer.ReadvResult} {r : SendResult}
    (hidle : w.pc = .idle) (hpc : ((w.setRevents mask).handleEvent read r).pc = .readCb) :
    ((w.setRevents mask).handleEvent read r).chan.revents = mask ∧
      ((w.setRevents mask).handleEvent read r).isWriting = w.isWriting := by
  have hrev := revents_setRevents w mask true
  have hv : ((w.setRevents mask).setHandling true).view = w.view := by simp
  have hend := (w.setRevents mask).eventHandled read r
  generalize (w.setRevents mask).handleEvent read r = t at hend hpc ⊢
  cases hend with
  | close => exact absurd hpc (handleClose_pc _ _ _)
  | error =>
    rw [show (((w.setRevents mask).setHandling true).setHandling false).pc = w.pc from rfl,
      hidle] at hpc
    cases hpc
  | read =>
    obtain ⟨hch, hview⟩ := handleRead_readCb hpc
    exact ⟨hch ▸ hrev, congrArg View.writing (hview.trans hv)⟩
  | write => cases hpc

theorem runTask_pc (hidle : w.pc = .idle) (t : ConnTask) (r : SendResult) :
    (w.runTask t r).pc ≠ .readCb := by
  cases t with
  | sendInLoop dat =>
    rw [runTask, (send_frame w dat r).pc, hidle]
    decide
  | shutdownWriteInLoop =>
    simp only [runTask, shutdownWriteInLoop]
    split
    · rw [hidle]
      decide
    · rw [hidle]
      decide
  | forceCloseInLoop =>
    simp only [runTask, forceCloseInLoop]
    split
    · rw [hidle]
      decide
    · exact handleClose_pc _ _ _
  | connectionDestroy =>
    rw [runTask, show w.connectionDestroy.pc = w.pc from rfl, hidle]
    decide
  | writeComplete =>
    show ConnPc.userCb ≠ .readCb
    decide
  | highWaterMark n =>
    show ConnPc.userCb ≠ .readCb
    decide

/-- What holds of a connection as long as it is connected. -/
structure Mirrored (w : Connection) : Prop where
  good : w.Good
  mirror : w.view.Mirror
  reading : w.pc = .readCb → w.chan.revents.has EPOLLOUT = true → w.isWriting = true

theorem View.writing_send {v : View} (h : v.writing = true) (dat : List UInt8) (r : SendResult) :
    (v.send dat r).writing = true := by
  unfold View.send
  rw [if_neg (by simp [h])]
  simp [h]

theorem step_reading (h : w.Mirrored) (hn : w.Next i t) (hpc : t.pc = .readCb)
    (hout : t.chan.revents.has EPOLLOUT = true) : t.isWriting = true := by
  cases hn with
  | @event mask read r hidle hd =>
    obtain ⟨hrev, hwriting⟩ := handleEvent_readCb hidle hpc
    rw [hrev] at hout
    rw [hwriting]
    exact writing_of_deliverable h.good.tidy hd hout
  | retUser => cases hpc
  | retRead => cases hpc
  | retClose =>
    rw [handleCloseRest_pc] at hpc
    cases hpc
  | @send dat r hc =>
    have hframe := send_frame w dat r
    rw [hframe.revents] at hout
    have hon : w.view.writing = true := h.reading (hframe.pc.symm.trans hpc) hout
    rw [← view_writing, view_send_ hc]
    exact View.writing_send hon dat r
  | @task task rest r hidle =>
    exact absurd hpc (runTask_pc (w := { w with taskList := rest }) hidle task r)
  | @other c op hne =>
    have hch := chan_other w hne op
    rw [hch] at hout
    rw [isWriting, hch]
    exact h.reading hpc hout
  | _ => exact h.reading hpc hout

theorem step_mirrored (h : w.state = .connected → w.Mirrored) (hn : w.Next i t)
    (hc : t.state = .connected) : t.Mirrored := by
  have hw : w.Mirrored := h (step_stream hn hc).connected
  have hmove := step_moves hn hc
  have heof : ¬ EofWithOut i := fun hi => eofWithOut_state hi hn hc
  refine ⟨step_good hw.good heof hn, ?_, step_reading hw hn⟩
  generalize t.view = v at hmove
  cases hmove with
  | same => exact hw.mirror
  | flush _ _ r => exact hw.mirror.flush r
  | @send dat r => exact hw.mirror.send dat r

/-- Everything a step passes is as it should be. -/
theorem observed_seen (h : w.state = .connected → w.Mirrored) (hn : w.Next i t) :
    ∀ o ∈ w.observed i, Seen o := by
  have hm : w.state = .connected → w.view.Mirror := fun hc => (h hc).mirror
  cases hn with
  | @event mask read r hidle hd =>
    have hrev := revents_setRevents w mask true
    have hv : ((w.setRevents mask).setHandling true).view = w.view := by simp
    have hout : w.state = .connected →
        ((w.setRevents mask).setHandling true).chan.revents.has EPOLLOUT = true →
        ((w.setRevents mask).setHandling true).isWriting = true := by
      intro hc hbit
      rw [hrev] at hbit
      exact (congrArg View.writing hv).trans (writing_of_deliverable (h hc).good.tidy hd hbit)
    have hm' := fun hc => hv ▸ hm hc
    intro o ho
    simp only [observed, observedEvent] at ho
    split at ho
    · exact seen_close _ r o ho
    · split at ho
      · cases ho
      · split at ho
        · exact seen_read hm' hout read r o ho
        · exact seen_eventWrite hm' hout r o ho
  | retUser hpc =>
    intro o ho
    simp only [observed, hpc] at ho
    cases ho
  | @retRead r hpc =>
    intro o ho
    simp only [observed, hpc] at ho
    rcases List.mem_cons.mp ho with rfl | ho
    · exact seen_of_mirror hm (by decide)
    · exact seen_eventWrite hm (fun hc => (h hc).reading hpc) r o ho
  | @retClose r inRead hpc =>
    simp only [observed, hpc]
    by_cases hc : w.state = .connected
    · exact absurd hc ((h hc).good.inClose inRead hpc).1
    · exact seen_closeRest hc inRead r
  | @send dat r hc =>
    simp only [observed, hc, ↓reduceIte]
    exact seen_send hm dat r
  | sendLate hc =>
    intro o ho
    simp only [observed, hc, ↓reduceIte] at ho
    cases ho
  | @task task rest r hpc hlist =>
    intro o ho
    simp only [observed, hlist, observedTask] at ho
    split at ho
    · exact seen_send (w := { w with taskList := rest }) hm _ r o ho
    · split at ho
      · cases ho
      · exact seen_close false r o ho
    · cases ho
  | _ =>
    intro o ho
    cases ho

end Reading

/-! ## The assertion of `_SendMostPossible` -/

/-- The assertion of `_SendMostPossible` has not failed. -/
def Held (w : Connection) : Prop := .sendMostPossible ∉ w.asserts

section Held

variable {w t : Connection} {i : Input}

theorem Held.check (h : w.Held) {site : Assert} {ok : Bool}
    (hok : site = .sendMostPossible → ok = true) : (w.check site ok).Held := by
  unfold Connection.check
  split
  · exact h
  · rename_i hfail
    intro hin
    rcases List.mem_append.mp hin with hin | hin
    · exact h hin
    · exact hfail (hok (List.mem_singleton.mp hin).symm)

theorem Held.queueWriteComplete (h : w.Held) : w.queueWriteComplete.Held := by
  unfold Connection.queueWriteComplete
  split
  · exact h
  · exact h

theorem Held.handleWrite (h : w.Held) (r : SendResult) : (w.handleWrite r).Held := by
  have hobs : ∀ ok : Bool, (((w.observe (.handleWrite w.state)).check .handleWrite ok).observe
      .send).Held := fun ok => Held.check (w := w.observe (.handleWrite w.state)) h nofun
  unfold Connection.handleWrite
  cases r with
  | error errno => exact hobs _
  | accepted k =>
    dsimp only
    split
    · split
      · refine Held.queueWriteComplete ?_
        exact hobs _
      · exact hobs _
    · exact hobs _

theorem Held.handleEventWrite (h : w.Held) (r : SendResult) : (w.handleEventWrite r).Held := by
  unfold Connection.handleEventWrite
  dsimp only
  split
  · exact h.handleWrite r
  · exact h

theorem Held.removeCb (h : w.Held) : w.removeCb.Held := by
  unfold Connection.removeCb
  cases w.remover <;> exact h

theorem Held.handleCloseRest (h : w.Held) (inRead : Bool) (r : SendResult) :
    (w.handleCloseRest inRead r).Held := by
  unfold Connection.handleCloseRest
  dsimp only
  split
  · exact h.removeCb.handleEventWrite r
  · exact h.removeCb

theorem Held.handleClose (h : w.Held) (inRead : Bool) (r : SendResult) :
    (w.handleClose inRead r).Held := by
  unfold Connection.handleClose
  dsimp only
  split
  · exact h
  · refine Held.handleCloseRest ?_ inRead r
    exact h

theorem Held.handleRead (h : w.Held) (read : Buffer.ReadvResult) (r : SendResult) :
    (w.handleRead read r).Held := by
  have hobs : ∀ ok : Bool, ((w.observe (.handleRead w.state)).check .handleRead ok).Held :=
    fun ok => Held.check (w := w.observe (.handleRead w.state)) h nofun
  unfold Connection.handleRead
  dsimp only
  split
  · split
    · exact hobs _
    · refine Held.handleEventWrite ?_ r
      exact hobs _
  · split
    · refine Held.handleClose ?_ true r
      exact hobs _
    · refine Held.handleEventWrite ?_ r
      exact hobs _

theorem Held.handleEvent (h : w.Held) (read : Buffer.ReadvResult) (r : SendResult) :
    (w.handleEvent read r).Held := by
  have hh : (w.setHandling true).Held := h
  unfold Connection.handleEvent
  dsimp only
  split
  · exact hh.handleClose false r
  · split
    · exact h
    · split
      · exact hh.handleRead read r
      · exact hh.handleEventWrite r

/-- Without write interest the buffer is empty. -/
theorem Held.send_ (h : w.Held) (hm : w.state = .connected → w.view.Mirror) (dat : List UInt8)
    (r : SendResult) : (w.send_ dat r).Held := by
  unfold Connection.send_
  split
  · rename_i hc
    have hfirst : ({ w with sent := w.sent ++ [dat] }.sendMostPossible_ dat r).2.Held := by
      unfold sendMostPossible_
      dsimp only
      split
      · rename_i hoff
        have hempty : ¬ 0 < w.bufferOutput.readableBytes := fun hpos => by
          have hon := (hm hc).writing_iff.mpr hpos
          rw [show w.view.writing = false from hoff] at hon
          cases hon
        have hobs : (({ w with sent := w.sent ++ [dat] }.check .sendMostPossible
            (w.bufferOutput.readableBytes = 0)).observe .send).Held :=
          Held.check (w := { w with sent := w.sent ++ [dat] }) h
            (fun _ => decide_eq_true (Nat.eq_zero_of_not_pos hempty))
        cases r with
        | error errno => exact hobs
        | accepted k => exact hobs
      · exact h
    dsimp only
    split
    · rename_i q heq
      rw [heq] at hfirst
      exact hfirst
    · rename_i remain q heq
      rw [heq] at hfirst
      split
      · have hqueue : ∀ q : Connection, q.Held →
            (if q.isWriting = false then q.updateEvent .enableWriting else q).Held := by
          intro q hq
          split
          · exact hq
          · exact hq
        unfold sendDatQueueInBuffer_
        dsimp only
        split
        · exact hqueue _ hfirst
        · exact hqueue _ hfirst
      · exact hfirst.queueWriteComplete
  · exact h

theorem step_held (hm : w.state = .connected → w.view.Mirror) (h : w.Held) (hn : w.Next i t) :
    t.Held := by
  cases hn with
  | @event mask read r => exact Held.handleEvent (w := w.setRevents mask) h read r
  | @retRead r => exact h.handleEventWrite r
  | @retClose r inRead => exact h.handleCloseRest inRead r
  | @send dat r => exact h.send_ hm dat r
  | @task task rest r =>
    have hq : ({ w with taskList := rest } : Connection).Held := h
    cases task with
    | sendInLoop dat => exact hq.send_ hm dat r
    | shutdownWriteInLoop =>
      simp only [runTask, shutdownWriteInLoop]
      split
      · exact h
      · exact h
    | forceCloseInLoop =>
      simp only [runTask, forceCloseInLoop]
      split
      · exact h
      · exact hq.handleClose false r
    | _ => exact h
  | _ => exact h

end Held

/-! ## Whole runs -/

section Established

variable {p : Epoller} {c : ChanId} {fd : Nat}

/-- A new channel is registered for reading only. -/
theorem established_writing (hnew : p.chans c = Channel.new fd) (cb : Callbacks) (rm : Remover)
    (ov : Nat) : (Connection.new p c cb rm ov).connectionEstablished.isWriting = false := by
  have hv := view_updateEvent { Connection.new p c cb rm ov with state := .connected }
    .enableReading
  have hoff : (({ Connection.new p c cb rm ov with state := .connected } : Connection).updateEvent
      .enableReading).isWriting = false := by
    rw [← view_writing, hv]
    simp only [chan, Connection.new, hnew]
    show EventMask.has (Channel.kNoneEvent ||| Channel.kReadEvent) Channel.kWriteEvent = false
    decide
  rw [connectionEstablished_eq]
  exact hoff

theorem mirrored_established (hp : p.Registry) (hnew : p.chans c = Channel.new fd)
    (ha : p.Admissible (c, .enableReading)) (cb : Callbacks) (rm : Remover) (ov : Nat) :
    (Connection.new p c cb rm ov).connectionEstablished.Mirrored := by
  have hoff := established_writing hnew cb rm ov
  refine ⟨good_established hp ha cb rm ov, ⟨(established_stream p c cb rm ov).1, ?_⟩, ?_⟩
  · intro hon
    rw [view_writing, hoff] at hon
    cases hon
  · rw [connectionEstablished_eq]
    dsimp only
    split <;> nofun

theorem held_established (p : Epoller) (c : ChanId) (cb : Callbacks) (rm : Remover) (ov : Nat) :
    (Connection.new p c cb rm ov).connectionEstablished.Held := by
  rw [connectionEstablished_eq]
  nofun

end Established

/-- **The write interest mirrors the pending output.** After any run of an established
connection that is connected, and at every entry to and exit from `_Send`, `HandleRead`
and `HandleWrite` during its next step in state CONNECTED, the write interest is on
exactly when `buffer_output_` holds bytes. The assertion of `_SendMostPossible` has not
failed, and `HandleWrite` is not entered connected with an empty buffer. -/
theorem interest_mirrors_output (p : Epoller) (hp : p.Registry) (c : ChanId) (fd : Nat)
    (hnew : p.chans c = Channel.new fd) (ha : p.Admissible (c, .enableReading))
    (cb : Callbacks) (rm : Remover) (ov : Nat) (ins : List Input) (w : Connection)
    (hr : Machine.run step (Connection.new p c cb rm ov).connectionEstablished ins = some w) :
    (w.state = .connected → (w.isWriting = true ↔ 0 < w.bufferOutput.readableBytes)) ∧
    .sendMostPossible ∉ w.asserts ∧
    ∀ (i : Input) (t : Connection), w.step i = some t →
      ∀ o ∈ w.observed i, o.2.state = .connected →
        (o.2.isWriting = true ↔ 0 < o.2.bufferOutput.readableBytes) ∧
        (o.1 = .writeEntry → 0 < o.2.bufferOutput.readableBytes) := by
  have hinv := Machine.run_invariant
    (P := fun w => (w.state = .connected → w.Mirrored) ∧ w.Held)
    (fun h hs => ⟨step_mirrored h.1 (step_next hs),
      step_held (fun hc => (h.1 hc).mirror) h.2 (step_next hs)⟩)
    ⟨fun _ => mirrored_established hp hnew ha cb rm ov, held_established p c cb rm ov⟩ hr
  refine ⟨fun hc => (hinv.1 hc).mirror.writing_iff, hinv.2, fun i t ht o ho hc => ?_⟩
  obtain ⟨hmirror, hentry⟩ := observed_seen hinv.1 (step_next ht) o ho hc
  exact ⟨hmirror.writing_iff, fun hp => hmirror.writing_iff.mp (hentry hp)⟩

/-- A short write, then a mask with both parts: `read_cb_` sends before `HandleWrite`. -/
theorem interest_mirrors_output_read_and_write : ∃ w t,
    Machine.run step (Connection.new (Epoller.new 8 (· + 1)) 3 ⟨false, false, true, false, false⟩
      .serverLoop 100).connectionEstablished
      [.send [65, 66] (.accepted 1), .event (EPOLLIN ||| EPOLLOUT) (.bytes [67]) (.error 0),
       .send [68] (.error 0)] = some w ∧
    w.step (.ret (.accepted 2)) = some t ∧
    (w.observed (.ret (.accepted 2))).map (fun o => (o.1, o.2.state, o.2.isWriting)) =
      [(.readExit, .connected, true), (.writeEntry, .connected, true),
       (.writeExit, .connected, false)] ∧
    ∀ o ∈ w.observed (.ret (.accepted 2)), o.2.state = .connected →
      (o.2.isWriting = true ↔ 0 < o.2.bufferOutput.readableBytes) := by
  have ha : (Epoller.new 8 (· + 1)).Admissible (3, .enableReading) :=
    ⟨by decide, by decide, fun _ _ c _ _ => rfl⟩
  have hrun : ((Machine.run step (Connection.new (Epoller.new 8 (· + 1)) 3
      ⟨false, false, true, false, false⟩ .serverLoop 100).connectionEstablished
      [.send [65, 66] (.accepted 1), .event (EPOLLIN ||| EPOLLOUT) (.bytes [67]) (.error 0),
       .send [68] (.error 0)]).map fun w =>
        ((w.observed (.ret (.accepted 2))).map (fun o => (o.1, o.2.state, o.2.isWriting)),
          (w.step (.ret (.accepted 2))).isSome)) =
      some ([(.readExit, .connected, true), (.writeEntry, .connected, true),
        (.writeExit, .connected, false)], true) := by decide +kernel
  obtain ⟨w, hr, hobs⟩ := Option.map_eq_some_iff.mp hrun
  simp only [Prod.mk.injEq] at hobs
  obtain ⟨t, ht⟩ := Option.isSome_iff_exists.mp hobs.2
  have hall := (interest_mirrors_output _ (Epoller.registry_new _ _) 3 4 rfl ha _ _ _ _ w hr).2.2
  exact ⟨w, t, hr, ht, hobs.1, fun o ho hc => (hall _ t ht o ho hc).1⟩

end Connection

end LinuxNet
