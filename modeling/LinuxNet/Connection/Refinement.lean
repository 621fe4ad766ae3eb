import LinuxNet.Connection.Callbacks
import LinuxNet.Connection.Delivery
import LinuxNet.Server.Destructor

/-!
# The connection the server sees

Of a `TCPConnection` the server knows its `Life`: whether it is open, being closed in its loop,
waiting to be removed in the server's loop, or destroyed. `life` reads that off a connection in
its loop, with its buffers, its channel in the poller and the user's callbacks. Every step of
such a connection is a number of moves of its life: what is proved about the lives of the
connections of a server holds of the connections themselves, whatever their users do.
-/

namespace LinuxNet

set_option autoImplicit false

open LinuxNet.Lib Relation

theorem Life.Ok.moves {f g : Life} (h : f.Ok) (hm : ReflTransGen Life.Move f g) : g.Ok := by
  induction hm with
  | refl => exact h
  | tail _ hm ih => exact ih.move hm

namespace Connection

/-- The loop is in the `disconnection_cb_` of the connection. -/
def isClosing (w : Connection) : Bool :=
  match w.pc with
  | .disconnectionCb _ => true
  | .idle | .userCb | .readCb => false

/-- How often `HandleClose` has run. -/
def closings (w : Connection) : Nat := w.log.count .handleClose

/-- The channel is in the interest set of the kernel. -/
def polled (w : Connection) : Bool :=
  (w.poller.kernel w.chan.fd).any fun e => e.2 == w.channel

/-- The calls of `ForceClose` that have yet to take effect. -/
def forced (w : Connection) : Nat :=
  w.taskList.count .forceCloseInLoop + w.inFlight.count .forceCloseInLoop

/-- `OnConnectionRemoveInLoop` has run for the connection. -/
def isRemoved (w : Connection) : Bool := 0 < w.closings && !w.isClosing && !w.removing

/-- The server's view of a connection of the loop `l` that it has accepted. -/
def life (l : LoopId) (w : Connection) : Life where
  conn := {
    fd := w.chan.fd
    loop := l
    state := w.state
    interest := w.polled
    alive := true
    accepted := true
    removed := w.isRemoved
    closes := w.closings }
  active := 0
  established := 0
  forced := w.forced
  removing := w.removing.toNat
  destroying := w.taskList.count .connectionDestroy
  closing := w.isClosing

/-! ## What the server does not see -/

section Frames

variable {w q t : Connection}

theorem count_notices (ws : List ConnTask) {ts : List ConnTask} {x : ConnTask}
    (hts : ∀ u ∈ ts, u.isNotice = true) (hx : x.isNotice = false) :
    (ws ++ ts).count x = ws.count x := by
  have hnone : ts.count x = 0 := List.count_eq_zero.mpr fun hmem => by
    rw [hts x hmem] at hx
    cases hx
  rw [List.count_append, hnone, Nat.add_zero]

/-- What the server can see of a connection is the same, apart from the interest in its
channel, which follows from the state. -/
structure Alike (w t : Connection) : Prop where
  fd : t.chan.fd = w.chan.fd
  state : t.state = w.state
  closings : t.closings = w.closings
  forced : t.forced = w.forced
  removing : t.removing = w.removing
  destroying : t.taskList.count .connectionDestroy = w.taskList.count .connectionDestroy

theorem Alike.trans (h : Alike w q) (h' : Alike q t) : Alike w t where
  fd := h'.fd.trans h.fd
  state := h'.state.trans h.state
  closings := h'.closings.trans h.closings
  forced := h'.forced.trans h.forced
  removing := h'.removing.trans h.removing
  destroying := h'.destroying.trans h.destroying

theorem alike_of_eq (hch : t.chan.fd = w.chan.fd) (hs : t.state = w.state) (hlog : t.log = w.log)
    (ht : t.taskList = w.taskList) (hf : t.inFlight = w.inFlight)
    (hr : t.removing = w.removing) : Alike w t where
  fd := hch
  state := hs
  closings := by rw [Connection.closings, hlog, Connection.closings]
  forced := by rw [Connection.forced, ht, hf, Connection.forced]
  removing := hr
  destroying := by rw [ht]

/-- Sending queues notices only. -/
theorem SendFrame.alike (h : SendFrame w t) (hch : t.chan.fd = w.chan.fd)
    (hcl : t.closings = w.closings) : Alike w t := by
  obtain ⟨ts, htasks, hts⟩ := h.tasks
  refine ⟨hch, h.state, hcl, ?_, h.removing, ?_⟩
  · rw [Connection.forced, htasks, h.inFlight, count_notices _ hts rfl, Connection.forced]
  · rw [htasks, count_notices _ hts rfl]

theorem exec_fd (p : Epoller) (c : ChanId) (op : Epoller.Op) :
    ((p.exec c true op).chans c).fd = (p.chans c).fd := by
  obtain ⟨st, h⟩ := Epoller.exec_chans p c true op
  simp [h]

theorem alike_send (w : Connection) (dat : List UInt8) (r : SendResult) :
    Alike w (w.send_ dat r) := by
  have hfd : (w.send_ dat r).chan.fd = w.chan.fd := by
    obtain ⟨hch, hp | hp⟩ := send_poller w dat r
    · rw [chan, hch, hp, chan]
    · rw [chan, hch, hp, exec_fd, chan]
  have hmost : ∀ q : Connection, (q.sendMostPossible_ dat r).2.closings = q.closings := by
    intro q
    unfold sendMostPossible_ closings
    dsimp only
    split
    · cases r <;> simp [observe]
    · rfl
  have hqueue : ∀ (q : Connection) (d : List UInt8),
      (q.sendDatQueueInBuffer_ d).closings = q.closings := by
    intro q d
    unfold sendDatQueueInBuffer_ closings
    dsimp only
    split <;> split <;> simp [updateEvent, observe, queueInLoop]
  apply (send_frame w dat r).alike hfd
  have hfirst := hmost { w with sent := w.sent ++ [dat] }
  unfold send_
  split
  · dsimp only
    split
    · rename_i q heq
      rw [heq] at hfirst
      exact hfirst
    · rename_i remain q heq
      rw [heq] at hfirst
      split
      · rw [hqueue]
        exact hfirst
      · rw [closings, queueWriteComplete_log]
        exact hfirst
  · rfl

theorem alike_handleWrite (w : Connection) (r : SendResult) : Alike w (w.handleWrite r) := by
  have hfd : (w.handleWrite r).chan.fd = w.chan.fd := by
    obtain ⟨hch, hp | hp⟩ := handleWrite_poller w r
    · rw [chan, hch, hp, chan]
    · rw [chan, hch, hp, exec_fd, chan]
  apply (handleWrite_frame w r).alike hfd
  unfold handleWrite closings
  cases r with
  | error errno => simp [observe]
  | accepted k =>
    dsimp only
    split
    · split
      · simp [updateEvent, observe]
      · simp [observe]
    · simp [observe]

theorem alike_setHandling (w : Connection) (h : Bool) : Alike w (w.setHandling h) :=
  alike_of_eq (by simp [setHandling, chan, Epoller.setChannel]) rfl rfl rfl rfl rfl

theorem alike_setRevents (w : Connection) (mask : EventMask) : Alike w (w.setRevents mask) :=
  alike_of_eq (by simp [setRevents, chan, Epoller.setChannel]) rfl rfl rfl rfl rfl

theorem alike_eventWrite (w : Connection) (r : SendResult) : Alike w (w.handleEventWrite r) := by
  have hend : ∀ q : Connection, Alike q { q.setHandling false with pc := .idle } := fun q =>
    (alike_setHandling q false).trans (alike_of_eq rfl rfl rfl rfl rfl rfl)
  unfold handleEventWrite
  dsimp only
  split
  · exact (alike_handleWrite w r).trans (hend _)
  · exact hend w

theorem alike_afterReadFd (w : Connection) (read : Buffer.ReadvResult) :
    Alike w (w.afterReadFd read) := by
  refine ⟨rfl, rfl, ?_, rfl, rfl, rfl⟩
  simp [afterReadFd, closings, observe]

/-- The life of `t` by what the server can see of `w`. -/
theorem life_of_alike (l : LoopId) (h : Alike w t) {b closing : Bool} (hp : t.polled = b)
    (hc : t.isClosing = closing) :
    t.life l = {
      conn := ⟨w.chan.fd, l, w.state, b, true, true,
        0 < w.closings && !closing && !w.removing, w.closings⟩
      active := 0
      established := 0
      forced := w.forced
      removing := w.removing.toNat
      destroying := w.taskList.count .connectionDestroy
      closing := closing } := by
  simp only [life, isRemoved, hp, hc, h.fd, h.state, h.closings, h.forced, h.removing, h.destroying]

end Frames

/-! ## Closing -/

section Closing

variable {w q t : Connection} {l : LoopId}

/-- The connection and its channel, which tells whether it is open. -/
structure Wires (w : Connection) : Prop where
  attached : w.Attached
  listens : w.Listens

theorem step_wires {i : Input} (h : w.Wires) (hn : w.Next i t) : t.Wires :=
  ⟨step_attached h.attached hn, step_listens h.attached h.listens hn⟩

theorem Wires.polled_of_connected (h : w.Wires) (hc : w.state = .connected) : w.polled = true := by
  have hd : w.deliverable EPOLLIN = true :=
    deliverable_of_has (k := 0) h.attached hc (h.listens hc)
  unfold deliverable at hd
  split at hd
  · cases hd
  · rename_i m c hk
    simp only [Bool.and_eq_true, beq_iff_eq] at hd
    simp [polled, hk, hd.1]

theorem Wires.not_polled (h : w.Wires) (hc : w.state ≠ .connected) : w.polled = false := by
  by_contra hp
  rw [Bool.not_eq_false, polled, Option.any_eq_true] at hp
  obtain ⟨⟨m, c⟩, hk, hch⟩ := hp
  obtain rfl : c = w.channel := by simpa using hch
  have hadded := ((h.attached.wired.registry.interest _ _ _).mp hk).2.1
  exact h.attached.wired.dead hc hadded

theorem Wires.polled_eq (h : w.Wires) (ht : t.Wires) (hs : t.state = w.state) :
    t.polled = w.polled := by
  by_cases hc : w.state = .connected
  · rw [h.polled_of_connected hc, ht.polled_of_connected (hs.trans hc)]
  · rw [h.not_polled hc, ht.not_polled (fun hc' => hc (hs.symm.trans hc'))]

/-- A step the server does not see. -/
theorem Alike.life (h : Alike w t) (hw : w.Wires) (ht : t.Wires)
    (hc : t.isClosing = w.isClosing) : t.life l = w.life l := by
  rw [life_of_alike l h (hw.polled_eq ht h.state) hc]
  rfl

/-- A connection whose `disconnection_cb_` is running. -/
def closingLife (l : LoopId) (w : Connection) : Life where
  conn := ⟨w.chan.fd, l, .disconnecting, false, true, true, false, 1⟩
  active := 0
  established := 0
  forced := w.forced
  removing := 0
  destroying := w.taskList.count .connectionDestroy
  closing := true

theorem Alike.closingLife (h : Alike w t) : t.closingLife l = w.closingLife l := by
  simp only [Connection.closingLife, h.fd, h.forced, h.destroying]

theorem isClosing_of_idle (hpc : w.pc = .idle) : w.isClosing = false := by
  rw [isClosing, hpc]

theorem alike_removeCb_rest (w : Connection) (inRead : Bool) (r : SendResult) :
    Alike w.removeCb (w.handleCloseRest inRead r) := by
  unfold handleCloseRest
  dsimp only
  split
  · exact alike_eventWrite _ r
  · exact (alike_setHandling w.removeCb false).trans (alike_of_eq rfl rfl rfl rfl rfl rfl)

/-- The rest of `HandleClose`. What it asks of the server may happen at once, in the loop of the
server, or be queued there; a client destroys the connection in a task. -/
theorem closeRest_moves (hs : w.state = .disconnecting) (hcl : w.closings = 1)
    (hr : w.removing = false) (inRead : Bool) (r : SendResult)
    (ht : (w.handleCloseRest inRead r).Wires) :
    ReflTransGen Life.Move (w.closingLife l) ((w.handleCloseRest inRead r).life l) := by
  have hrest := alike_removeCb_rest w inRead r
  have hstate : w.removeCb.state ≠ .connected := removeCb_state (by rw [hs]; decide)
  have hlife := life_of_alike l hrest (ht.not_polled (by rw [hrest.state]; exact hstate))
    (isClosing_of_idle (handleCloseRest_pc w inRead r))
  have hstart : ReflTransGen Life.Move (w.closingLife l)
      { w.closingLife l with closing := false, removing := 1 } :=
    .single (.removeCb rfl)
  have hremoved := hstart.tail (.removed Nat.one_ne_zero)
  rw [hlife]
  cases hrm : w.remover with
  | serverLoop =>
    have hcb : w.removeCb = w.connectionDestroy := by rw [removeCb, hrm]
    have hfd : w.connectionDestroy.chan.fd = w.chan.fd := exec_fd w.poller w.channel .remove
    have hclose : w.connectionDestroy.closings = 1 := by
      simpa [connectionDestroy, closings, observe] using hcl
    have hgone := hremoved.tail (.destroyed (Nat.succ_ne_zero _))
    rw [hcb, hfd, hclose]
    simpa [Connection.closingLife, connectionDestroy, ServerConn.connectionDestroy, forced, observe,
      hr] using hgone
  | otherLoop =>
    have hcb : w.removeCb = { w with removing := true } := by rw [removeCb, hrm]
    have hfd : ({ w with removing := true } : Connection).chan.fd = w.chan.fd := rfl
    have hclose : ({ w with removing := true } : Connection).closings = 1 := hcl
    rw [hcb, hfd, hclose]
    simpa [Connection.closingLife, forced, hs] using hstart
  | client =>
    have hcb : w.removeCb = w.queueInLoop .connectionDestroy := by rw [removeCb, hrm]
    have hfd : (w.queueInLoop .connectionDestroy).chan.fd = w.chan.fd := rfl
    have hclose : (w.queueInLoop .connectionDestroy).closings = 1 := hcl
    rw [hcb, hfd, hclose]
    simpa [Connection.closingLife, forced, queueInLoop, hs, hr] using hremoved

/-- `HandleClose` of a connection that has not been closed. -/
theorem close_moves (hcl : w.closings = 0) (hr : w.removing = false) (inRead : Bool)
    (r : SendResult) (ht : (w.handleClose inRead r).Wires) :
    ReflTransGen Life.Move (w.closingLife l) ((w.handleClose inRead r).life l) := by
  have hq : w.handleClose inRead r = if w.callbacks.disconnection
      then { ({ w with state := .disconnecting }.updateEvent .disableAll).observe .handleClose with
        pc := .disconnectionCb inRead }
      else (({ w with state := .disconnecting }.updateEvent .disableAll).observe
        .handleClose).handleCloseRest inRead r := rfl
  generalize hu : ({ w with state := .disconnecting }.updateEvent .disableAll).observe
    .handleClose = u at hq
  have hfd : u.chan.fd = w.chan.fd := by
    rw [← hu]
    exact exec_fd w.poller w.channel .disableAll
  have hstate : u.state = .disconnecting := by rw [← hu]; rfl
  have hremoving : u.removing = false := by rw [← hu]; exact hr
  have hforced : u.forced = w.forced := by rw [← hu]; rfl
  have htasks : u.taskList = w.taskList := by rw [← hu]; rfl
  have hclosings : u.closings = 1 := by
    rw [← hu, closings, observe, List.count_append, updateEvent, observe, List.count_append]
    have hzero : w.log.count .handleClose = 0 := hcl
    simp [hzero]
  have hstart : u.closingLife l = w.closingLife l := by
    simp only [Connection.closingLife, hfd, hforced, htasks]
  rw [hq] at ht ⊢
  rw [← hstart]
  split at ht
  · rename_i hcb
    rw [if_pos hcb]
    have hsame : Alike u { u with pc := .disconnectionCb inRead } :=
      alike_of_eq rfl rfl rfl rfl rfl rfl
    have hlife := life_of_alike l hsame (ht.not_polled (by simp [hstate])) rfl
    rw [hlife, hstate, hclosings, hremoving]
    exact .refl
  · rename_i hcb
    rw [if_neg hcb]
    exact closeRest_moves hstate hclosings hremoving inRead r ht

/-- An open connection that begins to be closed. -/
theorem handleClose_life (hcl : w.closings = 0) (hr : w.removing = false) :
    (w.life l).handleClose = w.closingLife l := by
  simp [Connection.life, Life.handleClose, ServerConn.handleClose, Connection.closingLife,
    isRemoved, hcl, hr]

end Closing

/-! ## Steps -/

section Steps

variable {w t : Connection} {l : LoopId} {i : Input}

/-- A connection with a life of its own. -/
structure Lives (l : LoopId) (w : Connection) : Prop where
  wires : w.Wires
  calls : ∀ x ∈ w.inFlight, x.isCall = true
  ok : (w.life l).Ok
  settled : (w.life l).Settled

/-- A connection that is open has not been closed. -/
theorem Lives.fresh (h : w.Lives l) (hc : w.state = .connected) :
    w.closings = 0 ∧ w.removing = false ∧ w.isClosing = false := by
  obtain ⟨hclosing, hremoving, -, hcloses⟩ := h.ok.fresh (.inr hc)
  exact ⟨hcloses, by simpa [Connection.life] using hremoving, hclosing⟩

/-- Something closes an open connection that is watched. -/
theorem Lives.close_event (h : w.Lives l) (hc : w.state = .connected) :
    ReflTransGen Life.Move (w.life l) (w.closingLife l) := by
  obtain ⟨hcl, hr, -⟩ := h.fresh hc
  have hpolled : ReflTransGen Life.Move (w.life l) { w.life l with active := 1 } :=
    .single (.polled (h.wires.polled_of_connected hc) rfl)
  have hclosed := hpolled.tail (.closeEvent Nat.one_ne_zero)
  rw [← handleClose_life hcl hr]
  exact hclosed

theorem event_moves (h : w.Lives l) {mask : EventMask} {read : Buffer.ReadvResult}
    {r : SendResult} (hpc : w.pc = .idle) (hd : w.deliverable mask = true)
    (ht : ((w.setRevents mask).handleEvent read r).Wires) :
    ReflTransGen Life.Move (w.life l) (((w.setRevents mask).handleEvent read r).life l) := by
  have hc := h.wires.attached.connected_of_deliverable hd
  obtain ⟨hcl, hr, hno⟩ := h.fresh hc
  have hsame : Alike w ((w.setRevents mask).setHandling true) :=
    (alike_setRevents w mask).trans (alike_setHandling _ true)
  -- a close starts from the same life, whatever `HandleRead` has done before
  have hclose : ∀ {q : Connection} {inRead : Bool}, Alike w q → (q.handleClose inRead r).Wires →
      ReflTransGen Life.Move (w.life l) ((q.handleClose inRead r).life l) := by
    intro q inRead hq hw
    have hmoves := close_moves (l := l) (hq.closings.trans hcl) (hq.removing.trans hr) inRead r hw
    rw [hq.closingLife] at hmoves
    exact (h.close_event hc).trans hmoves
  have hquiet : ∀ {q : Connection}, Alike w q → q.Wires → q.isClosing = false →
      ReflTransGen Life.Move (w.life l) (q.life l) := by
    intro q hq hw hqc
    rw [hq.life h.wires hw (hqc.trans hno.symm)]
  have hend := (w.setRevents mask).eventHandled read r
  generalize (w.setRevents mask).handleEvent read r = t at hend ht ⊢
  cases hend with
  | close => exact hclose hsame ht
  | error => exact hquiet (hsame.trans (alike_setHandling _ false)) ht (isClosing_of_idle hpc)
  | write => exact hquiet (hsame.trans (alike_eventWrite _ r)) ht rfl
  | read =>
    have hread := hsame.trans (alike_afterReadFd _ read)
    have hend := ((w.setRevents mask).setHandling true).readHandled read r
    generalize ((w.setRevents mask).setHandling true).handleRead read r = t at hend ht ⊢
    cases hend with
    | callback => exact hquiet (hread.trans (alike_of_eq rfl rfl rfl rfl rfl rfl)) ht rfl
    | write => exact hquiet (hread.trans (alike_eventWrite _ r)) ht rfl
    | eof => exact hclose hread ht

theorem task_moves (h : w.Lives l) {task : ConnTask} {rest : List ConnTask} {r : SendResult}
    (hpc : w.pc = .idle) (hlist : w.taskList = task :: rest)
    (ht : (runTask { w with taskList := rest } task r).Wires) :
    ReflTransGen Life.Move (w.life l) ((runTask { w with taskList := rest } task r).life l) := by
  have hno := isClosing_of_idle hpc
  -- a task that neither closes nor destroys
  have hquiet : ∀ {q : Connection}, task ≠ .forceCloseInLoop → task ≠ .connectionDestroy →
      Alike { w with taskList := rest } q → q.Wires → q.isClosing = false →
      ReflTransGen Life.Move (w.life l) (q.life l) := by
    intro q hforce hdestroy hq hw hqc
    have hpop : Alike w { w with taskList := rest } := by
      refine ⟨rfl, rfl, rfl, ?_, rfl, ?_⟩
      · rw [forced, forced, hlist, List.count_cons_of_ne hforce]
      · rw [hlist, List.count_cons_of_ne hdestroy]
    rw [(hpop.trans hq).life h.wires hw (hqc.trans hno.symm)]
  cases task with
  | sendInLoop dat =>
    have hsame := alike_send { w with taskList := rest } dat r
    have hframe := send_frame { w with taskList := rest } dat r
    exact hquiet (by simp) (by simp) hsame ht (isClosing_of_idle (hframe.pc.trans hpc))
  | shutdownWriteInLoop =>
    refine hquiet (by simp) (by simp) ?_ ht ?_
    · simp only [runTask, shutdownWriteInLoop]
      split <;> exact alike_of_eq rfl rfl rfl rfl rfl rfl
    · simp only [runTask, shutdownWriteInLoop]
      split <;> exact isClosing_of_idle hpc
  | writeComplete => exact hquiet (by simp) (by simp) (alike_of_eq rfl rfl rfl rfl rfl rfl) ht rfl
  | highWaterMark n => exact hquiet (by simp) (by simp) (alike_of_eq rfl rfl rfl rfl rfl rfl) ht rfl
  | connectionDestroy =>
    have hne : (w.life l).destroying ≠ 0 := by simp [Connection.life, hlist]
    have hstate : (runTask { w with taskList := rest } .connectionDestroy r).state =
        .disconnected := rfl
    have hpolled := ht.not_polled (by rw [hstate]; decide)
    have hfd := exec_fd w.poller w.channel .remove
    have hlife : (runTask { w with taskList := rest } .connectionDestroy r).life l =
        { w.life l with
          destroying := (w.life l).destroying - 1
          conn := (w.life l).conn.connectionDestroy } := by
      rw [Connection.life, hpolled]
      simp only [Connection.life, hlist, List.count_cons_self, Nat.add_sub_cancel]
      simp [runTask, connectionDestroy, observe, closings, forced, isRemoved, isClosing, chan, hfd,
        hlist, ServerConn.connectionDestroy]
    rw [hlife]
    exact .single (.destroyed hne)
  | forceCloseInLoop =>
    have hne : (w.life l).forced ≠ 0 := by simp [Connection.life, forced, hlist]
    have hpop : { w.life l with forced := (w.life l).forced - 1 } =
        Connection.life l { w with taskList := rest } := by
      have hforced : (w.life l).forced - 1 = Connection.forced { w with taskList := rest } := by
        simp only [Connection.life, forced, hlist, List.count_cons_self]
        omega
      rw [hforced]
      simp [Connection.life, hlist, isRemoved, closings, isClosing, polled, chan]
    simp only [runTask, forceCloseInLoop] at ht ⊢
    split at ht
    · rename_i hlate
      rw [if_pos hlate, ← hpop]
      exact .single (.forceLate hne)
    · rename_i hopen
      rw [if_neg hopen]
      have hc : w.state = .connected := h.ok.of_forced hne hopen
      obtain ⟨hcl, hr, -⟩ := h.fresh hc
      have hmove : ReflTransGen Life.Move (w.life l) _ := .single (.forceClose hne rfl hopen)
      have hstart := handleClose_life (w := { w with taskList := rest }) (l := l) hcl hr
      rw [hpop, hstart] at hmove
      exact hmove.trans (close_moves (w := { w with taskList := rest }) hcl hr false r ht)

theorem call_moves (h : w.Lives l) {task : ConnTask} (hc : w.state = .connected)
    (ht : Wires { w with inFlight := w.inFlight ++ [task] }) :
    ReflTransGen Life.Move (w.life l)
      (Connection.life l { w with inFlight := w.inFlight ++ [task] }) := by
  by_cases hforce : task = .forceCloseInLoop
  · subst hforce
    have hlife : Connection.life l { w with inFlight := w.inFlight ++ [.forceCloseInLoop] } =
        { w.life l with forced := (w.life l).forced + 1 } := by
      simp only [Connection.life, forced, List.count_append, List.count_singleton_self,
        Nat.add_assoc]
      rfl
    rw [hlife]
    exact .single (.forceCall rfl hc)
  · have hsame : Alike w { w with inFlight := w.inFlight ++ [task] } := by
      refine ⟨rfl, rfl, rfl, ?_, rfl, rfl⟩
      simp [forced, List.count_append, hforce]
    rw [hsame.life h.wires ht rfl]

/-- A call reaches the queue. -/
theorem push_moves (h : w.Lives l) {k : Nat} {task : ConnTask} (hget : w.inFlight[k]? = some task)
    (ht : (queueInLoop { w with inFlight := w.inFlight.eraseIdx k } task).Wires) :
    ReflTransGen Life.Move (w.life l)
      (Connection.life l (queueInLoop { w with inFlight := w.inFlight.eraseIdx k } task)) := by
  obtain ⟨hk, hget⟩ := List.getElem?_eq_some_iff.mp hget
  have hcall : task.isCall = true := h.calls task (hget ▸ List.getElem_mem hk)
  have hperm := (List.getElem_cons_eraseIdx_perm hk).count_eq .forceCloseInLoop
  have hsame : Alike w (queueInLoop { w with inFlight := w.inFlight.eraseIdx k } task) := by
    refine ⟨rfl, rfl, rfl, ?_, rfl, ?_⟩
    · rw [hget, List.count_cons] at hperm
      simp only [forced, queueInLoop, List.count_append, List.count_singleton]
      omega
    · have hne : ConnTask.connectionDestroy ≠ task := fun he => by
        rw [← he] at hcall
        cases hcall
      simp [queueInLoop, List.count_append, hne.symm]
  rw [hsame.life h.wires ht rfl]

/-- The server's loop removes the connection. -/
theorem removeInLoop_moves (h : w.Lives l) (hr : w.removing = true)
    (ht : (queueInLoop { w with removing := false } .connectionDestroy).Wires) :
    ReflTransGen Life.Move (w.life l)
      (Connection.life l (queueInLoop { w with removing := false } .connectionDestroy)) := by
  have hone : (w.life l).removing = 1 := by simp [Connection.life, hr]
  obtain ⟨-, hsum, hcl, hs⟩ := h.ok.begun (by omega)
  have hclosing : w.isClosing = false := by
    have hzero : (w.life l).closing.toNat = 0 := by omega
    simpa [Connection.life] using hzero
  have hpolled := h.wires.not_polled (fun hc => hs (.inr hc))
  generalize hq : queueInLoop { w with removing := false } .connectionDestroy = q at ht ⊢
  have hstate : q.state = w.state := by rw [← hq]; rfl
  have hpolled' := ht.not_polled (fun hc => hs (.inr (hstate.symm.trans hc)))
  have hfd : q.chan.fd = w.chan.fd := by rw [← hq]; rfl
  have hcl' : q.closings = w.closings := by rw [← hq]; rfl
  have hno : q.isClosing = false := by rw [← hq]; exact hclosing
  have hr' : q.removing = false := by rw [← hq]; rfl
  have hforced : q.forced = w.forced := by rw [← hq]; simp [forced, queueInLoop]
  have hdestroy : q.taskList.count .connectionDestroy = (w.life l).destroying + 1 := by
    rw [← hq]
    simp [queueInLoop, Connection.life]
  have hpos : w.closings = 1 := hcl
  have hlife : q.life l = { w.life l with
      removing := (w.life l).removing - 1
      conn := { (w.life l).conn with removed := true }
      destroying := (w.life l).destroying + 1 } := by
    rw [hone, ← hdestroy]
    simp only [Connection.life, isRemoved, hfd, hstate, hpolled', hpolled, hcl', hno, hclosing, hr',
      hforced, hpos]
    rfl
  rw [hlife]
  exact .single (.removed (by omega))

/-- **Every step is a number of moves of the connection's life.** -/
theorem step_moves_life (h : w.Lives l) (hn : w.Next i t) :
    ReflTransGen Life.Move (w.life l) (t.life l) := by
  have ht := step_wires h.wires hn
  cases hn with
  | event hpc hd => exact event_moves h hpc hd ht
  | retUser hpc =>
    have hsame : Alike w { w with pc := .idle } := alike_of_eq rfl rfl rfl rfl rfl rfl
    rw [hsame.life h.wires ht (by rw [isClosing, isClosing, hpc])]
  | @retRead r hpc =>
    have hpc' : (w.handleEventWrite r).isClosing = false := rfl
    rw [(alike_eventWrite w r).life h.wires ht (by rw [hpc', isClosing, hpc])]
  | @retClose r inRead hpc =>
    have hs := h.wires.attached.inClose inRead hpc
    have hclosing : w.isClosing = true := by rw [isClosing, hpc]
    obtain ⟨hremoved, hsum, hcl, -⟩ := h.ok.begun (by
      simp only [Connection.life, hclosing, Bool.toNat_true]
      omega)
    have hr : w.removing = false := by
      simpa [Connection.life, hclosing] using hsum
    have hlife : w.life l = w.closingLife l := by
      have hpolled := h.wires.not_polled (by rw [hs]; decide)
      have hcl' : w.closings = 1 := hcl
      simp [Connection.life, Connection.closingLife, isRemoved, hpolled, hs, hcl', hr, hclosing]
    rw [hlife]
    exact closeRest_moves hs hcl hr inRead r ht
  | @send dat r hc =>
    have hpc : (w.send_ dat r).isClosing = w.isClosing := by
      rw [isClosing, (send_frame w dat r).pc, isClosing]
    rw [(alike_send w dat r).life h.wires ht hpc]
  | sendLate => exact .refl
  | @take len =>
    have hsame : Alike w { w with
        bufferInput := w.bufferInput.retrieve (min len w.bufferInput.readableBytes) } :=
      alike_of_eq rfl rfl rfl rfl rfl rfl
    rw [hsame.life h.wires ht rfl]
  | call hcall hc => exact call_moves h hc ht
  | callLate => exact .refl
  | push hget => exact push_moves h hget ht
  | task hpc hlist => exact task_moves h hpc hlist ht
  | removeInLoop hr => exact removeInLoop_moves h hr ht
  | @other c op hne hu =>
    have hch := chan_other w hne op
    have hsame : Alike w { w with poller := w.poller.exec c true op } :=
      alike_of_eq (by rw [hch]) rfl rfl rfl rfl rfl
    rw [hsame.life h.wires ht rfl]

theorem step_lives (h : w.Lives l) (hn : w.Next i t) : t.Lives l := by
  have hmoves := step_moves_life h hn
  exact ⟨step_wires h.wires hn, step_calls h.calls hn, h.ok.moves hmoves,
    h.settled.moves (.inl h.ok) hmoves⟩

end Steps

/-! ## Runs -/

/-- A connection before `TCPServer::OnNewConnection`. -/
def unborn : Life := Life.idle ⟨0, 0, .connecting, false, false, false, false, 0⟩

theorem unborn_blank : unborn.Blank := by constructor <;> rfl

section Established

variable {p : Epoller} {c : ChanId}

/-- `OnNewConnection` and `ConnectionEstablished`. -/
theorem established_moves (hp : p.Registry) (ha : p.Admissible (c, .enableReading))
    (cb : Callbacks) (rm : Remover) (ov : Nat) (l : LoopId) :
    ReflTransGen Life.Move unborn
      ((Connection.new p c cb rm ov).connectionEstablished.life l) := by
  have hw : (Connection.new p c cb rm ov).connectionEstablished.Wires :=
    ⟨attached_established hp ha cb rm ov, listens_established cb rm ov⟩
  have hpolled := hw.polled_of_connected (by rw [connectionEstablished_eq]; rfl)
  generalize hq : (Connection.new p c cb rm ov).connectionEstablished = q at hpolled ⊢
  rw [connectionEstablished_eq] at hq
  have hcreated := ReflTransGen.single (Life.Move.created
    ⟨q.chan.fd, l, .connecting, false, true, true, false, 0⟩ unborn_blank rfl)
  have hmoves := hcreated.tail (.established Nat.one_ne_zero)
  have hpc : q.pc = if cb.connection then .userCb else .idle := by rw [← hq]; rfl
  have hno : q.isClosing = false := by
    rw [isClosing, hpc]
    cases cb.connection with
    | false => rfl
    | true => rfl
  have hlife : q.life l = ⟨⟨q.chan.fd, l, .connected, true, true, true, false, 0⟩,
      0, 0, 0, 0, 0, false⟩ := by
    have hcl : q.closings = 0 := by rw [← hq]; rfl
    have hst : q.state = .connected := by rw [← hq]; rfl
    have hforced : q.forced = 0 := by rw [← hq]; rfl
    have hremoving : q.removing = false := by rw [← hq]; rfl
    have htasks : q.taskList = [] := by rw [← hq]; rfl
    simp [Connection.life, isRemoved, hpolled, hno, hcl, hst, hforced, hremoving, htasks]
  rw [hlife]
  exact hmoves

theorem lives_established (hp : p.Registry) (ha : p.Admissible (c, .enableReading))
    (cb : Callbacks) (rm : Remover) (ov : Nat) (l : LoopId) :
    (Connection.new p c cb rm ov).connectionEstablished.Lives l := by
  have hmoves := established_moves hp ha cb rm ov l
  have hcalls : (Connection.new p c cb rm ov).connectionEstablished.inFlight = [] := by
    rw [connectionEstablished_eq]
    rfl
  refine ⟨⟨attached_established hp ha cb rm ov, listens_established cb rm ov⟩, ?_, ?_, ?_⟩
  · rw [hcalls]
    nofun
  · rcases Life.Inv.moves (.inr unborn_blank) hmoves with hok | hblank
    · exact hok
    · exact absurd hblank.accepted nofun
  · exact Life.Settled.moves (.inr unborn_blank) rfl hmoves

/-- **A connection is what the server takes it for.** Whatever its callbacks are, whatever the
kernel answers and whatever other threads call, every run of an established connection is, seen
by the server, a run of moves of a connection it has accepted. So `HandleClose` runs at most
once, the close is always in one place, and `ConnectionDestroy` is on its way or has run exactly
if the connection has been removed. -/
theorem connection_refines_life (hp : p.Registry) (ha : p.Admissible (c, .enableReading))
    {cb : Callbacks} {rm : Remover} {ov : Nat} {is : List Input} {w : Connection}
    (hrun : Machine.run step (Connection.new p c cb rm ov).connectionEstablished is = some w)
    (l : LoopId) :
    ReflTransGen Life.Move unborn (w.life l) ∧ (w.life l).Ok ∧ (w.life l).Settled := by
  have h := Machine.run_invariant (P := fun t : Connection => t.Lives l ∧
      ReflTransGen Life.Move unborn (t.life l))
    (fun ⟨hl, hm⟩ hstep => ⟨step_lives hl (step_next hstep),
      hm.trans (step_moves_life hl (step_next hstep))⟩)
    ⟨lives_established hp ha cb rm ov l, established_moves hp ha cb rm ov l⟩ hrun
  exact ⟨h.2, h.1.ok, h.1.settled⟩

/-- A connection of a pool's loop: while a call of `ForceClose` is on its way the peer closes the
connection, the server's loop removes it, and it is destroyed in its own. -/
theorem connection_refines_life_force_close : ∃ w,
    Machine.run step (Connection.new (Epoller.new 8 (· + 1)) 3 ⟨true, true, true, false, false⟩
      .otherLoop 100).connectionEstablished
      [.ret (.error 0), .call .forceCloseInLoop, .event EPOLLIN (.bytes []) (.error 0), .push 0,
       .ret (.error 0), .task (.error 0), .removeInLoop, .task (.error 0)] = some w ∧
    (w.life 1).conn.state = .disconnected ∧ (w.life 1).conn.closes = 1 ∧
    (w.life 1).conn.removed = true ∧ (w.life 1).destroying = 0 ∧
    ReflTransGen Life.Move unborn (w.life 1) := by
  obtain ⟨w, hr, hobs⟩ := Option.map_eq_some_iff.mp (show (Machine.run step (Connection.new
      (Epoller.new 8 (· + 1)) 3 ⟨true, true, true, false, false⟩
      .otherLoop 100).connectionEstablished
      [.ret (.error 0), .call .forceCloseInLoop, .event EPOLLIN (.bytes []) (.error 0), .push 0,
       .ret (.error 0), .task (.error 0), .removeInLoop, .task (.error 0)]).map
      (fun w => ((w.life 1).conn.state, (w.life 1).conn.closes, (w.life 1).conn.removed,
        (w.life 1).destroying)) = some (.disconnected, 1, true, 0) by decide +kernel)
  simp only [Prod.mk.injEq] at hobs
  obtain ⟨hst, hcl, hrem, hd⟩ := hobs
  have ha : (Epoller.new 8 (· + 1)).Admissible (3, .enableReading) :=
    ⟨by decide, by decide, fun _ _ c _ _ => rfl⟩
  obtain ⟨hmoves, -⟩ := connection_refines_life (Epoller.registry_new _ _) ha hr 1
  exact ⟨w, hr, hst, hcl, hrem, hd, hmoves⟩

end Established

end Connection

end LinuxNet
