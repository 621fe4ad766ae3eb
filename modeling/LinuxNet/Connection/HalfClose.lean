import LinuxNet.Connection.Delivery
import LinuxNet.Connection.Shutdown

/-!
# Closing one direction

`shutdown(SHUT_WR)` is issued with nothing pending, and from then on the kernel refuses every
`::send` of that end. So the stream to the other end is fixed at that point: it is made of the
messages executed before, and the end of file that the other end reads comes behind all of them.
What is sent later is lost without a sign.
-/

namespace LinuxNet

set_option autoImplicit false

open LinuxNet.Lib LinuxNet.Lib.Pipe

namespace Connection

/-- The result of the `::send` that the step may make. -/
def Input.result? : Input → Option SendResult
  | .event _ _ r | .ret r | .send _ r | .task r => some r
  | .take _ | .call _ | .push _ | .removeInLoop | .other _ _ => none

/-- The kernel sends nothing for an end that has shut down its write side. -/
def Refused (w : Connection) (i : Input) : Prop :=
  w.shutWr = true → ∀ r, i.result? = some r → r.isError = true

/-! ## An end that can send nothing -/

section Silence

variable {w t : Connection} {i : Input} {errno : Nat}

theorem wire_eventWrite (w : Connection) (errno : Nat) :
    (w.handleEventWrite (.error errno)).wire = w.wire := by
  have hview := view_handleEventWrite w (.error errno)
  rw [View.flush_error, ite_self] at hview
  exact congrArg View.wire hview

theorem wire_removeCb (w : Connection) : w.removeCb.wire = w.wire := by
  unfold removeCb
  cases w.remover <;> rfl

theorem wire_closeRest (w : Connection) (inRead : Bool) (errno : Nat) :
    (w.handleCloseRest inRead (.error errno)).wire = w.wire := by
  unfold handleCloseRest
  dsimp only
  split
  · rw [wire_eventWrite, wire_removeCb]
  · exact wire_removeCb w

theorem wire_close (w : Connection) (inRead : Bool) (errno : Nat) :
    (w.handleClose inRead (.error errno)).wire = w.wire := by
  unfold handleClose
  dsimp only
  split
  · rfl
  · exact wire_closeRest _ inRead errno

theorem wire_event (w : Connection) (mask : EventMask) (read : Buffer.ReadvResult)
    (errno : Nat) : ((w.setRevents mask).handleEvent read (.error errno)).wire = w.wire := by
  have hend := (w.setRevents mask).eventHandled read (.error errno)
  generalize (w.setRevents mask).handleEvent read (.error errno) = t at hend ⊢
  cases hend with
  | close => exact wire_close _ false errno
  | error => rfl
  | write => exact wire_eventWrite _ errno
  | read =>
    have hend := ((w.setRevents mask).setHandling true).readHandled read (.error errno)
    generalize ((w.setRevents mask).setHandling true).handleRead read (.error errno) = t at hend ⊢
    cases hend with
    | callback => rfl
    | write => exact wire_eventWrite _ errno
    | eof => exact wire_close _ true errno

theorem wire_send (w : Connection) (dat : List UInt8) (errno : Nat) :
    (w.send_ dat (.error errno)).wire = w.wire := by
  by_cases hc : w.state = .connected
  · have hwire : (w.send_ dat (.error errno)).wire = (w.view.send dat (.error errno)).wire :=
      congrArg View.wire (view_send_ hc dat (.error errno))
    rw [hwire, View.send]
    split
    · rfl
    · -- the write interest is on, and all of the message is buffered
      simp [SendResult.taken]
  · rw [send_, if_neg hc]

theorem wire_task (w : Connection) (task : ConnTask) (errno : Nat) :
    (w.runTask task (.error errno)).wire = w.wire := by
  cases task with
  | sendInLoop dat => exact wire_send w dat errno
  | shutdownWriteInLoop =>
    simp only [runTask, shutdownWriteInLoop]
    split <;> rfl
  | forceCloseInLoop =>
    simp only [runTask, forceCloseInLoop]
    split
    · rfl
    · exact wire_close w false errno
  | connectionDestroy | writeComplete | highWaterMark n => rfl

/-- A step adds nothing to the wire if its `::send` fails. -/
theorem step_wire (hn : w.Next i t) (herr : ∀ r, i.result? = some r → r.isError = true) :
    t.wire = w.wire := by
  have hresult : ∀ r, i.result? = some r → ∃ errno, r = .error errno := by
    intro r hr
    cases r with
    | accepted k => exact absurd (herr _ hr) Bool.false_ne_true
    | error errno => exact ⟨errno, rfl⟩
  cases hn with
  | event =>
    obtain ⟨errno, rfl⟩ := hresult _ rfl
    exact wire_event w _ _ errno
  | retRead =>
    obtain ⟨errno, rfl⟩ := hresult _ rfl
    exact wire_eventWrite w errno
  | retClose =>
    obtain ⟨errno, rfl⟩ := hresult _ rfl
    exact wire_closeRest w _ errno
  | send =>
    obtain ⟨errno, rfl⟩ := hresult _ rfl
    exact wire_send w _ errno
  | @task task rest =>
    obtain ⟨errno, rfl⟩ := hresult _ rfl
    exact wire_task { w with taskList := rest } task errno
  | _ => rfl

/-- Nothing opens the write side again. -/
theorem step_shut (hn : w.Next i t) (h : w.shutWr = true) : t.shutWr = true := by
  cases hn with
  | event => exact (handleEvent_frame _ _ _).shutWr.trans h
  | retRead => exact (handleEventWrite_frame w _).shutWr.trans h
  | retClose => exact (handleCloseRest_frame w _ _).shutWr.trans h
  | send => exact (send_frame w _ _).shutWr.trans h
  | @task task rest r =>
    cases task with
    | sendInLoop dat => exact (send_frame { w with taskList := rest } dat r).shutWr.trans h
    | shutdownWriteInLoop =>
      simp only [runTask, shutdownWriteInLoop]
      split
      · rfl
      · exact h
    | forceCloseInLoop =>
      simp only [runTask, forceCloseInLoop]
      split
      · exact h
      · exact (handleClose_frame { w with taskList := rest } false r).shutWr.trans h
    | connectionDestroy | writeComplete | highWaterMark n => exact h
  | _ => exact h

/-- `ShutdownWriteInLoop` executed without write interest. -/
theorem step_shutsDown (hn : w.Next i t) (hi : ShutsDownIdle w i) :
    t.shutWr = true ∧ t.wire = w.wire := by
  obtain ⟨⟨-, htask, hhead⟩, hoff⟩ := hi
  cases hn with
  | @task task rest r hidle hlist =>
    rw [hlist, List.head?_cons, Option.some.injEq] at hhead
    subst hhead
    have hshut : runTask { w with taskList := rest } .shutdownWriteInLoop r =
        { w with taskList := rest, shutWr := true } := if_pos hoff
    rw [hshut]
    exact ⟨rfl, rfl⟩
  | _ => exact absurd htask Bool.false_ne_true

end Silence

end Connection

namespace Link

open Connection (Refused ShutsDownIdle)

/-! ## The stream behind a shutdown -/

section Runs

variable {conn : Side → Connection} {l l' : Link} {i : Side × Connection.Input} {s : Side}

/-- The end that sends to `s` has shut down its write side, and `stream` is what its kernel has
accepted for good. -/
structure Ended (l : Link) (s : Side) (stream : List UInt8) : Prop where
  shut : (l.conn s.peer).shutWr = true
  wire : (l.conn s.peer).wire = stream

theorem step_ended {stream : List UInt8} (h : l.Ended s stream)
    (hk : Refused (l.conn i.1) i.2) (hs : l.step i = some l') : l'.Ended s stream := by
  obtain ⟨w, hn, -, rfl⟩ := step_next hs
  obtain ⟨side, ci⟩ := i
  dsimp only at hn hk ⊢
  rcases eq_or_peer s side with rfl | rfl
  · exact ⟨by rw [advance_conn_peer]; exact h.shut, by rw [advance_conn_peer]; exact h.wire⟩
  · constructor
    · rw [advance_conn]
      exact Connection.step_shut hn h.shut
    · rw [advance_conn, Connection.step_wire hn (hk h.shut)]
      exact h.wire

/-- The shutdown finds nothing pending. -/
theorem shut_ended {ci : Connection.Input} (h : l.Carries s) (hc : l.Complete s)
    (hi : ShutsDownIdle (l.conn s.peer) ci) (hs : l.step (s.peer, ci) = some l') :
    l'.Ended s (l.conn s.peer).sent.flatten := by
  obtain ⟨w, hn, -, rfl⟩ := step_next hs
  obtain ⟨hist, hacc⟩ := h.account
  obtain ⟨hshut, hwire⟩ := Connection.step_shutsDown hn hi
  have hempty : (l.conn s.peer).bufferOutput.contents = [] :=
    (hacc.mirrored hi.1.1).mirror.flow.handover hi.2
  have hall := (Connection.wire_of_empty hacc.buffer hempty).2.trans hc
  refine ⟨?_, ?_⟩
  · rw [advance_conn]
    exact hshut
  · rw [advance_conn, hwire]
    exact hall

/-- `readv` may return 0 to the end `s`. -/
def OffersEof (l : Link) (s : Side) : Prop :=
  ∃ mask r, Connection.reachesRead mask = true ∧ l.offers s (.event mask (.bytes []) r) = true

theorem flight_of_eof (h : l.OffersEof s) : l.flightTo s = [] := by
  obtain ⟨mask, r, hreach, hoff⟩ := h
  simp only [offers, hreach, Bool.not_true, Bool.false_or, Bool.and_eq_true, bne_self_eq_false,
    beq_iff_eq] at hoff
  exact hoff.2.2

end Runs

end Link

end LinuxNet
