import LinuxNet.Connection.Close

/-!
# The channel of a connection in every state

While a connection is CONNECTED its channel is registered; `HandleClose` turns all of its
interest off, and the removal takes it from the table. A `HandleWrite` behind the close may
put it back, but with nothing of interest. So no event is reported for a connection that is
not CONNECTED, whichever handlers have run.
-/

namespace LinuxNet

set_option autoImplicit false

open LinuxNet.Lib

namespace Connection

/-! ## The channel of a closed connection -/

/-- How the channel `c` of a connection in state `st` is registered, whatever handler has
run behind `HandleClose`. -/
structure Wired (st : ConnState) (c : ChanId) (p : Epoller) : Prop where
  registry : p.Registry
  fdPos : 0 < (p.chans c).fd
  fdLt : (p.chans c).fd < p.size
  started : st ≠ .connecting
  live : st = .connected → (p.chans c).status ≠ .kNew
  dead : st ≠ .connected → (p.chans c).status ≠ .kAdded
  closing : st = .disconnecting →
    (p.chans c).status ≠ .kNew ∧ (p.chans c).events = Channel.kNoneEvent

section Wired

variable {st : ConnState} {c : ChanId} {p p' : Epoller}

/-- The channel has become `ch`. -/
theorem Wired.of_outcome (h : Wired st c p) {st' : ConnState} {ch : Channel}
    (ho : Epoller.Outcome p p' c ch) (hfd : ch.fd = (p.chans c).fd) (hstart : st' ≠ .connecting)
    (hlive : st' = .connected → ch.status ≠ .kNew) (hdead : st' ≠ .connected → ch.status ≠ .kAdded)
    (hclosing : st' = .disconnecting → ch.status ≠ .kNew ∧ ch.events = Channel.kNoneEvent) :
    Wired st' c p' := by
  have hch : p'.chans c = ch := by rw [ho.chans, Function.update_self]
  refine ⟨ho.registry, ?_, ?_, hstart, ?_, ?_, ?_⟩
  · rw [hch, hfd]
    exact h.fdPos
  · rw [hch, hfd, ho.size]
    exact h.fdLt
  · rwa [hch]
  · rwa [hch]
  · rwa [hch]

/-- `ForceCloseInLoop` has nothing to do. -/
theorem Wired.closed (h : Wired st c p) (hs : st ≠ .connected) :
    st = .disconnecting ∨ st = .disconnected := by
  have hstart := h.started
  cases st <;> simp_all

theorem Wired.admissible (h : Wired st c p) (hst : (p.chans c).status ≠ .kNew) (op : Epoller.Op) :
    p.Admissible (c, op) :=
  ⟨h.fdPos, h.fdLt, fun _ hnew => absurd hnew hst⟩

theorem effect_of_ne {op : Epoller.Op} (hop : op ≠ .remove) (ch : Channel) :
    op.effect ch = Epoller.listening ch (op.mask ch.events) := if_neg hop

theorem Wired.update (h : Wired .connected c p) {op : Epoller.Op} (hop : op ≠ .remove) :
    Wired .connected c (p.exec c true op) := by
  have ho := Epoller.exec_spec h.registry (h.admissible (h.live rfl) op)
  refine h.of_outcome ho (Epoller.effect_fd _ _) nofun (fun _ => ?_) (fun hn => absurd rfl hn) nofun
  rw [effect_of_ne hop]
  exact Epoller.listening_ne_new _ _

/-- An operation that leaves nothing of interest. -/
theorem Wired.mute (h : Wired st c p) {st' : ConnState} {op : Epoller.Op}
    (ha : p.Admissible (c, op)) (hop : op ≠ .remove)
    (hmask : op.mask (p.chans c).events = Channel.kNoneEvent)
    (hst' : st' = .disconnecting ∨ st' = .disconnected) : Wired st' c (p.exec c true op) := by
  have ho := Epoller.exec_spec h.registry ha
  have heff : op.effect (p.chans c) =
      { p.chans c with events := Channel.kNoneEvent, status := .kDel } := by
    rw [effect_of_ne hop, hmask, Epoller.listening_none]
  rw [heff] at ho
  refine h.of_outcome ho rfl ?_ (fun _ => nofun) (fun _ => nofun) (fun _ => ⟨nofun, rfl⟩)
  rcases hst' with rfl | rfl <;> nofun

theorem Wired.close (h : Wired .connected c p) :
    Wired .disconnecting c (p.exec c true .disableAll) :=
  h.mute (h.admissible (h.live rfl) _) nofun rfl (.inl rfl)

theorem Wired.destroy (h : Wired st c p) : Wired .disconnected c (p.exec c true .remove) := by
  have ho := Epoller.removeChannel_spec h.registry c
  exact h.of_outcome ho rfl nofun nofun (fun _ => nofun) nofun

theorem mask_disableWriting_none :
    Epoller.Op.mask Channel.kNoneEvent .disableWriting = Channel.kNoneEvent := by decide

/-- `DisableWriting` behind `HandleClose`. -/
theorem Wired.muteClosing (h : Wired .disconnecting c p) :
    Wired .disconnecting c (p.exec c true .disableWriting) := by
  refine h.mute (h.admissible (h.closing rfl).1 _) nofun ?_ (.inl rfl)
  rw [(h.closing rfl).2, mask_disableWriting_none]

/-- `DisableWriting` behind the removal of the channel. -/
theorem Wired.muteDestroyed (h : Wired .disconnecting c p) :
    Wired .disconnected c ((p.exec c true .remove).exec c true .disableWriting) := by
  have ho := Epoller.removeChannel_spec h.registry c
  have hch : (p.exec c true .remove).chans c = Epoller.removed (p.chans c) := by
    show (p.removeChannel c).chans c = _
    rw [ho.chans, Function.update_self]
  have hd := h.destroy
  refine hd.mute ⟨hd.fdPos, hd.fdLt, fun _ _ c' hne hfd => ?_⟩ nofun ?_ (.inr rfl)
  · -- The slot was this channel's own, so no other one with the descriptor is registered.
    have hch' : (p.exec c true .remove).chans c' = p.chans c' := by
      show (p.removeChannel c).chans c' = _
      rw [ho.chans, Function.update_of_ne hne]
    rw [hch'] at hfd ⊢
    rw [hch] at hfd
    by_contra hst
    have hslot' := (h.registry.slot _ c').mpr ⟨rfl, hst⟩
    have hslot := (h.registry.slot _ c).mpr ⟨rfl, (h.closing rfl).1⟩
    rw [hfd] at hslot'
    exact hne (Option.some.inj (hslot'.symm.trans hslot))
  · rw [hch]
    show Epoller.Op.mask (p.chans c).events .disableWriting = _
    rw [(h.closing rfl).2, mask_disableWriting_none]

theorem Wired.setChannel (h : Wired st c p) {ch : Channel} (hfd : ch.fd = (p.chans c).fd)
    (hst : ch.status = (p.chans c).status) (hev : ch.events = (p.chans c).events) :
    Wired st c (p.setChannel c ch) := by
  refine h.of_outcome ⟨h.registry.setChannel hfd hst hev, rfl, rfl⟩ hfd h.started ?_ ?_ ?_
  · rw [hst]
    exact h.live
  · rw [hst]
    exact h.dead
  · rw [hst, hev]
    exact h.closing

theorem Wired.other (h : Wired st c p) {c' : ChanId} (hne : c' ≠ c) (hu : p.usable c' = true)
    (op : Epoller.Op) : Wired st c (p.exec c' true op) := by
  have ho := Epoller.exec_spec h.registry (Epoller.admissible_of_usable h.registry hu op)
  have hch : (p.exec c' true op).chans c = p.chans c := by
    rw [ho.chans, Function.update_of_ne hne.symm]
  refine ⟨ho.registry, ?_, ?_, h.started, ?_, ?_, ?_⟩
  · rw [hch]
    exact h.fdPos
  · rw [hch, ho.size]
    exact h.fdLt
  · rw [hch]
    exact h.live
  · rw [hch]
    exact h.dead
  · rw [hch]
    exact h.closing

end Wired

/-! ## The handlers -/

theorem send_poller (w : Connection) (dat : List UInt8) (r : SendResult) :
    (w.send_ dat r).channel = w.channel ∧ ((w.send_ dat r).poller = w.poller ∨
      (w.send_ dat r).poller = w.poller.exec w.channel true .enableWriting) := by
  have hfirst : ∀ w : Connection, (w.sendMostPossible_ dat r).2.channel = w.channel ∧
      (w.sendMostPossible_ dat r).2.poller = w.poller := by
    intro w
    have hcheck : ∀ ok, (w.check .sendMostPossible ok).channel = w.channel ∧
        (w.check .sendMostPossible ok).poller = w.poller := by
      intro ok
      obtain ⟨failed, h⟩ := w.check_eq .sendMostPossible ok
      rw [h]
      exact ⟨rfl, rfl⟩
    unfold sendMostPossible_
    dsimp only
    split
    · cases r <;> exact hcheck _
    · exact ⟨rfl, rfl⟩
  unfold send_
  split
  · obtain ⟨hc, hp⟩ := hfirst { w with sent := w.sent ++ [dat] }
    dsimp only
    split
    · rename_i q heq
      rw [heq] at hc hp
      exact ⟨hc, .inl hp⟩
    · rename_i remain q heq
      rw [heq] at hc hp
      split
      · unfold sendDatQueueInBuffer_
        dsimp only
        split <;> split <;>
          first
          | exact ⟨hc, .inl hp⟩
          | exact ⟨hc, .inr (by rw [← hc, ← hp]; rfl)⟩
      · unfold queueWriteComplete
        split <;> exact ⟨hc, .inl hp⟩
  · exact ⟨rfl, .inl rfl⟩

theorem handleWrite_poller (w : Connection) (r : SendResult) :
    (w.handleWrite r).channel = w.channel ∧ ((w.handleWrite r).poller = w.poller ∨
      (w.handleWrite r).poller = w.poller.exec w.channel true .disableWriting) := by
  have hobs : ∀ ok, (((w.observe (.handleWrite w.state)).check .handleWrite ok).observe
      .send).channel = w.channel ∧ (((w.observe (.handleWrite w.state)).check .handleWrite
      ok).observe .send).poller = w.poller := by
    intro ok
    obtain ⟨failed, h⟩ := (w.observe (.handleWrite w.state)).check_eq .handleWrite ok
    rw [h]
    exact ⟨rfl, rfl⟩
  unfold handleWrite
  cases r with
  | error errno => exact ⟨(hobs _).1, .inl (hobs _).2⟩
  | accepted k =>
    dsimp only
    split
    · split
      · unfold queueWriteComplete
        split <;> exact ⟨(hobs _).1, .inr (by rw [← (hobs _).1, ← (hobs _).2]; rfl)⟩
      · exact ⟨(hobs _).1, .inl (hobs _).2⟩
    · exact ⟨(hobs _).1, .inl (hobs _).2⟩

/-- The connection at any point of a run, inside of a user's callback too. -/
structure Attached (w : Connection) : Prop where
  wired : Wired w.state w.channel w.poller
  inRead : w.pc = .readCb → w.state = .connected
  inClose : ∀ b, w.pc = .disconnectionCb b → w.state = .disconnecting

section Handlers

variable {w t : Connection} {i : Input}

theorem Wired.attached (h : Wired w.state w.channel w.poller)
    (hpc : w.pc = .idle ∨ w.pc = .userCb) : w.Attached := by
  refine ⟨h, fun hp => ?_, fun b hp => ?_⟩
  · rw [hp] at hpc
    rcases hpc with hpc | hpc <;> cases hpc
  · rw [hp] at hpc
    rcases hpc with hpc | hpc <;> cases hpc

theorem wired_send (h : Wired w.state w.channel w.poller) (hc : w.state = .connected)
    (dat : List UInt8) (r : SendResult) :
    Wired (w.send_ dat r).state (w.send_ dat r).channel (w.send_ dat r).poller := by
  obtain ⟨hch, hp | hp⟩ := send_poller w dat r
  · rw [(send_frame w dat r).state, hch, hp]
    exact h
  · rw [(send_frame w dat r).state, hch, hp, hc]
    rw [hc] at h
    exact h.update nofun

theorem wired_eventWrite (h : Wired w.state w.channel w.poller)
    (hmute : Wired w.state w.channel (w.poller.exec w.channel true .disableWriting))
    (r : SendResult) : Wired (w.handleEventWrite r).state (w.handleEventWrite r).channel
      (w.handleEventWrite r).poller := by
  unfold handleEventWrite
  dsimp only
  split
  · refine Wired.setChannel ?_ rfl rfl rfl
    show Wired (w.handleWrite r).state (w.handleWrite r).channel (w.handleWrite r).poller
    obtain ⟨hch, hp | hp⟩ := handleWrite_poller w r
    · rw [handleWrite_state, hch, hp]
      exact h
    · rw [handleWrite_state, hch, hp]
      exact hmute
  · exact h.setChannel rfl rfl rfl

theorem wired_eventWrite_connected (h : Wired w.state w.channel w.poller)
    (hc : w.state = .connected) (r : SendResult) : Wired (w.handleEventWrite r).state
      (w.handleEventWrite r).channel (w.handleEventWrite r).poller := by
  refine wired_eventWrite h ?_ r
  rw [hc] at h ⊢
  exact h.update nofun

theorem wired_closeRest (h : Wired .disconnecting w.channel w.poller)
    (hs : w.state = .disconnecting) (inRead : Bool) (r : SendResult) :
    Wired (w.handleCloseRest inRead r).state (w.handleCloseRest inRead r).channel
      (w.handleCloseRest inRead r).poller := by
  have hremove : Wired w.removeCb.state w.removeCb.channel w.removeCb.poller ∧
      Wired w.removeCb.state w.removeCb.channel
        (w.removeCb.poller.exec w.removeCb.channel true .disableWriting) := by
    unfold removeCb
    cases w.remover with
    | serverLoop => exact ⟨h.destroy, h.muteDestroyed⟩
    | otherLoop =>
      show Wired w.state w.channel w.poller ∧ Wired w.state w.channel _
      rw [hs]
      exact ⟨h, h.muteClosing⟩
    | client =>
      show Wired w.state w.channel w.poller ∧ Wired w.state w.channel _
      rw [hs]
      exact ⟨h, h.muteClosing⟩
  unfold handleCloseRest
  dsimp only
  split
  · exact wired_eventWrite hremove.1 hremove.2 r
  · exact hremove.1.setChannel rfl rfl rfl

theorem attached_close (h : Wired w.state w.channel w.poller) (hc : w.state = .connected)
    (inRead : Bool) (r : SendResult) : (w.handleClose inRead r).Attached := by
  rw [hc] at h
  unfold handleClose
  dsimp only
  split
  · exact ⟨h.close, nofun, fun b _ => rfl⟩
  · refine Wired.attached ?_ (.inl (handleCloseRest_pc _ _ _))
    refine wired_closeRest ?_ rfl inRead r
    exact h.close

theorem attached_read (h : Wired w.state w.channel w.poller) (hc : w.state = .connected)
    (read : Buffer.ReadvResult) (r : SendResult) : (w.handleRead read r).Attached := by
  have hread : Wired (w.afterReadFd read).state (w.afterReadFd read).channel
      (w.afterReadFd read).poller := h
  have hc : (w.afterReadFd read).state = .connected := hc
  have hend := w.readHandled read r
  generalize w.handleRead read r = t at hend ⊢
  cases hend with
  | callback => exact ⟨hread, fun _ => hc, nofun⟩
  | write => exact Wired.attached (wired_eventWrite_connected hread hc r) (.inl rfl)
  | eof => exact attached_close hread hc true r

/-- An event is reported for a connected connection only. -/
theorem Attached.connected_of_deliverable (h : w.Attached) {mask : EventMask}
    (hd : w.deliverable mask = true) : w.state = .connected := by
  by_contra hn
  unfold deliverable at hd
  split at hd
  · cases hd
  · rename_i m c hk
    simp only [Bool.and_eq_true, beq_iff_eq] at hd
    obtain ⟨rfl, -⟩ := hd
    exact h.wired.dead hn ((h.wired.registry.interest _ _ _).mp hk).2.1

theorem attached_event (h : w.Attached) {mask : EventMask} {read : Buffer.ReadvResult}
    {r : SendResult} (hpc : w.pc = .idle) (hd : w.deliverable mask = true) :
    ((w.setRevents mask).handleEvent read r).Attached := by
  have hc := h.connected_of_deliverable hd
  have hrev : Wired w.state w.channel (w.setRevents mask).poller :=
    h.wired.setChannel rfl rfl rfl
  have hw : Wired ((w.setRevents mask).setHandling true).state
      ((w.setRevents mask).setHandling true).channel
      ((w.setRevents mask).setHandling true).poller := hrev.setChannel rfl rfl rfl
  have hc : ((w.setRevents mask).setHandling true).state = .connected := hc
  have hpc : ((w.setRevents mask).setHandling true).pc = .idle := hpc
  have hend := (w.setRevents mask).eventHandled read r
  generalize (w.setRevents mask).handleEvent read r = t at hend ⊢
  cases hend with
  | close => exact attached_close hw hc false r
  | error => exact Wired.attached (hw.setChannel rfl rfl rfl) (.inl hpc)
  | read => exact attached_read hw hc read r
  | write => exact Wired.attached (wired_eventWrite_connected hw hc r) (.inl rfl)

theorem attached_runTask (h : Wired w.state w.channel w.poller) (hpc : w.pc = .idle)
    (task : ConnTask) (r : SendResult) : (w.runTask task r).Attached := by
  cases task with
  | sendInLoop dat =>
    have hpc' : (w.send_ dat r).pc = .idle := (send_frame w dat r).pc.trans hpc
    by_cases hc : w.state = .connected
    · exact Wired.attached (wired_send h hc dat r) (.inl hpc')
    · rw [runTask, show w.send_ dat r = w from if_neg hc]
      exact Wired.attached h (.inl hpc)
  | shutdownWriteInLoop =>
    simp only [runTask, shutdownWriteInLoop]
    split <;> exact Wired.attached h (.inl hpc)
  | forceCloseInLoop =>
    simp only [runTask, forceCloseInLoop]
    split
    · exact Wired.attached h (.inl hpc)
    · rename_i hopen
      have hc : w.state = .connected := by
        by_contra hc
        exact hopen (h.closed hc)
      exact attached_close h hc false r
  | connectionDestroy => exact Wired.attached h.destroy (.inl hpc)
  | writeComplete => exact Wired.attached h (.inr rfl)
  | highWaterMark n => exact Wired.attached h (.inr rfl)

/-- A step that changes neither the registration nor the program counter. -/
theorem Attached.frame (h : w.Attached) (hw : Wired t.state t.channel t.poller)
    (hs : t.state = w.state) (hpc : t.pc = w.pc) : t.Attached := by
  refine ⟨hw, ?_, ?_⟩
  · rw [hs, hpc]
    exact h.inRead
  · rw [hs, hpc]
    exact h.inClose

theorem step_attached (h : w.Attached) (hn : w.Next i t) : t.Attached := by
  cases hn with
  | event hpc hd => exact attached_event h hpc hd
  | retUser => exact Wired.attached h.wired (.inl rfl)
  | @retRead r hpc =>
    exact Wired.attached (wired_eventWrite_connected h.wired (h.inRead hpc) r) (.inl rfl)
  | @retClose r inRead hpc =>
    have hs := h.inClose inRead hpc
    refine Wired.attached (wired_closeRest ?_ hs inRead r) (.inl (handleCloseRest_pc _ _ _))
    rw [← hs]
    exact h.wired
  | @send dat r hc =>
    have hframe := send_frame w dat r
    exact h.frame (wired_send h.wired hc dat r) hframe.state hframe.pc
  | @task task rest r hpc =>
    exact attached_runTask (w := { w with taskList := rest }) h.wired hpc task r
  | @other c op hne hu => exact h.frame (h.wired.other hne hu op) rfl rfl
  | _ => exact h.frame h.wired rfl rfl

theorem attached_established {p : Epoller} (hp : p.Registry) {c : ChanId}
    (ha : p.Admissible (c, .enableReading)) (cb : Callbacks) (rm : Remover) (ov : Nat) :
    (Connection.new p c cb rm ov).connectionEstablished.Attached := by
  have hgood := good_established hp ha cb rm ov
  have hs : (Connection.new p c cb rm ov).connectionEstablished.state = .connected := by
    rw [connectionEstablished_eq]
    rfl
  refine ⟨⟨hgood.tidy.registry, hgood.tidy.fdPos, hgood.tidy.fdLt, hgood.tidy.started,
    hgood.tidy.live, hgood.tidy.dead, ?_⟩, hgood.inRead, fun b hpc => ?_⟩
  · rw [hs]
    nofun
  · exact absurd hs (hgood.inClose b hpc).1

end Handlers

end Connection

end LinuxNet
