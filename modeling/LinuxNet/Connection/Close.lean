import LinuxNet.Poller.Registry
import LinuxNet.Connection.Stream

/-!
# The close protocol

`HandleClose` turns the channel off before anybody can look at it again, and from
then on every entry to the connection is guarded by `state_`. The one way past
the guards is `HandleEvent_` itself: it goes on with the writable part of a mask
whose readable part has just run `HandleClose`. `Tidy` is what holds between the
handlers as long as that does not happen, and `Doomed` what follows once it does.
-/

namespace LinuxNet

set_option autoImplicit false

open LinuxNet.Lib

/-! ## Logs -/

/-- `HandleRead` and `HandleWrite` are entered in state CONNECTED only, and behind
`HandleClose` there is neither a `::send` nor an update of the channel. -/
structure CloseSafe (log : List ConnObs) : Prop where
  read : ∀ st, .handleRead st ∈ log → st = .connected
  write : ∀ st, .handleWrite st ∈ log → st = .connected
  quiet : ∀ before after, log = before ++ .handleClose :: after →
    .send ∉ after ∧ .updateChannel ∉ after

/-- What an observation may be, given that the connection is still open or not. -/
def ConnObs.Allowed (o : ConnObs) (closed : Prop) : Prop :=
  match o with
  | .handleRead st | .handleWrite st => st = .connected
  | .send | .updateChannel => ¬ closed
  | .handleClose | .removeChannel => True

theorem closeSafe_nil : CloseSafe [] := by
  refine ⟨by simp, by simp, fun before after h => ?_⟩
  simp at h

theorem CloseSafe.snoc {log : List ConnObs} (h : CloseSafe log) {o : ConnObs}
    (ho : o.Allowed (.handleClose ∈ log)) : CloseSafe (log ++ [o]) := by
  refine ⟨fun st hst => ?_, fun st hst => ?_, fun before after heq => ?_⟩
  · rcases List.mem_append.mp hst with hin | hin
    · exact h.read st hin
    · rw [← List.mem_singleton.mp hin] at ho
      exact ho
  · rcases List.mem_append.mp hst with hin | hin
    · exact h.write st hin
    · rw [← List.mem_singleton.mp hin] at ho
      exact ho
  · -- either the new entry is the `HandleClose`, or it is the last one behind it
    rcases List.eq_nil_or_concat after with rfl | ⟨rest, x, rfl⟩
    · simp
    · have hcat : log ++ [o] = (before ++ .handleClose :: rest) ++ [x] := by simpa using heq
      obtain ⟨hlog, hx⟩ := List.append_inj' hcat rfl
      obtain ⟨hs, hu⟩ := h.quiet before rest hlog
      have hin : ConnObs.handleClose ∈ log := by simp [hlog]
      obtain rfl : o = x := by simpa using hx
      have hnew : ∀ y, ¬ y.Allowed (ConnObs.handleClose ∈ log) → y ∉ rest →
          y ∉ rest.concat o := by
        intro y hy hrest hmem
        rcases List.mem_append.mp (List.concat_eq_append ▸ hmem) with hr | hr
        · exact hrest hr
        · exact hy ((List.mem_singleton.mp hr).symm ▸ ho)
      exact ⟨hnew _ (fun hn => hn hin) hs, hnew _ (fun hn => hn hin) hu⟩

namespace Connection

/-! ## Between the handlers -/

/-- The channel follows the state, and nothing wrong has been observed. -/
structure Tidy (w : Connection) : Prop where
  registry : w.poller.Registry
  fdPos : 0 < w.chan.fd
  fdLt : w.chan.fd < w.poller.size
  started : w.state ≠ .connecting
  live : w.state = .connected → w.chan.status ≠ .kNew
  dead : w.state ≠ .connected → w.chan.status ≠ .kAdded
  gone : w.state = .disconnected → w.chan.status = .kNew
  safe : CloseSafe w.log
  closed : .handleClose ∈ w.log → w.state ≠ .connected

/-- `Tidy` reads four fields. -/
theorem Tidy.congr {w t : Connection} (h : w.Tidy) (hs : t.state = w.state)
    (hc : t.channel = w.channel) (hp : t.poller = w.poller) (hl : t.log = w.log) : t.Tidy := by
  have hch : t.chan = w.chan := by rw [chan, chan, hp, hc]
  constructor
  · exact hp ▸ h.registry
  · exact hch ▸ h.fdPos
  · exact hch ▸ hp ▸ h.fdLt
  · exact hs ▸ h.started
  · exact hs ▸ hch ▸ h.live
  · exact hs ▸ hch ▸ h.dead
  · exact hs ▸ hch ▸ h.gone
  · exact hl ▸ h.safe
  · exact hl ▸ hs ▸ h.closed

theorem Tidy.check {w : Connection} (h : w.Tidy) (site : Assert) (ok : Bool) :
    (w.check site ok).Tidy := by
  unfold Connection.check
  split
  · exact h
  · exact h.congr rfl rfl rfl rfl

theorem Tidy.queueWriteComplete {w : Connection} (h : w.Tidy) : w.queueWriteComplete.Tidy := by
  unfold Connection.queueWriteComplete
  split
  · exact h.congr rfl rfl rfl rfl
  · exact h

theorem Tidy.observe {w : Connection} (h : w.Tidy) {o : ConnObs}
    (ho : o.Allowed (w.state ≠ .connected)) (hcl : o = .handleClose → w.state ≠ .connected) :
    (w.observe o).Tidy := by
  have hallowed : o.Allowed (.handleClose ∈ w.log) := by
    cases o with
    | send => exact fun hin => ho (h.closed hin)
    | updateChannel => exact fun hin => ho (h.closed hin)
    | _ => exact ho
  refine ⟨h.registry, h.fdPos, h.fdLt, h.started, h.live, h.dead, h.gone, h.safe.snoc hallowed, ?_⟩
  intro hin
  rcases List.mem_append.mp hin with hold | hnew
  · exact h.closed hold
  · exact hcl (List.mem_singleton.mp hnew).symm

theorem Tidy.setChan {w : Connection} (h : w.Tidy) {ch : Channel} (hfd : ch.fd = w.chan.fd)
    (hst : ch.status = w.chan.status) (hev : ch.events = w.chan.events) :
    ({ w with poller := w.poller.setChannel w.channel ch } : Connection).Tidy := by
  have hch : ({ w with poller := w.poller.setChannel w.channel ch } : Connection).chan = ch := by
    simp [chan, Epoller.setChannel]
  refine ⟨h.registry.setChannel hfd hst hev, ?_, ?_, h.started, ?_, ?_, ?_, h.safe, h.closed⟩
  · rw [hch, hfd]
    exact h.fdPos
  · rw [hch, hfd]
    exact h.fdLt
  · rw [hch, hst]
    exact h.live
  · rw [hch, hst]
    exact h.dead
  · rw [hch, hst]
    exact h.gone

theorem Tidy.setHandling {w : Connection} (h : w.Tidy) (b : Bool) : (w.setHandling b).Tidy :=
  h.setChan rfl rfl rfl

theorem Tidy.setRevents {w : Connection} (h : w.Tidy) (m : EventMask) : (w.setRevents m).Tidy :=
  h.setChan rfl rfl rfl

theorem chan_of_outcome {w t : Connection} {ch : Channel} (ht : t.channel = w.channel)
    (ho : Epoller.Outcome w.poller t.poller w.channel ch) : t.chan = ch := by
  rw [chan, ht, ho.chans, Function.update_self]

/-- An update of a connected connection leaves its channel registered. -/
theorem tidy_updateEvent {w : Connection} {op : Epoller.Op} (hreg : w.poller.Registry)
    (ha : w.poller.Admissible (w.channel, op)) (hop : op ≠ .remove) (hc : w.state = .connected)
    (hsafe : CloseSafe w.log) (hopen : .handleClose ∉ w.log) : (w.updateEvent op).Tidy := by
  have ho := Epoller.exec_spec hreg ha
  have hch : ({ w with poller := w.poller.exec w.channel true op } : Connection).chan =
    op.effect w.chan := chan_of_outcome (w := w) rfl ho
  refine Tidy.observe ?_ (fun hn => hn hc) (fun hn => by cases hn)
  refine ⟨ho.registry, ?_, ?_, by simp [hc], fun _ => ?_, fun hn => absurd hc hn, by simp [hc],
    hsafe, fun hin => absurd hin hopen⟩
  · rw [hch, Epoller.effect_fd]
    exact ha.1
  · rw [hch, Epoller.effect_fd, ho.size]
    exact ha.2.1
  · rw [hch, Epoller.Op.effect, if_neg hop]
    exact Epoller.listening_ne_new _ _

/-- A tidy connection that is still connected owns its slot in the poller. -/
theorem Tidy.admissible {w : Connection} (h : w.Tidy) (hc : w.state = .connected)
    (op : Epoller.Op) : w.poller.Admissible (w.channel, op) :=
  ⟨h.fdPos, h.fdLt, fun _ hnew => absurd hnew (h.live hc)⟩

theorem Tidy.updateEvent {w : Connection} (h : w.Tidy) (hc : w.state = .connected)
    {op : Epoller.Op} (hop : op ≠ .remove) : (w.updateEvent op).Tidy :=
  tidy_updateEvent h.registry (h.admissible hc op) hop hc h.safe (fun hin => h.closed hin hc)

theorem Tidy.connectionDestroy {w : Connection} (h : w.Tidy) : w.connectionDestroy.Tidy := by
  have ho := Epoller.removeChannel_spec h.registry w.channel
  have hch : ({ w with
      state := .disconnected
      poller := w.poller.exec w.channel true .remove } : Connection).chan =
    Epoller.removed w.chan := chan_of_outcome (w := w) rfl ho
  refine Tidy.observe ?_ trivial (fun hn => by cases hn)
  refine ⟨ho.registry, ?_, ?_, by simp, by simp, fun _ => ?_, fun _ => ?_, h.safe, by simp⟩
  · rw [hch]
    exact h.fdPos
  · rw [hch]
    exact ho.size ▸ h.fdLt
  · rw [hch]
    simp [Epoller.removed]
  · rw [hch]
    rfl

theorem Tidy.removeCb {w : Connection} (h : w.Tidy) : w.removeCb.Tidy := by
  unfold Connection.removeCb
  cases w.remover with
  | serverLoop => exact h.connectionDestroy
  | otherLoop => exact h.congr rfl rfl rfl rfl
  | client => exact h.congr rfl rfl rfl rfl

/-! ## The handlers -/

theorem Tidy.sendMostPossible_ {w : Connection} (h : w.Tidy) (hc : w.state = .connected)
    (dat : List UInt8) (r : SendResult) : (w.sendMostPossible_ dat r).2.Tidy ∧
      (w.sendMostPossible_ dat r).2.state = w.state ∧ (w.sendMostPossible_ dat r).2.pc = w.pc := by
  unfold Connection.sendMostPossible_
  dsimp only
  split
  · have hcheck := h.check .sendMostPossible (w.bufferOutput.readableBytes = 0)
    have hframe : (w.check .sendMostPossible (w.bufferOutput.readableBytes = 0)).state = w.state ∧
        (w.check .sendMostPossible (w.bufferOutput.readableBytes = 0)).pc = w.pc := by
      unfold Connection.check
      split <;> exact ⟨rfl, rfl⟩
    have hobs := hcheck.observe (o := .send) (fun hn => hn (hframe.1.trans hc))
      (fun hn => by cases hn)
    cases r with
    | error errno => exact ⟨hobs, hframe⟩
    | accepted k => exact ⟨hobs.congr rfl rfl rfl rfl, hframe⟩
  · exact ⟨h, rfl, rfl⟩

theorem Tidy.sendDatQueueInBuffer_ {w : Connection} (h : w.Tidy) (hc : w.state = .connected)
    (dat : List UInt8) : (w.sendDatQueueInBuffer_ dat).Tidy ∧
      (w.sendDatQueueInBuffer_ dat).state = w.state ∧
      (w.sendDatQueueInBuffer_ dat).pc = w.pc := by
  have hq : ∀ q : Connection, q.Tidy → q.state = w.state → q.pc = w.pc →
      (if q.isWriting = false then q.updateEvent .enableWriting else q).Tidy ∧
      (if q.isWriting = false then q.updateEvent .enableWriting else q).state = w.state ∧
      (if q.isWriting = false then q.updateEvent .enableWriting else q).pc = w.pc := by
    intro q hq hs hp
    split
    · exact ⟨hq.updateEvent (hs.trans hc) (by simp), hs, hp⟩
    · exact ⟨hq, hs, hp⟩
  unfold Connection.sendDatQueueInBuffer_
  dsimp only
  split
  · exact hq _ (h.congr rfl rfl rfl rfl) rfl rfl
  · exact hq _ (h.congr rfl rfl rfl rfl) rfl rfl

theorem Tidy.send_ {w : Connection} (h : w.Tidy) (dat : List UInt8) (r : SendResult) :
    (w.send_ dat r).Tidy ∧ (w.send_ dat r).state = w.state ∧ (w.send_ dat r).pc = w.pc := by
  unfold Connection.send_
  split
  · rename_i hc
    have h0 : ({ w with sent := w.sent ++ [dat] } : Connection).Tidy := h.congr rfl rfl rfl rfl
    obtain ⟨ht, hs, hp⟩ := h0.sendMostPossible_ hc dat r
    dsimp only
    split
    · rename_i q heq
      rw [heq] at ht hs hp
      exact ⟨ht, hs, hp⟩
    · rename_i remain q heq
      rw [heq] at ht hs hp
      split
      · obtain ⟨ht', hs', hp'⟩ := ht.sendDatQueueInBuffer_ (hs.trans hc)
          (dat.drop (dat.length - remain))
        exact ⟨ht', hs'.trans hs, hp'.trans hp⟩
      · refine ⟨ht.queueWriteComplete, ?_, ?_⟩
        · exact (congrArg View.state (view_queueWriteComplete q)).trans hs
        · unfold Connection.queueWriteComplete
          split <;> exact hp
  · exact ⟨h, rfl, rfl⟩

theorem Tidy.handleWrite {w : Connection} (h : w.Tidy) (hc : w.state = .connected)
    (r : SendResult) : (w.handleWrite r).Tidy := by
  have hobs := ((h.observe (o := .handleWrite w.state) hc (fun hn => by cases hn)).check
    .handleWrite (w.state = .connected)).observe (o := .send)
    (fun hn => hn ((congrArg View.state (view_check _ _ _)).trans hc)) (fun hn => by cases hn)
  unfold Connection.handleWrite
  cases r with
  | error errno => exact hobs
  | accepted k =>
    dsimp only
    split
    · split
      · refine Tidy.queueWriteComplete (Tidy.updateEvent ?_ ?_ (by simp))
        · exact hobs.congr rfl rfl rfl rfl
        · exact (congrArg View.state (view_check _ _ _)).trans hc
      · exact hobs.congr rfl rfl rfl rfl
    · exact hobs

theorem Tidy.handleEventWrite {w : Connection} (h : w.Tidy)
    (hout : w.chan.revents.has EPOLLOUT = true → w.state = .connected) (r : SendResult) :
    (w.handleEventWrite r).Tidy := by
  unfold Connection.handleEventWrite
  dsimp only
  split
  · rename_i hhas
    exact (((h.handleWrite (hout hhas) r).setHandling false).congr rfl rfl rfl rfl)
  · exact (h.setHandling false).congr rfl rfl rfl rfl

/-- What the poller does for a channel leaves alone the events it has reported. -/
theorem revents_exec (w : Connection) (op : Epoller.Op) :
    ((w.poller.exec w.channel true op).chans w.channel).revents = w.chan.revents := by
  obtain ⟨st, hst⟩ := Epoller.exec_chans w.poller w.channel true op
  simp [hst, chan]

theorem revents_removeCb (w : Connection) : w.removeCb.chan.revents = w.chan.revents := by
  unfold Connection.removeCb
  cases w.remover with
  | serverLoop => exact revents_exec w .remove
  | otherLoop => rfl
  | client => rfl

theorem Tidy.handleCloseRest {w : Connection} (h : w.Tidy) {inRead : Bool}
    (hout : inRead = true → w.chan.revents.has EPOLLOUT = false) (r : SendResult) :
    (w.handleCloseRest inRead r).Tidy := by
  unfold Connection.handleCloseRest
  dsimp only
  split
  · rename_i hin
    refine h.removeCb.handleEventWrite (fun hhas => ?_) r
    rw [revents_removeCb, hout hin] at hhas
    cases hhas
  · exact (h.removeCb.setHandling false).congr rfl rfl rfl rfl

/-- The first half of `HandleClose`: the channel is registered without interest. -/
theorem Tidy.closing {w : Connection} (h : w.Tidy) (hc : w.state = .connected) :
    (({ w with state := .disconnecting }.updateEvent .disableAll).observe .handleClose).Tidy := by
  have ho := Epoller.exec_spec h.registry (h.admissible hc .disableAll)
  have hch : (({ w with state := .disconnecting }.updateEvent .disableAll).observe
      .handleClose).chan = Epoller.listening w.chan Channel.kNoneEvent :=
    chan_of_outcome (w := w) rfl ho
  have hopen : ConnObs.handleClose ∉ w.log := fun hin => h.closed hin hc
  have hsafe : CloseSafe ((w.log ++ [.updateChannel]) ++ [.handleClose]) :=
    (h.safe.snoc (o := .updateChannel) hopen).snoc (o := .handleClose) trivial
  refine ⟨ho.registry, ?_, ?_, ?_, ?_, fun _ => ?_, ?_, hsafe, ?_⟩
  · rw [hch]
    exact h.fdPos
  · rw [hch]
    exact ho.size ▸ h.fdLt
  · simp [Connection.observe, Connection.updateEvent]
  · simp [Connection.observe, Connection.updateEvent]
  · rw [hch, Epoller.listening_none]
    simp
  · simp [Connection.observe, Connection.updateEvent]
  · simp [Connection.observe, Connection.updateEvent]

/-! ## Whole runs -/

/-- The connection at any point of a run, inside of a user's callback too. -/
structure Good (w : Connection) : Prop where
  tidy : w.Tidy
  inRead : w.pc = .readCb → w.state = .connected
  inClose : ∀ b, w.pc = .disconnectionCb b → w.state ≠ .connected ∧
    (b = true → w.chan.revents.has EPOLLOUT = false)

theorem Tidy.good {w : Connection} (h : w.Tidy) (hpc : w.pc = .idle ∨ w.pc = .userCb) : w.Good := by
  refine ⟨h, fun hp => ?_, fun b hp => ?_⟩
  · rw [hp] at hpc
    rcases hpc with hpc | hpc <;> cases hpc
  · rw [hp] at hpc
    rcases hpc with hpc | hpc <;> cases hpc

theorem handleCloseRest_pc (w : Connection) (inRead : Bool) (r : SendResult) :
    (w.handleCloseRest inRead r).pc = .idle := by
  unfold handleCloseRest
  dsimp only
  split <;> rfl

theorem good_handleClose {w : Connection} (h : w.Tidy) (hc : w.state = .connected) {inRead : Bool}
    (hout : inRead = true → w.chan.revents.has EPOLLOUT = false) (r : SendResult) :
    (w.handleClose inRead r).Good := by
  have htidy := h.closing hc
  have hrev : (({ w with state := .disconnecting }.updateEvent .disableAll).observe
      .handleClose).chan.revents = w.chan.revents := revents_exec w .disableAll
  unfold handleClose
  dsimp only
  split
  · refine ⟨htidy.congr rfl rfl rfl rfl, (fun hp => by cases hp), fun b hp => ⟨?_, ?_⟩⟩
    · simp [Connection.observe, Connection.updateEvent]
    · cases hp
      exact fun hb => (congrArg (EventMask.has · EPOLLOUT) hrev).trans (hout hb)
  · refine Tidy.good (htidy.handleCloseRest (fun hin => ?_) r) (.inl (handleCloseRest_pc _ _ _))
    rw [hrev]
    exact hout hin

theorem good_handleRead {w : Connection} (h : w.Tidy) (hc : w.state = .connected)
    (read : Buffer.ReadvResult) (hout : read = .bytes [] → w.chan.revents.has EPOLLOUT = false)
    (r : SendResult) : (w.handleRead read r).Good := by
  have hobs := h.observe (o := .handleRead w.state) hc (fun hn => by cases hn)
  have hread : (w.afterReadFd read).Tidy := hobs.congr rfl rfl rfl rfl
  have hend := w.readHandled read r
  generalize w.handleRead read r = t at hend ⊢
  cases hend with
  | callback => exact ⟨hread.congr rfl rfl rfl rfl, fun _ => hc, (fun b hp => by cases hp)⟩
  | write => exact (hread.handleEventWrite (fun _ => hc) r).good (.inl rfl)
  | eof heof => exact good_handleClose hread hc (fun _ => hout heof) r

/-- A mask with a readable and a writable part, for which `readv` finds the end
of the stream. -/
def EofWithOut : Input → Prop
  | .event mask read _ =>
    mask.has (EPOLLHUP ||| EPOLLRDHUP) = false ∧ mask.has EPOLLERR = false ∧
      mask.has (EPOLLIN ||| EPOLLPRI) = true ∧ mask.has EPOLLOUT = true ∧ read = .bytes []
  | _ => False

theorem deliverable_added {w : Connection} (h : w.Tidy) {mask : EventMask}
    (hd : w.deliverable mask = true) : w.state = .connected := by
  by_contra hn
  unfold deliverable at hd
  split at hd
  · cases hd
  · rename_i m c hk
    simp only [Bool.and_eq_true, beq_iff_eq] at hd
    obtain ⟨rfl, _⟩ := hd
    exact h.dead hn ((h.registry.interest _ _ _).mp hk).2.1

theorem good_event {w : Connection} (h : w.Tidy) {mask : EventMask} {read : Buffer.ReadvResult}
    {r : SendResult} (hpc : w.pc = .idle) (hd : w.deliverable mask = true)
    (he : ¬ EofWithOut (.event mask read r)) :
    ((w.setRevents mask).handleEvent read r).Good := by
  have hc := deliverable_added h hd
  have ht := (h.setRevents mask).setHandling true
  have hrev := revents_setRevents w mask true
  have hend := (w.setRevents mask).eventHandled read r
  generalize (w.setRevents mask).handleEvent read r = t at hend ⊢
  cases hend with
  | close => exact good_handleClose ht hc (fun hn => by cases hn) r
  | error => exact (ht.setHandling false).good (.inl hpc)
  | read hhup herr hin =>
    rw [hrev] at hhup herr hin
    refine good_handleRead ht hc read (fun heof => ?_) r
    rw [hrev]
    by_contra hout
    exact he ⟨hhup, herr, hin, by simpa using hout, heof⟩
  | write => exact (ht.handleEventWrite (fun _ => hc) r).good (.inl rfl)

theorem good_runTask {w : Connection} (h : w.Tidy) (hpc : w.pc = .idle) (t : ConnTask)
    (r : SendResult) : (w.runTask t r).Good := by
  cases t with
  | sendInLoop dat =>
    obtain ⟨ht, _, hp⟩ := h.send_ dat r
    exact ht.good (.inl (hp.trans hpc))
  | shutdownWriteInLoop =>
    simp only [runTask, shutdownWriteInLoop]
    split
    · exact Tidy.good (h.congr rfl rfl rfl rfl) (.inl hpc)
    · exact h.good (.inl hpc)
  | forceCloseInLoop =>
    simp only [runTask, forceCloseInLoop]
    split
    · exact h.good (.inl hpc)
    · rename_i hopen
      have hc : w.state = .connected := by
        have hne := h.started
        cases hs : w.state <;> simp_all
      exact good_handleClose h hc (fun hn => by cases hn) r
  | connectionDestroy => exact h.connectionDestroy.good (.inl hpc)
  | writeComplete => exact Tidy.good (h.congr rfl rfl rfl rfl) (.inr rfl)
  | highWaterMark n => exact Tidy.good (h.congr rfl rfl rfl rfl) (.inr rfl)

/-- A step that changes neither the channel nor the program counter. -/
theorem Good.frame {w t : Connection} (h : w.Good) (ht : t.Tidy) (hs : t.state = w.state)
    (hch : t.chan = w.chan) (hp : t.pc = w.pc) : t.Good := by
  refine ⟨ht, fun hpc => ?_, fun b hpc => ?_⟩
  · rw [hs]
    exact h.inRead (hp.symm.trans hpc)
  · rw [hs, hch]
    exact h.inClose b (hp.symm.trans hpc)

/-- **One step of the close protocol.** -/
theorem step_good {w t : Connection} {i : Input} (h : w.Good) (hi : ¬ EofWithOut i)
    (hn : w.Next i t) : t.Good := by
  cases hn with
  | event hpc hd => exact good_event h.tidy hpc hd hi
  | retUser => exact Tidy.good (h.tidy.congr rfl rfl rfl rfl) (.inl rfl)
  | @retRead r hpc =>
    exact (h.tidy.handleEventWrite (fun _ => h.inRead hpc) r).good (.inl rfl)
  | @retClose r b hpc =>
    exact (h.tidy.handleCloseRest (h.inClose b hpc).2 r).good (.inl (handleCloseRest_pc _ _ _))
  | @send dat r hc =>
    obtain ⟨ht, hst, hp⟩ := h.tidy.send_ dat r
    refine ⟨ht, fun _ => hst.trans hc, fun b hpc => ?_⟩
    exact absurd hc (h.inClose b (hp.symm.trans hpc)).1
  | sendLate => exact h
  | take => exact h.frame (h.tidy.congr rfl rfl rfl rfl) rfl rfl rfl
  | call => exact h.frame (h.tidy.congr rfl rfl rfl rfl) rfl rfl rfl
  | callLate => exact h
  | push => exact h.frame (h.tidy.congr rfl rfl rfl rfl) rfl rfl rfl
  | @task _ _ r hpc =>
    refine good_runTask ?_ ?_ _ r
    · exact h.tidy.congr rfl rfl rfl rfl
    · exact hpc
  | removeInLoop => exact h.frame (h.tidy.congr rfl rfl rfl rfl) rfl rfl rfl
  | @other c op hne hu =>
    have hch := chan_other w hne op
    have ho := Epoller.exec_spec h.tidy.registry
      (Epoller.admissible_of_usable h.tidy.registry hu op)
    refine h.frame ⟨ho.registry, ?_, ?_, h.tidy.started, ?_, ?_, ?_, h.tidy.safe,
      h.tidy.closed⟩ rfl hch rfl
    · rw [hch]
      exact h.tidy.fdPos
    · rw [hch, ho.size]
      exact h.tidy.fdLt
    · rw [hch]
      exact h.tidy.live
    · rw [hch]
      exact h.tidy.dead
    · rw [hch]
      exact h.tidy.gone

theorem good_established {p : Epoller} (hp : p.Registry) {c : ChanId}
    (ha : p.Admissible (c, .enableReading)) (cb : Callbacks) (rm : Remover) (ov : Nat) :
    (Connection.new p c cb rm ov).connectionEstablished.Good := by
  have htidy : (({ Connection.new p c cb rm ov with state := .connected } : Connection).updateEvent
      .enableReading).Tidy :=
    tidy_updateEvent hp ha (by simp) rfl closeSafe_nil (fun hin => by cases hin)
  unfold connectionEstablished
  dsimp only
  split
  · exact Tidy.good (htidy.congr rfl rfl rfl rfl) (.inr rfl)
  · exact htidy.good (.inl rfl)

/-! ## The log only grows -/

@[simp] theorem check_log (w : Connection) (site : Assert) (ok : Bool) :
    (w.check site ok).log = w.log := by
  obtain ⟨failed, h⟩ := w.check_eq site ok
  rw [h]

@[simp] theorem queueWriteComplete_log (w : Connection) : w.queueWriteComplete.log = w.log := by
  unfold queueWriteComplete
  split <;> rfl

@[simp] theorem observe_log (w : Connection) (o : ConnObs) : (w.observe o).log = w.log ++ [o] := rfl

theorem handleWrite_log (w : Connection) (r : SendResult) :
    w.log ++ [.handleWrite w.state] <+: (w.handleWrite r).log := by
  unfold handleWrite
  cases r with
  | error errno => simp
  | accepted k =>
    dsimp only
    split
    · split
      · simp [updateEvent]
      · simp
    · simp

theorem handleEventWrite_log (w : Connection) (r : SendResult) :
    w.log <+: (w.handleEventWrite r).log := by
  unfold handleEventWrite
  dsimp only
  split
  · exact (List.prefix_append _ _).trans (handleWrite_log w r)
  · exact List.prefix_rfl

theorem handleEventWrite_mem {w : Connection} (hout : w.chan.revents.has EPOLLOUT = true)
    (r : SendResult) : .handleWrite w.state ∈ (w.handleEventWrite r).log := by
  unfold handleEventWrite
  rw [if_pos hout]
  exact (handleWrite_log w r).subset (by simp)

theorem removeCb_log (w : Connection) : w.log <+: w.removeCb.log := by
  unfold removeCb
  cases w.remover with
  | serverLoop => exact List.prefix_append _ _
  | otherLoop => exact List.prefix_rfl
  | client => exact List.prefix_rfl

theorem handleCloseRest_log (w : Connection) (inRead : Bool) (r : SendResult) :
    w.log <+: (w.handleCloseRest inRead r).log := by
  unfold handleCloseRest
  dsimp only
  split
  · exact (removeCb_log w).trans (handleEventWrite_log _ r)
  · exact removeCb_log w

theorem handleClose_log (w : Connection) (inRead : Bool) (r : SendResult) :
    w.log <+: (w.handleClose inRead r).log := by
  have hpre : w.log <+: (({ w with state := .disconnecting }.updateEvent .disableAll).observe
      .handleClose).log := (List.prefix_append _ _).trans (List.prefix_append _ _)
  unfold handleClose
  dsimp only
  split
  · exact hpre
  · exact hpre.trans (handleCloseRest_log _ _ r)

theorem handleRead_log (w : Connection) (read : Buffer.ReadvResult) (r : SendResult) :
    w.log <+: (w.handleRead read r).log := by
  have hpre : w.log <+: (w.afterReadFd read).log := List.prefix_append _ _
  have hend := w.readHandled read r
  generalize w.handleRead read r = t at hend ⊢
  cases hend with
  | callback => exact hpre
  | write => exact hpre.trans (handleEventWrite_log _ r)
  | eof => exact hpre.trans (handleClose_log _ _ r)

theorem handleEvent_log (w : Connection) (read : Buffer.ReadvResult) (r : SendResult) :
    w.log <+: (w.handleEvent read r).log := by
  have hend := w.eventHandled read r
  generalize w.handleEvent read r = t at hend ⊢
  cases hend with
  | close => exact handleClose_log (w.setHandling true) _ r
  | error => exact List.prefix_rfl
  | read => exact handleRead_log (w.setHandling true) read r
  | write => exact handleEventWrite_log (w.setHandling true) r

theorem sendMostPossible_log (w : Connection) (dat : List UInt8) (r : SendResult) :
    w.log <+: (w.sendMostPossible_ dat r).2.log := by
  unfold sendMostPossible_
  dsimp only
  split
  · cases r <;> simp
  · exact List.prefix_rfl

theorem sendDatQueueInBuffer_log (w : Connection) (dat : List UInt8) :
    w.log <+: (w.sendDatQueueInBuffer_ dat).log := by
  unfold sendDatQueueInBuffer_
  dsimp only
  split <;> split <;> simp [updateEvent, queueInLoop]

theorem send_log (w : Connection) (dat : List UInt8) (r : SendResult) :
    w.log <+: (w.send_ dat r).log := by
  unfold send_
  split
  · have hlog := sendMostPossible_log { w with sent := w.sent ++ [dat] } dat r
    dsimp only
    split
    · rename_i q heq
      rw [heq] at hlog
      exact hlog
    · rename_i remain q heq
      rw [heq] at hlog
      split
      · exact hlog.trans (sendDatQueueInBuffer_log q _)
      · rw [queueWriteComplete_log]
        exact hlog
  · exact List.prefix_rfl

theorem runTask_log (w : Connection) (t : ConnTask) (r : SendResult) :
    w.log <+: (w.runTask t r).log := by
  cases t with
  | sendInLoop dat => exact send_log w dat r
  | shutdownWriteInLoop =>
    simp only [runTask, shutdownWriteInLoop]
    split <;> exact List.prefix_rfl
  | forceCloseInLoop =>
    simp only [runTask, forceCloseInLoop]
    split
    · exact List.prefix_rfl
    · exact handleClose_log w _ r
  | connectionDestroy => exact List.prefix_append _ _
  | writeComplete => exact List.prefix_rfl
  | highWaterMark n => exact List.prefix_rfl

theorem step_log {w t : Connection} {i : Input} (hn : w.Next i t) : w.log <+: t.log := by
  cases hn with
  | @event mask read r => exact handleEvent_log (w.setRevents mask) read r
  | @retRead r => exact handleEventWrite_log w r
  | @retClose r => exact handleCloseRest_log w _ r
  | @send dat r => exact send_log w dat r
  | @task _ _ r =>
    refine List.IsPrefix.trans ?_ (runTask_log _ _ r)
    exact List.prefix_rfl
  | _ => exact List.prefix_rfl

/-! ## After the wrong mask -/

/-- `HandleWrite` has been entered after `HandleClose`, or will be when the user's
callback returns. -/
def Doomed (w : Connection) : Prop :=
  (∃ st, .handleWrite st ∈ w.log ∧ st ≠ .connected) ∨
    (w.pc = .disconnectionCb true ∧ w.chan.revents.has EPOLLOUT = true ∧ w.state ≠ .connected)

theorem handleCloseRest_doomed {w : Connection} (hout : w.chan.revents.has EPOLLOUT = true)
    (hs : w.state ≠ .connected) (r : SendResult) :
    ∃ st, .handleWrite st ∈ (w.handleCloseRest true r).log ∧ st ≠ .connected :=
  ⟨_, handleEventWrite_mem (by rw [revents_removeCb]; exact hout) r, removeCb_state hs⟩

theorem handleClose_doomed {w : Connection} (hout : w.chan.revents.has EPOLLOUT = true)
    (r : SendResult) : (w.handleClose true r).Doomed := by
  have hrev : (({ w with state := .disconnecting }.updateEvent .disableAll).observe
      .handleClose).chan.revents = w.chan.revents := revents_exec w .disableAll
  have hstate : (({ w with state := .disconnecting }.updateEvent .disableAll).observe
      .handleClose).state ≠ .connected := by simp [observe, updateEvent]
  unfold handleClose
  dsimp only
  split
  · exact .inr ⟨rfl, (congrArg (EventMask.has · EPOLLOUT) hrev).trans hout, hstate⟩
  · exact .inl (handleCloseRest_doomed (by rw [hrev]; exact hout) hstate r)

/-- At the end of file `HandleRead` is `HandleClose`. -/
theorem handleRead_eof (w : Connection) (r : SendResult) :
    ∃ q : Connection, w.handleRead (.bytes []) r = q.handleClose true r ∧ q.chan = w.chan ∧
      q.callbacks = w.callbacks ∧ q.taskList = w.taskList := by
  have hend := w.readHandled (.bytes []) r
  generalize w.handleRead (.bytes []) r = t at hend ⊢
  cases hend with
  | callback hread => exact absurd rfl hread
  | write hread => exact absurd rfl hread
  | eof => exact ⟨w.afterReadFd (.bytes []), rfl, rfl, rfl, rfl⟩

/-- With the wrong mask `HandleEvent_` is `HandleClose` from within `HandleRead`. -/
theorem handleEvent_eofWithOut {w : Connection} {mask : EventMask} {read : Buffer.ReadvResult}
    {r : SendResult} (hi : EofWithOut (.event mask read r)) :
    ∃ q : Connection, (w.setRevents mask).handleEvent read r = q.handleClose true r ∧
      q.chan.revents.has EPOLLOUT = true := by
  obtain ⟨hhup, herr, hin, hout, rfl⟩ := hi
  have hrev := revents_setRevents w mask true
  unfold handleEvent
  simp only [hrev, hhup, herr, hin, Bool.false_eq_true, ↓reduceIte]
  obtain ⟨q, hq, hch, -⟩ := handleRead_eof ((w.setRevents mask).setHandling true) r
  refine ⟨q, hq, ?_⟩
  rw [hch, hrev]
  exact hout

/-- The wrong mask dooms the connection. -/
theorem step_eofWithOut {w t : Connection} {i : Input} (hi : EofWithOut i)
    (hn : w.Next i t) : t.Doomed := by
  cases hn with
  | event =>
    obtain ⟨q, hq, hout⟩ := handleEvent_eofWithOut (w := w) hi
    rw [hq]
    exact handleClose_doomed hout _
  | _ => exact hi.elim

theorem eofWithOut_state {w t : Connection} {i : Input} (hi : EofWithOut i) (hn : w.Next i t) :
    t.state ≠ .connected := by
  cases hn with
  | event =>
    obtain ⟨q, hq, -⟩ := handleEvent_eofWithOut (w := w) hi
    rw [hq]
    exact handleClose_state q true _
  | _ => exact hi.elim

/-- Nothing saves a doomed connection. -/
theorem step_doomed {w t : Connection} {i : Input} (h : w.Doomed) (hn : w.Next i t) :
    t.Doomed := by
  rcases h with ⟨st, hin, hst⟩ | ⟨hpc, hout, hstate⟩
  · exact .inl ⟨st, (step_log hn).subset hin, hst⟩
  · cases hn with
    | event hidle => simp [hpc] at hidle
    | retUser huser => simp [hpc] at huser
    | retRead hread => simp [hpc] at hread
    | @retClose r inRead hclose =>
      obtain rfl : true = inRead := by simpa [hpc] using hclose
      exact .inl (handleCloseRest_doomed hout hstate r)
    | send hc => simp [hstate] at hc
    | task hidle => simp [hpc] at hidle
    | @other c op hne => exact .inr ⟨hpc, by rw [chan_other w hne op]; exact hout, hstate⟩
    | _ => exact .inr ⟨hpc, hout, hstate⟩

theorem run_doomed {w t : Connection} {ins : List Input} (hi : ∃ i ∈ ins, EofWithOut i)
    (hr : Machine.run step w ins = some t) : t.Doomed := by
  obtain ⟨i, hmem, hi⟩ := hi
  obtain ⟨before, after, rfl⟩ := List.append_of_mem hmem
  obtain ⟨m, _, hrest⟩ := Machine.run_append_iff.mp hr
  obtain ⟨m', hstep, hrest⟩ := Machine.run_cons_iff.mp hrest
  exact Machine.run_invariant (fun h hs => step_doomed h (step_next hs))
    (step_eofWithOut hi (step_next hstep)) hrest

theorem run_good {w t : Connection} {ins : List Input} (h : w.Good)
    (hi : ∀ i ∈ ins, ¬ EofWithOut i) (hr : Machine.run step w ins = some t) : t.Good :=
  Machine.run_invariant_of_mem (fun h hi hs => step_good h hi (step_next hs)) h hi hr

/-- **The close protocol.** In every run of an established connection without an
event that is readable and writable while `readv` finds the end of the stream,
`HandleRead` and `HandleWrite` are entered in state CONNECTED only, nothing is sent
or updated behind `HandleClose`, and a destroyed connection stays unregistered. A
run with such an event breaks this as soon as the handler is through. -/
theorem close_protocol_iff (p : Epoller) (hp : p.Registry) (c : ChanId)
    (ha : p.Admissible (c, .enableReading)) (cb : Callbacks) (rm : Remover) (ov : Nat)
    (ins : List Input) (w : Connection)
    (hr : Machine.run step (Connection.new p c cb rm ov).connectionEstablished ins = some w) :
    ((∀ i ∈ ins, ¬ EofWithOut i) →
      CloseSafe w.log ∧ (w.state = .disconnected → w.chan.status = .kNew)) ∧
    (w.pc = .idle → (CloseSafe w.log ↔ ∀ i ∈ ins, ¬ EofWithOut i)) := by
  have hsafe : (∀ i ∈ ins, ¬ EofWithOut i) → w.Tidy := fun hi =>
    (run_good (good_established hp ha cb rm ov) hi hr).tidy
  refine ⟨fun hi => ⟨(hsafe hi).safe, (hsafe hi).gone⟩, fun hpc => ⟨?_, fun hi => (hsafe hi).safe⟩⟩
  intro hcs i hin hbad
  rcases run_doomed ⟨i, hin, hbad⟩ hr with ⟨st, hst, hne⟩ | ⟨hcb, _⟩
  · exact hne (hcs.write st hst)
  · rw [hpc] at hcb
    cases hcb

/-- A hang-up on an idle connection of a server with a single loop. -/
theorem close_protocol_iff_hup : ∃ w,
    Machine.run step (Connection.new (Epoller.new 8 (· + 1)) 3 ⟨false, false, false, false, false⟩
      .serverLoop 100).connectionEstablished [.event EPOLLHUP (.error 0) (.error 0)] = some w ∧
    w.state = .disconnected ∧ CloseSafe w.log ∧ w.chan.status = .kNew := by
  obtain ⟨w, hr, hs⟩ : ∃ w, Machine.run step (Connection.new (Epoller.new 8 (· + 1)) 3
      ⟨false, false, false, false, false⟩ .serverLoop 100).connectionEstablished
      [.event EPOLLHUP (.error 0) (.error 0)] = some w ∧ w.state = .disconnected :=
    ⟨_, rfl, rfl⟩
  have ha : (Epoller.new 8 (· + 1)).Admissible (3, .enableReading) :=
    ⟨by decide, by decide, fun _ _ c _ _ => rfl⟩
  obtain ⟨hsafe, hgone⟩ := (close_protocol_iff _ (Epoller.registry_new _ _) 3 ha _ _ _ _ w hr).1
    (by simp [EofWithOut, EventMask.has, EPOLLHUP, EPOLLRDHUP])
  exact ⟨w, hr, hs, hsafe, hgone hs⟩

/-- Output is pending when the peer closes: one mask carries both parts. The
channel is back in the poller's table after its removal. -/
theorem close_protocol_eof_with_output : ∃ w,
    Machine.run step (Connection.new (Epoller.new 8 (· + 1)) 3 ⟨false, false, false, false, false⟩
      .serverLoop 100).connectionEstablished
      [.send [65] (.accepted 0), .event (EPOLLIN ||| EPOLLOUT) (.bytes []) (.accepted 1)] = some w ∧
    w.log = [.updateChannel, .send, .updateChannel, .handleRead .connected, .updateChannel,
      .handleClose, .removeChannel, .handleWrite .disconnected, .send, .updateChannel] ∧
    w.state = .disconnected ∧ w.chan.status = .kDel ∧ ¬ CloseSafe w.log := by
  have hrun : (Machine.run step (Connection.new (Epoller.new 8 (· + 1)) 3
      ⟨false, false, false, false, false⟩ .serverLoop 100).connectionEstablished
      [.send [65] (.accepted 0), .event (EPOLLIN ||| EPOLLOUT) (.bytes []) (.accepted 1)]).map
        (fun w => (w.log, w.state, w.chan.status)) =
      some ([.updateChannel, .send, .updateChannel, .handleRead .connected, .updateChannel,
        .handleClose, .removeChannel, .handleWrite .disconnected, .send, .updateChannel],
        .disconnected, .kDel) := by decide +kernel
  obtain ⟨w, hr, heq⟩ := Option.map_eq_some_iff.mp hrun
  simp only [Prod.mk.injEq] at heq
  obtain ⟨hlog, hstate, hstatus⟩ := heq
  refine ⟨w, hr, hlog, hstate, hstatus, fun hcs => ?_⟩
  have hst := hcs.write .disconnected (by simp [hlog])
  cases hst

end Connection

end LinuxNet
