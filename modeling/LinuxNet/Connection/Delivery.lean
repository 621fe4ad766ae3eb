import LinuxNet.Connection.Link

/-!
# Every byte can be delivered

A link is never stuck with bytes on the way. While an end is connected its channel stays
registered for reading (`Listens`), and for writing as long as output is pending, so the
kernel can always report the event that moves the stream on: `flush_event` is a writable event
that empties `buffer_output_`, `read_event` a readable one. `run_drain` puts such rounds in a
row; each of them takes the flight down by what `readv` has room for.
-/

namespace LinuxNet

set_option autoImplicit false

open LinuxNet.Lib LinuxNet.Lib.Pipe

namespace Connection

/-! ## The reading interest -/

theorem has_in_or_out (m : EventMask) : EventMask.has (m ||| EPOLLOUT) EPOLLIN = m.has EPOLLIN := by
  rw [EventMask.has_or, show EventMask.has EPOLLOUT EPOLLIN = false by decide, Bool.or_false]

theorem has_in_and_not_out (m : EventMask) :
    EventMask.has (m &&& ~~~EPOLLOUT) EPOLLIN = m.has EPOLLIN := by
  unfold EventMask.has
  rw [BitVec.and_assoc, show ~~~EPOLLOUT &&& EPOLLIN = EPOLLIN by decide]

/-- A connected connection is registered for reading. -/
def Listens (w : Connection) : Prop := w.state = .connected → w.chan.events.has EPOLLIN = true

section Listens

variable {w q t : Connection} {i : Input}

theorem events_send (w : Connection) (dat : List UInt8) (r : SendResult) :
    (w.send_ dat r).chan.events.has EPOLLIN = w.chan.events.has EPOLLIN := by
  obtain ⟨hch, hp | hp⟩ := send_poller w dat r
  · rw [chan, hch, hp, chan]
  · rw [chan, hch, hp, Epoller.exec_events]
    exact has_in_or_out _

theorem events_eventWrite (w : Connection) (r : SendResult) :
    (w.handleEventWrite r).chan.events.has EPOLLIN = w.chan.events.has EPOLLIN := by
  have hwrite : (w.handleWrite r).chan.events.has EPOLLIN = w.chan.events.has EPOLLIN := by
    obtain ⟨hch, hp | hp⟩ := handleWrite_poller w r
    · rw [chan, hch, hp, chan]
    · rw [chan, hch, hp, Epoller.exec_events]
      exact has_in_and_not_out _
  have hset (x : Connection) :
      ({ x.setHandling false with pc := .idle } : Connection).chan.events = x.chan.events := by
    simp [chan, setHandling, Epoller.setChannel]
  unfold handleEventWrite
  dsimp only
  split
  · rw [hset]
    exact hwrite
  · rw [hset]

theorem events_event (w : Connection) (mask : EventMask) :
    ((w.setRevents mask).setHandling true).chan.events = w.chan.events := by
  simp [chan, setHandling, setRevents, Epoller.setChannel]

/-- A step that ends connected leaves the reading interest alone. -/
theorem step_events (h : w.Attached) (hn : w.Next i t) (hc : t.state = .connected) :
    t.chan.events.has EPOLLIN = w.chan.events.has EPOLLIN := by
  cases hn with
  | @event mask read r =>
    have hset := events_event w mask
    have hend := (w.setRevents mask).eventHandled read r
    generalize (w.setRevents mask).handleEvent read r = t at hend hc ⊢
    cases hend with
    | close => exact absurd hc (handleClose_state _ _ _)
    | error => simp [chan, setHandling, setRevents, Epoller.setChannel]
    | write => rw [events_eventWrite, hset]
    | read =>
      have hread : (((w.setRevents mask).setHandling true).afterReadFd read).chan.events =
          w.chan.events := hset
      have hend := ((w.setRevents mask).setHandling true).readHandled read r
      generalize ((w.setRevents mask).setHandling true).handleRead read r = t at hend hc ⊢
      cases hend with
      | callback => exact congrArg (EventMask.has · EPOLLIN) hread
      | write => rw [events_eventWrite, hread]
      | eof => exact absurd hc (handleClose_state _ _ _)
  | retRead => exact events_eventWrite w _
  | @retClose r inRead hpc =>
    rw [handleCloseRest_state] at hc
    exact absurd hc (removeCb_state (by rw [h.inClose inRead hpc]; decide))
  | send => exact events_send w _ _
  | @task task rest r _ hlist =>
    cases task with
    | sendInLoop dat => exact events_send { w with taskList := rest } dat r
    | shutdownWriteInLoop =>
      simp only [runTask, shutdownWriteInLoop]
      split <;> rfl
    | forceCloseInLoop =>
      revert hc
      simp only [runTask, forceCloseInLoop]
      split
      · exact fun _ => rfl
      · exact fun hc => absurd hc (handleClose_state _ _ _)
    | connectionDestroy => cases hc
    | writeComplete => rfl
    | highWaterMark n => rfl
  | @other c op hne =>
    exact congrArg (fun ch : Channel => ch.events.has EPOLLIN) (chan_other w hne op)
  | _ => rfl

theorem step_listens (ha : w.Attached) (h : w.Listens) (hn : w.Next i t) : t.Listens := fun hc => by
  have hcw : w.state = .connected := (step_stream hn hc).connected
  rw [step_events ha hn hc]
  exact h hcw

theorem listens_established {p : Epoller} {c : ChanId} (cb : Callbacks) (rm : Remover) (ov : Nat) :
    (Connection.new p c cb rm ov).connectionEstablished.Listens := fun _ => by
  rw [connectionEstablished_eq]
  show EventMask.has (updateEvent { Connection.new p c cb rm ov with state := .connected }
    .enableReading).chan.events EPOLLIN = true
  rw [chan_updateEvent, Epoller.Op.mask, EventMask.has_or]
  exact Bool.or_eq_true_iff.mpr (.inr (by decide))

end Listens

/-! ## Events that the kernel can always report -/

section Events

variable {w : Connection}

/-- A single bit of interest is among those that may be reported. -/
theorem and_not_of_has {m : EventMask} (x : EventMask) {k : Nat}
    (h : m.has (BitVec.twoPow 32 k) = true) : BitVec.twoPow 32 k &&& ~~~(m ||| x) = 0#32 := by
  have hbit : m.getLsbD k = true := by
    rw [EventMask.has, BitVec.and_twoPow, bne_iff_ne] at h
    by_contra hoff
    exact h (if_neg hoff)
  rw [BitVec.and_comm, BitVec.and_twoPow]
  simp [hbit]

/-- A connected channel of interest is in the interest set of the kernel. -/
theorem deliverable_of_has (ha : w.Attached) (hc : w.state = .connected) {k : Nat}
    (hev : w.chan.events.has (BitVec.twoPow 32 k) = true) :
    w.deliverable (BitVec.twoPow 32 k) = true := by
  have hadded : w.chan.status = .kAdded := by
    have hlive := ha.wired.live hc
    cases hst : w.chan.status with
    | kNew => exact absurd hst hlive
    | kAdded => rfl
    | kDel =>
      have hnone : w.chan.events = Channel.kNoneEvent := ha.wired.registry.deleted _ hst
      rw [hnone] at hev
      simp [EventMask.has, Channel.kNoneEvent] at hev
  have hk : w.poller.kernel w.chan.fd = some (w.chan.events, w.channel) :=
    (ha.wired.registry.interest _ _ _).mpr ⟨rfl, hadded, rfl⟩
  have hsub := and_not_of_has (EPOLLERR ||| EPOLLHUP) hev
  rw [← BitVec.or_assoc] at hsub
  rw [deliverable, hk]
  simp [hsub]

/-- The input of a readable event that delivers `dat`. -/
def readable (dat : List UInt8) : Input := .event EPOLLIN (.bytes dat) (.error 0)

/-- **A readable event** of a connected connection: the stream it sends is as before, and it
is idle again, or in `read_cb_` with nothing to write behind it. -/
theorem read_event (ha : w.Attached) (hl : w.Listens) (hc : w.state = .connected)
    (hpc : w.pc = .idle) {dat : List UInt8} (hne : dat ≠ []) :
    ∃ t, w.step (readable dat) = some t ∧ t.view = w.view ∧ (t.pc = .idle ∨ t.pc = .readCb) := by
  have hd : w.deliverable EPOLLIN = true := deliverable_of_has (k := 0) ha hc (hl hc)
  refine ⟨_, by rw [readable, step, if_pos ⟨hpc, hd⟩], ?_⟩
  have hrev := revents_setRevents w EPOLLIN true
  have hview : ((w.setRevents EPOLLIN).setHandling true).view = w.view := by simp
  have hend := (w.setRevents EPOLLIN).eventHandled (.bytes dat) (.error 0)
  generalize (w.setRevents EPOLLIN).handleEvent (.bytes dat) (.error 0) = t at hend ⊢
  cases hend with
  | close hhup =>
    rw [hrev] at hhup
    cases hhup
  | error hhup herr =>
    rw [hrev] at herr
    cases herr
  | write hhup herr hin =>
    rw [hrev] at hin
    cases hin
  | read =>
    have hread : (((w.setRevents EPOLLIN).setHandling true).afterReadFd (.bytes dat)).view =
        w.view := hview
    have hend := ((w.setRevents EPOLLIN).setHandling true).readHandled (.bytes dat) (.error 0)
    generalize ((w.setRevents EPOLLIN).setHandling true).handleRead (.bytes dat) (.error 0) = t
      at hend ⊢
    cases hend with
    | callback => exact ⟨hread, .inr rfl⟩
    | write =>
      refine ⟨?_, .inl rfl⟩
      rw [view_handleEventWrite, hread]
      have hout : (((w.setRevents EPOLLIN).setHandling true).afterReadFd
        (.bytes dat)).chan.revents.has EPOLLOUT = false := by
        show (((w.setRevents EPOLLIN).setHandling true).chan.revents).has EPOLLOUT = false
        rw [hrev]
        decide
      rw [hout, if_neg Bool.false_ne_true]
    | eof hnil => exact absurd (Buffer.ReadvResult.bytes.inj hnil) hne

/-- A `::send` that takes nothing leaves the stream alone. -/
theorem View.flush_error (v : View) (errno : Nat) : v.flush (.error errno) = v := by
  rw [View.flush, if_pos (by simp [SendResult.taken])]

/-- A callback of a connected connection can return. -/
theorem return_event (ha : w.Attached) (hc : w.state = .connected) (hpc : w.pc ≠ .idle) :
    ∃ t, w.step (.ret (.error 0)) = some t ∧ t.view = w.view ∧ t.pc = .idle := by
  cases hw : w.pc with
  | idle => exact absurd hw hpc
  | userCb => exact ⟨{ w with pc := .idle }, by rw [step, hw], rfl, rfl⟩
  | readCb =>
    refine ⟨w.handleEventWrite (.error 0), by rw [step, hw], ?_, rfl⟩
    rw [view_handleEventWrite, View.flush_error, ite_self]
  | disconnectionCb inRead =>
    have hdis := ha.inClose inRead hw
    rw [hc] at hdis
    cases hdis

/-- The user takes all that is unread. -/
theorem take_event (w : Connection) : ∃ t, w.step (.take w.bufferInput.readableBytes) = some t ∧
    t.view = w.view ∧ t.pc = w.pc :=
  ⟨_, rfl, rfl, rfl⟩

/-- **A writable event** for which the kernel has room: all that is buffered goes out. -/
theorem flush_event (ha : w.Attached) (hm : w.view.Mirror) (hc : w.state = .connected)
    (hpc : w.pc = .idle) (hout : w.bufferOutput.contents ≠ []) :
    ∃ t, w.step (.event EPOLLOUT (.error 0) (.accepted w.bufferOutput.readableBytes)) = some t ∧
      t.state = .connected ∧ t.pc = .idle ∧ t.wire = w.wire ++ w.bufferOutput.contents ∧
      t.bufferOutput.contents = [] ∧ t.sent = w.sent := by
  have hb : w.bufferOutput.Inv := hm.flow.buffer
  have hlen := hb.length_contents
  have hpos : 0 < w.bufferOutput.readableBytes := hlen ▸ List.length_pos_of_ne_nil hout
  have hwriting : w.chan.events.has EPOLLOUT = true := hm.writing_iff.mpr hpos
  have hd : w.deliverable EPOLLOUT = true := deliverable_of_has (k := 2) ha hc hwriting
  refine ⟨_, by rw [step, if_pos ⟨hpc, hd⟩], ?_⟩
  have hrev := revents_setRevents w EPOLLOUT true
  have hview : ((w.setRevents EPOLLOUT).setHandling true).view = w.view := by simp
  have hflush : w.view.flush (.accepted w.bufferOutput.readableBytes) =
      { w.view with
        wire := w.wire ++ w.bufferOutput.contents
        output := w.bufferOutput.retrieve w.bufferOutput.readableBytes
        writing := false } := by
    rw [View.flush]
    simp only [SendResult.taken, view_output, Nat.min_self, view_wire, view_writing]
    rw [if_neg (by omega), ← hlen, List.take_length]
    simp
  have hend := (w.setRevents EPOLLOUT).eventHandled (.error 0)
    (.accepted w.bufferOutput.readableBytes)
  generalize (w.setRevents EPOLLOUT).handleEvent (.error 0)
    (.accepted w.bufferOutput.readableBytes) = t at hend ⊢
  cases hend with
  | close hhup =>
    rw [hrev] at hhup
    cases hhup
  | error hhup herr =>
    rw [hrev] at herr
    cases herr
  | read hhup herr hin =>
    rw [hrev] at hin
    cases hin
  | write =>
    have hv := view_handleEventWrite ((w.setRevents EPOLLOUT).setHandling true)
      (.accepted w.bufferOutput.readableBytes)
    rw [hrev, if_pos (by decide), hview, hflush] at hv
    refine ⟨?_, rfl, congrArg View.wire hv, ?_, congrArg View.sent hv⟩
    · exact (congrArg View.state hv).trans hc
    · have ho := congrArg View.output hv
      dsimp only [view_output] at ho
      rw [ho, (Buffer.retrieve_spec hb (Nat.le_refl _)).2, ← hlen, List.drop_length]

end Events

end Connection

/-! ## Draining a direction -/

namespace Link

section Drain

variable {l l' : Link} {s : Side} {ins : List (Side × Connection.Input)}

/-- The end `s` is in order, and connected. -/
structure Serving (l : Link) (s : Side) : Prop where
  carries : l.Carries s
  attached : (l.conn s).Attached
  listens : (l.conn s).Listens
  connected : (l.conn s).state = .connected

theorem step_advance {ci : Connection.Input} {w : Connection} (hoff : l.offers s ci = true)
    (hw : (l.conn s).step ci = some w) : l.step (s, ci) = some (l.advance s ci w) := by
  rw [step, if_pos hoff, hw]
  rfl

theorem Serving.advance (h : l.Serving s) {ci : Connection.Input} {w : Connection}
    (hoff : l.offers s ci = true) (hw : (l.conn s).step ci = some w)
    (hc : w.state = .connected) : (l.advance s ci w).Serving s := by
  have hn := Connection.step_next hw
  refine ⟨step_carries h.carries (step_advance hoff hw), ?_, ?_, ?_⟩
  · rw [advance_conn]
    exact Connection.step_attached h.attached hn
  · rw [advance_conn]
    exact Connection.step_listens h.attached h.listens hn
  · rw [advance_conn]
    exact hc

/-- A run in which only the end `s` goes on, reads and keeps its own stream. -/
structure Reads (l l' : Link) (s : Side) (ins : List (Side × Connection.Input)) : Prop where
  run : Machine.run step l ins = some l'
  own : ∀ i ∈ ins, i.1 = s
  serving : l'.Serving s
  peer : l'.conn s.peer = l.conn s.peer
  view : (l'.conn s).view = (l.conn s).view

theorem Reads.trans {m : Link} {js : List (Side × Connection.Input)} (h : Reads l m s ins)
    (h' : Reads m l' s js) : Reads l l' s (ins ++ js) := by
  refine ⟨Machine.run_append_iff.mpr ⟨m, h.run, h'.run⟩, fun i hi => ?_, h'.serving,
    h'.peer.trans h.peer, h'.view.trans h.view⟩
  rcases List.mem_append.mp hi with hi | hi
  · exact h.own i hi
  · exact h'.own i hi

theorem reads_nil (h : l.Serving s) : Reads l l s [] :=
  ⟨rfl, by simp, h, rfl, rfl⟩

theorem reads_one (h : l.Serving s) {ci : Connection.Input} {w : Connection}
    (hoff : l.offers s ci = true) (hw : (l.conn s).step ci = some w)
    (hv : w.view = (l.conn s).view) : Reads l (l.advance s ci w) s [(s, ci)] := by
  have hc : w.state = .connected := (congrArg Connection.View.state hv).trans h.connected
  refine ⟨?_, by simp, h.advance hoff hw hc, advance_conn_peer l s ci w, ?_⟩
  · rw [Machine.run_singleton]
    exact step_advance hoff hw
  · rw [advance_conn]
    exact hv

/-- A callback of the end `s` returns. -/
theorem reads_return (h : l.Serving s) :
    ∃ ins l', Reads l l' s ins ∧ (l'.conn s).pc = .idle ∧ l'.flightTo s = l.flightTo s ∧
      l'.received s = l.received s := by
  by_cases hpc : (l.conn s).pc = .idle
  · exact ⟨[], l, reads_nil h, hpc, rfl, rfl⟩
  · obtain ⟨w, hw, hv, hidle⟩ := Connection.return_event h.attached h.connected hpc
    have hnone : l.received s ++ (Connection.Input.ret (.error 0)).arrives = l.received s :=
      List.append_nil _
    refine ⟨_, _, reads_one h rfl hw hv, ?_, ?_, ?_⟩
    · rw [advance_conn]
      exact hidle
    · rw [flightTo, advance_received, advance_conn_peer, hnone]
      rfl
    · rw [advance_received, hnone]

/-- **One round**: `readv` delivers what it has room for, and the callback returns. -/
theorem drain_round (h : l.Serving s) (hpc : (l.conn s).pc = .idle) (hne : l.flightTo s ≠ []) :
    ∃ ins l', Reads l l' s ins ∧ (l'.conn s).pc = .idle ∧
      (l'.flightTo s).length < (l.flightTo s).length := by
  generalize hroom : (l.conn s).bufferInput.writableBytes + Buffer.kExtraSize = room
  have hpos : 0 < room := by
    rw [← hroom, Buffer.kExtraSize]
    omega
  have hflight : 0 < (l.flightTo s).length := List.length_pos_of_ne_nil hne
  obtain ⟨dat, hdat⟩ : ∃ dat, dat = (l.flightTo s).take room := ⟨_, rfl⟩
  have hlen : dat.length = min room (l.flightTo s).length := by rw [hdat, List.length_take]
  have hdatne : dat ≠ [] := by
    intro hnil
    rw [hnil, List.length_nil] at hlen
    omega
  have hfront : dat <+: l.flightTo s := hdat ▸ List.take_prefix _ _
  have hoff : l.offers s (Connection.readable dat) = true := by
    have hfit : dat.length ≤ (l.conn s).bufferInput.writableBytes + Buffer.kExtraSize := by omega
    simp [Connection.readable, offers, hfront, hfit, hdatne]
  obtain ⟨w, hw, hv, hstop⟩ := Connection.read_event h.attached h.listens h.connected hpc hdatne
  have hread := reads_one h hoff hw hv
  have harr : (Connection.readable dat).arrives = dat := rfl
  have hleft : l.flightTo s = dat ++ (l.advance s (Connection.readable dat) w).flightTo s := by
    rw [flightTo, flightTo, advance_received, advance_conn_peer, harr]
    exact flight_leave (leave_of_flight h.carries.pipe hfront)
  obtain ⟨ins, l', hret, hidle, hsame, -⟩ := reads_return hread.serving
  refine ⟨_, l', hread.trans hret, hidle, ?_⟩
  have hsum := congrArg List.length hleft
  rw [List.length_append] at hsum
  rw [hsame]
  omega

theorem run_drain (h : l.Serving s) (hpc : (l.conn s).pc = .idle) :
    ∃ ins l', Reads l l' s ins ∧ (l'.conn s).pc = .idle ∧ l'.flightTo s = [] := by
  induction hn : (l.flightTo s).length using Nat.strong_induction_on generalizing l with
  | _ n ih =>
    by_cases hne : l.flightTo s = []
    · exact ⟨[], l, reads_nil h, hpc, hne⟩
    · obtain ⟨ins, m, hround, hidle, hless⟩ := drain_round h hpc hne
      obtain ⟨js, l', hrest, hdone⟩ := ih _ (hn ▸ hless) hround.serving hidle rfl
      exact ⟨_, l', hround.trans hrest, hdone⟩

/-- The receiving end reads all that is in flight, and its user takes it. -/
theorem run_take (h : l.Serving s) : ∃ ins l', Reads l l' s ins ∧ (l'.conn s).pc = .idle ∧
    l'.taken s = (l.conn s.peer).wire := by
  obtain ⟨ins, m, hret, hidle, -⟩ := reads_return h
  obtain ⟨js, n, hdrain, hidle, hnone⟩ := run_drain hret.serving hidle
  obtain ⟨w, hw, hv, hpc⟩ := (n.conn s).take_event
  have htake := reads_one hdrain.serving rfl hw hv
  refine ⟨_, _, (hret.trans hdrain).trans htake, ?_, ?_⟩
  · rw [advance_conn]
    exact hpc.trans hidle
  · have hwire := hdrain.serving.carries.wire
    rw [hnone, List.append_nil, hdrain.peer, hret.peer] at hwire
    have hall : (n.conn s).takes (.take (n.conn s).bufferInput.readableBytes) =
        (n.conn s).bufferInput.contents := by
      rw [Connection.takes, Nat.min_self, ← hdrain.serving.carries.input.length_contents,
        List.take_length]
    rw [advance_taken, hall, hwire]

/-- All of the buffered output can go out, whatever the other end is doing. -/
theorem run_flush (h : l.Serving s) (hacc : ∃ hist, (l.conn s).Account hist) :
    ∃ ins l', Machine.run step l ins = some l' ∧ (l'.conn s).state = .connected ∧
      (l'.conn s).pc = .idle ∧ (l'.conn s).wire = (l.conn s).view.stream ∧
      (l'.conn s).sent = (l.conn s).sent ∧ l'.conn s.peer = l.conn s.peer := by
  obtain ⟨ins, m, hret, hidle, -⟩ := reads_return h
  obtain ⟨hist, hacc⟩ := hacc
  have hmirror : (m.conn s).view.Mirror := hret.view ▸ (hacc.mirrored h.connected).mirror
  have hsent : (m.conn s).sent = (l.conn s).sent := congrArg Connection.View.sent hret.view
  by_cases hout : (m.conn s).bufferOutput.contents = []
  · refine ⟨ins, m, hret.run, hret.serving.connected, hidle, ?_, hsent, hret.peer⟩
    rw [← hret.view, Connection.View.stream, Connection.view_wire, Connection.view_output, hout,
      List.append_nil]
  · obtain ⟨w, hw, hc, hpc, hwire, -, hsame⟩ := Connection.flush_event hret.serving.attached
      hmirror hret.serving.connected hidle hout
    have hrun := Machine.run_append_iff.mpr
      ⟨m, hret.run, (Machine.run_singleton _ _ _).trans (step_advance rfl hw)⟩
    refine ⟨_, _, hrun, ?_, ?_, ?_, ?_, ?_⟩
    · rw [advance_conn]
      exact hc
    · rw [advance_conn]
      exact hpc
    · rw [advance_conn, hwire, ← hret.view]
      rfl
    · rw [advance_conn, hsame, hsent]
    · rw [advance_conn_peer, hret.peer]

end Drain

/-! ## Whole runs -/

section Runs

variable {conn : Side → Connection} {l l' : Link} {i : Side × Connection.Input}

/-- Both ends are in order. -/
structure Sound (l : Link) : Prop where
  carries : ∀ s, l.Carries s
  attached : ∀ s, (l.conn s).Attached
  listens : ∀ s, (l.conn s).Listens

theorem step_sound (h : l.Sound) (hs : l.step i = some l') : l'.Sound := by
  obtain ⟨w, hn, -, rfl⟩ := step_next hs
  obtain ⟨side, ci⟩ := i
  refine ⟨fun s => step_carries (h.carries s) hs, fun s => ?_, fun s => ?_⟩
  · rcases eq_or_peer side s with rfl | rfl
    · rw [advance_conn]
      exact Connection.step_attached (h.attached _) hn
    · rw [advance_conn_peer]
      exact h.attached _
  · rcases eq_or_peer side s with rfl | rfl
    · rw [advance_conn]
      exact Connection.step_listens (h.attached _) (h.listens _) hn
    · rw [advance_conn_peer]
      exact h.listens _

theorem Sound.serving (h : l.Sound) {s : Side} (hc : (l.conn s).state = .connected) :
    l.Serving s :=
  ⟨h.carries s, h.attached s, h.listens s, hc⟩

theorem sound_new (hopen : ∀ s, (conn s).Opened) : (Link.new conn).Sound := by
  refine ⟨carries_new hopen, fun s => ?_, fun s => ?_⟩
  · obtain ⟨p, c, fd, cb, rm, ov, hp, -, ha, hconn⟩ := hopen s
    show (conn s).Attached
    rw [hconn]
    exact Connection.attached_established hp ha cb rm ov
  · obtain ⟨p, c, fd, cb, rm, ov, -, -, -, hconn⟩ := hopen s
    show (conn s).Listens
    rw [hconn]
    exact Connection.listens_established cb rm ov

/-- **No byte is stuck.** From every state that a run of the link leads to with both ends
connected, in either direction, the ends can go on, without a further message of the sender,
until the receiving user has taken all that the sender's kernel has accepted and all that was
in the sender's `buffer_output_`; both ends are then still connected, outside of their
handlers. -/
theorem link_drains (conn : Side → Connection) (hopen : ∀ s, (conn s).Opened)
    (ins : List (Side × Connection.Input)) (l : Link)
    (hr : Machine.run step (Link.new conn) ins = some l) (s : Side)
    (hboth : ∀ s, (l.conn s).state = .connected) :
    ∃ ins' l', Machine.run step l ins' = some l' ∧
      l'.taken s = (l.conn s.peer).wire ++ (l.conn s.peer).bufferOutput.contents ∧
      (l'.conn s.peer).sent = (l.conn s.peer).sent ∧
      ∀ s, (l'.conn s).state = .connected ∧ (l'.conn s).pc = .idle := by
  have hsound : l.Sound := Machine.run_invariant step_sound (sound_new hopen) hr
  obtain ⟨js, m, hflush, hc, hidle, hwire, hsent, hrecv⟩ :=
    run_flush (hsound.serving (hboth s.peer)) (hsound.carries s).account
  rw [Side.peer_peer] at hrecv
  have hsound' : m.Sound := Machine.run_invariant step_sound hsound hflush
  have hserve : m.Serving s := hsound'.serving (hrecv ▸ hboth s)
  obtain ⟨ks, n, hreads, hdone, htaken⟩ := run_take hserve
  refine ⟨js ++ ks, n, Machine.run_append_iff.mpr ⟨m, hflush, hreads.run⟩, ?_, ?_, fun t => ?_⟩
  · rw [htaken, hwire]
    rfl
  · rw [hreads.peer, hsent]
  · rcases eq_or_peer s t with rfl | rfl
    · exact ⟨hreads.serving.connected, hdone⟩
    · rw [hreads.peer]
      exact ⟨hc, hidle⟩

/-- The server is in `read_cb_` with the first byte, the second is buffered by the client. -/
theorem link_drains_buffered : ∃ l ins' l',
    Machine.run step (Link.new fun _ => (Connection.new (Epoller.new 8 (· + 1)) 3
        ⟨false, false, true, false, false⟩ .serverLoop 100).connectionEstablished)
      [(.client, .send [65, 66] (.accepted 1)),
       (.server, .event EPOLLIN (.bytes [65]) (.error 0))] = some l ∧
    ((l.conn .server).pc, l.taken .server) = (.readCb, []) ∧
    Machine.run step l ins' = some l' ∧ l'.taken .server = [65, 66] := by
  obtain ⟨l, hr, hl⟩ := Option.map_eq_some_iff.mp (show (Machine.run step (Link.new fun _ =>
      (Connection.new (Epoller.new 8 (· + 1)) 3 ⟨false, false, true, false, false⟩ .serverLoop
        100).connectionEstablished)
      [(.client, .send [65, 66] (.accepted 1)),
       (.server, .event EPOLLIN (.bytes [65]) (.error 0))]).map
      (fun l => (((l.conn .server).pc, l.taken .server), (l.conn .client).state,
        (l.conn .server).state, (l.conn .client).wire, (l.conn .client).bufferOutput.contents)) =
      some ((.readCb, []), .connected, .connected, [65], [66]) by decide +kernel)
  simp only [Prod.mk.injEq] at hl
  obtain ⟨hnow, hclient, hserver, hwire, hout⟩ := hl
  have ha : (Epoller.new 8 (· + 1)).Admissible (3, .enableReading) :=
    ⟨by decide, by decide, fun _ _ c _ _ => rfl⟩
  have hboth : ∀ s, (l.conn s).state = .connected := by
    intro s
    cases s
    · exact hclient
    · exact hserver
  obtain ⟨ins', l', hrun, htaken, -⟩ := link_drains _ (fun _ => ⟨_, 3, 4, _, _, _,
    Epoller.registry_new _ _, rfl, ha, rfl⟩) _ l hr .server hboth
  have hall : (l.conn Side.server.peer).wire ++ (l.conn Side.server.peer).bufferOutput.contents =
      [65, 66] := by
    show (l.conn .client).wire ++ (l.conn .client).bufferOutput.contents = [65, 66]
    rw [hwire, hout]
    rfl
  exact ⟨l, ins', l', hr, Prod.ext_iff.mpr hnow, hrun, htaken.trans hall⟩

end Runs

end Link

end LinuxNet
