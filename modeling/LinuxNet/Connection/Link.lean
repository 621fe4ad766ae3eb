import LinuxNet.Connection.Receive
import LinuxNet.Connection.WriteComplete
import LinuxNet.Lib.Pipe

/-!
# Two connections, end to end

A `Link` is the two ends of one TCP connection, each a `TCPConnection` of its own process,
with the kernel between them. Of the kernel it is assumed that a direction is a reliable
pipe: `readv` delivers what comes next of the bytes the other end's kernel has accepted, cut
anywhere, and the end of the stream shows only behind the last byte of an end that writes
no more. The two ends go on in any order.

`step_feeds` says that an end only ever adds to what its kernel has accepted, and `Carries`
puts a message's stations in a row: buffered by the sender, in flight, unread by the
receiver, taken by the user there.
-/

namespace LinuxNet

set_option autoImplicit false

open LinuxNet.Lib LinuxNet.Lib.Pipe

namespace Connection

/-! ## What an end adds to its wire -/

section Feeds

variable {w q t : Connection} {i : Input}

/-- Bytes are added to the wire, and no message is executed. -/
structure Feeds (w t : Connection) : Prop where
  wire : w.wire <+: t.wire
  sent : t.sent = w.sent

theorem Feeds.trans (h : Feeds w q) (h' : Feeds q t) : Feeds w t :=
  ⟨h.wire.trans h'.wire, h'.sent.trans h.sent⟩

theorem Feeds.of_eq (hw : t.wire = w.wire) (hs : t.sent = w.sent) : Feeds w t :=
  ⟨hw ▸ List.prefix_refl _, hs⟩

theorem View.flush_wire (v : View) (r : SendResult) : v.wire <+: (v.flush r).wire := by
  unfold View.flush
  dsimp only
  split
  · exact List.prefix_refl _
  · exact List.prefix_append _ _

theorem View.send_wire (v : View) (dat : List UInt8) (r : SendResult) :
    v.wire <+: (v.send dat r).wire := by
  unfold View.send
  split
  · exact List.prefix_refl _
  · exact List.prefix_append _ _

theorem feeds_eventWrite (w : Connection) (r : SendResult) : Feeds w (w.handleEventWrite r) := by
  have hview := view_handleEventWrite w r
  have hwire : (w.handleEventWrite r).wire = (w.handleEventWrite r).view.wire := rfl
  have hsent : (w.handleEventWrite r).sent = (w.handleEventWrite r).view.sent := rfl
  split at hview
  · rw [hview] at hwire hsent
    exact ⟨hwire ▸ View.flush_wire w.view r, hsent.trans (View.flush_sent w.view r)⟩
  · rw [hview] at hwire hsent
    exact .of_eq hwire hsent

theorem feeds_closeRest (w : Connection) (inRead : Bool) (r : SendResult) :
    Feeds w (w.handleCloseRest inRead r) := by
  have hremove : Feeds w w.removeCb := by
    unfold removeCb
    cases w.remover <;> exact .of_eq rfl rfl
  unfold handleCloseRest
  dsimp only
  split
  · exact hremove.trans (feeds_eventWrite _ r)
  · exact hremove.trans (.of_eq rfl rfl)

theorem feeds_close (w : Connection) (inRead : Bool) (r : SendResult) :
    Feeds w (w.handleClose inRead r) := by
  unfold handleClose
  dsimp only
  split
  · exact .of_eq rfl rfl
  · refine Feeds.trans ?_ (feeds_closeRest _ inRead r)
    exact .of_eq rfl rfl

theorem feeds_event (w : Connection) (mask : EventMask) (read : Buffer.ReadvResult)
    (r : SendResult) : Feeds w ((w.setRevents mask).handleEvent read r) := by
  have hset : Feeds w ((w.setRevents mask).setHandling true) := .of_eq rfl rfl
  have hend := (w.setRevents mask).eventHandled read r
  generalize (w.setRevents mask).handleEvent read r = t at hend ⊢
  cases hend with
  | close => exact hset.trans (feeds_close _ false r)
  | error => exact .of_eq rfl rfl
  | write => exact hset.trans (feeds_eventWrite _ r)
  | read =>
    have hread : Feeds w (((w.setRevents mask).setHandling true).afterReadFd read) := .of_eq rfl rfl
    have hend := ((w.setRevents mask).setHandling true).readHandled read r
    generalize ((w.setRevents mask).setHandling true).handleRead read r = t at hend ⊢
    cases hend with
    | callback => exact hread.trans (.of_eq rfl rfl)
    | write => exact hread.trans (feeds_eventWrite _ r)
    | eof => exact hread.trans (feeds_close _ true r)

/-- A message: the wire grows, and the message is noted if it was executed. -/
theorem send_feeds (w : Connection) (dat : List UInt8) (r : SendResult) :
    w.wire <+: (w.send_ dat r).wire ∧
      (w.send_ dat r).sent = if w.state = .connected then w.sent ++ [dat] else w.sent := by
  by_cases hc : w.state = .connected
  · have hview := view_send_ hc dat r
    have hwire : (w.send_ dat r).wire = (w.view.send dat r).wire := congrArg View.wire hview
    have hsent : (w.send_ dat r).sent = (w.view.send dat r).sent := congrArg View.sent hview
    rw [if_pos hc, hwire, hsent]
    exact ⟨View.send_wire w.view dat r, View.send_sent w.view dat r⟩
  · rw [if_neg hc, send_, if_neg hc]
    exact ⟨List.prefix_refl _, rfl⟩

/-- **One step of the sending end**: what the kernel has accepted stays, and the messages
executed are those that join the stream, unless one is blocked. -/
theorem step_feeds (hn : w.Next i t) : w.wire <+: t.wire ∧
    (¬ Blocked w i → t.sent.flatten = w.sent.flatten ++ w.joins i) := by
  have hown : ∀ {t}, Feeds w t → w.message i = none → w.wire <+: t.wire ∧
      (¬ Blocked w i → t.sent.flatten = w.sent.flatten ++ w.joins i) := fun hf hm =>
    ⟨hf.wire, fun _ => by rw [hf.sent, joins_of_none hm, List.append_nil]⟩
  have hmessage : ∀ (x : Connection) (dat : List UInt8) (r : SendResult), x.view = w.view →
      w.message i = some (dat, r) → w.wire <+: (x.send_ dat r).wire ∧
      (¬ Blocked w i → (x.send_ dat r).sent.flatten = w.sent.flatten ++ w.joins i) := by
    intro x dat r hx hm
    have hxs : x.state = w.state := congrArg View.state hx
    have hxw : x.wire = w.wire := congrArg View.wire hx
    have hxe : x.sent = w.sent := congrArg View.sent hx
    obtain ⟨hwire, hsent⟩ := send_feeds x dat r
    refine ⟨hxw ▸ hwire, fun hb => ?_⟩
    rw [hsent, joins_of_some hm, drops, hxs, hxe]
    by_cases hc : w.state = .connected
    · rw [blocked_of_message hm hc] at hb
      rw [if_pos hc, List.flatten_append, List.flatten_singleton]
      by_cases hloss : w.isWriting = false ∧ r.isError = true
      · have hnil : dat = [] := by
          by_contra hne
          exact hb ⟨hloss.1, hloss.2, hne⟩
        simp [hnil]
      · rw [if_neg (by simpa [hc] using hloss)]
    · simp [hc]
  cases hn with
  | event => exact hown (feeds_event w _ _ _) rfl
  | retRead => exact hown (feeds_eventWrite w _) rfl
  | retClose => exact hown (feeds_closeRest w _ _) rfl
  | send => exact hmessage w _ _ rfl rfl
  | @sendLate dat r hc =>
    have h := hmessage w dat r rfl rfl
    rwa [send_, if_neg hc] at h
  | @task task rest r _ hlist =>
    cases task with
    | sendInLoop dat =>
      exact hmessage { w with taskList := rest } dat r rfl (by simp [message, hlist])
    | shutdownWriteInLoop =>
      refine hown ?_ (by simp [message, hlist])
      simp only [runTask, shutdownWriteInLoop]
      split <;> exact .of_eq rfl rfl
    | forceCloseInLoop =>
      refine hown ?_ (by simp [message, hlist])
      simp only [runTask, forceCloseInLoop]
      split
      · exact .of_eq rfl rfl
      · refine Feeds.trans ?_ (feeds_close _ false r)
        exact .of_eq rfl rfl
    | connectionDestroy => exact hown (.of_eq rfl rfl) (by simp [message, hlist])
    | writeComplete => exact hown (.of_eq rfl rfl) (by simp [message, hlist])
    | highWaterMark n => exact hown (.of_eq rfl rfl) (by simp [message, hlist])
  | _ => exact hown (.of_eq rfl rfl) rfl

end Feeds

/-- `ConnectionEstablished` has just been called, for a new channel of a poller in order. -/
def Opened (w : Connection) : Prop :=
  ∃ (p : Epoller) (c : ChanId) (fd : Nat) (cb : Callbacks) (rm : Remover) (ov : Nat),
    p.Registry ∧ p.chans c = Channel.new fd ∧ p.Admissible (c, .enableReading) ∧
      w = (Connection.new p c cb rm ov).connectionEstablished

end Connection

/-! ## The link -/

inductive Side where
  | client | server
  deriving DecidableEq, Repr

def Side.peer : Side → Side
  | .client => .server
  | .server => .client

theorem Side.peer_ne (s : Side) : s.peer ≠ s := by
  cases s <;> decide

@[simp] theorem Side.peer_peer (s : Side) : s.peer.peer = s := by
  cases s <;> rfl

/-- The two ends. What `readv` has delivered to an end, and what its user has taken, is kept
for the observer. -/
structure Link where
  conn : Side → Connection
  received : Side → List UInt8
  taken : Side → List UInt8

namespace Link

open Connection (Blocked)

/-- Nothing has been read yet. -/
def new (conn : Side → Connection) : Link := ⟨conn, fun _ => [], fun _ => []⟩

/-- What the kernels hold for the end `s`. -/
def flightTo (l : Link) (s : Side) : List UInt8 := flight (l.conn s.peer).wire (l.received s)

/-- An end that writes no more. -/
def finished (w : Connection) : Bool :=
  w.shutWr || w.state == .disconnecting || w.state == .disconnected

/-- What the kernel may answer to the end `s`: `readv` fills at most the two areas it is given
with what is in flight, and the end of the stream comes behind it. -/
def offers (l : Link) (s : Side) : Connection.Input → Bool
  | .event mask (.bytes dat) _ =>
    !Connection.reachesRead mask || dat.isPrefixOf (l.flightTo s) &&
      decide (dat.length ≤ (l.conn s).bufferInput.writableBytes + Buffer.kExtraSize) &&
      (dat != [] || finished (l.conn s.peer) && l.flightTo s == [])
  | _ => true

/-- The end `s` has made the step on `ci` and is now `w`. -/
def advance (l : Link) (s : Side) (ci : Connection.Input) (w : Connection) : Link where
  conn := Function.update l.conn s w
  received := Function.update l.received s (l.received s ++ ci.arrives)
  taken := Function.update l.taken s (l.taken s ++ (l.conn s).takes ci)

/-- One of the ends goes on. -/
def step (l : Link) (i : Side × Connection.Input) : Option Link :=
  if l.offers i.1 i.2 then ((l.conn i.1).step i.2).map (l.advance i.1 i.2) else none

section Advance

variable (l : Link) (s : Side) (ci : Connection.Input) (w : Connection)

@[simp] theorem advance_conn : (l.advance s ci w).conn s = w := Function.update_self ..

@[simp] theorem advance_conn_peer : (l.advance s ci w).conn s.peer = l.conn s.peer :=
  Function.update_of_ne s.peer_ne _ _

@[simp] theorem advance_received :
    (l.advance s ci w).received s = l.received s ++ ci.arrives := Function.update_self ..

@[simp] theorem advance_taken :
    (l.advance s ci w).taken s = l.taken s ++ (l.conn s).takes ci := Function.update_self ..

@[simp] theorem advance_peer_conn : (l.advance s.peer ci w).conn s = l.conn s :=
  Function.update_of_ne s.peer_ne.symm _ _

@[simp] theorem advance_peer_received : (l.advance s.peer ci w).received s = l.received s :=
  Function.update_of_ne s.peer_ne.symm _ _

@[simp] theorem advance_peer_taken : (l.advance s.peer ci w).taken s = l.taken s :=
  Function.update_of_ne s.peer_ne.symm _ _

end Advance

section Steps

variable {l l' : Link} {i : Side × Connection.Input} {s : Side}

/-- What arrives at an end is next in its pipe. -/
theorem arrives_of_offers {ci : Connection.Input} (h : l.offers s ci = true) :
    ci.arrives <+: l.flightTo s := by
  cases ci with
  | event mask read r =>
    cases read with
    | error errno => exact List.nil_prefix
    | bytes dat =>
      show (if Connection.reachesRead mask then dat else []) <+: _
      cases hreach : Connection.reachesRead mask with
      | false => exact List.nil_prefix
      | true =>
        simp only [offers, hreach, Bool.not_true, Bool.false_or, Bool.and_eq_true] at h
        exact List.isPrefixOf_iff_prefix.mp h.1.1
  | _ => exact List.nil_prefix

theorem step_next (h : l.step i = some l') : ∃ w, (l.conn i.1).Next i.2 w ∧
    i.2.arrives <+: l.flightTo i.1 ∧ l' = l.advance i.1 i.2 w := by
  rw [step] at h
  split at h
  · rename_i hoff
    obtain ⟨w, hw, rfl⟩ := Option.map_eq_some_iff.mp h
    exact ⟨w, Connection.step_next hw, arrives_of_offers hoff, rfl⟩
  · cases h

/-- An end is this one or the other. -/
theorem eq_or_peer (s s' : Side) : s' = s ∨ s' = s.peer := by
  cases s <;> cases s' <;> simp [Side.peer]

/-- The stations of the stream to the end `s`, and what the ends know of their own part. -/
structure Carries (l : Link) (s : Side) : Prop where
  input : (l.conn s).bufferInput.Inv
  shown : l.taken s ++ (l.conn s).bufferInput.contents = l.received s
  pipe : l.received s <+: (l.conn s.peer).wire
  account : ∃ h, (l.conn s.peer).Account h

/-- The whole way of the bytes that a kernel has accepted. -/
theorem Carries.wire (h : l.Carries s) :
    l.taken s ++ (l.conn s).bufferInput.contents ++ l.flightTo s = (l.conn s.peer).wire := by
  rw [h.shown]
  exact left_append_flight h.pipe

theorem step_carries (h : l.Carries s) (hs : l.step i = some l') : l'.Carries s := by
  obtain ⟨w, hn, harr, rfl⟩ := step_next hs
  obtain ⟨side, ci⟩ := i
  dsimp only at hn harr ⊢
  rcases eq_or_peer s side with rfl | rfl
  · -- the receiving end goes on
    have hpass := Connection.step_input h.input hn
    constructor
    · rw [advance_conn]
      exact hpass.buffer
    · rw [advance_taken, advance_conn, advance_received, List.append_assoc, hpass.stream,
        ← List.append_assoc, h.shown]
    · rw [advance_received, advance_conn_peer]
      exact leave_of_flight h.pipe harr
    · rw [advance_conn_peer]
      exact h.account
  · -- the sending end goes on
    obtain ⟨hist, hacc⟩ := h.account
    constructor
    · rw [advance_peer_conn]
      exact h.input
    · rw [advance_peer_taken, advance_peer_conn, advance_peer_received]
      exact h.shown
    · rw [advance_peer_received, advance_conn]
      exact h.pipe.trans (Connection.step_feeds hn).1
    · rw [advance_conn]
      exact ⟨_, Connection.step_account hacc hn⟩

/-- No message of the end that sends to `s` is refused by its kernel. -/
def Unblocked (s : Side) (l : Link) (i : Side × Connection.Input) : Prop :=
  i.1 = s.peer → ¬ Blocked (l.conn i.1) i.2

/-- Nothing has been lost on the way to `s`. -/
def Complete (l : Link) (s : Side) : Prop :=
  (l.conn s.peer).view.stream = (l.conn s.peer).sent.flatten

theorem step_complete (h : l.Carries s) (hc : l.Complete s) (hg : Unblocked s l i)
    (hs : l.step i = some l') : l'.Complete s := by
  obtain ⟨w, hn, -, rfl⟩ := step_next hs
  obtain ⟨side, ci⟩ := i
  dsimp only at hn hg ⊢
  rcases eq_or_peer s side with rfl | rfl
  · rw [Complete, advance_conn_peer]
    exact hc
  · obtain ⟨hist, hacc⟩ := h.account
    have hstream := (Connection.step_account hacc hn).stream
    have hsent := (Connection.step_feeds hn).2 (hg rfl)
    rw [Complete, advance_conn, hstream, hsent, ← hc, hacc.stream]

end Steps

/-! ## Whole runs -/

section Runs

variable {conn : Side → Connection} {l : Link}

theorem carries_new (hopen : ∀ s, (conn s).Opened) (s : Side) : (Link.new conn).Carries s := by
  obtain ⟨p, c, fd, cb, rm, ov, hp, hnew, ha, hconn⟩ := hopen s
  obtain ⟨p', c', fd', cb', rm', ov', hp', hnew', ha', hpeer⟩ := hopen s.peer
  have hinput : (conn s).bufferInput = Buffer.new := hconn ▸ Connection.established_input ..
  obtain ⟨hflow, hstream, -⟩ := Connection.established_stream p' c' cb' rm' ov'
  refine ⟨?_, ?_, List.nil_prefix, [], ?_, ?_, fun _ => ?_⟩
  · show (conn s).bufferInput.Inv
    rw [hinput]
    exact Buffer.inv_new
  · show [] ++ (conn s).bufferInput.contents = []
    rw [hinput, Buffer.contents_new]
    rfl
  · show (conn s.peer).bufferOutput.Inv
    rw [hpeer]
    exact hflow.buffer
  · show (conn s.peer).view.stream = []
    rw [hpeer]
    exact hstream
  · show (conn s.peer).Mirrored
    rw [hpeer]
    exact Connection.mirrored_established hp' hnew' ha' cb' rm' ov'

theorem complete_new (hopen : ∀ s, (conn s).Opened) (s : Side) : (Link.new conn).Complete s := by
  obtain ⟨p, c, fd, cb, rm, ov, -, -, -, hpeer⟩ := hopen s.peer
  obtain ⟨-, hstream, hsent⟩ := Connection.established_stream p c cb rm ov
  show (conn s.peer).view.stream = (conn s.peer).sent.flatten
  rw [hpeer, hstream, hsent]
  rfl

theorem run_carries {ins : List (Side × Connection.Input)} (hopen : ∀ s, (conn s).Opened)
    (hr : Machine.run step (Link.new conn) ins = some l) (s : Side) : l.Carries s :=
  Machine.run_invariant (fun h hs => step_carries h hs) (carries_new hopen s) hr

end Runs

end Link

end LinuxNet
