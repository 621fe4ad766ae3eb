import LinuxNet.Connection.Interest
import LinuxNet.Connection.Senders

/-!
# What `write_complete_cb_` says

`_Send` takes a remainder of 0 for the end of all output. With the write interest off this is
so, since the buffer is empty then; with the interest on nothing is sent at all, and the remainder
is 0 for an empty message only. `HandleWrite` compares what it has sent with what was there. So
the notice is queued with output pending exactly when an empty message is sent behind other
output.
-/

namespace LinuxNet

set_option autoImplicit false

open LinuxNet.Lib

namespace Connection

/-- The calls of `_Send` and `HandleWrite`: the connection at the entry and at the exit. -/
def sending : List (Point × Connection) → List (Connection × Connection)
  | (.sendEntry, w) :: (.sendExit, t) :: l => (w, t) :: sending l
  | (.writeEntry, w) :: (.writeExit, t) :: l => (w, t) :: sending l
  | _ :: l => sending l
  | [] => []

/-- `write_complete_cb_` has been queued, from `w` to `t`. -/
def Notifies (w t : Connection) : Prop :=
  w.taskList.count .writeComplete < t.taskList.count .writeComplete

/-- An empty message is executed while output is pending. -/
def EmptySend (w : Connection) (i : Input) : Prop :=
  w.state = .connected ∧ w.isWriting = true ∧ w.callbacks.writeComplete = true ∧
    ∃ r, w.message i = some ([], r)

/-! ## The two functions -/

section Functions

variable {w : Connection}

theorem count_queueWriteComplete (w : Connection) :
    w.queueWriteComplete.taskList.count .writeComplete =
      w.taskList.count .writeComplete + if w.callbacks.writeComplete then 1 else 0 := by
  unfold queueWriteComplete
  split <;> simp [queueInLoop]

theorem count_sendDatQueueInBuffer (w : Connection) (dat : List UInt8) :
    (w.sendDatQueueInBuffer_ dat).taskList.count .writeComplete =
      w.taskList.count .writeComplete := by
  have hupdate : ∀ q : Connection, (if { q with
      bufferOutput := q.bufferOutput.append dat }.isWriting = false
        then { q with bufferOutput := q.bufferOutput.append dat }.updateEvent .enableWriting
        else { q with bufferOutput := q.bufferOutput.append dat }).taskList = q.taskList := by
    intro q
    split <;> rfl
  unfold sendDatQueueInBuffer_
  dsimp only
  rw [hupdate]
  split
  · simp [queueInLoop]
  · rfl

theorem taskList_sendMostPossible (w : Connection) (dat : List UInt8) (r : SendResult) :
    (w.sendMostPossible_ dat r).2.taskList = w.taskList := by
  unfold sendMostPossible_
  dsimp only
  split
  · cases r with
    | error errno => exact check_taskList w _ _
    | accepted k => exact check_taskList w _ _
  · rfl

/-- `_Send` notifies when `_SendMostPossible` returns 0, and not when it fails. -/
theorem notifies_of_remain (hc : w.state = .connected) {dat : List UInt8} {r : SendResult}
    {o : Option Nat} {q : Connection}
    (heq : ({ w with sent := w.sent ++ [dat] } : Connection).sendMostPossible_ dat r = (o, q)) :
    w.Notifies (w.send_ dat r) ↔ w.callbacks.writeComplete = true ∧ o = some 0 := by
  have hlist := taskList_sendMostPossible { w with sent := w.sent ++ [dat] } dat r
  have hframe :=
    (sendMostPossible_frame { w with sent := w.sent ++ [dat] } dat r).callbacks
  rw [heq] at hlist hframe
  have htask : q.taskList = w.taskList := hlist
  have hcb : q.callbacks = w.callbacks := hframe
  unfold Notifies send_
  rw [if_pos hc]
  dsimp only
  rw [heq, ← htask, ← hcb]
  cases o with
  | none => simp
  | some n =>
    dsimp only
    by_cases hn : n = 0
    · rw [if_neg (not_not.mpr hn), count_queueWriteComplete]
      cases q.callbacks.writeComplete <;> simp [hn]
    · rw [if_pos hn, count_sendDatQueueInBuffer]
      simp [hn]

/-- **`_Send`** notifies when the remainder is 0. -/
theorem notifies_send_ (hc : w.state = .connected) (dat : List UInt8) (r : SendResult) :
    w.Notifies (w.send_ dat r) ↔ w.callbacks.writeComplete = true ∧
      if w.isWriting then dat = [] else r.isError = false ∧ dat.length ≤ r.taken := by
  have hwr : ({ w with sent := w.sent ++ [dat] } : Connection).isWriting = w.isWriting := rfl
  cases hw : w.isWriting with
  | true =>
    rw [notifies_of_remain hc (sendMostPossible_writing (hwr.trans hw) dat r)]
    simp
  | false =>
    cases r with
    | error errno =>
      obtain ⟨q, heq, _⟩ := sendMostPossible_error (hwr.trans hw) dat errno
      rw [notifies_of_remain hc heq]
      simp [SendResult.isError]
    | accepted k =>
      obtain ⟨q, heq, _⟩ := sendMostPossible_accepted (hwr.trans hw) dat k
      rw [notifies_of_remain hc heq]
      simp only [Bool.false_eq_true, ↓reduceIte, SendResult.isError, SendResult.taken, true_and,
        Option.some.injEq]
      exact and_congr_right fun _ => by omega

/-- **`HandleWrite`** notifies when nothing is left. -/
theorem handleWrite_empty (hb : w.bufferOutput.Inv) (r : SendResult)
    (hn : w.Notifies (w.handleWrite r)) : (w.handleWrite r).bufferOutput.contents = [] := by
  have hview := view_handleWrite w r
  by_cases hall : min r.taken w.bufferOutput.readableBytes = w.bufferOutput.readableBytes ∧
      w.bufferOutput.readableBytes ≠ 0
  · have hout : (w.handleWrite r).bufferOutput = (w.view.flush r).output :=
      congrArg View.output hview
    rw [hout, View.flush]
    simp only [view_output, hall.1, hall.2, ↓reduceIte]
    rw [(Buffer.retrieve_spec hb (Nat.le_refl _)).2, ← hb.length_contents, List.drop_length]
  · -- the notice is not reached
    refine absurd hn (Nat.not_lt.mpr (Nat.le_of_eq ?_))
    unfold handleWrite
    dsimp only
    generalize hq0 : ((w.observe (.handleWrite w.state)).check .handleWrite
      ((w.observe (.handleWrite w.state)).state = .connected)) = q
    have hlist : q.taskList = w.taskList := by
      rw [← hq0, check_taskList]
      rfl
    have hout : q.bufferOutput = w.bufferOutput := by
      rw [← hq0, check_bufferOutput]
      rfl
    cases r with
    | error errno => exact congrArg (List.count .writeComplete) hlist
    | accepted k =>
      dsimp only
      split
      · rename_i hpos
        rw [if_neg]
        · exact congrArg (List.count .writeComplete) hlist
        · intro heq
          rw [hout] at hpos heq
          exact hall ⟨heq.symm, by omega⟩
      · exact congrArg (List.count .writeComplete) hlist

end Functions

/-! ## The points of a step -/

/-- The stream stays. -/
def Keeps (w t : Connection) : Prop :=
  w.bufferOutput.Inv → t.bufferOutput.Inv ∧ t.view.stream = w.view.stream

/-- A handler that ends in `t` and passes the points `l`: it calls no `_Send`. -/
structure Passes (w t : Connection) (l : List (Point × Connection)) : Prop where
  keeps : Keeps w t
  writes : ∀ p ∈ sending l, ∃ x r, Keeps w x ∧ p = (x, x.handleWrite r)

section Passes

variable {w q t : Connection} {l : List (Point × Connection)}

theorem Keeps.of_eq (hw : t.wire = w.wire) (ho : t.bufferOutput = w.bufferOutput) : Keeps w t := by
  intro hb
  refine ⟨ho ▸ hb, ?_⟩
  rw [View.stream, View.stream, view_wire, view_output, hw, ho]
  rfl

theorem Keeps.trans (h : Keeps w q) (h' : Keeps q t) : Keeps w t := by
  intro hb
  obtain ⟨hq, hs⟩ := h hb
  obtain ⟨ht, hs'⟩ := h' hq
  exact ⟨ht, hs'.trans hs⟩

theorem keeps_handleWrite (w : Connection) (r : SendResult) : Keeps w (w.handleWrite r) := by
  intro hb
  have hview := view_handleWrite w r
  have hout : (w.handleWrite r).bufferOutput = (w.view.flush r).output :=
    congrArg View.output hview
  rw [hview, hout]
  exact View.flush_stream hb r

theorem Passes.trans (h : Keeps w q) (h' : Passes q t l) : Passes w t l := by
  refine ⟨h.trans h'.keeps, fun p hp => ?_⟩
  obtain ⟨x, r, hx, rfl⟩ := h'.writes p hp
  exact ⟨x, r, h.trans hx, rfl⟩

theorem Passes.nil (h : Keeps w t) : Passes w t [] := ⟨h, fun p hp => by cases hp⟩

theorem sending_cons_read {o : Point × Connection} (ho : o.1 = .readEntry ∨ o.1 = .readExit) :
    sending (o :: l) = sending l := by
  obtain ⟨p, x⟩ := o
  rcases ho with rfl | rfl <;> cases l <;> rfl

theorem Passes.cons {o : Point × Connection} (ho : o.1 = .readEntry ∨ o.1 = .readExit)
    (h : Passes w t l) : Passes w t (o :: l) :=
  ⟨h.keeps, fun p hp => h.writes p (sending_cons_read ho ▸ hp)⟩

theorem passes_eventWrite (w : Connection) (r : SendResult) :
    Passes w (w.handleEventWrite r) (w.observedEventWrite r) := by
  unfold handleEventWrite observedEventWrite
  dsimp only
  split
  · refine ⟨(keeps_handleWrite w r).trans (.of_eq rfl rfl), fun p hp => ?_⟩
    rw [show p = (w, w.handleWrite r) from List.mem_singleton.mp hp]
    exact ⟨w, r, .of_eq rfl rfl, rfl⟩
  · exact .nil (.of_eq rfl rfl)

theorem keeps_removeCb (w : Connection) : Keeps w w.removeCb := by
  unfold removeCb
  cases w.remover <;> exact .of_eq rfl rfl

theorem passes_closeRest (w : Connection) (inRead : Bool) (r : SendResult) :
    Passes w (w.handleCloseRest inRead r) (w.observedCloseRest inRead r) := by
  unfold handleCloseRest observedCloseRest
  dsimp only
  split
  · exact ((passes_eventWrite _ r).cons (.inr rfl)).trans (keeps_removeCb w)
  · exact .nil ((keeps_removeCb w).trans (.of_eq rfl rfl))

theorem passes_close (w : Connection) (inRead : Bool) (r : SendResult) :
    Passes w (w.handleClose inRead r) (w.observedClose inRead r) := by
  unfold handleClose observedClose
  dsimp only
  split
  · exact .nil (.of_eq rfl rfl)
  · refine Passes.trans ?_ (passes_closeRest _ inRead r)
    exact .of_eq rfl rfl

theorem passes_read (w : Connection) (read : Buffer.ReadvResult) (r : SendResult) :
    Passes w (w.handleRead read r) (w.observedRead read r) := by
  unfold handleRead observedRead
  dsimp only
  generalize hq : (w.observe (.handleRead w.state)).check .handleRead (w.state = .connected) = q
  have hv : q.view = w.view := by rw [← hq, view_check, view_observe]
  have hkeep : ∀ b : Buffer, Keeps w { q with bufferInput := b } := fun b =>
    .of_eq (congrArg View.wire hv) (congrArg View.output hv)
  rw [show decide ((w.observe (.handleRead w.state)).state = .connected) =
    decide (w.state = .connected) from rfl, hq]
  refine Passes.cons (.inl rfl) ?_
  split
  · split
    · exact .nil (.of_eq (congrArg View.wire hv) (congrArg View.output hv))
    · exact ((passes_eventWrite _ r).cons (.inr rfl)).trans (hkeep _)
  · split
    · exact (passes_close _ true r).trans (hkeep _)
    · exact ((passes_eventWrite _ r).cons (.inr rfl)).trans (hkeep _)

theorem passes_event (w : Connection) (read : Buffer.ReadvResult) (r : SendResult) :
    Passes w (w.handleEvent read r) (w.observedEvent read r) := by
  have hh : Keeps w (w.setHandling true) := .of_eq rfl rfl
  unfold handleEvent observedEvent
  dsimp only
  split
  · exact (passes_close _ false r).trans hh
  · split
    · exact .nil (.of_eq rfl rfl)
    · split
      · exact (passes_read _ read r).trans hh
      · exact (passes_eventWrite _ r).trans hh

end Passes

/-! ## One step -/

section Steps

variable {w t : Connection} {i : Input} {h : List UInt8}

theorem sending_observedSend (w : Connection) (dat : List UInt8) (r : SendResult) :
    sending (w.observedSend dat r) = [(w, w.send_ dat r)] := rfl

/-- A step executes a message, in `w` or with a task less in the queue, or it calls no `_Send`. -/
theorem step_sending (hn : w.Next i t) :
    (w.message i = none ∧ Passes w t (w.observed i)) ∨
    ∃ dat r x, w.message i = some (dat, r) ∧ x.view = w.view ∧ x.callbacks = w.callbacks ∧
      t = x.send_ dat r ∧ (∀ p ∈ sending (w.observed i), p = (x, x.send_ dat r)) ∧
      (w.state = .connected → (x, x.send_ dat r) ∈ sending (w.observed i)) := by
  cases hn with
  | @event mask read r =>
    refine .inl ⟨rfl, Passes.trans ?_ (passes_event (w.setRevents mask) read r)⟩
    exact .of_eq rfl rfl
  | retUser hpc =>
    simp only [observed, hpc]
    exact .inl ⟨rfl, .nil (.of_eq rfl rfl)⟩
  | @retRead r hpc =>
    simp only [observed, hpc]
    exact .inl ⟨rfl, (passes_eventWrite w r).cons (.inr rfl)⟩
  | @retClose r inRead hpc =>
    simp only [observed, hpc]
    exact .inl ⟨rfl, passes_closeRest w inRead r⟩
  | @send dat r hc =>
    simp only [observed, hc, ↓reduceIte, sending_observedSend]
    exact .inr ⟨dat, r, w, rfl, rfl, rfl, rfl, fun p hp => List.mem_singleton.mp hp,
      fun _ => List.mem_singleton_self _⟩
  | @sendLate dat r hc =>
    rw [show w.observed (.send dat r) = [] from if_neg hc]
    exact .inr ⟨dat, r, w, rfl, rfl, rfl, (if_neg hc).symm, (fun p hp => by cases hp),
      fun hc' => absurd hc' hc⟩
  | @task task rest r hpc hlist =>
    simp only [observed, hlist, message]
    cases task with
    | sendInLoop dat =>
      refine .inr ⟨dat, r, { w with taskList := rest }, rfl, rfl, rfl, rfl, fun p hp => ?_,
        fun _ => ?_⟩
      · exact List.mem_singleton.mp hp
      · exact List.mem_singleton_self _
    | forceCloseInLoop =>
      refine .inl ⟨rfl, ?_⟩
      simp only [observedTask, runTask, forceCloseInLoop]
      split
      · exact .nil (.of_eq rfl rfl)
      · refine Passes.trans ?_ (passes_close { w with taskList := rest } false r)
        exact .of_eq rfl rfl
    | shutdownWriteInLoop =>
      refine .inl ⟨rfl, .nil ?_⟩
      simp only [runTask, shutdownWriteInLoop]
      split <;> exact .of_eq rfl rfl
    | _ => exact .inl ⟨rfl, .nil (.of_eq rfl rfl)⟩
  | _ => exact .inl ⟨rfl, .nil (.of_eq rfl rfl)⟩

/-- The bytes `h` of the messages executed and not failed are the stream. -/
structure Account (h : List UInt8) (w : Connection) : Prop where
  buffer : w.bufferOutput.Inv
  stream : w.view.stream = h
  mirrored : w.state = .connected → w.Mirrored

/-- **One step** of the account. -/
theorem step_account (ha : Account h w) (hn : w.Next i t) : Account (h ++ w.joins i) t := by
  have hmirror := step_mirrored ha.mirrored hn
  rcases step_sending hn with ⟨hm, hp⟩ | ⟨dat, r, x, hm, hx, _, rfl, _⟩
  · obtain ⟨hb, hs⟩ := hp.keeps ha.buffer
    rw [joins_of_none hm, List.append_nil]
    exact ⟨hb, hs.trans ha.stream, hmirror⟩
  · have hstate : x.state = w.state := congrArg View.state hx
    rw [joins_of_some hm, drops]
    by_cases hc : w.state = .connected
    · have hflow : w.view.Flow := (ha.mirrored hc).mirror.flow
      have hview : (x.send_ dat r).view = w.view.send dat r := by
        rw [view_send_ (hstate.trans hc), hx]
      have hout : (x.send_ dat r).bufferOutput = (w.view.send dat r).output :=
        congrArg View.output hview
      refine ⟨hout ▸ (hflow.send dat r).buffer, ?_, hmirror⟩
      rw [hview, hflow.send_stream, ha.stream, view_writing]
      by_cases hloss : w.isWriting = false ∧ r.isError = true
      · simp [hc, hloss.1, hloss.2]
      · rw [if_neg hloss, if_neg]
        simpa [hc] using hloss
    · have hskip : x.send_ dat r = x := if_neg (hstate ▸ hc)
      rw [hskip] at hmirror ⊢
      have hout : x.bufferOutput = w.bufferOutput := congrArg View.output hx
      refine ⟨hout ▸ ha.buffer, ?_, hmirror⟩
      simp [hc, hx, ha.stream]

/-- An empty buffer: all of the stream is on the wire. -/
theorem wire_of_empty (hb : t.bufferOutput.Inv) (hnil : t.bufferOutput.contents = []) :
    t.bufferOutput.readableBytes = 0 ∧ t.wire = t.view.stream := by
  refine ⟨?_, ?_⟩
  · rw [← hb.length_contents, hnil]
    rfl
  · rw [View.stream, view_wire, view_output, hnil, List.append_nil]

/-- A message behind which `_Send` notifies leaves the buffer as it was. -/
theorem notified_send (hc : w.state = .connected) {x : Connection} (hx : x.view = w.view)
    {dat : List UInt8} {r : SendResult} (hnote : x.Notifies (x.send_ dat r)) :
    (x.send_ dat r).bufferOutput = w.bufferOutput ∧ (w.isWriting = true → dat = []) := by
  have hstate : x.state = .connected := (congrArg View.state hx).trans hc
  have hwr : x.isWriting = w.isWriting := congrArg View.writing hx
  have hview : (x.send_ dat r).view = w.view.send dat r := by
    rw [view_send_ hstate, hx]
  have hout : (x.send_ dat r).bufferOutput = (w.view.send dat r).output :=
    congrArg View.output hview
  rw [notifies_send_ hstate, hwr] at hnote
  rw [hout]
  cases hw : w.isWriting with
  | true =>
    rw [hw, if_pos rfl] at hnote
    refine ⟨?_, fun _ => hnote.2⟩
    rw [hnote.2, View.send, if_neg (by simp [hw])]
    simp
  | false =>
    rw [hw, if_neg (by decide)] at hnote
    obtain ⟨_, herr, hlen⟩ := hnote
    refine ⟨?_, fun hon => absurd hon (by decide)⟩
    rw [View.send, if_neg (by simp [herr])]
    simp only [view_writing, hw, Bool.false_eq_true, ↓reduceIte]
    rw [if_neg (by omega)]
    rfl

/-- **The notices of one step** are true, unless an empty message is executed with output
pending. -/
theorem step_notices_iff (ha : Account h w) (hn : w.Next i t) :
    (∀ p ∈ sending (w.observed i), p.1.Notifies p.2 →
      p.2.bufferOutput.readableBytes = 0 ∧ p.2.wire = h ++ w.joins i) ↔ ¬ w.EmptySend i := by
  have hacc := step_account ha hn
  rcases step_sending hn with ⟨hm, hp⟩ | ⟨dat, r, x, hm, hx, hcb, rfl, hall, hin⟩
  · refine iff_of_true (fun p hmem hnote => ?_) ?_
    · obtain ⟨x, r, hx, rfl⟩ := hp.writes p hmem
      obtain ⟨hb, hs⟩ := hx ha.buffer
      obtain ⟨hb', hs'⟩ := keeps_handleWrite x r hb
      obtain ⟨hread, hwire⟩ := wire_of_empty hb' (handleWrite_empty hb r hnote)
      rw [joins_of_none hm, List.append_nil]
      exact ⟨hread, hwire.trans (hs'.trans (hs.trans ha.stream))⟩
    · rintro ⟨_, _, _, r, hm'⟩
      rw [hm] at hm'
      cases hm'
  · have hstate : x.state = w.state := congrArg View.state hx
    have hwr : x.isWriting = w.isWriting := congrArg View.writing hx
    constructor
    · rintro htrue ⟨hc, hon, hset, r', hm'⟩
      rw [hm] at hm'
      cases hm'
      have hnote : x.Notifies (x.send_ [] r) := by
        rw [notifies_send_ (hstate.trans hc), hwr, hcb]
        simp [hset, hon]
      -- nothing was sent, and the output is still there
      have hread := (htrue _ (hin hc) hnote).1
      have hpos := (ha.mirrored hc).mirror.writing_iff.mp hon
      rw [(notified_send hc hx hnote).1] at hread
      exact absurd hread (Nat.ne_of_gt hpos)
    · intro hnot p hmem hnote
      rw [hall p hmem] at hnote ⊢
      by_cases hc : w.state = .connected
      · obtain ⟨hout, hempty⟩ := notified_send hc hx hnote
        cases hw : w.isWriting with
        | true =>
          rw [notifies_send_ (hstate.trans hc), hcb] at hnote
          exact absurd ⟨hc, hw, hnote.1, r, hempty hw ▸ hm⟩ hnot
        | false =>
          have hnil : w.bufferOutput.contents = [] := (ha.mirrored hc).mirror.flow.handover hw
          obtain ⟨hread, hwire⟩ := wire_of_empty hacc.buffer (hout ▸ hnil)
          exact ⟨hread, hwire.trans hacc.stream⟩
      · rw [show x.send_ dat r = x from if_neg (hstate ▸ hc)] at hnote
        exact absurd hnote (lt_irrefl _)

end Steps

/-- **A notice of `write_complete_cb_` is true unless an empty message was sent behind other
output.** In a run of an established connection, whenever `_Send` or `HandleWrite` queues
`write_complete_cb_`, the buffer is empty then and the kernel has accepted every byte of the
messages that were executed and did not fail, if and only if no empty message is executed while
output is pending. -/
theorem write_complete_truthful_iff (p : Epoller) (hp : p.Registry) (c : ChanId) (fd : Nat)
    (hnew : p.chans c = Channel.new fd) (ha : p.Admissible (c, .enableReading))
    (cb : Callbacks) (rm : Remover) (ov : Nat) (ins : List Input) (t : Connection)
    (hr : Machine.run step (Connection.new p c cb rm ov).connectionEstablished ins = some t) :
    (∀ past i rest w, ins = past ++ i :: rest →
      Machine.run step (Connection.new p c cb rm ov).connectionEstablished past = some w →
      ∀ x ∈ sending (w.observed i), x.1.Notifies x.2 → x.2.bufferOutput.readableBytes = 0 ∧
        x.2.wire = Machine.trace step (fun w i _ => w.joins i)
          (Connection.new p c cb rm ov).connectionEstablished past ++ w.joins i) ↔
    Machine.Along step (fun w i => ¬ w.EmptySend i)
      (Connection.new p c cb rm ov).connectionEstablished ins := by
  obtain ⟨hflow, hstream, _⟩ := established_stream p c cb rm ov
  have hinit : Account [] (Connection.new p c cb rm ov).connectionEstablished :=
    ⟨hflow.buffer, hstream, fun _ => mirrored_established hp hnew ha cb rm ov⟩
  generalize (Connection.new p c cb rm ov).connectionEstablished = w₀ at hr hinit
  have hstep : ∀ {h w i t}, Account h w → step w i = some t → Account (h ++ w.joins i) t :=
    fun hacc hs => step_account hacc (step_next hs)
  rw [Machine.along_iff_split]
  refine forall₄_congr fun past i rest w => forall₂_congr fun hcut hw => ?_
  -- the step is taken, and the account has been kept up to it
  rw [hcut] at hr
  obtain ⟨w', hw', hrest⟩ := Machine.run_append_iff.mp hr
  obtain rfl : w = w' := Option.some.inj (hw.symm.trans hw')
  obtain ⟨m, hm, _⟩ := Machine.run_cons_iff.mp hrest
  have hacc := Machine.trace_invariant hstep hinit hw
  rw [List.nil_append] at hacc
  exact step_notices_iff hacc (step_next hm)

/-- A short write, a message behind it, and a writable event that takes all that is pending: the
notice of `HandleWrite` is true. -/
theorem write_complete_truthful_iff_flush : ∃ w,
    Machine.run step (Connection.new (Epoller.new 8 (· + 1)) 3 ⟨false, false, false, true, false⟩
      .serverLoop 100).connectionEstablished
      [.send [65, 66] (.accepted 1), .send [67] (.error 0)] = some w ∧
    (sending (w.observed (.event EPOLLOUT (.bytes []) (.accepted 9)))).map
      (fun x => (decide (x.1.taskList.count .writeComplete < x.2.taskList.count .writeComplete),
        x.2.wire)) = [(true, [65, 66, 67])] ∧
    ∀ x ∈ sending (w.observed (.event EPOLLOUT (.bytes []) (.accepted 9))), x.1.Notifies x.2 →
      x.2.bufferOutput.readableBytes = 0 := by
  have ha : (Epoller.new 8 (· + 1)).Admissible (3, .enableReading) :=
    ⟨by decide, by decide, fun _ _ c _ _ => rfl⟩
  have hrun : (Machine.run step (Connection.new (Epoller.new 8 (· + 1)) 3
      ⟨false, false, false, true, false⟩ .serverLoop 100).connectionEstablished
      [.send [65, 66] (.accepted 1), .send [67] (.error 0)]).map (fun w =>
        ((sending (w.observed (.event EPOLLOUT (.bytes []) (.accepted 9)))).map
          (fun x => (decide (x.1.taskList.count .writeComplete < x.2.taskList.count .writeComplete),
            x.2.wire)), (w.step (.event EPOLLOUT (.bytes []) (.accepted 9))).isSome)) =
      some ([(true, [65, 66, 67])], true) := by
    decide +kernel
  obtain ⟨w, hr, hobs⟩ := Option.map_eq_some_iff.mp hrun
  rw [Prod.mk.injEq] at hobs
  obtain ⟨t, ht⟩ := Option.isSome_iff_exists.mp hobs.2
  have hall : Machine.run step (Connection.new (Epoller.new 8 (· + 1)) 3
      ⟨false, false, false, true, false⟩ .serverLoop 100).connectionEstablished
      ([.send [65, 66] (.accepted 1), .send [67] (.error 0)] ++
        [.event EPOLLOUT (.bytes []) (.accepted 9)]) = some t :=
    Machine.run_append_iff.mpr ⟨w, hr, (Machine.run_singleton _ _ _).trans ht⟩
  have htrue := (write_complete_truthful_iff _ (Epoller.registry_new _ _) 3 4 rfl ha _ _ _ _ t
    hall).mpr ?_
  · refine ⟨w, hr, hobs.1, fun x hx hnote => ?_⟩
    exact (htrue _ _ [] w rfl hr x hx hnote).1
  · refine Machine.along_of_mem (fun i hi w hempty => ?_) _
    obtain ⟨_, _, _, r, hm⟩ := hempty
    simp only [List.cons_append, List.nil_append, List.mem_cons, List.not_mem_nil, or_false] at hi
    rcases hi with rfl | rfl | rfl <;> cases hm

/-- An empty message behind a short write: `write_complete_cb_` is queued with a byte in the
buffer. -/
theorem empty_send_notifies : ∃ w, ∃ x ∈ sending (w.observed (.send [] (.accepted 0))),
    Machine.run step (Connection.new (Epoller.new 8 (· + 1)) 3 ⟨false, false, false, true, false⟩
      .serverLoop 100).connectionEstablished [.send [65, 66] (.accepted 1)] = some w ∧
    x.1.Notifies x.2 ∧ x.2.bufferOutput.readableBytes = 1 ∧ x.2.wire = [65] := by
  have hrun : (Machine.run step (Connection.new (Epoller.new 8 (· + 1)) 3
      ⟨false, false, false, true, false⟩ .serverLoop 100).connectionEstablished
      [.send [65, 66] (.accepted 1)]).map (fun w =>
        (sending (w.observed (.send [] (.accepted 0)))).map fun x =>
          (decide (x.1.taskList.count .writeComplete < x.2.taskList.count .writeComplete),
            x.2.bufferOutput.readableBytes, x.2.wire)) = some [(true, 1, [65])] := by
    decide +kernel
  obtain ⟨w, hr, hobs⟩ := Option.map_eq_some_iff.mp hrun
  obtain ⟨x, l, hl, hx, _⟩ := List.map_eq_cons_iff.mp hobs
  simp only [Prod.mk.injEq, decide_eq_true_eq] at hx
  exact ⟨w, x, by rw [hl]; exact List.mem_cons_self, hr, hx⟩

end Connection

end LinuxNet
