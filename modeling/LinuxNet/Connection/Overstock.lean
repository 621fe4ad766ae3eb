import LinuxNet.Connection.Callbacks
import LinuxNet.Connection.WriteComplete

/-!
# What `high_water_mark_cb_` says

`_SendDatQueueInBuffer` queues `high_water_mark_cb_` with the number of bytes that will wait in
`buffer_output_` when the rest of the message is appended, whenever that number reaches
`overstock_size_`. Nothing else queues it, and nothing else makes the output grow. So the calls of
the callback, made and still queued, are the sizes to which the output has grown at or above the
mark, one for each time; and while the output is at or above it, the last of them is an upper
bound.
-/

namespace LinuxNet

set_option autoImplicit false

open LinuxNet.Lib

/-- The argument of `high_water_mark_cb_`. -/
def ConnTask.mark? : ConnTask → Option Nat
  | .highWaterMark n => some n
  | _ => none

/-- The calls of `high_water_mark_cb_` among the tasks. -/
def marks (l : List ConnTask) : List Nat := l.filterMap ConnTask.mark?

theorem marks_append (l l' : List ConnTask) : marks (l ++ l') = marks l ++ marks l' :=
  List.filterMap_append

namespace Connection

/-- How many bytes wait in `buffer_output_`. -/
def pending (w : Connection) : Nat := w.bufferOutput.readableBytes

/-- The call of `high_water_mark_cb_` that the step makes. -/
def called (w : Connection) (i : Input) : List Nat :=
  if i.isTask then marks w.taskList.head?.toList else []

/-- The size to which the output grows, if that is at or above the mark. -/
def crossing (w t : Connection) : List Nat :=
  if w.callbacks.highWaterMark = true ∧ w.pending < t.pending ∧ w.overstockSize ≤ t.pending then
    [t.pending] else []

/-! ## What a function queues -/

/-- The calls of the callback that are queued on the way from `w` to `t` are those the growth of
the output asks for. -/
structure Marked (w t : Connection) : Prop where
  overstock : t.overstockSize = w.overstockSize
  callbacks : t.callbacks = w.callbacks
  buffer : t.bufferOutput.Inv
  tasks : ∃ ts, t.taskList = w.taskList ++ ts ∧ marks ts = crossing w t

/-- The output does not grow, and the callback is not queued. -/
structure Calm (w t : Connection) : Prop where
  overstock : t.overstockSize = w.overstockSize
  callbacks : t.callbacks = w.callbacks
  pending : w.bufferOutput.Inv → t.bufferOutput.Inv ∧ t.pending ≤ w.pending
  tasks : ∃ ts, t.taskList = w.taskList ++ ts ∧ marks ts = []

section Functions

variable {w q t : Connection}

theorem Calm.trans (h : Calm w q) (h' : Calm q t) : Calm w t := by
  obtain ⟨ts, hts, hnone⟩ := h.tasks
  obtain ⟨ts', hts', hnone'⟩ := h'.tasks
  refine ⟨h'.overstock.trans h.overstock, h'.callbacks.trans h.callbacks, fun hb => ?_,
    ts ++ ts', ?_, ?_⟩
  · obtain ⟨hq, hle⟩ := h.pending hb
    obtain ⟨ht, hle'⟩ := h'.pending hq
    exact ⟨ht, hle'.trans hle⟩
  · rw [hts', hts, List.append_assoc]
  · rw [marks_append, hnone, hnone']
    rfl

/-- Four fields are looked at. -/
theorem Calm.of_eq (ho : t.overstockSize = w.overstockSize) (hc : t.callbacks = w.callbacks)
    (hb : t.bufferOutput = w.bufferOutput) (ht : t.taskList = w.taskList) : Calm w t := by
  refine ⟨ho, hc, fun hinv => ⟨hb ▸ hinv, ?_⟩, [], by rw [ht, List.append_nil], rfl⟩
  rw [Connection.pending, hb]
  exact Nat.le_refl _

/-- A task is queued that is no call of the callback. -/
theorem calm_queue {task : ConnTask} (h : task.mark? = none) : Calm w (w.queueInLoop task) :=
  ⟨rfl, rfl, fun hinv => ⟨hinv, Nat.le_refl _⟩, [task], rfl, by simp [marks, h]⟩

theorem Calm.congr (h : Calm q t) (ho : q.overstockSize = w.overstockSize)
    (hc : q.callbacks = w.callbacks) (hb : q.bufferOutput = w.bufferOutput)
    (hl : q.taskList = w.taskList) : Calm w t :=
  (Calm.of_eq ho hc hb hl).trans h

theorem Calm.marked (h : Calm w t) (hb : w.bufferOutput.Inv) : Marked w t := by
  obtain ⟨ht, hle⟩ := h.pending hb
  obtain ⟨ts, hts, hnone⟩ := h.tasks
  refine ⟨h.overstock, h.callbacks, ht, ts, hts, ?_⟩
  rw [hnone, crossing, if_neg]
  omega

theorem Marked.congr (ho : q.overstockSize = w.overstockSize) (hc : q.callbacks = w.callbacks)
    (hb : q.bufferOutput = w.bufferOutput) (hl : q.taskList = w.taskList) (h : Marked q t) :
    Marked w t := by
  have hpending : q.pending = w.pending := congrArg Buffer.readableBytes hb
  have hsame : crossing q t = crossing w t := by
    rw [crossing, crossing, hpending, ho, hc]
  obtain ⟨ts, hts, hm⟩ := h.tasks
  exact ⟨h.overstock.trans ho, h.callbacks.trans hc, h.buffer, ts, by rw [hts, hl],
    hm.trans hsame⟩

theorem calm_check (w : Connection) (site : Assert) (ok : Bool) : Calm w (w.check site ok) := by
  obtain ⟨failed, h⟩ := w.check_eq site ok
  rw [h]
  exact .of_eq rfl rfl rfl rfl

theorem calm_writeComplete (w : Connection) : Calm w w.queueWriteComplete := by
  unfold queueWriteComplete
  split
  · exact calm_queue rfl
  · exact .of_eq rfl rfl rfl rfl

theorem calm_retrieve (w : Connection) {k : Nat} (hk : k ≤ w.pending) (wire : List UInt8) :
    Calm w { w with wire := wire, bufferOutput := w.bufferOutput.retrieve k } := by
  refine ⟨rfl, rfl, fun hinv => ?_, [], (List.append_nil _).symm, rfl⟩
  obtain ⟨hret, hdrop⟩ := Buffer.retrieve_spec hinv hk
  refine ⟨hret, ?_⟩
  show (w.bufferOutput.retrieve k).readableBytes ≤ w.bufferOutput.readableBytes
  rw [← hret.length_contents, hdrop, List.length_drop, hinv.length_contents]
  exact Nat.sub_le _ _

theorem calm_handleWrite (w : Connection) (r : SendResult) : Calm w (w.handleWrite r) := by
  unfold handleWrite
  dsimp only
  have hobs : Calm w (((w.observe (.handleWrite w.state)).check .handleWrite
      ((w.observe (.handleWrite w.state)).state = .connected)).observe .send) := by
    have hcheck : Calm w ((w.observe (.handleWrite w.state)).check .handleWrite
        ((w.observe (.handleWrite w.state)).state = .connected)) := by
      refine Calm.trans ?_ (calm_check _ _ _)
      exact .of_eq rfl rfl rfl rfl
    refine hcheck.trans ?_
    exact .of_eq rfl rfl rfl rfl
  generalize ((w.observe (.handleWrite w.state)).check .handleWrite
    ((w.observe (.handleWrite w.state)).state = .connected)) = q at hobs ⊢
  cases r with
  | error errno => exact hobs
  | accepted k =>
    dsimp only
    split
    · have hsent := calm_retrieve (q.observe .send) (k := min k q.bufferOutput.readableBytes)
        (Nat.min_le_right _ _)
        ((q.observe .send).wire ++
          (q.observe .send).bufferOutput.contents.take (min k q.bufferOutput.readableBytes))
      split
      · refine (hobs.trans hsent).trans (Calm.trans ?_ (calm_writeComplete _))
        exact .of_eq rfl rfl rfl rfl
      · exact hobs.trans hsent
    · exact hobs

theorem calm_eventWrite (w : Connection) (r : SendResult) : Calm w (w.handleEventWrite r) := by
  unfold handleEventWrite
  dsimp only
  split
  · refine (calm_handleWrite w r).trans ?_
    exact .of_eq rfl rfl rfl rfl
  · exact .of_eq rfl rfl rfl rfl

theorem calm_removeCb (w : Connection) : Calm w w.removeCb := by
  unfold removeCb
  cases w.remover with
  | serverLoop | otherLoop => exact .of_eq rfl rfl rfl rfl
  | client => exact calm_queue rfl

theorem calm_closeRest (w : Connection) (inRead : Bool) (r : SendResult) :
    Calm w (w.handleCloseRest inRead r) := by
  unfold handleCloseRest
  dsimp only
  split
  · exact (calm_removeCb w).trans (calm_eventWrite _ r)
  · refine (calm_removeCb w).trans ?_
    exact .of_eq rfl rfl rfl rfl

theorem calm_close (w : Connection) (inRead : Bool) (r : SendResult) :
    Calm w (w.handleClose inRead r) := by
  unfold handleClose
  dsimp only
  split
  · exact .of_eq rfl rfl rfl rfl
  · refine Calm.trans ?_ (calm_closeRest _ inRead r)
    exact .of_eq rfl rfl rfl rfl

theorem calm_event (w : Connection) (mask : EventMask) (read : Buffer.ReadvResult)
    (r : SendResult) : Calm w ((w.setRevents mask).handleEvent read r) := by
  have hset : Calm w ((w.setRevents mask).setHandling true) := .of_eq rfl rfl rfl rfl
  have hend := (w.setRevents mask).eventHandled read r
  generalize (w.setRevents mask).handleEvent read r = t at hend ⊢
  cases hend with
  | close => exact hset.trans (calm_close _ false r)
  | error => exact .of_eq rfl rfl rfl rfl
  | write => exact hset.trans (calm_eventWrite _ r)
  | read =>
    have hread : Calm w (((w.setRevents mask).setHandling true).afterReadFd read) := by
      refine hset.trans ?_
      exact .of_eq rfl rfl rfl rfl
    have hend := ((w.setRevents mask).setHandling true).readHandled read r
    generalize ((w.setRevents mask).setHandling true).handleRead read r = t at hend ⊢
    cases hend with
    | callback =>
      refine hread.trans ?_
      exact .of_eq rfl rfl rfl rfl
    | write => exact hread.trans (calm_eventWrite _ r)
    | eof => exact hread.trans (calm_close _ true r)

/-- The connection behind `_SendMostPossible`, which leaves at most the message over. -/
theorem sendMostPossible_rest (w : Connection) (dat : List UInt8) (r : SendResult) :
    (w.sendMostPossible_ dat r).2.overstockSize = w.overstockSize ∧
    (w.sendMostPossible_ dat r).2.bufferOutput = w.bufferOutput ∧
    ∀ remain, (w.sendMostPossible_ dat r).1 = some remain → remain ≤ dat.length := by
  obtain ⟨failed, h⟩ := w.check_eq .sendMostPossible (w.bufferOutput.readableBytes = 0)
  unfold sendMostPossible_
  dsimp only
  rw [h]
  split
  · cases r with
    | error errno => exact ⟨rfl, rfl, fun _ hnone => absurd hnone (by simp)⟩
    | accepted k =>
      refine ⟨rfl, rfl, fun remain hsome => ?_⟩
      rw [← Option.some.inj hsome]
      exact Nat.sub_le _ _
  · exact ⟨rfl, rfl, fun remain hsome => (Option.some.inj hsome).symm.le⟩

theorem sendDatQueueInBuffer_rest (w : Connection) (dat : List UInt8) :
    (w.sendDatQueueInBuffer_ dat).overstockSize = w.overstockSize ∧
    (w.sendDatQueueInBuffer_ dat).callbacks = w.callbacks ∧
    (w.sendDatQueueInBuffer_ dat).bufferOutput = w.bufferOutput.append dat ∧
    (w.sendDatQueueInBuffer_ dat).taskList = w.taskList ++
      if w.overstockSize ≤ w.pending + dat.length ∧ w.callbacks.highWaterMark = true then
        [.highWaterMark (w.pending + dat.length)] else [] := by
  unfold sendDatQueueInBuffer_
  dsimp only
  split
  · rename_i hmark
    rw [if_pos (show w.overstockSize ≤ w.pending + dat.length ∧ _ from hmark)]
    split <;> exact ⟨rfl, rfl, rfl, rfl⟩
  · rename_i hmark
    rw [if_neg (show ¬ (w.overstockSize ≤ w.pending + dat.length ∧ _) from hmark), List.append_nil]
    split <;> exact ⟨rfl, rfl, rfl, rfl⟩

/-- **`_SendDatQueueInBuffer`** queues the callback when the output has reached the mark. -/
theorem marked_sendDatQueueInBuffer (hb : w.bufferOutput.Inv) {dat : List UInt8} (hne : dat ≠ []) :
    Marked w (w.sendDatQueueInBuffer_ dat) := by
  obtain ⟨hinv, happend⟩ := Buffer.append_spec hb dat
  obtain ⟨hover, hcb, hout, hlist⟩ := sendDatQueueInBuffer_rest w dat
  have hgrown : (w.sendDatQueueInBuffer_ dat).pending = w.pending + dat.length := by
    rw [Connection.pending, hout, ← hinv.length_contents, happend, List.length_append,
      hb.length_contents]
    rfl
  have hpos : 0 < dat.length := List.length_pos_of_ne_nil hne
  refine ⟨hover, hcb, hout ▸ hinv, _, hlist, ?_⟩
  rw [crossing, hgrown]
  by_cases hmark : w.overstockSize ≤ w.pending + dat.length ∧ w.callbacks.highWaterMark = true
  · rw [if_pos hmark, if_pos ⟨hmark.2, by omega, hmark.1⟩]
    rfl
  · rw [if_neg hmark, if_neg fun h => hmark ⟨h.2.2, h.1⟩]
    rfl

/-- **`_Send`** queues the callback for what it could not send at once. -/
theorem marked_send (hb : w.bufferOutput.Inv) (dat : List UInt8) (r : SendResult) :
    Marked w (w.send_ dat r) := by
  by_cases hc : w.state = .connected
  · obtain ⟨hover, hout, hremain⟩ :=
      sendMostPossible_rest { w with sent := w.sent ++ [dat] } dat r
    have hcb := (sendMostPossible_frame { w with sent := w.sent ++ [dat] } dat r).callbacks
    have hlist := taskList_sendMostPossible { w with sent := w.sent ++ [dat] } dat r
    unfold send_
    rw [if_pos hc]
    dsimp only
    generalize ({ w with sent := w.sent ++ [dat] } : Connection).sendMostPossible_ dat r = o at *
    obtain ⟨result, q⟩ := o
    refine Marked.congr hover hcb hout hlist ?_
    have hq : q.bufferOutput.Inv := by
      rw [show q.bufferOutput = w.bufferOutput from hout]
      exact hb
    cases result with
    | none => exact (Calm.of_eq rfl rfl rfl rfl).marked hq
    | some remain =>
      dsimp only
      split
      · rename_i hne
        refine marked_sendDatQueueInBuffer hq ?_
        have hle := hremain remain rfl
        rw [← List.length_pos_iff, List.length_drop]
        omega
      · exact (calm_writeComplete q).marked hq
  · rw [send_, if_neg hc]
    exact (Calm.of_eq rfl rfl rfl rfl).marked hb

end Functions

/-! ## One step -/

/-- What a step does to the calls of the callback, made and queued. -/
structure Counted (w : Connection) (i : Input) (t : Connection) : Prop where
  overstock : t.overstockSize = w.overstockSize
  callbacks : t.callbacks = w.callbacks
  buffer : t.bufferOutput.Inv
  marks : w.called i ++ marks t.taskList = marks w.taskList ++ crossing w t

section Steps

variable {w t : Connection} {i : Input}

theorem Marked.counted (h : Marked w t) (hi : i.isTask = false) : Counted w i t := by
  obtain ⟨ts, hts, hm⟩ := h.tasks
  refine ⟨h.overstock, h.callbacks, h.buffer, ?_⟩
  rw [called, hi, if_neg Bool.false_ne_true, List.nil_append, hts, marks_append, hm]

/-- The first task has been taken out of the queue. -/
theorem Marked.counted_task {task : ConnTask} {rest : List ConnTask} {r : SendResult}
    (hlist : w.taskList = task :: rest) (h : Marked { w with taskList := rest } t) :
    Counted w (.task r) t := by
  obtain ⟨ts, hts, hm⟩ := h.tasks
  have hcross : crossing { w with taskList := rest } t = crossing w t := rfl
  have hcalled : w.called (.task r) = marks [task] := by
    rw [called, hlist]
    rfl
  refine ⟨h.overstock, h.callbacks, h.buffer, ?_⟩
  rw [hcalled, hts, marks_append, hm, hcross, ← List.append_assoc, ← marks_append, hlist]
  rfl

theorem calm_task (w : Connection) {task : ConnTask} (r : SendResult)
    (h : ∀ dat, task ≠ .sendInLoop dat) : Calm w (w.runTask task r) := by
  cases task with
  | sendInLoop dat => exact absurd rfl (h dat)
  | shutdownWriteInLoop =>
    simp only [runTask, shutdownWriteInLoop]
    split <;> exact .of_eq rfl rfl rfl rfl
  | forceCloseInLoop =>
    simp only [runTask, forceCloseInLoop]
    split
    · exact .of_eq rfl rfl rfl rfl
    · exact calm_close w false r
  | connectionDestroy | writeComplete | highWaterMark n => exact .of_eq rfl rfl rfl rfl

theorem step_counted (hb : w.bufferOutput.Inv) (hcalls : ∀ x ∈ w.inFlight, x.isCall = true)
    (hn : w.Next i t) : Counted w i t := by
  cases hn with
  | event => exact ((calm_event w _ _ _).marked hb).counted rfl
  | retRead => exact ((calm_eventWrite w _).marked hb).counted rfl
  | retClose => exact ((calm_closeRest w _ _).marked hb).counted rfl
  | send => exact (marked_send hb _ _).counted rfl
  | @push k task hget =>
    have hcall : task.mark? = none := by
      have hmem := hcalls task (List.mem_of_getElem? hget)
      cases task <;> first | rfl | cases hmem
    refine Marked.counted (Calm.marked ?_ hb) rfl
    exact (calm_queue hcall).congr rfl rfl rfl rfl
  | @task task rest r hidle hlist =>
    refine Marked.counted_task hlist ?_
    by_cases hsend : ∃ dat, task = .sendInLoop dat
    · obtain ⟨dat, rfl⟩ := hsend
      exact marked_send (w := { w with taskList := rest }) hb dat r
    · exact (calm_task { w with taskList := rest } r fun dat h => hsend ⟨dat, h⟩).marked hb
  | removeInLoop =>
    refine Marked.counted (Calm.marked ?_ hb) rfl
    exact (calm_queue rfl).congr rfl rfl rfl rfl
  | _ =>
    refine Marked.counted (Calm.marked ?_ hb) rfl
    exact .of_eq rfl rfl rfl rfl

end Steps

/-! ## Whole runs -/

/-- What a run keeps of a connection with the mark `ov`. -/
structure Watched (ov : Nat) (w : Connection) : Prop where
  overstock : w.overstockSize = ov
  highWaterMark : w.callbacks.highWaterMark = true
  buffer : w.bufferOutput.Inv
  calls : ∀ x ∈ w.inFlight, x.isCall = true

section Runs

variable {w t : Connection} {i : Input} {ov : Nat}

theorem step_watched (h : w.Watched ov) (hn : w.Next i t) : t.Watched ov := by
  have hstep := step_counted h.buffer h.calls hn
  exact ⟨hstep.overstock.trans h.overstock, hstep.callbacks ▸ h.highWaterMark, hstep.buffer,
    step_calls h.calls hn⟩

theorem watched_established (p : Epoller) (c : ChanId) {cb : Callbacks}
    (hcb : cb.highWaterMark = true) (rm : Remover) (ov : Nat) :
    (Connection.new p c cb rm ov).connectionEstablished.Watched ov := by
  have hflow := (established_stream p c cb rm ov).1
  refine ⟨?_, ?_, hflow.buffer, ?_⟩
  · rw [connectionEstablished_eq]
    rfl
  · rw [connectionEstablished_eq]
    exact hcb
  · rw [connectionEstablished_eq]
    simp [Connection.new, updateEvent, observe]

/-- Every call is made once, and in the order in which the output grew. -/
theorem run_counted {ins : List Input} (h : w.Watched ov) (hr : Machine.run step w ins = some t) :
    Machine.trace step (fun w i _ => w.called i) w ins ++ marks t.taskList =
      marks w.taskList ++ Machine.trace step (fun w _ t => crossing w t) w ins := by
  induction ins generalizing w with
  | nil =>
    rw [Machine.run_nil, Option.some.injEq] at hr
    rw [hr]
    simp [Machine.trace]
  | cons i ins ih =>
    obtain ⟨m, hm, hrest⟩ := Machine.run_cons_iff.mp hr
    have hn := step_next hm
    have hstep := (step_counted h.buffer h.calls hn).marks
    rw [Machine.trace, Machine.trace, hm, Option.elim_some, Option.elim_some, List.append_assoc,
      ih (step_watched h hn) hrest, ← List.append_assoc, hstep, List.append_assoc]

/-- The last of the sizes `h` bounds the output while it is at the mark. -/
structure Bounded (ov : Nat) (h : List Nat) (w : Connection) : Prop where
  watched : w.Watched ov
  above : ∀ n ∈ h, ov ≤ n
  last : 0 < w.pending → ov ≤ w.pending → ∃ n, h.getLast? = some n ∧ w.pending ≤ n

theorem step_bounded {h : List Nat} (hw : Bounded ov h w) (hn : w.Next i t) :
    Bounded ov (h ++ crossing w t) t := by
  have hwatched := step_watched hw.watched hn
  by_cases hgrown : w.pending < t.pending ∧ ov ≤ t.pending
  · have hcross : crossing w t = [t.pending] :=
      if_pos ⟨hw.watched.highWaterMark, hgrown.1, hw.watched.overstock ▸ hgrown.2⟩
    rw [hcross]
    refine ⟨hwatched, fun n hmem => ?_, fun _ _ => ⟨t.pending, by simp, Nat.le_refl _⟩⟩
    rcases List.mem_append.mp hmem with hold | hnew
    · exact hw.above n hold
    · rw [List.mem_singleton.mp hnew]
      exact hgrown.2
  · have hcross : crossing w t = [] :=
      if_neg fun h => hgrown ⟨h.2.1, hw.watched.overstock ▸ h.2.2⟩
    rw [hcross, List.append_nil]
    refine ⟨hwatched, hw.above, fun hpos hat => ?_⟩
    obtain ⟨n, hlast, hle⟩ := hw.last (by omega) (by omega)
    exact ⟨n, hlast, by omega⟩

/-- **The high water mark.** Let `high_water_mark_cb_` be set. In every run of an established
connection, the calls of the callback that have been made, and behind them those that are still
queued, are the sizes to which the output has grown at or above `overstock_size_`, one for each
time that it grew, in order. None of them is below the mark, and as long as there is output at the
mark or above it, the last of them is not below the output. -/
theorem high_water_truthful (p : Epoller) (c : ChanId) (cb : Callbacks) (rm : Remover) (ov : Nat)
    (hcb : cb.highWaterMark = true) (ins : List Input) (w : Connection)
    (hr : Machine.run step (Connection.new p c cb rm ov).connectionEstablished ins = some w)
    (calls : List Nat) (hcalls : calls = Machine.trace step (fun w i _ => w.called i)
      (Connection.new p c cb rm ov).connectionEstablished ins ++ marks w.taskList) :
    calls = Machine.trace step (fun w _ t => crossing w t)
      (Connection.new p c cb rm ov).connectionEstablished ins ∧
    (∀ n ∈ calls, ov ≤ n) ∧
    (0 < w.pending → ov ≤ w.pending → ∃ n, calls.getLast? = some n ∧ w.pending ≤ n) := by
  have hinit := watched_established p c hcb rm ov
  have hnone : marks (Connection.new p c cb rm ov).connectionEstablished.taskList = [] := by
    rw [connectionEstablished_eq]
    rfl
  have hempty : (Connection.new p c cb rm ov).connectionEstablished.pending = 0 := by
    rw [connectionEstablished_eq]
    rfl
  have hall := run_counted hinit hr
  rw [hnone, List.nil_append, ← hcalls] at hall
  have hstart : Bounded ov [] (Connection.new p c cb rm ov).connectionEstablished :=
    ⟨hinit, by simp, fun hpos => absurd hpos (by omega)⟩
  have hbound := Machine.trace_invariant (P := Bounded ov)
    (fun h hs => step_bounded h (step_next hs)) hstart hr
  rw [List.nil_append, ← hall] at hbound
  exact ⟨hall, hbound.above, hbound.last⟩

/-- A mark of two bytes: the output grows to 1, to 3 and, behind a writable event that takes two
of them, to 2. The first call has been made. -/
theorem high_water_truthful_refilled : ∃ w,
    Machine.run step (Connection.new (Epoller.new 8 (· + 1)) 3 ⟨false, false, false, false, true⟩
      .serverLoop 2).connectionEstablished
      [.send [65, 66] (.accepted 1), .send [67, 68] (.error 0),
       .event EPOLLOUT (.error 0) (.accepted 2), .send [69] (.error 0), .task (.error 0)] = some w ∧
    w.pending = 2 ∧
    Machine.trace step (fun w i _ => w.called i) (Connection.new (Epoller.new 8 (· + 1)) 3
        ⟨false, false, false, false, true⟩ .serverLoop 2).connectionEstablished
      [.send [65, 66] (.accepted 1), .send [67, 68] (.error 0),
       .event EPOLLOUT (.error 0) (.accepted 2), .send [69] (.error 0), .task (.error 0)] = [3] ∧
    marks w.taskList = [2] ∧ ∀ n ∈ [3] ++ marks w.taskList, 2 ≤ n := by
  obtain ⟨w, hr, hobs⟩ := Option.map_eq_some_iff.mp (show (Machine.run step (Connection.new
      (Epoller.new 8 (· + 1)) 3 ⟨false, false, false, false, true⟩ .serverLoop
      2).connectionEstablished [.send [65, 66] (.accepted 1), .send [67, 68] (.error 0),
        .event EPOLLOUT (.error 0) (.accepted 2), .send [69] (.error 0), .task (.error 0)]).map
      (fun w => (w.pending, marks w.taskList)) = some (2, [2]) by decide +kernel)
  rw [Prod.mk.injEq] at hobs
  have hcalled : Machine.trace step (fun w i _ => w.called i) (Connection.new
      (Epoller.new 8 (· + 1)) 3 ⟨false, false, false, false, true⟩ .serverLoop
      2).connectionEstablished [.send [65, 66] (.accepted 1), .send [67, 68] (.error 0),
        .event EPOLLOUT (.error 0) (.accepted 2), .send [69] (.error 0), .task (.error 0)] =
      [3] := by decide +kernel
  refine ⟨w, hr, hobs.1, hcalled, hobs.2, ?_⟩
  rw [← hcalled]
  exact (high_water_truthful _ _ _ _ 2 rfl _ w hr _ rfl).2.1

end Runs

end Connection

end LinuxNet
