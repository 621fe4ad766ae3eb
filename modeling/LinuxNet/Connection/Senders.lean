import LinuxNet.Connection.Stream

/-!
# Many threads send on one connection

`Senders` runs a connection together with the threads that call it. It tags the calls
under way and the tasks in the queue with the thread they belong to, and records the
calls of `Send` and the messages executed. The threads are any type; `none` is the
thread of the loop, which sends directly. A thread makes one call at a time.
-/

namespace LinuxNet

set_option autoImplicit false

open LinuxNet.Lib

/-- The message of a queued `Send`. -/
def ConnTask.dat? : ConnTask → Option (List UInt8)
  | .sendInLoop dat => some dat
  | _ => none

/-- An executed message. -/
structure SentMessage (τ : Type) where
  thread : Option τ
  dat : List UInt8
  /-- The connection was not connected, or the direct `::send` returned -1. -/
  missing : Bool
  deriving DecidableEq, Repr

structure Senders (τ : Type) where
  conn : Connection
  /-- The calls under way, `conn.inFlight` with the threads that make them. -/
  calling : List (Option τ × ConnTask)
  /-- `conn.taskList` with the threads that queued the tasks. -/
  queue : List (Option τ × ConnTask)
  /-- The calls of `Send`, in order. -/
  calls : List (Option τ × List UInt8)
  executed : List (SentMessage τ)

namespace Connection

/-- The message whose `::send` would return `r` is lost in state `w`. -/
def drops (w : Connection) (r : SendResult) : Bool :=
  decide (w.state ≠ .connected) || !w.isWriting && r.isError

/-! ## What a step adds to the stream -/

section Steps

variable {w t : Connection} {i : Input}

/-- The bytes that the step on `i` adds to the stream. -/
def joins (w : Connection) (i : Input) : List UInt8 :=
  match w.message i with
  | some (dat, r) => if w.drops r then [] else dat
  | none => []

theorem joins_of_none (hm : w.message i = none) : w.joins i = [] := by
  rw [joins, hm]

theorem joins_of_some {dat : List UInt8} {r : SendResult} (hm : w.message i = some (dat, r)) :
    w.joins i = if w.drops r then [] else dat := by
  rw [joins, hm]

theorem step_joins (hn : w.Next i t) (hc : t.state = .connected) (hf : w.view.Flow) :
    t.view.Flow ∧ t.view.stream = w.view.stream ++ w.joins i := by
  have hmove := step_moves hn hc
  generalize t.view = v at hmove
  cases hmove with
  | same hm => exact ⟨hf, by rw [joins_of_none hm, List.append_nil]⟩
  | flush hm _ r =>
    exact ⟨hf.flush r, by rw [joins_of_none hm, List.append_nil, (View.flush_stream hf.buffer r).2]⟩
  | @send dat r hm hw =>
    refine ⟨hf.send dat r, ?_⟩
    rw [hf.send_stream, joins_of_some hm, view_writing]
    by_cases hloss : w.isWriting = false ∧ r.isError = true
    · simp [drops, hw, hloss.1, hloss.2]
    · rw [if_neg hloss, if_neg]
      simpa [drops, hw] using hloss

theorem own_message (hi : i.isOwn = true) : w.message i = none := by
  cases i <;> first | rfl | cases hi

end Steps

end Connection

namespace Senders

variable {τ : Type}

/-- An established connection that no thread has called yet. -/
def new (τ : Type) (conn : Connection) : Senders τ where
  conn := conn
  calling := conn.inFlight.map fun t => (none, t)
  queue := conn.taskList.map fun t => (none, t)
  calls := []
  executed := []

/-- The tags of a task list that has grown at its end by tasks of the connection. -/
def retag (queue : List (Option τ × ConnTask)) (tasks : List ConnTask) :
    List (Option τ × ConnTask) :=
  queue ++ (tasks.drop queue.length).map fun t => (none, t)

inductive Input (τ : Type) where
  /-- The thread of the loop calls `Send`. -/
  | send (dat : List UInt8) (r : SendResult)
  /-- A thread calls `Send`, `ShutdownWirte` or `ForceClose` and tests `state_`. -/
  | call (thread : Option τ) (t : ConnTask)
  /-- It reaches its `QueueInLoop`. -/
  | push (thread : Option τ)
  /-- `DoPendingTasks` runs the next task. -/
  | task (r : SendResult)
  /-- Anything else that happens to the connection. -/
  | own (i : Connection.Input)

variable [DecidableEq τ]

def step (s : Senders τ) : Input τ → Option (Senders τ)
  | .send dat r =>
    (s.conn.step (.send dat r)).map fun w =>
      { s with
        conn := w
        queue := retag s.queue w.taskList
        calls := s.calls ++ [(none, dat)]
        executed := s.executed ++ [⟨none, dat, s.conn.drops r⟩] }
  | .call thread t =>
    if (thread = none ∧ t.dat?.isSome = true) ∨ thread ∈ s.calling.map Prod.fst then none
    else
      (s.conn.step (.call t)).map fun w =>
        { s with
          conn := w
          calling := if s.conn.state = .connected then s.calling ++ [(thread, t)] else s.calling
          calls := s.calls ++ t.dat?.toList.map fun dat => (thread, dat) }
  | .push thread =>
    match s.calling.findIdx? (·.1 = thread) with
    | none => none
    | some k =>
      (s.conn.step (.push k)).map fun w =>
        { s with
          conn := w
          calling := s.calling.eraseIdx k
          queue := s.queue ++ s.calling[k]?.toList }
  | .task r =>
    match s.queue with
    | [] => none
    | (thread, t) :: rest =>
      (s.conn.step (.task r)).map fun w =>
        { s with
          conn := w
          queue := retag rest w.taskList
          executed := s.executed ++ t.dat?.toList.map fun dat => ⟨thread, dat, s.conn.drops r⟩ }
  | .own i =>
    if i.isOwn then
      (s.conn.step i).map fun w => { s with conn := w, queue := retag s.queue w.taskList }
    else none

/-! ## The messages of a thread -/

/-- The messages that `thread` has among the calls or tasks `l`, in order. -/
def messages (thread : Option τ) (l : List (Option τ × ConnTask)) : List (List UInt8) :=
  l.filterMap fun x => if x.1 = thread then x.2.dat? else none

def callsOf (s : Senders τ) (thread : Option τ) : List (List UInt8) :=
  (s.calls.filter (·.1 = thread)).map Prod.snd

def executedOf (s : Senders τ) (thread : Option τ) : List (List UInt8) :=
  (s.executed.filter (·.thread = thread)).map SentMessage.dat

/-- The messages that should be in the stream. -/
def joined (s : Senders τ) : List (List UInt8) :=
  (s.executed.filter fun m => !m.missing).map SentMessage.dat

/-- Those of them that belong to `thread`. -/
def joinedOf (s : Senders τ) (thread : Option τ) : List (List UInt8) :=
  ((s.executed.filter fun m => !m.missing).filter (·.thread = thread)).map SentMessage.dat

section Messages

variable (thread : Option τ)

@[simp] theorem messages_nil : messages thread [] = [] := rfl

theorem messages_append (l l' : List (Option τ × ConnTask)) :
    messages thread (l ++ l') = messages thread l ++ messages thread l' :=
  List.filterMap_append

theorem messages_cons (x : Option τ × ConnTask) (l : List (Option τ × ConnTask)) :
    messages thread (x :: l) =
      (if x.1 = thread then x.2.dat?.toList else []) ++ messages thread l := by
  unfold messages
  rw [List.filterMap_cons]
  split
  · rename_i hnone
    split at hnone <;> simp_all
  · rename_i dat hsome
    split at hsome <;> simp_all

theorem messages_of_notCall {ts : List ConnTask} (h : ∀ x ∈ ts, x.isCall = false) :
    messages thread (ts.map fun t => ((none : Option τ), t)) = [] := by
  unfold messages
  rw [List.filterMap_map, List.filterMap_eq_nil_iff]
  intro x hx
  have hdat : x.dat? = none := by
    have hcall := h x hx
    cases x <;> first | rfl | cases hcall
  simp [hdat]

/-- The queue behind a step in which the connection queues tasks of its own. -/
theorem retag_spec {queue : List (Option τ × ConnTask)} {tasks ts : List ConnTask}
    (htasks : tasks = queue.map Prod.snd ++ ts) (h : ∀ x ∈ ts, x.isCall = false) :
    tasks = (retag queue tasks).map Prod.snd ∧
      messages thread (retag queue tasks) = messages thread queue := by
  have hretag : retag queue tasks = queue ++ ts.map fun t => (none, t) := by
    have hlen : queue.length = (queue.map Prod.snd).length := by rw [List.length_map]
    rw [retag, htasks, hlen, List.drop_left]
  rw [hretag, messages_append, messages_of_notCall thread h, List.append_nil, htasks]
  simp [Function.comp_def]

end Messages

/-! ## Steps -/

/-- What a step can be, with all that is known when it is taken. -/
inductive Next (s : Senders τ) : Input τ → Senders τ → Prop where
  | send {dat : List UInt8} {r : SendResult} {w : Connection} (hw : s.conn.Next (.send dat r) w) :
      Next s (.send dat r) { s with
        conn := w
        queue := retag s.queue w.taskList
        calls := s.calls ++ [(none, dat)]
        executed := s.executed ++ [⟨none, dat, s.conn.drops r⟩] }
  | call {thread : Option τ} {t : ConnTask} (hdirect : thread = none → t.dat? = none)
      (hc : s.conn.state = .connected) :
      Next s (.call thread t) { s with
        conn := { s.conn with inFlight := s.conn.inFlight ++ [t] }
        calling := s.calling ++ [(thread, t)]
        calls := s.calls ++ t.dat?.toList.map fun dat => (thread, dat) }
  | callLate {thread : Option τ} {t : ConnTask} (hc : s.conn.state ≠ .connected) :
      Next s (.call thread t) { s with
        calls := s.calls ++ t.dat?.toList.map fun dat => (thread, dat) }
  | push {thread : Option τ} {before after : List (Option τ × ConnTask)} {t : ConnTask}
      {w : Connection} (hcalling : s.calling = before ++ (thread, t) :: after)
      (hfirst : ∀ x ∈ before, x.1 ≠ thread) (hw : s.conn.Next (.push before.length) w) :
      Next s (.push thread) { s with
        conn := w
        calling := before ++ after
        queue := s.queue ++ [(thread, t)] }
  | task {thread : Option τ} {t : ConnTask} {rest : List (Option τ × ConnTask)} {r : SendResult}
      {w : Connection} (hqueue : s.queue = (thread, t) :: rest) (hw : s.conn.Next (.task r) w) :
      Next s (.task r) { s with
        conn := w
        queue := retag rest w.taskList
        executed := s.executed ++ t.dat?.toList.map fun dat => ⟨thread, dat, s.conn.drops r⟩ }
  | own {i : Connection.Input} {w : Connection} (hi : i.isOwn = true) (hw : s.conn.Next i w) :
      Next s (.own i) { s with conn := w, queue := retag s.queue w.taskList }

theorem step_next {s s' : Senders τ} {i : Input τ} (hs : s.step i = some s') : s.Next i s' := by
  cases i with
  | send dat r =>
    simp only [step, Option.map_eq_some_iff] at hs
    obtain ⟨w, hw, rfl⟩ := hs
    exact .send (Connection.step_next hw)
  | call thread t =>
    simp only [step] at hs
    split at hs
    · cases hs
    · rename_i hguard
      obtain ⟨w, hw, rfl⟩ := Option.map_eq_some_iff.mp hs
      simp only [Connection.step] at hw
      split at hw
      · split at hw
        · rename_i hc
          cases hw
          rw [if_pos hc]
          refine .call (fun hthread => ?_) hc
          by_contra hne
          exact hguard (.inl ⟨hthread, Option.isSome_iff_ne_none.mpr hne⟩)
        · rename_i hc
          cases hw
          rw [if_neg hc]
          exact .callLate hc
      · cases hw
  | push thread =>
    simp only [step] at hs
    split at hs
    · cases hs
    · rename_i k hfind
      obtain ⟨w, hw, rfl⟩ := Option.map_eq_some_iff.mp hs
      obtain ⟨hk, hthread, hfirst⟩ := List.findIdx?_eq_some_iff_getElem.mp hfind
      have hthread : s.calling[k].1 = thread := by simpa using hthread
      have hlen : (s.calling.take k).length = k := List.length_take_of_le (Nat.le_of_lt hk)
      have hsplit : s.calling = s.calling.take k ++ (thread, s.calling[k].2) ::
          s.calling.drop (k + 1) := by
        rw [← hthread, List.getElem_cons_drop, List.take_append_drop]
      have hget : s.calling[k]?.toList = [(thread, s.calling[k].2)] := by
        rw [List.getElem?_eq_getElem hk, ← hthread]
        rfl
      rw [List.eraseIdx_eq_take_drop_succ, hget]
      refine .push hsplit (fun x hx => ?_) (by rw [hlen]; exact Connection.step_next hw)
      obtain ⟨j, hj, rfl⟩ := List.getElem_of_mem hx
      rw [List.getElem_take]
      simpa using hfirst j (by omega)
  | task r =>
    simp only [step] at hs
    split at hs
    · cases hs
    · rename_i thread t rest hqueue
      obtain ⟨w, hw, rfl⟩ := Option.map_eq_some_iff.mp hs
      exact .task hqueue (Connection.step_next hw)
  | own i =>
    simp only [step] at hs
    split at hs
    · rename_i hi
      obtain ⟨w, hw, rfl⟩ := Option.map_eq_some_iff.mp hs
      exact .own hi (Connection.step_next hw)
    · cases hs

/-! ## The tags -/

/-- The tags belong to the lists of the connection, and the thread of the loop queues no
`Send`. -/
structure Tracked (s : Senders τ) : Prop where
  calling : s.conn.inFlight = s.calling.map Prod.snd
  queue : s.conn.taskList = s.queue.map Prod.snd
  direct : messages none s.calling = [] ∧ messages none s.queue = []

section Tags

variable {s s' : Senders τ} {i : Input τ}

theorem send_step_frame {w t : Connection} {dat : List UInt8} {r : SendResult}
    (hn : w.Next (.send dat r) t) : Connection.Frame w t := by
  cases hn with
  | send => exact (Connection.send_frame w dat r).frame
  | sendLate => exact .refl w

/-- A push takes the call of the thread out of the calls under way. -/
theorem Tracked.push_conn (h : s.Tracked) {thread : Option τ}
    {before after : List (Option τ × ConnTask)} {t : ConnTask} {w : Connection}
    (hcalling : s.calling = before ++ (thread, t) :: after)
    (hw : s.conn.Next (.push before.length) w) :
    w.inFlight = (before ++ after).map Prod.snd ∧ w.taskList = s.conn.taskList ++ [t] := by
  have hflight : s.conn.inFlight = before.map Prod.snd ++ t :: after.map Prod.snd := by
    rw [h.calling, hcalling, List.map_append, List.map_cons]
  have hlen : before.length = (before.map Prod.snd).length := by rw [List.length_map]
  cases hw with
  | push hget =>
    rw [hflight, hlen, List.getElem?_append_right (Nat.le_refl _), Nat.sub_self,
      List.getElem?_cons_zero, Option.some.injEq] at hget
    subst hget
    refine ⟨?_, rfl⟩
    show s.conn.inFlight.eraseIdx before.length = _
    rw [hflight, hlen, List.eraseIdx_append_of_length_le (Nat.le_refl _), Nat.sub_self,
      List.eraseIdx_cons_zero, List.map_append]

/-- A task is taken from the front, and what it queues comes behind the rest. -/
theorem Tracked.task_conn (h : s.Tracked) {thread : Option τ} {t : ConnTask}
    {rest : List (Option τ × ConnTask)} {r : SendResult} {w : Connection}
    (hqueue : s.queue = (thread, t) :: rest) (hw : s.conn.Next (.task r) w) :
    w.inFlight = s.conn.inFlight ∧
      ∃ ts, w.taskList = rest.map Prod.snd ++ ts ∧ ∀ x ∈ ts, x.isCall = false := by
  cases hw with
  | @task t' rest' _ hpc hlist =>
    rw [h.queue, hqueue, List.map_cons, List.cons.injEq] at hlist
    rw [hlist.2]
    exact (Connection.runTask_queue { s.conn with taskList := rest' } t' r).2

theorem step_tracked (h : s.Tracked) (hn : s.Next i s') : s'.Tracked := by
  cases hn with
  | send hw =>
    have hframe := send_step_frame hw
    obtain ⟨ts, hts, hnot⟩ := hframe.tasks
    rw [h.queue] at hts
    obtain ⟨hq, hm⟩ := retag_spec (none : Option τ) hts hnot
    exact ⟨hframe.inFlight.trans h.calling, hq, h.direct.1, hm.trans h.direct.2⟩
  | own hi hw =>
    have hframe := Connection.own_frame hw hi
    obtain ⟨ts, hts, hnot⟩ := hframe.tasks
    rw [h.queue] at hts
    obtain ⟨hq, hm⟩ := retag_spec (none : Option τ) hts hnot
    exact ⟨hframe.inFlight.trans h.calling, hq, h.direct.1, hm.trans h.direct.2⟩
  | @call thread t hdirect hc =>
    refine ⟨by simp [h.calling], h.queue, ?_, h.direct.2⟩
    rw [messages_append, h.direct.1, messages_cons, List.nil_append]
    split
    · simp [hdirect ‹_›, messages]
    · rfl
  | callLate => exact ⟨h.calling, h.queue, h.direct⟩
  | @push thread before after t w hcalling hfirst hw =>
    obtain ⟨hflight, htasks⟩ := h.push_conn hcalling hw
    have hdirect := h.direct.1
    rw [hcalling, messages_append, messages_cons, List.append_eq_nil_iff,
      List.append_eq_nil_iff] at hdirect
    obtain ⟨hbefore, hhead, hafter⟩ := hdirect
    refine ⟨hflight, by rw [htasks, h.queue, List.map_append]; rfl, ?_, ?_⟩
    · rw [messages_append, hbefore, hafter]
      rfl
    · rw [messages_append, h.direct.2, messages_cons, hhead]
      rfl
  | @task thread t rest r w hqueue hw =>
    obtain ⟨hflight, ts, hts, hnot⟩ := h.task_conn hqueue hw
    have hdirect := h.direct.2
    rw [hqueue, messages_cons, List.append_eq_nil_iff] at hdirect
    obtain ⟨hq, hm⟩ := retag_spec (none : Option τ) hts hnot
    exact ⟨hflight.trans h.calling, hq, h.direct.1, hm.trans hdirect.2⟩

end Tags

/-! ## The messages -/

/-- What holds of the messages as long as the connection is connected. -/
structure InOrder (s : Senders τ) : Prop where
  flow : s.conn.view.Flow
  stream : s.conn.view.stream = s.joined.flatten
  order : ∀ thread, s.callsOf thread =
    s.executedOf thread ++ messages thread s.queue ++ messages thread s.calling

section Order

variable {s s' : Senders τ} {i : Input τ}

theorem callsOf_append {φ : Option τ} {dats : List (List UInt8)}
    (h : s'.calls = s.calls ++ dats.map fun dat => (φ, dat)) (thread : Option τ) :
    s'.callsOf thread = s.callsOf thread ++ if φ = thread then dats else [] := by
  rw [callsOf, callsOf, h, List.filter_append, List.map_append, List.filter_map, List.map_map]
  split <;> simp [*, Function.comp_def]

theorem executedOf_append {φ : Option τ} {dats : List (List UInt8)} {lost : Bool}
    (h : s'.executed = s.executed ++ dats.map fun dat => SentMessage.mk φ dat lost)
    (thread : Option τ) :
    s'.executedOf thread = s.executedOf thread ++ if φ = thread then dats else [] := by
  rw [executedOf, executedOf, h, List.filter_append, List.map_append, List.filter_map,
    List.map_map]
  split <;> simp [*, Function.comp_def]

omit [DecidableEq τ] in
theorem joined_append {φ : Option τ} {dats : List (List UInt8)} {lost : Bool}
    (h : s'.executed = s.executed ++ dats.map fun dat => SentMessage.mk φ dat lost) :
    s'.joined = s.joined ++ if lost then [] else dats := by
  rw [joined, joined, h, List.filter_append, List.map_append, List.filter_map, List.map_map]
  cases lost <;> simp [Function.comp_def]

omit [DecidableEq τ] in
theorem step_connected (hn : s.Next i s') (hc : s'.conn.state = .connected) :
    s.conn.state = .connected := by
  cases hn with
  | send hw => exact (Connection.step_stream hw hc).connected
  | call _ hc => exact hc
  | callLate => exact hc
  | push _ _ hw => exact (Connection.step_stream hw hc).connected
  | task _ hw => exact (Connection.step_stream hw hc).connected
  | own _ hw => exact (Connection.step_stream hw hc).connected

/-- A step in which `thread` makes the calls `calls` and its messages `dats` are executed. -/
theorem InOrder.of_step (h : s.InOrder) (thread : Option τ) (calls dats : List (List UInt8))
    (lost : Bool) (hcalls : s'.calls = s.calls ++ calls.map fun dat => (thread, dat))
    (hexecuted : s'.executed = s.executed ++ dats.map fun dat => SentMessage.mk thread dat lost)
    (hflow : s'.conn.view.Flow)
    (hstream : s'.conn.view.stream = s.conn.view.stream ++ if lost then [] else dats.flatten)
    (horder : ∀ φ, messages φ s.queue ++ messages φ s.calling ++
        (if thread = φ then calls else []) =
      (if thread = φ then dats else []) ++ messages φ s'.queue ++ messages φ s'.calling) :
    s'.InOrder := by
  refine ⟨hflow, ?_, fun φ => ?_⟩
  · rw [hstream, h.stream, joined_append hexecuted, List.flatten_append]
    cases lost <;> rfl
  · rw [callsOf_append hcalls, executedOf_append hexecuted, h.order φ]
    simp only [List.append_assoc] at horder ⊢
    rw [horder φ]

/-- What a task adds to the stream. -/
theorem Tracked.joins_task (ht : s.Tracked) {thread : Option τ} {t : ConnTask}
    {rest : List (Option τ × ConnTask)} (hqueue : s.queue = (thread, t) :: rest)
    (r : SendResult) :
    s.conn.joins (.task r) = if s.conn.drops r then [] else t.dat?.toList.flatten := by
  have hlist : s.conn.taskList = t :: rest.map Prod.snd := by
    rw [ht.queue, hqueue, List.map_cons]
  cases t with
  | sendInLoop dat =>
    have hm : s.conn.message (.task r) = some (dat, r) := by simp [Connection.message, hlist]
    rw [Connection.joins_of_some hm]
    simp [ConnTask.dat?]
  | _ =>
    rw [Connection.joins_of_none (by simp [Connection.message, hlist])]
    simp [ConnTask.dat?]

theorem step_inOrder (ht : s.Tracked) (h : s.InOrder) (hn : s.Next i s')
    (hc : s'.conn.state = .connected) : s'.InOrder := by
  cases hn with
  | @send dat r w hw =>
    obtain ⟨ts, hts, hnot⟩ := (send_step_frame hw).tasks
    rw [ht.queue] at hts
    obtain ⟨hflow, hstream⟩ := Connection.step_joins hw hc h.flow
    rw [Connection.joins_of_some rfl] at hstream
    refine h.of_step none [dat] [dat] (s.conn.drops r) rfl rfl hflow (by simpa using hstream)
      (fun φ => ?_)
    rw [(retag_spec φ hts hnot).2]
    by_cases hφ : none = φ
    · subst hφ
      simp [ht.direct.1, ht.direct.2]
    · simp [hφ]
  | @call thread t =>
    refine h.of_step thread t.dat?.toList [] true rfl (List.append_nil _).symm h.flow
      (List.append_nil _).symm (fun φ => ?_)
    rw [messages_append, messages_cons]
    simp
  | callLate hlate => exact absurd hc hlate
  | @push thread before after t w hcalling hfirst hw =>
    obtain ⟨hflow, hstream⟩ := Connection.step_joins hw hc h.flow
    rw [Connection.joins_of_none rfl] at hstream
    refine h.of_step thread [] [] true (List.append_nil _).symm (List.append_nil _).symm hflow
      hstream (fun φ => ?_)
    rw [hcalling, messages_append, messages_append, messages_append, messages_cons, messages_cons]
    by_cases hφ : thread = φ
    · -- The first call of the thread is the one that is pushed.
      have hbefore : messages φ before = [] := by
        rw [messages, List.filterMap_eq_nil_iff]
        intro x hx
        rw [if_neg (hφ ▸ hfirst x hx)]
      simp [hφ, hbefore]
    · simp [hφ]
  | @task thread t rest r w hqueue hw =>
    obtain ⟨-, ts, hts, hnot⟩ := ht.task_conn hqueue hw
    obtain ⟨hflow, hstream⟩ := Connection.step_joins hw hc h.flow
    rw [ht.joins_task hqueue] at hstream
    refine h.of_step thread [] t.dat?.toList (s.conn.drops r) (List.append_nil _).symm rfl hflow
      hstream (fun φ => ?_)
    rw [hqueue, messages_cons, (retag_spec φ hts hnot).2]
    simp
  | own hi hw =>
    obtain ⟨ts, hts, hnot⟩ := (Connection.own_frame hw hi).tasks
    rw [ht.queue] at hts
    obtain ⟨hflow, hstream⟩ := Connection.step_joins hw hc h.flow
    rw [Connection.joins_of_none (Connection.own_message hi)] at hstream
    refine h.of_step none [] [] true (List.append_nil _).symm (List.append_nil _).symm hflow
      hstream (fun φ => ?_)
    rw [(retag_spec φ hts hnot).2]
    simp

end Order

theorem InOrder.joinedOf_sublist {s : Senders τ} (h : s.InOrder) (thread : Option τ) :
    (s.joinedOf thread).Sublist (s.callsOf thread) := by
  have hexecuted : (s.joinedOf thread).Sublist (s.executedOf thread) :=
    (List.filter_sublist.filter _).map _
  rw [h.order thread, List.append_assoc]
  exact hexecuted.trans (List.sublist_append_left _ _)

theorem tracked_new (w : Connection) (hf : w.inFlight = []) (ht : w.taskList = []) :
    (new τ w).Tracked := by
  constructor <;> simp [new, hf, ht, messages]

/-- **Whole messages, each thread in its order.** Any number of threads send on a
connection, the thread of the loop directly and the others through its queue. Whenever
the connection is connected, the bytes accepted by the kernel followed by those in
`buffer_output_` are the messages executed, one behind the other, except those that
found the connection not connected and those whose direct `::send` returned -1. Those of
a thread are in the order of its calls; what is not executed yet is in the queue or on its
way there. -/
theorem messages_whole_in_order (τ : Type) [DecidableEq τ] (p : Epoller) (c : ChanId)
    (cb : Callbacks) (rm : Remover) (ov : Nat) (ins : List (Input τ)) (s : Senders τ)
    (hr : Machine.run step (new τ (Connection.new p c cb rm ov).connectionEstablished) ins =
      some s) (hc : s.conn.state = .connected) :
    s.conn.wire ++ s.conn.bufferOutput.contents = s.joined.flatten ∧
      ∀ thread, (s.joinedOf thread).Sublist (s.callsOf thread) ∧
        s.callsOf thread =
          s.executedOf thread ++ messages thread s.queue ++ messages thread s.calling := by
  obtain ⟨hf, hst, -⟩ := Connection.established_stream p c cb rm ov
  have hempty : (Connection.new p c cb rm ov).connectionEstablished.inFlight = [] ∧
      (Connection.new p c cb rm ov).connectionEstablished.taskList = [] := by
    unfold Connection.connectionEstablished
    dsimp only
    split <;> exact ⟨rfl, rfl⟩
  have hinv := Machine.run_invariant
    (P := fun s : Senders τ => s.Tracked ∧ (s.conn.state = .connected → s.InOrder))
    (fun h hs => ⟨step_tracked h.1 (step_next hs), fun hc =>
      step_inOrder h.1 (h.2 (step_connected (step_next hs) hc)) (step_next hs) hc⟩)
    ⟨tracked_new _ hempty.1 hempty.2, fun _ => ⟨hf, hst, fun thread => ?_⟩⟩ hr
  · have h := hinv.2 hc
    exact ⟨h.stream, fun thread => ⟨h.joinedOf_sublist thread, h.order thread⟩⟩
  · simp [new, callsOf, executedOf, hempty, messages]

/-- Two threads and the loop send; a direct send is cut short, the queued ones go behind
its rest. -/
theorem messages_whole_in_order_two_threads : ∃ s : Senders Nat,
    Machine.run step (new Nat (Connection.new (Epoller.new 8 (· + 1)) 3
      ⟨false, false, false, false, false⟩ .serverLoop 100).connectionEstablished)
      [.call (some 1) (.sendInLoop [65, 66]), .call (some 2) (.sendInLoop [67]), .push (some 2),
       .send [68, 69] (.accepted 1), .push (some 1), .call (some 2) (.sendInLoop [70]),
       .task (.error 0), .push (some 2), .own (.event EPOLLOUT (.error 0) (.accepted 1)),
       .task (.error 0)] = some s ∧
    s.conn.wire = [68, 69] ∧ s.joined = [[68, 69], [67], [65, 66]] ∧
    s.conn.wire ++ s.conn.bufferOutput.contents = s.joined.flatten ∧
    s.callsOf (some 2) = [[67], [70]] ∧ s.executedOf (some 2) = [[67]] := by
  obtain ⟨s, hr, hobs⟩ := Option.map_eq_some_iff.mp (show (Machine.run step (new Nat
      (Connection.new (Epoller.new 8 (· + 1)) 3 ⟨false, false, false, false, false⟩ .serverLoop
      100).connectionEstablished)
      [.call (some 1) (.sendInLoop [65, 66]), .call (some 2) (.sendInLoop [67]), .push (some 2),
       .send [68, 69] (.accepted 1), .push (some 1), .call (some 2) (.sendInLoop [70]),
       .task (.error 0), .push (some 2), .own (.event EPOLLOUT (.error 0) (.accepted 1)),
       .task (.error 0)]).map (fun s => (s.conn.state, s.conn.wire, s.joined, s.callsOf (some 2),
      s.executedOf (some 2))) =
      some (.connected, [68, 69], [[68, 69], [67], [65, 66]], [[67], [70]], [[67]])
      by decide +kernel)
  simp only [Prod.mk.injEq] at hobs
  obtain ⟨hc, hwire, hjoined, hcalls, hexecuted⟩ := hobs
  exact ⟨s, hr, hwire, hjoined, (messages_whole_in_order Nat _ _ _ _ _ _ s hr hc).1, hcalls,
    hexecuted⟩

end Senders

end LinuxNet
