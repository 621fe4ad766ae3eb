import LinuxNet.Server.Destructor
import Mathlib.Algebra.BigOperators.Group.Finset.Basic

/-!
# The server comes to rest

Between two events the loops work off what they have taken on: the tasks in their queues, the
channels `epoll_wait` has reported, the callbacks they are in and the calls of `ForceClose` on
their way. One thing leads to the next, a call to a task, the task to `HandleClose`, from there
to the loop of the server and back to the loop of the connection. `work` counts the steps this
can take; whichever loop goes next, it falls, and where nothing is left of it every connection
is open and in the table or destroyed and out of it.
-/

namespace LinuxNet

set_option autoImplicit false

open LinuxNet.Lib Relation

/-- An open connection is in the interest set of its poller. -/
def Life.Watched (f : Life) : Prop := f.conn.state = .connected → f.conn.interest = true

theorem Life.Watched.moves {f g : Life} (h : f.Watched) (hm : ReflTransGen Life.Move f g) :
    g.Watched := by
  induction hm with
  | refl => exact h
  | tail _ hm ih =>
    cases hm with
    | created k hb hk =>
      rw [hk]
      exact fun hs => absurd hs (by simp)
    | rejected k hb hk =>
      rw [hk]
      exact fun hs => absurd hs (by simp)
    | established => exact fun _ => rfl
    | closeEvent => exact fun hs => absurd hs (by simp [Life.handleClose])
    | forceClose => exact fun hs => absurd hs (by simp [Life.handleClose])
    | destroyed => exact fun hs => absurd hs (by simp)
    | polled => exact ih
    | dispatched => exact ih
    | forceCall => exact ih
    | forceLate => exact ih
    | removeCb => exact ih
    | removed => exact ih
    | dropped => exact ih

/-- A connection the server has accepted stays accepted. -/
theorem Life.accepted_moves {f g : Life} (h : f.conn.accepted = true)
    (hm : ReflTransGen Life.Move f g) : g.conn.accepted = true := by
  induction hm with
  | refl => exact h
  | tail _ hm ih =>
    cases hm with
    | created k hb => exact absurd (hb.accepted.symm.trans ih) Bool.false_ne_true
    | rejected k hb => exact absurd (hb.accepted.symm.trans ih) Bool.false_ne_true
    | established => exact ih
    | closeEvent => exact ih
    | forceClose => exact ih
    | destroyed => exact ih
    | polled => exact ih
    | dispatched => exact ih
    | forceCall => exact ih
    | forceLate => exact ih
    | removeCb => exact ih
    | removed => exact ih
    | dropped => exact ih

namespace TCPServer

/-- The steps that take on nothing new. -/
def Input.worksOff : Input → Bool
  | .runTask _ | .dispatch _ _ | .removeCb _ | .push _ => true
  | _ => false

/-- The steps a task leads to, its own included. -/
def taskWork : ServerTask → Nat
  | .connectionEstablished _ => 1
  | .forceCloseInLoop _ => 4
  | .onConnectionRemoveInLoop _ => 2
  | .connectionDestroy _ => 1

def tasksWork : List ServerTask → Nat
  | [] => 0
  | t :: ts => taskWork t + tasksWork ts

theorem tasksWork_queue (ts : List ServerTask) (t : ServerTask) :
    tasksWork (ts ++ [t]) = tasksWork ts + taskWork t := by
  induction ts with
  | nil => exact Nat.add_comm _ _
  | cons u ts ih =>
    rw [List.cons_append, tasksWork, ih, tasksWork]
    omega

def closingWork (o : Option ConnId) : Nat := if o.isSome then 3 else 0

def loopWork (s : TCPServer) (l : LoopId) : Nat :=
  tasksWork (s.taskList l) + 4 * (s.activeChannels l).length + closingWork (s.closing l)

/-- The steps the loops can still take before the next event. -/
def work (s : TCPServer) : Nat :=
  ∑ l ∈ Finset.range (s.loopNums + 1), s.loopWork l + 5 * s.inFlight.length

/-- Nothing is left to do. -/
structure AtRest (s : TCPServer) : Prop where
  taskList : ∀ l, s.taskList l = []
  activeChannels : ∀ l, s.activeChannels l = []
  closing : ∀ l, s.closing l = none
  inFlight : s.inFlight = []

/-- The connection is open: its poller watches it and the table has it. -/
structure Open (s : TCPServer) (c : ConnId) : Prop where
  state : (s.conns c).state = .connected
  interest : (s.conns c).interest = true
  alive : (s.conns c).alive = true
  entry : s.tcpConnList (s.conns c).fd = some c
  closes : (s.conns c).closes = 0

/-- The connection is gone: `HandleClose` and `ConnectionDestroy` have run once, the latter in
its loop, and the table does not have it. -/
structure Gone (s : TCPServer) (c : ConnId) : Prop where
  state : (s.conns c).state = .disconnected
  interest : (s.conns c).interest = false
  entry : ∀ fd, s.tcpConnList fd ≠ some c
  closes : (s.conns c).closes = 1
  destroyed : s.destroyed.filter (fun d => d.1 == c) = [(c, (s.conns c).loop)]

/-- The connection is being closed, or a call of `ForceClose` is on its way to it. -/
def Doomed (s : TCPServer) (c : ConnId) : Prop :=
  0 < (s.conns c).closes ∨ .forceCloseInLoop c ∈ s.taskList (s.conns c).loop ∨ c ∈ s.inFlight

/-! ## The work -/

section Work

variable {s s' : TCPServer} {c : ConnId} {l : LoopId} {t : ServerTask}

/-- A change in one loop. -/
theorem work_at (s' : TCPServer) {l : ℕ} (hl : l ≤ s.loopNums) (hnums : s'.loopNums = s.loopNums)
    (hflight : s'.inFlight = s.inFlight)
    (hoff : ∀ l' : ℕ, l' ≠ l → s'.loopWork l' = s.loopWork l') :
    s'.work + s.loopWork l = s.work + s'.loopWork l := by
  have hmem : l ∈ Finset.range (s.loopNums + 1) := Finset.mem_range.mpr (Nat.lt_succ_of_le hl)
  have hrest : ∑ l' ∈ (Finset.range (s.loopNums + 1)).erase l, s'.loopWork l' =
      ∑ l' ∈ (Finset.range (s.loopNums + 1)).erase l, s.loopWork l' :=
    Finset.sum_congr rfl fun l' hl' => hoff l' (Finset.ne_of_mem_erase hl')
  unfold work
  rw [hnums, hflight, ← Finset.add_sum_erase _ _ hmem, ← Finset.add_sum_erase _ _ hmem, hrest]
  omega

theorem work_setTaskList (hl : l ≤ s.loopNums) (ts : List ServerTask) :
    (s.setTaskList l ts).work + tasksWork (s.taskList l) = s.work + tasksWork ts := by
  have h := work_at (s.setTaskList l ts) hl rfl rfl fun l' hne => by
    simp [loopWork, setTaskList, hne]
  have hnew : (s.setTaskList l ts).loopWork l =
      tasksWork ts + 4 * (s.activeChannels l).length + closingWork (s.closing l) := by
    simp [loopWork, setTaskList]
  rw [hnew] at h
  unfold loopWork at h
  omega

theorem work_setActive (hl : l ≤ s.loopNums) (cs : List ConnId) :
    (s.setActive l cs).work + 4 * (s.activeChannels l).length = s.work + 4 * cs.length := by
  have h := work_at (s.setActive l cs) hl rfl rfl fun l' hne => by
    simp [loopWork, setActive, hne]
  have hnew : (s.setActive l cs).loopWork l =
      tasksWork (s.taskList l) + 4 * cs.length + closingWork (s.closing l) := by
    simp [loopWork, setActive]
  rw [hnew] at h
  unfold loopWork at h
  omega

theorem work_setClosing (hl : l ≤ s.loopNums) (o : Option ConnId) :
    (s.setClosing l o).work + closingWork (s.closing l) = s.work + closingWork o := by
  have h := work_at (s.setClosing l o) hl rfl rfl fun l' hne => by
    simp [loopWork, setClosing, hne]
  have hnew : (s.setClosing l o).loopWork l =
      tasksWork (s.taskList l) + 4 * (s.activeChannels l).length + closingWork o := by
    simp [loopWork, setClosing]
  rw [hnew] at h
  unfold loopWork at h
  omega

theorem work_erased (cs : List ConnId) :
    work { s with inFlight := cs } + 5 * s.inFlight.length = s.work + 5 * cs.length := by
  have hloops : ∀ l, loopWork { s with inFlight := cs } l = s.loopWork l := fun _ => rfl
  simp only [work, hloops]
  omega

theorem SameButTable.work (h : SameButTable s s') : s'.work = s.work := by
  obtain ⟨_, _, _, _, rfl⟩ := h
  rfl

theorem SameButTable.loopNums (h : SameButTable s s') : s'.loopNums = s.loopNums :=
  h.steady.loopNums

theorem work_queueInLoop (ha : s.loopAlive l = true) (hl : l ≤ s.loopNums) :
    (s.queueInLoop l t).work = s.work + taskWork t := by
  have h := work_setTaskList hl (s.taskList l ++ [t])
  unfold queueInLoop
  rw [if_pos ha]
  rw [tasksWork_queue] at h
  omega

theorem work_unlist : (s.unlist c).work = s.work := (sameButTable_delConnListItem s c).work

theorem work_onConnectionRemoveInLoop (ha : ∀ l, s.loopAlive l = true)
    (hl : (s.conns c).loop ≤ s.loopNums) : (s.onConnectionRemoveInLoop c).work ≤ s.work + 1 := by
  have hsame := sameButTable_delConnListItem s c
  have hunlist : (s.unlist c).work = s.work := work_unlist
  rw [onConnectionRemoveInLoop_eq]
  split
  · rw [(sameButTable_dumpConnections _).work]
    have hdestroy : ((s.unlist c).connectionDestroy c 0).work = (s.unlist c).work := rfl
    omega
  · rw [(sameButTable_dumpConnections _).work]
    have hq := work_queueInLoop (s := s.unlist c) (l := (s.conns c).loop)
      (t := .connectionDestroy c) (by simp [unlist, setConn, hsame.loopAlive, ha])
      (by simpa [unlist, setConn, hsame.loopNums] using hl)
    simp only [taskWork] at hq
    omega

theorem work_onConnectionRemove (ha : ∀ l, s.loopAlive l = true)
    (hl : (s.conns c).loop ≤ s.loopNums) : (s.onConnectionRemove c l).work ≤ s.work + 2 := by
  unfold onConnectionRemove runInLoop
  split
  · have h := work_onConnectionRemoveInLoop ha hl
    omega
  · exact (work_queueInLoop (ha 0) (Nat.zero_le _)).le

theorem work_handleClose (hl : l ≤ s.loopNums) (hcl : s.closing l = none) :
    (s.handleClose c l).work = s.work + 3 := by
  have h := work_setClosing (s := s.setConn c (s.conns c).handleClose) hl (some c)
  have hold : (s.setConn c (s.conns c).handleClose).closing l = none := hcl
  rw [hold] at h
  exact h

theorem work_runTask (ha : ∀ l, s.loopAlive l = true) (hloop : ∀ c, (s.conns c).loop ≤ s.loopNums)
    (hl : l ≤ s.loopNums) (hcl : s.closing l = none) :
    (s.runTask l t).work < s.work + taskWork t := by
  cases t with
  | connectionEstablished c => exact Nat.lt_succ_self s.work
  | forceCloseInLoop c =>
    simp only [runTask, forceCloseInLoop, taskWork]
    split
    · omega
    · rw [work_handleClose hl hcl]
      omega
  | onConnectionRemoveInLoop c =>
    have h := work_onConnectionRemoveInLoop ha (hloop c)
    simp only [runTask, taskWork]
    omega
  | connectionDestroy c => exact Nat.lt_succ_self s.work

theorem work_handleEvent (hl : l ≤ s.loopNums) (hcl : s.closing l = none) (close : Bool) :
    (s.handleEvent c l close).work ≤ s.work + 3 := by
  have hsame := sameButTable_check s .deadChannel (s.conns c).alive
  unfold handleEvent
  dsimp only
  split
  · rw [work_handleClose (by rw [hsame.loopNums]; exact hl) (by rw [hsame.closing]; exact hcl),
      hsame.work]
  · rw [hsame.work]
    omega

end Work

/-! ## What a step does to the work -/

section Steps

variable {s s' : TCPServer} {c : ConnId} {l : LoopId} {i : Input}

theorem worksOff_ne_stop (hw : i.worksOff = true) : i ≠ .stop := by
  intro hi
  rw [hi] at hw
  exact Bool.false_ne_true hw

theorem Placed.task_le (hp : s.Placed) {t : ServerTask} (ht : t ∈ s.taskList l) :
    l ≤ s.loopNums := by
  rw [(hp.task l t ht).2]
  cases t with
  | onConnectionRemoveInLoop c => exact Nat.zero_le _
  | connectionEstablished c => exact hp.loop c
  | forceCloseInLoop c => exact hp.loop c
  | connectionDestroy c => exact hp.loop c

/-- Whichever loop goes on, there is less to do afterwards. -/
theorem step_work (h : s.Serving) (hw : i.worksOff = true) (hn : s.Next i s') :
    s'.work < s.work := by
  have hp := h.placed
  cases hn with
  | @runTask l t rest hready hact hq =>
    have hl : l ≤ s.loopNums := hp.task_le (t := t) (by rw [hq]; exact List.mem_cons_self)
    have hpop := work_setTaskList hl rest
    have hcl : (s.setTaskList l rest).closing l = none := ready_closing hready
    have hrun := work_runTask (s := s.setTaskList l rest) (t := t) h.alive hp.loop hl hcl
    have htasks : tasksWork (s.taskList l) = taskWork t + tasksWork rest := by
      rw [hq, tasksWork]
    omega
  | @dispatch l close c rest hready hact =>
    have hl : l ≤ s.loopNums := by
      rw [(hp.active l c (by rw [hact]; exact List.mem_cons_self)).2]
      exact hp.loop c
    have hpop := work_setActive hl rest
    have hcl : (s.setActive l rest).closing l = none := ready_closing hready
    have hevent := work_handleEvent (s := s.setActive l rest) (c := c) hl hcl close
    rw [hact, List.length_cons] at hpop
    omega
  | @removeCb l c hcl =>
    have hl : l ≤ s.loopNums := by
      rw [(hp.closing l c hcl).2]
      exact hp.loop c
    have hpop := work_setClosing hl none
    have hremove := work_onConnectionRemove (s := s.setClosing l none) (l := l) h.alive (hp.loop c)
    rw [hcl] at hpop
    simp only [closingWork, Option.isSome_some, Option.isSome_none, if_true, if_false,
      Bool.false_eq_true] at hpop
    omega
  | @push i c hget =>
    have hlen := List.length_eraseIdx_of_lt (List.getElem?_eq_some_iff.mp hget).1
    have hlt := (List.getElem?_eq_some_iff.mp hget).1
    have herase := work_erased (s := s) (s.inFlight.eraseIdx i)
    generalize hs₀ : { s with inFlight := s.inFlight.eraseIdx i } = s₀ at herase ⊢
    have halive : s₀.loopAlive (s.conns c).loop = true := by rw [← hs₀]; exact h.alive _
    have hnums : (s.conns c).loop ≤ s₀.loopNums := by rw [← hs₀]; exact hp.loop c
    rw [work_queueInLoop halive hnums]
    simp only [taskWork]
    omega
  | accept => exact absurd hw Bool.false_ne_true
  | poll => exact absurd hw Bool.false_ne_true
  | forceClose => exact absurd hw Bool.false_ne_true
  | forceCloseLate => exact absurd hw Bool.false_ne_true
  | drop => exact absurd hw Bool.false_ne_true
  | stop => exact absurd hw Bool.false_ne_true
  | join => exact absurd hw Bool.false_ne_true
  | sweep => exact absurd hw Bool.false_ne_true

/-- As long as something is left to do, some loop can do it. -/
theorem Serving.works (h : s.Serving) :
    s.AtRest ∨ ∃ i s', Input.worksOff i = true ∧ s.step i = some s' := by
  by_cases hflight : s.inFlight = []
  swap
  · obtain ⟨c, rest, hflight⟩ := List.exists_cons_of_ne_nil hflight
    have hget : s.inFlight[0]? = some c := by rw [hflight, List.getElem?_cons_zero]
    cases hstep : s.step (.push 0) with
    | none => simp [step, hget] at hstep
    | some s' => exact .inr ⟨.push 0, s', rfl, hstep⟩
  by_cases hclosing : ∀ l, s.closing l = none
  swap
  · obtain ⟨l, hl⟩ := not_forall.mp hclosing
    obtain ⟨c, hc⟩ := Option.ne_none_iff_exists'.mp hl
    refine .inr ⟨.removeCb l, (s.setClosing l none).onConnectionRemove c l, rfl, ?_⟩
    simp only [step, hc]
    exact if_pos ⟨h.alive l, .inr (by rw [h.running]; rfl)⟩
  have hready : ∀ l, s.ready l = true := by
    intro l
    simp [ready, h.alive l, hclosing l, h.running, Phase.isStopping]
  by_cases hactive : ∀ l, s.activeChannels l = []
  swap
  · obtain ⟨l, hl⟩ := not_forall.mp hactive
    obtain ⟨c, rest, hl⟩ := List.exists_cons_of_ne_nil hl
    refine .inr ⟨.dispatch l false, (s.setActive l rest).handleEvent c l false, rfl, ?_⟩
    simp only [step, hready l, if_true, hl]
  by_cases htasks : ∀ l, s.taskList l = []
  · exact .inl ⟨htasks, hactive, hclosing, hflight⟩
  · obtain ⟨l, hl⟩ := not_forall.mp htasks
    obtain ⟨t, rest, hl⟩ := List.exists_cons_of_ne_nil hl
    refine .inr ⟨.runTask l, (s.setTaskList l rest).runTask l t, rfl, ?_⟩
    simp only [step, hl]
    exact if_pos ⟨hready l, hactive l⟩

end Steps

/-! ## What is to be closed -/

/-- No task and no call is lost, and no close undone. -/
structure Pursues (s s' : TCPServer) : Prop where
  loop : ∀ c, (s'.conns c).loop = (s.conns c).loop
  closes : ∀ c, (s.conns c).closes ≤ (s'.conns c).closes
  task : ∀ l t, t ∈ s.taskList l → t ∈ s'.taskList l
  inFlight : ∀ c, c ∈ s.inFlight → c ∈ s'.inFlight

section Pursues

variable {s s' s'' : TCPServer} {c : ConnId} {l : LoopId} {i : Input}

theorem Pursues.trans (h : Pursues s s') (h' : Pursues s' s'') : Pursues s s'' where
  loop c := (h'.loop c).trans (h.loop c)
  closes c := (h.closes c).trans (h'.closes c)
  task l t ht := h'.task l t (h.task l t ht)
  inFlight c hc := h'.inFlight c (h.inFlight c hc)

theorem Pursues.doomed (h : Pursues s s') (hd : s.Doomed c) : s'.Doomed c := by
  rcases hd with hcloses | htask | hflight
  · exact .inl (Nat.lt_of_lt_of_le hcloses (h.closes c))
  · refine .inr (.inl ?_)
    rw [h.loop c]
    exact h.task _ _ htask
  · exact .inr (.inr (h.inFlight c hflight))

theorem pursues_of_conns (hc : s'.conns = s.conns) (ht : s'.taskList = s.taskList)
    (hf : s'.inFlight = s.inFlight) : Pursues s s' := by
  constructor <;> simp [hc, ht, hf]

theorem SameButTable.pursues (h : SameButTable s s') : Pursues s s' := by
  obtain ⟨_, _, _, _, rfl⟩ := h
  exact pursues_of_conns rfl rfl rfl

theorem pursues_setConn {k : ServerConn} (hl : k.loop = (s.conns c).loop)
    (hk : (s.conns c).closes ≤ k.closes) : Pursues s (s.setConn c k) where
  loop := setConn_field ServerConn.loop hl
  closes c' := by
    by_cases hc : c' = c
    · subst hc
      rw [setConn_conns_self]
      exact hk
    · rw [setConn_conns_of_ne k hc]
  task _ _ ht := ht
  inFlight _ hc := hc

theorem pursues_queueInLoop {t : ServerTask} : Pursues s (s.queueInLoop l t) := by
  unfold queueInLoop
  split
  · constructor
    · exact fun _ => rfl
    · exact fun _ => Nat.le_refl _
    · intro l' t' ht'
      by_cases hl : l' = l
      · subst hl
        simp [setTaskList, ht']
      · simpa [setTaskList, hl] using ht'
    · exact fun _ hc => hc
  · exact (sameButTable_check s _ _).pursues

theorem pursues_handleClose : Pursues s (s.handleClose c l) := by
  have hconn : Pursues s (s.setConn c (s.conns c).handleClose) :=
    pursues_setConn rfl (Nat.le_succ _)
  exact hconn.trans (pursues_of_conns rfl rfl rfl)

theorem pursues_connectionDestroy : Pursues s (s.connectionDestroy c l) := by
  have hconn : Pursues s (s.setConn c (s.conns c).connectionDestroy) :=
    pursues_setConn rfl (Nat.le_refl _)
  exact hconn.trans (pursues_of_conns rfl rfl rfl)

theorem pursues_onConnectionRemoveInLoop : Pursues s (s.onConnectionRemoveInLoop c) := by
  have hsame := sameButTable_delConnListItem s c
  have hunlist : Pursues s (s.unlist c) := by
    apply hsame.pursues.trans
    exact pursues_setConn (by rw [hsame.conns]) (by rw [hsame.conns])
  rw [onConnectionRemoveInLoop_eq]
  split
  · exact (hunlist.trans pursues_connectionDestroy).trans (sameButTable_dumpConnections _).pursues
  · exact (hunlist.trans pursues_queueInLoop).trans (sameButTable_dumpConnections _).pursues

theorem pursues_onConnectionRemove : Pursues s (s.onConnectionRemove c l) := by
  unfold onConnectionRemove runInLoop
  split
  · exact pursues_onConnectionRemoveInLoop
  · exact pursues_queueInLoop

theorem pursues_handleEvent (close : Bool) : Pursues s (s.handleEvent c l close) := by
  have hcheck := (sameButTable_check s .deadChannel (s.conns c).alive).pursues
  unfold handleEvent
  dsimp only
  split
  · exact hcheck.trans pursues_handleClose
  · exact hcheck

theorem pursues_runTask (t : ServerTask) : Pursues s (s.runTask l t) := by
  cases t with
  | connectionEstablished c => exact pursues_setConn rfl (Nat.le_refl _)
  | forceCloseInLoop c =>
    simp only [runTask, forceCloseInLoop]
    split
    · exact pursues_of_conns rfl rfl rfl
    · exact pursues_handleClose
  | onConnectionRemoveInLoop c => exact pursues_onConnectionRemoveInLoop
  | connectionDestroy c => exact pursues_connectionDestroy

/-- `ForceCloseInLoop` closes the connection, unless it has been closed. -/
theorem Serving.forced (h : s.Serving) {rest : List ServerTask}
    (hq : s.taskList l = .forceCloseInLoop c :: rest) :
    0 < (((s.setTaskList l rest).forceCloseInLoop c l).conns c).closes := by
  have hl := (h.placed.task l _ (by rw [hq]; exact List.mem_cons_self)).2
  have hpend := pending_ne_zero hq hl
  have hok := h.ok (c := c) fun hb => by
    have hforced := hb.forced
    simp only [life] at hforced
    omega
  unfold forceCloseInLoop
  split
  · rename_i hst
    have honce : (s.conns c).closes = _ := hok.once
    rw [if_neg] at honce
    · exact honce ▸ Nat.one_pos
    · intro hopen
      have hst' : (s.conns c).state = .disconnecting ∨ (s.conns c).state = .disconnected := hst
      have hopen' : (s.conns c).state = .connecting ∨ (s.conns c).state = .connected := hopen
      rcases hst' with he | he <;> simp [he] at hopen'
  · simp [handleClose, setClosing, setConn]

theorem step_doomed (h : s.Serving) (hw : i.worksOff = true) (hn : s.Next i s')
    (hd : s.Doomed c) : s'.Doomed c := by
  cases hn with
  | @runTask l t rest hready hact hq =>
    by_cases ht : t = .forceCloseInLoop c
    · subst ht
      exact .inl (h.forced hq)
    · apply (pursues_runTask t).doomed
      rcases hd with hcloses | htask | hflight
      · exact .inl hcloses
      · refine .inr (.inl ?_)
        by_cases hl : (s.conns c).loop = l
        · rw [hl, hq, List.mem_cons] at htask
          have hmem := htask.resolve_left (Ne.symm ht)
          simpa [setTaskList, hl] using hmem
        · simpa [setTaskList, hl] using htask
      · exact .inr (.inr hflight)
  | dispatch =>
    exact ((pursues_of_conns rfl rfl rfl).trans (pursues_handleEvent _)).doomed hd
  | removeCb =>
    exact ((pursues_of_conns rfl rfl rfl).trans pursues_onConnectionRemove).doomed hd
  | @push i c₀ hget =>
    rcases hd with hcloses | htask | hflight
    · exact pursues_queueInLoop.doomed (.inl hcloses)
    · exact pursues_queueInLoop.doomed (.inr (.inl htask))
    · by_cases hc : c = c₀
      · subst hc
        refine .inr (.inl ?_)
        simp [queueInLoop, h.alive, setTaskList]
      · refine pursues_queueInLoop.doomed (.inr (.inr ?_))
        have hcount := count_eraseIdx hget c
        rw [if_neg hc, Nat.add_zero] at hcount
        exact List.count_pos_iff.mp (hcount ▸ List.count_pos_iff.mpr hflight)
  | accept => exact absurd hw Bool.false_ne_true
  | poll => exact absurd hw Bool.false_ne_true
  | forceClose => exact absurd hw Bool.false_ne_true
  | forceCloseLate => exact absurd hw Bool.false_ne_true
  | drop => exact absurd hw Bool.false_ne_true
  | stop => exact absurd hw Bool.false_ne_true
  | join => exact absurd hw Bool.false_ne_true
  | sweep => exact absurd hw Bool.false_ne_true

end Pursues

/-! ## Rest -/

section Rest

variable {s s' t : TCPServer} {c : ConnId} {i : Input}

/-- What holds of the connections while the server is running, and that the open ones are
watched. -/
structure Attended (s : TCPServer) : Prop where
  tended : s.Tended
  watched : ∀ c, (s.life c).Watched

theorem Serving.moves (h : s.Serving) (hn : s.Next i s') (c : ConnId) :
    ReflTransGen Life.Move (s.life c) (s'.life c) :=
  step_moves h.placed h.alive h.running
    (fun c hacc hrem => (h.table.slot _ c).mpr ⟨rfl, hacc, hrem⟩) hn c

theorem step_attended (h : s.Attended) (hn : s.Next i s') (hi : i ≠ .stop) : s'.Attended where
  tended := step_tended h.tended hn hi
  watched c := (h.watched c).moves (h.tended.serving.moves hn c)

theorem run_attended {loopNums size : Nat} {is : List Input}
    (hrun : Machine.run step (init loopNums size) is = some s) (hstop : Input.stop ∉ is) :
    s.Attended := by
  apply Machine.run_invariant_of_mem (G := fun i => i ≠ .stop) (P := Attended) _ _ _ hrun
  · exact fun h hi hstep => step_attended h (step_next hstep) hi
  · exact ⟨tended_init loopNums size, fun c hc => absurd hc (by simp [TCPServer.life, init])⟩
  · exact fun i hi he => hstop (he ▸ hi)

theorem AtRest.life (hr : s.AtRest) (c : ConnId) : s.life c = Life.idle (s.conns c) := by
  simp [TCPServer.life, Life.idle, pending, hr.taskList, hr.activeChannels, hr.closing,
    hr.inFlight]

/-- With nothing left to do, a connection has not been closed or is gone. -/
theorem Attended.at_rest (h : s.Attended) (hr : s.AtRest) (hacc : (s.conns c).accepted = true) :
    s.Open c ∨ s.Gone c := by
  have hserving := h.tended.serving
  have hok := h.tended.ok (c := c) fun hb => by
    have hnot : (s.conns c).accepted = false := hb.accepted
    exact Bool.false_ne_true (hnot.symm.trans hacc)
  have hsettled := h.tended.settled c
  have hwatched := h.watched c
  have hslot := hserving.table.slot
  rw [hr.life c] at hok hsettled hwatched
  have hconnecting : (s.conns c).state ≠ .connecting := by
    intro hst
    have hest := hok.established
    rw [if_pos (by exact hst)] at hest
    exact Nat.zero_ne_one hest
  have hplace : (s.conns c).closes = (s.conns c).removed.toNat := by
    have hp := hok.place
    simpa [Life.idle] using hp
  by_cases hst : (s.conns c).state = .connected
  · left
    have hcloses : (s.conns c).closes = 0 := (hok.fresh (.inr hst)).2.2.2
    have hremoved : (s.conns c).removed = false := (hok.fresh (.inr hst)).2.2.1
    exact {
      state := hst
      interest := hwatched hst
      alive := hok.alive hremoved
      entry := (hslot _ c).mpr ⟨rfl, hacc, hremoved⟩
      closes := hcloses }
  · right
    have hcloses : (s.conns c).closes = 1 := by
      have honce := hok.once
      rw [if_neg (by exact not_or.mpr ⟨hconnecting, hst⟩)] at honce
      exact honce
    have hremoved : (s.conns c).removed = true := by
      rw [hcloses] at hplace
      exact Bool.toNat_eq_one.mp hplace.symm
    have hend : (s.conns c).state = .disconnected := by
      by_contra hne
      rw [Life.Settled, if_neg (by exact hne)] at hsettled
      simp [Life.idle, hremoved] at hsettled
    have hrecorded := h.tended.recorded c
    rw [if_pos hend] at hrecorded
    exact {
      state := hend
      interest := Bool.eq_false_iff.mpr fun hi => hst (hok.interest hi)
      entry := fun fd he => by
        have hnot := ((hslot fd c).mp he).2.2
        exact Bool.false_ne_true (hnot.symm.trans hremoved)
      closes := hcloses
      destroyed := hrecorded }

end Rest

end TCPServer

end LinuxNet
