import LinuxNet.Server.Model

/-!
# Where the server keeps what is about a connection

`Next` says what a step of the server can be, with everything that is known when it is
taken. `Placed` is the bookkeeping behind the other modules: a task, an active channel
or a callback is in the loop it belongs to and is about a connection that exists. It
holds in every phase, also while the server stops.
-/

namespace LinuxNet

set_option autoImplicit false

/-- The loop a task is executed in. -/
def ServerTask.home (conns : ConnId → ServerConn) : ServerTask → LoopId
  | .onConnectionRemoveInLoop _ => 0
  | .connectionEstablished c | .forceCloseInLoop c | .connectionDestroy c => (conns c).loop

namespace TCPServer

/-! ## Steps -/

/-- What a step can be, with all that is known when it is taken. -/
inductive Next (s : TCPServer) : Input → TCPServer → Prop where
  | accept {fd : Nat} {l : LoopId} (hphase : s.phase = .running) (hready : s.ready 0 = true)
      (hserve : s.mayServe l = true) (hfree : s.fdFree fd = true) :
      Next s (.accept fd l) (s.onNewConnection fd l)
  | runTask {l : LoopId} {t : ServerTask} {rest : List ServerTask} (hready : s.ready l = true)
      (hact : s.activeChannels l = []) (hq : s.taskList l = t :: rest) :
      Next s (.runTask l) ((s.setTaskList l rest).runTask l t)
  | poll {l : LoopId} {cs : List ConnId} (hready : s.ready l = true)
      (hact : s.activeChannels l = []) (hn : cs.Nodup) (hpoll : cs.all (s.polls l) = true) :
      Next s (.poll l cs) (s.setActive l cs)
  | dispatch {l : LoopId} {close : Bool} {c : ConnId} {rest : List ConnId}
      (hready : s.ready l = true) (hact : s.activeChannels l = c :: rest) :
      Next s (.dispatch l close) ((s.setActive l rest).handleEvent c l close)
  | removeCb {l : LoopId} {c : ConnId} (hcl : s.closing l = some c)
      (halive : s.loopAlive l = true) (hphase : l ≠ 0 ∨ s.phase.isStopping = false) :
      Next s (.removeCb l) ((s.setClosing l none).onConnectionRemove c l)
  | forceClose {c : ConnId} (halive : (s.conns c).alive = true)
      (hs : (s.conns c).state = .connected) :
      Next s (.forceClose c) { s with inFlight := s.inFlight ++ [c] }
  | forceCloseLate {c : ConnId} : Next s (.forceClose c) s
  | push {i : Nat} {c : ConnId} (hget : s.inFlight[i]? = some c) :
      Next s (.push i) (queueInLoop { s with inFlight := s.inFlight.eraseIdx i }
        (s.conns c).loop (.forceCloseInLoop c))
  | drop {c : ConnId} (halive : (s.conns c).alive = true) (href : s.referenced c = false) :
      Next s (.drop c) (s.setConn c { s.conns c with alive := false })
  | stop (hphase : s.phase = .running) :
      Next s .stop { s with phase := .stopping 0 }
  | join {k : Nat} (hphase : s.phase = .stopping k) (hk : k < s.loopNums)
      (hcl : s.closing (k + 1) = none) (hact : s.activeChannels (k + 1) = []) :
      Next s .join { s.setTaskList (k + 1) [] with
        phase := .stopping (k + 1)
        loopAlive := Function.update s.loopAlive (k + 1) false }
  | sweep (hphase : s.phase = .stopping s.loopNums) :
      Next s .sweep { s.entries.foldl stopConn s with phase := .stopped }

theorem step_next {s s' : TCPServer} {i : Input} (h : s.step i = some s') : s.Next i s' := by
  cases i with
  | accept fd l =>
    simp only [step] at h
    split at h
    · rename_i hg
      cases h
      exact .accept hg.1 hg.2.1 hg.2.2.1 hg.2.2.2
    · cases h
  | runTask l =>
    simp only [step] at h
    split at h
    · rename_i hready
      split at h
      · cases h
      · rename_i t rest hq
        cases h
        exact .runTask hready.1 hready.2 hq
    · cases h
  | poll l cs =>
    simp only [step] at h
    split at h
    · rename_i hg
      cases h
      exact .poll hg.1 hg.2.1 hg.2.2.1 hg.2.2.2
    · cases h
  | dispatch l close =>
    simp only [step] at h
    split at h
    · rename_i hready
      split at h
      · cases h
      · rename_i c rest hact
        cases h
        exact .dispatch hready hact
    · cases h
  | removeCb l =>
    simp only [step] at h
    split at h
    · cases h
    · rename_i c hcl
      split at h
      · rename_i hg
        cases h
        exact .removeCb hcl hg.1 hg.2
      · cases h
  | forceClose c =>
    simp only [step] at h
    split at h
    · rename_i halive
      split at h
      · rename_i hs
        cases h
        exact .forceClose halive hs
      · cases h
        exact .forceCloseLate
    · cases h
  | push i =>
    simp only [step] at h
    split at h
    · cases h
    · rename_i c hget
      cases h
      exact .push hget
  | drop c =>
    simp only [step] at h
    split at h
    · rename_i hg
      cases h
      exact .drop hg.1 hg.2
    · cases h
  | stop =>
    simp only [step] at h
    split at h
    · rename_i hphase
      cases h
      exact .stop hphase
    · cases h
  | join =>
    simp only [step] at h
    split at h
    · rename_i k hphase
      split at h
      · rename_i hg
        cases h
        exact .join hphase hg.1 hg.2.1 hg.2.2
      · cases h
    · cases h
  | sweep =>
    simp only [step] at h
    split at h
    · rename_i hphase
      cases h
      exact .sweep hphase
    · cases h

/-- Whatever is about a connection is where it belongs, and is about one that exists. -/
structure Placed (s : TCPServer) : Prop where
  task : ∀ l t, t ∈ s.taskList l → t.conn < s.nextConnectId ∧ l = t.home s.conns
  active : ∀ l c, c ∈ s.activeChannels l → c < s.nextConnectId ∧ l = (s.conns c).loop
  closing : ∀ l c, s.closing l = some c → c < s.nextConnectId ∧ l = (s.conns c).loop
  inFlight : ∀ c, c ∈ s.inFlight → c < s.nextConnectId
  entry : ∀ i c, s.tcpConnList i = some c → c < s.nextConnectId
  loop : ∀ c, (s.conns c).loop ≤ s.loopNums
  fresh : ∀ c, s.nextConnectId ≤ c →
    s.conns c = ⟨0, 0, .connecting, false, false, false, false, 0⟩

theorem placed_init (n size : Nat) : Placed (init n size) := by
  constructor <;> simp [init]

/-- At most the table and the record of failed asserts change. -/
def SameButTable (s s' : TCPServer) : Prop :=
  ∃ size table count faults, s' = { s with
    size := size, tcpConnList := table, tcpConnCount := count, faults := faults }

/-- What only `Stop` changes. -/
structure Steady (s s' : TCPServer) : Prop where
  phase : s'.phase = s.phase
  loopAlive : s'.loopAlive = s.loopAlive
  loopNums : s'.loopNums = s.loopNums
  stopCalls : s'.stopCalls = s.stopCalls

section Frames

variable {s s' : TCPServer} {c c' : ConnId} {l : LoopId}

theorem SameButTable.trans {s₁ s₂ s₃ : TCPServer} (h : SameButTable s₁ s₂)
    (h' : SameButTable s₂ s₃) : SameButTable s₁ s₃ := by
  obtain ⟨_, _, _, _, rfl⟩ := h
  obtain ⟨_, _, _, _, rfl⟩ := h'
  exact ⟨_, _, _, _, rfl⟩

theorem SameButTable.conns (h : SameButTable s s') : s'.conns = s.conns := by
  obtain ⟨_, _, _, _, rfl⟩ := h
  rfl

theorem SameButTable.loopAlive (h : SameButTable s s') : s'.loopAlive = s.loopAlive := by
  obtain ⟨_, _, _, _, rfl⟩ := h
  rfl

theorem SameButTable.closing (h : SameButTable s s') : s'.closing = s.closing := by
  obtain ⟨_, _, _, _, rfl⟩ := h
  rfl

theorem SameButTable.nextConnectId (h : SameButTable s s') :
    s'.nextConnectId = s.nextConnectId := by
  obtain ⟨_, _, _, _, rfl⟩ := h
  rfl

theorem sameButTable_check (s : TCPServer) (f : Fault) (ok : Bool) :
    SameButTable s (s.check f ok) := by
  unfold check
  split
  · exact ⟨_, _, _, _, rfl⟩
  · exact ⟨_, _, _, _, rfl⟩

@[simp] theorem check_tcpConnList (f : Fault) (ok : Bool) :
    (s.check f ok).tcpConnList = s.tcpConnList := by
  unfold check
  split <;> rfl

@[simp] theorem delConnListItem_tcpConnList :
    (s.delConnListItem c).tcpConnList = Function.update s.tcpConnList (s.conns c).fd none := by
  simp [delConnListItem]

theorem growConnList_table (fd : Nat) : (s.growConnList fd).tcpConnList = s.tcpConnList ∧
    (s.growConnList fd).tcpConnCount = s.tcpConnCount := by
  unfold growConnList
  split <;> exact ⟨rfl, rfl⟩

theorem addConnListItem_tcpConnList :
    (s.addConnListItem c).2.tcpConnList =
      if (s.addConnListItem c).1 then Function.update s.tcpConnList (s.conns c).fd (some c)
      else s.tcpConnList := by
  have hgrow := (growConnList_table (s := s) (s.conns c).fd).1
  unfold addConnListItem
  dsimp only
  split
  · simpa using hgrow
  · simp [hgrow]

theorem sameButTable_delConnListItem (s : TCPServer) (c : ConnId) :
    SameButTable s (s.delConnListItem c) :=
  ((sameButTable_check _ _ _).trans (sameButTable_check _ _ _)).trans ⟨_, _, _, _, rfl⟩

theorem sameButTable_dumpConnections (s : TCPServer) : SameButTable s s.dumpConnections :=
  (sameButTable_check _ _ _).trans (sameButTable_check _ _ _)

theorem sameButTable_addConnListItem (s : TCPServer) (c : ConnId) :
    SameButTable s (s.addConnListItem c).2 := by
  have hgrow : SameButTable s (s.growConnList (s.conns c).fd) := by
    unfold growConnList
    split
    · exact ⟨_, _, _, _, rfl⟩
    · exact ⟨_, _, _, _, rfl⟩
  apply hgrow.trans
  unfold addConnListItem
  dsimp only
  split
  · exact ⟨_, _, _, _, rfl⟩
  · exact ((sameButTable_check _ _ _).trans (sameButTable_check _ _ _)).trans ⟨_, _, _, _, rfl⟩

@[simp] theorem setConn_conns_self (k : ServerConn) : (s.setConn c k).conns c = k := by
  simp [setConn]

theorem setConn_conns_of_ne (k : ServerConn) (h : c' ≠ c) :
    (s.setConn c k).conns c' = s.conns c' := by
  simp [setConn, h]

/-- What the new value of a connection has in common with the old one is the same for all
connections. -/
theorem setConn_field {α : Type} (f : ServerConn → α) {k : ServerConn} (hk : f k = f (s.conns c))
    (c' : ConnId) : f ((s.setConn c k).conns c') = f (s.conns c') := by
  by_cases h : c' = c
  · subst h
    rw [setConn_conns_self, hk]
  · rw [setConn_conns_of_ne k h]

theorem home_congr {conns conns' : ConnId → ServerConn}
    (h : ∀ c, (conns' c).loop = (conns c).loop) (t : ServerTask) :
    t.home conns' = t.home conns := by
  cases t <;> simp [ServerTask.home, h]

/-- The removal of the entry, before `ConnectionDestroy` is called or queued. -/
def unlist (s : TCPServer) (c : ConnId) : TCPServer :=
  (s.delConnListItem c).setConn c { s.conns c with removed := true }

theorem onConnectionRemoveInLoop_eq :
    s.onConnectionRemoveInLoop c =
      if (s.conns c).loop = 0 then ((s.unlist c).connectionDestroy c 0).dumpConnections
      else ((s.unlist c).queueInLoop (s.conns c).loop (.connectionDestroy c)).dumpConnections := by
  unfold onConnectionRemoveInLoop unlist runInLoop
  simp only [(sameButTable_delConnListItem s c).conns, setConn_conns_self, eq_comm (a := 0)]
  split <;> rfl

/-- The connection `OnNewConnection` makes, before it is in the table. -/
def newConnection (s : TCPServer) (fd : Nat) (l : LoopId) : TCPServer :=
  { s.setConn s.nextConnectId ⟨fd, l, .connecting, false, true, false, false, 0⟩ with
    nextConnectId := s.nextConnectId + 1 }

theorem newConnection_conn (fd : Nat) (l : LoopId) :
    (s.newConnection fd l).conns s.nextConnectId =
      ⟨fd, l, .connecting, false, true, false, false, 0⟩ :=
  Function.update_self _ _ _

/-- The state in which `OnNewConnection` has tried to put the connection into the table
and knows what becomes of it. -/
def triedConnection (s : TCPServer) (fd : Nat) (l : LoopId) (k : ServerConn) : TCPServer :=
  ((s.newConnection fd l).addConnListItem s.nextConnectId).2.setConn s.nextConnectId k

theorem onNewConnection_eq (fd : Nat) (l : LoopId) :
    s.onNewConnection fd l =
      if ((s.newConnection fd l).addConnListItem s.nextConnectId).1 then
        (s.triedConnection fd l ⟨fd, l, .connecting, false, true, true, false, 0⟩).runInLoop 0 l
          (.connectionEstablished s.nextConnectId) (connectionEstablished s.nextConnectId)
      else
        s.triedConnection fd l ⟨fd, l, .connecting, false, false, false, false, 0⟩ := by
  have hconn : ((s.newConnection fd l).addConnListItem s.nextConnectId).2.conns s.nextConnectId =
      ⟨fd, l, .connecting, false, true, false, false, 0⟩ := by
    rw [(sameButTable_addConnListItem _ _).conns, newConnection_conn]
  unfold onNewConnection triedConnection
  generalize hr : (s.newConnection fd l).addConnListItem s.nextConnectId = r at hconn ⊢
  unfold newConnection at hr
  dsimp only
  rw [hr]
  obtain ⟨_ | _, s'⟩ := r
  · simp only at hconn
    simp [hconn]
  · simp only at hconn
    simp [hconn]

theorem triedConnection_loopAlive (fd : Nat) (l : LoopId) (k : ServerConn) :
    (s.triedConnection fd l k).loopAlive = s.loopAlive :=
  (sameButTable_addConnListItem _ _).loopAlive

theorem triedConnection_nextConnectId (fd : Nat) (l : LoopId) (k : ServerConn) :
    (s.triedConnection fd l k).nextConnectId = s.nextConnectId + 1 :=
  (sameButTable_addConnListItem _ _).nextConnectId

theorem ready_closing (h : s.ready l = true) : s.closing l = none := by
  simp only [ready, Bool.and_eq_true, Option.isNone_iff_eq_none] at h
  exact h.1.2

theorem mayServe_le (h : s.mayServe l = true) : l ≤ s.loopNums := by
  unfold mayServe at h
  split at h
  · simp only [beq_iff_eq] at h
    exact h ▸ Nat.zero_le _
  · simp only [Bool.and_eq_true, decide_eq_true_eq] at h
    exact h.2

theorem Steady.refl (s : TCPServer) : Steady s s := ⟨rfl, rfl, rfl, rfl⟩

theorem Steady.trans {s₁ s₂ s₃ : TCPServer} (h : Steady s₁ s₂) (h' : Steady s₂ s₃) :
    Steady s₁ s₃ :=
  ⟨h'.phase.trans h.phase, h'.loopAlive.trans h.loopAlive, h'.loopNums.trans h.loopNums,
    h'.stopCalls.trans h.stopCalls⟩

theorem SameButTable.steady (h : SameButTable s s') : Steady s s' := by
  obtain ⟨_, _, _, _, rfl⟩ := h
  exact ⟨rfl, rfl, rfl, rfl⟩

theorem steady_queueInLoop (s : TCPServer) (l : LoopId) (t : ServerTask) :
    Steady s (s.queueInLoop l t) := by
  unfold queueInLoop
  split
  · exact ⟨rfl, rfl, rfl, rfl⟩
  · exact (sameButTable_check s _ _).steady

theorem steady_onConnectionRemoveInLoop (s : TCPServer) (c : ConnId) :
    Steady s (s.onConnectionRemoveInLoop c) := by
  have hdel := (sameButTable_delConnListItem s c).steady
  have hunlist : Steady s (s.unlist c) := { hdel with }
  rw [onConnectionRemoveInLoop_eq]
  split
  · apply Steady.trans _ (sameButTable_dumpConnections _).steady
    exact { hunlist with }
  · apply Steady.trans _ (sameButTable_dumpConnections _).steady
    exact hunlist.trans (steady_queueInLoop _ _ _)

theorem steady_onConnectionRemove (s : TCPServer) (c : ConnId) (l : LoopId) :
    Steady s (s.onConnectionRemove c l) := by
  unfold onConnectionRemove runInLoop
  split
  · exact steady_onConnectionRemoveInLoop s c
  · exact steady_queueInLoop s 0 _

theorem steady_handleEvent (s : TCPServer) (c : ConnId) (l : LoopId) (close : Bool) :
    Steady s (s.handleEvent c l close) := by
  have hcheck := (sameButTable_check s .deadChannel (s.conns c).alive).steady
  unfold handleEvent
  dsimp only
  split
  · exact { hcheck with }
  · exact hcheck

theorem steady_runTask (s : TCPServer) (l : LoopId) (t : ServerTask) :
    Steady s (s.runTask l t) := by
  cases t with
  | connectionEstablished c => exact ⟨rfl, rfl, rfl, rfl⟩
  | forceCloseInLoop c =>
    simp only [runTask, forceCloseInLoop]
    split
    · exact Steady.refl s
    · exact ⟨rfl, rfl, rfl, rfl⟩
  | onConnectionRemoveInLoop c => exact steady_onConnectionRemoveInLoop s c
  | connectionDestroy c => exact ⟨rfl, rfl, rfl, rfl⟩

theorem steady_onNewConnection (s : TCPServer) (fd : Nat) (l : LoopId) :
    Steady s (s.onNewConnection fd l) := by
  have hadd := (sameButTable_addConnListItem (s.newConnection fd l) s.nextConnectId).steady
  have htried : ∀ k, Steady s (s.triedConnection fd l k) := fun k => { hadd with }
  rw [onNewConnection_eq]
  split
  · unfold runInLoop
    split
    · have h := htried ⟨fd, l, .connecting, false, true, true, false, 0⟩
      exact { h with }
    · exact (htried _).trans (steady_queueInLoop _ _ _)
  · exact htried _

/-- Only the steps of `Stop` change what only `Stop` changes. -/
theorem next_steady {i : Input} (h : s.Next i s') (hstop : i ≠ .stop) (hjoin : i ≠ .join)
    (hsweep : i ≠ .sweep) : Steady s s' := by
  cases h with
  | accept => exact steady_onNewConnection s _ _
  | @runTask l t rest =>
    have hpop : Steady s (s.setTaskList l rest) := ⟨rfl, rfl, rfl, rfl⟩
    exact hpop.trans (steady_runTask _ _ _)
  | poll => exact ⟨rfl, rfl, rfl, rfl⟩
  | @dispatch l close c rest =>
    have hpop : Steady s (s.setActive l rest) := ⟨rfl, rfl, rfl, rfl⟩
    exact hpop.trans (steady_handleEvent _ _ _ _)
  | @removeCb l c =>
    have hpop : Steady s (s.setClosing l none) := ⟨rfl, rfl, rfl, rfl⟩
    exact hpop.trans (steady_onConnectionRemove _ _ _)
  | forceClose => exact ⟨rfl, rfl, rfl, rfl⟩
  | forceCloseLate => exact Steady.refl s
  | @push i c =>
    have hpop : Steady s { s with inFlight := s.inFlight.eraseIdx i } := ⟨rfl, rfl, rfl, rfl⟩
    exact hpop.trans (steady_queueInLoop _ _ _)
  | drop => exact ⟨rfl, rfl, rfl, rfl⟩
  | stop => exact absurd rfl hstop
  | join => exact absurd rfl hjoin
  | sweep => exact absurd rfl hsweep

end Frames

/-! ## Everything stays where it belongs -/

section Placed

variable {s s' : TCPServer} {c : ConnId} {l : LoopId} {t : ServerTask}

theorem Placed.setConn (hp : s.Placed) {k : ServerConn} (hc : c < s.nextConnectId)
    (hk : k.loop = (s.conns c).loop) : (s.setConn c k).Placed where
  task l t ht := by
    obtain ⟨hlt, hl⟩ := hp.task l t ht
    exact ⟨hlt, hl.trans (home_congr (setConn_field ServerConn.loop hk) t).symm⟩
  active l c' hc' := by
    rw [setConn_field ServerConn.loop hk]
    exact hp.active l c' hc'
  closing l c' hc' := by
    rw [setConn_field ServerConn.loop hk]
    exact hp.closing l c' hc'
  inFlight := hp.inFlight
  entry := hp.entry
  loop c' := by
    rw [setConn_field ServerConn.loop hk]
    exact hp.loop c'
  fresh c' hc' := by
    have hne : c' ≠ c := by
      rintro rfl
      exact Nat.not_lt.mpr hc' hc
    rw [setConn_conns_of_ne k hne]
    exact hp.fresh c' hc'

theorem Placed.setTaskList (hp : s.Placed) {ts : List ServerTask}
    (h : ∀ t ∈ ts, t.conn < s.nextConnectId ∧ l = t.home s.conns) :
    (s.setTaskList l ts).Placed := by
  refine { hp with task := ?_ }
  intro l' t ht
  by_cases hl : l' = l
  · subst hl
    simp only [TCPServer.setTaskList, Function.update_self] at ht
    exact h t ht
  · simp only [TCPServer.setTaskList, Function.update_of_ne hl] at ht
    exact hp.task l' t ht

theorem Placed.setActive (hp : s.Placed) {cs : List ConnId}
    (h : ∀ c ∈ cs, c < s.nextConnectId ∧ l = (s.conns c).loop) : (s.setActive l cs).Placed := by
  refine { hp with active := ?_ }
  intro l' c hc
  by_cases hl : l' = l
  · subst hl
    simp only [TCPServer.setActive, Function.update_self] at hc
    exact h c hc
  · simp only [TCPServer.setActive, Function.update_of_ne hl] at hc
    exact hp.active l' c hc

theorem Placed.setClosing (hp : s.Placed) {o : Option ConnId}
    (h : ∀ c, o = some c → c < s.nextConnectId ∧ l = (s.conns c).loop) :
    (s.setClosing l o).Placed := by
  refine { hp with closing := ?_ }
  intro l' c hc
  by_cases hl : l' = l
  · subst hl
    simp only [TCPServer.setClosing, Function.update_self] at hc
    exact h c hc
  · simp only [TCPServer.setClosing, Function.update_of_ne hl] at hc
    exact hp.closing l' c hc

theorem Placed.table (hp : s.Placed) (h : SameButTable s s')
    (he : ∀ i c, s'.tcpConnList i = some c → c < s.nextConnectId) : s'.Placed := by
  obtain ⟨_, _, _, _, rfl⟩ := h
  exact { hp with entry := he }

theorem Placed.check (hp : s.Placed) (f : Fault) (ok : Bool) : (s.check f ok).Placed := by
  apply hp.table (sameButTable_check s f ok)
  unfold TCPServer.check
  split
  · exact hp.entry
  · exact hp.entry

theorem Placed.queueInLoop (hp : s.Placed) (ht : t.conn < s.nextConnectId)
    (hl : l = t.home s.conns) : (s.queueInLoop l t).Placed := by
  unfold TCPServer.queueInLoop
  split
  · apply hp.setTaskList
    intro t' ht'
    rcases List.mem_append.mp ht' with hold | hnew
    · exact hp.task l t' hold
    · rw [List.mem_singleton] at hnew
      subst hnew
      exact ⟨ht, hl⟩
  · exact hp.check _ _

theorem Placed.handleClose (hp : s.Placed) (hc : c < s.nextConnectId)
    (hl : l = (s.conns c).loop) : (s.handleClose c l).Placed := by
  have hconn := hp.setConn (k := (s.conns c).handleClose) hc rfl
  apply hconn.setClosing
  intro c' hc'
  cases hc'
  refine ⟨hc, ?_⟩
  rw [setConn_conns_self]
  exact hl

theorem Placed.connectionDestroy (hp : s.Placed) (hc : c < s.nextConnectId) :
    (s.connectionDestroy c l).Placed := by
  have hconn := hp.setConn (k := (s.conns c).connectionDestroy) hc rfl
  exact { hconn with }

theorem Placed.connectionEstablished (hp : s.Placed) (hc : c < s.nextConnectId) :
    (s.connectionEstablished c).Placed :=
  hp.setConn hc rfl

theorem Placed.onConnectionRemoveInLoop (hp : s.Placed) (hc : c < s.nextConnectId) :
    (s.onConnectionRemoveInLoop c).Placed := by
  have hsame := sameButTable_delConnListItem s c
  have hdel : (s.delConnListItem c).Placed := by
    apply hp.table hsame
    intro i c' he
    rw [delConnListItem_tcpConnList] at he
    by_cases hi : i = (s.conns c).fd
    · simp [hi] at he
    · rw [Function.update_of_ne hi] at he
      exact hp.entry i c' he
  have hnext := hsame.nextConnectId
  have hunlist : (s.unlist c).Placed := hdel.setConn (hnext ▸ hc) (by rw [hsame.conns])
  have hnext' : (s.unlist c).nextConnectId = s.nextConnectId := hnext
  have hdump : ∀ {s' : TCPServer}, s'.Placed → s'.dumpConnections.Placed := by
    intro s' h
    exact (h.check _ _).check _ _
  rw [onConnectionRemoveInLoop_eq]
  split
  · exact hdump (hunlist.connectionDestroy (hnext' ▸ hc))
  · apply hdump
    apply hunlist.queueInLoop
    · rw [hnext']
      exact hc
    · simp [ServerTask.home, unlist]

theorem Placed.onConnectionRemove (hp : s.Placed) (hc : c < s.nextConnectId) :
    (s.onConnectionRemove c l).Placed := by
  unfold TCPServer.onConnectionRemove runInLoop
  split
  · exact hp.onConnectionRemoveInLoop hc
  · exact hp.queueInLoop hc rfl

theorem Placed.handleEvent (hp : s.Placed) (hc : c < s.nextConnectId)
    (hl : l = (s.conns c).loop) (close : Bool) : (s.handleEvent c l close).Placed := by
  have hcheck := hp.check .deadChannel (s.conns c).alive
  have hsame := sameButTable_check s .deadChannel (s.conns c).alive
  unfold TCPServer.handleEvent
  dsimp only
  split
  · apply hcheck.handleClose
    · rw [hsame.nextConnectId]
      exact hc
    · rw [hsame.conns]
      exact hl
  · exact hcheck

theorem Placed.runTask (hp : s.Placed) (ht : t.conn < s.nextConnectId)
    (hl : l = t.home s.conns) : (s.runTask l t).Placed := by
  cases t with
  | connectionEstablished c => exact hp.connectionEstablished ht
  | forceCloseInLoop c =>
    simp only [TCPServer.runTask, forceCloseInLoop]
    split
    · exact hp
    · exact hp.handleClose ht hl
  | onConnectionRemoveInLoop c => exact hp.onConnectionRemoveInLoop ht
  | connectionDestroy c => exact hp.connectionDestroy ht

theorem Placed.newConnection (hp : s.Placed) (fd : Nat) (hl : l ≤ s.loopNums) :
    (s.newConnection fd l).Placed := by
  have hold : ∀ c, c < s.nextConnectId → (s.newConnection fd l).conns c = s.conns c := by
    intro c hc
    exact Function.update_of_ne (Nat.ne_of_lt hc) _ _
  have hlt : ∀ {c}, c < s.nextConnectId → c < (s.newConnection fd l).nextConnectId :=
    fun hc => Nat.lt_succ_of_lt hc
  constructor
  · intro l' t ht
    obtain ⟨hc, hl'⟩ := hp.task l' t ht
    refine ⟨hlt hc, hl'.trans ?_⟩
    cases t <;> simp only [ServerTask.home]
    all_goals exact (congrArg ServerConn.loop (hold _ hc)).symm
  · intro l' c hc
    obtain ⟨hc, hl'⟩ := hp.active l' c hc
    exact ⟨hlt hc, by rw [hold c hc]; exact hl'⟩
  · intro l' c hc
    obtain ⟨hc, hl'⟩ := hp.closing l' c hc
    exact ⟨hlt hc, by rw [hold c hc]; exact hl'⟩
  · exact fun c hc => hlt (hp.inFlight c hc)
  · exact fun i c he => hlt (hp.entry i c he)
  · intro c
    by_cases hc : c = s.nextConnectId
    · rw [hc, newConnection_conn]
      exact hl
    · rw [TCPServer.newConnection, setConn_conns_of_ne _ hc]
      exact hp.loop c
  · intro c hc
    have hne : c ≠ s.nextConnectId := Nat.ne_of_gt hc
    rw [TCPServer.newConnection, setConn_conns_of_ne _ hne]
    exact hp.fresh c (Nat.le_of_succ_le hc)

theorem Placed.triedConnection (hp : s.Placed) (fd : Nat) (hl : l ≤ s.loopNums) {k : ServerConn}
    (hk : k.loop = l) : (s.triedConnection fd l k).Placed := by
  have hnew := hp.newConnection fd hl
  have hsame := sameButTable_addConnListItem (s.newConnection fd l) s.nextConnectId
  have hlt : s.nextConnectId < (s.newConnection fd l).nextConnectId := Nat.lt_succ_self _
  have hadd : ((s.newConnection fd l).addConnListItem s.nextConnectId).2.Placed := by
    apply hnew.table hsame
    intro i c he
    rw [addConnListItem_tcpConnList] at he
    split at he
    · by_cases hi : i = ((s.newConnection fd l).conns s.nextConnectId).fd
      · subst hi
        rw [Function.update_self] at he
        exact Option.some.inj he ▸ hlt
      · rw [Function.update_of_ne hi] at he
        exact hnew.entry i c he
    · exact hnew.entry i c he
  apply hadd.setConn
  · rw [hsame.nextConnectId]
    exact hlt
  · rw [hsame.conns, newConnection_conn, hk]

theorem Placed.onNewConnection (hp : s.Placed) (fd : Nat) (hl : l ≤ s.loopNums) :
    (s.onNewConnection fd l).Placed := by
  rw [onNewConnection_eq]
  split
  · have htried := hp.triedConnection fd hl (k := ⟨fd, l, .connecting, false, true, true, false, 0⟩) rfl
    have hlt : s.nextConnectId <
        (s.triedConnection fd l ⟨fd, l, .connecting, false, true, true, false, 0⟩).nextConnectId := by
      rw [triedConnection_nextConnectId]
      exact Nat.lt_succ_self _
    unfold runInLoop
    split
    · exact htried.connectionEstablished hlt
    · apply htried.queueInLoop
      · exact hlt
      · simp [ServerTask.home, TCPServer.triedConnection]
  · exact hp.triedConnection fd hl rfl

theorem stopConn_eq (s : TCPServer) (c : ConnId) :
    s.stopConn c = runInLoop { s with stopCalls := s.stopCalls ++ [(c, s.loopAlive (s.conns c).loop)] }
      0 (s.conns c).loop (.connectionDestroy c) (TCPServer.connectionDestroy c 0) :=
  rfl

theorem Placed.stopConn (hp : s.Placed) (hc : c < s.nextConnectId) : (s.stopConn c).Placed := by
  have hcalls : ({ s with
      stopCalls := s.stopCalls ++ [(c, s.loopAlive (s.conns c).loop)] } : TCPServer).Placed :=
    { hp with }
  rw [stopConn_eq]
  unfold runInLoop
  split
  · exact hcalls.connectionDestroy hc
  · exact hcalls.queueInLoop hc rfl

theorem stopConn_nextConnectId (s : TCPServer) (c : ConnId) :
    (s.stopConn c).nextConnectId = s.nextConnectId := by
  rw [stopConn_eq]
  unfold runInLoop queueInLoop TCPServer.check
  split_ifs <;> rfl

theorem Placed.stopConns (hp : s.Placed) {cs : List ConnId}
    (hcs : ∀ c ∈ cs, c < s.nextConnectId) : (cs.foldl TCPServer.stopConn s).Placed := by
  induction cs generalizing s with
  | nil => exact hp
  | cons c cs ih =>
    apply ih
    · exact hp.stopConn (hcs c List.mem_cons_self)
    · intro c' hc'
      rw [stopConn_nextConnectId]
      exact hcs c' (List.mem_cons_of_mem c hc')

theorem Placed.entries (hp : s.Placed) : ∀ c ∈ s.entries, c < s.nextConnectId := by
  intro c hc
  obtain ⟨i, _, hi⟩ := List.mem_filterMap.mp hc
  exact hp.entry i c hi

/-- A connection that is not there yet has no interest in anything. -/
theorem Placed.polls (hp : s.Placed) (h : s.polls l c = true) :
    c < s.nextConnectId ∧ l = (s.conns c).loop := by
  simp only [TCPServer.polls, Bool.and_eq_true, beq_iff_eq] at h
  refine ⟨?_, h.1.symm⟩
  by_contra hc
  have := h.2
  rw [hp.fresh c (Nat.le_of_not_lt hc)] at this
  simp at this

theorem step_placed {i : Input} (hp : s.Placed) (h : s.Next i s') : s'.Placed := by
  cases h with
  | accept hphase hready hserve hfree => exact hp.onNewConnection _ (mayServe_le hserve)
  | @runTask l t rest hready hact hq =>
    have hmem : ∀ t' ∈ t :: rest, t'.conn < s.nextConnectId ∧ l = t'.home s.conns :=
      fun t' ht' => hp.task l t' (hq ▸ ht')
    have hpop : (s.setTaskList l rest).Placed :=
      hp.setTaskList fun t' ht' => hmem t' (List.mem_cons_of_mem t ht')
    obtain ⟨hlt, hl⟩ := hmem t List.mem_cons_self
    exact hpop.runTask hlt hl
  | poll hready hact hn hpoll =>
    exact hp.setActive fun c hc => hp.polls (List.all_eq_true.mp hpoll c hc)
  | @dispatch l close c rest hready hact =>
    have hmem : ∀ c' ∈ c :: rest, c' < s.nextConnectId ∧ l = (s.conns c').loop :=
      fun c' hc' => hp.active l c' (hact ▸ hc')
    have hpop : (s.setActive l rest).Placed :=
      hp.setActive fun c' hc' => hmem c' (List.mem_cons_of_mem c hc')
    obtain ⟨hlt, hl⟩ := hmem c List.mem_cons_self
    exact hpop.handleEvent hlt hl close
  | @removeCb l c hcl halive hphase =>
    have hpop : (s.setClosing l none).Placed := hp.setClosing (by simp)
    exact hpop.onConnectionRemove (hp.closing l c hcl).1
  | @forceClose c halive hs =>
    refine { hp with inFlight := ?_ }
    intro c' hc'
    rcases List.mem_append.mp hc' with hold | hnew
    · exact hp.inFlight c' hold
    · rw [List.mem_singleton] at hnew
      subst hnew
      by_contra hlt
      rw [hp.fresh c' (Nat.le_of_not_lt hlt)] at halive
      simp at halive
  | forceCloseLate => exact hp
  | @push i c hget =>
    have hmem : c ∈ s.inFlight := List.mem_of_getElem? hget
    have hpop : ({ s with inFlight := s.inFlight.eraseIdx i } : TCPServer).Placed :=
      { hp with inFlight := fun c' hc' => hp.inFlight c' (List.mem_of_mem_eraseIdx hc') }
    exact hpop.queueInLoop (hp.inFlight c hmem) rfl
  | @drop c halive href =>
    apply hp.setConn
    · by_contra hlt
      rw [hp.fresh c (Nat.le_of_not_lt hlt)] at halive
      simp at halive
    · rfl
  | stop => exact { hp with }
  | @join k =>
    have hpop : (s.setTaskList (k + 1) []).Placed := hp.setTaskList (by simp)
    exact { hpop with }
  | sweep =>
    have hswept := hp.stopConns hp.entries
    exact { hswept with }

end Placed

end TCPServer

end LinuxNet
