import LinuxNet.Server.Life
import LinuxNet.Server.Placement

/-!
# The lives of the connections of a server

The projection of a server to the `Life` of one connection, and the simulation: a step
of a server that has not stopped takes every connection through moves of its life, and
only those of the connection the step is about (`step_moves`). A call of `RunInLoop`
in the loop's own thread is the move that queues the task followed by the move that
runs it.
-/

namespace LinuxNet

set_option autoImplicit false

open Relation

namespace TCPServer

def pending (s : TCPServer) (t : ServerTask) : Nat := (s.taskList (t.home s.conns)).count t

def life (s : TCPServer) (c : ConnId) : Life where
  conn := s.conns c
  active := (s.activeChannels (s.conns c).loop).count c
  established := s.pending (.connectionEstablished c)
  forced := s.pending (.forceCloseInLoop c) + s.inFlight.count c
  removing := s.pending (.onConnectionRemoveInLoop c)
  destroying := s.pending (.connectionDestroy c)
  closing := s.closing (s.conns c).loop == some c

section Frames

variable {s : TCPServer} {c c' : ConnId} {l : LoopId} {t : ServerTask}

theorem SameButTable.life {s' : TCPServer} (h : SameButTable s s') (c : ConnId) :
    s'.life c = s.life c := by
  obtain ⟨_, _, _, _, rfl⟩ := h
  rfl

theorem life_setConn_of_ne (k : ServerConn) (h : c' ≠ c) :
    (s.setConn c k).life c' = s.life c' := by
  simp only [life, pending, ServerTask.home, setConn_conns_of_ne k h]
  rfl

theorem life_setConn_self (k : ServerConn) (hk : k.loop = (s.conns c).loop) :
    (s.setConn c k).life c = { s.life c with conn := k } := by
  simp only [life, pending, ServerTask.home, setConn_conns_self, hk]
  rfl

theorem pending_setTaskList (ts : List ServerTask) (u : ServerTask) :
    (s.setTaskList l ts).pending u =
      if u.home s.conns = l then ts.count u else s.pending u := by
  unfold pending setTaskList
  by_cases hl : u.home s.conns = l
  · simp [hl]
  · simp [hl]

/-- A queue changes in nothing that is about `c`. -/
theorem life_setTaskList_of_ne {ts : List ServerTask}
    (h : ∀ u : ServerTask, u.conn = c → ts.count u = (s.taskList l).count u) :
    (s.setTaskList l ts).life c = s.life c := by
  have hp : ∀ u : ServerTask, u.conn = c → (s.setTaskList l ts).pending u = s.pending u := by
    intro u hu
    rw [pending_setTaskList]
    split
    · rename_i hl
      rw [h u hu, ← hl]
      rfl
    · rfl
  simp only [life, hp (.connectionEstablished c) rfl, hp (.forceCloseInLoop c) rfl,
    hp (.onConnectionRemoveInLoop c) rfl, hp (.connectionDestroy c) rfl]
  rfl

/-- A queue gets the task `t`. -/
theorem life_setTaskList_add {ts : List ServerTask}
    (hself : (s.setTaskList l ts).pending t = s.pending t + 1)
    (hother : ∀ u, u ≠ t → (s.setTaskList l ts).pending u = s.pending u) :
    (s.setTaskList l ts).life t.conn = (s.life t.conn).add t := by
  cases t <;>
    simp only [life, Life.add, ServerTask.conn, hself, hother, ne_eq, reduceCtorEq,
      not_false_eq_true, Nat.add_right_comm _ 1] <;> rfl

/-- A queue loses the task `t`. -/
theorem life_setTaskList_take {ts : List ServerTask}
    (hself : s.pending t = (s.setTaskList l ts).pending t + 1)
    (hother : ∀ u, u ≠ t → (s.setTaskList l ts).pending u = s.pending u) :
    (s.setTaskList l ts).life t.conn = (s.life t.conn).take t := by
  cases t <;>
    simp only [life, Life.take, ServerTask.conn, hself, hother, ne_eq, reduceCtorEq,
      not_false_eq_true, Nat.add_right_comm _ 1, Nat.add_sub_cancel] <;> rfl

theorem life_queueInLoop_of_ne (h : c ≠ t.conn) : (s.queueInLoop l t).life c = s.life c := by
  unfold queueInLoop
  split
  · apply life_setTaskList_of_ne
    rintro u rfl
    have hu : t ≠ u := fun he => h (congrArg ServerTask.conn he).symm
    simp [List.count_append, hu]
  · exact (sameButTable_check _ _ _).life c

theorem life_queueInLoop_self (ha : s.loopAlive l = true) (hl : l = t.home s.conns) :
    (s.queueInLoop l t).life t.conn = (s.life t.conn).add t := by
  unfold queueInLoop
  rw [if_pos ha]
  apply life_setTaskList_add
  · rw [pending_setTaskList, if_pos hl.symm, List.count_append, List.count_singleton_self, hl]
    rfl
  · intro u hu
    rw [pending_setTaskList]
    split
    · rename_i hul
      rw [List.count_append, List.count_singleton, if_neg (by simpa using Ne.symm hu), ← hul]
      rfl
    · rfl

theorem life_pop_of_ne {rest : List ServerTask} (h : s.taskList l = t :: rest)
    (hc : c ≠ t.conn) : (s.setTaskList l rest).life c = s.life c := by
  apply life_setTaskList_of_ne
  rintro u rfl
  have hu : t ≠ u := fun he => hc (congrArg ServerTask.conn he).symm
  simp [h, hu]

theorem life_pop_self {rest : List ServerTask} (h : s.taskList l = t :: rest)
    (hl : l = t.home s.conns) :
    (s.setTaskList l rest).life t.conn = (s.life t.conn).take t := by
  apply life_setTaskList_take
  · rw [pending_setTaskList, if_pos hl.symm, pending, ← hl, h, List.count_cons_self]
  · intro u hu
    rw [pending_setTaskList]
    split
    · rename_i hul
      rw [pending, hul, h, List.count_cons_of_ne (Ne.symm hu)]
    · rfl

theorem life_setActive (cs : List ConnId) :
    (s.setActive l cs).life c =
      { s.life c with active := if (s.conns c).loop = l then cs.count c else (s.life c).active } := by
  by_cases hl : (s.conns c).loop = l
  · simp [life, setActive, hl]
    exact ⟨rfl, rfl, rfl, rfl⟩
  · simp [life, setActive, hl]
    exact ⟨rfl, rfl, rfl, rfl⟩

theorem life_setClosing (o : Option ConnId) :
    (s.setClosing l o).life c =
      { s.life c with
        closing := if (s.conns c).loop = l then o == some c else (s.life c).closing } := by
  by_cases hl : (s.conns c).loop = l
  · simp [life, setClosing, hl]
    exact ⟨rfl, rfl, rfl, rfl⟩
  · simp [life, setClosing, hl]
    exact ⟨rfl, rfl, rfl, rfl⟩

theorem life_handleClose_self (hl : (s.conns c).loop = l) :
    (s.handleClose c l).life c = (s.life c).handleClose := by
  unfold handleClose
  rw [life_setClosing, life_setConn_self (s.conns c).handleClose rfl, setConn_conns_self]
  simp [hl, Life.handleClose, life]

theorem life_handleClose_of_ne (hc : c' ≠ c) (hcl : s.closing l = none) :
    (s.handleClose c l).life c' = s.life c' := by
  unfold handleClose
  rw [life_setClosing, life_setConn_of_ne _ hc, setConn_conns_of_ne _ hc]
  split
  · rename_i hl
    have hne : (some c == some c') = (s.life c').closing := by
      simp [life, hl, hcl, Ne.symm hc]
    rw [hne]
  · rfl

theorem life_connectionEstablished_self :
    (s.connectionEstablished c).life c =
      { s.life c with conn := (s.conns c).connectionEstablished } :=
  life_setConn_self _ rfl

theorem life_connectionEstablished_of_ne (hc : c' ≠ c) :
    (s.connectionEstablished c).life c' = s.life c' :=
  life_setConn_of_ne _ hc

theorem life_connectionDestroy_self :
    (s.connectionDestroy c l).life c = { s.life c with conn := (s.conns c).connectionDestroy } :=
  life_setConn_self _ rfl

theorem life_connectionDestroy_of_ne (hc : c' ≠ c) :
    (s.connectionDestroy c l).life c' = s.life c' :=
  life_setConn_of_ne (s.conns c).connectionDestroy hc

theorem life_unlist_self :
    (s.unlist c).life c =
      { s.life c with conn := { s.conns c with removed := true } } := by
  have hd := sameButTable_delConnListItem s c
  unfold unlist
  rw [life_setConn_self _ (by rw [hd.conns]), hd.life]

theorem life_unlist_of_ne (hc : c' ≠ c) : (s.unlist c).life c' = s.life c' := by
  unfold unlist
  rw [life_setConn_of_ne _ hc, (sameButTable_delConnListItem s c).life]

theorem life_onConnectionRemoveInLoop_of_ne (hc : c' ≠ c) :
    (s.onConnectionRemoveInLoop c).life c' = s.life c' := by
  rw [onConnectionRemoveInLoop_eq]
  split
  · rw [(sameButTable_dumpConnections _).life, life_connectionDestroy_of_ne hc,
      life_unlist_of_ne hc]
  · rw [(sameButTable_dumpConnections _).life, life_queueInLoop_of_ne (by exact hc),
      life_unlist_of_ne hc]

theorem life_onConnectionRemove_of_ne (hc : c' ≠ c) :
    (s.onConnectionRemove c l).life c' = s.life c' := by
  unfold onConnectionRemove runInLoop
  split
  · exact life_onConnectionRemoveInLoop_of_ne hc
  · exact life_queueInLoop_of_ne hc

/-- Nothing is about a connection that has not been made. -/
theorem Placed.life_unknown (hp : s.Placed) {c : ConnId} (hc : s.nextConnectId ≤ c)
    (k : ServerConn) : (s.setConn c k).life c = Life.idle k := by
  have htask : ∀ l (t : ServerTask), t.conn = c → (s.taskList l).count t = 0 := by
    intro l t ht
    apply List.count_eq_zero.mpr
    intro hmem
    exact Nat.not_lt.mpr hc (ht ▸ (hp.task l t hmem).1)
  have hactive : ∀ l, (s.activeChannels l).count c = 0 := by
    intro l
    apply List.count_eq_zero.mpr
    intro hmem
    exact Nat.not_lt.mpr hc (hp.active l c hmem).1
  have hflight : s.inFlight.count c = 0 := by
    apply List.count_eq_zero.mpr
    intro hmem
    exact Nat.not_lt.mpr hc (hp.inFlight c hmem)
  have hclosing : ∀ l, (s.closing l == some c) = false := by
    intro l
    by_contra hcl
    exact Nat.not_lt.mpr hc (hp.closing l c (by simpa using hcl)).1
  simp only [life, pending, TCPServer.setConn, Life.idle, hactive, hflight, hclosing,
    htask _ (.connectionEstablished c) rfl, htask _ (.forceCloseInLoop c) rfl,
    htask _ (.onConnectionRemoveInLoop c) rfl, htask _ (.connectionDestroy c) rfl,
    Function.update_self, Nat.add_zero]

theorem Placed.life_fresh (hp : s.Placed) {c : ConnId} (hc : s.nextConnectId ≤ c) :
    s.life c = Life.idle ⟨0, 0, .connecting, false, false, false, false, 0⟩ := by
  rw [← hp.fresh c hc, ← hp.life_unknown hc, life_setConn_self (s.conns c) rfl]
  rfl

theorem life_triedConnection_of_ne (fd : Nat) (l : LoopId) (k : ServerConn) {c : ConnId}
    (hc : c ≠ s.nextConnectId) :
    (s.triedConnection fd l k).life c = s.life c := by
  unfold triedConnection
  rw [life_setConn_of_ne _ hc, (sameButTable_addConnListItem _ _).life]
  exact life_setConn_of_ne _ hc

theorem life_triedConnection_self (hp : s.Placed) (fd : Nat) {l : LoopId} {k : ServerConn}
    (hk : k.loop = l) :
    (s.triedConnection fd l k).life s.nextConnectId = Life.idle k := by
  have hadd := sameButTable_addConnListItem (s.newConnection fd l) s.nextConnectId
  have hnew := hp.life_unknown le_rfl ⟨fd, l, .connecting, false, true, false, false, 0⟩
  have hloop : k.loop = (((s.newConnection fd l).addConnListItem s.nextConnectId).2.conns
      s.nextConnectId).loop := by
    rw [hadd.conns, newConnection_conn, hk]
  unfold triedConnection
  rw [life_setConn_self k hloop, hadd.life]
  change { (s.setConn s.nextConnectId _).life s.nextConnectId with conn := k } = _
  rw [hnew]
  rfl

theorem count_eraseIdx {xs : List ConnId} {i : Nat} {c : ConnId} (h : xs[i]? = some c)
    (c' : ConnId) : xs.count c' = (xs.eraseIdx i).count c' + if c' = c then 1 else 0 := by
  obtain ⟨hi, rfl⟩ := List.getElem?_eq_some_iff.mp h
  rw [← (List.getElem_cons_eraseIdx_perm hi).count_eq c', List.count_cons]
  by_cases hc : c' = xs[i]
  · simp [hc]
  · simp [hc, Ne.symm hc]

theorem life_push (ha : ∀ l, s.loopAlive l = true) {i : Nat} {c₀ : ConnId}
    (h : s.inFlight[i]? = some c₀) (c : ConnId) :
    (queueInLoop { s with inFlight := s.inFlight.eraseIdx i } (s.conns c₀).loop
      (.forceCloseInLoop c₀)).life c = s.life c := by
  have hcount := count_eraseIdx h c
  by_cases hc : c = c₀
  · subst hc
    have hq := life_queueInLoop_self (s := { s with inFlight := s.inFlight.eraseIdx i })
      (t := .forceCloseInLoop c) (l := (s.conns c).loop) (ha _) rfl
    simp only [ServerTask.conn] at hq
    rw [hq]
    simp only [life, Life.add, hcount]
    rfl
  · rw [life_queueInLoop_of_ne hc]
    rw [if_neg hc, Nat.add_zero] at hcount
    simp only [life, hcount]
    rfl

end Frames

/-! ## Steps -/

section Steps

variable {s : TCPServer} {c : ConnId} {l : LoopId}

theorem moves_of_self {s' : TCPServer} (c : ConnId)
    (hother : ∀ c', c' ≠ c → s'.life c' = s.life c')
    (hself : ReflTransGen Life.Move (s.life c) (s'.life c)) (c' : ConnId) :
    ReflTransGen Life.Move (s.life c') (s'.life c') := by
  by_cases hc : c' = c
  · subst hc
    exact hself
  · rw [hother c' hc]

/-- From a life that still has the removal to do. -/
theorem moves_onConnectionRemoveInLoop (ha : ∀ l, s.loopAlive l = true) {f : Life}
    (hf : s.life c = { f with removing := f.removing - 1 }) (hr : f.removing ≠ 0) :
    ReflTransGen Life.Move f ((s.onConnectionRemoveInLoop c).life c) := by
  have hconn : s.conns c = f.conn := congrArg Life.conn hf
  have hmove := ReflTransGen.single (Life.Move.removed hr)
  rw [onConnectionRemoveInLoop_eq]
  split
  · rw [(sameButTable_dumpConnections _).life, life_connectionDestroy_self, life_unlist_self, hf]
    simp only [unlist, setConn_conns_self, hconn]
    exact hmove.tail (.destroyed (by simp))
  · have hq := life_queueInLoop_self (s := s.unlist c) (t := .connectionDestroy c)
      (l := (s.conns c).loop) (by simp [unlist, setConn, (sameButTable_delConnListItem s c).loopAlive, ha])
      (by simp [unlist, ServerTask.home])
    simp only [ServerTask.conn] at hq
    rw [(sameButTable_dumpConnections _).life, hq, life_unlist_self, hf, hconn]
    exact hmove

theorem moves_onConnectionRemove (ha : ∀ l, s.loopAlive l = true) (hc : s.closing l = some c)
    (hl : (s.conns c).loop = l) :
    ReflTransGen Life.Move (s.life c) (((s.setClosing l none).onConnectionRemove c l).life c) := by
  have hclosing : (s.life c).closing = true := by simp [life, hl, hc]
  have hlife : (s.setClosing l none).life c = { s.life c with closing := false } := by
    rw [life_setClosing, if_pos hl]
    rfl
  have hmove := ReflTransGen.single (Life.Move.removeCb hclosing)
  unfold onConnectionRemove runInLoop
  split
  · apply hmove.trans
    apply moves_onConnectionRemoveInLoop
    · exact ha
    · rw [hlife]
      rfl
    · simp
  · have hq := life_queueInLoop_self (s := s.setClosing l none) (t := .onConnectionRemoveInLoop c)
      (l := 0) (ha 0) rfl
    simp only [ServerTask.conn] at hq
    rw [hq, hlife]
    exact hmove

theorem moves_runTask (hp : s.Placed) (ha : ∀ l, s.loopAlive l = true)
    (hcl : s.closing l = none) (hact : s.activeChannels l = []) {t : ServerTask}
    {rest : List ServerTask} (hq : s.taskList l = t :: rest) (c : ConnId) :
    ReflTransGen Life.Move (s.life c) (((s.setTaskList l rest).runTask l t).life c) := by
  obtain ⟨_, hl⟩ := hp.task l t (by simp [hq])
  have hself := life_pop_self hq hl
  have hother := fun c hc => life_pop_of_ne (c := c) hq hc
  have hpend : s.pending t ≠ 0 := by
    rw [pending, ← hl, hq, List.count_cons_self]
    omega
  cases t with
  | connectionEstablished c₀ =>
    simp only [ServerTask.conn, Life.take] at hself hother
    simp only [runTask]
    apply moves_of_self c₀
    · intro c' hc
      rw [life_connectionEstablished_of_ne hc, hother c' hc]
    · rw [life_connectionEstablished_self, hself]
      exact .single (.established hpend)
  | forceCloseInLoop c₀ =>
    simp only [ServerTask.conn, Life.take] at hself hother
    have hforced : (s.life c₀).forced ≠ 0 := by
      simp only [life]
      omega
    have hl' : (s.conns c₀).loop = l := hl.symm
    simp only [runTask, forceCloseInLoop]
    split
    · apply moves_of_self c₀ hother
      rw [hself]
      exact .single (.forceLate hforced)
    · rename_i hs
      apply moves_of_self c₀
      · intro c' hc
        rw [life_handleClose_of_ne hc (by exact hcl), hother c' hc]
      · rw [life_handleClose_self (by exact hl'), hself]
        exact .single (.forceClose hforced (by simp [life, hl', hact]) hs)
  | onConnectionRemoveInLoop c₀ =>
    simp only [ServerTask.conn, Life.take] at hself hother
    simp only [runTask]
    apply moves_of_self c₀
    · intro c' hc
      rw [life_onConnectionRemoveInLoop_of_ne hc, hother c' hc]
    · have hrem : (s.life c₀).removing ≠ 0 := hpend
      have ha' : ∀ l', (s.setTaskList l rest).loopAlive l' = true := ha
      exact moves_onConnectionRemoveInLoop ha' hself hrem
  | connectionDestroy c₀ =>
    simp only [ServerTask.conn, Life.take] at hself hother
    simp only [runTask]
    apply moves_of_self c₀
    · intro c' hc
      rw [life_connectionDestroy_of_ne hc, hother c' hc]
    · rw [life_connectionDestroy_self, hself]
      exact .single (.destroyed hpend)

theorem moves_onNewConnection (hp : s.Placed) (ha : ∀ l, s.loopAlive l = true) (fd : Nat)
    (l : LoopId) (c : ConnId) :
    ReflTransGen Life.Move (s.life c) ((s.onNewConnection fd l).life c) := by
  have hblank : (s.life s.nextConnectId).Blank := by
    rw [hp.life_fresh le_rfl]
    constructor <;> rfl
  have hidle : ∀ k, { s.life s.nextConnectId with conn := k } = Life.idle k := by
    rw [hp.life_fresh le_rfl]
    exact fun _ => rfl
  rw [onNewConnection_eq]
  split
  · have hmove := ReflTransGen.single (Life.Move.created
      ⟨fd, l, .connecting, false, true, true, false, 0⟩ hblank rfl)
    have hself := life_triedConnection_self hp fd
      (k := ⟨fd, l, .connecting, false, true, true, false, 0⟩) rfl
    rw [← hidle] at hself
    unfold runInLoop
    split
    · apply moves_of_self s.nextConnectId
      · intro c' hc
        rw [life_connectionEstablished_of_ne hc, life_triedConnection_of_ne _ _ _ hc]
      · rw [life_connectionEstablished_self, hself]
        simp only [triedConnection, setConn_conns_self]
        exact hmove.tail (.established (by simp))
    · apply moves_of_self s.nextConnectId
      · intro c' hc
        rw [life_queueInLoop_of_ne (by exact hc), life_triedConnection_of_ne _ _ _ hc]
      · have hq := life_queueInLoop_self (t := .connectionEstablished s.nextConnectId) (l := l)
          (s := s.triedConnection fd l ⟨fd, l, .connecting, false, true, true, false, 0⟩)
          (by rw [triedConnection_loopAlive, ha]) (by simp [ServerTask.home, triedConnection])
        simp only [ServerTask.conn] at hq
        rw [hq, hself]
        exact hmove
  · apply moves_of_self s.nextConnectId
    · exact fun c' hc => life_triedConnection_of_ne fd l _ hc
    · rw [life_triedConnection_self hp fd (by rfl), ← hidle]
      exact .single (.rejected _ hblank rfl)

theorem moves_poll (hact : s.activeChannels l = []) {cs : List ConnId} (hn : cs.Nodup)
    (hpoll : cs.all (s.polls l) = true) (c : ConnId) :
    ReflTransGen Life.Move (s.life c) ((s.setActive l cs).life c) := by
  rw [life_setActive]
  split
  · rename_i hl
    have hzero : (s.life c).active = 0 := by simp [life, hl, hact]
    by_cases hc : c ∈ cs
    · have hi : (s.conns c).interest = true := by
        have := List.all_eq_true.mp hpoll c hc
        simp only [polls, Bool.and_eq_true] at this
        exact this.2
      rw [List.count_eq_one_of_mem hn hc]
      exact .single (.polled hi hzero)
    · rw [List.count_eq_zero.mpr hc, ← hzero]
  · exact .refl

theorem moves_dispatch (hp : s.Placed) (hcl : s.closing l = none) {c₀ : ConnId}
    {rest : List ConnId} (hact : s.activeChannels l = c₀ :: rest) (close : Bool) (c : ConnId) :
    ReflTransGen Life.Move (s.life c) (((s.setActive l rest).handleEvent c₀ l close).life c) := by
  have hl : (s.conns c₀).loop = l := (hp.active l c₀ (by simp [hact])).2.symm
  have hself : (s.setActive l rest).life c₀ =
      { s.life c₀ with active := (s.life c₀).active - 1 } := by
    rw [life_setActive, if_pos hl]
    simp [life, hl, hact]
  have hother : ∀ c', c' ≠ c₀ → (s.setActive l rest).life c' = s.life c' := by
    intro c' hc
    rw [life_setActive]
    split
    · rename_i hl'
      have : rest.count c' = (s.life c').active := by
        simp [life, hl', hact, List.count_cons_of_ne (Ne.symm hc)]
      rw [this]
    · rfl
  have hne : (s.life c₀).active ≠ 0 := by simp [life, hl, hact]
  have hcheck := sameButTable_check (s.setActive l rest) .deadChannel (s.conns c₀).alive
  unfold handleEvent
  change ReflTransGen Life.Move _ (life (if close = true then handleClose c₀ l
    ((s.setActive l rest).check .deadChannel (s.conns c₀).alive) else _) c)
  split
  · have hcl' : ((s.setActive l rest).check .deadChannel (s.conns c₀).alive).closing l = none := by
      rw [hcheck.closing]
      exact hcl
    apply moves_of_self c₀
    · intro c' hc
      rw [life_handleClose_of_ne hc hcl', hcheck.life, hother c' hc]
    · rw [life_handleClose_self (by rw [hcheck.conns]; exact hl), hcheck.life, hself]
      exact .single (.closeEvent hne)
  · apply moves_of_self c₀
    · intro c' hc
      exact (hcheck.life c').trans (hother c' hc)
    · have h := (hcheck.life c₀).trans hself
      exact h ▸ .single (.dispatched hne)

theorem moves_forceClose {c₀ : ConnId} (halive : (s.conns c₀).alive = true)
    (hs : (s.conns c₀).state = .connected) (c : ConnId) :
    ReflTransGen Life.Move (s.life c)
      ({ s with inFlight := s.inFlight ++ [c₀] }.life c) := by
  apply moves_of_self c₀
  · intro c' hc
    have hcount : (s.inFlight ++ [c₀]).count c' = s.inFlight.count c' := by
      simp [List.count_append, Ne.symm hc]
    simp only [life, hcount]
    rfl
  · have hcount : (s.inFlight ++ [c₀]).count c₀ = s.inFlight.count c₀ + 1 := by simp
    have hmove := Life.Move.forceCall (f := s.life c₀) halive hs
    simp only [life, hcount] at hmove ⊢
    exact .single hmove

theorem moves_removeCb (hp : s.Placed) (ha : ∀ l, s.loopAlive l = true) {c₀ : ConnId}
    (hcl : s.closing l = some c₀) (c : ConnId) :
    ReflTransGen Life.Move (s.life c)
      (((s.setClosing l none).onConnectionRemove c₀ l).life c) := by
  apply moves_of_self c₀
  · intro c' hc
    rw [life_onConnectionRemove_of_ne hc, life_setClosing]
    split
    · rename_i hl
      have : (none == some c') = (s.life c').closing := by
        simp [life, hl, hcl, Ne.symm hc]
      rw [this]
    · rfl
  · exact moves_onConnectionRemove ha hcl (hp.closing l c₀ hcl).2.symm

/-- Every step of a server that has not stopped takes every connection through moves
of its life. -/
theorem step_moves {s' : TCPServer} {i : Input} (hp : s.Placed)
    (ha : ∀ l, s.loopAlive l = true) (hphase : s.phase = .running)
    (htable : ∀ c, (s.conns c).accepted = true → (s.conns c).removed = false →
      s.tcpConnList (s.conns c).fd = some c)
    (h : s.Next i s') (c : ConnId) : ReflTransGen Life.Move (s.life c) (s'.life c) := by
  cases h with
  | accept => exact moves_onNewConnection hp ha _ _ c
  | runTask hready hact hq => exact moves_runTask hp ha (ready_closing hready) hact hq c
  | poll hready hact hn hpoll => exact moves_poll hact hn hpoll c
  | dispatch hready hact => exact moves_dispatch hp (ready_closing hready) hact _ c
  | removeCb hcl => exact moves_removeCb hp ha hcl c
  | forceClose halive hs => exact moves_forceClose halive hs c
  | forceCloseLate => exact .refl
  | push hget => rw [life_push ha hget]
  | @drop c₀ halive href =>
    apply moves_of_self c₀
    · exact fun c' hc => life_setConn_of_ne _ hc
    · rw [life_setConn_self _ (by rfl)]
      apply ReflTransGen.single
      apply Life.Move.dropped halive
      rintro ⟨hacc, hrem⟩
      have := htable c₀ hacc hrem
      simp [referenced, this] at href
  | stop => exact .refl
  | join hstop => simp [hphase] at hstop
  | sweep hstop => simp [hphase] at hstop

end Steps

end TCPServer

end LinuxNet
