import LinuxNet.Server.Table

/-!
# The destructor of a connection

`~TCPConnection` asserts that the connection is DISCONNECTED, which only `ConnectionDestroy`
sets. A connection of the table is given up by the server behind `OnConnectionRemoveInLoop`,
with a reference in the task of `ConnectionDestroy`, so that its destructor comes later. A
connection that `AddConnListItem` turns away has nothing of that: it dies at the `return` of
`OnNewConnection`, in the state it was created in.
-/

namespace LinuxNet

set_option autoImplicit false

open LinuxNet.Lib Relation

/-! ## One connection -/

namespace Life

/-- `ConnectionDestroy` is called once for a connection that has been removed: it is on its
way, or it has set the state. -/
def Settled (f : Life) : Prop :=
  f.destroying + (if f.conn.state = .disconnected then 1 else 0) = f.conn.removed.toNat

/-- A close before the destruction. -/
theorem Settled.handleClose {f : Life} (h : f.Settled) (hs : f.conn.state = .connected) :
    f.handleClose.Settled := by
  unfold Settled at h ⊢
  simpa [Life.handleClose, hs] using h

theorem Ok.settled_move {f g : Life} (h : f.Ok) (hs : f.Settled) (hm : Move f g) : g.Settled := by
  cases hm with
  | created k hb hk => exact absurd h.accepted (by simp [hb.accepted])
  | rejected k hb hk => exact absurd h.accepted (by simp [hb.accepted])
  | established he =>
    obtain ⟨hst, _⟩ := h.of_established he
    unfold Settled at hs ⊢
    simpa [hst] using hs
  | polled | dispatched | forceCall | forceLate | removeCb | dropped => exact hs
  | closeEvent ha =>
    have hst := h.interest (h.polled ha)
    exact Settled.handleClose (f := { f with active := f.active - 1 }) hs hst
  | forceClose hf ha hst =>
    have hconn := h.of_forced hf hst
    exact Settled.handleClose (f := { f with forced := f.forced - 1 }) hs hconn
  | removed hr =>
    obtain ⟨hrem, _⟩ := h.begun (by omega)
    unfold Settled at hs ⊢
    rw [hrem, Bool.toNat_false] at hs
    simp only [Bool.toNat_true]
    omega
  | destroyed hd =>
    unfold Settled at hs ⊢
    rw [h.destroying hd, Bool.toNat_true] at hs
    simp only [ServerConn.connectionDestroy_state, ServerConn.connectionDestroy_removed,
      h.destroying hd, Bool.toNat_true, ↓reduceIte]
    omega

theorem Blank.settled_move {f g : Life} (h : f.Blank) (hs : f.Settled) (hm : Move f g) :
    g.Settled := by
  cases hm with
  | created k hb hk =>
    unfold Settled
    rw [hk, hb.destroying]
    rfl
  | rejected k hb hk =>
    unfold Settled
    rw [hk, hb.destroying]
    rfl
  | established he => exact absurd h.established he
  | polled | dispatched | forceCall | forceLate | removeCb | dropped => exact hs
  | closeEvent ha => exact absurd h.active ha
  | forceClose hf => exact absurd h.forced hf
  | removed hr => exact absurd h.removing hr
  | destroyed hd => exact absurd h.destroying hd

theorem Settled.moves {f g : Life} (h : f.Inv) (hs : f.Settled) (hm : ReflTransGen Move f g) :
    g.Settled := by
  induction hm with
  | refl => exact hs
  | tail hpre hm ih =>
    exact (h.moves hpre).elim (fun ho => ho.settled_move ih hm) (fun hb => hb.settled_move ih hm)

end Life

namespace TCPServer

/-! ## What the functions leave alone -/

/-- No connection is destroyed, and no `ConnectionDestroy` has run. -/
structure Spares (s s' : TCPServer) : Prop where
  alive : ∀ c, (s'.conns c).alive = (s.conns c).alive
  loop : ∀ c, (s'.conns c).loop = (s.conns c).loop
  accepted : ∀ c, (s'.conns c).accepted = (s.conns c).accepted
  state : ∀ c, (s'.conns c).state = .disconnected ↔ (s.conns c).state = .disconnected
  destroyed : s'.destroyed = s.destroyed

section Frames

variable {s s' s'' : TCPServer} {c : ConnId} {l : LoopId} {t : ServerTask}

theorem Spares.trans (h : Spares s s') (h' : Spares s' s'') : Spares s s'' where
  alive c := (h'.alive c).trans (h.alive c)
  loop c := (h'.loop c).trans (h.loop c)
  accepted c := (h'.accepted c).trans (h.accepted c)
  state c := (h'.state c).trans (h.state c)
  destroyed := h'.destroyed.trans h.destroyed

theorem spares_of_conns (hc : s'.conns = s.conns) (hd : s'.destroyed = s.destroyed) :
    Spares s s' :=
  ⟨fun _ => by rw [hc], fun _ => by rw [hc], fun _ => by rw [hc], fun _ => by rw [hc], hd⟩

theorem SameButTable.spares (h : SameButTable s s') : Spares s s' := by
  obtain ⟨_, _, _, _, rfl⟩ := h
  exact spares_of_conns rfl rfl

theorem spares_setConn {k : ServerConn} (ha : k.alive = (s.conns c).alive)
    (hl : k.loop = (s.conns c).loop) (hacc : k.accepted = (s.conns c).accepted)
    (hs : k.state = .disconnected ↔ (s.conns c).state = .disconnected) :
    Spares s (s.setConn c k) := by
  have hstate : ∀ c', ((s.setConn c k).conns c').state = .disconnected ↔
      (s.conns c').state = .disconnected := by
    intro c'
    rw [setConn_field (fun k => k.state = .disconnected) (propext hs)]
  exact ⟨setConn_field ServerConn.alive ha, setConn_field ServerConn.loop hl,
    setConn_field ServerConn.accepted hacc, hstate, rfl⟩

theorem spares_queueInLoop : Spares s (s.queueInLoop l t) := by
  unfold queueInLoop
  split
  · exact spares_of_conns rfl rfl
  · exact (sameButTable_check s _ _).spares

theorem spares_handleClose (hs : (s.conns c).state ≠ .disconnected) :
    Spares s (s.handleClose c l) := by
  have hset := spares_setConn (s := s) (c := c) (k := (s.conns c).handleClose) rfl rfl rfl
    (by simp [hs])
  exact hset.trans (spares_of_conns rfl rfl)

theorem spares_connectionEstablished (hs : (s.conns c).state ≠ .disconnected) :
    Spares s (s.connectionEstablished c) :=
  spares_setConn rfl rfl rfl (by simp [hs])

theorem spares_handleEvent (close : Bool) (hs : (s.conns c).state ≠ .disconnected) :
    Spares s (s.handleEvent c l close) := by
  have hcheck := (sameButTable_check s .deadChannel (s.conns c).alive)
  unfold handleEvent
  dsimp only
  split
  · refine hcheck.spares.trans (spares_handleClose ?_)
    rw [hcheck.conns]
    exact hs
  · exact hcheck.spares

theorem spares_unlist : Spares s (s.unlist c) := by
  have hdel := sameButTable_delConnListItem s c
  refine hdel.spares.trans (spares_setConn ?_ ?_ ?_ ?_)
  · rw [hdel.conns]
  · rw [hdel.conns]
  · rw [hdel.conns]
  · rw [hdel.conns]

end Frames

/-! ## Steps -/

/-- `ConnectionDestroy` has been called for the connections that are DISCONNECTED, once and in
their own loops. -/
def Recorded (s : TCPServer) : Prop :=
  ∀ c, s.destroyed.filter (fun d => d.1 == c) =
    if (s.conns c).state = .disconnected then [(c, (s.conns c).loop)] else []

/-- The connections of the table that exist no longer have ended in the state DISCONNECTED. -/
def Buried (s : TCPServer) : Prop :=
  ∀ c, (s.conns c).alive = false → (s.conns c).accepted = true →
    (s.conns c).state = .disconnected

/-- What holds of the connections while the server is running. -/
structure Tended (s : TCPServer) : Prop where
  serving : s.Serving
  settled : ∀ c, (s.life c).Settled
  recorded : s.Recorded
  buried : s.Buried

section Steps

variable {s s' : TCPServer} {c : ConnId} {l : LoopId} {i : Input}

theorem tended_init (loopNums size : Nat) : (init loopNums size).Tended where
  serving := serving_init loopNums size
  settled _ := rfl
  recorded _ := rfl
  buried _ _ hacc := absurd hacc Bool.false_ne_true

theorem Tended.ok (h : s.Tended) (hc : (s.life c).Blank → False) : (s.life c).Ok :=
  h.serving.ok hc

/-- A connection with `ConnectionDestroy` still to come is not DISCONNECTED yet. -/
theorem Tended.not_yet (h : s.Tended)
    (hd : (s.life c).destroying ≠ 0 ∨ (s.conns c).removed = false) :
    (s.conns c).state ≠ .disconnected := by
  intro hs
  have hset : (s.life c).destroying + _ = (s.conns c).removed.toNat := h.settled c
  rw [if_pos (by exact hs)] at hset
  have hle := Bool.toNat_le (s.conns c).removed
  rcases hd with hd | hd
  · omega
  · rw [hd, Bool.toNat_false] at hset
    omega

/-- A connection the server is closing has not been removed. -/
theorem Tended.begun_removed (h : s.Tended)
    (hb : 0 < (s.life c).closing.toNat + (s.life c).removing) : (s.conns c).removed = false :=
  ((h.ok fun hblank => by simp [hblank.closing, hblank.removing] at hb).begun hb).1

/-- `ConnectionDestroy` runs for the connection `c` of the loop `l`, and nothing else of
importance happens. -/
def Destroys (s s' : TCPServer) : Prop :=
  ∃ m c l, Spares s m ∧ (m.conns c).loop = l ∧ (m.conns c).state ≠ .disconnected ∧
    Spares (m.connectionDestroy c l) s'

theorem destroys_onConnectionRemoveInLoop (hs : (s.conns c).state ≠ .disconnected) :
    Spares s (s.onConnectionRemoveInLoop c) ∨ Destroys s (s.onConnectionRemoveInLoop c) := by
  have hun := spares_unlist (s := s) (c := c)
  rw [onConnectionRemoveInLoop_eq]
  split
  · rename_i hl
    refine .inr ⟨_, c, 0, hun, ?_, ?_, (sameButTable_dumpConnections _).spares⟩
    · rw [hun.loop, hl]
    · exact fun hd => hs ((hun.state c).mp hd)
  · refine .inl (hun.trans (spares_queueInLoop.trans (sameButTable_dumpConnections _).spares))

theorem Spares.then (h : Spares s s') {u : TCPServer} (hu : Spares s' u ∨ Destroys s' u) :
    Spares s u ∨ Destroys s u := by
  rcases hu with hu | ⟨m, c, l, hm, hl, hs, hend⟩
  · exact .inl (h.trans hu)
  · exact .inr ⟨m, c, l, h.trans hm, hl, hs, hend⟩

theorem pending_ne_zero {t : ServerTask} {rest : List ServerTask} (hq : s.taskList l = t :: rest)
    (hl : l = t.home s.conns) : s.pending t ≠ 0 := by
  rw [pending, ← hl, hq, List.count_cons_self]
  exact Nat.succ_ne_zero _

/-- What a step is for the connections, unless it accepts one or drops one. -/
theorem Tended.kinds (h : s.Tended) (hn : s.Next i s') (hi : i ≠ .stop)
    (hacc : ∀ fd l, i ≠ .accept fd l) (hdrop : ∀ c, i ≠ .drop c) : Spares s s' ∨ Destroys s s' := by
  cases hn with
  | @accept fd l => exact absurd rfl (hacc fd l)
  | @runTask l t rest hready hact hq =>
    have hpop : Spares s (s.setTaskList l rest) := spares_of_conns rfl rfl
    have hl := (h.serving.placed.task l t (by rw [hq]; exact List.mem_cons_self)).2
    have hpend := pending_ne_zero hq hl
    cases t with
    | connectionEstablished c =>
      have hok := h.ok (c := c) fun hblank => hpend hblank.established
      have hst : (s.conns c).state = .connecting := (hok.of_established hpend).1
      exact .inl (hpop.trans (spares_connectionEstablished (by simp [setTaskList, hst])))
    | forceCloseInLoop c =>
      refine .inl ?_
      simp only [runTask, forceCloseInLoop]
      split
      · exact hpop
      · rename_i hst
        exact hpop.trans (spares_handleClose fun hd => hst (.inr hd))
    | onConnectionRemoveInLoop c =>
      have hrem := h.begun_removed (c := c) (Nat.add_pos_right _ (Nat.pos_of_ne_zero hpend))
      exact hpop.then (destroys_onConnectionRemoveInLoop (h.not_yet (.inr hrem)))
    | connectionDestroy c =>
      exact .inr ⟨_, c, l, hpop, hl.symm, h.not_yet (.inl hpend), spares_of_conns rfl rfl⟩
  | poll => exact .inl (spares_of_conns rfl rfl)
  | @dispatch l close c rest hready hact =>
    have hpop : Spares s (s.setActive l rest) := spares_of_conns rfl rfl
    have hl := (h.serving.placed.active l c (by rw [hact]; exact List.mem_cons_self)).2
    have hactive : (s.life c).active ≠ 0 := by simp [life, ← hl, hact]
    have hok := h.ok (c := c) fun hblank => hactive hblank.active
    have hst : (s.conns c).state = .connected := hok.interest (hok.polled hactive)
    exact .inl (hpop.trans (spares_handleEvent close (by simp [setActive, hst])))
  | @removeCb l c hcl =>
    have hpop : Spares s (s.setClosing l none) := spares_of_conns rfl rfl
    have hl := (h.serving.placed.closing l c hcl).2
    have hclosing : (s.life c).closing = true := by simp [life, ← hl, hcl]
    have hrem := h.begun_removed (c := c) (by rw [hclosing, Bool.toNat_true]; omega)
    unfold onConnectionRemove runInLoop
    split
    · exact hpop.then (destroys_onConnectionRemoveInLoop (h.not_yet (.inr hrem)))
    · exact .inl (hpop.trans spares_queueInLoop)
  | forceClose => exact .inl (spares_of_conns rfl rfl)
  | forceCloseLate => exact .inl (spares_of_conns rfl rfl)
  | @push i c =>
    have hpop : Spares s { s with inFlight := s.inFlight.eraseIdx i } := spares_of_conns rfl rfl
    exact .inl (hpop.trans spares_queueInLoop)
  | @drop c => exact absurd rfl (hdrop c)
  | stop => exact absurd rfl hi
  | join hstop => simp [h.serving.running] at hstop
  | sweep hstop => simp [h.serving.running] at hstop

theorem Recorded.spares (h : s.Recorded) (hs : Spares s s') : s'.Recorded := by
  intro c
  rw [hs.destroyed, h c, hs.loop]
  by_cases hst : (s.conns c).state = .disconnected
  · rw [if_pos hst, if_pos ((hs.state c).mpr hst)]
  · rw [if_neg hst, if_neg fun hst' => hst ((hs.state c).mp hst')]

theorem Recorded.connectionDestroy (h : s.Recorded) (hl : (s.conns c).loop = l)
    (hs : (s.conns c).state ≠ .disconnected) : (s.connectionDestroy c l).Recorded := by
  intro c'
  have hloop : ((s.connectionDestroy c l).conns c').loop = (s.conns c').loop :=
    setConn_field (s := s) (k := (s.conns c).connectionDestroy) ServerConn.loop rfl c'
  have hadd : (s.connectionDestroy c l).destroyed = s.destroyed ++ [(c, l)] := rfl
  rw [hloop, hadd, List.filter_append, h c']
  by_cases hc : c' = c
  · subst hc
    have hstate : ((s.connectionDestroy c' l).conns c').state = .disconnected := by
      simp [TCPServer.connectionDestroy]
    rw [if_neg hs, if_pos hstate]
    simp [hl]
  · have hne : (c == c') = false := by simpa using Ne.symm hc
    have hconn : (s.connectionDestroy c l).conns c' = s.conns c' :=
      setConn_conns_of_ne (s := s) (c := c) _ hc
    rw [hconn]
    simp [hne]

theorem Recorded.destroys (h : s.Recorded) (hd : Destroys s s') : s'.Recorded := by
  obtain ⟨m, c, l, hm, hl, hs, hend⟩ := hd
  exact ((h.spares hm).connectionDestroy hl hs).spares hend

theorem Buried.spares (h : s.Buried) (hs : Spares s s') : s'.Buried := by
  intro c halive hacc
  rw [hs.alive] at halive
  rw [hs.accepted] at hacc
  exact (hs.state c).mpr (h c halive hacc)

theorem Buried.connectionDestroy (h : s.Buried) : (s.connectionDestroy c l).Buried := by
  intro c' halive hacc
  by_cases hc : c' = c
  · subst hc
    simp [TCPServer.connectionDestroy]
  · have hconn : (s.connectionDestroy c l).conns c' = s.conns c' :=
      setConn_conns_of_ne (s := s) (c := c) _ hc
    rw [hconn] at halive hacc ⊢
    exact h c' halive hacc

theorem Buried.destroys (h : s.Buried) (hd : Destroys s s') : s'.Buried := by
  obtain ⟨m, c, l, hm, _, _, hend⟩ := hd
  exact ((h.spares hm).connectionDestroy).spares hend

/-! ### A connection is accepted -/

theorem triedConnection_conns_of_ne {fd : Nat} {k : ServerConn} (hc : c ≠ s.nextConnectId) :
    (s.triedConnection fd l k).conns c = s.conns c := by
  unfold triedConnection
  rw [setConn_conns_of_ne k hc, (sameButTable_addConnListItem _ _).conns]
  exact setConn_conns_of_ne (s := s) _ hc

theorem triedConnection_conns_self {fd : Nat} {k : ServerConn} :
    (s.triedConnection fd l k).conns s.nextConnectId = k := by
  rw [triedConnection, setConn_conns_self]

theorem triedConnection_destroyed {fd : Nat} {k : ServerConn} :
    (s.triedConnection fd l k).destroyed = s.destroyed :=
  (sameButTable_addConnListItem (s.newConnection fd l) s.nextConnectId).spares.destroyed

/-- A new connection is far from DISCONNECTED; it is destroyed at once if the table turns it
away. -/
theorem spares_onNewConnection (s : TCPServer) (fd : Nat) (l : LoopId) :
    ∃ k : ServerConn, Spares (s.triedConnection fd l k) (s.onNewConnection fd l) ∧
      k.state = .connecting ∧ k.alive = k.accepted ∧
      k.accepted = ((s.newConnection fd l).addConnListItem s.nextConnectId).1 := by
  rw [onNewConnection_eq]
  split
  · rename_i hadd
    refine ⟨⟨fd, l, .connecting, false, true, true, false, 0⟩, ?_, rfl, rfl, hadd.symm⟩
    unfold runInLoop
    split
    · apply spares_connectionEstablished
      rw [triedConnection_conns_self]
      simp
    · exact spares_queueInLoop
  · rename_i hadd
    exact ⟨⟨fd, l, .connecting, false, false, false, false, 0⟩, spares_of_conns rfl rfl, rfl, rfl,
      (Bool.eq_false_iff.mpr hadd).symm⟩

theorem Recorded.triedConnection (h : s.Recorded) (hp : s.Placed) {fd : Nat} {k : ServerConn}
    (hk : k.state = .connecting) : (s.triedConnection fd l k).Recorded := by
  intro c
  rw [triedConnection_destroyed, h c]
  by_cases hc : c = s.nextConnectId
  · subst hc
    rw [triedConnection_conns_self, hk, hp.fresh _ le_rfl]
    simp
  · rw [triedConnection_conns_of_ne hc]

theorem Buried.triedConnection (h : s.Buried) {fd : Nat} {k : ServerConn}
    (hk : k.alive = k.accepted) : (s.triedConnection fd l k).Buried := by
  intro c halive hacc
  by_cases hc : c = s.nextConnectId
  · subst hc
    rw [triedConnection_conns_self] at halive hacc
    rw [hk, hacc] at halive
    exact absurd halive (by decide)
  · rw [triedConnection_conns_of_ne hc] at halive hacc ⊢
    exact h c halive hacc

/-! ### A connection is dropped -/

/-- Only a connection whose `ConnectionDestroy` is over is without references. -/
theorem Tended.unreferenced (h : s.Tended) (hacc : (s.conns c).accepted = true)
    (href : s.referenced c = false) : (s.conns c).state = .disconnected := by
  have hok := h.ok (c := c) fun hblank => by
    have := hblank.accepted
    simp [life, hacc] at this
  simp only [referenced, Bool.or_eq_false_iff, List.any_eq_false, List.mem_range] at href
  obtain ⟨⟨htable, -⟩, hloops⟩ := href
  have hrem : (s.conns c).removed = true := by
    by_contra hrem
    have hslot := (h.serving.table.slot _ c).mpr ⟨rfl, hacc, Bool.eq_false_iff.mpr hrem⟩
    simp [hslot] at htable
  have hlt : (s.conns c).loop < s.loopNums + 1 := Nat.lt_succ_of_le (h.serving.placed.loop c)
  have hnone : (s.life c).destroying = 0 := by
    apply List.count_eq_zero.mpr
    intro hmem
    have hany := hloops _ hlt
    simp only [Bool.or_eq_true, List.any_eq_true, not_or, not_exists] at hany
    exact hany.2 (.connectionDestroy c) ⟨hmem, by simp [ServerTask.conn]⟩
  have hset : (s.life c).destroying + _ = (s.conns c).removed.toNat := h.settled c
  rw [hnone, hrem, Bool.toNat_true] at hset
  by_contra hst
  rw [if_neg (by exact hst)] at hset
  omega

theorem Recorded.drop (h : s.Recorded) :
    (s.setConn c { s.conns c with alive := false }).Recorded := by
  intro c'
  have hold := h c'
  by_cases hc : c' = c
  · subst hc
    rw [setConn_conns_self]
    exact hold
  · rw [setConn_conns_of_ne _ hc]
    exact hold

theorem Tended.drop (h : s.Tended) (href : s.referenced c = false) :
    (s.setConn c { s.conns c with alive := false }).Buried := by
  intro c' halive hacc
  by_cases hc : c' = c
  · subst hc
    rw [setConn_conns_self] at hacc ⊢
    exact h.unreferenced hacc href
  · rw [setConn_conns_of_ne _ hc] at halive hacc ⊢
    exact h.buried c' halive hacc

theorem Tended.ends (h : s.Tended) (hn : s.Next i s') (hi : i ≠ .stop) :
    s'.Recorded ∧ s'.Buried := by
  by_cases hacc : ∃ fd l, i = .accept fd l
  · obtain ⟨fd, l, rfl⟩ := hacc
    cases hn with
    | accept =>
      obtain ⟨k, hs, hst, hk, _⟩ := spares_onNewConnection s fd l
      exact ⟨(h.recorded.triedConnection h.serving.placed hst).spares hs,
        (h.buried.triedConnection hk).spares hs⟩
  by_cases hdrop : ∃ c, i = .drop c
  · obtain ⟨c, rfl⟩ := hdrop
    cases hn with
    | drop _ href => exact ⟨h.recorded.drop, h.drop href⟩
  have hkinds := h.kinds hn hi (fun fd l he => hacc ⟨fd, l, he⟩) (fun c he => hdrop ⟨c, he⟩)
  rcases hkinds with hs | hd
  · exact ⟨h.recorded.spares hs, h.buried.spares hs⟩
  · exact ⟨h.recorded.destroys hd, h.buried.destroys hd⟩

theorem step_tended (h : s.Tended) (hn : s.Next i s') (hi : i ≠ .stop) : s'.Tended := by
  have hserving := h.serving
  have hmoves := step_moves hserving.placed hserving.alive hserving.running
    (fun c hacc hrem => (hserving.table.slot _ c).mpr ⟨rfl, hacc, hrem⟩) hn
  obtain ⟨hrec, hbur⟩ := h.ends hn hi
  exact ⟨step_serving hserving hn hi,
    fun c => (h.settled c).moves (hserving.lives c) (hmoves c), hrec, hbur⟩

/-! ### The bounds of the table -/

theorem addConnListItem_newConnection (fd : Nat) (l : LoopId) :
    ((s.newConnection fd l).addConnListItem s.nextConnectId).1 = true ↔ fd ≤ 2 * s.size := by
  have h := addConnListItem_fst (s := s.newConnection fd l) (c := s.nextConnectId)
  rw [newConnection_conn] at h
  exact h

theorem outOfBounds_newConnection (fd : Nat) (l : LoopId) :
    Fault.outOfBounds ∈ ((s.newConnection fd l).addConnListItem s.nextConnectId).2.faults ↔
      Fault.outOfBounds ∈ s.faults ∨ fd = 2 * s.size := by
  have h := outOfBounds_addConnListItem (s := s.newConnection fd l) (c := s.nextConnectId)
  rw [newConnection_conn] at h
  exact h

theorem outOfBounds_onConnectionRemoveInLoop (ha : ∀ l, s.loopAlive l = true)
    (hslot : s.tcpConnList (s.conns c).fd = some c) :
    Fault.outOfBounds ∈ (s.onConnectionRemoveInLoop c).faults ↔ Fault.outOfBounds ∈ s.faults := by
  have hdump : ∀ u : TCPServer,
      Fault.outOfBounds ∈ u.dumpConnections.faults ↔ Fault.outOfBounds ∈ u.faults := by
    intro u
    unfold dumpConnections check
    dsimp only
    split <;> split <;> simp
  have hun : (s.unlist c).faults = s.faults := by
    rw [unlist, delConnListItem_eq hslot]
    rfl
  obtain ⟨u, hq, heq⟩ := quiet_unlisted (c := c) ha
  rw [heq, hdump, hq.faults, hun]

/-- Only `AddConnListItem` accesses the table out of its bounds. -/
theorem step_outOfBounds (h : s.Serving) (hn : s.Next i s') (hi : i ≠ .stop) :
    Fault.outOfBounds ∈ s'.faults ↔
      Fault.outOfBounds ∈ s.faults ∨ ∃ l, i = .accept (2 * s.size) l := by
  by_cases hacc : ∃ fd l, i = .accept fd l
  · obtain ⟨fd, l, rfl⟩ := hacc
    cases hn with
    | accept _ _ _ hfree =>
      obtain ⟨k, _, _, _, hq⟩ := quiet_onNewConnection h.alive fd l
      rw [hq.faults]
      refine (outOfBounds_newConnection fd l).trans (or_congr_right ?_)
      simp
  · have hsame : Fault.outOfBounds ∈ s'.faults ↔ Fault.outOfBounds ∈ s.faults := by
      rcases h.kinds hn hi with hq | ⟨fd, l, k, hin, _⟩ | ⟨u, c, hq, ha, hslot, rfl⟩
      · rw [hq.faults]
      · exact absurd ⟨fd, l, hin⟩ hacc
      · rw [outOfBounds_onConnectionRemoveInLoop ha hslot, hq.faults]
    rw [hsame]
    refine ⟨.inl, ?_⟩
    rintro (hold | ⟨l, hin⟩)
    · exact hold
    · exact absurd ⟨_, l, hin⟩ hacc

end Steps

/-! ## Runs -/

/-- The assert of `~TCPConnection` has held for all connections that exist no longer, as
`ConnectionDestroy` has run for them once, in their own loop. -/
def DestructorOk (s : TCPServer) : Prop :=
  ∀ c, c < s.nextConnectId → (s.conns c).alive = false →
    (s.conns c).state = .disconnected ∧
    s.destroyed.filter (fun d => d.1 == c) = [(c, (s.conns c).loop)]

/-- A new descriptor finds a slot in a table of twice the size. -/
def fits (s : TCPServer) : Input → Bool
  | .accept fd _ => fd < 2 * s.size
  | _ => true

/-- What holds as long as no connection is turned away. -/
structure Welcome (s : TCPServer) : Prop where
  tended : s.Tended
  accepted : ∀ c, c < s.nextConnectId → (s.conns c).accepted = true
  bounds : Fault.outOfBounds ∉ s.faults

section Runs

variable {s s' : TCPServer} {i : Input}

theorem welcome_init (loopNums size : Nat) : (init loopNums size).Welcome where
  tended := tended_init loopNums size
  accepted c hc := absurd hc (Nat.not_lt_zero c)
  bounds := List.not_mem_nil

theorem Welcome.destructorOk (h : s.Welcome) : s.DestructorOk := by
  intro c hc halive
  have hst := h.tended.buried c halive (h.accepted c hc)
  exact ⟨hst, by rw [h.tended.recorded c, if_pos hst]⟩

theorem step_welcome (h : s.Welcome) (hi : i ≠ .stop) (hfits : s.fits i = true)
    (hstep : s.step i = some s') : s'.Welcome := by
  have hn := step_next hstep
  have hlt : ∀ fd l, i = .accept fd l → fd < 2 * s.size := by
    rintro fd l rfl
    exact of_decide_eq_true hfits
  refine ⟨step_tended h.tended hn hi, fun c hc => ?_, ?_⟩
  · refine step_accepted h.tended.serving h.accepted hn hi (fun fd l hin _ => ?_) hc
    exact (addConnListItem_newConnection fd l).mpr (hlt fd l hin).le
  · rw [step_outOfBounds h.tended.serving hn hi]
    rintro (hold | ⟨l, hin⟩)
    · exact h.bounds hold
    · exact Nat.lt_irrefl _ (hlt _ l hin)

/-- A connection that does not fit is written behind the table, or destroyed at once. -/
theorem Welcome.broken (h : s.Welcome) (hi : i ≠ .stop) (hfits : ¬ s.fits i = true)
    (hstep : s.step i = some s') : ¬ (Fault.outOfBounds ∉ s'.faults ∧ s'.DestructorOk) := by
  rintro ⟨hbounds, hok⟩
  have hn := step_next hstep
  have hout := step_outOfBounds h.tended.serving hn hi
  cases hn with
  | @accept fd l =>
    have hge : 2 * s.size ≤ fd := by simpa [fits] using hfits
    rcases Nat.lt_or_eq_of_le hge with hlt | heq
    · obtain ⟨k, hs, hst, halive, hacc⟩ := spares_onNewConnection s fd l
      have hno : k.accepted = false := by
        rw [hacc, Bool.eq_false_iff, Ne, addConnListItem_newConnection]
        omega
      have hconn : (s.triedConnection fd l k).conns s.nextConnectId = k :=
        triedConnection_conns_self
      obtain ⟨_, _, _, _, hq⟩ := quiet_onNewConnection h.tended.serving.alive fd l
      have hnext : s.nextConnectId < (s.onNewConnection fd l).nextConnectId := by
        rw [hq.next, triedConnection_nextConnectId]
        exact Nat.lt_succ_self _
      have hdead := hok s.nextConnectId hnext (by rw [hs.alive, hconn, halive, hno])
      have hdis := (hs.state _).mp hdead.1
      rw [hconn, hst] at hdis
      exact absurd hdis (by decide)
    · exact hbounds (hout.mpr (.inr ⟨l, by rw [heq]⟩))
  | _ => exact hfits rfl

end Runs

end TCPServer

end LinuxNet
