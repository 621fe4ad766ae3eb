import LinuxNet.Server.Placement

/-!
# `TCPServer::Stop`

`Stop` first ends and joins the threads of the pool, and each of them takes its
`EventLoop` with it. Only then it asks every connection's loop to run
`ConnectionDestroy`. A connection of the server's own loop is destroyed on the spot; a
connection of the pool has no loop left.
-/

namespace LinuxNet

set_option autoImplicit false

open LinuxNet.Lib

namespace TCPServer

/-- A connection stays in its loop, and what has been destroyed stays destroyed. -/
structure Keeps (s s' : TCPServer) : Prop where
  loop : ∀ c, (s'.conns c).loop = (s.conns c).loop
  destroyed : ∀ x, x ∈ s.destroyed → x ∈ s'.destroyed

section Keeps

variable {s s' s'' : TCPServer} {c : ConnId} {l : LoopId} {t : ServerTask} {i : Input}

theorem Keeps.refl (s : TCPServer) : Keeps s s := ⟨fun _ => rfl, fun _ h => h⟩

theorem Keeps.trans (h : Keeps s s') (h' : Keeps s' s'') : Keeps s s'' :=
  ⟨fun c => (h'.loop c).trans (h.loop c), fun x hx => h'.destroyed x (h.destroyed x hx)⟩

theorem SameButTable.keeps (h : SameButTable s s') : Keeps s s' := by
  obtain ⟨_, _, _, _, rfl⟩ := h
  exact ⟨fun _ => rfl, fun _ h => h⟩

theorem keeps_setConn {k : ServerConn} (hk : k.loop = (s.conns c).loop) :
    Keeps s (s.setConn c k) :=
  ⟨setConn_field ServerConn.loop hk, fun _ h => h⟩

theorem keeps_queueInLoop : Keeps s (s.queueInLoop l t) := by
  unfold queueInLoop
  split
  · exact ⟨fun _ => rfl, fun _ h => h⟩
  · exact (sameButTable_check s _ _).keeps

theorem keeps_connectionDestroy : Keeps s (s.connectionDestroy c l) := by
  have h := keeps_setConn (s := s) (c := c) (k := (s.conns c).connectionDestroy) rfl
  exact ⟨h.loop, fun x hx => List.mem_append_left _ hx⟩

theorem keeps_handleClose : Keeps s (s.handleClose c l) := by
  have h := keeps_setConn (s := s) (c := c) (k := (s.conns c).handleClose) rfl
  exact ⟨h.loop, h.destroyed⟩

theorem keeps_onConnectionRemoveInLoop : Keeps s (s.onConnectionRemoveInLoop c) := by
  have hdel := sameButTable_delConnListItem s c
  have hunlist : Keeps s (s.unlist c) :=
    hdel.keeps.trans (keeps_setConn (by rw [hdel.conns]))
  rw [onConnectionRemoveInLoop_eq]
  split
  · exact (hunlist.trans keeps_connectionDestroy).trans (sameButTable_dumpConnections _).keeps
  · exact (hunlist.trans keeps_queueInLoop).trans (sameButTable_dumpConnections _).keeps

theorem keeps_runTask : Keeps s (s.runTask l t) := by
  cases t with
  | connectionEstablished c => exact keeps_setConn rfl
  | forceCloseInLoop c =>
    simp only [runTask, forceCloseInLoop]
    split
    · exact Keeps.refl s
    · exact keeps_handleClose
  | onConnectionRemoveInLoop c => exact keeps_onConnectionRemoveInLoop
  | connectionDestroy c => exact keeps_connectionDestroy

theorem keeps_handleEvent (close : Bool) : Keeps s (s.handleEvent c l close) := by
  have hcheck := (sameButTable_check s .deadChannel (s.conns c).alive).keeps
  unfold handleEvent
  dsimp only
  split
  · exact hcheck.trans keeps_handleClose
  · exact hcheck

theorem keeps_stopConn : Keeps s (s.stopConn c) := by
  have hcalls : Keeps s { s with
      stopCalls := s.stopCalls ++ [(c, s.loopAlive (s.conns c).loop)] } :=
    ⟨fun _ => rfl, fun _ h => h⟩
  rw [stopConn_eq]
  unfold runInLoop
  split
  · exact hcalls.trans keeps_connectionDestroy
  · exact hcalls.trans keeps_queueInLoop

theorem keeps_stopConns (cs : List ConnId) : Keeps s (cs.foldl stopConn s) := by
  induction cs generalizing s with
  | nil => exact Keeps.refl s
  | cons c cs ih => exact keeps_stopConn.trans ih

/-- No step makes a connection change its loop once the server accepts no more. -/
theorem next_keeps (h : s.Next i s') (hphase : s.phase ≠ .running) : Keeps s s' := by
  cases h with
  | accept hrun => exact absurd hrun hphase
  | @runTask l t rest =>
    have hpop : Keeps s (s.setTaskList l rest) := ⟨fun _ => rfl, fun _ h => h⟩
    exact hpop.trans keeps_runTask
  | poll => exact ⟨fun _ => rfl, fun _ h => h⟩
  | @dispatch l close c rest =>
    have hpop : Keeps s (s.setActive l rest) := ⟨fun _ => rfl, fun _ h => h⟩
    exact hpop.trans (keeps_handleEvent close)
  | @removeCb l c =>
    have hpop : Keeps s (s.setClosing l none) := ⟨fun _ => rfl, fun _ h => h⟩
    apply hpop.trans
    unfold onConnectionRemove runInLoop
    split
    · exact keeps_onConnectionRemoveInLoop
    · exact keeps_queueInLoop
  | forceClose => exact ⟨fun _ => rfl, fun _ h => h⟩
  | forceCloseLate => exact Keeps.refl s
  | @push i c =>
    have hpop : Keeps s { s with inFlight := s.inFlight.eraseIdx i } := ⟨fun _ => rfl, fun _ h => h⟩
    exact hpop.trans keeps_queueInLoop
  | drop => exact keeps_setConn rfl
  | stop hrun => exact absurd hrun hphase
  | join => exact ⟨fun _ => rfl, fun _ h => h⟩
  | sweep =>
    have h := keeps_stopConns (s := s) s.entries
    exact ⟨h.loop, h.destroyed⟩

end Keeps

/-! ## The table while the server stops -/

section Table

variable {s s' : TCPServer} {c : ConnId} {l : LoopId} {t : ServerTask} {i : Input}

theorem entries_congr (ht : s'.tcpConnList = s.tcpConnList) (hs : s'.size = s.size) :
    s'.entries = s.entries := by
  unfold entries
  rw [ht, hs]

theorem entries_check (f : Fault) (ok : Bool) : (s.check f ok).entries = s.entries := by
  unfold check
  split
  · rfl
  · exact entries_congr rfl rfl

theorem entries_queueInLoop : (s.queueInLoop l t).entries = s.entries := by
  unfold queueInLoop
  split
  · exact entries_congr rfl rfl
  · exact entries_check _ _

theorem ready_stopping (h : s.ready l = true) (hphase : s.phase.isStopping = true) : l ≠ 0 := by
  rintro rfl
  simp [ready, hphase] at h

/-- While `Stop` executes, the server's loop does nothing else, and no other loop has
business with the table. -/
theorem next_entries (hp : s.Placed) (h : s.Next i s') (hphase : s.phase.isStopping = true)
    (hi : i ≠ .sweep) : s'.entries = s.entries := by
  cases h with
  | accept hrun => simp [hrun, Phase.isStopping] at hphase
  | @runTask l t rest hready hact hq =>
    have hl := ready_stopping hready hphase
    have hpop : (s.setTaskList l rest).entries = s.entries := entries_congr rfl rfl
    cases t with
    | connectionEstablished c => exact entries_congr rfl rfl
    | forceCloseInLoop c =>
      simp only [runTask, forceCloseInLoop]
      split
      · exact hpop
      · exact entries_congr rfl rfl
    | onConnectionRemoveInLoop c =>
      have hhome := (hp.task l (.onConnectionRemoveInLoop c)
        (by rw [hq]; exact List.mem_cons_self)).2
      exact absurd hhome hl
    | connectionDestroy c => exact entries_congr rfl rfl
  | poll => exact entries_congr rfl rfl
  | @dispatch l close c rest hready hact =>
    have hpop : (s.setActive l rest).entries = s.entries := entries_congr rfl rfl
    have hcheck := (entries_check (s := s.setActive l rest) .deadChannel
      ((s.setActive l rest).conns c).alive).trans hpop
    unfold handleEvent
    dsimp only
    split
    · exact hcheck
    · exact hcheck
  | @removeCb l c hcl halive hphase' =>
    have hl : l ≠ 0 := hphase'.resolve_right (by simp [hphase])
    have hpop : (s.setClosing l none).entries = s.entries := entries_congr rfl rfl
    unfold onConnectionRemove runInLoop
    rw [if_neg hl]
    exact entries_queueInLoop.trans hpop
  | forceClose => exact entries_congr rfl rfl
  | forceCloseLate => rfl
  | push => exact entries_queueInLoop.trans (entries_congr rfl rfl)
  | drop => exact entries_congr rfl rfl
  | stop => exact entries_congr rfl rfl
  | join => exact entries_congr rfl rfl
  | sweep => exact absurd rfl hi

end Table

/-! ## The loop of `Stop` -/

section Sweep

variable {s : TCPServer} {c : ConnId}

theorem stopConn_loopAlive : (s.stopConn c).loopAlive = s.loopAlive := by
  rw [stopConn_eq]
  unfold runInLoop
  split
  · rfl
  · exact (steady_queueInLoop _ _ _).loopAlive

theorem stopConn_stopCalls :
    (s.stopConn c).stopCalls = s.stopCalls ++ [(c, s.loopAlive (s.conns c).loop)] := by
  rw [stopConn_eq]
  unfold runInLoop
  split
  · rfl
  · exact (steady_queueInLoop _ _ _).stopCalls

theorem stopConn_destroyed (h : (s.conns c).loop = 0) : (c, 0) ∈ (s.stopConn c).destroyed := by
  rw [stopConn_eq, h]
  unfold runInLoop
  rw [if_pos rfl]
  exact List.mem_append_right _ (List.mem_singleton.mpr rfl)

theorem stopConns_stopCalls (cs : List ConnId) :
    (cs.foldl stopConn s).stopCalls =
      s.stopCalls ++ cs.map fun c => (c, s.loopAlive (s.conns c).loop) := by
  induction cs generalizing s with
  | nil => simp
  | cons c cs ih =>
    rw [List.foldl_cons, ih, stopConn_stopCalls, stopConn_loopAlive]
    simp [keeps_stopConn.loop]

theorem stopConns_destroyed {cs : List ConnId} (hc : c ∈ cs) (hl : (s.conns c).loop = 0) :
    (c, 0) ∈ (cs.foldl stopConn s).destroyed := by
  induction cs generalizing s with
  | nil => cases hc
  | cons c' cs ih =>
    rcases List.mem_cons.mp hc with rfl | hmem
    · exact (keeps_stopConns cs).destroyed _ (stopConn_destroyed hl)
    · exact ih hmem (by rw [keeps_stopConn.loop]; exact hl)

end Sweep

/-! ## Runs -/

/-- Before `Stop`. -/
structure Unstopped (s : TCPServer) : Prop where
  placed : s.Placed
  alive : s.phase = .running → ∀ l, s.loopAlive l = true
  calls : s.phase = .running → s.stopCalls = []

/-- Since `Stop` was called in `s₀`. -/
structure Halting (s₀ s : TCPServer) : Prop where
  placed : s.Placed
  loop : ∀ c, (s.conns c).loop = (s₀.conns c).loop
  called : s.phase ≠ .running
  joining : ∀ k, s.phase = .stopping k →
    (∀ l, s.loopAlive l = decide (l = 0 ∨ k < l)) ∧ s.entries = s₀.entries ∧ s.stopCalls = []
  swept : s.phase = .stopped →
    s.stopCalls = s₀.entries.map (fun c => (c, decide ((s₀.conns c).loop = 0))) ∧
    ∀ c ∈ s₀.entries, (s₀.conns c).loop = 0 → (c, 0) ∈ s.destroyed

section Runs

variable {s₀ s s' : TCPServer} {i : Input}

theorem step_unstopped (h : s.Unstopped) (hn : s.Next i s') : s'.Unstopped := by
  refine ⟨step_placed h.placed hn, ?_, ?_⟩
  all_goals
    intro hrun
    by_cases hi : i = .stop ∨ i = .join ∨ i = .sweep
    · rcases hi with rfl | rfl | rfl <;> cases hn <;> cases hrun
    · simp only [not_or] at hi
      have hsteady := next_steady hn hi.1 hi.2.1 hi.2.2
      have hold := hsteady.phase.symm.trans hrun
      first
        | exact hsteady.loopAlive ▸ h.alive hold
        | exact hsteady.stopCalls.trans (h.calls hold)

/-- Joining the thread of the loop `k + 1` ends no other loop. -/
theorem alive_after_join {k l : Nat} (h : l ≠ k + 1) :
    decide (l = 0 ∨ k < l) = decide (l = 0 ∨ k + 1 < l) :=
  decide_eq_decide.mpr (by omega)

theorem alive_after_joins {n l : Nat} (h : l ≤ n) : decide (l = 0 ∨ n < l) = decide (l = 0) :=
  decide_eq_decide.mpr (by omega)

theorem Halting.step (h : Halting s₀ s) (hn : s.Next i s') : Halting s₀ s' := by
  have hkeeps := next_keeps hn h.called
  have hloop : ∀ c, (s'.conns c).loop = (s₀.conns c).loop :=
    fun c => (hkeeps.loop c).trans (h.loop c)
  by_cases hi : i = .stop ∨ i = .join ∨ i = .sweep
  · rcases hi with rfl | rfl | rfl
    · cases hn with
      | stop hrun => exact absurd hrun h.called
    · have hplaced := step_placed h.placed hn
      cases hn with
      | @join k hphase hk =>
        obtain ⟨halive, hentries, hcalls⟩ := h.joining k hphase
        refine ⟨hplaced, hloop, by simp, ?_, by simp⟩
        intro k' hk'
        obtain rfl : k + 1 = k' := by simpa using hk'
        refine ⟨?_, hentries, hcalls⟩
        intro l
        by_cases hl : l = k + 1
        · subst hl
          simp
        · simp only [Function.update_of_ne hl, halive]
          exact alive_after_join hl
    · have hplaced := step_placed h.placed hn
      cases hn with
      | sweep hphase =>
        obtain ⟨halive, hentries, hcalls⟩ := h.joining _ hphase
        refine ⟨hplaced, hloop, by simp, by simp, ?_⟩
        intro _
        constructor
        · change (s.entries.foldl stopConn s).stopCalls = _
          rw [stopConns_stopCalls, hcalls, hentries, List.nil_append]
          apply List.map_congr_left
          intro c hc
          rw [halive, ← h.loop, alive_after_joins (h.placed.loop c)]
        · intro c hc hl
          exact stopConns_destroyed (hentries ▸ hc) ((h.loop c).trans hl)
  · simp only [not_or] at hi
    have hsteady := next_steady hn hi.1 hi.2.1 hi.2.2
    refine ⟨step_placed h.placed hn, hloop, ?_, ?_, ?_⟩
    · rw [hsteady.phase]
      exact h.called
    · intro k hk
      rw [hsteady.phase] at hk
      obtain ⟨halive, hentries, hcalls⟩ := h.joining k hk
      rw [hsteady.loopAlive, hsteady.stopCalls]
      refine ⟨halive, ?_, hcalls⟩
      rw [← hentries]
      exact next_entries h.placed hn (by rw [hk]; rfl) hi.2.2
    · intro hs
      rw [hsteady.phase] at hs
      obtain ⟨hcalls, hdestroyed⟩ := h.swept hs
      rw [hsteady.stopCalls]
      exact ⟨hcalls, fun c hc hl => hkeeps.destroyed _ (hdestroyed c hc hl)⟩

theorem unstopped_init (loopNums size : Nat) : (init loopNums size).Unstopped :=
  ⟨placed_init loopNums size, fun _ _ => rfl, fun _ => rfl⟩

theorem run_halting {js : List Input} (h : s₀.Unstopped)
    (hrun : Machine.run TCPServer.step s₀ (.stop :: js) = some s) : Halting s₀ s := by
  obtain ⟨s₁, hstep, hrest⟩ := Machine.run_cons_iff.mp hrun
  have hstart : Halting s₀ s₁ := by
    have hn := step_next hstep
    have hplaced := step_placed h.placed hn
    cases hn with
    | stop hphase =>
      refine ⟨hplaced, fun _ => rfl, by simp, ?_, by simp⟩
      intro k hk
      obtain rfl : 0 = k := by simpa using hk
      refine ⟨?_, entries_congr rfl rfl, h.calls hphase⟩
      intro l
      rw [h.alive hphase]
      simp [Nat.eq_zero_or_pos]
  exact Machine.run_invariant (fun h hs => h.step (step_next hs)) hstart hrest

end Runs

/-- **`Stop` tears down the connections of its own loop, and no others.** `s₀` is the
state in which `Stop` is called, `s` any state after it has returned. Every connection
of the table has run `ConnectionDestroy` in its own loop and every call of `RunInLoop`
found a living loop if and only if no connection of the table belonged to the pool. -/
theorem stop_tears_down_iff {loopNums size : Nat} {is js : List Input} {s₀ s : TCPServer}
    (h₀ : Machine.run step (init loopNums size) is = some s₀)
    (hrun : Machine.run step s₀ (.stop :: js) = some s) (hstopped : s.phase = .stopped) :
    ((∀ c ∈ s₀.entries, (c, (s₀.conns c).loop) ∈ s.destroyed) ∧
      ∀ call ∈ s.stopCalls, call.2 = true) ↔
    ∀ c ∈ s₀.entries, (s₀.conns c).loop = 0 := by
  have hunstopped := Machine.run_invariant (fun h hs => step_unstopped h (step_next hs))
    (unstopped_init loopNums size) h₀
  obtain ⟨hcalls, hdestroyed⟩ := (run_halting hunstopped hrun).swept hstopped
  constructor
  · rintro ⟨-, hall⟩ c hc
    have hmem : (c, decide ((s₀.conns c).loop = 0)) ∈ s.stopCalls := by
      rw [hcalls]
      exact List.mem_map_of_mem hc
    simpa using hall _ hmem
  · intro hown
    constructor
    · intro c hc
      rw [hown c hc]
      exact hdestroyed c hc (hown c hc)
    · intro call hcall
      rw [hcalls] at hcall
      obtain ⟨c, hc, rfl⟩ := List.mem_map.mp hcall
      simpa using hown c hc

/-- Without a pool, `Stop` destroys the connection on the spot. -/
theorem stop_tears_down_iff_single_loop : ∃ s₀ s,
    Machine.run step (init 0 8) [.accept 5 0] = some s₀ ∧
    Machine.run step s₀ [.stop, .sweep] = some s ∧ s₀.entries = [0] ∧ s.phase = .stopped ∧
    (0, 0) ∈ s.destroyed ∧ ∀ call ∈ s.stopCalls, call.2 = true := by
  have hobs : (Machine.run step (init 0 8) [.accept 5 0]).map
      (fun s => (s.entries, (s.conns 0).loop)) = some ([0], 0) := by
    decide +kernel
  have hobs' : (Machine.run step (init 0 8) ([.accept 5 0] ++ [.stop, .sweep])).map
      (fun s => s.phase) = some .stopped := by
    decide +kernel
  obtain ⟨s₀, h₀, heq⟩ := Option.map_eq_some_iff.mp hobs
  obtain ⟨s, hrun, hphase⟩ := Option.map_eq_some_iff.mp hobs'
  obtain ⟨s₀', h₀', hrun⟩ := Machine.run_append_iff.mp hrun
  obtain rfl : s₀ = s₀' := Option.some.inj (h₀.symm.trans h₀')
  simp only [Prod.mk.injEq] at heq
  obtain ⟨hentries, hloop⟩ := heq
  obtain ⟨hdestroyed, hcalls⟩ := (stop_tears_down_iff h₀ hrun hphase).mpr (by simp [hentries, hloop])
  refine ⟨s₀, s, h₀, hrun, hentries, hphase, ?_, hcalls⟩
  have h := hdestroyed 0 (by simp [hentries])
  rwa [hloop] at h

/-- One thread in the pool and one established connection in its loop: the thread is
joined, `RunInLoop` is called on its `EventLoop`, and `ConnectionDestroy` never runs. -/
theorem stop_misses_pool_connection : ∃ s₀ s,
    Machine.run step (init 1 8) [.accept 5 1, .runTask 1] = some s₀ ∧
    Machine.run step s₀ [.stop, .join, .sweep] = some s ∧ s.phase = .stopped ∧
    s.taskList 0 = [] ∧ 0 ∈ s₀.entries ∧ (s₀.conns 0).loop = 1 ∧
    (0, 1) ∉ s.destroyed ∧ (0, false) ∈ s.stopCalls := by
  have hobs : (Machine.run step (init 1 8) [.accept 5 1, .runTask 1]).map
      (fun s => (s.entries, (s.conns 0).loop)) = some ([0], 1) := by
    decide +kernel
  have hobs' : (Machine.run step (init 1 8) ([.accept 5 1, .runTask 1] ++
      [.stop, .join, .sweep])).map (fun s => decide (s.phase = .stopped ∧ s.taskList 0 = [] ∧
        s.stopCalls = [(0, false)] ∧ s.destroyed = [])) = some true := by
    decide +kernel
  obtain ⟨s₀, h₀, heq⟩ := Option.map_eq_some_iff.mp hobs
  obtain ⟨s, hrun, heq'⟩ := Option.map_eq_some_iff.mp hobs'
  obtain ⟨s₀', h₀', hrun⟩ := Machine.run_append_iff.mp hrun
  obtain rfl : s₀ = s₀' := Option.some.inj (h₀.symm.trans h₀')
  simp only [Prod.mk.injEq] at heq
  obtain ⟨hentries, hloop⟩ := heq
  obtain ⟨hphase, htasks, hcalls, hdestroyed⟩ := of_decide_eq_true heq'
  exact ⟨s₀, s, h₀, hrun, hphase, htasks, by simp [hentries], hloop, by simp [hdestroyed],
    by simp [hcalls]⟩

end TCPServer

end LinuxNet
