import LinuxNet.Connector.Client

/-!
# A stopped connector

`Stop` clears `running_` and leaves the state CONNECTING, if the connector was in it. What
may still come from before is an event of the removed channel, a retry timer that has
expired in the batch `Stop` was called in, and tasks of the queue. None of them gets past
the tests of `running_` and of the state.
-/

namespace LinuxNet

set_option autoImplicit false

open LinuxNet.Lib

namespace EventLoop

/-- The step executes `StopInLoop`, and no `Start` has come behind the `Stop`. -/
def Stops (s : EventLoop) : Input → Prop
  | .act .stop => True
  | .task _ => s.taskList.head? = some .stopInLoop ∧ s.connector.running = false
  | _ => False

/-- `Start` or `Restart` is called. -/
def Input.starts : Input → Bool
  | .act (.start _) | .act (.removeConnection (some _)) | .startElsewhere => true
  | _ => false

/-- A socket is created, `new_conn_cb_` is called or a retry timer is scheduled. -/
def Event.isWork : Event → Bool
  | .socket _ | .newConn _ | .timerAfter _ => true
  | _ => false

/-- `running_` is false, and no attempt is under way. -/
structure Still (s : EventLoop) : Prop where
  running : s.connector.running = false
  state : s.connector.state ≠ .connecting

/-- The connector is left as it is, and does no work. -/
structure Rests (s t : EventLoop) : Prop where
  running : t.connector.running = s.connector.running
  state : t.connector.state = s.connector.state
  log : ∃ l, t.log = s.log ++ l ∧ ∀ e ∈ l, e.isWork = false

section Functions

variable {s t u : EventLoop} {r : Attempt}

theorem rests_of_eq (hrun : t.connector.running = s.connector.running)
    (hs : t.connector.state = s.connector.state) (hl : t.log = s.log) : Rests s t :=
  ⟨hrun, hs, [], by rw [hl, List.append_nil], by simp⟩

theorem Rests.trans (h : Rests s t) (h' : Rests t u) : Rests s u := by
  obtain ⟨l, hl, hwork⟩ := h.log
  obtain ⟨l', hl', hwork'⟩ := h'.log
  refine ⟨h'.running.trans h.running, h'.state.trans h.state, l ++ l', ?_, ?_⟩
  · rw [hl', hl, List.append_assoc]
  · exact List.forall_mem_append.mpr ⟨hwork, hwork'⟩

theorem rests_observe {e : Event} (he : e.isWork = false) : Rests s (s.observe e) :=
  ⟨rfl, rfl, [e], rfl, by simpa using he⟩

theorem Still.rests (h : s.Still) (hr : Rests s t) : t.Still :=
  ⟨hr.running.trans h.running, by rw [hr.state]; exact h.state⟩

/-- A retry timer, or a `StartInLoop` from before. -/
theorem Still.startInLoop (h : s.Still) : Rests s (s.startInLoop r) := by
  unfold EventLoop.startInLoop
  split
  · exact rests_of_eq rfl rfl rfl
  · rw [if_neg (by simp [h.running])]
    exact rests_of_eq rfl rfl rfl

theorem Still.stopInLoop (h : s.Still) : Rests s s.stopInLoop := by
  unfold EventLoop.stopInLoop
  dsimp only
  rw [if_neg h.state]
  exact rests_of_eq rfl rfl rfl

theorem Still.handleError (h : s.Still) : Rests s s.handleError := by
  unfold EventLoop.handleError
  rw [if_neg h.state]
  exact rests_of_eq rfl rfl rfl

theorem Still.handleWrite (h : s.Still) (errCode : Nat) (selfConnect : Bool) :
    Rests s (s.handleWrite errCode selfConnect) := by
  have hobs : Rests s (s.observe (.handleWrite s.connector.state)) := rests_observe rfl
  unfold EventLoop.handleWrite
  dsimp only
  rw [if_pos (by exact h.state)]
  exact hobs.trans (rests_of_eq rfl rfl rfl)

/-- An event of the removed channel, or of any other. -/
theorem Still.handleEvent (h : s.Still) (c : ChanId) (errCode : Nat) (selfConnect : Bool) :
    Rests s (s.handleEvent c errCode selfConnect) := by
  have hobs : Rests s (s.observe (.handleEvent c (s.poller.chans c).status)) := rests_observe rfl
  have hstill := h.rests hobs
  have hend := s.eventHandled c errCode selfConnect
  generalize s.handleEvent c errCode selfConnect = t at hend ⊢
  cases hend with
  | foreign => exact hobs.trans (rests_of_eq rfl rfl rfl)
  | error => exact hobs.trans hstill.handleError
  | write => exact hobs.trans (hstill.handleWrite errCode selfConnect)
  | ignored => exact hobs

theorem Still.runTask (h : s.Still) (t : ConnectorTask) : Rests s (s.runTask r t) := by
  cases t with
  | startInLoop => exact h.startInLoop
  | stopInLoop => exact h.stopInLoop
  | resetChannel => exact rests_of_eq rfl rfl rfl

/-- `StopInLoop` itself. -/
theorem still_stopInLoop (h : s.connector.running = false) : s.stopInLoop.Still := by
  unfold EventLoop.stopInLoop
  dsimp only
  split
  · rw [setState_removeAndResetChannel]
    refine ⟨?_, by simp [EventLoop.setState]⟩
    change (removeAndResetChannel _).connector.running = false
    rw [(removeAndResetChannel_running _).1]
    exact h
  · rename_i hs
    exact ⟨h, hs⟩

end Functions

section Steps

variable {s t : EventLoop} {i : Input}

theorem still_of_stops (hi : Stops s i) (hn : s.Next i t) : t.Still := by
  cases hn with
  | stop => exact still_stopInLoop rfl
  | @task r task rest hact hr hq =>
    obtain ⟨hhead, hrun⟩ := hi
    rw [hq, List.head?_cons, Option.some.injEq] at hhead
    subst hhead
    exact still_stopInLoop hrun
  | _ => exact absurd hi id

/-- Whatever the loop does next, unless it is a `Start` or a `Restart`. -/
theorem step_rests (h : s.Still) (hi : i.starts = false) (hn : s.Next i t) : Rests s t := by
  cases hn with
  | @dispatch errCode selfConnect c rest hact =>
    have hpop : Rests s { s with activeChannels := rest } := rests_of_eq rfl rfl rfl
    exact hpop.trans ((h.rests hpop).handleEvent c errCode selfConnect)
  | stop =>
    have hset : Rests s (s.setRunning false) := rests_of_eq h.running.symm rfl rfl
    exact hset.trans (h.rests hset).stopInLoop
  | @fire r t rest hexp hr =>
    have hpop : Rests s { s with expired := rest } := rests_of_eq rfl rfl rfl
    exact hpop.trans (h.rests hpop).startInLoop
  | @task r task rest hact hr hq =>
    have hpop : Rests s { s with taskList := rest } := rests_of_eq rfl rfl rfl
    exact hpop.trans ((h.rests hpop).runTask task)
  | stopElsewhere => exact rests_of_eq h.running.symm rfl rfl
  | start | restart | startElsewhere => cases hi
  | _ => exact rests_of_eq rfl rfl rfl

theorem run_rests {is : List Input} (h : s.Still) (hi : ∀ i ∈ is, i.starts = false)
    (hrun : Machine.run step s is = some t) : Rests s t := by
  have hstep : ∀ {u i v}, u.Still ∧ Rests s u → i.starts = false → step u i = some v →
      v.Still ∧ Rests s v := by
    intro u i v hu hi hst
    have hrest := step_rests hu.1 hi (step_next hst)
    exact ⟨hu.1.rests hrest, hu.2.trans hrest⟩
  exact (Machine.run_invariant_of_mem (P := fun u => u.Still ∧ Rests s u) hstep
    ⟨h, rests_of_eq rfl rfl rfl⟩ hi hrun).2

end Steps

/-- **`Stop` silences the connector.** From a step that executes `StopInLoop` on, until the
next `Start` or `Restart`, no socket is created, `new_conn_cb_` is not called and no retry
timer is scheduled, whatever events, expired timers and queued tasks are processed. -/
theorem stop_silences (s q t : EventLoop) (i : Input) (js : List Input) (hi : Stops s i)
    (hstop : step s i = some q) (hjs : ∀ j ∈ js, j.starts = false)
    (hrun : Machine.run step q js = some t) :
    ∃ l, t.log = q.log ++ l ∧ ∀ e ∈ l, e.isWork = false :=
  (run_rests (still_of_stops hi (step_next hstop)) hjs hrun).log

/-- A refused attempt schedules a retry timer, which expires in the batch in which another
timer's callback calls `Stop`; it is called behind that. -/
theorem stop_silences_expired : ∃ s q t,
    Machine.run step (EventLoop.new (Epoller.new 8 (· + 1)))
      [.userTask, .act (.start ⟨2, 111, 1⟩), .ret, .userTask, .act (.expire [1])] = some s ∧
    step s (.act .stop) = some q ∧ q.expired = [1] ∧
    Machine.run step q [.act (.fire ⟨3, EINPROGRESS, 2⟩), .ret] = some t ∧
    ∃ l, t.log = q.log ++ l ∧ ∀ e ∈ l, e.isWork = false := by
  have hobs : ((Machine.run step (EventLoop.new (Epoller.new 8 (· + 1)))
      [.userTask, .act (.start ⟨2, 111, 1⟩), .ret, .userTask, .act (.expire [1])]).bind
      fun s => (step s (.act .stop)).bind fun q =>
        (Machine.run step q [.act (.fire ⟨3, EINPROGRESS, 2⟩), .ret]).map fun _ => q.expired) =
      some [1] := by
    decide +kernel
  obtain ⟨s, hs, hobs⟩ := Option.bind_eq_some_iff.mp hobs
  obtain ⟨q, hq, hobs⟩ := Option.bind_eq_some_iff.mp hobs
  obtain ⟨t, ht, hexp⟩ := Option.map_eq_some_iff.mp hobs
  refine ⟨s, q, t, hs, hq, hexp, ht, ?_⟩
  exact stop_silences s q t (.act .stop) _ trivial hq (by decide) ht

end EventLoop

end LinuxNet
