import LinuxNet.Connector.Descriptors

/-!
# The deferred reset of the connector's channel

`RemoveAndResetChannel` takes the channel out of the poller and leaves `channel_` to a task.
Until that task has run, the connector may be DISCONNECTED with `channel_` still set, and an
attempt that begins there meets the `assert(!channel_)` of `Connecting`. The task itself does
no harm in any run: what it destroys has been removed.
-/

namespace LinuxNet

set_option autoImplicit false

open LinuxNet.Lib

namespace EventLoop

/-- The two asserts of `Connecting`. -/
def Assert.entering : Assert → Bool
  | .connecting | .connectingChannel => true
  | _ => false

/-- `Connecting` has been entered with `channel_` null only, and a `ResetChannel` that is
queued destroys a channel that has been removed from the poller. -/
structure ResetSafe (s : EventLoop) : Prop where
  entered : ∀ a ∈ s.asserts, a.entering = false
  removed : .resetChannel ∈ s.taskList →
    ∀ c, s.connector.channel = some c → s.status c = .kNew

/-- The attempt that the step makes: `StartInLoop` in state DISCONNECTED goes on to
`Connect` if `running_` is set, which `Start` and `Restart` see to themselves. -/
def attempt (s : EventLoop) : Input → Option Attempt
  | .act (.start r) => if s.connector.state = .disconnected then some r else none
  | .act (.removeConnection (some r)) => some r
  | .act (.fire r) =>
    if s.connector.state = .disconnected ∧ s.connector.running = true then some r else none
  | .task r =>
    if s.taskList.head? = some .startInLoop ∧ s.connector.state = .disconnected ∧
        s.connector.running = true then some r
    else none
  | _ => none

/-- The step makes an attempt that `connect` does not refuse, with a `ResetChannel` still in
the queue. -/
def AttemptsEarly (s : EventLoop) (i : Input) : Prop :=
  .resetChannel ∈ s.taskList ∧ ∃ r ∈ s.attempt i, ¬ r.refused

instance (s : EventLoop) (i : Input) : Decidable (AttemptsEarly s i) :=
  inferInstanceAs (Decidable (_ ∧ _))

/-! ## What the functions of the connector do to the asserts of `Connecting` -/

/-- The asserts of `Connecting` that have failed. -/
def entering (s : EventLoop) : List Assert := s.asserts.filter Assert.entering

/-- `StartInLoop` enters `Connecting` with `channel_` set. -/
def Collides (s : EventLoop) (r : Attempt) : Prop :=
  s.connector.state = .disconnected ∧ s.connector.running = true ∧ ¬ r.refused ∧
    s.connector.channel.isSome = true

section Functions

variable {s : EventLoop} {r : Attempt}

theorem entering_abort {a : Assert} (ha : a.entering = false) :
    (s.abort a).entering = s.entering := by
  simp [entering, abort, ha]

theorem entering_retry : s.retry.entering = s.entering := by
  unfold retry
  dsimp only
  split <;> rfl

theorem entering_removeAndResetChannel : s.removeAndResetChannel.entering = s.entering := by
  unfold removeAndResetChannel
  split
  · exact entering_abort rfl
  · rfl

theorem entering_stopInLoop : s.stopInLoop.entering = s.entering := by
  unfold stopInLoop
  dsimp only
  split
  · exact entering_removeAndResetChannel
  · rfl

theorem entering_handleError : s.handleError.entering = s.entering := by
  unfold handleError
  split
  · split
    · exact entering_abort rfl
    · exact entering_retry.trans entering_removeAndResetChannel
  · rfl

theorem entering_handleWrite (errCode : Nat) (selfConnect : Bool) :
    (s.handleWrite errCode selfConnect).entering = s.entering := by
  have hrel := entering_removeAndResetChannel (s := s.observe (.handleWrite s.connector.state))
  have hend := s.writeHandled errCode selfConnect
  generalize s.handleWrite errCode selfConnect = t at hend ⊢
  cases hend with
  | notConnecting => exact entering_abort rfl
  | nullChannel => exact entering_abort rfl
  | refused => exact entering_retry.trans hrel
  | accepted => exact hrel
  | stopped => exact hrel

theorem entering_handleEvent (c : ChanId) (errCode : Nat) (selfConnect : Bool) :
    (s.handleEvent c errCode selfConnect).entering = s.entering := by
  have hend := s.eventHandled c errCode selfConnect
  generalize s.handleEvent c errCode selfConnect = t at hend ⊢
  cases hend with
  | foreign => rfl
  | error => exact entering_handleError
  | write => exact entering_handleWrite errCode selfConnect
  | ignored => rfl

/-- An attempt without a collision. -/
theorem entering_startInLoop (h : ¬ s.Collides r) : (s.startInLoop r).entering = s.entering := by
  unfold startInLoop
  split
  · exact entering_abort rfl
  · rename_i hs
    have hs : s.connector.state = .disconnected := by simpa using hs
    split
    · rename_i hrun
      by_cases hr : r.refused
      · rw [connect_refused hr]
        exact entering_retry
      · have hc : s.connector.channel = none := by
          by_contra hc
          exact h ⟨hs, hrun, hr, Option.isSome_iff_ne_none.mpr hc⟩
        rw [connect_pending hr, connecting_eq (s := s.observe (.socket r.fd)) hs hc]
        rfl
    · rfl

/-- An attempt with one ends in the `assert`. -/
theorem asserts_startInLoop (h : s.Collides r) :
    .connectingChannel ∈ (s.startInLoop r).asserts := by
  obtain ⟨hs, hrun, hr, hc⟩ := h
  obtain ⟨c, hc⟩ := Option.isSome_iff_exists.mp hc
  have hstart : s.startInLoop r = s.connect r := by simp [startInLoop, hs, hrun]
  rw [hstart, connect_pending hr, connecting_abort (s := s.observe (.socket r.fd)) hs hc]
  exact List.mem_append_right _ (List.mem_singleton.mpr rfl)

end Functions

/-! ## Steps -/

section Steps

variable {s t : EventLoop} {i : Input}

/-- The queue tells whether `channel_` is set. -/
theorem Inv.reset_queued_iff (h : s.Inv) (hs : s.connector.state ≠ .connecting) :
    .resetChannel ∈ s.taskList ↔ s.connector.channel.isSome = true := by
  have hres := h.resets
  rw [← List.count_pos_iff, hres]
  by_cases hc : s.connector.channel.isSome = true
  · simp [hc, hs]
  · simp [hc]

theorem Inv.reset_removed (h : s.Inv) (hq : .resetChannel ∈ s.taskList) {c : ChanId}
    (hc : s.connector.channel = some c) : s.status c = .kNew := by
  by_contra hst
  have hs := (h.own c (h.channel c hc) hst).1
  have hres := h.resets
  have hpos := List.count_pos_iff.mpr hq
  rw [hres] at hpos
  simp [hs] at hpos

/-- The state in which `StartInLoop` is called by the step, if it is. -/
def startState (s : EventLoop) : Input → Option (EventLoop × Attempt)
  | .act (.start r) => some (s.setRunning true, r)
  | .act (.removeConnection (some r)) => some (s.restarted, r)
  | .act (.fire r) => some ({ s with expired := s.expired.tail }, r)
  | .task r =>
    if s.taskList.head? = some .startInLoop then
      some ({ s with taskList := s.taskList.tail }, r)
    else none
  | _ => none

theorem startState_entering {q : EventLoop} {r : Attempt} (hq : s.startState i = some (q, r)) :
    q.entering = s.entering := by
  unfold startState at hq
  split at hq
  · cases hq; rfl
  · cases hq; rfl
  · cases hq; rfl
  · split at hq
    · cases hq; rfl
    · cases hq
  · cases hq

theorem next_startState {q : EventLoop} {r : Attempt} (hn : s.Next i t)
    (hq : s.startState i = some (q, r)) : t = q.startInLoop r := by
  cases hn with
  | start => cases hq; rfl
  | restart => cases hq; rfl
  | fire hexp _ =>
    simp only [startState, hexp, List.tail_cons, Option.some.injEq, Prod.mk.injEq] at hq
    obtain ⟨rfl, rfl⟩ := hq
    rfl
  | @task r' t rest hact hr htasks =>
    simp only [startState, htasks, List.head?_cons, List.tail_cons] at hq
    split at hq
    · rename_i ht
      cases ht
      cases hq
      rfl
    · cases hq
  | _ => cases hq

theorem next_entering (hn : s.Next i t) (hq : s.startState i = none) : t.entering = s.entering := by
  cases hn with
  | dispatch => exact entering_handleEvent _ _ _
  | stop => exact entering_stopInLoop
  | @task r' t rest hact hr htasks =>
    cases t with
    | startInLoop => simp [startState, htasks] at hq
    | stopInLoop => exact entering_stopInLoop
    | resetChannel => rfl
  | start | restart | fire => cases hq
  | _ => rfl

/-- The steps that make an attempt early are those that collide. -/
theorem attemptsEarly_iff (h : s.Inv) (hn : s.Next i t) :
    AttemptsEarly s i ↔ ∃ q r, s.startState i = some (q, r) ∧ q.Collides r := by
  have hqueue : s.connector.state = .disconnected →
      (.resetChannel ∈ s.taskList ↔ s.connector.channel.isSome = true) :=
    fun hs => h.reset_queued_iff (by simp [hs])
  cases hn with
  | @start r =>
    by_cases hs : s.connector.state = .disconnected
    · simp [AttemptsEarly, attempt, startState, Collides, setRunning, hs, hqueue hs, and_comm]
    · simp [AttemptsEarly, attempt, startState, Collides, setRunning, hs]
  | @restart r hc hr =>
    have hq := h.reset_queued_iff (by simp [h.client hc])
    simp [AttemptsEarly, attempt, startState, Collides, restarted, hq, and_comm]
  | @fire r t rest hexp hr =>
    by_cases hs : s.connector.state = .disconnected
    · by_cases hrun : s.connector.running = true
      · simp [AttemptsEarly, attempt, startState, Collides, hs, hrun, hqueue hs, and_comm]
      · simp [AttemptsEarly, attempt, startState, Collides, hs, hrun]
    · simp [AttemptsEarly, attempt, startState, Collides, hs]
  | @task r t rest hact hr htasks =>
    by_cases ht : s.taskList.head? = some .startInLoop
    · by_cases hs : s.connector.state = .disconnected
      · by_cases hrun : s.connector.running = true
        · simp [AttemptsEarly, attempt, startState, Collides, ht, hs, hrun, hqueue hs, and_comm]
        · simp [AttemptsEarly, attempt, startState, Collides, ht, hs, hrun]
      · simp [AttemptsEarly, attempt, startState, Collides, ht, hs]
    · simp [AttemptsEarly, attempt, startState, ht]
  | _ => simp [AttemptsEarly, attempt, startState]

theorem step_entered (h : s.Inv) (hn : s.Next i t) (hi : ¬ AttemptsEarly s i) :
    t.entering = s.entering := by
  rw [attemptsEarly_iff h hn] at hi
  cases hq : s.startState i with
  | none => exact next_entering hn hq
  | some qr =>
    obtain ⟨q, r⟩ := qr
    have hq' : q.entering = s.entering := startState_entering hq
    rw [next_startState hn hq, entering_startInLoop fun hcol => hi ⟨q, r, hq, hcol⟩, hq']

theorem step_collides (h : s.Inv) (hn : s.Next i t) (hi : AttemptsEarly s i) :
    .connectingChannel ∈ t.asserts := by
  obtain ⟨q, r, hq, hcol⟩ := (attemptsEarly_iff h hn).mp hi
  rw [next_startState hn hq]
  exact asserts_startInLoop hcol

theorem Inv.resetSafe (h : s.Inv) (he : s.entering = []) : s.ResetSafe where
  entered a ha := by
    by_contra hent
    have hmem : a ∈ s.entering := List.mem_filter.mpr ⟨ha, by simpa using hent⟩
    rw [he] at hmem
    cases hmem
  removed hq _ hc := h.reset_removed hq hc

end Steps

/-- **An attempt meets no channel of the one before it, unless it is made before the queued
reset.** In every run of the loop, `Connecting` is entered with `channel_` null and every queued
`ResetChannel` destroys a channel that has been removed from the poller, in all states of the
run, if and only if no step makes an attempt, not refused by `connect`, while a `ResetChannel`
is in the queue. -/
theorem reset_safe_iff (p : Epoller) (hp : p.Registry) (is : List Input) (s : EventLoop)
    (hrun : Machine.run step (EventLoop.new p) is = some s) :
    Machine.Throughout step ResetSafe (EventLoop.new p) is ↔
      Machine.Along step (fun s i => ¬ AttemptsEarly s i) (EventLoop.new p) is := by
  have hkeep : ∀ {s i t}, s.Inv ∧ s.entering = [] → ¬ AttemptsEarly s i → step s i = some t →
      t.Inv ∧ t.entering = [] := by
    intro s i t h hi hst
    have hn := step_next hst
    exact ⟨step_inv h.1 hn, (step_entered h.1 hn hi).trans h.2⟩
  have hbreak : ∀ {s i t}, s.Inv ∧ s.entering = [] → ¬ ¬ AttemptsEarly s i → step s i = some t →
      ¬ t.ResetSafe := by
    intro s i t h hi hst hsafe
    have hmem := step_collides h.1 (step_next hst) (not_not.mp hi)
    exact absurd (hsafe.entered _ hmem) (by decide)
  exact Machine.throughout_iff_along (P := fun s => s.Inv ∧ s.entering = []) hkeep
    (fun h => h.1.resetSafe h.2) hbreak ⟨inv_new hp, rfl⟩ hrun

/-- `Stop` during an attempt, and a `Start` behind the task that resets the channel: the
second attempt is under way. -/
theorem reset_safe_iff_restarted : ∃ s,
    Machine.run step (EventLoop.new (Epoller.new 8 (· + 1)))
      [.userTask, .act (.start ⟨2, EINPROGRESS, 1⟩), .act .stop, .ret, .task ⟨3, 0, 2⟩,
       .userTask, .act (.start ⟨3, EINPROGRESS, 2⟩), .ret] = some s ∧
    s.connector.state = .connecting ∧ s.connector.channel = some 2 ∧
    Machine.Throughout step ResetSafe (EventLoop.new (Epoller.new 8 (· + 1)))
      [.userTask, .act (.start ⟨2, EINPROGRESS, 1⟩), .act .stop, .ret, .task ⟨3, 0, 2⟩,
       .userTask, .act (.start ⟨3, EINPROGRESS, 2⟩), .ret] := by
  have hobs : (Machine.run step (EventLoop.new (Epoller.new 8 (· + 1)))
      [.userTask, .act (.start ⟨2, EINPROGRESS, 1⟩), .act .stop, .ret, .task ⟨3, 0, 2⟩,
       .userTask, .act (.start ⟨3, EINPROGRESS, 2⟩), .ret]).map
      (fun s => decide (s.connector.state = .connecting ∧ s.connector.channel = some 2)) =
        some true := by
    decide +kernel
  obtain ⟨s, hrun, heq⟩ := Option.map_eq_some_iff.mp hobs
  obtain ⟨hstate, hchannel⟩ := of_decide_eq_true heq
  refine ⟨s, hrun, hstate, hchannel, ?_⟩
  exact (reset_safe_iff _ (Epoller.registry_new _ _) _ s hrun).mpr (by decide +kernel)

/-- The `Start` follows the `Stop` at once: `Connecting` is entered with the channel of the
first attempt still in place, and the process ends. -/
theorem reset_meets_attempt : ∃ s,
    Machine.run step (EventLoop.new (Epoller.new 8 (· + 1)))
      [.userTask, .act (.start ⟨2, EINPROGRESS, 1⟩), .act .stop,
       .act (.start ⟨3, EINPROGRESS, 2⟩)] = some s ∧
    s.asserts = [.connectingChannel] ∧ s.connector.channel = some 1 ∧ ¬ s.ResetSafe := by
  have hobs : (Machine.run step (EventLoop.new (Epoller.new 8 (· + 1)))
      [.userTask, .act (.start ⟨2, EINPROGRESS, 1⟩), .act .stop,
       .act (.start ⟨3, EINPROGRESS, 2⟩)]).map
      (fun s => decide (s.asserts = [.connectingChannel] ∧ s.connector.channel = some 1)) =
        some true := by
    decide +kernel
  obtain ⟨s, hrun, heq⟩ := Option.map_eq_some_iff.mp hobs
  obtain ⟨hasserts, hchannel⟩ := of_decide_eq_true heq
  refine ⟨s, hrun, hasserts, hchannel, fun hsafe => ?_⟩
  exact absurd (hsafe.entered .connectingChannel (by simp [hasserts])) (by decide)

end EventLoop

end LinuxNet
