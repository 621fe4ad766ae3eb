import LinuxNet.Connector.Client
import LinuxNet.Connector.Descriptors

/-!
# A running connector does not give up

As long as `running_` is set, a connector that is not connected has an attempt under way, with a
channel on which the poller listens for the outcome, or a retry timer, or a `StartInLoop` in the
queue of its loop.

`Start` in the thread of the loop is executed at once, so it can overtake the `StopInLoop` of a
`Stop` that another thread has called before it. That task then ends the attempt of the later
`Start`, with `running_` set and nothing left to begin another one.
-/

namespace LinuxNet

set_option autoImplicit false

open LinuxNet.Lib

/-- `StartInLoop` or `StopInLoop`. -/
def ConnectorTask.isCall : ConnectorTask → Bool
  | .startInLoop | .stopInLoop => true
  | .resetChannel => false

namespace EventLoop

/-- Of the calls in the queue the last one is `StartInLoop`. -/
def StartsLast (tasks : List ConnectorTask) : Prop :=
  (tasks.filter ConnectorTask.isCall).getLast? = some .startInLoop

/-- `Start` or `Restart` is called in the loop before a `StopInLoop` of the queue. -/
def Overtakes (s : EventLoop) : Input → Prop
  | .act (.start _) | .act (.removeConnection (some _)) => .stopInLoop ∈ s.taskList
  | _ => False

instance (s : EventLoop) : DecidablePred s.Overtakes := fun i =>
  match i with
  | .act (.start _) | .act (.removeConnection (some _)) =>
    inferInstanceAs (Decidable (.stopInLoop ∈ s.taskList))
  | .act (.removeConnection none) | .act (.op _ _) | .act .stop | .act (.expire _)
  | .act (.fire _) | .poll _ | .dispatch _ _ | .ret | .task _ | .userTask | .startElsewhere
  | .stopElsewhere => inferInstanceAs (Decidable False)

/-- What a running connector is at. -/
inductive Trying (s : EventLoop) : Prop where
  | connected (hs : s.connector.state = .connected)
  /-- The outcome of the attempt will be reported. -/
  | attempt {c : ChanId} (hs : s.connector.state = .connecting)
      (hc : s.connector.channel = some c)
      (hk : s.poller.kernel (s.poller.chans c).fd = some (Channel.kWriteEvent, c))
  | timer (hs : s.connector.state = .disconnected)
      (ht : s.connector.timerId ∈ s.timers ∨ s.expired ≠ [])
  | task (hs : s.connector.state = .disconnected) (ht : .startInLoop ∈ s.taskList)

/-- No `StopInLoop` comes behind the last `Start`. -/
def Ordered (s : EventLoop) : Prop :=
  s.connector.running = true → .stopInLoop ∈ s.taskList → StartsLast s.taskList

structure Persists (s : EventLoop) : Prop where
  ordered : s.Ordered
  tries : s.connector.running = true → s.connector.state = .disconnected →
    s.connector.timerId ∈ s.timers ∨ s.expired ≠ [] ∨ StartsLast s.taskList
  listens : s.connector.state = .connecting → ∃ c, s.connector.channel = some c ∧
    (s.poller.chans c).events = Channel.kWriteEvent ∧ (s.poller.chans c).status = .kAdded

/-! ## The queue -/

section Queue

variable {tasks : List ConnectorTask} {t : ConnectorTask}

theorem StartsLast.mem (h : StartsLast tasks) : .startInLoop ∈ tasks :=
  (List.mem_filter.mp (List.mem_of_getLast? h)).1

theorem startsLast_start (tasks : List ConnectorTask) : StartsLast (tasks ++ [.startInLoop]) := by
  rw [StartsLast, List.filter_append]
  exact List.getLast?_concat

theorem startsLast_reset : StartsLast (tasks ++ [.resetChannel]) ↔ StartsLast tasks := by
  rw [StartsLast, List.filter_append]
  have hnone : [ConnectorTask.resetChannel].filter ConnectorTask.isCall = [] := rfl
  exact iff_of_eq (by rw [hnone, List.append_nil, StartsLast])

/-- The last call is still there when the first task has been taken, unless it was that. -/
theorem StartsLast.tail (h : StartsLast (t :: tasks)) :
    StartsLast tasks ∨ t = .startInLoop ∧ .stopInLoop ∉ tasks := by
  cases hrest : tasks.filter ConnectorTask.isCall with
  | nil =>
    cases t with
    | startInLoop =>
      refine .inr ⟨rfl, fun hin => ?_⟩
      have hcall : ConnectorTask.stopInLoop ∈ tasks.filter ConnectorTask.isCall :=
        List.mem_filter.mpr ⟨hin, rfl⟩
      rw [hrest] at hcall
      cases hcall
    | stopInLoop =>
      rw [StartsLast, List.filter_cons_of_pos rfl, hrest] at h
      cases h
    | resetChannel =>
      rw [StartsLast, List.filter_cons_of_neg (by decide), hrest] at h
      cases h
  | cons u rest =>
    left
    rw [StartsLast] at h ⊢
    cases hcall : t.isCall with
    | true =>
      rw [List.filter_cons_of_pos hcall, hrest, List.getLast?_cons_cons] at h
      rw [hrest]
      exact h
    | false =>
      rw [List.filter_cons_of_neg (by simp [hcall])] at h
      exact h

end Queue

/-! ## The functions of the connector -/

section Functions

variable {s : EventLoop} {r : Attempt}

theorem Ordered.removeAndResetChannel (h : s.Ordered) : s.removeAndResetChannel.Ordered := by
  unfold EventLoop.removeAndResetChannel
  split
  · exact h
  · intro hrun hstop
    have hstop : ConnectorTask.stopInLoop ∈ s.taskList ++ [.resetChannel] := hstop
    rw [List.mem_append, List.mem_singleton, or_iff_left (by decide)] at hstop
    exact startsLast_reset.mpr (h hrun hstop)

/-- A connector that is connected waits for nothing. -/
theorem Ordered.persists (h : s.Ordered) (hs : s.connector.state = .connected) : s.Persists := by
  refine ⟨h, fun _ hd => ?_, fun hc => ?_⟩
  · rw [hs] at hd
    cases hd
  · rw [hs] at hc
    cases hc

/-- `Retry` schedules a timer if the connector runs. -/
theorem Ordered.retry (h : s.Ordered) : s.retry.Persists := by
  unfold EventLoop.retry
  dsimp only
  split
  · refine ⟨h, fun _ _ => .inl ?_, fun hc => (by cases hc)⟩
    exact List.mem_append_right _ (List.mem_singleton.mpr rfl)
  · rename_i hrun
    exact ⟨h, fun hr => absurd hr hrun, fun hc => (by cases hc)⟩

theorem Persists.handleError (h : s.Persists) : s.handleError.Persists := by
  unfold EventLoop.handleError
  split
  · split
    · exact { h with }
    · have hreset := h.ordered.removeAndResetChannel
      exact Ordered.retry hreset
  · exact h

theorem Persists.handleWrite (h : s.Persists) (errCode : Nat) (selfConnect : Bool) :
    (s.handleWrite errCode selfConnect).Persists := by
  have hobs : (s.observe (.handleWrite s.connector.state)).Ordered := h.ordered
  have hreset := hobs.removeAndResetChannel
  have hend := s.writeHandled errCode selfConnect
  generalize s.handleWrite errCode selfConnect = t at hend ⊢
  cases hend with
  | notConnecting | nullChannel => exact { h with }
  | refused => exact Ordered.retry hreset
  | accepted => exact Ordered.persists hreset rfl
  | stopped => exact Ordered.persists hreset rfl

theorem Persists.handleEvent (h : s.Persists) (c : ChanId) (errCode : Nat) (selfConnect : Bool) :
    (s.handleEvent c errCode selfConnect).Persists := by
  have hobs : (s.observe (.handleEvent c (s.poller.chans c).status)).Persists := { h with }
  have hend := s.eventHandled c errCode selfConnect
  generalize s.handleEvent c errCode selfConnect = t at hend ⊢
  cases hend with
  | foreign => exact { hobs with }
  | error => exact hobs.handleError
  | write => exact hobs.handleWrite errCode selfConnect
  | ignored => exact hobs

/-- `Connecting`, if no check fails. -/
theorem Ordered.connecting (h : s.Ordered) (hs : s.connector.state = .disconnected)
    (hreg : s.poller.Registry) (hr : s.Fresh r)
    (hlive : (s.connecting r.fd r.channel).asserts = []) :
    (s.connecting r.fd r.channel).Persists := by
  cases hc : s.connector.channel with
  | some c =>
    rw [connecting_abort hs hc] at hlive
    exact absurd hlive (abort_ne s _)
  | none =>
    have hcreate := create_spec hreg hr.status hr.free hr.pos hr.lt
    rw [connecting_eq hs hc]
    refine ⟨h, fun _ hd => (by cases hd), fun _ => ⟨r.channel, rfl, ?_⟩⟩
    have hself : ((s.poller.setChannel r.channel (Channel.new r.fd)).exec r.channel true
        .enableWriting).chans r.channel =
          { Channel.new r.fd with events := Channel.kWriteEvent, status := .kAdded } := by
      rw [hcreate.chans, Function.update_self]
    constructor
    · show (((s.poller.setChannel r.channel (Channel.new r.fd)).exec r.channel true
        .enableWriting).chans r.channel).events = _
      rw [hself]
    · show (((s.poller.setChannel r.channel (Channel.new r.fd)).exec r.channel true
        .enableWriting).chans r.channel).status = _
      rw [hself]

/-- `StartInLoop`, if no check fails. -/
theorem Ordered.startInLoop (h : s.Ordered) (hreg : s.poller.Registry) (hr : s.Fresh r)
    (hlive : (s.startInLoop r).asserts = []) : (s.startInLoop r).Persists := by
  unfold EventLoop.startInLoop at hlive ⊢
  split at hlive
  · exact absurd hlive (abort_ne s _)
  · rename_i hs
    have hs : s.connector.state = .disconnected := not_not.mp hs
    rw [if_neg (by simp [hs])]
    split at hlive
    · rename_i hrun
      rw [if_pos hrun]
      unfold EventLoop.connect at hlive ⊢
      dsimp only at hlive ⊢
      have hobs : (s.observe (.socket r.fd)).Ordered := h
      split at hlive
      · rename_i hpend
        rw [if_pos hpend]
        exact hobs.connecting hs hreg { hr with } hlive
      · rename_i hpend
        rw [if_neg hpend]
        exact Ordered.retry hobs
    · rename_i hrun
      rw [if_neg hrun]
      refine ⟨h, fun hr => absurd hr hrun, fun hc => ?_⟩
      rw [hs] at hc
      cases hc

/-- `StopInLoop`, if a `StartInLoop` comes behind it or the connector does not run. -/
theorem persists_stopInLoop (hlast : s.connector.running = true → StartsLast s.taskList) :
    s.stopInLoop.Persists := by
  have hordered : Ordered { s with timers := s.timers.erase s.connector.timerId } :=
    fun hrun _ => hlast hrun
  unfold EventLoop.stopInLoop
  dsimp only
  split
  · have hreset := Ordered.removeAndResetChannel
      (s := setState { s with timers := s.timers.erase s.connector.timerId } .disconnected) hordered
    have hsame := connector_removeAndResetChannel
      (setState { s with timers := s.timers.erase s.connector.timerId } .disconnected)
    refine ⟨hreset, fun hrun _ => ?_, fun hc => ?_⟩
    · rw [hsame] at hrun
      right
      right
      unfold EventLoop.removeAndResetChannel
      split
      · exact hlast hrun
      · exact startsLast_reset.mpr (hlast hrun)
    · rw [hsame] at hc
      cases hc
  · rename_i hs
    exact ⟨hordered, fun hrun _ => .inr (.inr (hlast hrun)), fun hc => absurd hc hs⟩

end Functions

/-! ## Runs -/

section Steps

variable {s t : EventLoop} {i : Input}

/-- What other channels are asked for does not concern the channel of the connector. -/
theorem Persists.op (h : s.Persists) (hinv : s.Inv) {c : ChanId} {op : Epoller.Op}
    (hmade : c ∉ s.made) (hu : s.poller.usable c = true) : (s.exec c op).Persists := by
  have hexec := Epoller.exec_spec hinv.registry (Epoller.admissible_of_usable hinv.registry hu op)
  refine ⟨h.ordered, h.tries, fun hs => ?_⟩
  obtain ⟨c', hc, hev, hst⟩ := h.listens hs
  have hne : c' ≠ c := fun heq => hmade (heq ▸ hinv.channel c' hc)
  have hsame : (s.exec c op).poller.chans c' = s.poller.chans c' := by
    show (s.poller.exec c true op).chans c' = _
    rw [hexec.chans, Function.update_of_ne hne]
  exact ⟨c', hc, by rw [hsame]; exact hev, by rw [hsame]; exact hst⟩

theorem setRevents_fold_events (events : List (ChanId × EventMask)) (p : Epoller) (c : ChanId) :
    ((events.foldl setRevents p).chans c).events = (p.chans c).events := by
  induction events generalizing p with
  | nil => rfl
  | cons e events ih =>
    rw [List.foldl_cons, ih]
    unfold setRevents Epoller.setChannel
    by_cases hc : c = e.1 <;> simp [hc]

/-- **One step**, if no check fails in it and it does not overtake a `StopInLoop`. -/
theorem step_persists (h : s.Persists) (hinv : s.Inv) (hi : ¬ s.Overtakes i)
    (hs : s.step i = some t) (hlive : t.asserts = []) : t.Persists := by
  have hn := step_next hs
  cases hn with
  | @poll events hact hnodup hrep =>
    refine ⟨h.ordered, h.tries, fun hc => ?_⟩
    obtain ⟨c, hchan, hev, hst⟩ := h.listens hc
    obtain ⟨_, hstatus⟩ := setRevents_fold_chans events hinv.registry
    exact ⟨c, hchan, (setRevents_fold_events events s.poller c).trans hev, (hstatus c).trans hst⟩
  | @dispatch errCode selfConnect c rest hact =>
    have hpop : Persists { s with activeChannels := rest } := { h with }
    exact hpop.handleEvent c errCode selfConnect
  | op hmade hu => exact h.op hinv hmade hu
  | @start r hr =>
    have hordered : (s.setRunning true).Ordered := fun _ hstop => absurd hstop hi
    exact hordered.startInLoop hinv.registry { hr with } hlive
  | stop => exact persists_stopInLoop fun hrun => (by cases hrun)
  | removeConnection => exact { h with }
  | @restart r hc hr =>
    have hordered : s.restarted.Ordered := fun _ hstop => absurd hstop hi
    exact hordered.startInLoop hinv.registry { hr with } hlive
  | @expire ts =>
    obtain ⟨hexp, _, hsub⟩ := TCPClient.expire_guard hs
    refine ⟨h.ordered, fun hrun hd => ?_, h.listens⟩
    rcases h.tries hrun hd with htimer | hold | hlast
    · by_cases hin : s.connector.timerId ∈ ts
      · exact .inr (.inl (List.ne_nil_of_mem hin))
      · exact .inl (List.mem_filter.mpr ⟨htimer, by simpa using hin⟩)
    · exact absurd hexp hold
    · exact .inr (.inr hlast)
  | @fire r timer rest hexp hr =>
    have hordered : Ordered { s with expired := rest } := h.ordered
    exact hordered.startInLoop hinv.registry { hr with } hlive
  | ret => exact { h with }
  | @task r task rest hact hr hq =>
    have hrest : s.connector.running = true → .stopInLoop ∈ rest → StartsLast rest := by
      intro hrun hin
      have hlast := h.ordered hrun (by rw [hq]; exact List.mem_cons_of_mem _ hin)
      rw [hq] at hlast
      exact hlast.tail.resolve_right fun hno => hno.2 hin
    cases task with
    | startInLoop =>
      have hordered : Ordered { s with taskList := rest } := hrest
      exact hordered.startInLoop hinv.registry { hr with } hlive
    | stopInLoop =>
      refine persists_stopInLoop fun hrun => ?_
      have hlast := h.ordered hrun (by rw [hq]; exact List.mem_cons_self)
      rw [hq] at hlast
      exact hlast.tail.resolve_right fun hno => (by cases hno.1)
    | resetChannel =>
      refine ⟨hrest, fun hrun hd => ?_, fun hc => ?_⟩
      · rcases h.tries hrun hd with htimer | hexp | hlast
        · exact .inl htimer
        · exact .inr (.inl hexp)
        · rw [hq] at hlast
          exact .inr (.inr (hlast.tail.resolve_right fun hno => (by cases hno.1)))
      · -- the channel of an attempt under way is not reset
        have hres := hinv.resets
        have hc : s.connector.state = .connecting := hc
        rw [hq, List.count_cons_self, if_neg (fun hno => hno.2 hc)] at hres
        omega
  | userTask => exact { h with }
  | startElsewhere =>
    have hlast := startsLast_start s.taskList
    exact ⟨fun _ _ => hlast, fun _ _ => .inr (.inr hlast), h.listens⟩
  | stopElsewhere => exact ⟨fun hrun => (by cases hrun), fun hrun => (by cases hrun), h.listens⟩

theorem Persists.trying (h : s.Persists) (hinv : s.Inv) (hrun : s.connector.running = true) :
    s.Trying := by
  cases hs : s.connector.state with
  | disconnected =>
    rcases h.tries hrun hs with htimer | hexp | hlast
    · exact .timer hs (.inl htimer)
    · exact .timer hs (.inr hexp)
    · exact .task hs hlast.mem
  | connecting =>
    obtain ⟨c, hc, hev, hst⟩ := h.listens hs
    exact .attempt hs hc ((hinv.registry.interest _ _ _).mpr ⟨rfl, hst, hev.symm⟩)
  | connected => exact .connected hs

end Steps

/-- **A running connector does not give up.** In every run in which no `Start` or `Restart` in
the loop overtakes a `Stop` of another thread, whatever the outcomes of the attempts: as long as
`running_` is set, the connector is connected, or an attempt is under way and the poller listens
for its outcome, or a retry timer is there, or `StartInLoop` is queued. -/
theorem connector_never_gives_up (p : Epoller) (hp : p.Registry) (is : List Input) (s : EventLoop)
    (halong : Machine.Along step (fun s i => ¬ s.Overtakes i) (EventLoop.new p) is)
    (hr : Machine.run step (EventLoop.new p) is = some s) (hlive : s.asserts = [])
    (hrun : s.connector.running = true) : s.Trying := by
  have hnew : (EventLoop.new p).Persists := by
    refine ⟨fun hrun => (by cases hrun), fun hrun => (by cases hrun), fun hc => (by cases hc)⟩
  have hinv := Machine.run_invariant_along
    (P := fun s => s.Inv ∧ (s.asserts = [] → s.Persists))
    (fun hP hi hs => ⟨step_inv hP.1 (step_next hs),
      fun hlive => step_persists (hP.2 (alive_of_step hs)) hP.1 hi hs hlive⟩)
    ⟨inv_new hp, fun _ => hnew⟩ halong hr
  exact (hinv.2 hlive).trying hinv.1 hrun

/-- Another thread calls `Stop` and `Start` while a retry timer is pending, then the attempt of
that `Start` is refused. -/
theorem connector_never_gives_up_restarted : ∃ s,
    Machine.run step (EventLoop.new (Epoller.new 8 (· + 1)))
      [.userTask, .act (.start ⟨2, 111, 1⟩), .ret, .stopElsewhere, .startElsewhere,
       .task ⟨2, 111, 1⟩, .task ⟨2, 111, 1⟩] = some s ∧
    s.connector.running = true ∧ s.timers = [2] ∧ s.Trying := by
  obtain ⟨s, hr, hs⟩ := Option.map_eq_some_iff.mp (show (Machine.run step
      (EventLoop.new (Epoller.new 8 (· + 1)))
      [.userTask, .act (.start ⟨2, 111, 1⟩), .ret, .stopElsewhere, .startElsewhere,
       .task ⟨2, 111, 1⟩, .task ⟨2, 111, 1⟩]).map
      (fun s => (s.asserts, s.connector.running, s.timers)) = some ([], true, [2]) by
        decide +kernel)
  simp only [Prod.mk.injEq] at hs
  obtain ⟨hlive, hrun, htimers⟩ := hs
  refine ⟨s, hr, hrun, htimers, ?_⟩
  exact connector_never_gives_up _ (Epoller.registry_new 8 (· + 1)) _ s (by decide +kernel) hr
    hlive hrun

end EventLoop

end LinuxNet
