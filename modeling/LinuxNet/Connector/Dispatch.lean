import LinuxNet.Connector.Model
import LinuxNet.Poller.Registry

/-!
# Events of removed channels

`Loop` fixes its batch before the first handler runs, and a handler may remove a
channel whose turn is still to come: `HandleEvent` does not look at the status. As long
as no handler does so, every channel is registered when its turn comes, and the
connector is connecting whenever `HandleWrite` is entered.

`Inv` ties the connector to the poller in every run: its channel is registered exactly
while it is connecting. `Waiting` is what the batch adds in the runs without such a
removal, and `Doomed` what a removal leaves behind in the others.
-/

namespace LinuxNet

set_option autoImplicit false

open LinuxNet.Lib

namespace EventLoop

def status (s : EventLoop) (c : ChanId) : Status := (s.poller.chans c).status

/-- The step removes a channel whose turn in the batch is still to come. -/
def RemovesWaiting (s : EventLoop) : Input → Prop
  | .act (.op c .remove) => c ∈ s.activeChannels
  | .act .stop => s.connector.state = .connecting ∧ ∃ c ∈ s.activeChannels, s.connector.channel = some c
  | _ => False

/-- The step registers a channel again that has been removed during its batch. -/
def Reregisters (s : EventLoop) : Input → Prop
  | .act (.op c op) => op ≠ .remove ∧ c ∈ s.activeChannels ∧ s.status c = .kNew
  | _ => False

/-- Handlers are invoked on registered channels only, and `HandleWrite` of the
connector only while it is connecting. -/
structure Silent (log : List Event) : Prop where
  registered : ∀ c st, .handleEvent c st ∈ log → st ≠ .kNew
  connecting : ∀ st, .handleWrite st ∈ log → st = .connecting

/-- The connector and the poller agree. -/
structure Inv (s : EventLoop) : Prop where
  registry : s.poller.Registry
  nodup : s.activeChannels.Nodup
  own : ∀ c ∈ s.made, s.status c ≠ .kNew →
    s.connector.state = .connecting ∧ s.connector.channel = some c
  channel : ∀ c, s.connector.channel = some c → c ∈ s.made
  registered : s.connector.state = .connecting →
    ∃ c, s.connector.channel = some c ∧ s.status c ≠ .kNew
  resets : s.taskList.count .resetChannel =
    if s.connector.channel.isSome ∧ s.connector.state ≠ .connecting then 1 else 0
  client : s.connection = true → s.connector.state = .connected

theorem inv_new {p : Epoller} (hp : p.Registry) : (EventLoop.new p).Inv where
  registry := hp
  nodup := List.nodup_nil
  own := by simp [EventLoop.new]
  channel := by simp [EventLoop.new]
  registered := by simp [EventLoop.new]
  resets := by simp [EventLoop.new]
  client := by simp [EventLoop.new]

/-- What holds of a connector that has no channel registered, whatever its state. -/
structure Idle (s : EventLoop) : Prop where
  registry : s.poller.Registry
  nodup : s.activeChannels.Nodup
  own : ∀ c ∈ s.made, s.status c = .kNew
  channel : ∀ c, s.connector.channel = some c → c ∈ s.made
  resets : s.taskList.count .resetChannel = if s.connector.channel.isSome then 1 else 0
  client : s.connection = false

section Functions

variable {s : EventLoop} {c : ChanId} {r : Attempt}

theorem Inv.idle (h : s.Inv) (hs : s.connector.state ≠ .connecting) (hc : s.connection = false) :
    s.Idle where
  registry := h.registry
  nodup := h.nodup
  own c hc := by
    by_contra hne
    exact hs (h.own c hc hne).1
  channel := h.channel
  resets := by simpa [hs] using h.resets
  client := hc

theorem Idle.inv (h : s.Idle) (hs : s.connector.state ≠ .connecting) : s.Inv where
  registry := h.registry
  nodup := h.nodup
  own c hc hne := absurd (h.own c hc) hne
  channel := h.channel
  registered hconn := absurd hconn hs
  resets := by simpa [hs] using h.resets
  client hc := by simp [h.client] at hc

theorem Inv.disconnected (h : s.Inv) (hs : s.connector.state = .disconnected) : s.Idle := by
  apply h.idle
  · simp [hs]
  · by_contra hc
    have := h.client (by simpa using hc)
    simp [hs] at this

theorem Idle.setState (h : s.Idle) (st : ConnectorState) : (s.setState st).Idle := { h with }

theorem Idle.observe (h : s.Idle) (e : Event) : (s.observe e).Idle := { h with }

theorem Inv.observe (h : s.Inv) (e : Event) : (s.observe e).Inv := { h with }

theorem Inv.abort (h : s.Inv) (a : Assert) : (s.abort a).Inv := { h with }

theorem Inv.setRunning (h : s.Inv) (b : Bool) : (s.setRunning b).Inv := { h with }

theorem Inv.queueInLoop (h : s.Inv) {t : ConnectorTask} (ht : t ≠ .resetChannel) :
    (s.queueInLoop t).Inv := by
  refine { h with resets := ?_ }
  change (s.taskList ++ [t]).count .resetChannel = _
  have hnone : [t].count .resetChannel = 0 := by simp [ht]
  rw [List.count_append, hnone, Nat.add_zero]
  exact h.resets

theorem Inv.popTask (h : s.Inv) {t : ConnectorTask} {rest : List ConnectorTask}
    (hq : s.taskList = t :: rest) (ht : t ≠ .resetChannel) :
    ({ s with taskList := rest } : EventLoop).Inv := by
  refine { h with resets := ?_ }
  have hres := h.resets
  rw [hq, List.count_cons_of_ne ht] at hres
  exact hres

theorem Idle.retry (h : s.Idle) : s.retry.Inv := by
  unfold EventLoop.retry
  dsimp only
  split
  · have hidle := (h.setState .disconnected).observe
      (.timerAfter (s.connector.retryDelay / 1000))
    apply Idle.inv
    · exact { hidle with }
    · simp [EventLoop.setState, EventLoop.observe]
  · exact (h.setState .disconnected).inv (by simp [EventLoop.setState])

/-- What user code asks of a channel changes the status of no other. -/
theorem exec_status (h : s.Inv) (hu : s.poller.usable c = true) (op : Epoller.Op)
    (c' : ChanId) :
    (s.exec c op).status c' =
      if c' = c then (op.effect (s.poller.chans c)).status else s.status c' := by
  have hexec := Epoller.exec_spec h.registry (Epoller.admissible_of_usable h.registry hu op)
  by_cases hcc : c' = c
  · simp [EventLoop.status, exec, hexec.chans, hcc]
  · simp [EventLoop.status, exec, hexec.chans, hcc]

/-- `DisableAll` and `Remove` of a registered channel. -/
theorem release_spec {p : Epoller} (h : p.Registry) (hst : (p.chans c).status ≠ .kNew) :
    Epoller.Outcome p ((p.exec c true .disableAll).exec c true .remove) c
      { p.chans c with events := Channel.kNoneEvent, status := .kNew } := by
  have hadm : p.Admissible (c, .disableAll) := by
    have hslot := (h.slot _ c).mpr ⟨rfl, hst⟩
    obtain ⟨hpos, hlt⟩ := h.range (p.chans c).fd (by simp [hslot])
    exact ⟨hpos, hlt, fun _ hnew => absurd hnew hst⟩
  have h1 := Epoller.exec_spec h hadm
  have h2 := Epoller.removeChannel_spec h1.registry c
  refine ⟨h2.registry, ?_, h2.size.trans h1.size⟩
  have hchans := h2.chans
  rw [h1.chans, Function.update_idem, Function.update_self] at hchans
  exact hchans

theorem removeAndResetChannel_eq (hc : s.connector.channel = some c) :
    s.removeAndResetChannel = ((s.exec c .disableAll).exec c .remove).queueInLoop .resetChannel := by
  unfold removeAndResetChannel
  rw [hc]

theorem removeAndResetChannel_status (h : s.Inv) (hs : s.connector.state = .connecting)
    (hc : s.connector.channel = some c) (c' : ChanId) :
    s.removeAndResetChannel.status c' = if c' = c then .kNew else s.status c' := by
  obtain ⟨c₀, hc₀, hst⟩ := h.registered hs
  obtain rfl : c = c₀ := Option.some.inj (hc.symm.trans hc₀)
  rw [removeAndResetChannel_eq hc]
  have hchans := (release_spec h.registry hst).chans
  change ((((s.poller.exec c true .disableAll).exec c true .remove).chans c').status) = _
  rw [hchans]
  by_cases hcc : c' = c
  · simp [hcc]
  · rw [Function.update_of_ne hcc, if_neg hcc]
    rfl

/-- `RemoveAndResetChannel` of a connecting connector. -/
theorem Inv.removeAndResetChannel (h : s.Inv) (hs : s.connector.state = .connecting) :
    s.removeAndResetChannel.Idle := by
  obtain ⟨c, hc, hst⟩ := h.registered hs
  have hstatus := removeAndResetChannel_status h hs hc
  have hrel := release_spec h.registry hst
  have hres := h.resets
  rw [removeAndResetChannel_eq hc] at hstatus ⊢
  refine ⟨hrel.registry, h.nodup, ?_, h.channel, ?_, ?_⟩
  · intro c' hc'
    rw [hstatus]
    by_cases hcc : c' = c
    · rw [if_pos hcc]
    · rw [if_neg hcc]
      by_contra hne
      have hown := (h.own c' hc' hne).2
      rw [hc] at hown
      exact hcc (Option.some.inj hown).symm
  · change (s.taskList ++ [ConnectorTask.resetChannel]).count .resetChannel = _
    rw [List.count_append, hres]
    simp [hs, hc, EventLoop.queueInLoop, exec]
  · by_contra hclient
    have := h.client (by simpa [EventLoop.queueInLoop, exec] using hclient)
    simp [hs] at this

/-- What `mayAttempt` says. -/
structure Fresh (s : EventLoop) (r : Attempt) : Prop where
  pos : 0 < r.fd
  lt : r.fd < s.poller.size
  free : s.poller.channels r.fd = none
  status : s.status r.channel = .kNew
  made : r.channel ∉ s.made
  active : r.channel ∉ s.activeChannels

theorem fresh_of_mayAttempt (h : s.mayAttempt r = true) : s.Fresh r := by
  simp only [mayAttempt, Bool.and_eq_true, decide_eq_true_eq, beq_iff_eq, Bool.not_eq_true',
    List.contains_eq_mem, decide_eq_false_iff_not] at h
  obtain ⟨⟨⟨⟨⟨hpos, hlt⟩, hfree⟩, hst⟩, hmade⟩, hact⟩ := h
  exact ⟨hpos, hlt, hfree, hst, hmade, hact⟩

/-- A new `Channel` for a descriptor in nobody's use, with `EnableWriting`. -/
theorem create_spec {p : Epoller} (h : p.Registry) {fd : Nat}
    (hst : (p.chans c).status = .kNew) (hfree : p.channels fd = none) (hpos : 0 < fd)
    (hlt : fd < p.size) :
    Epoller.Outcome p ((p.setChannel c (Channel.new fd)).exec c true .enableWriting) c
      { Channel.new fd with events := Channel.kWriteEvent, status := .kAdded } := by
  have hnew : (p.setChannel c (Channel.new fd)).Registry := h.newChannel hst rfl
  have hch : (p.setChannel c (Channel.new fd)).chans c = Channel.new fd :=
    Function.update_self _ _ _
  have husable : (p.setChannel c (Channel.new fd)).usable c = true := by
    unfold Epoller.usable
    rw [hch]
    change (decide (0 < fd) && decide (fd < p.size) && (_ || p.channels fd == none)) = true
    simp [hpos, hlt, hfree]
  have hexec := Epoller.exec_spec hnew (Epoller.admissible_of_usable hnew husable .enableWriting)
  have heffect : Epoller.Op.effect .enableWriting (Channel.new fd) =
      { Channel.new fd with events := Channel.kWriteEvent, status := .kAdded } := by
    have hmask : Channel.kNoneEvent ||| Channel.kWriteEvent = Channel.kWriteEvent := by decide
    have hne : Channel.kWriteEvent ≠ Channel.kNoneEvent := by decide
    simp [Epoller.Op.effect, Epoller.Op.mask, Epoller.listening, Channel.new, hmask, hne]
  refine ⟨hexec.registry, ?_, hexec.size⟩
  rw [hexec.chans, hch, heffect]
  exact Function.update_idem _ _ _

theorem connecting_eq (hs : s.connector.state = .disconnected) (hc : s.connector.channel = none)
    (fd : Nat) :
    s.connecting fd c = { s with
      connector := { s.connector with state := .connecting, channel := some c }
      poller := (s.poller.setChannel c (Channel.new fd)).exec c true .enableWriting
      made := c :: s.made } := by
  simp [connecting, hs, hc, EventLoop.setState, exec]

/-- `ResetChannel` has not run yet. -/
theorem connecting_abort (hs : s.connector.state = .disconnected) {c' : ChanId}
    (hc : s.connector.channel = some c') (fd : Nat) :
    s.connecting fd c = s.abort .connectingChannel := by
  simp [connecting, hs, hc]

theorem Idle.connecting (h : s.Idle) (hs : s.connector.state = .disconnected) (hr : s.Fresh r) :
    (s.connecting r.fd r.channel).Inv := by
  cases hc : s.connector.channel with
  | some c =>
    rw [connecting_abort hs hc]
    exact (h.inv (by simp [hs])).abort _
  | none =>
    have hcreate := create_spec h.registry hr.status hr.free hr.pos hr.lt
    have hself : ((s.poller.setChannel r.channel (Channel.new r.fd)).exec r.channel true
        .enableWriting).chans r.channel =
          { Channel.new r.fd with events := Channel.kWriteEvent, status := .kAdded } := by
      rw [hcreate.chans, Function.update_self]
    rw [connecting_eq hs hc]
    refine ⟨hcreate.registry, h.nodup, ?_, ?_, ?_, ?_, ?_⟩
    · intro c' hc' hne
      rcases List.mem_cons.mp hc' with rfl | hold
      · exact ⟨rfl, rfl⟩
      · have hcc : c' ≠ r.channel := by
          rintro rfl
          exact hr.made hold
        refine absurd ?_ hne
        simp only [status, hcreate.chans, Function.update_of_ne hcc]
        exact h.own c' hold
    · intro c' hc'
      cases hc'
      exact List.mem_cons_self
    · intro _
      refine ⟨r.channel, rfl, ?_⟩
      simp only [status, hself]
      decide
    · have hres := h.resets
      simpa [hc] using hres
    · intro hclient
      simp [h.client] at hclient

theorem Idle.connect (h : s.Idle) (hs : s.connector.state = .disconnected) (hr : s.Fresh r) :
    (s.connect r).Inv := by
  have hobs := h.observe (.socket r.fd)
  unfold EventLoop.connect
  dsimp only
  split
  · exact hobs.connecting hs { hr with }
  · exact (hobs.observe _).retry

theorem Inv.startInLoop (h : s.Inv) (hr : s.Fresh r) : (s.startInLoop r).Inv := by
  unfold EventLoop.startInLoop
  split
  · exact h.abort _
  · rename_i hs
    have hs : s.connector.state = .disconnected := by simpa using hs
    split
    · exact (h.disconnected hs).connect hs hr
    · exact h

/-- What `Restart` sets when the connection handed over before is gone. -/
def restarted (s : EventLoop) : EventLoop :=
  { s with
    connection := false
    connector := { s.connector with
      running := true, state := .disconnected, retryDelay := kInitRetryDelay } }

theorem Inv.restarted (h : s.Inv) (hc : s.connection = true) : s.restarted.Inv := by
  have hs : s.connector.state ≠ .connecting := by simp [h.client hc]
  have hclosed : ({ s with connection := false } : EventLoop).Inv := { h with client := by simp }
  have hidle := hclosed.idle hs rfl
  have hset : s.restarted.Idle := { hidle with }
  exact hset.inv (by simp [EventLoop.restarted])

theorem Inv.restart (h : s.Inv) (hc : s.connection = true) (hr : s.Fresh r) :
    (restart { s with connection := false } r).Inv :=
  (h.restarted hc).startInLoop { hr with }

theorem setState_removeAndResetChannel (st : ConnectorState) :
    (s.setState st).removeAndResetChannel = s.removeAndResetChannel.setState st := by
  have hchannel : (s.setState st).connector.channel = s.connector.channel := rfl
  unfold removeAndResetChannel
  rw [hchannel]
  cases s.connector.channel <;> rfl

theorem Inv.stopInLoop (h : s.Inv) : s.stopInLoop.Inv := by
  have hcancel : ({ s with timers := s.timers.erase s.connector.timerId } : EventLoop).Inv :=
    { h with }
  unfold EventLoop.stopInLoop
  dsimp only
  split
  · rename_i hs
    rw [setState_removeAndResetChannel]
    exact ((hcancel.removeAndResetChannel hs).setState _).inv (by simp [EventLoop.setState])
  · exact hcancel

theorem Inv.handleError (h : s.Inv) : s.handleError.Inv := by
  unfold EventLoop.handleError
  split
  · rename_i hs
    obtain ⟨c, hc, _⟩ := h.registered hs
    rw [hc]
    exact ((h.removeAndResetChannel hs).observe _).retry
  · exact h

theorem Inv.handleWrite (h : s.Inv) (errCode : Nat) (selfConnect : Bool) :
    (s.handleWrite errCode selfConnect).Inv := by
  have hobs := h.observe (.handleWrite s.connector.state)
  have hconn (hs : s.connector.state = .connecting) :=
    ((hobs.removeAndResetChannel hs).setState .connected).inv (by simp [EventLoop.setState])
  have hend := s.writeHandled errCode selfConnect
  generalize s.handleWrite errCode selfConnect = t at hend ⊢
  cases hend with
  | notConnecting => exact hobs.abort _
  | nullChannel => exact hobs.abort _
  | refused hs => exact ((hobs.removeAndResetChannel hs).observe _).retry
  | accepted hs => exact { hconn hs with client := fun _ => rfl }
  | stopped hs => exact (hconn hs).observe _

theorem Inv.handleEvent (h : s.Inv) (c : ChanId) (errCode : Nat) (selfConnect : Bool) :
    (s.handleEvent c errCode selfConnect).Inv := by
  have hobs := h.observe (.handleEvent c (s.poller.chans c).status)
  have hend := s.eventHandled c errCode selfConnect
  generalize s.handleEvent c errCode selfConnect = t at hend ⊢
  cases hend with
  | foreign => exact { hobs with }
  | error => exact hobs.handleError
  | write => exact hobs.handleWrite errCode selfConnect
  | ignored => exact hobs

/-- `ResetChannel`, whose task was queued when the channel was removed. -/
theorem Inv.resetChannel (h : s.Inv) {rest : List ConnectorTask}
    (hq : s.taskList = .resetChannel :: rest) :
    (resetChannel { s with taskList := rest }).Inv := by
  have hres := h.resets
  rw [hq, List.count_cons_self] at hres
  have hcond : s.connector.channel.isSome ∧ s.connector.state ≠ .connecting := by
    by_contra hn
    rw [if_neg hn] at hres
    omega
  rw [if_pos hcond] at hres
  refine { h with own := ?_, channel := ?_, registered := ?_, resets := ?_ }
  · intro c hc hne
    exact absurd (h.own c hc hne).1 hcond.2
  · intro c hc
    cases hc
  · exact fun hs => absurd hs hcond.2
  · change rest.count .resetChannel = _
    simp only [EventLoop.resetChannel, Option.isSome_none, Bool.false_eq_true, false_and, ↓reduceIte]
    omega

end Functions

/-! ## Steps -/

/-- What a step can be, with all that is known when it is taken. -/
inductive Next (s : EventLoop) : Input → EventLoop → Prop where
  | poll {events : List (ChanId × EventMask)} (hact : s.activeChannels = [])
      (hn : (events.map (·.1)).Nodup) (hrep : events.all s.reported = true) :
      Next s (.poll events) { s with
        poller := events.foldl setRevents s.poller, activeChannels := events.map (·.1) }
  | dispatch {errCode : Nat} {selfConnect : Bool} {c : ChanId} {rest : List ChanId}
      (hact : s.activeChannels = c :: rest) :
      Next s (.dispatch errCode selfConnect)
        (handleEvent { s with activeChannels := rest } c errCode selfConnect)
  | op {c : ChanId} {op : Epoller.Op} (hmade : c ∉ s.made) (hu : s.poller.usable c = true) :
      Next s (.act (.op c op)) (s.exec c op)
  | start {r : Attempt} (hr : s.Fresh r) :
      Next s (.act (.start r)) ((s.setRunning true).startInLoop r)
  | stop : Next s (.act .stop) (s.setRunning false).stopInLoop
  | removeConnection (hc : s.connection = true) :
      Next s (.act (.removeConnection none)) { s with connection := false }
  | restart {r : Attempt} (hc : s.connection = true) (hr : s.Fresh r) :
      Next s (.act (.removeConnection (some r))) (restart { s with connection := false } r)
  | expire {ts : List Nat} :
      Next s (.act (.expire ts)) { s with
        expired := ts, timers := s.timers.filter fun t => !ts.contains t }
  | fire {r : Attempt} {t : Nat} {rest : List Nat} (hexp : s.expired = t :: rest)
      (hr : s.Fresh r) :
      Next s (.act (.fire r)) (startInLoop { s with expired := rest } r)
  | ret : Next s .ret { s with busy := false }
  | task {r : Attempt} {t : ConnectorTask} {rest : List ConnectorTask}
      (hact : s.activeChannels = []) (hr : s.Fresh r) (hq : s.taskList = t :: rest) :
      Next s (.task r) (runTask { s with taskList := rest } r t)
  | userTask : Next s .userTask { s with busy := true }
  | startElsewhere : Next s .startElsewhere ((s.setRunning true).queueInLoop .startInLoop)
  | stopElsewhere : Next s .stopElsewhere ((s.setRunning false).queueInLoop .stopInLoop)

theorem act_next {s s' : EventLoop} {a : Action} (h : s.act a = some s') : s.Next (.act a) s' := by
  cases a with
  | op c op =>
    simp only [act] at h
    split at h
    · rename_i hg
      cases h
      exact .op (by simpa using hg.1) hg.2
    · cases h
  | start r =>
    simp only [act] at h
    split at h
    · rename_i hr
      cases h
      exact .start (fresh_of_mayAttempt hr)
    · cases h
  | stop =>
    cases h
    exact .stop
  | removeConnection r =>
    simp only [act] at h
    split at h
    · rename_i hc
      split at h
      · cases h
        exact .removeConnection hc
      · split at h
        · rename_i hr
          cases h
          exact .restart hc (fresh_of_mayAttempt hr)
        · cases h
    · cases h
  | expire ts =>
    simp only [act] at h
    split at h
    · cases h
      exact .expire
    · cases h
  | fire r =>
    simp only [act] at h
    split at h
    · cases h
    · rename_i t rest hexp
      split at h
      · rename_i hr
        cases h
        exact .fire hexp (fresh_of_mayAttempt hr)
      · cases h

theorem step_next {s s' : EventLoop} {i : Input} (h : s.step i = some s') : s.Next i s' := by
  unfold step at h
  split at h
  · cases i with
    | poll events =>
      simp only [stepOn] at h
      split at h
      · rename_i hg
        cases h
        exact .poll hg.1 hg.2.2.1 hg.2.2.2
      · cases h
    | dispatch errCode selfConnect =>
      simp only [stepOn] at h
      split at h
      · cases h
      · split at h
        · cases h
        · rename_i c rest hact
          cases h
          exact .dispatch hact
    | act a =>
      simp only [stepOn] at h
      split at h
      · exact act_next h
      · cases h
    | ret =>
      simp only [stepOn] at h
      split at h
      · cases h
        exact .ret
      · cases h
    | task r =>
      simp only [stepOn] at h
      split at h
      · rename_i hg
        split at h
        · cases h
        · rename_i t rest hq
          cases h
          exact .task hg.1 (fresh_of_mayAttempt hg.2.2) hq
      · cases h
    | userTask =>
      simp only [stepOn] at h
      split at h
      · cases h
        exact .userTask
      · cases h
    | startElsewhere =>
      cases h
      exact .startElsewhere
    | stopElsewhere =>
      cases h
      exact .stopElsewhere
  · cases h

/-- No step follows a failed `assert`. -/
theorem alive_of_step {s s' : EventLoop} {i : Input} (h : s.step i = some s') : s.asserts = [] := by
  unfold step at h
  split at h
  · assumption
  · cases h

section Steps

variable {s s' : EventLoop} {i : Input}

theorem setRevents_fold_chans (events : List (ChanId × EventMask)) {p : Epoller}
    (hp : p.Registry) :
    (events.foldl setRevents p).Registry ∧
      ∀ c, ((events.foldl setRevents p).chans c).status = (p.chans c).status := by
  induction events generalizing p with
  | nil => exact ⟨hp, fun _ => rfl⟩
  | cons e events ih =>
    have hset : (setRevents p e).Registry := hp.setChannel rfl rfl rfl
    obtain ⟨hreg, hst⟩ := ih hset
    refine ⟨hreg, fun c => (hst c).trans ?_⟩
    unfold setRevents Epoller.setChannel
    by_cases hc : c = e.1
    · simp [hc]
    · simp [hc]

theorem step_inv (h : s.Inv) (hn : s.Next i s') : s'.Inv := by
  cases hn with
  | @poll events hact hnodup hrep =>
    obtain ⟨hreg, hst⟩ := setRevents_fold_chans events h.registry
    refine { h with registry := hreg, nodup := hnodup, own := ?_, registered := ?_ }
    · intro c hc hne
      exact h.own c hc (by simpa [status, hst] using hne)
    · intro hs
      obtain ⟨c, hc, hne⟩ := h.registered hs
      exact ⟨c, hc, by simpa [status, hst] using hne⟩
  | @dispatch errCode selfConnect c rest hact =>
    have hpop : ({ s with activeChannels := rest } : EventLoop).Inv := by
      have hnodup := h.nodup
      rw [hact] at hnodup
      exact { h with nodup := hnodup.of_cons }
    exact hpop.handleEvent c errCode selfConnect
  | @op c op hmade hu =>
    have hexec := Epoller.exec_spec h.registry (Epoller.admissible_of_usable h.registry hu op)
    have hst : ∀ c', c' ≠ c → (s.exec c op).status c' = s.status c' := by
      intro c' hc
      rw [exec_status h hu, if_neg hc]
    refine { h with registry := hexec.registry, own := ?_, registered := ?_ }
    · intro c' hc' hne
      have hcc : c' ≠ c := by
        rintro rfl
        exact hmade hc'
      rw [hst c' hcc] at hne
      exact h.own c' hc' hne
    · intro hs
      obtain ⟨c', hc', hne⟩ := h.registered hs
      have hcc : c' ≠ c := by
        rintro rfl
        exact hmade (h.channel c' hc')
      exact ⟨c', hc', by rw [hst c' hcc]; exact hne⟩
  | start hr => exact (h.setRunning true).startInLoop { hr with }
  | stop => exact (h.setRunning false).stopInLoop
  | removeConnection => exact { h with client := by simp }
  | restart hc hr => exact h.restart hc hr
  | expire => exact { h with }
  | @fire r t rest hexp hr =>
    have hpop : ({ s with expired := rest } : EventLoop).Inv := { h with }
    exact hpop.startInLoop { hr with }
  | ret => exact { h with }
  | @task r t rest hact hr hq =>
    cases t with
    | resetChannel => exact h.resetChannel hq
    | startInLoop => exact (h.popTask hq (by decide)).startInLoop { hr with }
    | stopInLoop => exact (h.popTask hq (by decide)).stopInLoop
  | userTask => exact { h with }
  | startElsewhere => exact (h.setRunning true).queueInLoop (by decide)
  | stopElsewhere => exact (h.setRunning false).queueInLoop (by decide)

end Steps

/-! ## What the functions of the connector do to the batch -/

/-- The event is a call of a handler. -/
def Event.isCall : Event → Bool
  | .handleEvent _ _ | .handleWrite _ => true
  | _ => false

/-- No handler is called, and the channels of the batch keep their status. -/
structure Calm (s s' : EventLoop) : Prop where
  active : s'.activeChannels = s.activeChannels
  status : ∀ c ∈ s.activeChannels, s'.status c = s.status c
  old : ∀ e ∈ s.log, e ∈ s'.log
  new : ∀ e ∈ s'.log, e ∈ s.log ∨ e.isCall = false

/-- The same, but for the channel of a connecting connector, which may be removed. -/
structure Quiet (s s' : EventLoop) : Prop where
  active : s'.activeChannels = s.activeChannels
  status : ∀ c ∈ s.activeChannels, s'.status c = s.status c ∨
    (s'.status c = .kNew ∧ s.connector.state = .connecting ∧ s.connector.channel = some c)
  old : ∀ e ∈ s.log, e ∈ s'.log
  new : ∀ e ∈ s'.log, e ∈ s.log ∨ e.isCall = false

section Batch

variable {s s' s'' : EventLoop} {c : ChanId} {r : Attempt}

theorem calm_of_eq (ha : s'.activeChannels = s.activeChannels) (hp : s'.poller = s.poller)
    (hl : s'.log = s.log) : Calm s s' where
  active := ha
  status c _ := by rw [EventLoop.status, hp]; rfl
  old e he := hl ▸ he
  new e he := .inl (hl ▸ he)

theorem Calm.refl (s : EventLoop) : Calm s s := calm_of_eq rfl rfl rfl

theorem Calm.trans (h : Calm s s') (h' : Calm s' s'') : Calm s s'' where
  active := h'.active.trans h.active
  status c hc := (h'.status c (h.active ▸ hc)).trans (h.status c hc)
  old e he := h'.old e (h.old e he)
  new e he := (h'.new e he).elim (h.new e) .inr

theorem Calm.quiet (h : Calm s s') : Quiet s s' :=
  ⟨h.active, fun c hc => .inl (h.status c hc), h.old, h.new⟩

theorem Quiet.trans_calm (h : Quiet s s') (h' : Calm s' s'') : Quiet s s'' where
  active := h'.active.trans h.active
  status c hc := by
    rw [h'.status c (h.active ▸ hc)]
    exact h.status c hc
  old e he := h'.old e (h.old e he)
  new e he := (h'.new e he).elim (h.new e) .inr

theorem calm_observe {e : Event} (he : e.isCall = false) : Calm s (s.observe e) where
  active := rfl
  status _ _ := rfl
  old e' he' := List.mem_append_left _ he'
  new e' he' := by
    rcases List.mem_append.mp he' with hold | hnew
    · exact .inl hold
    · rw [List.mem_singleton.mp hnew]
      exact .inr he

theorem calm_retry : Calm s s.retry := by
  have hstate : Calm s (s.setState .disconnected) := calm_of_eq rfl rfl rfl
  unfold retry
  dsimp only
  split
  · have hobs := hstate.trans (calm_observe (e := .timerAfter (s.connector.retryDelay / 1000)) rfl)
    apply hobs.trans
    exact calm_of_eq rfl rfl rfl
  · exact hstate

theorem calm_connecting (h : s.Idle) (hr : s.Fresh r) : Calm s (s.connecting r.fd r.channel) := by
  by_cases hs : s.connector.state = .disconnected
  · cases hc : s.connector.channel with
    | some c =>
      rw [connecting_abort hs hc]
      exact calm_of_eq rfl rfl rfl
    | none =>
      have hcreate := create_spec h.registry hr.status hr.free hr.pos hr.lt
      rw [connecting_eq hs hc]
      refine ⟨rfl, ?_, fun e he => he, fun e he => .inl he⟩
      intro c hact
      have hne : c ≠ r.channel := by
        rintro rfl
        exact hr.active hact
      simp only [EventLoop.status, hcreate.chans, Function.update_of_ne hne]
  · have habort : s.connecting r.fd r.channel = s.abort .connecting := by
      simp [connecting, hs]
    rw [habort]
    exact calm_of_eq rfl rfl rfl

theorem calm_connect (h : s.Idle) (hr : s.Fresh r) : Calm s (s.connect r) := by
  have hobs : Calm s (s.observe (.socket r.fd)) := calm_observe rfl
  unfold connect
  dsimp only
  split
  · exact hobs.trans (calm_connecting (h.observe _) { hr with })
  · exact hobs.trans ((calm_observe rfl).trans calm_retry)

theorem calm_startInLoop (h : s.Inv) (hr : s.Fresh r) : Calm s (s.startInLoop r) := by
  unfold startInLoop
  split
  · exact calm_of_eq rfl rfl rfl
  · rename_i hs
    split
    · exact calm_connect (h.disconnected (by simpa using hs)) hr
    · exact Calm.refl s

theorem calm_restart (h : s.Inv) (hc : s.connection = true) (hr : s.Fresh r) :
    Calm s (restart { s with connection := false } r) := by
  have hset : Calm s s.restarted := calm_of_eq rfl rfl rfl
  exact hset.trans (calm_startInLoop (h.restarted hc) { hr with })

theorem quiet_removeAndResetChannel (h : s.Inv) (hs : s.connector.state = .connecting) :
    Quiet s s.removeAndResetChannel := by
  obtain ⟨c, hc, _⟩ := h.registered hs
  have hstatus := removeAndResetChannel_status h hs hc
  have heq := removeAndResetChannel_eq hc
  refine ⟨by rw [heq]; rfl, ?_, ?_, ?_⟩
  · intro c' _
    rw [hstatus]
    by_cases hcc : c' = c
    · exact .inr ⟨if_pos hcc, hs, hcc ▸ hc⟩
    · exact .inl (if_neg hcc)
  · intro e he
    rw [heq]
    exact he
  · intro e he
    rw [heq] at he
    exact .inl he

theorem quiet_stopInLoop (h : s.Inv) : Quiet s s.stopInLoop := by
  unfold stopInLoop
  dsimp only
  split
  · rename_i hs
    have hcancel : ({ s with timers := s.timers.erase s.connector.timerId } : EventLoop).Inv :=
      { h with }
    have hq := quiet_removeAndResetChannel hcancel hs
    rw [setState_removeAndResetChannel]
    exact Quiet.trans_calm { hq with } (calm_of_eq rfl rfl rfl)
  · apply Calm.quiet
    exact calm_of_eq rfl rfl rfl

theorem quiet_handleError (h : s.Inv) : Quiet s s.handleError := by
  unfold handleError
  split
  · rename_i hs
    obtain ⟨c, hc, _⟩ := h.registered hs
    have hq := quiet_removeAndResetChannel h hs
    rw [hc]
    exact hq.trans_calm ((calm_observe rfl).trans calm_retry)
  · exact (Calm.refl s).quiet

theorem quiet_handleWrite (h : s.Inv) (errCode : Nat) (selfConnect : Bool) :
    Quiet (s.observe (.handleWrite s.connector.state)) (s.handleWrite errCode selfConnect) := by
  have hobs := h.observe (.handleWrite s.connector.state)
  have hstate (hs : s.connector.state = .connecting) :
      Quiet (s.observe (.handleWrite s.connector.state))
        ((s.observe (.handleWrite s.connector.state)).removeAndResetChannel.setState .connected) :=
    (quiet_removeAndResetChannel hobs hs).trans_calm (calm_of_eq rfl rfl rfl)
  have hend := s.writeHandled errCode selfConnect
  generalize s.handleWrite errCode selfConnect = t at hend ⊢
  cases hend with
  | notConnecting =>
    apply Calm.quiet
    exact calm_of_eq rfl rfl rfl
  | nullChannel =>
    apply Calm.quiet
    exact calm_of_eq rfl rfl rfl
  | refused hs =>
    have hq := quiet_removeAndResetChannel hobs hs
    exact hq.trans_calm ((calm_observe rfl).trans calm_retry)
  | @accepted c hs =>
    have hnew := (hstate hs).trans_calm (calm_observe (e := .newConn (s.poller.chans c).fd) rfl)
    exact hnew.trans_calm (calm_of_eq rfl rfl rfl)
  | stopped hs => exact (hstate hs).trans_calm (calm_observe rfl)

/-- `HandleEvent` of a channel, up to the callback of the user. -/
theorem handleEvent_cases (h : s.Inv) (c : ChanId) (errCode : Nat) (selfConnect : Bool) :
    (c ∉ s.made ∧
      Calm (s.observe (.handleEvent c (s.status c))) (s.handleEvent c errCode selfConnect)) ∨
    (c ∈ s.made ∧
      Quiet (s.observe (.handleEvent c (s.status c))) (s.handleEvent c errCode selfConnect)) ∨
    (c ∈ s.made ∧ Quiet ((s.observe (.handleEvent c (s.status c))).observe
      (.handleWrite s.connector.state)) (s.handleEvent c errCode selfConnect)) := by
  have hobs := h.observe (.handleEvent c (s.status c))
  have hend := s.eventHandled c errCode selfConnect
  generalize s.handleEvent c errCode selfConnect = t at hend ⊢
  cases hend with
  | foreign hmade =>
    left
    exact ⟨hmade, calm_of_eq rfl rfl rfl⟩
  | error hmade =>
    right; left
    exact ⟨hmade, quiet_handleError hobs⟩
  | write hmade =>
    right; right
    exact ⟨hmade, quiet_handleWrite hobs errCode selfConnect⟩
  | ignored hmade =>
    right; left
    exact ⟨hmade, (Calm.refl _).quiet⟩

/-- The inputs that leave the batch and the status of its channels alone. -/
def Input.keepsBatch : Input → Bool
  | .poll _ | .dispatch _ _ | .act (.op _ _) | .act .stop | .task _ => false
  | _ => true

theorem step_calm {i : Input} (h : s.Inv) (hn : s.Next i s') (hi : i.keepsBatch = true) :
    Calm s s' := by
  cases hn with
  | start hr =>
    have hset : Calm s (s.setRunning true) := calm_of_eq rfl rfl rfl
    exact hset.trans (calm_startInLoop (h.setRunning true) { hr with })
  | restart hc hr => exact calm_restart h hc hr
  | @fire r t rest hexp hr =>
    have hpop : ({ s with expired := rest } : EventLoop).Inv := { h with }
    have hset : Calm s { s with expired := rest } := calm_of_eq rfl rfl rfl
    exact hset.trans (calm_startInLoop hpop { hr with })
  | removeConnection => exact calm_of_eq rfl rfl rfl
  | expire => exact calm_of_eq rfl rfl rfl
  | ret => exact calm_of_eq rfl rfl rfl
  | userTask => exact calm_of_eq rfl rfl rfl
  | startElsewhere => exact calm_of_eq rfl rfl rfl
  | stopElsewhere => exact calm_of_eq rfl rfl rfl
  | _ => cases hi

/-- A task of the connector removes its own channel at most. -/
theorem quiet_task {r : Attempt} {t : ConnectorTask} {rest : List ConnectorTask} (h : s.Inv)
    (hr : s.Fresh r) (hq : s.taskList = t :: rest) :
    Quiet s (runTask { s with taskList := rest } r t) := by
  have hset : Calm s { s with taskList := rest } := calm_of_eq rfl rfl rfl
  cases t with
  | resetChannel =>
    apply Calm.quiet
    exact calm_of_eq rfl rfl rfl
  | startInLoop =>
    exact (hset.trans (calm_startInLoop (h.popTask hq (by decide)) { hr with })).quiet
  | stopInLoop => exact { quiet_stopInLoop (h.popTask hq (by decide)) with }

end Batch

/-! ## Runs in which no waiting channel is removed -/

/-- Every channel of the batch is registered. -/
def Waiting (s : EventLoop) : Prop := ∀ c ∈ s.activeChannels, s.status c ≠ .kNew

section Waiting

variable {s s' : EventLoop} {c : ChanId} {i : Input}

theorem Silent.quiet (h : Silent s.log) (hnew : ∀ e ∈ s'.log, e ∈ s.log ∨ e.isCall = false) :
    Silent s'.log := by
  constructor
  · intro c st he
    rcases hnew _ he with hold | hcall
    · exact h.registered c st hold
    · cases hcall
  · intro st he
    rcases hnew _ he with hold | hcall
    · exact h.connecting st hold
    · cases hcall

theorem Silent.handleEvent (h : Silent s.log) {st : Status} (hst : st ≠ .kNew) :
    Silent (s.observe (.handleEvent c st)).log := by
  constructor
  · intro c' st' he
    rcases List.mem_append.mp he with hold | hnew
    · exact h.registered c' st' hold
    · rw [List.mem_singleton, Event.handleEvent.injEq] at hnew
      rw [hnew.2]
      exact hst
  · intro st' he
    rcases List.mem_append.mp he with hold | hnew
    · exact h.connecting st' hold
    · simp at hnew

theorem Silent.handleWrite (h : Silent s.log) {st : ConnectorState} (hst : st = .connecting) :
    Silent (s.observe (.handleWrite st)).log := by
  constructor
  · intro c' st' he
    rcases List.mem_append.mp he with hold | hnew
    · exact h.registered c' st' hold
    · simp at hnew
  · intro st' he
    rcases List.mem_append.mp he with hold | hnew
    · exact h.connecting st' hold
    · rw [List.mem_singleton, Event.handleWrite.injEq] at hnew
      rw [hnew, hst]

theorem Waiting.calm (h : s.Waiting) (hc : Calm s s') : s'.Waiting := by
  intro c hact
  rw [hc.active] at hact
  rw [hc.status c hact]
  exact h c hact

/-- The connector's channel does not wait, so no channel of the batch is removed. -/
theorem Waiting.quiet (h : s.Waiting) (hq : Quiet s s')
    (hn : s.connector.state = .connecting → ∀ c ∈ s.activeChannels, s.connector.channel ≠ some c) :
    s'.Waiting := by
  intro c hact
  rw [hq.active] at hact
  rcases hq.status c hact with hst | ⟨_, hs, hc⟩
  · rw [hst]
    exact h c hact
  · exact absurd hc (hn hs c hact)

/-- Whatever `epoll_wait` reports is registered. -/
theorem status_of_reported (h : s.Inv) {e : ChanId × EventMask} (he : s.reported e = true) :
    s.status e.1 = .kAdded := by
  unfold reported at he
  split at he
  · cases he
  · rename_i m c hk
    simp only [Bool.and_eq_true, beq_iff_eq] at he
    rw [he.1] at hk
    exact ((h.registry.interest _ _ _).mp hk).2.1

/-- The turn of the first channel of the batch. -/
theorem Waiting.dispatch (hw : s.Waiting) (h : s.Inv) (hlog : Silent s.log) {c : ChanId}
    {rest : List ChanId} (hact : s.activeChannels = c :: rest) (errCode : Nat)
    (selfConnect : Bool) :
    (handleEvent { s with activeChannels := rest } c errCode selfConnect).Waiting ∧
      Silent (handleEvent { s with activeChannels := rest } c errCode selfConnect).log := by
  have hnodup := h.nodup
  rw [hact, List.nodup_cons] at hnodup
  have hpop : ({ s with activeChannels := rest } : EventLoop).Inv := { h with nodup := hnodup.2 }
  have hrest : ({ s with activeChannels := rest } : EventLoop).Waiting :=
    fun c' hc' => hw c' (by rw [hact]; exact List.mem_cons_of_mem c hc')
  have hst : s.status c ≠ .kNew := hw c (by rw [hact]; exact List.mem_cons_self)
  have hobs : Silent (({ s with activeChannels := rest } : EventLoop).observe
      (.handleEvent c (s.status c))).log := hlog.handleEvent hst
  -- the connector's channel has its turn just now: it does not wait
  have hnot : c ∈ s.made → s.connector.state = .connecting →
      ∀ c' ∈ rest, s.connector.channel ≠ some c' := by
    intro hmade _ c' hc' hch
    rw [(h.own c hmade hst).2] at hch
    exact hnodup.1 (Option.some.inj hch ▸ hc')
  rcases handleEvent_cases hpop c errCode selfConnect with ⟨_, hc⟩ | ⟨hmade, hq⟩ | ⟨hmade, hq⟩
  · have hrest' : (({ s with activeChannels := rest } : EventLoop).observe
        (.handleEvent c (s.status c))).Waiting := hrest
    exact ⟨hrest'.calm hc, hobs.quiet hc.new⟩
  · have hrest' : (({ s with activeChannels := rest } : EventLoop).observe
        (.handleEvent c (s.status c))).Waiting := hrest
    exact ⟨hrest'.quiet hq (hnot hmade), hobs.quiet hq.new⟩
  · have hrest' : ((({ s with activeChannels := rest } : EventLoop).observe
        (.handleEvent c (s.status c))).observe (.handleWrite s.connector.state)).Waiting := hrest
    have hown := (h.own c hmade hst).1
    exact ⟨hrest'.quiet hq (hnot hmade), (hobs.handleWrite hown).quiet hq.new⟩

theorem step_waiting (h : s.Inv) (hw : s.Waiting) (hlog : Silent s.log) (hn : s.Next i s')
    (hi : ¬ RemovesWaiting s i) : s'.Waiting ∧ Silent s'.log := by
  by_cases hk : i.keepsBatch = true
  · have hc := step_calm h hn hk
    exact ⟨hw.calm hc, hlog.quiet hc.new⟩
  · cases hn with
    | @poll events hact hnodup hrep =>
      obtain ⟨_, hst⟩ := setRevents_fold_chans events h.registry
      refine ⟨?_, hlog⟩
      intro c hc
      obtain ⟨e, he, rfl⟩ := List.mem_map.mp hc
      have hadded := status_of_reported h (List.all_eq_true.mp hrep e he)
      rw [EventLoop.status, hst]
      exact fun hnew => by simp [EventLoop.status, hnew] at hadded
    | dispatch hact => exact hw.dispatch h hlog hact _ _
    | @op c op hmade hu =>
      refine ⟨?_, hlog⟩
      intro c' hact
      rw [exec_status h hu]
      split
      · rename_i hcc
        have hop : op ≠ .remove := by
          rintro rfl
          exact hi (hcc ▸ hact)
        rw [Epoller.Op.effect, if_neg hop]
        exact Epoller.listening_ne_new _ _
      · exact hw c' hact
    | stop =>
      have hq := quiet_stopInLoop (h.setRunning false)
      have hset : Calm s (s.setRunning false) := calm_of_eq rfl rfl rfl
      refine ⟨(hw.calm hset).quiet hq ?_, (hlog.quiet hset.new).quiet hq.new⟩
      exact fun hs c hc hch => hi ⟨hs, c, hc, hch⟩
    | task hact hr hq =>
      have hquiet := quiet_task h hr hq
      refine ⟨?_, hlog.quiet hquiet.new⟩
      intro c hc
      rw [hquiet.active, hact] at hc
      cases hc
    | _ => exact absurd rfl hk

end Waiting

/-! ## Runs in which one is -/

/-- A removed channel waits in the batch, or has had its turn. -/
def Doomed (s : EventLoop) : Prop :=
  ¬ Silent s.log ∨ ∃ c ∈ s.activeChannels, s.status c = .kNew

section Doomed

variable {s s' : EventLoop} {i : Input}

theorem not_silent_mono (hold : ∀ e ∈ s.log, e ∈ s'.log) (h : ¬ Silent s.log) :
    ¬ Silent s'.log :=
  fun hs => h ⟨fun c st he => hs.registered c st (hold _ he),
    fun st he => hs.connecting st (hold _ he)⟩

theorem Doomed.quiet (h : s.Doomed) (hq : Quiet s s') : s'.Doomed := by
  rcases h with hlog | ⟨c, hact, hst⟩
  · exact .inl (not_silent_mono hq.old hlog)
  · refine .inr ⟨c, by rw [hq.active]; exact hact, ?_⟩
    rcases hq.status c hact with heq | ⟨hnew, _⟩
    · exact heq.trans hst
    · exact hnew

theorem Doomed.calm (h : s.Doomed) (hc : Calm s s') : s'.Doomed := h.quiet hc.quiet

/-- The turn of the removed channel, or of one before it. -/
theorem Doomed.dispatch (h : s.Doomed) (hinv : s.Inv) {c : ChanId} {rest : List ChanId}
    (hact : s.activeChannels = c :: rest) (errCode : Nat) (selfConnect : Bool) :
    (handleEvent { s with activeChannels := rest } c errCode selfConnect).Doomed := by
  have hnodup := hinv.nodup
  rw [hact, List.nodup_cons] at hnodup
  have hpop : ({ s with activeChannels := rest } : EventLoop).Inv := { hinv with nodup := hnodup.2 }
  have hobs : (({ s with activeChannels := rest } : EventLoop).observe
      (.handleEvent c (s.status c))).Doomed := by
    rcases h with hlog | ⟨c', hmem, hst⟩
    · exact .inl (not_silent_mono (fun e he => List.mem_append_left _ he) hlog)
    · rw [hact] at hmem
      rcases List.mem_cons.mp hmem with rfl | hrest
      · refine .inl fun hs => hs.registered c' _ ?_ hst
        exact List.mem_append_right _ (List.mem_singleton.mpr rfl)
      · exact .inr ⟨c', hrest, hst⟩
  rcases handleEvent_cases hpop c errCode selfConnect with ⟨_, hc⟩ | ⟨_, hq⟩ | ⟨_, hq⟩
  · exact hobs.calm hc
  · exact hobs.quiet hq
  · have hobs' : ((({ s with activeChannels := rest } : EventLoop).observe
        (.handleEvent c (s.status c))).observe (.handleWrite s.connector.state)).Doomed := by
      rcases hobs with hlog | hwait
      · exact .inl (not_silent_mono (fun e he => List.mem_append_left _ he) hlog)
      · exact .inr hwait
    exact hobs'.quiet hq

theorem step_doomed (h : s.Doomed) (hinv : s.Inv) (hn : s.Next i s') (hi : ¬ Reregisters s i) :
    s'.Doomed := by
  by_cases hk : i.keepsBatch = true
  · exact h.calm (step_calm hinv hn hk)
  · cases hn with
    | poll hact =>
      rcases h with hlog | ⟨c, hmem, _⟩
      · exact .inl hlog
      · rw [hact] at hmem
        cases hmem
    | dispatch hact => exact h.dispatch hinv hact _ _
    | @op c op hmade hu =>
      rcases h with hlog | ⟨c', hmem, hst⟩
      · exact .inl hlog
      · refine .inr ⟨c', hmem, ?_⟩
        rw [exec_status hinv hu]
        split
        · rename_i hcc
          subst hcc
          by_cases hop : op = .remove
          · subst hop
            rfl
          · exact absurd ⟨hop, hmem, hst⟩ hi
        · exact hst
    | stop =>
      have hset : Calm s (s.setRunning false) := calm_of_eq rfl rfl rfl
      exact (h.calm hset).quiet (quiet_stopInLoop (hinv.setRunning false))
    | task hact hr hq => exact h.quiet (quiet_task hinv hr hq)
    | _ => exact absurd rfl hk

theorem step_removesWaiting (hinv : s.Inv) (hn : s.Next i s') (hi : RemovesWaiting s i) :
    s'.Doomed := by
  cases hn with
  | @op c op hmade hu =>
    cases op with
    | remove =>
      refine .inr ⟨c, hi, ?_⟩
      rw [exec_status hinv hu, if_pos rfl]
      rfl
    | _ => exact absurd hi id
  | stop =>
    obtain ⟨hs, c, hact, hc⟩ := hi
    have hinv' := hinv.setRunning false
    refine .inr ⟨c, by rw [(quiet_stopInLoop hinv').active]; exact hact, ?_⟩
    have hcancel : ({ s.setRunning false with
        timers := (s.setRunning false).timers.erase s.connector.timerId } : EventLoop).Inv :=
      { hinv' with }
    have hstatus := removeAndResetChannel_status hcancel hs hc c
    rw [if_pos rfl] at hstatus
    unfold stopInLoop
    dsimp only
    rw [if_pos (by exact hs), setState_removeAndResetChannel]
    exact hstatus
  | _ => exact absurd hi id

end Doomed

/-! ## The law -/

section Runs

variable {s t : EventLoop} {is : List Input}

theorem run_waiting (h : s.Inv ∧ s.Waiting ∧ Silent s.log)
    (hgood : Machine.Along step (fun s i => ¬ RemovesWaiting s i) s is)
    (hrun : Machine.run step s is = some t) : t.Inv ∧ t.Waiting ∧ Silent t.log := by
  refine Machine.run_invariant_along (P := fun s => s.Inv ∧ s.Waiting ∧ Silent s.log) ?_ h hgood hrun
  rintro s i s' ⟨hinv, hw, hlog⟩ hi hstep
  have hn := step_next hstep
  exact ⟨step_inv hinv hn, step_waiting hinv hw hlog hn hi⟩

theorem run_doomed (h : s.Inv ∧ s.Doomed)
    (hre : Machine.Along step (fun s i => ¬ Reregisters s i) s is)
    (hrun : Machine.run step s is = some t) : t.Inv ∧ t.Doomed := by
  refine Machine.run_invariant_along (P := fun s => s.Inv ∧ s.Doomed) ?_ h hre hrun
  rintro s i s' ⟨hinv, hd⟩ hi hstep
  have hn := step_next hstep
  exact ⟨step_inv hinv hn, step_doomed hd hinv hn hi⟩

/-- Once the batch is through, a removal that hit it has shown. -/
theorem along_of_silent (hinv : s.Inv)
    (hre : Machine.Along step (fun s i => ¬ Reregisters s i) s is)
    (hrun : Machine.run step s is = some t) (hdone : t.activeChannels = [])
    (hlog : Silent t.log) : Machine.Along step (fun s i => ¬ RemovesWaiting s i) s is := by
  induction is generalizing s with
  | nil => trivial
  | cons i is ih =>
    obtain ⟨m, hm, hrest⟩ := Machine.run_cons_iff.mp hrun
    have hn := step_next hm
    have hinv' := step_inv hinv hn
    have hre' := hre.2 m hm
    constructor
    · intro hbad
      obtain ⟨_, hd⟩ := run_doomed ⟨hinv', step_removesWaiting hinv hn hbad⟩ hre' hrest
      rcases hd with hlog' | ⟨c, hc, _⟩
      · exact hlog' hlog
      · rw [hdone] at hc
        cases hc
    · intro m' hm'
      obtain rfl : m = m' := Option.some.inj (hm.symm.trans hm')
      exact ih hinv' hre' hrest

end Runs

end EventLoop

end LinuxNet
