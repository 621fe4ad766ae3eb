import LinuxNet.Connector.Dispatch

/-!
# `net::TCPClient` connecting again

`Connect` and `Disconnect` are `Start` and `Stop` of the connector, called in the thread of
the loop. `Start` expects the state DISCONNECTED; `Retry`, `Restart` and a `Stop` during an
attempt lead back to it, but a success leaves the connector CONNECTED, and a `Stop` behind
it changes nothing.

`Sound` is what a client keeps whose `Disconnect` comes before the success of an attempt. It
says where retry timers can be: there is one at most, and none unless the connector is
DISCONNECTED, so that no timer finds the connector in another state either.
-/

namespace LinuxNet

set_option autoImplicit false

open LinuxNet.Lib

structure TCPClient where
  /-- `retry_` and `connect_`. -/
  retry : Bool
  connect : Bool
  loop : EventLoop

namespace TCPClient

def new (p : Epoller) : TCPClient := ⟨false, false, EventLoop.new p⟩

inductive Input where
  /-- Code in the thread of the loop calls `Connect`, `Disconnect` or `EnableRetry`. -/
  | connect (r : Attempt)
  | disconnect
  | enableRetry
  /-- Anything else that happens in the loop. -/
  | loop (i : EventLoop.Input)
  deriving DecidableEq, Repr

/-- The connector is called by the client only, in the thread of the loop;
`RemoveConnection` restarts it if `retry_ && connect_`. -/
def allows (c : TCPClient) : EventLoop.Input → Bool
  | .act (.start _) | .act .stop | .startElsewhere | .stopElsewhere => false
  | .act (.removeConnection r) => r.isSome == (c.retry && c.connect)
  | _ => true

/-- `Connect` and `Disconnect` alternate, and the work that a `Disconnect` has queued is
done before the next `Connect`: the tasks of the connector have run, and the close of the
connection has reset `connection_`. -/
def step (c : TCPClient) : Input → Option TCPClient
  | .connect r =>
    if c.connect = false ∧ c.loop.taskList = [] ∧ c.loop.connection = false then
      (c.loop.step (.act (.start r))).map fun s => { c with connect := true, loop := s }
    else none
  | .disconnect =>
    if c.connect then
      (c.loop.step (.act .stop)).map fun s => { c with connect := false, loop := s }
    else none
  | .enableRetry => some { c with retry := true }
  | .loop i =>
    if c.allows i then (c.loop.step i).map fun s => { c with loop := s } else none

/-- `Disconnect` behind the success of an attempt. -/
def DisconnectsConnected (c : TCPClient) (i : Input) : Prop :=
  i = .disconnect ∧ c.loop.connector.state = .connected

def Input.isConnect : Input → Bool
  | .connect _ => true
  | _ => false

/-- `Connect` while a retry timer that has expired is still to be called. -/
def ConnectsExpired (c : TCPClient) (i : Input) : Prop :=
  i.isConnect = true ∧ c.loop.expired ≠ []

/-- The step leaves a state behind in which a later `StartInLoop` is not expected. -/
def Strands (c : TCPClient) (i : Input) : Prop :=
  DisconnectsConnected c i ∨ ConnectsExpired c i

instance (c : TCPClient) (i : Input) : Decidable (DisconnectsConnected c i) :=
  inferInstanceAs (Decidable (_ ∧ _))

instance (c : TCPClient) (i : Input) : Decidable (ConnectsExpired c i) :=
  inferInstanceAs (Decidable (_ ∧ _))

instance (c : TCPClient) (i : Input) : Decidable (Strands c i) :=
  inferInstanceAs (Decidable (_ ∨ _))

end TCPClient

namespace EventLoop

/-! ## Where the retry timers are -/

/-- The retry timers that have not been called yet. -/
def retries (s : EventLoop) : List Nat := s.timers ++ s.expired

/-- The connector of a client with this `connect_`. -/
structure Sound (connect : Bool) (s : EventLoop) : Prop where
  asserts : .startInLoop ∉ s.asserts
  queue : ∀ t ∈ s.taskList, t = .resetChannel
  retries : s.retries = [] ∨
    s.connector.state = .disconnected ∧ s.retries = [s.connector.timerId]
  client : s.connection = true → s.connector.state = .connected
  stopped : connect = false →
    s.connector.running = false ∧ s.connector.state = .disconnected ∧ s.timers = []

/-- Nothing is under way. -/
structure Vacant (s : EventLoop) : Prop where
  asserts : .startInLoop ∉ s.asserts
  queue : ∀ t ∈ s.taskList, t = .resetChannel
  retries : s.retries = []
  client : s.connection = false

section Functions

variable {b : Bool} {s t : EventLoop} {r : Attempt}

theorem Vacant.sound (h : s.Vacant) : Sound true s :=
  ⟨h.asserts, h.queue, .inl h.retries, fun hc => by simp [h.client] at hc, nofun⟩

/-- `Sound` reads these fields. -/
theorem Sound.congr (h : Sound b s) (ha : .startInLoop ∉ t.asserts)
    (hq : ∀ x ∈ t.taskList, x = .resetChannel) (hr : t.retries = s.retries)
    (htimers : t.timers = s.timers) (hst : t.connector.state = s.connector.state)
    (hid : t.connector.timerId = s.connector.timerId)
    (hrun : t.connector.running = s.connector.running)
    (hc : t.connection = true → s.connection = true) : Sound b t := by
  refine ⟨ha, hq, ?_, ?_, ?_⟩
  · rw [hr, hst, hid]
    exact h.retries
  · rw [hst]
    exact fun hcon => h.client (hc hcon)
  · rw [hrun, hst, htimers]
    exact h.stopped

theorem startInLoop_notMem_abort (h : .startInLoop ∉ s.asserts) {a : Assert}
    (ha : a ≠ .startInLoop) : .startInLoop ∉ (s.abort a).asserts := by
  simp [abort, h, ha.symm]

theorem Sound.abort (h : Sound b s) {a : Assert} (ha : a ≠ .startInLoop) :
    Sound b (s.abort a) :=
  h.congr (startInLoop_notMem_abort h.asserts ha) h.queue rfl rfl rfl rfl rfl id

theorem Sound.observe (h : Sound b s) (e : Event) : Sound b (s.observe e) :=
  h.congr h.asserts h.queue rfl rfl rfl rfl rfl id

/-- `Retry` sets the only timer. -/
theorem Vacant.retry (h : s.Vacant) : Sound true s.retry := by
  unfold EventLoop.retry
  dsimp only
  split
  · refine ⟨h.asserts, h.queue, .inr ⟨rfl, ?_⟩, ?_, nofun⟩
    · obtain ⟨htimers, hexp⟩ := List.append_eq_nil_iff.mp h.retries
      simp [EventLoop.retries, EventLoop.setState, EventLoop.observe, htimers, hexp]
    · exact fun hc => absurd (h.client.symm.trans hc) Bool.false_ne_true
  · refine ⟨h.asserts, h.queue, .inl h.retries, ?_, nofun⟩
    exact fun hc => absurd (h.client.symm.trans hc) Bool.false_ne_true

theorem Vacant.connecting (h : s.Vacant) (hs : s.connector.state = .disconnected) (fd : Nat)
    (c : ChanId) : Sound true (s.connecting fd c) := by
  cases hc : s.connector.channel with
  | some c' =>
    rw [connecting_abort hs hc]
    exact h.sound.abort (by decide)
  | none =>
    rw [connecting_eq hs hc]
    exact Vacant.sound ⟨h.asserts, h.queue, h.retries, h.client⟩

/-- `StartInLoop` of a connector that is DISCONNECTED. -/
theorem Vacant.startInLoop (h : s.Vacant) (hs : s.connector.state = .disconnected) :
    Sound true (s.startInLoop r) := by
  have hobs : (s.observe (.socket r.fd)).Vacant := ⟨h.asserts, h.queue, h.retries, h.client⟩
  unfold EventLoop.startInLoop
  rw [if_neg (by simpa using hs)]
  split
  · unfold EventLoop.connect
    dsimp only
    split
    · exact hobs.connecting hs r.fd r.channel
    · exact Vacant.retry ⟨h.asserts, h.queue, h.retries, h.client⟩
  · exact h.sound

theorem Sound.connection_false (h : Sound b s) (hs : s.connector.state ≠ .connected) :
    s.connection = false := by
  by_contra hc
  exact hs (h.client (by simpa using hc))

/-- A connector that is not DISCONNECTED is wanted, and waits for no timer. -/
theorem Sound.started (h : Sound b s) (hs : s.connector.state ≠ .disconnected) :
    b = true ∧ s.retries = [] := by
  constructor
  · by_contra hb
    exact hs (h.stopped (Bool.eq_false_iff.mpr hb)).2.1
  · exact h.retries.resolve_right fun hr => hs hr.1

theorem Sound.connecting (h : Sound b s) (hs : s.connector.state = .connecting) :
    b = true ∧ s.Vacant := by
  obtain ⟨hb, hr⟩ := h.started (by simp [hs])
  exact ⟨hb, h.asserts, h.queue, hr, h.connection_false (by simp [hs])⟩

theorem Vacant.removeAndResetChannel (h : s.Vacant) : s.removeAndResetChannel.Vacant := by
  unfold EventLoop.removeAndResetChannel
  split
  · exact ⟨startInLoop_notMem_abort h.asserts nofun, h.queue, h.retries, h.client⟩
  · refine ⟨h.asserts, ?_, h.retries, h.client⟩
    exact List.forall_mem_append.mpr ⟨h.queue, by simp⟩

theorem Vacant.observe (h : s.Vacant) (e : Event) : (s.observe e).Vacant :=
  ⟨h.asserts, h.queue, h.retries, h.client⟩

theorem Sound.handleError (h : Sound b s) : Sound b s.handleError := by
  unfold EventLoop.handleError
  split
  · rename_i hs
    obtain ⟨rfl, hv⟩ := h.connecting hs
    split
    · exact h.abort nofun
    · exact (hv.removeAndResetChannel.observe _).retry
  · exact h

theorem Sound.handleWrite (h : Sound b s) (errCode : Nat) (selfConnect : Bool) :
    Sound b (s.handleWrite errCode selfConnect) := by
  have hobs := h.observe (.handleWrite s.connector.state)
  have hend := s.writeHandled errCode selfConnect
  generalize s.handleWrite errCode selfConnect = t at hend ⊢
  cases hend with
  | notConnecting => exact hobs.abort (by simp)
  | nullChannel => exact hobs.abort (by simp)
  | refused hs =>
    obtain ⟨rfl, hv⟩ := hobs.connecting hs
    exact (hv.removeAndResetChannel.observe _).retry
  | accepted hs =>
    obtain ⟨rfl, hv⟩ := hobs.connecting hs
    have hrel := hv.removeAndResetChannel
    exact ⟨hrel.asserts, hrel.queue, .inl hrel.retries, fun _ => rfl, nofun⟩
  | stopped hs =>
    obtain ⟨rfl, hv⟩ := hobs.connecting hs
    have hrel := hv.removeAndResetChannel
    exact ⟨hrel.asserts, hrel.queue, .inl hrel.retries, fun _ => rfl, nofun⟩

theorem Sound.handleEvent (h : Sound b s) (c : ChanId) (errCode : Nat) (selfConnect : Bool) :
    Sound b (s.handleEvent c errCode selfConnect) := by
  have hobs := h.observe (.handleEvent c (s.poller.chans c).status)
  have hend := s.eventHandled c errCode selfConnect
  generalize s.handleEvent c errCode selfConnect = t at hend ⊢
  cases hend with
  | foreign => exact hobs.congr hobs.asserts hobs.queue rfl rfl rfl rfl rfl id
  | error => exact hobs.handleError
  | write => exact hobs.handleWrite errCode selfConnect
  | ignored => exact hobs

/-- `TimerCancel(timer_id_)` reaches the timer unless it has expired. -/
theorem Sound.cancel (h : Sound b s) : s.timers.erase s.connector.timerId = [] ∧
    (s.expired = [] ∨ s.connector.state = .disconnected ∧ s.expired = [s.connector.timerId]) := by
  rcases h.retries with hnone | ⟨hs, hone⟩
  · obtain ⟨htimers, hexp⟩ := List.append_eq_nil_iff.mp hnone
    rw [htimers]
    exact ⟨rfl, .inl hexp⟩
  · rcases List.append_eq_singleton_iff.mp hone with ⟨htimers, hexp⟩ | ⟨htimers, hexp⟩
    · rw [htimers]
      exact ⟨rfl, .inr ⟨hs, hexp⟩⟩
    · rw [htimers]
      exact ⟨by simp, .inl hexp⟩

/-- The part of `Stop` that does not depend on the state. -/
def cancelled (s : EventLoop) : EventLoop :=
  { s with
    timers := s.timers.erase s.connector.timerId
    connector := { s.connector with running := false } }

theorem stop_eq (s : EventLoop) : (s.setRunning false).stopInLoop =
    if s.connector.state = .connecting then s.cancelled.removeAndResetChannel.setState .disconnected
    else s.cancelled := by
  rw [← setState_removeAndResetChannel]
  rfl

theorem removeAndResetChannel_running (s : EventLoop) :
    s.removeAndResetChannel.connector = s.connector ∧
      s.removeAndResetChannel.timers = s.timers := by
  unfold EventLoop.removeAndResetChannel
  split <;> exact ⟨rfl, rfl⟩

/-- `Disconnect` before the success of an attempt. -/
theorem Sound.stop (h : Sound b s) (hs : s.connector.state ≠ .connected) :
    Sound false (s.setRunning false).stopInLoop := by
  obtain ⟨htimers, hexp⟩ := h.cancel
  have hclient := h.connection_false hs
  rw [stop_eq]
  split
  · rename_i hconn
    have hexp : s.expired = [] := hexp.resolve_right fun he => by simp [hconn] at he
    have hv : s.cancelled.Vacant :=
      ⟨h.asserts, h.queue, List.append_eq_nil_iff.mpr ⟨htimers, hexp⟩, hclient⟩
    have hrel := hv.removeAndResetChannel
    obtain ⟨hcon, htm⟩ := removeAndResetChannel_running s.cancelled
    refine ⟨hrel.asserts, hrel.queue, .inl hrel.retries, ?_, fun _ => ⟨?_, rfl, ?_⟩⟩
    · exact fun hc => absurd (hrel.client.symm.trans hc) Bool.false_ne_true
    · show s.cancelled.removeAndResetChannel.connector.running = false
      rw [hcon]
      rfl
    · exact htm.trans htimers
  · rename_i hconn
    have hdis : s.connector.state = .disconnected := by
      cases hst : s.connector.state <;> simp_all
    have hretries : s.cancelled.retries = s.expired := by
      simp [EventLoop.retries, cancelled, htimers]
    refine ⟨h.asserts, h.queue, ?_, ?_, fun _ => ⟨rfl, hdis, htimers⟩⟩
    · rw [hretries]
      exact hexp
    · exact fun hc => absurd (hclient.symm.trans hc) Bool.false_ne_true

/-- The next retry timer is called. -/
theorem Sound.fire (h : Sound b s) {t : Nat} {rest : List Nat} (hexp : s.expired = t :: rest) :
    Sound b (EventLoop.startInLoop { s with expired := rest } r) := by
  obtain ⟨hs, hone⟩ := h.retries.resolve_left (by simp [EventLoop.retries, hexp])
  obtain ⟨htimers, hrest⟩ : s.timers = [] ∧ rest = [] := by
    rw [EventLoop.retries, hexp] at hone
    rcases List.append_eq_singleton_iff.mp hone with ⟨htimers, hone⟩ | ⟨-, hnil⟩
    · exact ⟨htimers, (List.cons.inj hone).2⟩
    · cases hnil
  have hv : ({ s with expired := rest } : EventLoop).Vacant :=
    ⟨h.asserts, h.queue, List.append_eq_nil_iff.mpr ⟨htimers, hrest⟩,
      h.connection_false (by simp [hs])⟩
  cases b with
  | true => exact hv.startInLoop hs
  | false =>
    -- the client has disconnected since the timer expired
    obtain ⟨hrun, -, -⟩ := h.stopped rfl
    have hskip : EventLoop.startInLoop { s with expired := rest } r =
        { s with expired := rest } := by
      simp [EventLoop.startInLoop, hs, hrun]
    rw [hskip]
    refine ⟨h.asserts, h.queue, .inl hv.retries, h.client, fun _ => ⟨hrun, hs, htimers⟩⟩

/-- `TimerQueue::HandleRead` takes timers out of the queue. -/
theorem Sound.expire (h : Sound b s) {ts : List Nat} (hexp : s.expired = []) (hnodup : ts.Nodup)
    (hsub : ∀ t ∈ ts, t ∈ s.timers) :
    Sound b { s with expired := ts, timers := s.timers.filter fun t => !ts.contains t } := by
  rcases h.retries with hnone | ⟨hs, hone⟩
  · obtain ⟨htimers, -⟩ := List.append_eq_nil_iff.mp hnone
    obtain rfl : ts = [] := by
      rw [htimers] at hsub
      exact List.eq_nil_iff_forall_not_mem.mpr fun t ht => absurd (hsub t ht) List.not_mem_nil
    refine h.congr h.asserts h.queue ?_ ?_ rfl rfl rfl id
    · simp [EventLoop.retries, htimers, hexp]
    · simp [htimers]
  · have htimers : s.timers = [s.connector.timerId] := by
      rwa [EventLoop.retries, hexp, List.append_nil] at hone
    have hb : b = false → False := fun hb => by simp [(h.stopped hb).2.2] at htimers
    have hall : ∀ t ∈ ts, t = s.connector.timerId := by simpa [htimers] using hsub
    refine ⟨h.asserts, h.queue, .inr ⟨hs, ?_⟩, h.client, fun hb' => absurd hb' hb⟩
    show s.timers.filter (fun t => !ts.contains t) ++ ts = [s.connector.timerId]
    cases ts with
    | nil => simp [htimers]
    | cons t rest =>
      obtain rfl : t = s.connector.timerId := hall t List.mem_cons_self
      obtain rfl : rest = [] := by
        refine List.eq_nil_iff_forall_not_mem.mpr fun x hx => ?_
        rw [hall x (List.mem_cons_of_mem _ hx)] at hx
        exact (List.nodup_cons.mp hnodup).1 hx
      simp [htimers]

end Functions

end EventLoop

namespace TCPClient

/-! ## Steps -/

/-- What a step can be. -/
inductive Next (c : TCPClient) : Input → TCPClient → Prop where
  | connect {r : Attempt} (hlive : c.loop.asserts = []) (hoff : c.connect = false)
      (hc : c.loop.connection = false) :
      Next c (.connect r)
        { c with connect := true, loop := (c.loop.setRunning true).startInLoop r }
  | disconnect (hlive : c.loop.asserts = []) (hon : c.connect = true) :
      Next c .disconnect
        { c with connect := false, loop := (c.loop.setRunning false).stopInLoop }
  | enableRetry : Next c .enableRetry { c with retry := true }
  | loop {i : EventLoop.Input} {s : EventLoop} (hi : c.allows i = true)
      (hs : c.loop.step i = some s) : Next c (.loop i) { c with loop := s }

section Steps

variable {c d : TCPClient} {i : Input}

theorem step_next (h : c.step i = some d) : c.Next i d := by
  cases i with
  | connect r =>
    simp only [step] at h
    split at h
    · rename_i hg
      obtain ⟨s, hs, rfl⟩ := Option.map_eq_some_iff.mp h
      have hlive := EventLoop.alive_of_step hs
      cases EventLoop.step_next hs
      exact .connect hlive hg.1 hg.2.2
    · cases h
  | disconnect =>
    simp only [step] at h
    split at h
    · rename_i hon
      obtain ⟨s, hs, rfl⟩ := Option.map_eq_some_iff.mp h
      have hlive := EventLoop.alive_of_step hs
      cases EventLoop.step_next hs
      exact .disconnect hlive hon
    · cases h
  | enableRetry =>
    cases h
    exact .enableRetry
  | loop i =>
    simp only [step] at h
    split at h
    · rename_i hi
      obtain ⟨s, hs, rfl⟩ := Option.map_eq_some_iff.mp h
      exact .loop hi hs
    · cases h

theorem expire_guard {s t : EventLoop} {ts : List Nat} (h : s.step (.act (.expire ts)) = some t) :
    s.expired = [] ∧ ts.Nodup ∧ ∀ x ∈ ts, x ∈ s.timers := by
  simp only [EventLoop.step, EventLoop.stepOn, EventLoop.act] at h
  split at h
  · split at h
    · split at h
      · rename_i hg
        exact ⟨hg.1, hg.2.1, by simpa using hg.2.2⟩
      · cases h
    · cases h
  · cases h

theorem loop_sound {i : EventLoop.Input} {t : EventLoop} (h : EventLoop.Sound c.connect c.loop)
    (hi : c.allows i = true) (hs : c.loop.step i = some t) : EventLoop.Sound c.connect t := by
  cases EventLoop.step_next hs with
  | @dispatch errCode selfConnect ch rest =>
    refine EventLoop.Sound.handleEvent ?_ ch errCode selfConnect
    exact h.congr h.asserts h.queue rfl rfl rfl rfl rfl id
  | start => cases hi
  | stop => cases hi
  | removeConnection => exact h.congr h.asserts h.queue rfl rfl rfl rfl rfl nofun
  | restart hc =>
    -- a connection was handed over, so no attempt is under way and no timer is set
    obtain ⟨hon, hr⟩ := h.started (by simp [h.client hc])
    rw [hon]
    exact EventLoop.Vacant.startInLoop ⟨h.asserts, h.queue, hr, rfl⟩ rfl
  | expire =>
    obtain ⟨hexp, hnodup, hsub⟩ := expire_guard hs
    exact h.expire hexp hnodup hsub
  | fire hexp => exact h.fire hexp
  | @task r task rest hact hr hq =>
    have hhead := h.queue task (by rw [hq]; exact List.mem_cons_self)
    subst hhead
    refine h.congr h.asserts (fun x hx => h.queue x ?_) rfl rfl rfl rfl rfl id
    rw [hq]
    exact List.mem_cons_of_mem _ hx
  | startElsewhere => cases hi
  | stopElsewhere => cases hi
  | _ => exact h.congr h.asserts h.queue rfl rfl rfl rfl rfl id

theorem step_sound (h : EventLoop.Sound c.connect c.loop) (hg : ¬ Strands c i)
    (hn : c.Next i d) : EventLoop.Sound d.connect d.loop := by
  cases hn with
  | @connect r hlive hoff hc =>
    obtain ⟨-, hs, htimers⟩ := h.stopped hoff
    have hexp : c.loop.expired = [] := by
      by_contra hexp
      exact hg (.inr ⟨rfl, hexp⟩)
    refine EventLoop.Vacant.startInLoop ⟨h.asserts, h.queue, ?_, hc⟩ hs
    exact List.append_eq_nil_iff.mpr ⟨htimers, hexp⟩
  | disconnect => exact h.stop fun hs => hg (.inl ⟨rfl, hs⟩)
  | enableRetry => exact h
  | loop hi hs => exact loop_sound (c := c) h hi hs

/-! ## Behind a `Disconnect` that comes too late -/

/-- The connector is CONNECTED, and nothing but `Connect` is going to call it. -/
def Stranded (c : TCPClient) : Prop :=
  c.loop.asserts ≠ [] ∨ c.connect = false ∧ c.loop.connector.state = .connected

theorem stranded_of_disconnect (hg : DisconnectsConnected c i) (hn : c.Next i d) : d.Stranded := by
  obtain ⟨rfl, hs⟩ := hg
  cases hn with
  | disconnect =>
    refine .inr ⟨rfl, ?_⟩
    show (c.loop.setRunning false).stopInLoop.connector.state = .connected
    rw [EventLoop.stop_eq, if_neg (by simp [hs])]
    exact hs

theorem startInLoop_connected {s : EventLoop} (hs : s.connector.state = .connected) (r : Attempt) :
    .startInLoop ∈ (s.startInLoop r).asserts := by
  unfold EventLoop.startInLoop
  rw [if_pos (by simp [hs])]
  exact List.mem_append_right _ List.mem_cons_self

theorem handleEvent_connected {s : EventLoop} (hs : s.connector.state = .connected) (ch : ChanId)
    (errCode : Nat) (selfConnect : Bool) :
    (s.handleEvent ch errCode selfConnect).asserts ≠ [] ∨
      (s.handleEvent ch errCode selfConnect).connector.state = .connected := by
  have hobs : ∀ e, (s.observe e).connector.state = .connected := fun _ => hs
  have herror : ∀ e, ((s.observe e).handleError).connector.state = .connected := by
    intro e
    unfold EventLoop.handleError
    rw [if_neg (by simp [hobs])]
    exact hs
  have hend := s.eventHandled ch errCode selfConnect
  generalize s.handleEvent ch errCode selfConnect = t at hend ⊢
  cases hend with
  | foreign => exact .inr hs
  | error => exact .inr (herror _)
  | write =>
    left
    unfold EventLoop.handleWrite
    dsimp only
    rw [if_pos (by simp [EventLoop.observe, hs])]
    simp [EventLoop.abort]
  | ignored => exact .inr hs

theorem loop_stranded {i : EventLoop.Input} {t : EventLoop} (hoff : c.connect = false)
    (hconn : c.loop.connector.state = .connected) (hi : c.allows i = true)
    (hs : c.loop.step i = some t) : t.asserts ≠ [] ∨ t.connector.state = .connected := by
  cases EventLoop.step_next hs with
  | @dispatch errCode selfConnect ch rest =>
    exact handleEvent_connected (s := { c.loop with activeChannels := rest }) hconn ch errCode
      selfConnect
  | start => cases hi
  | stop => cases hi
  | restart => simp [allows, hoff] at hi
  | @fire r _ rest =>
    exact .inl (List.ne_nil_of_mem
      (startInLoop_connected (s := { c.loop with expired := rest }) hconn r))
  | @task r task rest =>
    cases task with
    | startInLoop =>
      exact .inl (List.ne_nil_of_mem
        (startInLoop_connected (s := { c.loop with taskList := rest }) hconn r))
    | stopInLoop =>
      refine .inr ?_
      show (EventLoop.stopInLoop { c.loop with taskList := rest }).connector.state = _
      unfold EventLoop.stopInLoop
      dsimp only
      rw [if_neg (by simp [hconn])]
      exact hconn
    | resetChannel => exact .inr hconn
  | _ => exact .inr hconn

theorem step_stranded (h : c.Stranded) (hn : c.Next i d) : d.Stranded := by
  rcases h with hdead | ⟨hoff, hconn⟩
  · cases hn with
    | connect hlive => exact absurd hlive hdead
    | disconnect hlive => exact absurd hlive hdead
    | enableRetry => exact .inl hdead
    | loop hi hs => exact absurd (EventLoop.alive_of_step hs) hdead
  · cases hn with
    | @connect r =>
      exact .inl (List.ne_nil_of_mem (startInLoop_connected (s := c.loop.setRunning true) hconn r))
    | disconnect hlive hon =>
      rw [hoff] at hon
      cases hon
    | enableRetry => exact .inr ⟨hoff, hconn⟩
    | loop hi hs =>
      rcases loop_stranded hoff hconn hi hs with hdead | hconn
      · exact .inl hdead
      · exact .inr ⟨hoff, hconn⟩

/-- The next `Connect` finds the connector CONNECTED. -/
theorem Stranded.connect {r : Attempt} (h : c.Stranded) (hn : c.Next (.connect r) d) :
    .startInLoop ∈ d.loop.asserts := by
  cases hn with
  | connect hlive =>
    obtain ⟨-, hconn⟩ := h.resolve_left (not_not.mpr hlive)
    exact startInLoop_connected (s := c.loop.setRunning true) hconn r

end Steps

theorem sound_new (p : Epoller) : EventLoop.Sound false (EventLoop.new p) where
  asserts := List.not_mem_nil
  queue := nofun
  retries := .inl rfl
  client := nofun
  stopped _ := ⟨rfl, rfl, rfl⟩

/-- **`StartInLoop` finds the connector DISCONNECTED, unless a `Disconnect` comes behind the
success of an attempt.** For every alternating sequence of `Connect` and `Disconnect` the
`assert` of `StartInLoop` holds if no `Disconnect` is called while the connector is CONNECTED
and no `Connect` while an expired retry timer is still to be called. Behind a `Disconnect`
of the first kind it fails in the next `Connect`. -/
theorem startInLoop_disconnected (p : Epoller) (is : List Input) (c : TCPClient)
    (hrun : Machine.run step (TCPClient.new p) is = some c) :
    (Machine.Along step (fun c i => ¬ Strands c i) (TCPClient.new p) is →
      .startInLoop ∉ c.loop.asserts) ∧
    (Machine.Sometime step DisconnectsConnected (TCPClient.new p) is →
      ∀ r d, c.step (.connect r) = some d → .startInLoop ∈ d.loop.asserts) := by
  constructor
  · intro hgood
    have hstep : ∀ {c i d}, EventLoop.Sound c.connect c.loop → ¬ Strands c i → step c i = some d →
        EventLoop.Sound d.connect d.loop := fun h hg hs => step_sound h hg (step_next hs)
    exact (Machine.run_invariant_along (P := fun c => EventLoop.Sound c.connect c.loop) hstep
      (sound_new p) hgood hrun).asserts
  · intro hlate r d hs
    have henter : ∀ {c i d}, DisconnectsConnected c i → step c i = some d → d.Stranded :=
      fun hg hs => stranded_of_disconnect hg (step_next hs)
    have hkeep : ∀ {c d : TCPClient} {i}, c.Stranded → step c i = some d → d.Stranded :=
      fun h hs => step_stranded h (step_next hs)
    exact (Machine.run_of_sometime henter hkeep hlate hrun).connect (step_next hs)

/-- A `Disconnect` during an attempt; the next `Connect` succeeds. -/
theorem startInLoop_disconnected_again : ∃ c,
    Machine.run step (TCPClient.new (Epoller.new 8 (· + 1)))
      [.loop .userTask, .connect ⟨2, EINPROGRESS, 1⟩, .disconnect, .loop .ret,
       .loop (.task ⟨3, 0, 5⟩), .loop .userTask, .connect ⟨2, EINPROGRESS, 2⟩, .loop .ret,
       .loop (.poll [(2, EPOLLOUT)]), .loop (.dispatch 0 false)] = some c ∧
    c.loop.connector.state = .connected ∧ .startInLoop ∉ c.loop.asserts := by
  obtain ⟨c, hrun, hstate⟩ := Option.map_eq_some_iff.mp (show (Machine.run step
      (TCPClient.new (Epoller.new 8 (· + 1)))
      [.loop .userTask, .connect ⟨2, EINPROGRESS, 1⟩, .disconnect, .loop .ret,
       .loop (.task ⟨3, 0, 5⟩), .loop .userTask, .connect ⟨2, EINPROGRESS, 2⟩, .loop .ret,
       .loop (.poll [(2, EPOLLOUT)]), .loop (.dispatch 0 false)]).map
      (fun c => c.loop.connector.state) = some .connected by decide +kernel)
  refine ⟨c, hrun, hstate, (startInLoop_disconnected _ _ c hrun).1 ?_⟩
  decide +kernel

/-- The attempt succeeds, the client disconnects, the connection is closed and destroyed;
the next `Connect` finds the connector CONNECTED. -/
theorem startInLoop_connected_again :
    (Machine.run step (TCPClient.new (Epoller.new 8 (· + 1)))
      [.loop .userTask, .connect ⟨2, EINPROGRESS, 1⟩, .loop .ret, .loop (.poll [(1, EPOLLOUT)]),
       .loop (.dispatch 0 false), .loop .ret, .loop (.task ⟨3, 0, 5⟩), .loop .userTask,
       .disconnect, .loop .ret, .loop .userTask, .loop (.act (.removeConnection none)),
       .loop .ret, .loop .userTask, .loop .ret, .loop .userTask,
       .connect ⟨3, EINPROGRESS, 2⟩]).map
      (fun c => (c.loop.connector.state, c.loop.connection, c.loop.taskList, c.loop.asserts)) =
    some (.connected, false, [], [.startInLoop]) := by
  decide +kernel

end TCPClient

end LinuxNet
