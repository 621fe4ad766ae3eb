import LinuxNet.Connector.Dispatch
import Mathlib.Algebra.Group.Nat.Defs

/-!
# How long the connector waits

`Retry` schedules the next attempt after `retry_delay_` and doubles the delay up to
`kMaxRetryDelay`. Only `Restart` sets it back: neither a connection nor `Stop` and `Start` do. So
the delays of a run are one series 1, 2, 4, ... for its beginning and one more for each `Restart`.
-/

namespace LinuxNet

set_option autoImplicit false

open LinuxNet.Lib

namespace EventLoop

/-- What `TimerAfter` is called with. -/
def Event.delay? : Event → Option Nat
  | .timerAfter delayS => some delayS
  | _ => none

/-- The delays of the retries, in seconds. -/
def delays (s : EventLoop) : List Nat := s.log.filterMap Event.delay?

/-- `retry_delay_` behind `k` retries. -/
def retryDelayAfter (k : Nat) : Nat := min (kInitRetryDelay * 2 ^ k) kMaxRetryDelay

/-- The delays of the first `n` retries. -/
def series (n : Nat) : List Nat := (List.range n).map fun k => retryDelayAfter k / 1000

example : series 8 = [1, 2, 4, 8, 16, 30, 30, 30] := by decide

/-- `RemoveConnection` calls `Restart`. -/
def Input.restarts : Input → Bool
  | .act (.removeConnection (some _)) => true
  | _ => false

theorem retryDelayAfter_succ (k : Nat) :
    min (retryDelayAfter k * 2) kMaxRetryDelay = retryDelayAfter (k + 1) := by
  rw [retryDelayAfter, retryDelayAfter, Nat.pow_succ]
  simp only [kInitRetryDelay, kMaxRetryDelay]
  omega

theorem series_succ (n : Nat) : series (n + 1) = series n ++ [retryDelayAfter n / 1000] := by
  rw [series, List.range_succ, List.map_append]
  rfl

/-! ## One retry at most -/

/-- There is no retry from `s` to `t`. -/
structure Steady (s t : EventLoop) : Prop where
  retryDelay : t.connector.retryDelay = s.connector.retryDelay
  delays : t.delays = s.delays

/-- There is one. -/
structure Retried (s t : EventLoop) : Prop where
  retryDelay : t.connector.retryDelay = min (s.connector.retryDelay * 2) kMaxRetryDelay
  delays : t.delays = s.delays ++ [s.connector.retryDelay / 1000]

def Waits (s t : EventLoop) : Prop := Steady s t ∨ Retried s t

section Functions

variable {s q t : EventLoop} {r : Attempt}

theorem Steady.of_eq (hd : t.connector.retryDelay = s.connector.retryDelay) (hl : t.log = s.log) :
    Steady s t := ⟨hd, congrArg (List.filterMap Event.delay?) hl⟩

theorem Steady.trans (h : Steady s q) (h' : Steady q t) : Steady s t :=
  ⟨h'.retryDelay.trans h.retryDelay, h'.delays.trans h.delays⟩

theorem Steady.waits (h : Steady s q) (h' : Waits q t) : Waits s t := by
  rcases h' with hsteady | hretried
  · exact .inl (h.trans hsteady)
  · refine .inr ⟨?_, ?_⟩
    · rw [hretried.retryDelay, h.retryDelay]
    · rw [hretried.delays, h.delays, h.retryDelay]

theorem steady_observe (s : EventLoop) {e : Event} (he : e.delay? = none) :
    Steady s (s.observe e) := by
  refine ⟨rfl, ?_⟩
  simp [EventLoop.delays, observe, he]

theorem waits_retry (s : EventLoop) : Waits s s.retry := by
  unfold retry
  dsimp only
  split
  · refine .inr ⟨rfl, ?_⟩
    simp [EventLoop.delays, observe, setState, Event.delay?]
  · exact .inl (.of_eq rfl rfl)

theorem steady_removeAndResetChannel (s : EventLoop) : Steady s s.removeAndResetChannel := by
  unfold removeAndResetChannel
  split <;> exact .of_eq rfl rfl

theorem steady_connecting (s : EventLoop) (fd : Nat) (c : ChanId) :
    Steady s (s.connecting fd c) := by
  unfold connecting
  dsimp only
  split
  · exact .of_eq rfl rfl
  · split <;> exact .of_eq rfl rfl

theorem waits_connect (s : EventLoop) (r : Attempt) : Waits s (s.connect r) := by
  have hsocket : Steady s (s.observe (.socket r.fd)) := steady_observe s rfl
  unfold connect
  dsimp only
  split
  · exact hsocket.waits (.inl (steady_connecting _ r.fd r.channel))
  · exact (hsocket.trans (steady_observe _ rfl)).waits (waits_retry _)

theorem waits_startInLoop (s : EventLoop) (r : Attempt) : Waits s (s.startInLoop r) := by
  unfold startInLoop
  split
  · exact .inl (.of_eq rfl rfl)
  · split
    · exact waits_connect s r
    · exact .inl (.of_eq rfl rfl)

theorem steady_stopInLoop (s : EventLoop) : Steady s s.stopInLoop := by
  unfold stopInLoop
  dsimp only
  split
  · refine Steady.trans ?_ (steady_removeAndResetChannel _)
    exact .of_eq rfl rfl
  · exact .of_eq rfl rfl

theorem waits_handleError (s : EventLoop) : Waits s s.handleError := by
  unfold handleError
  dsimp only
  split
  · split
    · exact .inl (.of_eq rfl rfl)
    · exact ((steady_removeAndResetChannel s).trans (steady_observe _ rfl)).waits (waits_retry _)
  · exact .inl (.of_eq rfl rfl)

theorem waits_handleWrite (s : EventLoop) (errCode : Nat) (selfConnect : Bool) :
    Waits s (s.handleWrite errCode selfConnect) := by
  have hobs : Steady s (s.observe (.handleWrite s.connector.state)) := steady_observe s rfl
  have hremoved := hobs.trans (steady_removeAndResetChannel _)
  have hend := s.writeHandled errCode selfConnect
  generalize s.handleWrite errCode selfConnect = t at hend ⊢
  cases hend with
  | notConnecting | nullChannel => exact hobs.waits (.inl (.of_eq rfl rfl))
  | refused => exact (hremoved.trans (steady_observe _ rfl)).waits (waits_retry _)
  | @accepted c =>
    have hset : Steady s
        ((s.observe (.handleWrite s.connector.state)).removeAndResetChannel.setState .connected) :=
      hremoved.trans (.of_eq rfl rfl)
    have hnew := hset.trans (steady_observe _ (e := .newConn (s.poller.chans c).fd) rfl)
    refine .inl (hnew.trans ?_)
    exact .of_eq rfl rfl
  | stopped =>
    have hset : Steady s
        ((s.observe (.handleWrite s.connector.state)).removeAndResetChannel.setState .connected) :=
      hremoved.trans (.of_eq rfl rfl)
    exact .inl (hset.trans (steady_observe _ rfl))

theorem waits_handleEvent (s : EventLoop) (c : ChanId) (errCode : Nat) (selfConnect : Bool) :
    Waits s (s.handleEvent c errCode selfConnect) := by
  have hobs : Steady s (s.observe (.handleEvent c (s.poller.chans c).status)) :=
    steady_observe s rfl
  have hend := s.eventHandled c errCode selfConnect
  generalize s.handleEvent c errCode selfConnect = t at hend ⊢
  cases hend with
  | foreign => exact hobs.waits (.inl (.of_eq rfl rfl))
  | error => exact hobs.waits (waits_handleError _)
  | write => exact hobs.waits (waits_handleWrite _ errCode selfConnect)
  | ignored => exact .inl hobs

theorem waits_runTask (s : EventLoop) (r : Attempt) (t : ConnectorTask) :
    Waits s (s.runTask r t) := by
  cases t with
  | startInLoop => exact waits_startInLoop s r
  | stopInLoop => exact .inl (steady_stopInLoop s)
  | resetChannel => exact .inl (.of_eq rfl rfl)

end Functions

/-! ## Runs -/

/-- The delays are complete series and behind them the beginning of one. -/
def Backs (s : EventLoop) (restarts : Nat) : Prop :=
  ∃ (ns : List Nat) (n : Nat), ns.length = restarts ∧
    s.delays = ns.flatMap series ++ series n ∧ s.connector.retryDelay = retryDelayAfter n

section Steps

variable {s t : EventLoop} {i : Input} {m : Nat}

theorem Backs.waits (h : s.Backs m) (hw : Waits s t) : t.Backs m := by
  obtain ⟨ns, n, hlen, hdelays, hdelay⟩ := h
  rcases hw with hsteady | hretried
  · exact ⟨ns, n, hlen, hsteady.delays.trans hdelays, hsteady.retryDelay.trans hdelay⟩
  · refine ⟨ns, n + 1, hlen, ?_, ?_⟩
    · rw [hretried.delays, hdelays, hdelay, series_succ, List.append_assoc]
    · rw [hretried.retryDelay, hdelay, retryDelayAfter_succ]

theorem Backs.steady (h : s.Backs m) (hs : Steady s t) : t.Backs m := h.waits (.inl hs)

/-- A new series begins. -/
theorem Backs.restart (h : s.Backs m) (r : Attempt) : (s.restart r).Backs (m + 1) := by
  obtain ⟨ns, n, hlen, hdelays, -⟩ := h
  unfold EventLoop.restart
  dsimp only
  refine Backs.waits ⟨ns ++ [n], 0, ?_, ?_, rfl⟩ (waits_startInLoop _ r)
  · rw [List.length_append, hlen]
    rfl
  · rw [List.flatMap_append, List.flatMap_singleton]
    exact hdelays.trans (List.append_nil _).symm

theorem step_backs (h : s.Backs m) (hn : s.Next i t) :
    t.Backs (m + if i.restarts then 1 else 0) := by
  cases hn with
  | @dispatch errCode selfConnect c rest hact =>
    have hpop : Backs { s with activeChannels := rest } m := h.steady (.of_eq rfl rfl)
    exact hpop.waits (waits_handleEvent _ c errCode selfConnect)
  | @start r =>
    have hset : (s.setRunning true).Backs m := h.steady (.of_eq rfl rfl)
    exact hset.waits (waits_startInLoop _ r)
  | stop =>
    have hset : (s.setRunning false).Backs m := h.steady (.of_eq rfl rfl)
    exact hset.steady (steady_stopInLoop _)
  | @restart r =>
    have hset : Backs { s with connection := false } m := h.steady (.of_eq rfl rfl)
    exact hset.restart r
  | @fire r timer rest =>
    have hpop : Backs { s with expired := rest } m := h.steady (.of_eq rfl rfl)
    exact hpop.waits (waits_startInLoop _ r)
  | @task r task rest =>
    have hpop : Backs { s with taskList := rest } m := h.steady (.of_eq rfl rfl)
    exact hpop.waits (waits_runTask _ r task)
  | _ => exact h.steady (.of_eq rfl rfl)

theorem run_backs {is : List Input} (h : s.Backs m) (hr : Machine.run step s is = some t) :
    t.Backs (m + is.countP Input.restarts) := by
  induction is generalizing s m with
  | nil =>
    rw [Machine.run_nil, Option.some.injEq] at hr
    rw [← hr]
    exact h
  | cons i is ih =>
    obtain ⟨q, hq, hrest⟩ := Machine.run_cons_iff.mp hr
    have hall := ih (step_backs h (step_next hq)) hrest
    rw [List.countP_cons]
    rwa [show m + (is.countP Input.restarts + if i.restarts then 1 else 0) =
      m + (if i.restarts then 1 else 0) + is.countP Input.restarts by omega]

end Steps

/-- **Backing off.** In every run, whatever the outcomes of the attempts, the delays of the retry
timers are one series 1, 2, 4, 8, 16, 30, 30, ... of some length for the beginning of the run and
one for every `Restart`, in this order; and `retry_delay_` never exceeds `kMaxRetryDelay`. -/
theorem retries_back_off (p : Epoller) (is : List Input) (s : EventLoop)
    (hr : Machine.run step (EventLoop.new p) is = some s) :
    ∃ ns : List Nat, ns.length = is.countP Input.restarts + 1 ∧
      s.delays = ns.flatMap series ∧ s.connector.retryDelay ≤ kMaxRetryDelay := by
  have hnew : (EventLoop.new p).Backs 0 := ⟨[], 0, rfl, rfl, rfl⟩
  obtain ⟨ns, n, hlen, hdelays, hdelay⟩ := run_backs hnew hr
  refine ⟨ns ++ [n], ?_, ?_, ?_⟩
  · rw [List.length_append, hlen, Nat.zero_add]
    rfl
  · rw [hdelays, List.flatMap_append, List.flatMap_singleton]
  · rw [hdelay]
    exact Nat.min_le_right _ _

/-- Two attempts are refused, the third one connects. When the connection is removed the client
restarts the connector, and the first attempt is refused. -/
theorem retries_back_off_restarted : ∃ s,
    Machine.run step (EventLoop.new (Epoller.new 8 (· + 1)))
      [.userTask, .act (.start ⟨2, 111, 1⟩), .act (.expire [1]), .act (.fire ⟨2, 111, 1⟩),
       .act (.expire [2]), .act (.fire ⟨2, EINPROGRESS, 1⟩), .ret, .poll [(1, EPOLLOUT)],
       .dispatch 0 false, .act (.removeConnection (some ⟨3, 111, 2⟩))] = some s ∧
    s.delays = [1, 2, 1] ∧ ∃ ns : List Nat, ns.length = 2 ∧ s.delays = ns.flatMap series := by
  obtain ⟨s, hrun, hdelays⟩ := Option.map_eq_some_iff.mp (show (Machine.run step
      (EventLoop.new (Epoller.new 8 (· + 1)))
      [.userTask, .act (.start ⟨2, 111, 1⟩), .act (.expire [1]), .act (.fire ⟨2, 111, 1⟩),
       .act (.expire [2]), .act (.fire ⟨2, EINPROGRESS, 1⟩), .ret, .poll [(1, EPOLLOUT)],
       .dispatch 0 false, .act (.removeConnection (some ⟨3, 111, 2⟩))]).map delays =
      some [1, 2, 1] by decide +kernel)
  obtain ⟨ns, hlen, hall, -⟩ := retries_back_off _ _ s hrun
  exact ⟨s, hrun, hdelays, ns, hlen, hall⟩

end EventLoop

end LinuxNet
