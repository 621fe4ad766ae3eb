import LinuxNet.Connector.Dispatch

/-!
# The descriptors of the connector

The descriptor of an attempt is kept in the channel only. `Connect`, `HandleWrite` and
`HandleError` close it or hand it over when they give up the channel; `StopInLoop` gives up
the channel and forgets the descriptor, and so does `Restart` if it is called while the
connector is CONNECTING. In all other runs every descriptor is disposed of exactly once.

A failed `assert` ends the process and with it the accounting.
-/

namespace LinuxNet

set_option autoImplicit false

open LinuxNet.Lib

/-- `Connect` gives the attempt up at once. -/
def Attempt.refused (r : Attempt) : Prop :=
  ¬ (r.errno = 0 ∨ r.errno = EINTR ∨ r.errno = EINPROGRESS ∨ r.errno = EISCONN)

instance (r : Attempt) : Decidable r.refused := inferInstanceAs (Decidable (¬ _))

namespace EventLoop

/-! ## The machine with `Restart` -/

/-- The loop goes on, or code in its thread calls `TCPConnector::Restart`. -/
inductive Call where
  | loop (i : Input)
  | restart (r : Attempt)
  deriving DecidableEq, Repr

def stepCall (s : EventLoop) : Call → Option EventLoop
  | .loop i => s.step i
  | .restart r =>
    if s.asserts = [] ∧ s.busy = true ∧ s.mayAttempt r = true then some (s.restart r) else none

/-- The call executes `StopInLoop`, or a `Restart` whose attempt is refused. -/
def Call.abandons (queue : List ConnectorTask) : Call → Bool
  | .loop (.act .stop) => true
  | .loop (.task _) => queue.head? == some .stopInLoop
  | .loop (.act (.removeConnection (some r))) | .restart r => decide r.refused
  | _ => false

/-- It does so during an attempt, whose descriptor is forgotten. -/
def Leaks (s : EventLoop) (i : Call) : Prop :=
  s.connector.state = .connecting ∧ i.abandons s.taskList = true

instance (s : EventLoop) (i : Call) : Decidable (Leaks s i) := inferInstanceAs (Decidable (_ ∧ _))

/-! ## The accounts -/

/-- What the connector does with a descriptor. -/
inductive Use where
  | opened | closed | handedOver
  deriving DecidableEq, Repr

def Event.use (fd : Nat) : Event → Option Use
  | .socket f => if f = fd then some .opened else none
  | .close f => if f = fd then some .closed else none
  | .newConn f => if f = fd then some .handedOver else none
  | _ => none

/-- The uses of `fd` in the order of the log. -/
def uses (fd : Nat) (log : List Event) : List Use := log.filterMap (Event.use fd)

/-- Every time the descriptor has been opened it has been closed or handed over, once. -/
inductive Disposed : List Use → Prop where
  | nil : Disposed []
  | closed {l : List Use} (h : Disposed l) : Disposed (l ++ [.opened, .closed])
  | handedOver {l : List Use} (h : Disposed l) : Disposed (l ++ [.opened, .handedOver])

theorem not_disposed_opened (l : List Use) : ¬ Disposed (l ++ [.opened]) := by
  intro h
  generalize hl : l ++ [Use.opened] = l' at h
  cases h with
  | nil => simp at hl
  | @closed m h =>
    have := congrArg List.getLast? hl
    simp at this
  | @handedOver m h =>
    have := congrArg List.getLast? hl
    simp at this

theorem disposed_of_closed {l : List Use} (h : Disposed (l ++ [.opened, .closed])) :
    Disposed l := by
  generalize hl : l ++ [Use.opened, Use.closed] = l' at h
  cases h with
  | nil => simp at hl
  | @closed m h =>
    rw [List.append_cancel_right hl]
    exact h
  | @handedOver m h =>
    have := congrArg List.getLast? hl
    simp at this

/-- All descriptors have been disposed of but for `held`, which is open. -/
structure Books (held : Option Nat) (log : List Event) : Prop where
  settled : ∀ fd, held ≠ some fd → Disposed (uses fd log)
  pending : ∀ fd, held = some fd → ∃ l, Disposed l ∧ uses fd log = l ++ [.opened]

section Books

variable {held : Option Nat} {fd : Nat} {log : List Event} {e : Event}

theorem uses_append (fd : Nat) (log : List Event) (e : Event) :
    uses fd (log ++ [e]) = uses fd log ++ (e.use fd).toList := by
  rw [uses, List.filterMap_append]
  cases h : e.use fd <;> simp [uses, h]

/-- The event is about no descriptor. -/
theorem Books.skip (h : Books held log) (he : ∀ fd, e.use fd = none) :
    Books held (log ++ [e]) := by
  constructor
  · intro fd hfd
    rw [uses_append, he, Option.toList_none, List.append_nil]
    exact h.settled fd hfd
  · intro fd hfd
    rw [uses_append, he, Option.toList_none, List.append_nil]
    exact h.pending fd hfd

theorem Books.socket (h : Books none log) (fd : Nat) :
    Books (some fd) (log ++ [.socket fd]) := by
  constructor
  · intro f hf
    have hne : fd ≠ f := fun heq => hf (congrArg some heq)
    rw [uses_append, Event.use, if_neg hne, Option.toList_none, List.append_nil]
    exact h.settled f nofun
  · intro f hf
    cases hf
    refine ⟨uses fd log, h.settled fd nofun, ?_⟩
    rw [uses_append, Event.use, if_pos rfl, Option.toList_some]

/-- The descriptor that is open is disposed of by `u`. -/
theorem Books.dispose (h : Books (some fd) log) {u : Use}
    (hu : ∀ f, e.use f = if fd = f then some u else none)
    (hd : ∀ l, Disposed l → Disposed (l ++ [.opened, u])) : Books none (log ++ [e]) := by
  refine ⟨fun f _ => ?_, nofun⟩
  rw [uses_append, hu]
  by_cases hf : fd = f
  · subst hf
    obtain ⟨l, hl, hlog⟩ := h.pending fd rfl
    rw [if_pos rfl, hlog, Option.toList_some, List.append_assoc]
    exact hd l hl
  · rw [if_neg hf, Option.toList_none, List.append_nil]
    exact h.settled f fun heq => hf (Option.some.inj heq)

theorem Books.close (h : Books (some fd) log) : Books none (log ++ [.close fd]) :=
  h.dispose (fun _ => rfl) fun _ => .closed

theorem Books.newConn (h : Books (some fd) log) : Books none (log ++ [.newConn fd]) :=
  h.dispose (fun _ => rfl) fun _ => .handedOver

end Books

/-- What is true of the accounts whenever no attempt is under way. -/
def Settled (s : EventLoop) : Prop :=
  s.asserts = [] → s.connector.state ≠ .connecting → ∀ fd, Disposed (uses fd s.log)

/-! ## The connector keeps the accounts -/

/-- The descriptor of the attempt under way. -/
def held (s : EventLoop) : Option Nat :=
  if s.connector.state = .connecting then
    s.connector.channel.map fun c => (s.poller.chans c).fd
  else none

structure Accounts (s : EventLoop) : Prop where
  books : Books s.held s.log
  channel : s.connector.state = .connecting → s.connector.channel.isSome = true
  resets : s.taskList.count .resetChannel =
    if s.connector.channel.isSome ∧ s.connector.state ≠ .connecting then 1 else 0

/-- No attempt is under way. -/
structure Closed (s : EventLoop) : Prop where
  books : Books none s.log
  resets : s.taskList.count .resetChannel = if s.connector.channel.isSome then 1 else 0

section Functions

variable {s t : EventLoop} {c : ChanId} {r : Attempt}

theorem held_of_ne (hs : s.connector.state ≠ .connecting) : s.held = none := if_neg hs

theorem held_of_connecting (hs : s.connector.state = .connecting)
    (hc : s.connector.channel = some c) : s.held = some (s.poller.chans c).fd := by
  rw [held, if_pos hs, hc, Option.map_some]

theorem Accounts.closed (h : s.Accounts) (hs : s.connector.state ≠ .connecting) : s.Closed := by
  refine ⟨?_, ?_⟩
  · rw [← held_of_ne hs]
    exact h.books
  · simpa [hs] using h.resets

theorem Closed.accounts (h : s.Closed) (hs : s.connector.state ≠ .connecting) : s.Accounts := by
  refine ⟨?_, fun hc => absurd hc hs, ?_⟩
  · rw [held_of_ne hs]
    exact h.books
  · simpa [hs] using h.resets

/-- The accounts depend on the connector, the descriptors of the channels, the queue and
the log. -/
theorem Accounts.congr (h : s.Accounts) (hcon : t.connector.state = s.connector.state)
    (hch : t.connector.channel = s.connector.channel)
    (hfd : ∀ c, (t.poller.chans c).fd = (s.poller.chans c).fd)
    (hres : t.taskList.count .resetChannel = s.taskList.count .resetChannel)
    (hlog : t.log = s.log) : t.Accounts := by
  have hheld : t.held = s.held := by
    unfold held
    rw [hcon, hch]
    simp only [hfd]
  refine ⟨?_, ?_, ?_⟩
  · rw [hheld, hlog]
    exact h.books
  · rw [hcon, hch]
    exact h.channel
  · rw [hres, hcon, hch]
    exact h.resets

/-- So do the calls of the handlers, which are about no descriptor. -/
theorem Accounts.observe (h : s.Accounts) {e : Event} (he : ∀ fd, e.use fd = none) :
    (s.observe e).Accounts :=
  ⟨h.books.skip he, h.channel, h.resets⟩

theorem exec_fd (p : Epoller) (c c' : ChanId) (op : Epoller.Op) :
    ((p.exec c true op).chans c').fd = (p.chans c').fd := by
  obtain ⟨st, h⟩ := Epoller.exec_chans p c true op
  rw [h]
  by_cases hc : c' = c
  · rw [hc, Function.update_self]
  · rw [Function.update_of_ne hc]

theorem Closed.retry (h : s.Closed) : s.retry.Accounts := by
  unfold EventLoop.retry
  dsimp only
  split
  · refine Closed.accounts ⟨h.books.skip fun _ => rfl, h.resets⟩ nofun
  · exact Closed.accounts ⟨h.books, h.resets⟩ nofun

/-- The channel of the attempt is given up; its descriptor is still open. -/
theorem Accounts.release (h : s.Accounts) (hs : s.connector.state = .connecting)
    (hc : s.connector.channel = some c) :
    Books (some (s.poller.chans c).fd) s.removeAndResetChannel.log ∧
      s.removeAndResetChannel.taskList.count .resetChannel =
        if s.removeAndResetChannel.connector.channel.isSome then 1 else 0 := by
  have hbooks := h.books
  rw [held_of_connecting hs hc] at hbooks
  have hres := h.resets
  rw [removeAndResetChannel_eq hc]
  refine ⟨hbooks, ?_⟩
  show (s.taskList ++ [ConnectorTask.resetChannel]).count .resetChannel =
    if s.connector.channel.isSome then 1 else 0
  rw [List.count_append, hres]
  simp [hs, hc]

/-- It is closed behind that, and the attempt is made again. -/
theorem Accounts.giveUp (h : s.Accounts) (hs : s.connector.state = .connecting)
    (hc : s.connector.channel = some c) :
    (s.removeAndResetChannel.observe (.close (s.poller.chans c).fd)).retry.Accounts := by
  obtain ⟨hbooks, hres⟩ := h.release hs hc
  exact Closed.retry ⟨hbooks.close, hres⟩

theorem Accounts.handleError (h : s.Accounts) : s.handleError.Accounts := by
  unfold EventLoop.handleError
  split
  · rename_i hs
    obtain ⟨c, hc⟩ := Option.isSome_iff_exists.mp (h.channel hs)
    rw [hc]
    exact h.giveUp hs hc
  · exact h

theorem abort_ne (s : EventLoop) (a : Assert) : (s.abort a).asserts ≠ [] := by
  simp [abort]

theorem Accounts.handleWrite (h : s.Accounts) (errCode : Nat) (selfConnect : Bool)
    (hlive : (s.handleWrite errCode selfConnect).asserts = []) :
    (s.handleWrite errCode selfConnect).Accounts := by
  have hobs : (s.observe (.handleWrite s.connector.state)).Accounts := h.observe fun _ => rfl
  have hend := s.writeHandled errCode selfConnect
  generalize s.handleWrite errCode selfConnect = t at hend hlive ⊢
  cases hend with
  | notConnecting => exact absurd hlive (abort_ne _ _)
  | nullChannel => exact absurd hlive (abort_ne _ _)
  | refused hs hc => exact hobs.giveUp hs hc
  | accepted hs hc =>
    obtain ⟨hbooks, hres⟩ := hobs.release hs hc
    exact Closed.accounts ⟨hbooks.newConn, hres⟩ nofun
  | stopped hs hc =>
    obtain ⟨hbooks, hres⟩ := hobs.release hs hc
    exact Closed.accounts ⟨hbooks.close, hres⟩ nofun

theorem Accounts.handleEvent (h : s.Accounts) (c : ChanId) (errCode : Nat) (selfConnect : Bool)
    (hlive : (s.handleEvent c errCode selfConnect).asserts = []) :
    (s.handleEvent c errCode selfConnect).Accounts := by
  have hobs : (s.observe (.handleEvent c (s.poller.chans c).status)).Accounts :=
    h.observe fun _ => rfl
  have hend := s.eventHandled c errCode selfConnect
  generalize s.handleEvent c errCode selfConnect = t at hend hlive ⊢
  cases hend with
  | foreign => exact hobs.congr rfl rfl (fun _ => rfl) rfl rfl
  | error => exact hobs.handleError
  | write => exact hobs.handleWrite errCode selfConnect hlive
  | ignored => exact hobs

theorem connect_refused (hr : r.refused) :
    s.connect r = ((s.observe (.socket r.fd)).observe (.close r.fd)).retry := if_neg hr

theorem connect_pending (hr : ¬ r.refused) :
    s.connect r = (s.observe (.socket r.fd)).connecting r.fd r.channel :=
  if_pos (not_not.mp hr)

theorem Closed.connect (h : s.Closed) (hs : s.connector.state = .disconnected)
    (hlive : (s.connect r).asserts = []) : (s.connect r).Accounts := by
  by_cases hr : r.refused
  · rw [connect_refused hr]
    exact Closed.retry ⟨(h.books.socket r.fd).close, h.resets⟩
  · rw [connect_pending hr] at hlive ⊢
    cases hc : s.connector.channel with
    | some c =>
      rw [connecting_abort (s := s.observe (.socket r.fd)) hs hc] at hlive
      exact absurd hlive (abort_ne _ _)
    | none =>
      rw [connecting_eq (s := s.observe (.socket r.fd)) hs hc]
      have hfd : (((s.poller.setChannel r.channel (Channel.new r.fd)).exec r.channel true
          .enableWriting).chans r.channel).fd = r.fd := by
        simp [exec_fd, Epoller.setChannel, Channel.new]
      refine ⟨?_, fun _ => rfl, ?_⟩
      · rw [held_of_connecting rfl rfl]
        show Books (some (((s.poller.setChannel r.channel (Channel.new r.fd)).exec r.channel true
          .enableWriting).chans r.channel).fd) (s.log ++ [.socket r.fd])
        rw [hfd]
        exact h.books.socket r.fd
      · have hres := h.resets
        rw [hc] at hres
        simpa [EventLoop.observe] using hres

theorem Accounts.startInLoop (h : s.Accounts) (hlive : (s.startInLoop r).asserts = []) :
    (s.startInLoop r).Accounts := by
  unfold EventLoop.startInLoop at hlive ⊢
  split
  · rename_i hs
    rw [if_pos hs] at hlive
    exact absurd hlive (abort_ne _ _)
  · rename_i hs
    rw [if_neg hs] at hlive
    have hs : s.connector.state = .disconnected := by simpa using hs
    split
    · rename_i hrun
      rw [if_pos hrun] at hlive
      exact (h.closed (by simp [hs])).connect hs hlive
    · exact h

theorem restart_eq (s : EventLoop) (r : Attempt) :
    s.restart r = connect { s with connector := { s.connector with
      running := true, state := .disconnected, retryDelay := kInitRetryDelay } } r := rfl

/-- `Restart` during an attempt fails, unless the new attempt is refused. -/
theorem restart_aborts (hc : s.connector.channel = some c) (hr : ¬ r.refused) :
    (s.restart r).asserts ≠ [] := by
  rw [restart_eq, connect_pending hr]
  simp [connecting, EventLoop.observe, hc, abort]

theorem Accounts.restart (h : s.Accounts) (hi : ¬ (s.connector.state = .connecting ∧ r.refused))
    (hlive : (s.restart r).asserts = []) : (s.restart r).Accounts := by
  by_cases hs : s.connector.state = .connecting
  · obtain ⟨c, hc⟩ := Option.isSome_iff_exists.mp (h.channel hs)
    exact absurd hlive (restart_aborts hc fun hr => hi ⟨hs, hr⟩)
  · have hclosed := h.closed hs
    refine Accounts.startInLoop ?_ hlive
    exact Closed.accounts ⟨hclosed.books, hclosed.resets⟩ nofun

theorem Accounts.stopInLoop (h : s.Accounts) (hs : s.connector.state ≠ .connecting) :
    s.stopInLoop.Accounts := by
  unfold EventLoop.stopInLoop
  dsimp only
  rw [if_neg hs]
  exact h.congr rfl rfl (fun _ => rfl) rfl rfl

theorem Accounts.resetChannel (h : s.Accounts) {rest : List ConnectorTask}
    (hq : s.taskList = .resetChannel :: rest) :
    (resetChannel { s with taskList := rest }).Accounts := by
  have hres := h.resets
  rw [hq, List.count_cons_self] at hres
  have hcond : s.connector.channel.isSome ∧ s.connector.state ≠ .connecting := by
    by_contra hn
    rw [if_neg hn] at hres
    omega
  rw [if_pos hcond] at hres
  refine Closed.accounts ⟨(h.closed hcond.2).books, ?_⟩ hcond.2
  show rest.count .resetChannel = 0
  omega

end Functions

/-! ## Steps -/

section Steps

variable {s t : EventLoop}

theorem setRevents_fold_fd (events : List (ChanId × EventMask)) (p : Epoller) (c : ChanId) :
    ((events.foldl setRevents p).chans c).fd = (p.chans c).fd := by
  induction events generalizing p with
  | nil => rfl
  | cons e events ih =>
    refine (ih (setRevents p e)).trans ?_
    unfold setRevents Epoller.setChannel
    by_cases hc : c = e.1
    · simp [hc]
    · simp [hc]

theorem Accounts.task (h : s.Accounts) {r : Attempt} {task : ConnectorTask}
    {rest : List ConnectorTask} (hq : s.taskList = task :: rest)
    (hi : ¬ Leaks s (.loop (.task r)))
    (hlive : (runTask { s with taskList := rest } r task).asserts = []) :
    (runTask { s with taskList := rest } r task).Accounts := by
  have hpop : task ≠ .resetChannel → ({ s with taskList := rest } : EventLoop).Accounts := by
    intro hne
    refine h.congr rfl rfl (fun _ => rfl) ?_ rfl
    rw [hq, List.count_cons_of_ne hne]
  cases task with
  | startInLoop => exact (hpop nofun).startInLoop hlive
  | stopInLoop =>
    refine (hpop nofun).stopInLoop fun hs => hi ⟨hs, ?_⟩
    simp [Call.abandons, hq]
  | resetChannel => exact h.resetChannel hq

theorem step_accounts {i : Input} (h : s.Accounts) (hi : ¬ Leaks s (.loop i)) (hn : s.Next i t)
    (hlive : t.asserts = []) : t.Accounts := by
  cases hn with
  | @poll events =>
    exact h.congr rfl rfl (fun c => setRevents_fold_fd events s.poller c) rfl rfl
  | @dispatch errCode selfConnect c rest =>
    refine Accounts.handleEvent (s := { s with activeChannels := rest }) ?_ c errCode
      selfConnect hlive
    exact h.congr rfl rfl (fun _ => rfl) rfl rfl
  | @op c op => exact h.congr rfl rfl (fun c' => exec_fd s.poller c c' op) rfl rfl
  | start =>
    refine Accounts.startInLoop (s := s.setRunning true) ?_ hlive
    exact h.congr rfl rfl (fun _ => rfl) rfl rfl
  | stop =>
    refine Accounts.stopInLoop (s := s.setRunning false) ?_ fun hs => hi ⟨hs, rfl⟩
    exact h.congr rfl rfl (fun _ => rfl) rfl rfl
  | restart =>
    refine Accounts.restart (s := { s with connection := false }) ?_
      (fun h => hi ⟨h.1, decide_eq_true h.2⟩) hlive
    exact h.congr rfl rfl (fun _ => rfl) rfl rfl
  | @fire r _ rest =>
    refine Accounts.startInLoop (s := { s with expired := rest }) ?_ hlive
    exact h.congr rfl rfl (fun _ => rfl) rfl rfl
  | task hact hr hq => exact h.task hq hi hlive
  | startElsewhere => exact h.congr rfl rfl (fun _ => rfl) (by simp [queueInLoop, setRunning]) rfl
  | stopElsewhere => exact h.congr rfl rfl (fun _ => rfl) (by simp [queueInLoop, setRunning]) rfl
  | _ => exact h.congr rfl rfl (fun _ => rfl) rfl rfl

theorem Accounts.settled (h : s.Accounts) : s.Settled :=
  fun _ hs fd => (h.closed hs).books.settled fd nofun

theorem stopInLoop_leaks (h : s.Accounts) (hs : s.connector.state = .connecting)
    (hlive : s.asserts = []) : ¬ s.stopInLoop.Settled := by
  intro hset
  obtain ⟨c, hc⟩ := Option.isSome_iff_exists.mp (h.channel hs)
  obtain ⟨l, -, hl⟩ := h.books.pending _ (held_of_connecting hs hc)
  unfold stopInLoop at hset
  dsimp only at hset
  rw [if_pos hs, setState_removeAndResetChannel,
    removeAndResetChannel_eq (s := { s with timers := s.timers.erase s.connector.timerId }) hc]
    at hset
  have hd := hset hlive nofun (s.poller.chans c).fd
  exact not_disposed_opened l (hl ▸ hd)

theorem retry_running (h : s.connector.running = true) :
    s.retry.asserts = s.asserts ∧ s.retry.connector.state = .disconnected ∧
      s.retry.log = s.log ++ [.timerAfter (s.connector.retryDelay / 1000)] := by
  simp [retry, setState, EventLoop.observe, h]

theorem restart_leaks (h : s.Accounts) (hs : s.connector.state = .connecting) {r : Attempt}
    (hr : r.refused) (hlive : s.asserts = []) : ¬ (s.restart r).Settled := by
  intro hset
  obtain ⟨c, hc⟩ := Option.isSome_iff_exists.mp (h.channel hs)
  obtain ⟨l, -, hl⟩ := h.books.pending _ (held_of_connecting hs hc)
  rw [restart_eq, connect_refused hr, Settled] at hset
  generalize hq : ({ s with connector := { s.connector with
    running := true, state := .disconnected, retryDelay := kInitRetryDelay } } : EventLoop) = q
    at hset
  obtain ⟨hasserts, hstate, hlog⟩ := retry_running
    (s := (q.observe (.socket r.fd)).observe (.close r.fd)) (by rw [← hq]; rfl)
  rw [hasserts, hstate, hlog] at hset
  have hd := hset (by rw [← hq]; exact hlive) nofun (s.poller.chans c).fd
  have hqlog : q.log = s.log := by rw [← hq]
  simp only [EventLoop.observe, uses_append, hqlog, hl, Event.use] at hd
  by_cases hfd : r.fd = (s.poller.chans c).fd
  · simp only [hfd, ↓reduceIte, Option.toList_some, Option.toList_none, List.append_nil] at hd
    rw [List.append_assoc (l ++ [Use.opened])] at hd
    exact not_disposed_opened l (disposed_of_closed hd)
  · simp only [hfd, ↓reduceIte, Option.toList_none, List.append_nil] at hd
    exact not_disposed_opened l hd

theorem stepCall_accounts {i : Call} (h : s.asserts = [] → s.Accounts) (hi : ¬ Leaks s i)
    (hstep : s.stepCall i = some t) (hlive : t.asserts = []) : t.Accounts := by
  cases i with
  | loop i =>
    exact step_accounts (h (alive_of_step hstep)) hi (step_next hstep) hlive
  | restart r =>
    simp only [stepCall] at hstep
    split at hstep
    · rename_i hen
      cases hstep
      exact (h hen.1).restart (fun h => hi ⟨h.1, decide_eq_true h.2⟩) hlive
    · cases hstep

theorem stepCall_leaks {i : Call} (h : s.asserts = [] → s.Accounts) (hi : Leaks s i)
    (hstep : s.stepCall i = some t) : ¬ t.Settled := by
  cases i with
  | loop i =>
    have hs := alive_of_step hstep
    have h := h hs
    cases step_next hstep with
    | stop =>
      refine stopInLoop_leaks ?_ hi.1 hs
      exact h.congr rfl rfl (fun _ => rfl) rfl rfl
    | restart =>
      refine restart_leaks (s := { s with connection := false }) ?_ hi.1
        (of_decide_eq_true hi.2) hs
      exact h.congr rfl rfl (fun _ => rfl) rfl rfl
    | @task r task rest hact hr hq =>
      obtain ⟨hconn, hhead⟩ := hi
      simp only [Call.abandons, hq, List.head?_cons, beq_iff_eq, Option.some.injEq] at hhead
      subst hhead
      refine stopInLoop_leaks ?_ hconn hs
      refine h.congr rfl rfl (fun _ => rfl) ?_ rfl
      rw [hq]
      simp
    | _ => exact absurd hi.2 Bool.false_ne_true
  | restart r =>
    simp only [stepCall] at hstep
    split at hstep
    · rename_i hen
      cases hstep
      exact restart_leaks (h hen.1) hi.1 (of_decide_eq_true hi.2) hen.1
    · cases hstep

end Steps

/-- **Every descriptor is disposed of exactly once, as long as no attempt is stopped.** In
the states of a run in which the connector is not CONNECTING, every descriptor that it has
opened has been closed or handed over, once, if and only if no step of the run executes
`StopInLoop`, or a `Restart` whose attempt is refused, while the connector is CONNECTING. -/
theorem descriptors_disposed_iff (p : Epoller) (is : List Call) (s : EventLoop)
    (hrun : Machine.run stepCall (EventLoop.new p) is = some s) :
    Machine.Throughout stepCall Settled (EventLoop.new p) is ↔
      Machine.Along stepCall (fun s i => ¬ Leaks s i) (EventLoop.new p) is := by
  have hinit : (EventLoop.new p).asserts = [] → (EventLoop.new p).Accounts :=
    fun _ => Closed.accounts ⟨⟨fun _ _ => .nil, nofun⟩, rfl⟩ nofun
  have hkeep : ∀ {s i t}, (s.asserts = [] → s.Accounts) → ¬ Leaks s i → stepCall s i = some t →
      t.asserts = [] → t.Accounts := fun h hi hs => stepCall_accounts h hi hs
  have hsettled : ∀ {s : EventLoop}, (s.asserts = [] → s.Accounts) → s.Settled :=
    fun h hlive => (h hlive).settled hlive
  have hbreak : ∀ {s i t}, (s.asserts = [] → s.Accounts) → ¬ ¬ Leaks s i →
      stepCall s i = some t → ¬ t.Settled := fun h hi hs => stepCall_leaks h (not_not.mp hi) hs
  exact Machine.throughout_iff_along (P := fun s => s.asserts = [] → s.Accounts) hkeep hsettled
    hbreak hinit hrun

/-- The first attempt fails and is closed, the retry is handed over. -/
theorem descriptors_disposed_iff_retry : ∃ s,
    Machine.run stepCall (EventLoop.new (Epoller.new 8 (· + 1)))
      [.loop .userTask, .loop (.act (.start ⟨2, EINPROGRESS, 1⟩)), .loop .ret,
       .loop (.poll [(1, EPOLLOUT)]), .loop (.dispatch 111 false), .loop (.task ⟨3, 0, 2⟩),
       .loop .userTask, .loop (.act (.expire [1])), .loop (.act (.fire ⟨3, EINPROGRESS, 2⟩)),
       .loop .ret, .loop (.poll [(2, EPOLLOUT)]), .loop (.dispatch 0 false)] = some s ∧
    uses 2 s.log = [.opened, .closed] ∧ uses 3 s.log = [.opened, .handedOver] ∧
    Machine.Throughout stepCall Settled (EventLoop.new (Epoller.new 8 (· + 1)))
      [.loop .userTask, .loop (.act (.start ⟨2, EINPROGRESS, 1⟩)), .loop .ret,
       .loop (.poll [(1, EPOLLOUT)]), .loop (.dispatch 111 false), .loop (.task ⟨3, 0, 2⟩),
       .loop .userTask, .loop (.act (.expire [1])), .loop (.act (.fire ⟨3, EINPROGRESS, 2⟩)),
       .loop .ret, .loop (.poll [(2, EPOLLOUT)]), .loop (.dispatch 0 false)] := by
  obtain ⟨s, hrun, huses⟩ := Option.map_eq_some_iff.mp (show (Machine.run stepCall
      (EventLoop.new (Epoller.new 8 (· + 1)))
      [.loop .userTask, .loop (.act (.start ⟨2, EINPROGRESS, 1⟩)), .loop .ret,
       .loop (.poll [(1, EPOLLOUT)]), .loop (.dispatch 111 false), .loop (.task ⟨3, 0, 2⟩),
       .loop .userTask, .loop (.act (.expire [1])), .loop (.act (.fire ⟨3, EINPROGRESS, 2⟩)),
       .loop .ret, .loop (.poll [(2, EPOLLOUT)]), .loop (.dispatch 0 false)]).map
      (fun s => (uses 2 s.log, uses 3 s.log)) = some ([.opened, .closed], [.opened, .handedOver])
      by decide +kernel)
  simp only [Prod.mk.injEq] at huses
  refine ⟨s, hrun, huses.1, huses.2, (descriptors_disposed_iff _ _ s hrun).mpr ?_⟩
  decide +kernel

/-- `Stop` during an attempt: the connector is DISCONNECTED, and nobody knows the
descriptor. -/
theorem descriptor_leaked_by_stop : ∃ s,
    Machine.run stepCall (EventLoop.new (Epoller.new 8 (· + 1)))
      [.loop .userTask, .loop (.act (.start ⟨2, EINPROGRESS, 1⟩)), .loop (.act .stop)] = some s ∧
    s.asserts = [] ∧ s.connector.state = .disconnected ∧ s.log = [.socket 2] ∧
    ¬ Machine.Throughout stepCall Settled (EventLoop.new (Epoller.new 8 (· + 1)))
      [.loop .userTask, .loop (.act (.start ⟨2, EINPROGRESS, 1⟩)), .loop (.act .stop)] := by
  obtain ⟨s, hrun, hobs⟩ := Option.map_eq_some_iff.mp (show (Machine.run stepCall
      (EventLoop.new (Epoller.new 8 (· + 1)))
      [.loop .userTask, .loop (.act (.start ⟨2, EINPROGRESS, 1⟩)), .loop (.act .stop)]).map
      (fun s => (s.asserts, s.connector.state, s.log)) = some ([], .disconnected, [.socket 2])
      by decide +kernel)
  simp only [Prod.mk.injEq] at hobs
  obtain ⟨hlive, hstate, hlog⟩ := hobs
  refine ⟨s, hrun, hlive, hstate, hlog, fun h => ?_⟩
  have hd := h.last hrun hlive (by rw [hstate]; nofun) 2
  rw [hlog] at hd
  exact not_disposed_opened [] hd

end EventLoop

end LinuxNet
