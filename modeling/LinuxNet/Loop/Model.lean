import LinuxNet.Lib.Machine
import Mathlib.Algebra.Group.Nat.Defs

/-!
# `net::EventLoop`: the iteration and the task queue

The embedding of `Loop`, `Quit`, `QueueInLoop`, `DoPendingTasks`, `Wakeup` and
`HandleWakeup` of `event_loop.cc`, as a machine in which the thread of the loop and any
number of other threads take steps in any order. What a task or a handler does is left
open: while one runs, the loop's thread may call `QueueInLoop` and `Quit` at any time.

A step of another thread is one access to the shared state: its push under the lock, its
assignment to `quit_`, its `Wakeup`. `inFlight` counts the threads that have made one of
the first two and not yet the last. Of the loop's own thread the push and the `Wakeup`
are one step, since nobody but this thread reads the counter of the eventfd.
-/

namespace LinuxNet

set_option autoImplicit false

/-- Who calls `QueueInLoop`: another thread, or the thread of the loop outside of
`Loop`, in an event handler, or in a task run by `DoPendingTasks`. -/
inductive Origin where
  | other | outside | handler | task
  deriving DecidableEq, Repr

/-- A task of the queue, with the circumstances of its lock acquisition: who queued it,
and the round whose tasks were being run. -/
structure Queued (α : Type) where
  task : α
  origin : Origin
  round : Option Nat
  deriving DecidableEq, Repr

/-- The program counter of the thread of the loop. `final` marks the `DoPendingTasks`
behind the while loop. -/
inductive LoopPc (α : Type) where
  /-- Not inside of `Loop`. -/
  | outside
  /-- Before `quit_ = false`. -/
  | starting
  /-- Before the test of `quit_`. -/
  | testing
  /-- In `Poll`. -/
  | polling
  /-- In the loop over `active_channels`; `wakeup` says whether `HandleWakeup` is still
  to be called. -/
  | handling (wakeup : Bool)
  /-- Before `need_wakup_ = true`. -/
  | draining (final : Bool)
  /-- Before the swap. -/
  | swapping (final : Bool)
  /-- Between two tasks of the batch. -/
  | between (rest : List (Queued α)) (final : Bool)
  /-- In a task of the batch. -/
  | inTask (rest : List (Queued α)) (final : Bool)
  deriving DecidableEq, Repr

/-- The tasks of the batch that have not been started. -/
def LoopPc.batch {α : Type} : LoopPc α → List (Queued α)
  | .between rest _ | .inTask rest _ => rest
  | _ => []

/-- The tasks of a round are being run. -/
def LoopPc.inRound {α : Type} : LoopPc α → Bool
  | .between _ _ | .inTask _ _ => true
  | _ => false

/-- Behind the return from `Poll` or in the last `DoPendingTasks`, in front of the swap. -/
def LoopPc.awake {α : Type} : LoopPc α → Bool
  | .handling _ | .draining _ | .swapping _ => true
  | _ => false

/-- `Loop` has left its while loop. -/
def LoopPc.final {α : Type} : LoopPc α → Bool
  | .draining final | .swapping final | .between _ final | .inTask _ final => final
  | _ => false

/-- Where code of the user runs in the thread of the loop, and what a task queued there
has as its origin. -/
def LoopPc.origin? {α : Type} : LoopPc α → Option Origin
  | .outside => some .outside
  | .handling _ => some .handler
  | .inTask _ _ => some .task
  | _ => none

structure Loop (α : Type) where
  pc : LoopPc α
  looping : Bool
  quit : Bool
  needWakeup : Bool
  /-- The counter of `wakeupfd_`. -/
  counter : Nat
  taskList : List (Queued α)
  inFlight : Nat
  /-- How many times the queue has been swapped out. -/
  round : Nat
  /-- The tasks started by `DoPendingTasks`, with their rounds. -/
  executed : List (Queued α × Nat)
  /-- The tasks queued, in the order of the lock acquisitions. -/
  queued : List (Queued α)

namespace Loop

variable {α : Type}

/-- The constructor; it leaves `need_wakup_` uninitialised. -/
def new (α : Type) (needWakeup : Bool) : Loop α where
  pc := .outside
  looping := false
  quit := false
  needWakeup := needWakeup
  counter := 0
  taskList := []
  inFlight := 0
  round := 0
  executed := []
  queued := []

def setPc (s : Loop α) (pc : LoopPc α) : Loop α := { s with pc := pc }

/-- `Wakeup`. The write fails at the largest value of an eventfd. -/
def wakeup (s : Loop α) : Loop α :=
  { s with counter := if s.counter < 2 ^ 64 - 2 then s.counter + 1 else s.counter }

/-- The locked part of `QueueInLoop`. -/
def push (s : Loop α) (t : α) (o : Origin) : Loop α :=
  let e : Queued α := ⟨t, o, if s.pc.inRound then some s.round else none⟩
  { s with taskList := s.taskList ++ [e], queued := s.queued ++ [e] }

/-- `QueueInLoop` in the thread of the loop. -/
def queueInLoop (s : Loop α) (t : α) (o : Origin) : Loop α :=
  let s := s.push t o
  if s.needWakeup then s.wakeup else s

@[simp] theorem queueInLoop_pc (s : Loop α) (t : α) (o : Origin) :
    (s.queueInLoop t o).pc = s.pc := by
  unfold queueInLoop
  dsimp only
  split <;> rfl

@[simp] theorem queueInLoop_quit (s : Loop α) (t : α) (o : Origin) :
    (s.queueInLoop t o).quit = s.quit := by
  unfold queueInLoop
  dsimp only
  split <;> rfl

/-- `HandleWakeup`. -/
def handleWakeup (s : Loop α) : Loop α := { s with counter := 0 }

/-- The swap of `DoPendingTasks`. -/
def swap (s : Loop α) (final : Bool) : Loop α :=
  { s with pc := .between s.taskList final, taskList := [], round := s.round + 1 }

/-- The end of `DoPendingTasks`, and the return from `Loop` behind the last one. -/
def endTasks (s : Loop α) (final : Bool) : Loop α :=
  let s := { s with needWakeup := false }
  if final then { s with looping := false, pc := .outside } else s.setPc .testing

/-! ## The machine -/

inductive Input (α : Type) where
  /-- The thread of the loop calls `Loop`. -/
  | callLoop
  /-- `quit_ = false`. -/
  | clearQuit
  /-- The test of the while loop. -/
  | test
  /-- `Poll` returns, with the wakeup channel among the active ones or not. -/
  | pollReturns (wakeup : Bool)
  | handleWakeup
  /-- The loop over `active_channels` ends, behind the last entry or at a null one. -/
  | handled
  /-- `need_wakup_ = true`. -/
  | beginTasks
  | swap
  /-- `DoPendingTasks` calls the next task. -/
  | runTask
  /-- The task returns. -/
  | taskReturns
  | endTasks
  /-- Code in the thread of the loop calls `QueueInLoop`. -/
  | queueInLoop (t : α)
  /-- Code in the thread of the loop calls `Quit`. -/
  | quitInLoop
  /-- Another thread takes the lock in `QueueInLoop`. -/
  | push (t : α)
  /-- Another thread sets `quit_` in `Quit`. -/
  | quit
  /-- One of these threads reaches its `Wakeup`. -/
  | wakeup
  deriving DecidableEq, Repr

def step (s : Loop α) : Input α → Option (Loop α)
  | .callLoop =>
    match s.pc with
    | .outside => some { s with looping := true, pc := .starting }
    | _ => none
  | .clearQuit =>
    match s.pc with
    | .starting => some { s with quit := false, pc := .testing }
    | _ => none
  | .test =>
    match s.pc with
    | .testing => some (s.setPc (if s.quit then .draining true else .polling))
    | _ => none
  | .pollReturns wakeup =>
    match s.pc with
    | .polling => if wakeup && s.counter == 0 then none else some (s.setPc (.handling wakeup))
    | _ => none
  | .handleWakeup =>
    match s.pc with
    | .handling true => some (s.handleWakeup.setPc (.handling false))
    | _ => none
  | .handled =>
    match s.pc with
    | .handling _ => some (s.setPc (.draining false))
    | _ => none
  | .beginTasks =>
    match s.pc with
    | .draining final => some { s with needWakeup := true, pc := .swapping final }
    | _ => none
  | .swap =>
    match s.pc with
    | .swapping final => some (s.swap final)
    | _ => none
  | .runTask =>
    match s.pc with
    | .between (e :: rest) final =>
      some { s with executed := s.executed ++ [(e, s.round)], pc := .inTask rest final }
    | _ => none
  | .taskReturns =>
    match s.pc with
    | .inTask rest final => some (s.setPc (.between rest final))
    | _ => none
  | .endTasks =>
    match s.pc with
    | .between [] final => some (s.endTasks final)
    | _ => none
  | .queueInLoop t =>
    match s.pc.origin? with
    | some o => some (s.queueInLoop t o)
    | none => none
  | .quitInLoop =>
    match s.pc.origin? with
    | some _ => some { s with quit := true }
    | none => none
  | .push t => some { s.push t .other with inFlight := s.inFlight + 1 }
  | .quit => some { s with quit := true, inFlight := s.inFlight + 1 }
  | .wakeup => if 0 < s.inFlight then some { s.wakeup with inFlight := s.inFlight - 1 } else none

end Loop

end LinuxNet
