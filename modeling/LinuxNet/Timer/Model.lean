import LinuxNet.Lib.Machine
import LinuxNet.Lib.OrderedSet
import Mathlib.Algebra.Group.Int.Defs
import Mathlib.Algebra.Group.Nat.Defs
import Mathlib.Data.Prod.Lex

/-!
# `net::TimerQueue`

The embedding of `timer_queue.cc` and `timer.cc`, with the heap of `Timer` objects
and the timerfd. User callbacks are cut out of `HandleRead`: `Input.handleRead`
runs it up to the first callback, `Input.runNext` starts the next callback of the
batch, `Input.finish` is what follows the last one. In between, the callback that
is running may add and cancel timers.

A `Timer` is allocated by whichever thread calls `AddTimer` (`Input.new`) and handed
to the loop by the task it queues; in the thread of the loop both happen at once
(`Input.addTimer`). What the program never looks at is kept for the observer: the
number of a timer in the order of creation, and the callbacks started and timers
deleted so far.
-/

namespace LinuxNet

set_option autoImplicit false

open LinuxNet.Lib

/-- The operations of `base::Timestamp` that have no source in the repository.
Time stamps are numbers of microseconds. -/
structure Timestamps where
  addTime : Nat → Nat → Nat
  invalid : Nat

/-- The address of a `Timer` object. -/
abbrev Addr := Nat

def UINTPTR_MAX : Addr := 2 ^ 64 - 1

structure Timer where
  expiration : Nat
  interval : Int
  repeat_ : Bool
  sequence : Nat
  /-- How many timers were created before this one; `sequence_` is this number in
  64 bits. -/
  uid : Nat
  deriving DecidableEq, Repr

namespace Timer

def new (expiration : Nat) (intervalS : Int) (numCreated : Nat) : Timer :=
  ⟨expiration, intervalS, 0 < intervalS, numCreated % 2 ^ 64, numCreated⟩

def restart (ts : Timestamps) (t : Timer) (now : Nat) : Timer :=
  { t with expiration :=
      if t.repeat_ then ts.addTime now (t.interval % 2 ^ 64).toNat else ts.invalid }

end Timer

/-- `Entry`, ordered by the time stamp first. -/
abbrev Entry := Nat ×ₗ Addr

/-- `ActiveTimer`; a `TimerId` holds the same pair. -/
abbrev ActiveTimer := Addr ×ₗ Nat

/-! ## The timerfd -/

def kMicrosecondsPerSecond : Int := 1000 * 1000

structure Timespec where
  sec : Int
  nsec : Int
  deriving DecidableEq, Repr

/-- `HowManyTimeLeftNow`: the difference of two `uint64_t`, read as an `int64_t`. -/
def howManyTimeLeftNow (expired now : Nat) : Timespec :=
  let microSeconds := ((expired : Int) - now).bmod (2 ^ 64)
  let microSeconds := if microSeconds < 100 then 100 else microSeconds
  ⟨microSeconds.tdiv kMicrosecondsPerSecond, microSeconds.tmod kMicrosecondsPerSecond * 1000⟩

/-- An armed timerfd: when it was set and when it becomes readable. -/
structure Arming where
  armedAt : Nat
  deadline : Nat
  deriving DecidableEq, Repr

/-- `timerfd_settime` with a relative time and no interval. -/
def timerfdSettime (now : Nat) (value : Timespec) : Arming :=
  ⟨now, now + (value.sec * kMicrosecondsPerSecond + value.nsec / 1000).toNat⟩

/-! ## The queue -/

/-- The checks of `timer_queue.cc` that can fail, and the two misuses of the heap. -/
inductive TimerQueue.Fault where
  | sizes | eraseCount | expiredBound | eraseActive | insertTimers | insertActive
  | useAfterFree | doubleDelete
  deriving DecidableEq, Repr

/-- Outside of `HandleRead`, or in its loop over `expired`, with `rest` to come. -/
inductive TimerQueue.Phase where
  | idle
  | firing (now : Nat) (expired rest : List Entry)

structure TimerQueue where
  heap : Addr → Option Timer
  timers : OrderedSet Entry
  activeTimers : OrderedSet ActiveTimer
  callingExpiredTimers : Bool
  cancelingTimers : OrderedSet ActiveTimer
  timerfd : Option Arming
  clock : Nat
  phase : TimerQueue.Phase
  /-- The addresses the timers were created at, in order. -/
  created : List Addr
  /-- Allocated, and not yet handed to the loop. -/
  pending : List Addr
  started : List Nat
  deleted : List Nat
  /-- The calls of `ResetTimerfd`: the time stamp it was given and the clock. -/
  resets : List (Nat × Nat)
  faults : List TimerQueue.Fault

namespace TimerQueue

/-- The constructor. -/
def init (clock : Nat) : TimerQueue where
  heap := fun _ => none
  timers := .empty
  activeTimers := .empty
  callingExpiredTimers := false
  cancelingTimers := .empty
  timerfd := none
  clock := clock
  phase := .idle
  created := []
  pending := []
  started := []
  deleted := []
  resets := []
  faults := []

def fault (q : TimerQueue) (f : Fault) : TimerQueue := { q with faults := q.faults ++ [f] }

def check (q : TimerQueue) (f : Fault) (ok : Bool) : TimerQueue := if ok then q else q.fault f

/-- The assertion that opens and closes most of the functions. -/
def checkSizes (q : TimerQueue) : TimerQueue :=
  q.check .sizes (q.activeTimers.size == q.timers.size)

/-- `new Timer`: the allocator returns an address that is not in use. -/
def allocate (q : TimerQueue) (a : Addr) (expiration : Nat) (intervalS : Int) : TimerQueue :=
  { q with
    heap := Function.update q.heap a (some (Timer.new expiration intervalS q.created.length))
    created := q.created ++ [a]
    pending := q.pending ++ [a] }

/-- `delete`. -/
def delete (q : TimerQueue) (a : Addr) : TimerQueue :=
  match q.heap a with
  | none => q.fault .doubleDelete
  | some t => { q with heap := Function.update q.heap a none, deleted := q.deleted ++ [t.uid] }

def resetTimerfd (q : TimerQueue) (expired : Nat) : TimerQueue :=
  { q with
    timerfd := some (timerfdSettime q.clock (howManyTimeLeftNow expired q.clock))
    resets := q.resets ++ [(expired, q.clock)] }

/-- `ReadTimer`: an expiration is consumed; before the deadline nothing happens. -/
def readTimer (q : TimerQueue) : TimerQueue :=
  match q.timerfd with
  | none => q
  | some a => if a.deadline ≤ q.clock then { q with timerfd := none } else q

/-- `first_timer==timers_.end() || when<first_timer->first`. -/
def isEarliest (q : TimerQueue) (expiration : Nat) : Bool :=
  match q.timers.begin? with
  | none => true
  | some e => expiration < (ofLex e).1

/-- `Insert`. -/
def insert (q : TimerQueue) (a : Addr) : Bool × TimerQueue :=
  let q := q.checkSizes
  match q.heap a with
  | none => (false, q.fault .useAfterFree)
  | some t =>
    let earliest := q.isEarliest t.expiration
    let q := q.check .insertTimers (toLex (t.expiration, a) ∉ q.timers)
    let q := { q with timers := q.timers.insert (toLex (t.expiration, a)) }
    let q := q.check .insertActive (toLex (a, t.sequence) ∉ q.activeTimers)
    let q := { q with activeTimers := q.activeTimers.insert (toLex (a, t.sequence)) }
    (earliest, q.checkSizes)

/-- `AddTimerInLoop`. -/
def addTimerInLoop (q : TimerQueue) (a : Addr) : TimerQueue :=
  match ({ q with pending := q.pending.erase a } : TimerQueue).insert a with
  | (false, q) => q
  | (true, q) =>
    match q.heap a with
    | none => q.fault .useAfterFree
    | some t => q.resetTimerfd t.expiration

/-- `AddTimer` in the thread of the loop; the `TimerId` it returns reads the timer
once more. -/
def addTimer (q : TimerQueue) (a : Addr) (expiration : Nat) (intervalS : Int) : TimerQueue :=
  let q := (q.allocate a expiration intervalS).addTimerInLoop a
  q.check .useAfterFree (q.heap a).isSome

/-- `CancelInLoop`. -/
def cancelInLoop (q : TimerQueue) (id : ActiveTimer) : TimerQueue :=
  let q := q.checkSizes
  let q :=
    if id ∈ q.activeTimers then
      match q.heap (ofLex id).1 with
      | none => q.fault .useAfterFree
      | some t =>
        let e := toLex (t.expiration, (ofLex id).1)
        let q := q.check .eraseCount (e ∈ q.timers)
        let q := { q with timers := q.timers.erase e }
        let q := q.delete (ofLex id).1
        { q with activeTimers := q.activeTimers.erase id }
    else if q.callingExpiredTimers then
      { q with cancelingTimers := q.cancelingTimers.insert id }
    else q
  q.checkSizes

/-- The loop of `getExpired`: one entry leaves `active_timers_`. -/
def eraseActive (q : TimerQueue) (e : Entry) : TimerQueue :=
  match q.heap (ofLex e).2 with
  | none => q.fault .useAfterFree
  | some t =>
    let id := toLex ((ofLex e).2, t.sequence)
    let q := q.check .eraseActive (id ∈ q.activeTimers)
    { q with activeTimers := q.activeTimers.erase id }

/-- `end==timers_.end() || now<end->first`, for the entries from `end` on. -/
def startsAfter (left : OrderedSet Entry) (now : Nat) : Bool :=
  match left.begin? with
  | none => true
  | some e => now < (ofLex e).1

/-- `getExpired`. -/
def getExpired (q : TimerQueue) (now : Nat) : List Entry × TimerQueue :=
  let q := q.checkSizes
  let sentry : Entry := toLex (now, UINTPTR_MAX)
  let expired := q.timers.before sentry
  let left := q.timers.dropBefore sentry
  let q := q.check .expiredBound (startsAfter left now)
  let q := { q with timers := left }
  let q := expired.foldl eraseActive q
  (expired, q.checkSizes)

/-- The loop of `Reset`: an entry is restarted and inserted again, or deleted. -/
def resetEntry (ts : Timestamps) (now : Nat) (q : TimerQueue) (e : Entry) : TimerQueue :=
  let a := (ofLex e).2
  match q.heap a with
  | none => q.fault .useAfterFree
  | some t =>
    if t.repeat_ ∧ toLex (a, t.sequence) ∉ q.cancelingTimers then
      ({ q with heap := Function.update q.heap a (some (t.restart ts now)) }.insert a).2
    else q.delete a

/-- `Reset`. -/
def reset (ts : Timestamps) (q : TimerQueue) (expired : List Entry) (now : Nat) : TimerQueue :=
  let q := expired.foldl (resetEntry ts now) q
  match q.timers.begin? with
  | none => q
  | some e =>
    match q.heap (ofLex e).2 with
    | none => q.fault .useAfterFree
    | some t => q.resetTimerfd t.expiration

/-- `HandleRead` up to its loop. Between the reading of the clock and the reading
of the timerfd `delay` microseconds pass. -/
def handleRead (q : TimerQueue) (delay : Nat) : TimerQueue :=
  let now := q.clock
  let q := { q with clock := q.clock + delay }.readTimer
  let (expired, q) := q.getExpired now
  { q with
    callingExpiredTimers := true
    cancelingTimers := .empty
    phase := .firing now expired expired }

/-- `Timer::Run`. -/
def runCallback (q : TimerQueue) (a : Addr) : TimerQueue :=
  match q.heap a with
  | none => q.fault .useAfterFree
  | some t => { q with started := q.started ++ [t.uid] }

/-! ## The machine -/

inductive Input where
  /-- A thread creates a timer. -/
  | new (a : Addr) (expiration : Nat) (intervalS : Int)
  /-- The loop executes the task that hands it over. -/
  | addTimerInLoop (a : Addr)
  /-- `AddTimer` in the thread of the loop. -/
  | addTimer (a : Addr) (expiration : Nat) (intervalS : Int)
  | cancelInLoop (id : ActiveTimer)
  | handleRead (delay : Nat)
  | runNext
  | finish
  /-- Time passes. -/
  | tick (d : Nat)
  deriving DecidableEq

/-- `HandleRead` is not being executed. -/
def Phase.isIdle : Phase → Bool
  | .idle => true
  | .firing _ _ _ => false

/-- The addresses in `expired`. -/
def Phase.batch : Phase → List Addr
  | .idle => []
  | .firing _ expired _ => expired.map fun e => (ofLex e).2

/-- What the allocator may return. -/
def free (q : TimerQueue) (a : Addr) : Bool := 0 < a && a < UINTPTR_MAX && (q.heap a).isNone

def step (ts : Timestamps) (q : TimerQueue) : Input → Option TimerQueue
  | .new a expiration intervalS =>
    if q.free a then some (q.allocate a expiration intervalS) else none
  | .addTimerInLoop a =>
    if q.phase.isIdle ∧ a ∈ q.pending then some (q.addTimerInLoop a) else none
  | .addTimer a expiration intervalS =>
    if q.free a then some (q.addTimer a expiration intervalS) else none
  | .cancelInLoop id => some (q.cancelInLoop id)
  | .handleRead delay => if q.phase.isIdle then some (q.handleRead delay) else none
  | .runNext =>
    match q.phase with
    | .firing now expired (e :: rest) =>
      some { q.runCallback (ofLex e).2 with phase := .firing now expired rest }
    | _ => none
  | .finish =>
    match q.phase with
    | .firing now expired [] =>
      some { { q with callingExpiredTimers := false }.reset ts expired now with phase := .idle }
    | _ => none
  | .tick d => some { q with clock := q.clock + d }

end TimerQueue

end LinuxNet
