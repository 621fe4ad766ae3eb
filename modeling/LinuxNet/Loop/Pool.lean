import Mathlib.Data.Int.CardIntervalMod
import LinuxNet.Lib.Machine

/-!
# `net::EventLoopThreadPool`

The embedding of `event_loop_thread_pool.cc`. `GetNextEventLoop` hands the loops out in
turn. Its index is `next_++ % thread_nums_`, of two fields of type `int`: the counter
grows for the life of the server, and the divisor is not the size of `loops_` but what
`set_thread_nums` was last called with.

The increment of `next_` wraps around. Where C++ gives `%` no result at all, there is none
here.
-/

namespace LinuxNet

set_option autoImplicit false

open LinuxNet.Lib

/-- What `GetNextEventLoop` does: it returns a loop or the main loop, the remainder does not
exist, or it is no index into `loops_`. -/
inductive Pick (α : Type) where
  | loop (l : α)
  | loopMain
  | noRemainder
  | outOfRange (i : Int)
  deriving DecidableEq, Repr

structure EventLoopThreadPool (α : Type) where
  /-- `loop_main_` is not null. -/
  hasMain : Bool
  running : Bool
  threadNums : BitVec 32
  next : BitVec 32
  loops : List α
  /-- What the calls of `GetNextEventLoop` did. -/
  picks : List (Pick α)

namespace EventLoopThreadPool

variable {α : Type}

/-- The constructor. -/
def new (α : Type) : EventLoopThreadPool α := ⟨true, false, 0, 0, [], []⟩

/-- `set_thread_nums`, which `TCPServer::set_event_loop_nums` calls. -/
def setThreadNums (s : EventLoopThreadPool α) (nums : BitVec 32) : EventLoopThreadPool α :=
  { s with threadNums := nums }

/-- `Start`, where `started` are the loops that `StartLoop` returns, one for each thread. -/
def start (s : EventLoopThreadPool α) (started : List α) : EventLoopThreadPool α :=
  { s with loops := s.loops ++ started, running := true }

/-- `Stop`, apart from the loops themselves. -/
def stop (s : EventLoopThreadPool α) : EventLoopThreadPool α :=
  { s with running := false, hasMain := false }

/-- `next_ % thread_nums_`, whose sign is that of `next_`. -/
def remainder (s : EventLoopThreadPool α) : Option Int :=
  if s.threadNums = 0 ∨ (s.next = BitVec.intMin 32 ∧ s.threadNums = -1) then none
  else some (s.next.toInt.tmod s.threadNums.toInt)

/-- `loops_[next_ % thread_nums_]`. -/
def pick (s : EventLoopThreadPool α) : Pick α :=
  match s.remainder with
  | none => .noRemainder
  | some i =>
    if i < 0 then .outOfRange i
    else match s.loops[i.toNat]? with
      | none => .outOfRange i
      | some l => .loop l

def getNextEventLoop (s : EventLoopThreadPool α) : EventLoopThreadPool α :=
  if s.loops.isEmpty then { s with picks := s.picks ++ [.loopMain] }
  else { s with next := s.next + 1, picks := s.picks ++ [s.pick] }

inductive Input (α : Type) where
  | setThreadNums (nums : BitVec 32)
  | start (started : List α)
  | getNextEventLoop
  | stop
  deriving DecidableEq, Repr

/-- The calls of the pool. `Start` and `GetNextEventLoop` assert the value of `running_`, all
but `set_thread_nums` use `loop_main_`, and the loops of two threads are not the same. -/
def step [DecidableEq α] (s : EventLoopThreadPool α) : Input α → Option (EventLoopThreadPool α)
  | .setThreadNums nums => some (s.setThreadNums nums)
  | .start started =>
    if s.hasMain = true ∧ s.running = false ∧ started.Nodup ∧
      started.length = s.threadNums.toInt.toNat then some (s.start started) else none
  | .getNextEventLoop =>
    if s.hasMain = true ∧ s.running = true then some s.getNextEventLoop else none
  | .stop => if s.hasMain = true then some s.stop else none

/-! ## Round robin -/

/-- The k-th call has returned `loops_[k mod n]`, and of two loops none has been returned two
times more often than the other. -/
def RoundRobin [DecidableEq α] (s : EventLoopThreadPool α) : Prop :=
  s.loops ≠ [] →
    (∀ k < s.picks.length, s.picks[k]? = s.loops[k % s.loops.length]?.map Pick.loop) ∧
    ∀ a ∈ s.loops, ∀ b ∈ s.loops, s.picks.count (.loop a) ≤ s.picks.count (.loop b) + 1

/-- When `GetNextEventLoop` is called, `thread_nums_` is the number of the loops, and `next_`
has not become negative, unless there is one loop only. -/
def InTurn (s : EventLoopThreadPool α) (i : Input α) : Prop :=
  i = .getNextEventLoop → s.loops ≠ [] → s.threadNums.toInt = s.loops.length ∧
    (0 ≤ s.next.toInt ∨ s.loops.length = 1)

instance [DecidableEq α] (s : EventLoopThreadPool α) (i : Input α) : Decidable (s.InTurn i) :=
  inferInstanceAs (Decidable (_ → _ → _))

/-- What the calls keep as long as they are made in turn. -/
structure Kept (s : EventLoopThreadPool α) : Prop where
  unused : s.hasMain = true → s.running = false → s.loops = [] ∧ s.picks = [] ∧ s.next = 0
  nodup : s.loops.Nodup
  next : s.loops ≠ [] → s.next = BitVec.ofNat 32 s.picks.length
  bound : s.loops.length ≤ 1 ∨ s.picks.length ≤ 2 ^ 31
  turns : s.loops ≠ [] →
    ∀ k < s.picks.length, s.picks[k]? = s.loops[k % s.loops.length]?.map Pick.loop

section Turns

variable {s t : EventLoopThreadPool α} {i : Input α}

/-- The counter has not wrapped around. -/
theorem Kept.lt_wrap (h : s.Kept) (hne : s.loops ≠ []) (hone : s.loops.length ≠ 1)
    (hnext : 0 ≤ s.next.toInt ∨ s.loops.length = 1) : s.picks.length < 2 ^ 31 := by
  have hpos : 0 < s.loops.length := List.length_pos_iff.mpr hne
  have hle : s.picks.length ≤ 2 ^ 31 := h.bound.resolve_left (by omega)
  have hnonneg : 0 ≤ s.next.toInt := hnext.resolve_right hone
  rw [h.next hne, BitVec.toInt_ofNat', Int.bmod_def] at hnonneg
  split at hnonneg <;> omega

/-- The remainder exists. -/
theorem remainder_of_threadNums (hne : s.loops ≠ [])
    (hnums : s.threadNums.toInt = s.loops.length) :
    s.remainder = some (s.next.toInt.tmod s.loops.length) := by
  have hpos : 0 < s.loops.length := List.length_pos_iff.mpr hne
  have hzero : s.threadNums ≠ 0 := by
    intro heq
    have hint : s.threadNums.toInt = 0 := by rw [heq]; decide
    omega
  have hneg : s.threadNums ≠ -1 := by
    intro heq
    have hint : s.threadNums.toInt = -1 := by rw [heq]; decide
    omega
  rw [remainder, if_neg (not_or.mpr ⟨hzero, fun hmin => hneg hmin.2⟩), hnums]

/-- While `next_` is negative only the first loop is found, in the calls in which the number
of the loops divides `next_`. -/
theorem pick_of_next_neg (hne : s.loops ≠ []) (hnums : s.threadNums.toInt = s.loops.length)
    (hneg : s.next.toInt < 0) (hdvd : ¬ (s.loops.length : Int) ∣ s.next.toInt) :
    ∃ i < 0, s.pick = .outOfRange i := by
  have hle : 0 ≤ (-s.next.toInt).tmod s.loops.length := Int.tmod_nonneg _ (by omega)
  have hnz : s.next.toInt.tmod s.loops.length ≠ 0 := fun h => hdvd (Int.dvd_of_tmod_eq_zero h)
  rw [Int.neg_tmod] at hle
  have hlt : s.next.toInt.tmod s.loops.length < 0 := by omega
  refine ⟨_, hlt, ?_⟩
  unfold pick
  rw [remainder_of_threadNums hne hnums]
  exact if_pos hlt

/-- The index is that of the turn. -/
theorem Kept.remainder_eq (h : s.Kept) (hne : s.loops ≠ [])
    (hnums : s.threadNums.toInt = s.loops.length)
    (hnext : 0 ≤ s.next.toInt ∨ s.loops.length = 1) :
    s.remainder = some ((s.picks.length % s.loops.length : Nat) : Int) := by
  rw [remainder_of_threadNums hne hnums]
  congr 1
  by_cases hone : s.loops.length = 1
  · simp [hone, Nat.mod_one]
  · have hlt := h.lt_wrap hne hone hnext
    have hcount : s.next.toInt = s.picks.length := by
      rw [h.next hne, BitVec.toInt_ofNat']
      exact Int.bmod_eq_of_le (by omega) (by omega)
    rw [hcount, Int.tmod_eq_emod_of_nonneg (Int.natCast_nonneg _)]
    rfl

theorem Kept.pick_eq (h : s.Kept) (hne : s.loops ≠ [])
    (hnums : s.threadNums.toInt = s.loops.length)
    (hnext : 0 ≤ s.next.toInt ∨ s.loops.length = 1) :
    some s.pick = s.loops[s.picks.length % s.loops.length]?.map Pick.loop := by
  have hlt : s.picks.length % s.loops.length < s.loops.length :=
    Nat.mod_lt _ (List.length_pos_iff.mpr hne)
  have hslot : s.loops[s.picks.length % s.loops.length]? =
      some (s.loops.get ⟨_, hlt⟩) := List.getElem?_eq_getElem hlt
  unfold pick
  rw [h.remainder_eq hne hnums hnext]
  dsimp only
  rw [if_neg (Int.not_lt.mpr (Int.natCast_nonneg _)), Int.toNat_natCast, hslot]
  rfl

theorem Kept.getNextEventLoop (h : s.Kept) (hrun : s.running = true)
    (hi : s.InTurn .getNextEventLoop) : s.getNextEventLoop.Kept := by
  unfold EventLoopThreadPool.getNextEventLoop
  split
  · rename_i hempty
    have hnil : s.loops = [] := List.isEmpty_iff.mp hempty
    refine ⟨fun _ hstop => ?_, h.nodup, fun hne => absurd hnil hne, .inl ?_,
      fun hne => absurd hnil hne⟩
    · rw [hrun] at hstop
      cases hstop
    · rw [hnil]
      exact Nat.zero_le 1
  · rename_i hempty
    have hne : s.loops ≠ [] := fun hnil => hempty (List.isEmpty_iff.mpr hnil)
    obtain ⟨hnums, hnext⟩ := hi rfl hne
    refine ⟨fun _ hstop => ?_, h.nodup, fun _ => ?_, ?_, fun _ k hk => ?_⟩
    · rw [hrun] at hstop
      cases hstop
    · change s.next + 1 = _
      rw [h.next hne, List.length_append, BitVec.ofNat_add]
      rfl
    · by_cases hone : s.loops.length = 1
      · exact .inl hone.le
      · have hlt := h.lt_wrap hne hone hnext
        refine .inr ?_
        rw [List.length_append, List.length_singleton]
        omega
    · dsimp only at hk ⊢
      rw [List.length_append, List.length_singleton] at hk
      rcases Nat.lt_succ_iff_lt_or_eq.mp hk with hlt | rfl
      · rw [List.getElem?_append_left hlt]
        exact h.turns hne k hlt
      · rw [List.getElem?_append_right le_rfl, Nat.sub_self, List.getElem?_cons_zero]
        exact h.pick_eq hne hnums hnext

theorem step_kept [DecidableEq α] (h : s.Kept) (hi : s.InTurn i) (ht : s.step i = some t) :
    t.Kept := by
  cases i with
  | setThreadNums nums =>
    obtain rfl := Option.some.inj ht
    exact ⟨h.unused, h.nodup, h.next, h.bound, h.turns⟩
  | start started =>
    obtain ⟨⟨hmain, hrun, hnodup, -⟩, hst⟩ := Option.ite_none_right_eq_some.mp ht
    obtain rfl := Option.some.inj hst
    obtain ⟨hloops, hpicks, hnext⟩ := h.unused hmain hrun
    unfold EventLoopThreadPool.start
    rw [hloops, hpicks, hnext, List.nil_append]
    exact ⟨nofun, hnodup, fun _ => rfl, .inr (Nat.zero_le _),
      fun _ k hk => absurd hk (Nat.not_lt_zero k)⟩
  | getNextEventLoop =>
    obtain ⟨⟨-, hrun⟩, hst⟩ := Option.ite_none_right_eq_some.mp ht
    obtain rfl := Option.some.inj hst
    exact h.getNextEventLoop hrun hi
  | stop =>
    obtain ⟨-, hst⟩ := Option.ite_none_right_eq_some.mp ht
    obtain rfl := Option.some.inj hst
    exact ⟨nofun, h.nodup, h.next, h.bound, h.turns⟩

theorem kept_new (α : Type) : (new α).Kept :=
  ⟨fun _ _ => ⟨rfl, rfl, rfl⟩, List.nodup_nil, fun hne => absurd rfl hne, .inl (Nat.zero_le 1),
    fun hne => absurd rfl hne⟩

end Turns

/-! ## Loads -/

section Loads

variable [DecidableEq α] {loops : List α} {picks : List (Pick α)}

/-- A loop has been returned in the turns that are its own. -/
theorem count_loop_eq (hnodup : loops.Nodup)
    (hturns : ∀ k < picks.length, picks[k]? = loops[k % loops.length]?.map Pick.loop)
    (j : Fin loops.length) :
    picks.count (.loop (loops.get j)) = Nat.count (· ≡ j [MOD loops.length]) picks.length := by
  induction picks using List.reverseRecOn with
  | nil => rfl
  | append_singleton picks p ih =>
    have hpos : 0 < loops.length := Fin.pos j
    have hlast : p = .loop (loops.get ⟨picks.length % loops.length, Nat.mod_lt _ hpos⟩) := by
      have h := hturns picks.length (by simp)
      rw [List.getElem?_append_right le_rfl, Nat.sub_self, List.getElem?_cons_zero,
        List.getElem?_eq_getElem (Nat.mod_lt _ hpos), Option.map_some] at h
      exact Option.some.inj h
    have hmine : p = .loop (loops.get j) ↔ picks.length ≡ j [MOD loops.length] := by
      rw [hlast, Pick.loop.injEq, hnodup.get_inj_iff, Fin.ext_iff, Nat.ModEq,
        Nat.mod_eq_of_lt j.isLt]
    have hbefore : ∀ k < picks.length,
        picks[k]? = loops[k % loops.length]?.map Pick.loop := by
      intro k hk
      rw [← hturns k (by simp; omega), List.getElem?_append_left hk]
    rw [List.count_append, ih hbefore, List.length_append, List.length_singleton, Nat.count_succ,
      List.count_singleton]
    simp only [beq_iff_eq, hmine]

theorem loads_le (hnodup : loops.Nodup)
    (hturns : ∀ k < picks.length, picks[k]? = loops[k % loops.length]?.map Pick.loop)
    {a b : α} (ha : a ∈ loops) (hb : b ∈ loops) :
    picks.count (.loop a) ≤ picks.count (.loop b) + 1 := by
  obtain ⟨i, rfl⟩ := List.mem_iff_get.mp ha
  obtain ⟨j, rfl⟩ := List.mem_iff_get.mp hb
  rw [count_loop_eq hnodup hturns, count_loop_eq hnodup hturns,
    Nat.count_modEq_card _ (Fin.pos i), Nat.count_modEq_card _ (Fin.pos i)]
  split <;> omega

end Loads

theorem Kept.roundRobin [DecidableEq α] {s : EventLoopThreadPool α} (h : s.Kept) :
    s.RoundRobin :=
  fun hne => ⟨h.turns hne, fun _ ha _ hb => loads_le h.nodup (h.turns hne) ha hb⟩

/-- The loops are handed out in turn in every run in which `thread_nums_` is the number of
the loops whenever one is handed out, and there is one loop only or fewer than 2^31 calls
came before. -/
theorem round_robin_run [DecidableEq α] {is : List (Input α)}
    (h : Machine.Along step InTurn (new α) is) : Machine.Throughout step RoundRobin (new α) is :=
  Machine.throughout_of_along step_kept Kept.roundRobin (kept_new α) h

/-- The number of threads may be changed in between, if it is changed back in time. -/
theorem round_robin_run_restored : ∃ s,
    Machine.run step (new Nat) [.setThreadNums 2, .start [10, 20], .getNextEventLoop,
      .setThreadNums 0, .setThreadNums 2, .getNextEventLoop, .getNextEventLoop] = some s ∧
    Machine.Throughout step RoundRobin (new Nat) [.setThreadNums 2, .start [10, 20],
      .getNextEventLoop, .setThreadNums 0, .setThreadNums 2, .getNextEventLoop,
      .getNextEventLoop] ∧
    s.picks = [.loop 10, .loop 20, .loop 10] :=
  ⟨_, rfl, round_robin_run (by decide), by decide⟩

/-- After `set_thread_nums(0)` there is no remainder. -/
theorem round_robin_divisor_zero : ∃ s,
    Machine.run step (new Nat) [.setThreadNums 2, .start [10, 20], .setThreadNums 0,
      .getNextEventLoop] = some s ∧
    s.picks = [.noRemainder] ∧ ¬ s.RoundRobin := by
  refine ⟨_, rfl, by decide, fun h => ?_⟩
  have hfirst := (h (by decide)).1 0 (by decide)
  exact absurd hfirst (by decide)

end EventLoopThreadPool

end LinuxNet
