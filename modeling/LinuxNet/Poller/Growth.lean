import LinuxNet.Poller.Active
import Mathlib.Tactic.Ring

/-!
# How far `event_list_` grows

`Poll` doubles its two arrays when a result fills `event_list_`, and never gives any of it back.
A result has no more events than there are channels registered, so each doubling finds twice as
many of them as the one before.
-/

namespace LinuxNet

set_option autoImplicit false

open LinuxNet.Lib LinuxNet.Lib.SlotTable

namespace Polling

/-- The number of registered channels, if the poll is one whose result fills `event_list_`. -/
def filled (s : Polling) (i : Input) (_ : Polling) : List Nat :=
  match i with
  | .poll r =>
    if 0 < r.events.length ∧ r.events.length = s.eventList.length then [s.poller.channelNums]
    else []
  | .request _ => []

section Steps

variable {s t : Polling} {i : Input} {l : List (EventMask × ChanId)} {r : WaitResult} {h : List Nat}

/-- Every event is that of another registered channel. -/
theorem Inv.length_le (hs : s.Inv) (hr : s.reportable l = true) :
    l.length ≤ s.poller.channelNums := by
  simp only [reportable, Bool.and_eq_true, decide_eq_true_eq, List.all_eq_true, beq_iff_eq] at hr
  obtain ⟨⟨_, hnd⟩, hall⟩ := hr
  have hslot : ∀ c ∈ l.map Prod.snd, s.poller.channels (s.poller.chans c).fd = some c := by
    intro c hc
    obtain ⟨e, he, rfl⟩ := List.mem_map.mp hc
    obtain ⟨⟨m, c⟩, hk, hsame⟩ := Option.map_eq_some_iff.mp (hall e he)
    have hadd := (hs.tracked.interest _ _ _ hk).2
    rw [show c = e.2 from hsame] at hadd
    exact (hs.tracked.slot _ _).mpr ⟨rfl, by rw [hadd]; decide⟩
  have hrange : ∀ c ∈ l.map Prod.snd, (s.poller.chans c).fd < s.poller.size := fun c hc =>
    hs.tracked.range _ (by rw [hslot c hc]; rfl)
  have hle := length_le_occupied hnd (fun c => (s.poller.chans c).fd) hslot hrange
  rw [List.length_map] at hle
  rw [hs.tracked.count]
  exact hle

theorem fillOne_eventList (s : Polling) (k : Nat) :
    (s.fillOne k).eventList = s.eventList := by
  unfold fillOne setActive
  split
  · rfl
  · split
    · rfl
    · split
      · dsimp only
        split <;> rfl
      · rfl

theorem fillActiveChannel_eventList (s : Polling) (n : Nat) :
    (s.fillActiveChannel n).eventList = s.eventList := by
  have hfold : ((List.range n).foldl fillOne s).eventList = s.eventList := by
    induction n with
    | zero => rfl
    | succ n ih =>
      rw [List.range_succ, List.foldl_append]
      exact (fillOne_eventList _ n).trans ih
  unfold fillActiveChannel setActive
  split <;> exact hfold

/-- A poll doubles the list if its result fills it. -/
theorem poll_length (hs : s.Inv) (hr : s.reportable r.events = true) :
    (s.poll r).eventList.length =
      if 0 < r.events.length ∧ r.events.length = s.eventList.length then s.eventList.length * 2
      else s.eventList.length := by
  obtain ⟨_, _, _, hlist⟩ := setActive_zero hs
  unfold poll
  dsimp only
  generalize s.setActive 0 none = q at hlist
  cases r with
  | error => exact congrArg List.length hlist
  | ready l =>
    have hle : l.length ≤ q.eventList.length := by
      rw [hlist]
      exact (hs.mask_of_reportable hr).1
    obtain ⟨hlen, _⟩ := wait_eventList hle
    rw [← hlist, ← hlen, show (WaitResult.ready l).events = l from rfl]
    dsimp only
    by_cases hpos : 0 < l.length
    · rw [if_pos hpos, fillActiveChannel_eventList]
      by_cases hfull : l.length = (q.wait l).eventList.length
      · rw [if_pos hfull, if_pos ⟨hpos, hfull⟩, grow, List.length_append, List.length_replicate]
        omega
      · rw [if_neg hfull, if_neg fun hno => hfull hno.2]
    · rw [if_neg hpos, if_neg fun hno => hpos hno.1]

/-- The list has been doubled at each of these polls, and each found as many channels as the
list had entries. -/
structure Grown (active : Nat) (h : List Nat) (s : Polling) : Prop where
  inv : s.Inv
  length : s.eventList.length = active * 2 ^ h.length
  registered : ∀ k n, h[k]? = some n → active * 2 ^ k ≤ n

theorem step_grown {active : Nat} (hg : Grown active h s) (hs : s.step i = some t) :
    Grown active (h ++ filled s i t) t := by
  have ht := step_inv hg.inv hs
  cases i with
  | request i =>
    obtain ⟨p, hp, rfl⟩ := Option.map_eq_some_iff.mp hs
    have hnone : filled s (.request i) { s with poller := p } = [] := rfl
    rw [hnone, List.append_nil]
    exact ⟨ht, hg.length, hg.registered⟩
  | poll r =>
    obtain ⟨hr, heq⟩ := Option.ite_none_right_eq_some.mp hs
    obtain rfl := Option.some.inj heq
    have hlen := poll_length hg.inv hr
    have hle := hg.inv.length_le hr
    by_cases hfull : 0 < r.events.length ∧ r.events.length = s.eventList.length
    · rw [if_pos hfull] at hlen
      have hone : filled s (.poll r) (s.poll r) = [s.poller.channelNums] := if_pos hfull
      rw [hone]
      refine ⟨ht, ?_, fun k n hk => ?_⟩
      · rw [hlen, hg.length, List.length_append, List.length_singleton, Nat.pow_succ, Nat.mul_assoc]
      · by_cases hold : k < h.length
        · rw [List.getElem?_append_left hold] at hk
          exact hg.registered k n hk
        · rw [List.getElem?_append_right (by omega)] at hk
          obtain ⟨hlt, hval⟩ := List.getElem?_eq_some_iff.mp hk
          rw [List.getElem_singleton] at hval
          rw [List.length_singleton] at hlt
          have hkeq : k = h.length := by omega
          rw [← hval, hkeq, ← hg.length, ← hfull.2]
          exact hle
    · rw [if_neg hfull] at hlen
      have hnone : filled s (.poll r) (s.poll r) = [] := if_neg hfull
      rw [hnone, List.append_nil]
      exact ⟨ht, hlen.trans hg.length, hg.registered⟩

end Steps

/-- **`event_list_` stays within twice the load.** Whatever is registered and polled, with
requests that succeed or fail: the list has been doubled once for each poll whose result filled
it; poll number `k` of these, counted from 0, found at least `active * 2 ^ k` registered channels;
so the list is as long as in the beginning, or at most twice as long as there were channels at
its last growth. -/
theorem event_list_bounded (active : Nat) (hactive : 0 < active) (size : Nat)
    (fdOf : ChanId → Nat) (is : List Input) (s : Polling)
    (hr : Machine.run step (new active size fdOf) is = some s) (nums : List Nat)
    (hnums : nums = Machine.trace step filled (new active size fdOf) is) :
    s.eventList.length = active * 2 ^ nums.length ∧
    (∀ k n, nums[k]? = some n → active * 2 ^ k ≤ n) ∧
    (∀ n, nums.getLast? = some n → s.eventList.length ≤ 2 * n) := by
  have hstart : Grown active [] (new active size fdOf) := by
    refine ⟨inv_new hactive size fdOf, ?_, fun k n hk => (by cases hk)⟩
    simp [new]
  have hg := Machine.trace_invariant (P := Grown active) step_grown hstart hr
  rw [List.nil_append, ← hnums] at hg
  refine ⟨hg.length, hg.registered, fun n hn => ?_⟩
  rw [List.getLast?_eq_getElem?] at hn
  have hlast := hg.registered _ n hn
  have hpos : 0 < nums.length := by
    obtain ⟨hlt, _⟩ := List.getElem?_eq_some_iff.mp hn
    omega
  calc s.eventList.length = active * 2 ^ (nums.length - 1 + 1) := by
        rw [hg.length, Nat.sub_add_cancel hpos]
    _ = 2 * (active * 2 ^ (nums.length - 1)) := by rw [Nat.pow_succ]; ring
    _ ≤ 2 * n := Nat.mul_le_mul_left 2 hlast

/-- Three channels are registered. Two results fill the list; the last one has the three events
and does not. -/
theorem event_list_bounded_three_channels : ∃ s,
    Machine.run step (new 1 8 (· + 1))
      [.request (1, .enableReading, true), .request (2, .enableReading, true),
        .request (3, .enableWriting, true), .poll (.ready [(EPOLLIN, 2)]),
        .poll (.ready [(EPOLLIN, 1), (EPOLLOUT, 3)]),
        .poll (.ready [(EPOLLIN, 1), (EPOLLIN, 2), (EPOLLOUT, 3)])] = some s ∧
    s.eventList.length = 1 * 2 ^ [3, 3].length ∧ s.eventList.length ≤ 2 * 3 := by
  obtain ⟨s, hr⟩ := Option.isSome_iff_exists.mp (show (Machine.run step (new 1 8 (· + 1))
      [.request (1, .enableReading, true), .request (2, .enableReading, true),
        .request (3, .enableWriting, true), .poll (.ready [(EPOLLIN, 2)]),
        .poll (.ready [(EPOLLIN, 1), (EPOLLOUT, 3)]),
        .poll (.ready [(EPOLLIN, 1), (EPOLLIN, 2), (EPOLLOUT, 3)])]).isSome = true by
          decide +kernel)
  obtain ⟨hlen, _, hlast⟩ := event_list_bounded 1 (by decide) 8 (· + 1) _ s hr [3, 3]
    (by decide +kernel)
  exact ⟨s, hr, hlen, hlast 3 rfl⟩

end Polling

end LinuxNet
