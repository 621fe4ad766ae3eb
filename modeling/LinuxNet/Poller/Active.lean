import LinuxNet.Poller.Failures

/-!
# The active channels

`Poll` and `FillActiveChannel`, with the two arrays they work on. `event_list_` is written by the
kernel; `active_channels_` is never cleared, and ends for its readers at the first `nullptr`. A
poll writes the channels of its events to the front and a `nullptr` behind them, so that nothing
of an earlier result is left before it, provided that no event is skipped: an entry that
`FillActiveChannel` passes over keeps what was there. The kernel reports a channel that is in
its interest set only, and such a channel has a mask (`Epoller.Tracked`).
-/

namespace LinuxNet

set_option autoImplicit false

open LinuxNet.Lib

/-- `epoll_event`; a new element of `event_list_` points to no channel. -/
structure EpollEvent where
  events : EventMask
  ptr : Option ChanId
  deriving DecidableEq, Repr

def EpollEvent.zero : EpollEvent := ⟨0#32, none⟩

/-- The result of `::epoll_wait`: the events, none if the time has run out, or -1. -/
inductive WaitResult where
  | ready (l : List (EventMask × ChanId))
  | error
  deriving DecidableEq, Repr

def WaitResult.events : WaitResult → List (EventMask × ChanId)
  | .ready l => l
  | .error => []

/-- An index out of range, or a null pointer. -/
inductive Polling.Fault where
  | eventIndex | activeIndex | nullChannel
  deriving DecidableEq, Repr

/-- `event_list_`, `active_channels_` and `egen_`, beside the registry. -/
structure Polling where
  poller : Epoller
  eventList : List EpollEvent
  activeChannels : List (Option ChanId)
  egen : Nat
  faults : List Polling.Fault

namespace Polling

/-- The constructor; `active` is `kInitActiveChannelSize`. -/
def new (active size : Nat) (fdOf : ChanId → Nat) : Polling where
  poller := Epoller.new size fdOf
  eventList := List.replicate active .zero
  activeChannels := List.replicate active none
  egen := 0
  faults := []

def fault (s : Polling) (f : Fault) : Polling := { s with faults := s.faults ++ [f] }

/-- `active_channels_[i] = channel`. -/
def setActive (s : Polling) (i : Nat) (channel : Option ChanId) : Polling :=
  if i < s.activeChannels.length then
    { s with activeChannels := s.activeChannels.set i channel }
  else s.fault .activeIndex

/-- The loop of `FillActiveChannel`. -/
def fillOne (s : Polling) (i : Nat) : Polling :=
  match s.eventList[i]? with
  | none => s.fault .eventIndex
  | some event =>
    match event.ptr with
    | none => s.fault .nullChannel
    | some c =>
      if !(s.poller.chans c).isNoneEvent then
        let poller := s.poller.setChannel c { s.poller.chans c with revents := event.events }
        { s with poller := poller }.setActive i (some c)
      else { s with egen := s.egen + 1 }

/-- `FillActiveChannel`. -/
def fillActiveChannel (s : Polling) (activeNums : Nat) : Polling :=
  ((List.range activeNums).foldl fillOne s).setActive activeNums none

/-- `::epoll_wait` writes its events to the front of `event_list_`. -/
def wait (s : Polling) (l : List (EventMask × ChanId)) : Polling :=
  { s with eventList := l.map (fun e => ⟨e.1, some e.2⟩) ++ s.eventList.drop l.length }

/-- Both arrays are doubled; `active_channels_` is cleared. -/
def grow (s : Polling) : Polling :=
  { s with
    eventList := s.eventList ++ List.replicate s.eventList.length .zero
    activeChannels := List.replicate (s.eventList.length * 2) none }

/-- `Poll`. -/
def poll (s : Polling) (r : WaitResult) : Polling :=
  let s := s.setActive 0 none
  match r with
  | .error => s
  | .ready l =>
    let s := s.wait l
    if 0 < l.length then
      let s := if l.length = s.eventList.length then s.grow else s
      s.fillActiveChannel l.length
    else s

/-- What the loop of `EventLoop::Loop` goes through. -/
def dispatched (s : Polling) : List ChanId :=
  (s.activeChannels.takeWhile Option.isSome).filterMap id

/-! ## The machine -/

/-- `epoll_wait` may report the events: not more than there is room for, no channel twice, and
only channels in the interest set. -/
def reportable (s : Polling) (l : List (EventMask × ChanId)) : Bool :=
  l.length ≤ s.eventList.length && (l.map Prod.snd).Nodup &&
    l.all fun e => (s.poller.kernel (s.poller.chans e.2).fd).map Prod.snd == some e.2

inductive Input where
  | poll (r : WaitResult)
  /-- A channel asks something of the poller. -/
  | request (i : ChanId × Epoller.Op × Bool)

def step (s : Polling) : Input → Option Polling
  | .poll r => if s.reportable r.events then some (s.poll r) else none
  | .request i => (s.poller.request i).map fun p => { s with poller := p }

/-! ## Filling -/

structure Inv (s : Polling) : Prop where
  tracked : s.poller.Tracked
  sizes : s.activeChannels.length = s.eventList.length
  room : 0 < s.eventList.length
  noFault : s.faults = []

theorem inv_new {active : Nat} (ha : 0 < active) (size : Nat) (fdOf : ChanId → Nat) :
    (new active size fdOf).Inv where
  tracked := Epoller.tracked_new size fdOf
  sizes := by simp [new]
  room := by simpa [new] using ha
  noFault := rfl

/-- The first `k` events of `l` have been gone through. -/
structure Filled (s : Polling) (l : List (EventMask × ChanId)) (k : Nat) (t : Polling) : Prop where
  tracked : t.poller.Tracked
  active : t.activeChannels = (l.take k).map (fun e => some e.2) ++ s.activeChannels.drop k
  eventList : t.eventList = s.eventList
  faults : t.faults = s.faults
  masks : ∀ c, (t.poller.chans c).events = (s.poller.chans c).events
  revents : ∀ e ∈ l.take k, (t.poller.chans e.2).revents = e.1

section Fill

variable {s t : Polling} {l : List (EventMask × ChanId)}

theorem setActive_eq {i : Nat} {channel : Option ChanId} (hi : i < s.activeChannels.length) :
    s.setActive i channel = { s with activeChannels := s.activeChannels.set i channel } :=
  if_pos hi

theorem set_append_drop {α : Type*} (xs ys : List α) (a : α) (h : xs.length < ys.length) :
    (xs ++ ys.drop xs.length).set xs.length a = xs ++ a :: ys.drop (xs.length + 1) := by
  rw [List.set_append_right _ _ (Nat.le_refl _), Nat.sub_self, List.drop_eq_getElem_cons h,
    List.set_cons_zero]

/-- One event. -/
theorem Filled.fillOne {k : Nat} (hf : Filled s l k t) (hk : k < l.length)
    (hroom : l.length ≤ s.activeChannels.length) (hnd : (l.map Prod.snd).Nodup)
    (hevents : ∀ i (h : i < l.length), s.eventList[i]? = some ⟨(l[i]).1, some (l[i]).2⟩)
    (hmask : ∀ e ∈ l, (s.poller.chans e.2).events ≠ Channel.kNoneEvent) :
    Filled s l (k + 1) (t.fillOne k) := by
  have hlen : ((l.take k).map fun e => some e.2).length = k := by
    rw [List.length_map, List.length_take]
    omega
  have hactive : k < t.activeChannels.length := by
    rw [hf.active, List.length_append, hlen, List.length_drop]
    omega
  have hnone : (t.poller.chans (l[k]).2).isNoneEvent = false := by
    rw [Channel.isNoneEvent, hf.masks]
    simpa using hmask _ (List.getElem_mem hk)
  have hone : t.fillOne k = { t with
      poller := t.poller.setChannel (l[k]).2 { t.poller.chans (l[k]).2 with revents := (l[k]).1 }
      activeChannels := t.activeChannels.set k (some (l[k]).2) } := by
    unfold Polling.fillOne
    rw [hf.eventList, hevents k hk]
    simp only [hnone, Bool.not_false, ↓reduceIte]
    rw [setActive_eq]
    exact hactive
  have htake : l.take (k + 1) = l.take k ++ [l[k]] := (List.take_append_getElem hk).symm
  rw [hone]
  refine ⟨?_, ?_, hf.eventList, hf.faults, fun c => ?_, fun e he => ?_⟩
  · exact hf.tracked.setChannel rfl rfl fun hadd => (hf.tracked.added _ hadd).2
  · have hset := set_append_drop ((l.take k).map fun e => some e.2) s.activeChannels
      (some (l[k]).2) (by rw [hlen]; omega)
    rw [hlen] at hset
    dsimp only
    rw [hf.active, hset, htake, List.map_append, List.append_assoc]
    rfl
  · rw [← hf.masks c]
    by_cases hc : c = (l[k]).2
    · simp [Epoller.setChannel, hc]
    · simp [Epoller.setChannel, hc]
  · rw [htake, List.mem_append, List.mem_singleton] at he
    rcases he with hold | rfl
    · -- the channel of an earlier event is another one
      have hne : e.2 ≠ (l[k]).2 := by
        have hsub : ((l.take (k + 1)).map Prod.snd).Nodup :=
          hnd.sublist ((List.take_sublist _ _).map _)
        rw [htake, List.map_append, List.nodup_append] at hsub
        exact hsub.2.2 _ (List.mem_map_of_mem hold) _ (by simp)
      simpa [Epoller.setChannel, hne] using hf.revents e hold
    · simp [Epoller.setChannel]

/-- The whole loop. -/
theorem foldl_fillOne (htr : s.poller.Tracked) (hroom : l.length ≤ s.activeChannels.length)
    (hnd : (l.map Prod.snd).Nodup)
    (hevents : ∀ i (h : i < l.length), s.eventList[i]? = some ⟨(l[i]).1, some (l[i]).2⟩)
    (hmask : ∀ e ∈ l, (s.poller.chans e.2).events ≠ Channel.kNoneEvent) {k : Nat}
    (hk : k ≤ l.length) : Filled s l k ((List.range k).foldl Polling.fillOne s) := by
  induction k with
  | zero => exact ⟨htr, by simp, rfl, rfl, fun _ => rfl, by simp⟩
  | succ k ih =>
    rw [List.range_succ, List.foldl_append]
    exact (ih (Nat.le_of_succ_le hk)).fillOne hk hroom hnd hevents hmask

/-- What is read behind the sentinel is of no concern. -/
theorem dispatched_of_active (cs : List ChanId) {rest : List (Option ChanId)}
    (h : t.activeChannels = cs.map some ++ none :: rest) : t.dispatched = cs := by
  have hall : ∀ c ∈ cs.map some, c.isSome = true := by simp
  rw [dispatched, h, List.takeWhile_append_of_pos hall]
  simp

/-- What `Poll` leaves behind. -/
structure Polled (r : WaitResult) (t : Polling) : Prop where
  dispatched : t.dispatched = r.events.map Prod.snd
  revents : ∀ e ∈ r.events, (t.poller.chans e.2).revents = e.1

/-- **`FillActiveChannel`** with room for the sentinel. -/
theorem fillActiveChannel_spec (hs : s.Inv) (hroom : l.length < s.activeChannels.length)
    (hnd : (l.map Prod.snd).Nodup)
    (hevents : ∀ i (h : i < l.length), s.eventList[i]? = some ⟨(l[i]).1, some (l[i]).2⟩)
    (hmask : ∀ e ∈ l, (s.poller.chans e.2).events ≠ Channel.kNoneEvent) :
    (s.fillActiveChannel l.length).Inv ∧ Polled (.ready l) (s.fillActiveChannel l.length) := by
  have hf := foldl_fillOne hs.tracked hroom.le hnd hevents hmask (Nat.le_refl l.length)
  have hactive := hf.active
  rw [List.take_length] at hactive
  unfold fillActiveChannel
  generalize (List.range l.length).foldl Polling.fillOne s = t at hf hactive
  have hlen : t.activeChannels.length = s.activeChannels.length := by
    rw [hactive, List.length_append, List.length_map, List.length_drop]
    omega
  have hset := set_append_drop (l.map fun e => some e.2) s.activeChannels none
    (by rw [List.length_map]; exact hroom)
  rw [List.length_map] at hset
  rw [setActive_eq (hlen ▸ hroom)]
  refine ⟨⟨hf.tracked, ?_, ?_, hf.faults.trans hs.noFault⟩, ?_, ?_⟩
  · dsimp only
    rw [List.length_set, hlen, hf.eventList, hs.sizes]
  · dsimp only
    rw [hf.eventList]
    exact hs.room
  · have hcut : t.activeChannels.set l.length none = (l.map Prod.snd).map some ++
        none :: s.activeChannels.drop (l.length + 1) := by
      rw [hactive, hset, List.map_map]
      rfl
    exact dispatched_of_active (l.map Prod.snd) hcut
  · intro e he
    refine hf.revents e ?_
    rw [List.take_length]
    exact he

end Fill

/-! ## Polling -/

section Poll

variable {s t : Polling} {l : List (EventMask × ChanId)}

theorem setActive_zero (h : s.Inv) :
    (s.setActive 0 none).Inv ∧ (s.setActive 0 none).dispatched = [] ∧
      (s.setActive 0 none).poller = s.poller ∧ (s.setActive 0 none).eventList = s.eventList := by
  have hpos : 0 < s.activeChannels.length := h.sizes ▸ h.room
  rw [setActive_eq hpos]
  refine ⟨⟨h.tracked, ?_, h.room, h.noFault⟩, ?_, rfl, rfl⟩
  · dsimp only
    rw [List.length_set]
    exact h.sizes
  · obtain ⟨a, as, has⟩ := List.exists_cons_of_length_pos hpos
    have hcut : s.activeChannels.set 0 none = none :: as := by rw [has, List.set_cons_zero]
    exact dispatched_of_active [] hcut

theorem wait_eventList (hle : l.length ≤ s.eventList.length) :
    (s.wait l).eventList.length = s.eventList.length ∧
      ∀ i (h : i < l.length), (s.wait l).eventList[i]? = some ⟨(l[i]).1, some (l[i]).2⟩ := by
  refine ⟨?_, fun i hi => ?_⟩
  · rw [wait, List.length_append, List.length_map, List.length_drop]
    omega
  · rw [wait, List.getElem?_append_left (by rw [List.length_map]; exact hi), List.getElem?_map,
      List.getElem?_eq_getElem hi]
    rfl

/-- A channel in the interest set has a mask. -/
theorem Inv.mask_of_reportable (h : s.Inv) (hr : s.reportable l = true) :
    l.length ≤ s.eventList.length ∧ (l.map Prod.snd).Nodup ∧
      ∀ e ∈ l, (s.poller.chans e.2).events ≠ Channel.kNoneEvent := by
  simp only [reportable, Bool.and_eq_true, decide_eq_true_eq, List.all_eq_true, beq_iff_eq] at hr
  obtain ⟨⟨hle, hnd⟩, hall⟩ := hr
  refine ⟨hle, hnd, fun e he => ?_⟩
  obtain ⟨⟨m, c⟩, hk, hc⟩ := Option.map_eq_some_iff.mp (hall e he)
  have hadd := (h.tracked.interest _ _ _ hk).2
  rw [show c = e.2 from hc] at hadd
  exact (h.tracked.added _ hadd).2

/-- **`Poll`.** -/
theorem poll_spec (h : s.Inv) {r : WaitResult} (hr : s.reportable r.events = true) :
    (s.poll r).Inv ∧ Polled r (s.poll r) := by
  obtain ⟨hinv, hempty, hpoller, hlist⟩ := setActive_zero h
  unfold poll
  dsimp only
  generalize s.setActive 0 none = q at hinv hempty hpoller hlist
  cases r with
  | error => exact ⟨hinv, hempty, nofun⟩
  | ready l =>
    have hrep : s.reportable l = true := hr
    obtain ⟨hle, hnd, hmask⟩ := h.mask_of_reportable hrep
    rw [← hlist] at hle
    rw [← hpoller] at hmask
    obtain ⟨hlen, hevents⟩ := wait_eventList hle
    have hwait : (q.wait l).Inv := by
      refine ⟨hinv.tracked, ?_, ?_, hinv.noFault⟩
      · rw [hlen]
        exact hinv.sizes
      · rw [hlen]
        exact hinv.room
    dsimp only
    by_cases hpos : 0 < l.length
    · rw [if_pos hpos]
      by_cases hfull : l.length = (q.wait l).eventList.length
      · -- the sentinel has its place because the array has been doubled
        rw [if_pos hfull]
        have hsize : (q.wait l).grow.eventList.length = (q.wait l).eventList.length * 2 := by
          rw [grow, List.length_append, List.length_replicate]
          omega
        refine fillActiveChannel_spec ⟨hwait.tracked, ?_, ?_, hwait.noFault⟩ ?_ hnd
          (fun i hi => ?_) hmask
        · rw [hsize, grow, List.length_replicate]
        · rw [hsize]
          omega
        · rw [grow, List.length_replicate]
          omega
        · rw [grow, List.getElem?_append_left (by omega)]
          exact hevents i hi
      · rw [if_neg hfull]
        refine fillActiveChannel_spec hwait ?_ hnd hevents hmask
        rw [hwait.sizes]
        omega
    · rw [if_neg hpos]
      obtain rfl : l = [] := List.length_eq_zero_iff.mp (by omega)
      exact ⟨hwait, hempty, nofun⟩

theorem step_inv {i : Input} (h : s.Inv) (hs : s.step i = some t) : t.Inv := by
  cases i with
  | poll r =>
    simp only [step] at hs
    split at hs
    · rename_i hr
      cases hs
      exact (poll_spec h hr).1
    · cases hs
  | request i =>
    obtain ⟨p, hp, rfl⟩ := Option.map_eq_some_iff.mp hs
    exact ⟨h.tracked.request hp, h.sizes, h.room, h.noFault⟩

end Poll

/-- **The loop dispatches what `epoll_wait` has returned.** Whatever has been polled and registered
before, with requests that succeed or fail: behind a poll the channels in front of the first
`nullptr` are those of its events, in order, none on a time-out or an error; each has the mask that
was reported; and no index has been out of range. -/
theorem poll_dispatches (active : Nat) (hactive : 0 < active) (size : Nat) (fdOf : ChanId → Nat)
    (past : List Input) (r : WaitResult) (t : Polling)
    (hr : Machine.run step (new active size fdOf) (past ++ [.poll r]) = some t) :
    t.dispatched = r.events.map Prod.snd ∧
    (∀ e ∈ r.events, (t.poller.chans e.2).revents = e.1) ∧
    t.faults = [] ∧ t.activeChannels.length = t.eventList.length := by
  obtain ⟨s, hs, hlast⟩ := Machine.run_append_iff.mp hr
  have hinv := Machine.run_invariant (P := Inv) step_inv (inv_new hactive size fdOf) hs
  rw [Machine.run_singleton] at hlast
  simp only [step] at hlast
  split at hlast
  · rename_i hrep
    cases hlast
    obtain ⟨ht, hp⟩ := poll_spec hinv hrep
    exact ⟨hp.dispatched, hp.revents, ht.noFault, ht.sizes⟩
  · cases hlast

/-- A full result doubles the arrays and the next one fills them again; the last one is shorter. -/
theorem poll_dispatches_grown : ∃ t,
    Machine.run step (new 1 8 (· + 1))
      ([.request (3, .enableReading, true), .request (5, .enableWriting, true),
        .poll (.ready [(EPOLLIN, 3)]), .poll (.ready [(EPOLLOUT, 5), (EPOLLIN, 3)])] ++
        [.poll (.ready [(EPOLLIN ||| EPOLLHUP, 3)])]) = some t ∧
    t.activeChannels = [some 3, none, none, none] ∧ t.dispatched = [3] ∧ t.faults = [] := by
  have hrun : (Machine.run step (new 1 8 (· + 1))
      ([.request (3, .enableReading, true), .request (5, .enableWriting, true),
        .poll (.ready [(EPOLLIN, 3)]), .poll (.ready [(EPOLLOUT, 5), (EPOLLIN, 3)])] ++
        [.poll (.ready [(EPOLLIN ||| EPOLLHUP, 3)])])).map (fun t => t.activeChannels) =
      some [some 3, none, none, none] := by
    decide +kernel
  obtain ⟨t, hr, ht⟩ := Option.map_eq_some_iff.mp hrun
  obtain ⟨hdisp, _, hfault, _⟩ := poll_dispatches 1 (by decide) 8 (· + 1) _ _ t hr
  exact ⟨t, hr, ht, hdisp, hfault⟩

end Polling

end LinuxNet
