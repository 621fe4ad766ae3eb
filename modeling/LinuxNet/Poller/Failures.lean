import LinuxNet.Poller.Registry

/-!
# Requests that fail

`UpdateEvent` sets the mask of a channel before the kernel is asked, and a request that fails
leaves the mask and the status as they are. `Tracked` is what is left of the registry when ADD and
MOD may fail: the status still says what is in the table and in the interest set, but a channel
with the status `kDel` may have a mask now. `RemoveChannel` decides by the mask whether the kernel
has to be asked, and gives up when the request fails.

No assertion is relied on here. A channel on a descriptor that another one is registered on is
refused by `UpdateChannel` itself.
-/

namespace LinuxNet

open LinuxNet.Lib LinuxNet.Lib.SlotTable

namespace Epoller

structure Tracked (p : Epoller) : Prop where
  slot : ∀ fd c, p.channels fd = some c ↔
    (p.chans c).fd = fd ∧ (p.chans c).status ≠ .kNew
  interest : ∀ fd m c, p.kernel fd = some (m, c) →
    (p.chans c).fd = fd ∧ (p.chans c).status = .kAdded
  added : ∀ c, (p.chans c).status = .kAdded →
    (p.kernel (p.chans c).fd).isSome ∧ (p.chans c).events ≠ Channel.kNoneEvent
  range : ∀ fd, (p.channels fd).isSome → fd < p.size
  count : p.channelNums = occupied p.channels p.size

theorem tracked_new (size : Nat) (fdOf : ChanId → Nat) : Tracked (Epoller.new size fdOf) where
  slot := by simp [Epoller.new, Channel.new]
  interest := by simp [Epoller.new]
  added := by simp [Epoller.new, Channel.new]
  range := by simp [Epoller.new]
  count := (occupied_empty size).symm

/-- `c` is not registered: not in the table, not counted, not in the interest set. -/
structure Unregistered (p : Epoller) (c : ChanId) : Prop where
  slot : p.channels (p.chans c).fd ≠ some c
  status : (p.chans c).status = .kNew
  count : p.channelNums = occupied p.channels p.size
  interest : ∀ fd m, p.kernel fd ≠ some (m, c)

section Tracked

variable {p q : Epoller} {c : ChanId}

theorem Tracked.asserts (h : Tracked p) (l : List Assert) : Tracked { p with asserts := l } :=
  ⟨h.slot, h.interest, h.added, h.range, h.count⟩

/-- An assertion leaves everything else alone. -/
theorem check_asserts (p : Epoller) (site : Assert) (ok : Bool) :
    ∃ l, p.check site ok = { p with asserts := l } := by
  unfold check
  split
  · exact ⟨p.asserts, rfl⟩
  · exact ⟨_, rfl⟩

theorem dumpChannels_asserts (p : Epoller) : ∃ l, p.dumpChannels = { p with asserts := l } := by
  unfold dumpChannels
  dsimp only
  obtain ⟨l, hl⟩ := check_asserts p .dumpMaxFd (p.curMaxFd < p.size)
  rw [hl]
  obtain ⟨l', hl'⟩ := check_asserts { p with asserts := l } .dumpIndex
    ((List.range (p.curMaxFd + 1)).all { p with asserts := l }.slotMatches)
  rw [hl']
  exact check_asserts _ _ _

theorem Tracked.check (h : Tracked p) (site : Assert) (ok : Bool) : Tracked (p.check site ok) := by
  obtain ⟨l, hl⟩ := check_asserts p site ok
  rw [hl]
  exact h.asserts l

theorem Tracked.unique (h : Tracked p) {c' : ChanId} (hc : (p.chans c).status ≠ .kNew)
    (hc' : (p.chans c').status ≠ .kNew) (hfd : (p.chans c').fd = (p.chans c).fd) : c' = c := by
  have h1 := (h.slot _ _).mpr ⟨hfd, hc'⟩
  have h2 := (h.slot _ _).mpr ⟨rfl, hc⟩
  rw [h1] at h2
  exact Option.some.inj h2

/-- Only a channel with the status `kAdded` is in the interest set. -/
theorem Tracked.kernel_isSome (h : Tracked p) (hc : (p.chans c).status ≠ .kNew) :
    (p.kernel (p.chans c).fd).isSome = true ↔ (p.chans c).status = .kAdded := by
  constructor
  · intro hsome
    obtain ⟨⟨m, c'⟩, hk⟩ := Option.isSome_iff_exists.mp hsome
    obtain ⟨hfd, hst⟩ := h.interest _ _ _ hk
    rw [← h.unique hc (by simp [hst]) hfd]
    exact hst
  · exact fun hst => (h.added c hst).1

/-- A free slot is the slot of a descriptor that the kernel does not watch. -/
theorem Tracked.kernel_free (h : Tracked p) {fd : Nat} (hfree : p.channels fd = none) :
    p.kernel fd = none := by
  cases hk : p.kernel fd with
  | none => rfl
  | some e =>
    obtain ⟨hfd, hst⟩ := h.interest fd e.1 e.2 hk
    have hslot := (h.slot fd e.2).mpr ⟨hfd, by simp [hst]⟩
    rw [hfree] at hslot
    cases hslot

/-- The mask of a channel changes, or what nobody looks at here. -/
theorem Tracked.setChannel (h : Tracked p) {ch : Channel} (hfd : ch.fd = (p.chans c).fd)
    (hst : ch.status = (p.chans c).status)
    (hev : ch.status = .kAdded → ch.events ≠ Channel.kNoneEvent) : Tracked (p.setChannel c ch) := by
  have hself : (p.setChannel c ch).chans c = ch := Function.update_self _ _ _
  have hother : ∀ c', c' ≠ c → (p.setChannel c ch).chans c' = p.chans c' :=
    fun c' hc => Function.update_of_ne hc _ _
  have hsame : ∀ c', ((p.setChannel c ch).chans c').fd = (p.chans c').fd ∧
      ((p.setChannel c ch).chans c').status = (p.chans c').status := by
    intro c'
    by_cases hc : c' = c
    · subst hc
      rw [hself]
      exact ⟨hfd, hst⟩
    · rw [hother c' hc]
      exact ⟨rfl, rfl⟩
  refine ⟨fun fd c' => ?_, fun fd m c' hk => ?_, fun c' hadd => ?_, h.range, h.count⟩
  · rw [(hsame c').1, (hsame c').2]
    exact h.slot fd c'
  · rw [(hsame c').1, (hsame c').2]
    exact h.interest fd m c' hk
  · rw [(hsame c').2] at hadd
    rw [(hsame c').1]
    refine ⟨(h.added c' hadd).1, ?_⟩
    by_cases hc : c' = c
    · subst hc
      rw [hself]
      exact hev (hst.trans hadd)
    · rw [hother c' hc]
      exact (h.added c' hadd).2

theorem Tracked.setEvents (h : Tracked p) {ev : EventMask}
    (hev : (p.chans c).status = .kAdded → ev ≠ Channel.kNoneEvent) : Tracked (p.setEvents c ev) :=
  h.setChannel rfl rfl hev

/-- Replace the state of one channel, and its slot and its kernel entry with it. -/
theorem Tracked.replace (h : Tracked p) (ch : Channel) (hx : p.Exclusive c)
    (hfd : ch.fd = (p.chans c).fd)
    (hev : ch.status = .kAdded → ch.events ≠ Channel.kNoneEvent)
    (hchans : q.chans = Function.update p.chans c ch)
    (hslots : q.channels =
      Function.update p.channels ch.fd (if ch.status = .kNew then none else some c))
    (hkernel : q.kernel =
      Function.update p.kernel ch.fd (if ch.status = .kAdded then some (ch.events, c) else none))
    (hsize : q.size = p.size) (hlt : ch.fd < p.size)
    (hcount : q.channelNums = occupied q.channels q.size) : Tracked q := by
  have hself : q.chans c = ch := by rw [hchans, Function.update_self]
  have hother : ∀ c', c' ≠ c → q.chans c' = p.chans c' := fun c' hc => by
    rw [hchans, Function.update_of_ne hc]
  refine ⟨slot_replace h.slot ch hx hfd hchans hslots, fun fd m c' hm => ?_, fun c' hst => ?_,
    fun fd => ?_, hcount⟩
  · rw [hkernel] at hm
    by_cases hf : fd = ch.fd
    · rw [hf, Function.update_self] at hm
      split at hm
      · rename_i hst
        cases hm
        rw [hself]
        exact ⟨hf.symm, hst⟩
      · cases hm
    · rw [Function.update_of_ne hf] at hm
      obtain ⟨he, hst⟩ := h.interest fd m c' hm
      have hc : c' ≠ c := by
        rintro rfl
        exact hf (he.symm.trans hfd.symm)
      rw [hother c' hc]
      exact ⟨he, hst⟩
  · by_cases hc : c' = c
    · rw [hc, hself] at hst ⊢
      rw [hkernel, Function.update_self, if_pos hst]
      exact ⟨rfl, hev hst⟩
    · rw [hother c' hc] at hst ⊢
      obtain ⟨hin, hmask⟩ := h.added c' hst
      have hf : (p.chans c').fd ≠ ch.fd := fun he => by
        rw [hx c' hc (he.trans hfd)] at hst
        cases hst
      rw [hkernel, Function.update_of_ne hf]
      exact ⟨hin, hmask⟩
  · rw [hslots, hsize]
    by_cases hf : fd = ch.fd
    · exact fun _ => hf ▸ hlt
    · rw [Function.update_of_ne hf]
      exact h.range fd

/-! ## The operations -/

theorem Tracked.exclusive (h : Tracked p) (hold : (p.chans c).status ≠ .kNew) : p.Exclusive c := by
  intro c' hc hfd
  by_contra hst
  exact hc (h.unique hold hst hfd)

theorem Tracked.exclusive_of_free (h : Tracked p) (hfree : p.channels (p.chans c).fd = none) :
    p.Exclusive c := by
  intro c' hc hfd
  by_contra hst
  have hin := (h.slot _ _).mpr ⟨hfd, hst⟩
  rw [hfree] at hin
  cases hin

/-- `AddChannelListItem` behind a request that succeeded, or none. -/
theorem Tracked.add (h : Tracked p) (ch : Channel) (hfree : p.channels (p.chans c).fd = none)
    (hlt : (p.chans c).fd < p.size) (hfd : ch.fd = (p.chans c).fd)
    (hst : ch.status ≠ .kNew) (hev : ch.status = .kAdded → ch.events ≠ Channel.kNoneEvent)
    (hq : Requested p q c ch) : Tracked (q.addChannelListItem c) := by
  have hqfd : (q.chans c).fd = ch.fd := by rw [hq.chans, Function.update_self]
  obtain ⟨l, hl⟩ := dumpChannels_asserts { q with
    channels := Function.update q.channels (q.chans c).fd (some c)
    channelNums := q.channelNums + 1
    curMaxFd := if q.curMaxFd < (q.chans c).fd then (q.chans c).fd else q.curMaxFd }
  unfold addChannelListItem
  dsimp only
  rw [hl]
  refine h.replace ch (h.exclusive_of_free hfree) hfd hev hq.chans ?_ hq.kernel hq.size
    (hfd ▸ hlt) ?_
  · rw [if_neg hst, hqfd, hq.channels]
  · dsimp only
    rw [hqfd, hfd, hq.channels, hq.size, hq.nums, occupied_store c hlt hfree, h.count]

/-- The slot stays. -/
theorem Tracked.keep (h : Tracked p) (ch : Channel) (hold : (p.chans c).status ≠ .kNew)
    (hfd : ch.fd = (p.chans c).fd) (hst : ch.status ≠ .kNew)
    (hev : ch.status = .kAdded → ch.events ≠ Channel.kNoneEvent) (hq : Requested p q c ch) :
    Tracked q := by
  have hmine : p.channels (p.chans c).fd = some c := (h.slot _ _).mpr ⟨rfl, hold⟩
  have hlt : (p.chans c).fd < p.size := h.range _ (by rw [hmine]; rfl)
  refine h.replace ch (h.exclusive hold) hfd hev hq.chans ?_ hq.kernel hq.size (hfd ▸ hlt) ?_
  · rw [if_neg hst, hq.channels, hfd]
    exact (Function.update_eq_self_iff.mpr hmine.symm).symm
  · rw [hq.channels, hq.size, hq.nums, h.count]

/-- `DelChannelListItem` behind a request that succeeded, or none. -/
theorem Tracked.del (h : Tracked p) (hold : (p.chans c).status ≠ .kNew)
    (hq : Requested p q c (removed (p.chans c))) : Tracked (q.delChannelListItem c) := by
  have hmine : p.channels (p.chans c).fd = some c := (h.slot _ _).mpr ⟨rfl, hold⟩
  have hsome : (p.channels (p.chans c).fd).isSome := by rw [hmine]; rfl
  have hlt : (p.chans c).fd < p.size := h.range _ hsome
  have hqfd : (q.chans c).fd = (p.chans c).fd := by
    rw [hq.chans, Function.update_self]
    rfl
  obtain ⟨l, hl⟩ := dumpChannels_asserts { q with
    channels := Function.update q.channels (q.chans c).fd none
    channelNums := q.channelNums - 1
    curMaxFd := if q.curMaxFd = (q.chans c).fd then
      scanDown (Function.update q.channels (q.chans c).fd none) ((q.chans c).fd - 1)
      else q.curMaxFd }
  unfold delChannelListItem
  dsimp only
  rw [hl]
  refine h.replace (removed (p.chans c)) (h.exclusive hold) rfl (by simp [removed]) hq.chans ?_
    hq.kernel hq.size hlt ?_
  · simp only [removed, ↓reduceIte, hqfd, hq.channels]
  · have hclear := occupied_clear hlt hsome
    dsimp only
    rw [hq.channels, hqfd, hq.size, hq.nums, h.count]
    exact Nat.sub_eq_of_eq_add hclear.symm

/-- `Update` asks the kernel and changes nothing else. -/
theorem update_cases (p : Epoller) (op : CtlOp) (c : ChanId) (ok : Bool) :
    (∃ k, epollCtl p.kernel op (p.chans c).fd ((p.chans c).events, c) ok = some k ∧
      p.update op c ok = (true, { p with kernel := k })) ∨
    p.update op c ok = (false, p.check .epollCtl false) := by
  unfold update
  cases hk : epollCtl p.kernel op (p.chans c).fd ((p.chans c).events, c) ok with
  | none => exact .inr rfl
  | some k => exact .inl ⟨k, rfl, rfl⟩

theorem epollCtl_some {kernel k : Nat → Option (EventMask × ChanId)} {op : CtlOp} {fd : Nat}
    {event : EventMask × ChanId} {ok : Bool} (h : epollCtl kernel op fd event ok = some k) :
    k = Function.update kernel fd (if op = .del then none else some event) := by
  unfold epollCtl at h
  cases op with
  | add | mod | del =>
    dsimp only at h
    split at h
    · exact (Option.some.inj h).symm
    · cases h

/-! ### `UpdateChannel`, by the status of the channel -/

theorem isNoneEvent_setEvents (p : Epoller) (c : ChanId) (ev : EventMask) :
    ((p.setEvents c ev).chans c).isNoneEvent = decide (ev = Channel.kNoneEvent) := by
  rw [setEvents_chans]
  rfl

theorem Tracked.updateChannel_new (h : Tracked p) (ev : EventMask)
    (hlt : (p.chans c).fd < p.size) (ok : Bool) (hst : (p.chans c).status = .kNew) :
    Tracked ((p.setEvents c ev).updateChannel c ok) := by
  have hch := setEvents_chans p c ev
  have hnone := isNoneEvent_setEvents p c ev
  have hq : Tracked (p.setEvents c ev) := h.setEvents (fun hadd => by simp [hst] at hadd)
  have hst' : ((p.setEvents c ev).chans c).status = .kNew := by rw [hch]; exact hst
  unfold Epoller.updateChannel
  simp only [hst']
  split
  · exact hq.check _ _
  · rename_i hfree
    have hfree' : (p.setEvents c ev).channels ((p.setEvents c ev).chans c).fd = none := by
      simpa using hfree
    have hlt' : ((p.setEvents c ev).chans c).fd < (p.setEvents c ev).size := by
      rw [hch]
      exact hlt
    by_cases he : ev = Channel.kNoneEvent
    · rw [if_neg (by rw [hnone, he]; decide)]
      refine hq.add { p.chans c with events := ev, status := .kDel } hfree' hlt'
        (by rw [hch]) (by simp) (by simp) ⟨?_, ?_, rfl, rfl, rfl, rfl, rfl⟩
      · simp [setStatus, Epoller.setChannel, hch]
      · have hk := hq.kernel_free hfree'
        rw [hch] at hk
        exact (Function.update_eq_self_iff.mpr hk.symm).symm
    · rw [if_pos (by rw [hnone]; simpa using he)]
      rcases update_cases (p.setEvents c ev) .add c ok with ⟨k, hk, heq⟩ | heq
      · rw [heq]
        refine hq.add { p.chans c with events := ev, status := .kAdded } hfree' hlt'
          (by rw [hch]) (by simp) (fun _ => he) ⟨?_, ?_, rfl, rfl, rfl, rfl, rfl⟩
        · simp [setStatus, Epoller.setChannel, hch]
        · rw [hch] at hk
          exact epollCtl_some hk
      · rw [heq]
        exact hq.check .epollCtl false

theorem Tracked.updateChannel_del (h : Tracked p) (ev : EventMask) (ok : Bool)
    (hst : (p.chans c).status = .kDel) : Tracked ((p.setEvents c ev).updateChannel c ok) := by
  have hch := setEvents_chans p c ev
  have hnone := isNoneEvent_setEvents p c ev
  have hq : Tracked (p.setEvents c ev) := h.setEvents (fun hadd => by simp [hst] at hadd)
  have hst' : ((p.setEvents c ev).chans c).status = .kDel := by rw [hch]; exact hst
  unfold Epoller.updateChannel
  simp only [hst']
  split
  · exact hq.check _ _
  · by_cases he : ev = Channel.kNoneEvent
    · rw [if_neg (by rw [hnone, he]; decide)]
      exact hq
    · rw [if_pos (by rw [hnone]; simpa using he)]
      rcases update_cases (p.setEvents c ev) .add c ok with ⟨k, hk, heq⟩ | heq
      · rw [heq]
        refine hq.keep { p.chans c with events := ev, status := .kAdded }
          (by rw [hst']; decide) (by rw [hch]) (by simp) (fun _ => he)
          ⟨?_, ?_, rfl, rfl, rfl, rfl, rfl⟩
        · simp [setStatus, Epoller.setChannel, hch]
        · rw [hch] at hk
          exact epollCtl_some hk
      · rw [heq]
        exact hq.check .epollCtl false

theorem Tracked.updateChannel_added (h : Tracked p) (ev : EventMask) (ok : Bool)
    (hst : (p.chans c).status = .kAdded) : Tracked ((p.setEvents c ev).updateChannel c ok) := by
  have hch := setEvents_chans p c ev
  have hnone := isNoneEvent_setEvents p c ev
  have hst' : ((p.setEvents c ev).chans c).status = .kAdded := by rw [hch]; exact hst
  have hold : (p.chans c).status ≠ .kNew := by simp [hst]
  have hmine : (p.setEvents c ev).channels ((p.setEvents c ev).chans c).fd = some c := by
    rw [hch]
    exact (h.slot _ _).mpr ⟨rfl, hold⟩
  unfold Epoller.updateChannel
  simp only [hst']
  rw [if_neg (not_not.mpr hmine)]
  by_cases he : ev = Channel.kNoneEvent
  · -- the kernel has the descriptor, so that it can be taken out
    have hkern : ((p.setEvents c ev).kernel ((p.setEvents c ev).chans c).fd).isSome := by
      rw [hch]
      exact (h.added c hst).1
    rw [if_neg (by rw [hnone, he]; decide), update_del hkern]
    refine h.keep { p.chans c with events := ev, status := .kDel } hold rfl
      (by simp) (by simp) ⟨?_, ?_, rfl, rfl, rfl, rfl, rfl⟩
    · simp [setStatus, Epoller.setEvents, Epoller.setChannel]
    · rw [hch]
      rfl
  · have hq : Tracked (p.setEvents c ev) := h.setEvents (fun _ => he)
    rw [if_pos (by rw [hnone]; simpa using he)]
    rcases update_cases (p.setEvents c ev) .mod c ok with ⟨k, hk, heq⟩ | heq
    · rw [heq]
      refine hq.keep { p.chans c with events := ev } (by rw [hst']; decide) (by rw [hch])
        hold (fun _ => he) ⟨?_, ?_, rfl, rfl, rfl, rfl, rfl⟩
      · rw [← hch]
        exact (Function.update_eq_self c _).symm
      · rw [hch] at hk
        rw [if_pos (by exact hst)]
        exact epollCtl_some hk
    · rw [heq]
      exact hq.check .epollCtl false

theorem Tracked.updateChannel (h : Tracked p) (ev : EventMask) (hlt : (p.chans c).fd < p.size)
    (ok : Bool) : Tracked ((p.setEvents c ev).updateChannel c ok) := by
  cases hst : (p.chans c).status with
  | kNew => exact h.updateChannel_new ev hlt ok hst
  | kDel => exact h.updateChannel_del ev ok hst
  | kAdded => exact h.updateChannel_added ev ok hst

/-! ### `RemoveChannel` -/

/-- What the status says is what there is. -/
theorem Tracked.unregistered_iff (h : Tracked p) :
    p.Unregistered c ↔ (p.chans c).status = .kNew := by
  refine ⟨fun hu => hu.status, fun hst => ⟨fun hin => ?_, hst, h.count, fun fd m hk => ?_⟩⟩
  · exact ((h.slot _ _).mp hin).2 hst
  · have hadd := (h.interest fd m c hk).2
    rw [hst] at hadd
    cases hadd

/-- The channel is not in the interest set, and `RemoveChannel` takes it for one that is. -/
def Stuck (p : Epoller) (c : ChanId) : Prop :=
  (p.chans c).status = .kDel ∧ (p.chans c).events ≠ Channel.kNoneEvent

theorem removed_status (hq : Requested p q c (removed (p.chans c))) :
    ((q.delChannelListItem c).chans c).status = .kNew := by
  rw [delChannelListItem_chans, hq.chans, Function.update_self]
  rfl

/-- DEL fails, and the function returns. -/
theorem Tracked.removeChannel_stuck (h : Tracked p) (hs : p.Stuck c) :
    Tracked (p.removeChannel c) ∧ ((p.removeChannel c).chans c).status = .kDel := by
  obtain ⟨hst, he⟩ := hs
  have hold : (p.chans c).status ≠ .kNew := by simp [hst]
  have hmine : p.channels (p.chans c).fd = some c := (h.slot _ _).mpr ⟨rfl, hold⟩
  have hkern : p.kernel (p.chans c).fd = none := by
    have hnot := mt (h.kernel_isSome hold).mp (by simp [hst])
    simpa using hnot
  have hnone : (p.chans c).isNoneEvent = false := decide_eq_false he
  obtain ⟨l, hl⟩ := check_asserts p .removeNotAdded (Status.kDel == .kAdded)
  have hfail : ({ p with asserts := l } : Epoller).update .del c true =
      (false, ({ p with asserts := l } : Epoller).check .epollCtl false) := by
    simp [update, epollCtl, hkern]
  unfold Epoller.removeChannel
  simp only [hst, reduceCtorEq, ↓reduceIte, hnone, Bool.not_false]
  rw [check_pos p _ (by simp [hmine]), hl, hfail]
  refine ⟨(h.asserts l).check .epollCtl false, ?_⟩
  change ((({ p with asserts := l } : Epoller).check .epollCtl false).chans c).status = .kDel
  rw [check_chans]
  exact hst

/-- **`RemoveChannel`** forgets the channel unless the kernel is asked in vain. -/
theorem Tracked.removeChannel (h : Tracked p) (c : ChanId) :
    Tracked (p.removeChannel c) ∧
      (((p.removeChannel c).chans c).status = .kNew ↔ ¬ p.Stuck c) := by
  by_cases hs : p.Stuck c
  · obtain ⟨hq, hdel⟩ := h.removeChannel_stuck hs
    exact ⟨hq, iff_of_false (by simp [hdel]) (not_not.mpr hs)⟩
  rw [iff_true_right hs]
  have hnone : (p.chans c).isNoneEvent = decide ((p.chans c).events = Channel.kNoneEvent) := rfl
  unfold Epoller.removeChannel
  cases hst : (p.chans c).status with
  | kNew =>
    rw [if_pos hst]
    exact ⟨h, hst⟩
  | kAdded =>
    have hold : (p.chans c).status ≠ .kNew := by simp [hst]
    have hmine : p.channels (p.chans c).fd = some c := (h.slot _ _).mpr ⟨rfl, hold⟩
    obtain ⟨hkern, hmask⟩ := h.added c hst
    simp only [hst, reduceCtorEq, ↓reduceIte, hnone, hmask, decide_false, Bool.not_false]
    rw [check_pos p _ (by simp [hmine]), check_pos p _ (by simp), update_del hkern]
    have hq : Requested p (setStatus { p with
        kernel := Function.update p.kernel (p.chans c).fd none } c .kNew) c
        (removed (p.chans c)) := ⟨rfl, rfl, rfl, rfl, rfl, rfl, rfl⟩
    exact ⟨h.del hold hq, removed_status hq⟩
  | kDel =>
    have hold : (p.chans c).status ≠ .kNew := by simp [hst]
    have hmine : p.channels (p.chans c).fd = some c := (h.slot _ _).mpr ⟨rfl, hold⟩
    have he : (p.chans c).events = Channel.kNoneEvent := not_not.mp fun he => hs ⟨hst, he⟩
    have hkern : p.kernel (p.chans c).fd = none := by
      have hnot := mt (h.kernel_isSome hold).mp (by simp [hst])
      simpa using hnot
    simp only [hst, reduceCtorEq, ↓reduceIte, hnone, he, decide_true, Bool.not_true,
      Bool.false_eq_true]
    rw [check_pos p _ (by simp [hmine]), check_pos p _ (by simp)]
    have hq : Requested p (p.setStatus c .kNew) c (removed (p.chans c)) := by
      refine ⟨rfl, ?_, rfl, rfl, rfl, rfl, rfl⟩
      exact (Function.update_eq_self_iff.mpr hkern.symm).symm
    exact ⟨h.del hold hq, removed_status hq⟩

end Tracked

/-! ## Runs -/

/-- One call of a member function of `Channel` whose descriptor indexes the table; ADD and MOD
fail if the last component is `false`. -/
def request (p : Epoller) (i : ChanId × Op × Bool) : Option Epoller :=
  if (p.chans i.1).fd < p.size then some (p.exec i.1 i.2.2 i.2.1) else none

theorem Tracked.exec {p : Epoller} (h : Tracked p) {c : ChanId} (hlt : (p.chans c).fd < p.size)
    (ok : Bool) (op : Op) : Tracked (p.exec c ok op) := by
  cases op with
  | remove => exact (h.removeChannel c).1
  | _ => exact h.updateChannel _ hlt ok

theorem Tracked.request {p q : Epoller} (h : Tracked p) {i : ChanId × Op × Bool}
    (hs : p.request i = some q) : Tracked q := by
  unfold Epoller.request at hs
  split at hs
  · rename_i hlt
    cases hs
    exact h.exec hlt _ _
  · cases hs

/-- **`RemoveChannel` unregisters unless the last ADD for the channel has failed.** After any
operations on any channels, with any of the legal requests for ADD and MOD failing, the channel is
not in the table, not in the interest set and not counted when `RemoveChannel` has returned, if and
only if it was not left with the status `kDel` and a mask. -/
theorem remove_unregisters_iff (size : Nat) (fdOf : ChanId → Nat)
    (ops : List (ChanId × Op × Bool)) (p : Epoller)
    (hr : Machine.run request (Epoller.new size fdOf) ops = some p) (c : ChanId) :
    (p.removeChannel c).Unregistered c ↔
      ¬ ((p.chans c).status = .kDel ∧ (p.chans c).events ≠ Channel.kNoneEvent) := by
  have h : Tracked p := Machine.run_invariant (P := Tracked) (fun hq hs => hq.request hs)
    (tracked_new size fdOf) hr
  obtain ⟨hq, hst⟩ := h.removeChannel c
  exact hq.unregistered_iff.trans hst

/-- A MOD that fails, on a channel that is then removed. -/
theorem remove_unregisters_iff_failed_mod : ∃ p,
    Machine.run request (Epoller.new 8 (· + 1))
      [(3, .enableReading, true), (3, .enableWriting, false)] = some p ∧
    (p.chans 3).events = Channel.kReadEvent ||| Channel.kWriteEvent ∧
    p.kernel 4 = some (Channel.kReadEvent, 3) ∧ (p.removeChannel 3).Unregistered 3 := by
  have hrun : (Machine.run request (Epoller.new 8 (· + 1))
      [(3, .enableReading, true), (3, .enableWriting, false)]).map
      (fun p => ((p.chans 3).events, p.kernel 4, (p.chans 3).status)) =
      some (Channel.kReadEvent ||| Channel.kWriteEvent, some (Channel.kReadEvent, 3), .kAdded) := by
    decide +kernel
  obtain ⟨p, hr, hp⟩ := Option.map_eq_some_iff.mp hrun
  simp only [Prod.mk.injEq] at hp
  obtain ⟨hev, hk, hst⟩ := hp
  refine ⟨p, hr, hev, hk, (remove_unregisters_iff 8 (· + 1) _ p hr 3).mpr ?_⟩
  rw [hst]
  nofun

/-- A channel is registered without a mask, and the ADD for its first mask fails. `RemoveChannel`
asks for a DEL that fails and leaves the channel in the table. -/
theorem removed_channel_stays : ∃ p,
    Machine.run request (Epoller.new 8 (· + 1))
      [(3, .disableAll, true), (3, .enableReading, false)] = some p ∧
    (p.removeChannel 3).channels 4 = some 3 ∧ ((p.removeChannel 3).chans 3).status = .kDel ∧
    (p.removeChannel 3).channelNums = 1 ∧ ¬ (p.removeChannel 3).Unregistered 3 := by
  have hrun : (Machine.run request (Epoller.new 8 (· + 1))
      [(3, .disableAll, true), (3, .enableReading, false)]).map
      (fun p => ((p.removeChannel 3).channels 4, ((p.removeChannel 3).chans 3).status,
        (p.removeChannel 3).channelNums)) = some (some 3, .kDel, 1) := by
    decide +kernel
  obtain ⟨p, hr, hp⟩ := Option.map_eq_some_iff.mp hrun
  simp only [Prod.mk.injEq] at hp
  obtain ⟨hslot, hst, hnum⟩ := hp
  refine ⟨p, hr, hslot, hst, hnum, fun hu => ?_⟩
  have hnew := hu.status
  rw [hst] at hnew
  cases hnew

end Epoller

end LinuxNet
