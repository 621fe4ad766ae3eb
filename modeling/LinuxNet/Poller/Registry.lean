import LinuxNet.Lib.Machine
import LinuxNet.Poller.Model

/-!
# The registry of the poller

Five pieces of state say whether a channel is registered: its status, its event
mask, the slot in `channels_`, the counter with the running maximum, and the
kernel's interest set. `Registry` relates them. Every operation replaces the
state of one channel and brings the other pieces in line with it;
`Registry.replace` is that argument, made once, and the operations only have to
be brought into its form.
-/

namespace LinuxNet

open LinuxNet.Lib LinuxNet.Lib.SlotTable

namespace Epoller

structure Registry (p : Epoller) : Prop where
  slot : ∀ fd c, p.channels fd = some c ↔
    (p.chans c).fd = fd ∧ (p.chans c).status ≠ .kNew
  interest : ∀ fd m c, p.kernel fd = some (m, c) ↔
    (p.chans c).fd = fd ∧ (p.chans c).status = .kAdded ∧ m = (p.chans c).events
  added : ∀ c, (p.chans c).status = .kAdded → (p.chans c).events ≠ Channel.kNoneEvent
  deleted : ∀ c, (p.chans c).status = .kDel → (p.chans c).events = Channel.kNoneEvent
  range : ∀ fd, (p.channels fd).isSome → 0 < fd ∧ fd < p.size
  count : p.channelNums = occupied p.channels p.size
  top : IsTop p.channels p.curMaxFd
  noAssert : p.asserts = []

theorem registry_new (size : Nat) (fdOf : ChanId → Nat) : Registry (Epoller.new size fdOf) where
  slot := by simp [Epoller.new, Channel.new]
  interest := by simp [Epoller.new, Channel.new]
  added := by simp [Epoller.new, Channel.new]
  deleted := by simp [Epoller.new, Channel.new]
  range := by simp [Epoller.new]
  count := (occupied_empty size).symm
  top := isTop_empty
  noAssert := rfl

theorem check_pos (p : Epoller) (site : Assert) {ok : Bool} (h : ok = true) :
    p.check site ok = p := by
  simp [check, h]

/-- No registered channel other than `c` uses the descriptor of `c`. -/
def Exclusive (p : Epoller) (c : ChanId) : Prop :=
  ∀ c', c' ≠ c → (p.chans c').fd = (p.chans c).fd → (p.chans c').status = .kNew

theorem Registry.slot_cases {p : Epoller} (h : Registry p) {c : ChanId} (hx : p.Exclusive c) :
    p.channels (p.chans c).fd = if (p.chans c).status = .kNew then none else some c := by
  split
  · rename_i hnew
    cases hs : p.channels (p.chans c).fd with
    | none => rfl
    | some c' =>
      obtain ⟨hfd, hst⟩ := (h.slot _ _).mp hs
      by_cases hc : c' = c
      · exact absurd hnew (hc ▸ hst)
      · exact absurd (hx c' hc hfd) hst
  · rename_i hold
    exact (h.slot _ _).mpr ⟨rfl, hold⟩

theorem Registry.kernel_cases {p : Epoller} (h : Registry p) {c : ChanId} (hx : p.Exclusive c) :
    p.kernel (p.chans c).fd =
      if (p.chans c).status = .kAdded then some ((p.chans c).events, c) else none := by
  split
  · rename_i hadd
    exact (h.interest _ _ _).mpr ⟨rfl, hadd, rfl⟩
  · rename_i hnot
    cases hk : p.kernel (p.chans c).fd with
    | none => rfl
    | some e =>
      obtain ⟨m, c'⟩ := e
      obtain ⟨hfd, hst, _⟩ := (h.interest _ _ _).mp hk
      by_cases hc : c' = c
      · exact absurd (hc ▸ hst) hnot
      · exact absurd (hst.symm.trans (hx c' hc hfd)) (by decide)

/-- A registered channel is the only one on its descriptor. -/
theorem Registry.exclusive {p : Epoller} (h : Registry p) {c : ChanId}
    (hold : (p.chans c).status ≠ .kNew) : p.Exclusive c := by
  intro c' hc hfd
  by_contra hst
  have h1 := (h.slot _ _).mpr ⟨hfd, hst⟩
  have h2 := (h.slot _ _).mpr ⟨rfl, hold⟩
  rw [h1] at h2
  exact hc (Option.some.inj h2)

/-- Replace the state of one channel and make its slot agree with the new state. -/
theorem slot_replace {p p' : Epoller} (h : ∀ fd c, p.channels fd = some c ↔
      (p.chans c).fd = fd ∧ (p.chans c).status ≠ .kNew) {c : ChanId} (ch : Channel)
    (hx : p.Exclusive c) (hfd : ch.fd = (p.chans c).fd)
    (hchans : p'.chans = Function.update p.chans c ch)
    (hslots : p'.channels =
      Function.update p.channels ch.fd (if ch.status = .kNew then none else some c))
    (fd : Nat) (c' : ChanId) :
    p'.channels fd = some c' ↔ (p'.chans c').fd = fd ∧ (p'.chans c').status ≠ .kNew := by
  have hself : p'.chans c = ch := by simp [hchans]
  have hother : ∀ c', c' ≠ c → p'.chans c' = p.chans c' := fun c' hc => by simp [hchans, hc]
  rw [hslots]
  by_cases hf : fd = ch.fd
  · subst hf
    rw [Function.update_self]
    by_cases hc : c' = c
    · subst hc
      rw [hself]
      by_cases hst : ch.status = .kNew <;> simp [hst]
    · rw [hother c' hc, hfd]
      constructor
      · intro he
        split at he
        · cases he
        · exact absurd (Option.some.inj he).symm hc
      · rintro ⟨he, hst⟩
        exact absurd (hx c' hc he) hst
  · rw [Function.update_of_ne hf, h]
    by_cases hc : c' = c
    · subst hc
      rw [hself, hfd]
      constructor <;> rintro ⟨he, _⟩ <;> exact absurd (he.symm.trans hfd.symm) hf
    · rw [hother c' hc]

/-- Replace the state of one channel and make its slot and its kernel entry
agree with the new state. -/
theorem Registry.replace {p p' : Epoller} (h : Registry p) {c : ChanId} (ch : Channel)
    (hx : p.Exclusive c) (hfd : ch.fd = (p.chans c).fd)
    (hchans : p'.chans = Function.update p.chans c ch)
    (hslots : p'.channels =
      Function.update p.channels ch.fd (if ch.status = .kNew then none else some c))
    (hkernel : p'.kernel =
      Function.update p.kernel ch.fd (if ch.status = .kAdded then some (ch.events, c) else none))
    (hadded : ch.status = .kAdded → ch.events ≠ Channel.kNoneEvent)
    (hdeleted : ch.status = .kDel → ch.events = Channel.kNoneEvent)
    (hsize : p'.size = p.size) (hpos : 0 < ch.fd) (hlt : ch.fd < p.size)
    (hcount : p'.channelNums = occupied p'.channels p'.size)
    (htop : IsTop p'.channels p'.curMaxFd) (hno : p'.asserts = []) : Registry p' := by
  have hself : p'.chans c = ch := by simp [hchans]
  have hother : ∀ c', c' ≠ c → p'.chans c' = p.chans c' := fun c' hc => by simp [hchans, hc]
  refine ⟨slot_replace h.slot ch hx hfd hchans hslots, ?_, ?_, ?_, ?_, hcount, htop, hno⟩
  · intro fd m c'
    rw [hkernel]
    by_cases hf : fd = ch.fd
    · subst hf
      rw [Function.update_self]
      by_cases hc : c' = c
      · subst hc
        rw [hself]
        by_cases hst : ch.status = .kAdded
        · simp [hst, eq_comm]
        · simp [hst]
      · rw [hother c' hc, hfd]
        constructor
        · intro he
          split at he
          · exact absurd (Prod.mk.inj (Option.some.inj he)).2.symm hc
          · cases he
        · rintro ⟨he, hst, _⟩
          exact absurd (hst.symm.trans (hx c' hc he)) (by decide)
    · rw [Function.update_of_ne hf, h.interest]
      by_cases hc : c' = c
      · subst hc
        rw [hself, hfd]
        constructor <;> rintro ⟨he, _⟩ <;> exact absurd (he.symm.trans hfd.symm) hf
      · rw [hother c' hc]
  · intro c'
    by_cases hc : c' = c
    · subst hc
      rw [hself]
      exact hadded
    · rw [hother c' hc]
      exact h.added c'
  · intro c'
    by_cases hc : c' = c
    · subst hc
      rw [hself]
      exact hdeleted
    · rw [hother c' hc]
      exact h.deleted c'
  · intro fd
    rw [hslots, hsize]
    by_cases hf : fd = ch.fd
    · subst hf
      exact fun _ => ⟨hpos, hlt⟩
    · rw [Function.update_of_ne hf]
      exact h.range fd

/-- The other fields of a channel object are of no concern to the registry. -/
theorem Registry.setChannel {p : Epoller} (h : Registry p) {c : ChanId} {ch : Channel}
    (hfd : ch.fd = (p.chans c).fd) (hst : ch.status = (p.chans c).status)
    (hev : ch.events = (p.chans c).events) : Registry (p.setChannel c ch) := by
  have hsame : ∀ c', ((p.setChannel c ch).chans c').fd = (p.chans c').fd ∧
      ((p.setChannel c ch).chans c').status = (p.chans c').status ∧
      ((p.setChannel c ch).chans c').events = (p.chans c').events := by
    intro c'
    by_cases hc : c' = c
    · subst hc
      simp [Epoller.setChannel, hfd, hst, hev]
    · simp [Epoller.setChannel, hc]
  refine ⟨fun fd c' => ?_, fun fd m c' => ?_, fun c' => ?_, fun c' => ?_, h.range, h.count, h.top,
    h.noAssert⟩
  · rw [(hsame c').1, (hsame c').2.1]
    exact h.slot fd c'
  · rw [(hsame c').1, (hsame c').2.1, (hsame c').2.2]
    exact h.interest fd m c'
  · rw [(hsame c').2.1, (hsame c').2.2]
    exact h.added c'
  · rw [(hsame c').2.1, (hsame c').2.2]
    exact h.deleted c'

/-- A `Channel` object that is not registered can be replaced by a new one. -/
theorem Registry.newChannel {p : Epoller} (h : Registry p) {c : ChanId} {ch : Channel}
    (hold : (p.chans c).status = .kNew) (hnew : ch.status = .kNew) :
    Registry (p.setChannel c ch) := by
  have hself : (p.setChannel c ch).chans c = ch := Function.update_self _ _ _
  have hother : ∀ c', c' ≠ c → (p.setChannel c ch).chans c' = p.chans c' :=
    fun c' hc => Function.update_of_ne hc _ _
  refine ⟨fun fd c' => ?_, fun fd m c' => ?_, fun c' => ?_, fun c' => ?_, h.range, h.count, h.top,
    h.noAssert⟩ <;> by_cases hc : c' = c
  · subst hc
    rw [hself]
    change p.channels fd = some c' ↔ _
    simpa [hnew, hold] using h.slot fd c'
  · rw [hother c' hc]
    exact h.slot fd c'
  · subst hc
    rw [hself]
    change p.kernel fd = some (m, c') ↔ _
    simpa [hnew, hold] using h.interest fd m c'
  · rw [hother c' hc]
    exact h.interest fd m c'
  · simp [hc, hself, hnew]
  · rw [hother c' hc]
    exact h.added c'
  · simp [hc, hself, hnew]
  · rw [hother c' hc]
    exact h.deleted c'

/-- On a registry in order `DumpChannels` finds nothing to complain about. -/
theorem Registry.dump {p : Epoller} (h : Registry p) (hs : 0 < p.size) : p.dumpChannels = p := by
  have hmax : p.curMaxFd < p.size := by
    by_cases h0 : p.curMaxFd = 0
    · omega
    · exact (h.range _ (h.top.used h0)).2
  have hidx : (List.range (p.curMaxFd + 1)).all p.slotMatches = true := by
    rw [List.all_eq_true]
    intro i _
    unfold slotMatches
    cases hc : p.channels i with
    | none => rfl
    | some c => simpa using ((h.slot i c).mp hc).1
  have hcnt : ((List.range (p.curMaxFd + 1)).countP fun i => (p.channels i).isSome) =
      p.channelNums := by
    rw [countP_range_eq_occupied, h.count]
    exact (occupied_of_empty_above hmax fun i hi => h.top.above i hi).symm
  unfold dumpChannels
  dsimp only
  rw [check_pos p _ (by simpa using hmax), check_pos p _ hidx, check_pos p _ (by simpa using hcnt)]

/-! ## Legal requests succeed -/

theorem update_add {p : Epoller} {c : ChanId} (hk : p.kernel (p.chans c).fd = none) :
    p.update .add c true = (true, { p with
      kernel := Function.update p.kernel (p.chans c).fd (some ((p.chans c).events, c)) }) := by
  simp [update, epollCtl, hk]

theorem update_mod {p : Epoller} {c : ChanId} (hk : (p.kernel (p.chans c).fd).isSome) :
    p.update .mod c true = (true, { p with
      kernel := Function.update p.kernel (p.chans c).fd (some ((p.chans c).events, c)) }) := by
  simp [update, epollCtl, hk]

theorem update_del {p : Epoller} {c : ChanId} {ok : Bool}
    (hk : (p.kernel (p.chans c).fd).isSome) :
    p.update .del c ok =
      (true, { p with kernel := Function.update p.kernel (p.chans c).fd none }) := by
  simp [update, epollCtl, hk]

/-! ## The operations -/

/-- A channel after `UpdateEvent` with the mask `ev`, whatever its status was. -/
def listening (ch : Channel) (ev : EventMask) : Channel :=
  { ch with events := ev, status := if ev = Channel.kNoneEvent then .kDel else .kAdded }

/-- A channel after `RemoveChannel`. -/
def removed (ch : Channel) : Channel := { ch with status := .kNew }

theorem listening_added {ch : Channel} {ev : EventMask} (h : ev ≠ Channel.kNoneEvent) :
    listening ch ev = { ch with events := ev, status := .kAdded } := by
  simp [listening, h]

theorem listening_none (ch : Channel) :
    listening ch Channel.kNoneEvent = { ch with events := Channel.kNoneEvent, status := .kDel } := by
  simp [listening]

theorem listening_ne_new (ch : Channel) (ev : EventMask) : (listening ch ev).status ≠ .kNew := by
  by_cases he : ev = Channel.kNoneEvent <;> simp [listening, he]

theorem listening_mask (ch : Channel) (ev : EventMask) :
    ((listening ch ev).status = .kAdded → (listening ch ev).events ≠ Channel.kNoneEvent) ∧
      ((listening ch ev).status = .kDel → (listening ch ev).events = Channel.kNoneEvent) := by
  by_cases he : ev = Channel.kNoneEvent
  · simp [listening, he]
  · simp [listening_added he, he]

/-- The outcome of an operation on `c`: the registry is in order again, and only
`c` has changed, to `ch`. -/
structure Outcome (p p' : Epoller) (c : ChanId) (ch : Channel) : Prop where
  registry : Registry p'
  chans : p'.chans = Function.update p.chans c ch
  size : p'.size = p.size

section Operations

variable {p : Epoller} {c : ChanId}

/-- `q` is `p` but for the channel object and the kernel entry of `c`. -/
structure Requested (p q : Epoller) (c : ChanId) (ch : Channel) : Prop where
  chans : q.chans = Function.update p.chans c ch
  kernel : q.kernel = Function.update p.kernel ch.fd
    (if ch.status = .kAdded then some (ch.events, c) else none)
  channels : q.channels = p.channels
  size : q.size = p.size
  nums : q.channelNums = p.channelNums
  maxFd : q.curMaxFd = p.curMaxFd
  asserts : q.asserts = p.asserts

theorem add_spec (h : Registry p) (hx : p.Exclusive c) (hpos : 0 < (p.chans c).fd)
    (hlt : (p.chans c).fd < p.size) (hnew : (p.chans c).status = .kNew) {q : Epoller}
    {ev : EventMask} (hq : Requested p q c (listening (p.chans c) ev)) :
    Outcome p (q.addChannelListItem c) c (listening (p.chans c) ev) := by
  have hfree : p.channels (p.chans c).fd = none := by
    rw [h.slot_cases hx, hnew]
    rfl
  have hfd : (q.chans c).fd = (p.chans c).fd := by simp [hq.chans, listening]
  have hst := listening_ne_new (p.chans c) ev
  have hmask := listening_mask (p.chans c) ev
  have hreg : Registry { q with
      channels := Function.update q.channels (q.chans c).fd (some c)
      channelNums := q.channelNums + 1
      curMaxFd := if q.curMaxFd < (q.chans c).fd then (q.chans c).fd else q.curMaxFd } := by
    refine h.replace (listening (p.chans c) ev) hx rfl hq.chans ?_ hq.kernel hmask.1 hmask.2
      hq.size hpos hlt ?_ ?_ (hq.asserts.trans h.noAssert)
    · simp only [hst, ↓reduceIte, hq.channels, hfd]
      rfl
    · rw [hq.channels, hfd, hq.size, hq.nums, occupied_store c hlt hfree, h.count]
    · rw [hq.channels, hfd, hq.maxFd]
      exact h.top.store _ _
  have hsize : 0 < q.size := by
    rw [hq.size]
    omega
  unfold addChannelListItem
  dsimp only
  rw [hreg.dump hsize]
  exact ⟨hreg, hq.chans, hq.size⟩

/-- A registered channel keeps its slot when its mask changes. -/
theorem keep_spec (h : Registry p) (hold : (p.chans c).status ≠ .kNew) {q : Epoller}
    {ev : EventMask} (hq : Requested p q c (listening (p.chans c) ev)) :
    Outcome p q c (listening (p.chans c) ev) := by
  have hx := h.exclusive hold
  have hmine : p.channels (p.chans c).fd = some c := (h.slot _ _).mpr ⟨rfl, hold⟩
  obtain ⟨hpos, hlt⟩ := h.range (p.chans c).fd (by simp [hmine])
  have hst := listening_ne_new (p.chans c) ev
  have hmask := listening_mask (p.chans c) ev
  refine ⟨?_, hq.chans, hq.size⟩
  refine h.replace (listening (p.chans c) ev) hx rfl hq.chans ?_ hq.kernel hmask.1 hmask.2
    hq.size hpos hlt ?_ ?_ (hq.asserts.trans h.noAssert)
  · simp only [hst, ↓reduceIte]
    rw [hq.channels]
    exact (Function.update_eq_self_iff.mpr hmine.symm).symm
  · rw [hq.channels, hq.size, hq.nums, h.count]
  · rw [hq.channels, hq.maxFd]
    exact h.top

theorem setEvents_chans (p : Epoller) (c : ChanId) (ev : EventMask) :
    (p.setEvents c ev).chans c = { p.chans c with events := ev } := by
  simp [setEvents, setChannel]

/-- **`UpdateChannel`.** Told of the mask `ev`, the poller ends with the channel
listening for exactly `ev`, whichever of the three statuses it had. -/
theorem updateChannel_spec (h : Registry p) (hx : p.Exclusive c) (hpos : 0 < (p.chans c).fd)
    (hlt : (p.chans c).fd < p.size) (ev : EventMask) :
    Outcome p ((p.setEvents c ev).updateChannel c true) c (listening (p.chans c) ev) := by
  have hch := setEvents_chans p c ev
  have hslot : (p.setEvents c ev).channels (p.chans c).fd =
    if (p.chans c).status = .kNew then none else some c := h.slot_cases hx
  have hkern : (p.setEvents c ev).kernel ((p.setEvents c ev).chans c).fd =
      if (p.chans c).status = .kAdded then some ((p.chans c).events, c) else none := by
    rw [hch]
    exact h.kernel_cases hx
  unfold updateChannel
  simp only [hch]
  cases hst : (p.chans c).status with
  | kNew =>
    simp only [hst, ↓reduceIte, reduceCtorEq] at hslot hkern
    by_cases he : ev = Channel.kNoneEvent
    · subst he
      simp only [hslot, Channel.isNoneEvent, Option.isSome_none, Bool.false_eq_true, ↓reduceIte,
        beq_self_eq_true, Bool.not_true]
      refine add_spec h hx hpos hlt hst ?_
      rw [listening_none]
      refine ⟨?_, ?_, rfl, rfl, rfl, rfl, rfl⟩
      · simp [setStatus, setEvents, setChannel]
      · simp only [reduceCtorEq, ↓reduceIte]
        exact (Function.update_eq_self_iff.mpr (by rw [hch] at hkern; exact hkern.symm)).symm
    · simp only [hslot, Channel.isNoneEvent, Option.isSome_none, Bool.false_eq_true, ↓reduceIte,
        beq_eq_false_iff_ne.mpr he, Bool.not_false, update_add hkern, Bool.not_true]
      refine add_spec h hx hpos hlt hst ?_
      rw [listening_added he]
      refine ⟨?_, ?_, rfl, rfl, rfl, rfl, rfl⟩
      · simp [setStatus, setEvents, setChannel]
      · simp [setStatus, setEvents, setChannel]
  | kAdded =>
    simp only [hst, ↓reduceIte, reduceCtorEq] at hslot hkern
    have hsome : ((p.setEvents c ev).kernel ((p.setEvents c ev).chans c).fd).isSome := by
      simp [hkern]
    by_cases he : ev = Channel.kNoneEvent
    · subst he
      simp only [hslot, Channel.isNoneEvent, ne_eq, not_true_eq_false, ↓reduceIte,
        beq_self_eq_true, Bool.not_true, Bool.false_eq_true, update_del hsome]
      refine keep_spec h (by simp [hst]) ?_
      rw [listening_none]
      refine ⟨?_, ?_, rfl, rfl, rfl, rfl, rfl⟩
      · simp [setStatus, setEvents, setChannel]
      · simp [setStatus, setEvents, setChannel]
    · simp only [hslot, Channel.isNoneEvent, ne_eq, not_true_eq_false, ↓reduceIte,
        beq_eq_false_iff_ne.mpr he, Bool.not_false, update_mod hsome]
      refine keep_spec h (by simp [hst]) ?_
      rw [listening_added he]
      refine ⟨?_, ?_, rfl, rfl, rfl, rfl, rfl⟩
      · simp [setEvents, setChannel, hst]
      · simp [setEvents, setChannel]
  | kDel =>
    simp only [hst, ↓reduceIte, reduceCtorEq] at hslot hkern
    by_cases he : ev = Channel.kNoneEvent
    · subst he
      simp only [hslot, Channel.isNoneEvent, ne_eq, not_true_eq_false, ↓reduceIte,
        beq_self_eq_true, Bool.not_true, Bool.false_eq_true]
      refine keep_spec h (by simp [hst]) ?_
      rw [listening_none]
      refine ⟨?_, ?_, rfl, rfl, rfl, rfl, rfl⟩
      · simp [setEvents, setChannel, hst]
      · simp only [reduceCtorEq, ↓reduceIte]
        exact (Function.update_eq_self_iff.mpr (by rw [hch] at hkern; exact hkern.symm)).symm
    · simp only [hslot, Channel.isNoneEvent, ne_eq, not_true_eq_false, ↓reduceIte,
        beq_eq_false_iff_ne.mpr he, Bool.not_false, update_add hkern, Bool.not_true,
        Bool.false_eq_true]
      refine keep_spec h (by simp [hst]) ?_
      rw [listening_added he]
      refine ⟨?_, ?_, rfl, rfl, rfl, rfl, rfl⟩
      · simp [setStatus, setEvents, setChannel]
      · simp [setStatus, setEvents, setChannel]

theorem del_spec (h : Registry p) (hold : (p.chans c).status ≠ .kNew) {q : Epoller}
    (hq : Requested p q c (removed (p.chans c))) :
    Outcome p (q.delChannelListItem c) c (removed (p.chans c)) := by
  have hmine : p.channels (p.chans c).fd = some c := (h.slot _ _).mpr ⟨rfl, hold⟩
  have hsome : (p.channels (p.chans c).fd).isSome := by simp [hmine]
  obtain ⟨hpos, hlt⟩ := h.range _ hsome
  have hfd : (q.chans c).fd = (p.chans c).fd := by simp [hq.chans, removed]
  have hreg : Registry { q with
      channels := Function.update q.channels (q.chans c).fd none
      channelNums := q.channelNums - 1
      curMaxFd := if q.curMaxFd = (q.chans c).fd then
        scanDown (Function.update q.channels (q.chans c).fd none) ((q.chans c).fd - 1)
        else q.curMaxFd } := by
    refine h.replace (removed (p.chans c)) (h.exclusive hold) rfl hq.chans ?_ hq.kernel
      (by simp [removed]) (by simp [removed]) hq.size hpos hlt ?_ ?_ (hq.asserts.trans h.noAssert)
    · simp only [removed, ↓reduceIte, hq.channels, hfd]
    · have hclear := occupied_clear hlt hsome
      rw [hq.channels, hfd, hq.size, hq.nums, h.count]
      exact Nat.sub_eq_of_eq_add hclear.symm
    · rw [hq.channels, hfd, hq.maxFd]
      exact h.top.clear _
  have hsize : 0 < q.size := by
    rw [hq.size]
    omega
  unfold delChannelListItem
  dsimp only
  rw [hreg.dump hsize]
  exact ⟨hreg, hq.chans, hq.size⟩

/-- **`RemoveChannel`.** The channel is forgotten; a second call does nothing. -/
theorem removeChannel_spec (h : Registry p) (c : ChanId) :
    Outcome p (p.removeChannel c) c (removed (p.chans c)) := by
  unfold removeChannel
  cases hst : (p.chans c).status with
  | kNew =>
    rw [if_pos hst]
    refine ⟨h, ?_, rfl⟩
    have hsame : removed (p.chans c) = p.chans c := by rw [removed, ← hst]
    rw [hsame, Function.update_eq_self]
  | kAdded =>
    have hmine : p.channels (p.chans c).fd = some c := (h.slot _ _).mpr ⟨rfl, by simp [hst]⟩
    have hmask : (p.chans c).isNoneEvent = false := by
      simpa [Channel.isNoneEvent] using h.added c hst
    have hkern : (p.kernel (p.chans c).fd).isSome := by
      rw [h.kernel_cases (h.exclusive (by simp [hst])), hst]
      rfl
    simp only [hst, reduceCtorEq, ↓reduceIte, hmask, Bool.not_false]
    rw [check_pos p _ (by simp [hmine]), check_pos p _ (by simp), update_del hkern]
    refine del_spec h (fun hn => by simp [hst] at hn) ⟨?_, ?_, rfl, rfl, rfl, rfl, rfl⟩
    · simp [setStatus, setChannel, removed]
    · simp [setStatus, setChannel, removed]
  | kDel =>
    have hmine : p.channels (p.chans c).fd = some c := (h.slot _ _).mpr ⟨rfl, by simp [hst]⟩
    have hmask : (p.chans c).isNoneEvent = true := by
      simpa [Channel.isNoneEvent] using h.deleted c hst
    have hkern : p.kernel (p.chans c).fd = none := by
      rw [h.kernel_cases (h.exclusive (by simp [hst])), hst]
      rfl
    simp only [hst, reduceCtorEq, ↓reduceIte, hmask, Bool.not_true, Bool.false_eq_true]
    rw [check_pos p _ (by simp [hmine]), check_pos p _ (by simp)]
    refine del_spec h (fun hn => by simp [hst] at hn) ⟨?_, ?_, rfl, rfl, rfl, rfl, rfl⟩
    · simp [setStatus, setChannel, removed]
    · simp only [removed, reduceCtorEq, ↓reduceIte]
      exact (Function.update_eq_self_iff.mpr hkern.symm).symm

end Operations

/-! ## Runs -/

/-- What an operation makes of the channel it is called on. -/
def Op.effect (op : Op) (ch : Channel) : Channel :=
  if op = .remove then removed ch else listening ch (op.mask ch.events)

/-- The use of descriptors the poller relies on: they index the table, and a
channel that is not registered is not registered on a descriptor in use. -/
def Admissible (p : Epoller) (i : ChanId × Op) : Prop :=
  0 < (p.chans i.1).fd ∧ (p.chans i.1).fd < p.size ∧
    (i.2 ≠ .remove → (p.chans i.1).status = .kNew → p.Exclusive i.1)

theorem admissible_of_usable {p : Epoller} (h : Registry p) {c : ChanId}
    (hu : p.usable c = true) (op : Op) : p.Admissible (c, op) := by
  simp only [usable, Bool.and_eq_true, decide_eq_true_eq, Bool.or_eq_true, bne_iff_ne, beq_iff_eq]
    at hu
  obtain ⟨⟨hpos, hlt⟩, hslot⟩ := hu
  refine ⟨hpos, hlt, fun _ hnew c' _ hfd => ?_⟩
  by_contra hst
  have hnone := hslot.resolve_left fun hne => hne hnew
  have hsome := (h.slot _ c').mpr ⟨hfd, hst⟩
  rw [hnone] at hsome
  cases hsome

theorem exec_spec {p : Epoller} (h : Registry p) {c : ChanId} {op : Op}
    (ha : p.Admissible (c, op)) : Outcome p (p.exec c true op) c (op.effect (p.chans c)) := by
  obtain ⟨hpos, hlt, hx⟩ := ha
  by_cases hr : op = .remove
  · subst hr
    exact removeChannel_spec h c
  · have hex : p.Exclusive c := by
      by_cases hst : (p.chans c).status = .kNew
      · exact hx hr hst
      · exact h.exclusive hst
    have hs := updateChannel_spec h hex hpos hlt (op.mask (p.chans c).events)
    simp only [Op.effect, hr, ↓reduceIte]
    cases op with
    | remove => exact absurd rfl hr
    | _ => exact hs

/-- One call of a member function of `Channel`, with `epoll_ctl` succeeding on
legal requests. -/
def step (p : Epoller) (i : ChanId × Op) : Option Epoller := some (p.exec i.1 true i.2)

theorem effect_fd (op : Op) (ch : Channel) : (op.effect ch).fd = ch.fd := by
  unfold Op.effect
  split <;> rfl

/-- Channels with descriptors of their own never get in each other's way. -/
theorem along_of_injective {fdOf : ChanId → Nat} (hinj : Function.Injective fdOf)
    {p : Epoller} (h : Registry p) (hfd : ∀ c, (p.chans c).fd = fdOf c)
    {ops : List (ChanId × Op)} (hops : ∀ i ∈ ops, 0 < fdOf i.1 ∧ fdOf i.1 < p.size) :
    Machine.Along step Admissible p ops := by
  induction ops generalizing p with
  | nil => trivial
  | cons i ops ih =>
    obtain ⟨hpos, hlt⟩ := hops i (by simp)
    have ha : p.Admissible i := by
      refine ⟨by rw [hfd]; exact hpos, by rw [hfd]; exact hlt, fun _ _ c' hc he => ?_⟩
      rw [hfd, hfd] at he
      exact absurd (hinj he) hc
    refine ⟨ha, fun t ht => ?_⟩
    obtain rfl := Option.some.inj ht
    have ho := exec_spec h ha
    refine ih ho.registry (fun c => ?_) (fun j hj => ?_)
    · rw [ho.chans]
      by_cases hc : c = i.1
      · subst hc
        rw [Function.update_self, effect_fd, hfd]
      · rw [Function.update_of_ne hc, hfd]
    · rw [ho.size]
      exact hops j (by simp [hj])

/-- **The registry holds after every operation**, on any channels, in any order,
as long as descriptors are used as `Admissible` says. -/
theorem registry_run (size : Nat) (fdOf : ChanId → Nat) (ops : List (ChanId × Op)) (p : Epoller)
    (ha : Machine.Along step Admissible (Epoller.new size fdOf) ops)
    (hr : Machine.run step (Epoller.new size fdOf) ops = some p) : Registry p := by
  refine Machine.run_invariant_along ?_ (registry_new size fdOf) ha hr
  intro q i t hq hi ht
  obtain rfl := Option.some.inj ht
  exact (exec_spec hq hi).registry

/-- Two channels, with the repeated `Remove` and the re-enabling after it. -/
theorem registry_run_two_channels : ∃ p,
    Machine.run step (Epoller.new 8 (· + 1))
      [(3, .disableAll), (3, .enableReading), (5, .enableWriting), (3, .disableReading),
       (5, .remove), (5, .remove), (5, .enableReading)] = some p ∧ Registry p := by
  obtain ⟨p, hr⟩ : ∃ p, Machine.run step (Epoller.new 8 (· + 1))
      [(3, .disableAll), (3, .enableReading), (5, .enableWriting), (3, .disableReading),
       (5, .remove), (5, .remove), (5, .enableReading)] = some p := ⟨_, rfl⟩
  refine ⟨p, hr, registry_run 8 (· + 1) _ p ?_ hr⟩
  refine along_of_injective (fun _ _ => Nat.succ.inj) (registry_new _ _) (fun _ => rfl) ?_
  simp [Epoller.new, Channel.new]

end Epoller

end LinuxNet
