import LinuxNet.Loop.Tasks

/-!
# `net::EventLoopThread`

The embedding of `StartLoop`, `StopLoop` and `OnEventLoop` of `event_loop_thread.cc` over
the machine of the loop. `OnEventLoop` publishes the loop before it calls `Loop`, and
`Loop` begins with `quit_ = false`: a `Quit` between the two is undone. It is undone
nowhere else, so a request is kept exactly when it comes behind that assignment.
-/

namespace LinuxNet

set_option autoImplicit false

open LinuxNet.Lib

/-- The thread that owns the `EventLoopThread`. -/
inductive OwnerPc where
  | idle
  /-- In `StartLoop`, waiting for `event_loop_`. -/
  | waiting
  /-- `StartLoop` has returned the loop. -/
  | started
  /-- In the `Join` of `StopLoop`. -/
  | joining
  | stopped
  deriving DecidableEq, Repr

/-- The owner has been given the loop. -/
def OwnerPc.hasLoop : OwnerPc → Bool
  | .idle | .waiting => false
  | _ => true

/-- The thread that runs `OnEventLoop`. -/
inductive ThreadPc where
  | notStarted
  /-- Before `event_loop_ = &event_loop`. -/
  | constructing
  /-- Before `Loop`. -/
  | published
  | inLoop
  | returned
  deriving DecidableEq, Repr

structure EventLoopThread (α : Type) where
  owner : OwnerPc
  thread : ThreadPc
  loop : Loop α
  /-- Some `Quit` has set `quit_`. -/
  requested : Bool

namespace EventLoopThread

variable {α : Type}

def new (α : Type) (needWakeup : Bool) : EventLoopThread α where
  owner := .idle
  thread := .notStarted
  loop := Loop.new α needWakeup
  requested := false

inductive Input (α : Type) where
  /-- The owner calls `StartLoop`, which starts the thread. -/
  | startLoop
  /-- `OnEventLoop` sets `event_loop_`. -/
  | publish
  /-- `StartLoop` sees `event_loop_` and returns it. -/
  | startReturns
  /-- The owner calls `Quit` on the loop. -/
  | quit
  /-- The owner calls `StopLoop`, which calls `Quit` and goes to `Join`. -/
  | stopLoop
  | joined
  /-- A step of the loop, or of another thread that has been given the loop. -/
  | loop (i : Loop.Input α)
  deriving DecidableEq, Repr

/-- The steps of `Loop` that belong to other threads. -/
def byOther : Loop.Input α → Bool
  | .push _ | .quit | .wakeup => true
  | _ => false

/-- The steps that set `quit_`. -/
def quits : Input α → Bool
  | .quit | .stopLoop | .loop .quit | .loop .quitInLoop => true
  | _ => false

/-- Where `OnEventLoop` is behind a step of `Loop`. -/
def threadAfter (l : Loop α) : ThreadPc :=
  match l.pc with
  | .outside => .returned
  | _ => .inLoop

/-- A step of the thread of the loop, which calls `Loop` once. -/
def stepLoop (s : EventLoopThread α) (i : Loop.Input α) : Option (EventLoopThread α) :=
  match s.thread, i with
  | .published, .callLoop =>
    (s.loop.step .callLoop).map fun l => { s with loop := l, thread := .inLoop }
  | .inLoop, i =>
    (s.loop.step i).map fun l =>
      { s with loop := l, thread := threadAfter l, requested := s.requested || quits (.loop i) }
  | _, _ => none

def step (s : EventLoopThread α) : Input α → Option (EventLoopThread α)
  | .startLoop =>
    if s.owner = .idle then some { s with owner := .waiting, thread := .constructing } else none
  | .publish => if s.thread = .constructing then some { s with thread := .published } else none
  | .startReturns =>
    if s.owner = .waiting ∧ s.thread ≠ .notStarted ∧ s.thread ≠ .constructing then
      some { s with owner := .started }
    else none
  | .quit =>
    if s.owner = .started then
      (s.loop.step .quit).map fun l => { s with loop := l, requested := true }
    else none
  | .stopLoop =>
    if s.owner = .started then
      (s.loop.step .quit).map fun l => { s with loop := l, requested := true, owner := .joining }
    else none
  | .joined =>
    if s.owner = .joining ∧ s.thread = .returned then some { s with owner := .stopped } else none
  | .loop i =>
    if byOther i then
      if s.owner.hasLoop then
        (s.loop.step i).map fun l =>
          { s with loop := l, requested := s.requested || quits (.loop i) }
      else none
    else s.stepLoop i

/-! ## Steps -/

/-- What a step can be, with all that is known when it is taken. -/
inductive Next (s : EventLoopThread α) : Input α → EventLoopThread α → Prop where
  | startLoop (ho : s.owner = .idle) :
      Next s .startLoop { s with owner := .waiting, thread := .constructing }
  | publish (ht : s.thread = .constructing) : Next s .publish { s with thread := .published }
  | startReturns (ho : s.owner = .waiting) (hn : s.thread ≠ .notStarted)
      (hc : s.thread ≠ .constructing) : Next s .startReturns { s with owner := .started }
  | quit {l : Loop α} (ho : s.owner = .started) (hl : s.loop.Next .quit l) :
      Next s .quit { s with loop := l, requested := true }
  | stopLoop {l : Loop α} (ho : s.owner = .started) (hl : s.loop.Next .quit l) :
      Next s .stopLoop { s with loop := l, requested := true, owner := .joining }
  | joined (ho : s.owner = .joining) (ht : s.thread = .returned) :
      Next s .joined { s with owner := .stopped }
  | other {i : Loop.Input α} {l : Loop α} (hi : byOther i = true) (ho : s.owner.hasLoop = true)
      (hl : s.loop.Next i l) :
      Next s (.loop i) { s with loop := l, requested := s.requested || quits (.loop i) }
  | callLoop {l : Loop α} (ht : s.thread = .published) (hl : s.loop.Next .callLoop l) :
      Next s (.loop .callLoop) { s with loop := l, thread := .inLoop }
  | inLoop {i : Loop.Input α} {l : Loop α} (ht : s.thread = .inLoop) (hi : byOther i = false)
      (hl : s.loop.Next i l) :
      Next s (.loop i)
        { s with loop := l, thread := threadAfter l, requested := s.requested || quits (.loop i) }

theorem stepLoop_next {s s' : EventLoopThread α} {i : Loop.Input α} (hi : byOther i = false)
    (h : s.stepLoop i = some s') : s.Next (.loop i) s' := by
  unfold stepLoop at h
  split at h
  · obtain ⟨l, hl, rfl⟩ := Option.map_eq_some_iff.mp h
    exact .callLoop ‹_› (Loop.step_next hl)
  · obtain ⟨l, hl, rfl⟩ := Option.map_eq_some_iff.mp h
    exact .inLoop ‹_› hi (Loop.step_next hl)
  · cases h

theorem step_next {s s' : EventLoopThread α} {i : Input α} (h : s.step i = some s') :
    s.Next i s' := by
  cases i with
  | startLoop =>
    simp only [step] at h
    split at h <;> cases h
    exact .startLoop ‹_›
  | publish =>
    simp only [step] at h
    split at h <;> cases h
    exact .publish ‹_›
  | startReturns =>
    simp only [step] at h
    split at h <;> cases h
    rename_i hc
    exact .startReturns hc.1 hc.2.1 hc.2.2
  | quit =>
    simp only [step] at h
    split at h
    · obtain ⟨l, hl, rfl⟩ := Option.map_eq_some_iff.mp h
      exact .quit ‹_› (Loop.step_next hl)
    · cases h
  | stopLoop =>
    simp only [step] at h
    split at h
    · obtain ⟨l, hl, rfl⟩ := Option.map_eq_some_iff.mp h
      exact .stopLoop ‹_› (Loop.step_next hl)
    · cases h
  | joined =>
    simp only [step] at h
    split at h <;> cases h
    rename_i hc
    exact .joined hc.1 hc.2
  | loop i =>
    simp only [step] at h
    split at h
    · split at h
      · obtain ⟨l, hl, rfl⟩ := Option.map_eq_some_iff.mp h
        exact .other ‹_› ‹_› (Loop.step_next hl)
      · cases h
    · rename_i hi
      exact stepLoop_next (Bool.not_eq_true _ ▸ hi) h

/-! ## A request is kept -/

/-- `Loop` has not left its while loop. -/
def Running (s : EventLoopThread α) : Prop :=
  s.thread ≠ .returned ∧ s.loop.pc.final = false

/-- The assignment `quit_ = false` of `Loop` is still to come. -/
def Unreset (s : EventLoopThread α) : Prop :=
  s.thread ≠ .returned ∧ (s.thread = .inLoop → s.loop.pc = .starting)

/-- A `Quit` has not been undone, and `Join` does not wait for a loop that goes on. -/
structure Kept (s : EventLoopThread α) : Prop where
  request : s.requested = true → s.Running → s.loop.quit = true
  join : s.owner = .joining → s.Running → s.loop.quit = true

/-- A `Quit` in front of `quit_ = false`. -/
def Early (s : EventLoopThread α) (i : Input α) : Prop :=
  quits i = true ∧ s.Unreset

instance [DecidableEq α] (s : EventLoopThread α) : Decidable s.Unreset :=
  inferInstanceAs (Decidable (_ ∧ _))

instance [DecidableEq α] (s : EventLoopThread α) (i : Input α) : Decidable (Early s i) :=
  inferInstanceAs (Decidable (_ ∧ _))

end EventLoopThread

namespace Loop

variable {α : Type} {s s' : Loop α} {i : Input α}

/-- Only `Loop` clears `quit_`. -/
theorem Next.quit_kept (h : s.Next i s') (hi : i ≠ .clearQuit) (hq : s.quit = true) :
    s'.quit = true := by
  cases h with
  | clearQuit => exact absurd rfl hi
  | @endTasks final => cases final <;> exact hq
  | queueInLoop => rwa [queueInLoop_quit]
  | quitInLoop => rfl
  | quit => rfl
  | _ => exact hq

/-- Other threads do not move that of the loop. -/
theorem Next.pc_of_byOther (h : s.Next i s') (hi : EventLoopThread.byOther i = true) :
    s'.pc = s.pc := by
  cases h <;> first | rfl | cases hi

/-- `Loop` is entered from outside only. -/
theorem Next.outside_of_starting (h : s.Next i s') (hi : EventLoopThread.byOther i = false)
    (hpc' : s'.pc = .starting) : s.pc = .outside := by
  cases h with
  | callLoop hpc => exact hpc
  | @endTasks final => cases final <;> cases hpc'
  | queueInLoop ho =>
    rw [queueInLoop_pc] at hpc'
    rw [hpc'] at ho
    cases ho
  | quitInLoop ho =>
    rw [show s.pc = .starting from hpc'] at ho
    cases ho
  | push => cases hi
  | quit => cases hi
  | wakeup => cases hi
  | _ => cases hpc'

/-- In front of `quit_ = false` the thread of the loop does nothing else. -/
theorem Next.clearQuit_of_starting (h : s.Next i s') (hi : EventLoopThread.byOther i = false)
    (hpc : s.pc = .starting) : i = .clearQuit := by
  cases h with
  | clearQuit => rfl
  | queueInLoop ho => rw [hpc] at ho; cases ho
  | quitInLoop ho => rw [hpc] at ho; cases ho
  | push => cases hi
  | quit => cases hi
  | wakeup => cases hi
  | callLoop h => rw [hpc] at h; cases h
  | leave h => rw [hpc] at h; cases h
  | poll h => rw [hpc] at h; cases h
  | pollReturns h => rw [hpc] at h; cases h
  | handleWakeup h => rw [hpc] at h; cases h
  | handled h => rw [hpc] at h; cases h
  | beginTasks h => rw [hpc] at h; cases h
  | swap h => rw [hpc] at h; cases h
  | runTask h => rw [hpc] at h; cases h
  | taskReturns h => rw [hpc] at h; cases h
  | endTasks h => rw [hpc] at h; cases h

end Loop

namespace EventLoopThread

variable {α : Type}

theorem threadAfter_of_outside {l : Loop α} (h : l.pc = .outside) : threadAfter l = .returned := by
  unfold threadAfter
  rw [h]

theorem threadAfter_of_ne {l : Loop α} (h : l.pc ≠ .outside) : threadAfter l = .inLoop := by
  unfold threadAfter
  split
  · exact absurd ‹_› h
  · rfl

/-- Before `StartLoop` there is no thread, and `Loop` is called once. -/
structure Shape (s : EventLoopThread α) : Prop where
  idle : s.owner = .idle → s.thread = .notStarted
  entered : s.thread = .inLoop → s.loop.pc ≠ .outside

theorem shape_new (α : Type) (needWakeup : Bool) : (new α needWakeup).Shape :=
  ⟨fun _ => rfl, nofun⟩

section Steps

variable {s s' : EventLoopThread α} {i : Input α}

theorem step_shape (h : s.Shape) (hn : s.Next i s') : s'.Shape := by
  cases hn with
  | startLoop => exact ⟨nofun, nofun⟩
  | publish ht =>
    refine ⟨fun ho => ?_, nofun⟩
    rw [h.idle ho] at ht
    cases ht
  | startReturns => exact ⟨nofun, h.entered⟩
  | quit ho hl =>
    cases hl
    exact ⟨h.idle, h.entered⟩
  | stopLoop ho hl =>
    cases hl
    exact ⟨nofun, h.entered⟩
  | joined => exact ⟨nofun, h.entered⟩
  | other hi ho hl =>
    refine ⟨h.idle, fun ht => ?_⟩
    rw [hl.pc_of_byOther hi]
    exact h.entered ht
  | callLoop ht hl =>
    refine ⟨fun ho => ?_, fun _ => ?_⟩
    · rw [h.idle ho] at ht
      cases ht
    · cases hl
      nofun
  | inLoop ht hi hl =>
    refine ⟨fun ho => ?_, fun hthread hpc => ?_⟩
    · rw [h.idle ho] at ht
      cases ht
    · rw [threadAfter_of_outside hpc] at hthread
      cases hthread

/-- While `quit_ = false` is to come nothing has been requested, and from then on a
request is kept. -/
structure Sound (s : EventLoopThread α) : Prop where
  early : s.Unreset → s.requested = false
  request : s.requested = true → s.Running → s.loop.quit = true
  join : s.owner = .joining → s.requested = true

theorem sound_new (α : Type) (needWakeup : Bool) : (new α needWakeup).Sound :=
  ⟨fun _ => rfl, nofun, nofun⟩

theorem Sound.kept (h : s.Sound) : s.Kept :=
  ⟨h.request, fun ho => h.request (h.join ho)⟩

theorem Sound.congr (h : s.Sound) (ho : s'.owner = s.owner) (ht : s'.thread = s.thread)
    (hpc : s'.loop.pc = s.loop.pc) (hq : s'.loop.quit = s.loop.quit)
    (hr : s'.requested = s.requested) : s'.Sound := by
  constructor
  · rw [Unreset, ht, hpc, hr]
    exact h.early
  · rw [Running, ht, hpc, hr, hq]
    exact h.request
  · rw [ho, hr]
    exact h.join

/-- The loop's own thread moves inside of `Loop`. -/
theorem Sound.inLoop (h : s.Sound) (hs : s.Shape) {i : Loop.Input α} {l : Loop α}
    (hg : ¬ Early s (.loop i)) (ht : s.thread = .inLoop) (hi : byOther i = false)
    (hl : s.loop.Next i l) :
    Sound { s with loop := l, thread := threadAfter l, requested := s.requested || quits (.loop i) } := by
  refine ⟨fun hu => ?_, fun hreq hrun => ?_, fun ho => by rw [h.join ho]; rfl⟩
  · -- The thread cannot be in front of `quit_ = false` again.
    have hpc : l.pc ≠ .outside := fun hpc => hu.1 (threadAfter_of_outside hpc)
    exact absurd (hl.outside_of_starting hi (hu.2 (threadAfter_of_ne hpc))) (hs.entered ht)
  · by_cases hq : quits (.loop i) = true
    · cases hl <;> first | rfl | cases hq
    · have hreq : s.requested = true := by simpa [hq] using hreq
      have hfinal : s.loop.pc.final = false := by
        by_contra hf
        rcases hl.final_kept (by simpa using hf) with hf' | hout
        · rw [show l.pc.final = false from hrun.2] at hf'
          cases hf'
        · exact hrun.1 (threadAfter_of_outside hout)
      refine hl.quit_kept ?_ (h.request hreq ⟨by rw [ht]; nofun, hfinal⟩)
      rintro rfl
      cases hl with
      | clearQuit hpc =>
        have hu : s.Unreset := ⟨by rw [ht]; nofun, fun _ => hpc⟩
        rw [h.early hu] at hreq
        cases hreq

/-- A `Quit` behind `quit_ = false`. -/
theorem sound_quit (hreset : ¬ s.Unreset) {owner : OwnerPc} {l : Loop α}
    (hl : s.loop.Next .quit l) : Sound { s with loop := l, requested := true, owner := owner } := by
  cases hl
  exact ⟨fun hu => absurd hu hreset, fun _ _ => rfl, fun _ => rfl⟩

theorem step_sound (hs : s.Shape) (h : s.Sound) (hg : ¬ Early s i) (hn : s.Next i s') :
    s'.Sound := by
  cases hn with
  | startLoop ho =>
    have ht : s.thread = .notStarted := hs.idle ho
    have hreq : s.requested = false := h.early ⟨by rw [ht]; nofun, by rw [ht]; nofun⟩
    exact ⟨fun _ => hreq, fun hr => absurd hr (by rw [hreq]; nofun), nofun⟩
  | publish ht =>
    have hreq : s.requested = false := h.early ⟨by rw [ht]; nofun, by rw [ht]; nofun⟩
    exact ⟨fun _ => hreq, fun hr => absurd hr (by rw [hreq]; nofun), h.join⟩
  | startReturns => exact ⟨h.early, h.request, nofun⟩
  | quit ho hl => exact sound_quit (fun hu => hg ⟨rfl, hu⟩) hl
  | stopLoop ho hl => exact sound_quit (fun hu => hg ⟨rfl, hu⟩) hl
  | joined => exact ⟨h.early, h.request, nofun⟩
  | other hi ho hl =>
    cases hl with
    | push => exact h.congr rfl rfl rfl rfl (Bool.or_false _)
    | wakeup => exact h.congr rfl rfl rfl rfl (Bool.or_false _)
    | quit =>
      exact ⟨fun hu => absurd ⟨rfl, hu⟩ hg, fun _ _ => rfl, fun _ => by simp [quits]⟩
    | _ => cases hi
  | callLoop ht hl =>
    have hreq : s.requested = false := h.early ⟨by rw [ht]; nofun, by rw [ht]; nofun⟩
    exact ⟨fun _ => hreq, fun hr => absurd hr (by rw [hreq]; nofun), h.join⟩
  | inLoop ht hi hl => exact h.inLoop hs hg ht hi hl

/-! ## A request that comes too early is lost -/

theorem step_reset (hs : s.Shape) (h : ¬ s.Unreset) (hn : s.Next i s') : ¬ s'.Unreset := by
  intro hu
  apply h
  cases hn with
  | startLoop ho =>
    rw [Unreset, hs.idle ho]
    exact ⟨nofun, nofun⟩
  | publish ht =>
    rw [Unreset, ht]
    exact ⟨nofun, nofun⟩
  | startReturns => exact hu
  | joined => exact hu
  | quit ho hl =>
    cases hl
    exact hu
  | stopLoop ho hl =>
    cases hl
    exact hu
  | other hi ho hl =>
    have hpc := hl.pc_of_byOther hi
    exact ⟨hu.1, fun ht => hpc ▸ hu.2 ht⟩
  | callLoop ht hl =>
    rw [Unreset, ht]
    exact ⟨nofun, nofun⟩
  | inLoop ht hi hl =>
    have hpc := fun hpc => hu.1 (threadAfter_of_outside hpc)
    exact absurd (hl.outside_of_starting hi (hu.2 (threadAfter_of_ne hpc))) (hs.entered ht)

/-- A request in front of `quit_ = false` stays there up to that assignment. -/
theorem step_unreset (h : s.Unreset) (hr : s.requested = true) (hi : i ≠ .loop .clearQuit)
    (hn : s.Next i s') : s'.Unreset ∧ s'.requested = true := by
  cases hn with
  | startLoop => exact ⟨⟨nofun, nofun⟩, hr⟩
  | publish => exact ⟨⟨nofun, nofun⟩, hr⟩
  | startReturns => exact ⟨h, hr⟩
  | joined => exact ⟨h, hr⟩
  | quit ho hl =>
    cases hl
    exact ⟨h, rfl⟩
  | stopLoop ho hl =>
    cases hl
    exact ⟨h, rfl⟩
  | other hb ho hl =>
    refine ⟨⟨h.1, fun ht => ?_⟩, by rw [hr]; rfl⟩
    rw [hl.pc_of_byOther hb]
    exact h.2 ht
  | callLoop ht hl =>
    cases hl
    exact ⟨⟨nofun, fun _ => rfl⟩, hr⟩
  | inLoop ht hb hl =>
    rw [hl.clearQuit_of_starting hb (h.2 ht)] at hi
    exact absurd rfl hi

theorem step_early (h : Early s i) (hn : s.Next i s') : s'.Unreset ∧ s'.requested = true := by
  obtain ⟨hq, hu⟩ := h
  cases hn with
  | quit ho hl =>
    cases hl
    exact ⟨hu, rfl⟩
  | stopLoop ho hl =>
    cases hl
    exact ⟨hu, rfl⟩
  | other hb ho hl =>
    refine ⟨⟨hu.1, fun ht => ?_⟩, by rw [hq]; exact Bool.or_true _⟩
    rw [hl.pc_of_byOther hb]
    exact hu.2 ht
  | inLoop ht hb hl =>
    rw [hl.clearQuit_of_starting hb (hu.2 ht)] at hq
    cases hq
  | _ => cases hq

theorem not_kept_of_clearQuit (hr : s.requested = true)
    (hn : s.Next (.loop .clearQuit) s') : ¬ s'.Kept := by
  intro hk
  cases hn with
  | other hb => cases hb
  | inLoop ht hb hl =>
    cases hl
    cases hk.request (by rw [hr]; rfl) ⟨nofun, rfl⟩

theorem not_throughout_of_unreset {is : List (Input α)} (h : s.Unreset) (hr : s.requested = true)
    (hrun : Machine.run step s is = some s') (hreset : .loop .clearQuit ∈ is) :
    ¬ Machine.Throughout step Kept s is := by
  intro hkept
  induction is generalizing s with
  | nil => cases hreset
  | cons i is ih =>
    obtain ⟨m, hm, hrest⟩ := Machine.run_cons_iff.mp hrun
    by_cases hi : i = .loop .clearQuit
    · subst hi
      exact not_kept_of_clearQuit hr (step_next hm) (hkept.2 m hm).head
    · have hreset : .loop .clearQuit ∈ is := by
        rcases List.mem_cons.mp hreset with heq | hmem
        · exact absurd heq.symm hi
        · exact hmem
      obtain ⟨hu, hreq⟩ := step_unreset h hr hi (step_next hm)
      exact ih hu hreq hrest hreset (hkept.2 m hm)

theorem along_of_throughout {is : List (Input α)} (hs : s.Shape)
    (hrun : Machine.run step s is = some s') (hreset : .loop .clearQuit ∈ is ∨ ¬ s.Unreset)
    (hkept : Machine.Throughout step Kept s is) :
    Machine.Along step (fun s i => ¬ Early s i) s is := by
  induction is generalizing s with
  | nil => trivial
  | cons i is ih =>
    obtain ⟨m, hm, hrest⟩ := Machine.run_cons_iff.mp hrun
    have hn := step_next hm
    have hreset' : .loop .clearQuit ∈ is ∨ ¬ m.Unreset := by
      rcases hreset with hmem | hu
      · rcases List.mem_cons.mp hmem with rfl | hmem
        · right
          cases hn with
          | other hb => cases hb
          | inLoop ht hb hl =>
            cases hl
            intro hu
            cases hu.2 rfl
        · exact .inl hmem
      · exact .inr (step_reset hs hu hn)
    refine ⟨?_, fun t ht => ?_⟩
    · rintro ⟨hq, hu⟩
      -- The request is in force, and `quit_ = false` is still to come.
      have hmem : .loop .clearQuit ∈ is := by
        rcases hreset with hmem | hreset
        · rcases List.mem_cons.mp hmem with rfl | hmem
          · cases hq
          · exact hmem
        · exact absurd hu hreset
      obtain ⟨hu', hreq⟩ := step_early ⟨hq, hu⟩ hn
      exact not_throughout_of_unreset hu' hreq hrest hmem (hkept.2 m hm)
    · obtain rfl : m = t := Option.some.inj (hm.symm.trans ht)
      exact ih (step_shape hs hn) hrest hreset' (hkept.2 m hm)

end Steps

/-- **A `Quit` is kept exactly when it comes behind `quit_ = false`.** If no `Quit` and
no `StopLoop` is executed before the thread of the loop has passed that assignment, a
request stays in force until `Loop` leaves its while loop, and `Join` does not wait for
a loop that goes on. In a run that reaches the assignment nothing less will do. -/
theorem quit_kept_iff (α : Type) (needWakeup : Bool) (is : List (Input α))
    (s : EventLoopThread α) (hr : Machine.run step (new α needWakeup) is = some s) :
    (Machine.Along step (fun s i => ¬ Early s i) (new α needWakeup) is →
      Machine.Throughout step Kept (new α needWakeup) is) ∧
    (.loop .clearQuit ∈ is →
      (Machine.Throughout step Kept (new α needWakeup) is ↔
        Machine.Along step (fun s i => ¬ Early s i) (new α needWakeup) is)) := by
  have hlate : Machine.Along step (fun s i => ¬ Early s i) (new α needWakeup) is →
      Machine.Throughout step Kept (new α needWakeup) is := by
    refine Machine.throughout_of_along (P := fun s => s.Shape ∧ s.Sound) ?_ (fun h => h.2.kept)
      ⟨shape_new α needWakeup, sound_new α needWakeup⟩
    intro s i t h hg ht
    have hn := step_next ht
    exact ⟨step_shape h.1 hn, step_sound h.1 h.2 hg hn⟩
  refine ⟨hlate, fun hreset => ⟨fun hkept => ?_, hlate⟩⟩
  exact along_of_throughout (shape_new α needWakeup) hr (.inl hreset) hkept

/-- `StopLoop` behind the return of `StartLoop` and behind `quit_ = false`. -/
theorem quit_kept_iff_after_reset : ∃ s : EventLoopThread Nat,
    Machine.run step (new Nat false)
      [.startLoop, .publish, .startReturns, .loop .callLoop, .loop .clearQuit, .loop .test,
       .stopLoop] = some s ∧
    Machine.Throughout step Kept (new Nat false)
      [.startLoop, .publish, .startReturns, .loop .callLoop, .loop .clearQuit, .loop .test,
       .stopLoop] := by
  obtain ⟨s, hr⟩ := Option.isSome_iff_exists.mp (show (Machine.run step (new Nat false)
      [.startLoop, .publish, .startReturns, .loop .callLoop, .loop .clearQuit, .loop .test,
       .stopLoop]).isSome = true by decide +kernel)
  exact ⟨s, hr, (quit_kept_iff Nat false _ s hr).1 (by decide +kernel)⟩

/-- `StopLoop` between the return of `StartLoop` and `quit_ = false`: the owner waits in
`Join` for a loop that waits in `Poll`. -/
theorem quit_lost_before_reset : ∃ s : EventLoopThread Nat,
    Machine.run step (new Nat false)
      [.startLoop, .publish, .startReturns, .stopLoop, .loop .wakeup, .loop .callLoop,
       .loop .clearQuit, .loop .test] = some s ∧
    s.owner = .joining ∧ s.loop.pc = .polling ∧ s.loop.quit = false ∧ ¬ s.Kept := by
  obtain ⟨s, hr, hobs⟩ := Option.map_eq_some_iff.mp (show (Machine.run step (new Nat false)
      [.startLoop, .publish, .startReturns, .stopLoop, .loop .wakeup, .loop .callLoop,
       .loop .clearQuit, .loop .test]).map
      (fun s => (s.owner, s.thread, s.loop.pc, s.loop.quit)) =
      some (.joining, .inLoop, .polling, false) by decide +kernel)
  simp only [Prod.mk.injEq] at hobs
  obtain ⟨howner, hthread, hpc, hquit⟩ := hobs
  refine ⟨s, hr, howner, hpc, hquit, fun hkept => ?_⟩
  have hrun : s.Running := ⟨by rw [hthread]; nofun, by rw [hpc]; rfl⟩
  rw [hkept.join howner hrun] at hquit
  cases hquit

end EventLoopThread

end LinuxNet
