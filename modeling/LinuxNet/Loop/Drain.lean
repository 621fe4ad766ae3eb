import LinuxNet.Loop.Tasks
import LinuxNet.Connection.Model

/-!
# What `Loop` leaves behind

Behind its while loop `Loop` calls `DoPendingTasks` once. The swap takes what is in the
queue; what the tasks of this last batch queue themselves comes behind the swap, and
nobody runs it.
-/

namespace LinuxNet

set_option autoImplicit false

open LinuxNet.Lib

namespace Loop

variable {α : Type}

/-- Of the tasks queued, the first `n` and all that were queued by tasks have been run. -/
def Complete (n : Nat) (s : Loop α) : Prop :=
  ∀ k e, s.queued[k]? = some e → k < n ∨ e.origin = .task →
    (s.executed.map Prod.fst)[k]? = some e

/-- Code in the thread of the loop calls `QueueInLoop`. -/
def Input.queues : Input α → Bool
  | .queueInLoop _ => true
  | _ => false

/-- A task of the batch calls `QueueInLoop` on its loop. -/
def QueuesInTask (s : Loop α) (i : Input α) : Prop :=
  s.pc.origin? = some .task ∧ i.queues = true

instance (s : Loop α) (i : Input α) : Decidable (QueuesInTask s i) :=
  inferInstanceAs (Decidable (_ ∧ _))

/-! ## What is taken is run -/

/-- How many of the tasks queued have been run or are going to be. -/
def reach (s : Loop α) : Nat :=
  s.executed.length + s.pc.batch.length + if s.pc.awake then s.taskList.length else 0

/-- `Loop` has left its while loop or has returned. -/
def Leaving (s : Loop α) : Prop :=
  s.pc.final = true ∨ s.pc = .outside

/-- A task stays in the queue behind the last swap. -/
def LeftBehind (s : Loop α) : Prop :=
  s.pc.awake = false ∧ ∃ e ∈ s.taskList, e.origin = .task

section Steps

variable {s s' : Loop α} {i : Input α}

theorem not_leaving {pc : LoopPc α} (hpc : s.pc = pc) (hf : pc.final = false)
    (ho : pc ≠ .outside) : ¬ s.Leaving := by
  rintro (h | h)
  · rw [hpc, hf] at h
    cases h
  · exact ho (hpc.symm.trans h)

/-- Behind the while loop there is only the last `DoPendingTasks`. -/
theorem step_leaving (h : s.Leaving) (hi : i ≠ .callLoop) (hn : s.Next i s') : s'.Leaving := by
  rcases h with hf | ho
  · exact hn.final_kept hf
  · have hleave : s.Leaving := .inr ho
    cases hn with
    | callLoop => exact absurd rfl hi
    | clearQuit hpc => exact absurd hleave (not_leaving hpc rfl nofun)
    | leave hpc => exact .inl rfl
    | poll hpc => exact absurd hleave (not_leaving hpc rfl nofun)
    | pollReturns hpc => exact absurd hleave (not_leaving hpc rfl nofun)
    | handleWakeup hpc => exact absurd hleave (not_leaving hpc rfl nofun)
    | handled hpc => exact absurd hleave (not_leaving hpc rfl nofun)
    | beginTasks hpc => rw [hpc] at ho; cases ho
    | swap hpc => rw [hpc] at ho; cases ho
    | runTask hpc => rw [hpc] at ho; cases ho
    | taskReturns hpc => rw [hpc] at ho; cases ho
    | endTasks hpc => rw [hpc] at ho; cases ho
    | queueInLoop => exact .inr (by rw [queueInLoop_pc, ho])
    | _ => exact .inr ho

theorem queueInLoop_eq (s : Loop α) (t : α) (o : Origin) : ∃ e : Queued α, e.origin = o ∧
    (s.queueInLoop t o).taskList = s.taskList ++ [e] ∧
    (s.queueInLoop t o).queued = s.queued ++ [e] ∧
    (s.queueInLoop t o).executed = s.executed := by
  refine ⟨⟨t, o, if s.pc.inRound then some s.round else none⟩, rfl, ?_⟩
  unfold queueInLoop
  dsimp only
  split <;> exact ⟨rfl, rfl, rfl⟩

theorem reach_of_pc {pc : LoopPc α} (hpc : s.pc = pc) :
    s.reach = s.executed.length + pc.batch.length + if pc.awake then s.taskList.length else 0 := by
  rw [reach, hpc]

theorem reach_le_of_push {e : Queued α} (hpc : s'.pc = s.pc) (he : s'.executed = s.executed)
    (ht : s'.taskList = s.taskList ++ [e]) : s.reach ≤ s'.reach := by
  rw [reach, reach, hpc, he, ht, List.length_append]
  split <;> omega

/-- A task that is going to be run is run. -/
theorem reach_mono (hn : s.Next i s') : s.reach ≤ s'.reach := by
  cases hn with
  | callLoop hpc => rw [reach_of_pc hpc]; exact Nat.le_refl _
  | clearQuit hpc => rw [reach_of_pc hpc]; exact Nat.le_refl _
  | leave hpc => rw [reach_of_pc hpc]; exact Nat.le_add_right _ _
  | poll hpc => rw [reach_of_pc hpc]; exact Nat.le_refl _
  | pollReturns hpc => rw [reach_of_pc hpc]; exact Nat.le_add_right _ _
  | handleWakeup hpc => rw [reach_of_pc hpc]; exact Nat.le_refl _
  | handled hpc => rw [reach_of_pc hpc]; exact Nat.le_refl _
  | beginTasks hpc => rw [reach_of_pc hpc]; exact Nat.le_refl _
  | swap hpc => rw [reach_of_pc hpc]; exact Nat.le_refl _
  | @runTask e rest final hpc =>
    rw [reach_of_pc hpc, reach]
    simp only [LoopPc.batch, LoopPc.awake, List.length_append, List.length_cons, List.length_nil,
      Bool.false_eq_true, ↓reduceIte]
    omega
  | taskReturns hpc => rw [reach_of_pc hpc]; exact Nat.le_refl _
  | @endTasks final hpc =>
    rw [reach_of_pc hpc]
    cases final <;> exact Nat.le_refl _
  | @queueInLoop t o ho =>
    obtain ⟨e, -, ht, -, he⟩ := queueInLoop_eq s t o
    exact reach_le_of_push (queueInLoop_pc s t o) he ht
  | push => exact reach_le_of_push rfl rfl rfl
  | quitInLoop => exact Nat.le_refl _
  | quit => exact Nat.le_refl _
  | wakeup => exact Nat.le_refl _

/-- Behind the first `n` no task was queued by a task. -/
def Clean (n : Nat) (s : Loop α) : Prop :=
  n ≤ s.queued.length ∧ ∀ e ∈ s.queued.drop n, e.origin ≠ .task

theorem Clean.push {n : Nat} (h : s.Clean n) {e : Queued α} (hq : s'.queued = s.queued ++ [e])
    (he : e.origin ≠ .task) : s'.Clean n := by
  rw [Clean, hq, List.drop_append_of_le_length h.1]
  refine ⟨Nat.le_trans h.1 (by simp), fun e' he' => ?_⟩
  rcases List.mem_append.mp he' with hold | hnew
  · exact h.2 e' hold
  · rw [List.mem_singleton] at hnew
    exact hnew ▸ he

theorem step_clean {n : Nat} (h : s.Clean n) (hg : ¬ QueuesInTask s i) (hn : s.Next i s') :
    s'.Clean n := by
  cases hn with
  | @queueInLoop t o ho =>
    obtain ⟨e, horigin, -, hq, -⟩ := queueInLoop_eq s t o
    refine h.push hq fun htask => hg ⟨?_, rfl⟩
    rw [ho, ← horigin, htask]
  | push => exact h.push rfl nofun
  | @endTasks final => cases final <;> exact h
  | _ => exact h

theorem leftBehind_of_queuesInTask (h : QueuesInTask s i) (hn : s.Next i s') : s'.LeftBehind := by
  obtain ⟨htask, hq⟩ := h
  cases hn with
  | @queueInLoop t o ho =>
    obtain ⟨e, horigin, ht, -, -⟩ := queueInLoop_eq s t o
    have hawake : s.pc.awake = false := by
      rcases hpc : s.pc with _ | _ | _ | _ | _ | _ | _ | _ | _ <;> rw [hpc] at htask <;>
        first | rfl | cases htask
    refine ⟨by rw [queueInLoop_pc, hawake], e, by simp [ht], ?_⟩
    rw [horigin]
    exact Option.some.inj (ho.symm.trans htask)
  | _ => cases hq

/-- Behind the last swap nothing leaves the queue. -/
theorem step_leftBehind (hl : s.Leaving) (h : s.LeftBehind) (hn : s.Next i s') :
    s'.LeftBehind := by
  obtain ⟨hawake, e, he, htask⟩ := h
  cases hn with
  | callLoop => exact ⟨rfl, e, he, htask⟩
  | clearQuit => exact ⟨rfl, e, he, htask⟩
  | leave hpc => exact absurd hl (not_leaving hpc rfl nofun)
  | poll => exact ⟨rfl, e, he, htask⟩
  | pollReturns hpc => exact absurd hl (not_leaving hpc rfl nofun)
  | handleWakeup hpc => rw [hpc] at hawake; cases hawake
  | handled hpc => rw [hpc] at hawake; cases hawake
  | beginTasks hpc => rw [hpc] at hawake; cases hawake
  | swap hpc => rw [hpc] at hawake; cases hawake
  | runTask => exact ⟨rfl, e, he, htask⟩
  | taskReturns => exact ⟨rfl, e, he, htask⟩
  | @endTasks final => cases final <;> exact ⟨rfl, e, he, htask⟩
  | @queueInLoop t o ho =>
    obtain ⟨e', -, ht, -, -⟩ := queueInLoop_eq s t o
    exact ⟨by rw [queueInLoop_pc, hawake], e, by rw [ht]; exact List.mem_append_left _ he, htask⟩
  | push => exact ⟨hawake, e, List.mem_append_left _ he, htask⟩
  | quitInLoop => exact ⟨hawake, e, he, htask⟩
  | quit => exact ⟨hawake, e, he, htask⟩
  | wakeup => exact ⟨hawake, e, he, htask⟩

end Steps

/-! ## What is left is not run -/

section Return

variable {s : Loop α}

theorem queued_of_outside (ho : s.Ordered) (hpc : s.pc = .outside) :
    s.executed.map Prod.fst ++ s.taskList = s.queued := by
  have h := ho.order
  rwa [hpc, show (LoopPc.outside : LoopPc α).batch = [] from rfl, List.append_nil] at h

theorem complete_of_clean {n : Nat} (ho : s.Ordered) (hpc : s.pc = .outside) (hreach : n ≤ s.reach)
    (hclean : s.Clean n) : s.Complete n := by
  have hlen : n ≤ (s.executed.map Prod.fst).length := by
    rw [reach_of_pc hpc] at hreach
    simpa [LoopPc.batch, LoopPc.awake] using hreach
  intro k e hk hwhich
  have hkn : k < n := by
    rcases hwhich with hkn | htask
    · exact hkn
    · by_contra hge
      have hmem : e ∈ s.queued.drop n := by
        refine List.mem_of_getElem? (i := k - n) ?_
        rw [List.getElem?_drop, Nat.add_sub_cancel' (Nat.le_of_not_lt hge), hk]
      exact hclean.2 e hmem htask
  rwa [← queued_of_outside ho hpc,
    List.getElem?_append_left (Nat.lt_of_lt_of_le hkn hlen)] at hk

theorem not_complete_of_leftBehind {n : Nat} (ho : s.Ordered) (hpc : s.pc = .outside)
    (h : s.LeftBehind) : ¬ s.Complete n := by
  obtain ⟨-, e, he, htask⟩ := h
  obtain ⟨j, hj⟩ := List.getElem?_of_mem he
  intro hc
  have hk := hc ((s.executed.map Prod.fst).length + j) e ?_ (.inr htask)
  · rw [List.getElem?_eq_none (Nat.le_add_right _ _)] at hk
    cases hk
  · rw [← queued_of_outside ho hpc, List.getElem?_append_right (Nat.le_add_right _ _),
      Nat.add_sub_cancel_left, hj]

end Return

theorem not_queuesInTask_of_complete {s t : Loop α} {is : List (Input α)} {n : Nat}
    (ho : s.Ordered) (hl : s.Leaving) (hcall : ∀ i ∈ is, i ≠ .callLoop)
    (hrun : Machine.run step s is = some t) (hpc : t.pc = .outside) (hc : t.Complete n) :
    Machine.Along step (fun s i => ¬ QueuesInTask s i) s is := by
  induction is generalizing s with
  | nil => trivial
  | cons i is ih =>
    obtain ⟨m, hm, hrest⟩ := Machine.run_cons_iff.mp hrun
    have hn := step_next hm
    have hl' := step_leaving hl (hcall i List.mem_cons_self) hn
    have hcall' : ∀ j ∈ is, j ≠ .callLoop := fun j hj => hcall j (List.mem_cons_of_mem i hj)
    have ho' := step_ordered ho hn
    refine ⟨fun hq => ?_, fun m' hm' => ?_⟩
    · -- From here on the task stays in the queue.
      have hend := Machine.run_invariant_of_mem
        (P := fun s => s.Ordered ∧ s.Leaving ∧ s.LeftBehind) (G := fun i => i ≠ .callLoop)
        (fun h hi hs => ⟨step_ordered h.1 (step_next hs), step_leaving h.2.1 hi (step_next hs),
          step_leftBehind h.2.1 h.2.2 (step_next hs)⟩)
        ⟨ho', hl', leftBehind_of_queuesInTask hq hn⟩ hcall' hrest
      exact not_complete_of_leftBehind hend.1 hpc hend.2.2 hc
    · obtain rfl : m = m' := Option.some.inj (hm.symm.trans hm')
      exact ih ho' hl' hcall' hrest

/-- **`Loop` leaves work behind exactly when a task of its last batch queues.** From the
last `DoPendingTasks` of a call of `Loop` to its return, every task queued before that
call and every task queued by its tasks is run if and only if none of its tasks calls
`QueueInLoop` on the loop. -/
theorem loop_complete_iff (α : Type) (needWakeup : Bool) (is js : List (Input α))
    (s₀ s : Loop α) (hr₀ : Machine.run step (new α needWakeup) is = some s₀)
    (hpc₀ : s₀.pc = .draining true) (hcall : ∀ i ∈ js, i ≠ .callLoop)
    (hr : Machine.run step s₀ js = some s) (hpc : s.pc = .outside) :
    s.Complete s₀.queued.length ↔
      Machine.Along step (fun s i => ¬ QueuesInTask s i) s₀ js := by
  have ho₀ := Machine.run_invariant (fun h hs => step_ordered h (step_next hs))
    (ordered_new α needWakeup) hr₀
  have hl₀ : s₀.Leaving := .inl (by rw [hpc₀]; rfl)
  refine ⟨not_queuesInTask_of_complete ho₀ hl₀ hcall hr hpc, fun hg => ?_⟩
  have hreach₀ : s₀.queued.length ≤ s₀.reach := by
    have horder := congrArg List.length ho₀.order
    rw [reach, ← horder, hpc₀]
    simp [LoopPc.batch, LoopPc.awake]
  have hclean₀ : s₀.Clean s₀.queued.length := by
    refine ⟨Nat.le_refl _, fun e he => ?_⟩
    rw [List.drop_length] at he
    cases he
  have hend := Machine.run_invariant_along
    (P := fun s => s.Ordered ∧ s₀.queued.length ≤ s.reach ∧ s.Clean s₀.queued.length)
    (fun h hg hs => ⟨step_ordered h.1 (step_next hs), Nat.le_trans h.2.1 (reach_mono (step_next hs)),
      step_clean h.2.2 hg (step_next hs)⟩) ⟨ho₀, hreach₀, hclean₀⟩ hg hr
  exact complete_of_clean hend.1 hpc hend.2.1 hend.2.2

/-- Two tasks wait when `quit_` is seen, and neither queues another one. -/
theorem loop_complete_iff_two_tasks : ∃ s₀ s : Loop Nat,
    Machine.run step (new Nat false)
      [.callLoop, .clearQuit, .push 1, .push 2, .quit, .test] = some s₀ ∧
    s₀.pc = .draining true ∧
    Machine.run step s₀
      [.beginTasks, .swap, .runTask, .taskReturns, .push 3, .runTask, .taskReturns, .endTasks] =
      some s ∧
    s.pc = .outside ∧ s.Complete s₀.queued.length := by
  obtain ⟨s₀, hr₀, hpc₀⟩ := Option.map_eq_some_iff.mp (show (Machine.run step (new Nat false)
      [.callLoop, .clearQuit, .push 1, .push 2, .quit, .test]).map (·.pc) = some (.draining true)
      by decide +kernel)
  have hrest : ((Machine.run step (new Nat false)
      [.callLoop, .clearQuit, .push 1, .push 2, .quit, .test]).bind fun s₀ => (Machine.run step s₀
      [.beginTasks, .swap, .runTask, .taskReturns, .push 3, .runTask, .taskReturns,
       .endTasks])).map (·.pc) = some .outside := by decide +kernel
  have hgood : ∀ s₀ ∈ Machine.run step (new Nat false)
      [.callLoop, .clearQuit, .push 1, .push 2, .quit, .test],
      Machine.Along step (fun s i => ¬ QueuesInTask s i) s₀
      [.beginTasks, .swap, .runTask, .taskReturns, .push 3, .runTask, .taskReturns,
       .endTasks] := by decide +kernel
  rw [hr₀, Option.bind_some] at hrest
  obtain ⟨s, hr, hpc⟩ := Option.map_eq_some_iff.mp hrest
  refine ⟨s₀, s, hr₀, hpc₀, hr, hpc, ?_⟩
  exact (loop_complete_iff Nat false _ _ s₀ s hr₀ hpc₀ (by decide) hr hpc).mpr (hgood s₀ hr₀)

/-- The connection of a client is closed by the last batch: `ForceCloseInLoop` queues the
`ConnectionDestroy`, which is left in the queue, and the connection is in DISCONNECTING. -/
theorem loop_leaves_connectionDestroy : ∃ (w : Connection) (s₀ s : Loop ConnTask),
    (Connection.new (Epoller.new 8 (· + 1)) 3 ⟨true, false, true, true, false⟩ .client 100
      ).connectionEstablished.runTask .forceCloseInLoop (.accepted 0) = w ∧
    w.taskList = [.connectionDestroy] ∧ w.state = .disconnecting ∧
    Machine.run step (new ConnTask false)
      [.callLoop, .clearQuit, .push .forceCloseInLoop, .quit, .test] = some s₀ ∧
    s₀.pc = .draining true ∧
    Machine.run step s₀
      [.beginTasks, .swap, .runTask, .queueInLoop .connectionDestroy, .taskReturns, .endTasks] =
      some s ∧
    s.pc = .outside ∧ s.looping = false ∧ s.taskList.map (·.task) = [.connectionDestroy] ∧
    ¬ s.Complete s₀.queued.length := by
  obtain ⟨s₀, hr₀, hpc₀⟩ := Option.map_eq_some_iff.mp (show (Machine.run step (new ConnTask false)
      [.callLoop, .clearQuit, .push .forceCloseInLoop, .quit, .test]).map (·.pc) =
      some (.draining true) by decide +kernel)
  have hrest : ((Machine.run step (new ConnTask false)
      [.callLoop, .clearQuit, .push .forceCloseInLoop, .quit, .test]).bind fun s₀ =>
      (Machine.run step s₀ [.beginTasks, .swap, .runTask, .queueInLoop .connectionDestroy,
       .taskReturns, .endTasks])).map (fun s => (s.pc, s.looping, s.taskList, s.queued, s.executed))
      = some (.outside, false, [⟨.connectionDestroy, .task, some 1⟩],
        [⟨.forceCloseInLoop, .other, none⟩, ⟨.connectionDestroy, .task, some 1⟩],
        [(⟨.forceCloseInLoop, .other, none⟩, 1)]) := rfl
  rw [hr₀, Option.bind_some] at hrest
  obtain ⟨s, hr, hobs⟩ := Option.map_eq_some_iff.mp hrest
  simp only [Prod.mk.injEq] at hobs
  obtain ⟨hpc, hlooping, htasks, hqueued, hexecuted⟩ := hobs
  refine ⟨_, s₀, s, rfl, rfl, rfl, hr₀, hpc₀, hr, hpc, hlooping, by rw [htasks]; rfl, fun hc => ?_⟩
  have hrun := hc 1 ⟨.connectionDestroy, .task, some 1⟩ (by rw [hqueued]; rfl) (.inr rfl)
  rw [hexecuted] at hrun
  cases hrun

end Loop

end LinuxNet
