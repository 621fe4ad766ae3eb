import LinuxNet.Loop.Model

/-!
# The order of the tasks

`Next` says what a step of the loop or of another thread can be. The queue is emptied by
a swap only, and the batch it becomes is run from its front, so the tasks started, the
rest of the batch and the queue are at all times the tasks queued, in the order of the
lock acquisitions. A task queued during a round is behind the swap of that round and
waits for the next one.
-/

namespace LinuxNet

set_option autoImplicit false

open LinuxNet.Lib

namespace Loop

variable {α : Type}

/-! ## Steps -/

/-- What a step can be, with all that is known when it is taken. -/
inductive Next (s : Loop α) : Input α → Loop α → Prop where
  | callLoop (hpc : s.pc = .outside) :
      Next s .callLoop { s with looping := true, pc := .starting }
  | clearQuit (hpc : s.pc = .starting) :
      Next s .clearQuit { s with quit := false, pc := .testing }
  | leave (hpc : s.pc = .testing) (hquit : s.quit = true) :
      Next s .test (s.setPc (.draining true))
  | poll (hpc : s.pc = .testing) (hquit : s.quit = false) : Next s .test (s.setPc .polling)
  | pollReturns {wakeup : Bool} (hpc : s.pc = .polling)
      (hready : wakeup = true → s.counter ≠ 0) :
      Next s (.pollReturns wakeup) (s.setPc (.handling wakeup))
  | handleWakeup (hpc : s.pc = .handling true) :
      Next s .handleWakeup (s.handleWakeup.setPc (.handling false))
  | handled {wakeup : Bool} (hpc : s.pc = .handling wakeup) :
      Next s .handled (s.setPc (.draining false))
  | beginTasks {final : Bool} (hpc : s.pc = .draining final) :
      Next s .beginTasks { s with needWakeup := true, pc := .swapping final }
  | swap {final : Bool} (hpc : s.pc = .swapping final) : Next s .swap (s.swap final)
  | runTask {e : Queued α} {rest : List (Queued α)} {final : Bool}
      (hpc : s.pc = .between (e :: rest) final) :
      Next s .runTask
        { s with executed := s.executed ++ [(e, s.round)], pc := .inTask rest final }
  | taskReturns {rest : List (Queued α)} {final : Bool} (hpc : s.pc = .inTask rest final) :
      Next s .taskReturns (s.setPc (.between rest final))
  | endTasks {final : Bool} (hpc : s.pc = .between [] final) :
      Next s .endTasks (s.endTasks final)
  | queueInLoop {t : α} {o : Origin} (ho : s.pc.origin? = some o) :
      Next s (.queueInLoop t) (s.queueInLoop t o)
  | quitInLoop {o : Origin} (ho : s.pc.origin? = some o) :
      Next s .quitInLoop { s with quit := true }
  | push {t : α} : Next s (.push t) { s.push t .other with inFlight := s.inFlight + 1 }
  | quit : Next s .quit { s with quit := true, inFlight := s.inFlight + 1 }
  | wakeup (hf : 0 < s.inFlight) :
      Next s .wakeup { s.wakeup with inFlight := s.inFlight - 1 }

theorem step_next {s s' : Loop α} {i : Input α} (h : s.step i = some s') : s.Next i s' := by
  cases i with
  | callLoop =>
    simp only [step] at h
    split at h <;> cases h
    exact .callLoop ‹_›
  | clearQuit =>
    simp only [step] at h
    split at h <;> cases h
    exact .clearQuit ‹_›
  | test =>
    simp only [step] at h
    split at h <;> cases h
    rename_i hpc
    cases hquit : s.quit with
    | true => exact .leave hpc hquit
    | false => exact .poll hpc hquit
  | pollReturns wakeup =>
    simp only [step] at h
    split at h
    · rename_i hpc
      split at h <;> cases h
      rename_i hready
      exact .pollReturns hpc (by simpa using hready)
    · cases h
  | handleWakeup =>
    simp only [step] at h
    split at h <;> cases h
    exact .handleWakeup ‹_›
  | handled =>
    simp only [step] at h
    split at h <;> cases h
    exact .handled ‹_›
  | beginTasks =>
    simp only [step] at h
    split at h <;> cases h
    exact .beginTasks ‹_›
  | swap =>
    simp only [step] at h
    split at h <;> cases h
    exact .swap ‹_›
  | runTask =>
    simp only [step] at h
    split at h <;> cases h
    exact .runTask ‹_›
  | taskReturns =>
    simp only [step] at h
    split at h <;> cases h
    exact .taskReturns ‹_›
  | endTasks =>
    simp only [step] at h
    split at h <;> cases h
    exact .endTasks ‹_›
  | queueInLoop t =>
    simp only [step] at h
    split at h <;> cases h
    exact .queueInLoop ‹_›
  | quitInLoop =>
    simp only [step] at h
    split at h <;> cases h
    exact .quitInLoop ‹_›
  | push t =>
    cases h
    exact .push
  | quit =>
    cases h
    exact .quit
  | wakeup =>
    simp only [step] at h
    split at h <;> cases h
    exact .wakeup ‹_›

/-- Behind the while loop `Loop` can only return. -/
theorem Next.final_kept {s s' : Loop α} {i : Input α} (h : s.Next i s') (hf : s.pc.final = true) :
    s'.pc.final = true ∨ s'.pc = .outside := by
  cases h with
  | callLoop hpc => rw [hpc] at hf; cases hf
  | clearQuit hpc => rw [hpc] at hf; cases hf
  | leave => exact .inl rfl
  | poll hpc => rw [hpc] at hf; cases hf
  | pollReturns hpc => rw [hpc] at hf; cases hf
  | handleWakeup hpc => rw [hpc] at hf; cases hf
  | handled hpc => rw [hpc] at hf; cases hf
  | beginTasks hpc => rw [hpc] at hf; exact .inl hf
  | swap hpc => rw [hpc] at hf; exact .inl hf
  | runTask hpc => rw [hpc] at hf; exact .inl hf
  | taskReturns hpc => rw [hpc] at hf; exact .inl hf
  | @endTasks final hpc =>
    rw [hpc] at hf
    have hf : final = true := hf
    rw [hf]
    exact .inr rfl
  | queueInLoop => rw [queueInLoop_pc]; exact .inl hf
  | _ => exact .inl hf

/-! ## The order -/

/-- The tasks started, the rest of the batch and the queue are the tasks queued, and no
task was started in the round during which it was queued. -/
structure Ordered (s : Loop α) : Prop where
  order : s.executed.map Prod.fst ++ s.pc.batch ++ s.taskList = s.queued
  later : ∀ x ∈ s.executed, x.1.round ≠ some x.2
  batch : ∀ e ∈ s.pc.batch, ∀ n, e.round = some n → n < s.round
  waiting : ∀ e ∈ s.taskList, ∀ n, e.round = some n → n ≤ s.round

theorem ordered_new (α : Type) (needWakeup : Bool) : (new α needWakeup).Ordered := by
  constructor <;> simp [new, LoopPc.batch]

section Order

variable {s s' : Loop α} {i : Input α}

/-- `Ordered` reads the four lists and the number of the round. -/
theorem Ordered.congr (h : s.Ordered) (he : s'.executed = s.executed)
    (hb : s'.pc.batch = s.pc.batch) (ht : s'.taskList = s.taskList) (hq : s'.queued = s.queued)
    (hr : s'.round = s.round) : s'.Ordered := by
  constructor
  · rw [he, hb, ht, hq]
    exact h.order
  · rw [he]
    exact h.later
  · rw [hb, hr]
    exact h.batch
  · rw [ht, hr]
    exact h.waiting

theorem Ordered.push (h : s.Ordered) (t : α) (o : Origin) : (s.push t o).Ordered := by
  refine ⟨?_, h.later, h.batch, ?_⟩
  · change s.executed.map Prod.fst ++ s.pc.batch ++ (s.taskList ++ _) = s.queued ++ _
    rw [← List.append_assoc, h.order]
  · intro e he n hn
    rcases List.mem_append.mp he with hold | hnew
    · exact h.waiting e hold n hn
    · rw [List.mem_singleton] at hnew
      subst hnew
      by_cases hin : s.pc.inRound = true
      · simp only [hin, ↓reduceIte, Option.some.injEq] at hn
        exact Nat.le_of_eq hn.symm
      · simp [hin] at hn

theorem Ordered.queueInLoop (h : s.Ordered) (t : α) (o : Origin) : (s.queueInLoop t o).Ordered := by
  unfold Loop.queueInLoop
  dsimp only
  split
  · exact (h.push t o).congr rfl rfl rfl rfl rfl
  · exact h.push t o

theorem Ordered.swap (h : s.Ordered) (hb : s.pc.batch = []) (final : Bool) :
    (s.swap final).Ordered := by
  refine ⟨?_, h.later, ?_, by simp [Loop.swap]⟩
  · have horder := h.order
    rw [hb, List.append_nil] at horder
    simpa [Loop.swap, LoopPc.batch] using horder
  · intro e he n hn
    exact Nat.lt_succ_of_le (h.waiting e he n hn)

theorem Ordered.runTask (h : s.Ordered) {e : Queued α} {rest : List (Queued α)} {final : Bool}
    (hpc : s.pc = .between (e :: rest) final) :
    Ordered { s with executed := s.executed ++ [(e, s.round)], pc := .inTask rest final } := by
  have hbatch : s.pc.batch = e :: rest := by rw [hpc]; rfl
  have horder := h.order
  have hround := h.batch
  rw [hbatch] at horder hround
  refine ⟨?_, ?_, fun e' he' => hround e' (List.mem_cons_of_mem e he'), h.waiting⟩
  · simpa [LoopPc.batch] using horder
  · intro x hx hn
    rcases List.mem_append.mp hx with hold | hnew
    · exact h.later x hold hn
    · rw [List.mem_singleton] at hnew
      subst hnew
      exact Nat.lt_irrefl _ (hround e List.mem_cons_self s.round hn)

theorem step_ordered (h : s.Ordered) (hn : s.Next i s') : s'.Ordered := by
  cases hn with
  | swap hpc => exact h.swap (by rw [hpc]; rfl) _
  | runTask hpc => exact h.runTask hpc
  | @endTasks final hpc =>
    unfold Loop.endTasks
    dsimp only
    split <;> exact h.congr rfl (by rw [hpc]; rfl) rfl rfl rfl
  | queueInLoop => exact h.queueInLoop _ _
  | push => exact (h.push _ _).congr rfl rfl rfl rfl rfl
  | quitInLoop => exact h.congr rfl rfl rfl rfl rfl
  | quit => exact h.congr rfl rfl rfl rfl rfl
  | wakeup => exact h.congr rfl rfl rfl rfl rfl
  | callLoop hpc => exact h.congr rfl (by rw [hpc]; rfl) rfl rfl rfl
  | clearQuit hpc => exact h.congr rfl (by rw [hpc]; rfl) rfl rfl rfl
  | leave hpc => exact h.congr rfl (by rw [hpc]; rfl) rfl rfl rfl
  | poll hpc => exact h.congr rfl (by rw [hpc]; rfl) rfl rfl rfl
  | pollReturns hpc => exact h.congr rfl (by rw [hpc]; rfl) rfl rfl rfl
  | handleWakeup hpc => exact h.congr rfl (by rw [hpc]; rfl) rfl rfl rfl
  | handled hpc => exact h.congr rfl (by rw [hpc]; rfl) rfl rfl rfl
  | beginTasks hpc => exact h.congr rfl (by rw [hpc]; rfl) rfl rfl rfl
  | taskReturns hpc => exact h.congr rfl (by rw [hpc]; rfl) rfl rfl rfl

end Order

/-- **Every task is run once, in the order of the lock acquisitions.** After any steps of
the loop and of the other threads, the tasks started by `DoPendingTasks`, the rest of
the batch and the queue are together the tasks queued, and no task was started in the
round that was running when it was queued. -/
theorem tasks_in_order (α : Type) (needWakeup : Bool) (is : List (Input α)) (s : Loop α)
    (hr : Machine.run step (new α needWakeup) is = some s) :
    s.executed.map Prod.fst ++ s.pc.batch ++ s.taskList = s.queued ∧
      ∀ x ∈ s.executed, x.1.round ≠ some x.2 := by
  have h := Machine.run_invariant (fun h hs => step_ordered h (step_next hs))
    (ordered_new α needWakeup) hr
  exact ⟨h.order, h.later⟩

/-- A task of the loop queues another one behind that of a thread; the thread's is run in
the same round, the other waits for the next. -/
theorem tasks_in_order_queued_by_task : ∃ s : Loop Nat,
    Machine.run step (new Nat false)
      [.callLoop, .clearQuit, .test, .push 1, .pollReturns false, .handled, .beginTasks, .push 2,
       .swap, .runTask, .queueInLoop 3, .push 4, .taskReturns, .runTask] = some s ∧
    s.executed.map (fun x => x.1.task) = [1, 2] ∧ s.taskList.map (·.task) = [3, 4] ∧
    s.executed.map Prod.fst ++ s.pc.batch ++ s.taskList = s.queued := by
  obtain ⟨s, hr, hobs⟩ := Option.map_eq_some_iff.mp (show (Machine.run step (new Nat false)
      [.callLoop, .clearQuit, .test, .push 1, .pollReturns false, .handled, .beginTasks, .push 2,
       .swap, .runTask, .queueInLoop 3, .push 4, .taskReturns, .runTask]).map
      (fun s => (s.executed.map (fun x => x.1.task), s.taskList.map (·.task))) =
      some ([1, 2], [3, 4]) by decide +kernel)
  simp only [Prod.mk.injEq] at hobs
  exact ⟨s, hr, hobs.1, hobs.2, (tasks_in_order Nat false _ s hr).1⟩

end Loop

end LinuxNet
