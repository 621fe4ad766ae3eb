import LinuxNet.Loop.Tasks

/-!
# No lost wakeup

A loop blocked in `Poll` with work to do is about to return. The work is announced by the
counter of the eventfd or by a thread on its way to `Wakeup`. Only `HandleWakeup` takes
an announcement back, and behind it the iteration still has its `DoPendingTasks` and the
test of `quit_` to come.
-/

namespace LinuxNet

set_option autoImplicit false

open LinuxNet.Lib

/-- Inside of `DoPendingTasks`, where `need_wakup_` is set. -/
def LoopPc.inTasks {α : Type} : LoopPc α → Bool
  | .swapping _ | .between _ _ | .inTask _ _ => true
  | _ => false

namespace Loop

variable {α : Type}

/-- The eventfd is readable, or a thread is between its push or its setting of `quit_`
and its `Wakeup`. -/
def Announced (s : Loop α) : Prop :=
  s.counter ≠ 0 ∨ 0 < s.inFlight

/-- Some task in the queue was not put there by the loop's thread outside of `Loop`. -/
def Waiting (s : Loop α) : Prop :=
  ∃ e ∈ s.taskList, e.origin ≠ .outside

structure Woken (s : Loop α) : Prop where
  flag : s.pc.inTasks = true → s.needWakeup = true
  quit : s.pc = .polling → s.quit = true → s.Announced
  tasks : s.pc.awake = false → s.Waiting → s.Announced

theorem woken_new (α : Type) (needWakeup : Bool) : (new α needWakeup).Woken := by
  constructor <;> simp [new, LoopPc.inTasks, Waiting]

section Wakeup

variable {s s' : Loop α} {i : Input α}

theorem wakeup_counter (s : Loop α) : s.wakeup.counter ≠ 0 := by
  unfold wakeup
  dsimp only
  split <;> omega

theorem not_waiting_of_nil (h : s.taskList = []) : ¬ s.Waiting := by
  rintro ⟨e, he, -⟩
  rw [h] at he
  cases he

/-- A push behind which the eventfd is readable. -/
theorem Woken.pushed (h : s.Woken) (hpc : s'.pc = s.pc) (hw : s'.needWakeup = s.needWakeup)
    (ha : s'.Announced) : s'.Woken := by
  refine ⟨?_, fun _ _ => ha, fun _ _ => ha⟩
  rw [hpc, hw]
  exact h.flag

/-- The thread of the loop moves on; the queue and the announcements stay. -/
theorem Woken.move (h : s.Woken) (ht : s'.taskList = s.taskList) (hc : s'.counter = s.counter)
    (hf : s'.inFlight = s.inFlight) (hflag : s'.pc.inTasks = true → s'.needWakeup = true)
    (hquit : s'.pc = .polling → s'.quit = false)
    (hawake : s'.pc.awake = false → s.pc.awake = false) : s'.Woken := by
  refine ⟨hflag, fun hpc hq => ?_, fun ha hwait => ?_⟩
  · rw [hquit hpc] at hq
    cases hq
  · unfold Announced
    rw [hc, hf]
    refine h.tasks (hawake ha) ?_
    unfold Waiting at hwait
    rwa [ht] at hwait

theorem Woken.queueInLoop (h : s.Woken) {o : Origin} (ho : s.pc.origin? = some o) (t : α) :
    (s.queueInLoop t o).Woken := by
  unfold Loop.queueInLoop
  dsimp only
  split
  · exact h.pushed rfl rfl (.inl (wakeup_counter _))
  · rename_i hflag
    have hflag : ¬ s.needWakeup = true := hflag
    refine ⟨h.flag, h.quit, fun ha hwait => ?_⟩
    obtain ⟨e, he, horigin⟩ := hwait
    rcases List.mem_append.mp he with hold | hnew
    · exact h.tasks ha ⟨e, hold, horigin⟩
    · -- Without `need_wakup_` the new task comes from a handler or from outside of `Loop`.
      rw [List.mem_singleton] at hnew
      subst hnew
      rcases hpc : s.pc with _ | _ | _ | _ | _ | _ | _ | _ | _ <;> rw [hpc] at ho <;>
        simp only [LoopPc.origin?, Option.some.injEq, reduceCtorEq] at ho
      · exact absurd ho.symm horigin
      · rw [show (s.push t o).pc = s.pc from rfl, hpc] at ha
        cases ha
      · exact absurd (h.flag (by rw [hpc]; rfl)) hflag

theorem step_woken (h : s.Woken) (hn : s.Next i s') : s'.Woken := by
  cases hn with
  | callLoop hpc => exact h.move rfl rfl rfl nofun nofun (fun _ => by rw [hpc]; rfl)
  | clearQuit hpc => exact h.move rfl rfl rfl nofun nofun (fun _ => by rw [hpc]; rfl)
  | leave hpc => exact h.move rfl rfl rfl nofun nofun nofun
  | poll hpc hquit => exact h.move rfl rfl rfl nofun (fun _ => hquit) (fun _ => by rw [hpc]; rfl)
  | pollReturns => exact h.move rfl rfl rfl nofun nofun nofun
  | handleWakeup => exact ⟨nofun, nofun, nofun⟩
  | handled => exact h.move rfl rfl rfl nofun nofun nofun
  | beginTasks => exact h.move rfl rfl rfl (fun _ => rfl) nofun nofun
  | swap hpc =>
    have hflag : s.needWakeup = true := h.flag (by rw [hpc]; rfl)
    exact ⟨fun _ => hflag, nofun, fun _ hwait => absurd hwait (not_waiting_of_nil rfl)⟩
  | runTask hpc =>
    have hflag : s.needWakeup = true := h.flag (by rw [hpc]; rfl)
    exact h.move rfl rfl rfl (fun _ => hflag) nofun (fun _ => by rw [hpc]; rfl)
  | taskReturns hpc =>
    have hflag : s.needWakeup = true := h.flag (by rw [hpc]; rfl)
    exact h.move rfl rfl rfl (fun _ => hflag) nofun (fun _ => by rw [hpc]; rfl)
  | @endTasks final hpc =>
    have hawake : s.pc.awake = false := by rw [hpc]; rfl
    unfold Loop.endTasks
    cases final with
    | true => exact h.move rfl rfl rfl nofun nofun (fun _ => hawake)
    | false => exact h.move rfl rfl rfl nofun nofun (fun _ => hawake)
  | queueInLoop ho => exact h.queueInLoop ho _
  | quitInLoop ho =>
    refine ⟨h.flag, fun hpc _ => ?_, h.tasks⟩
    have hpc : s.pc = .polling := hpc
    rw [hpc] at ho
    cases ho
  | push => exact h.pushed rfl rfl (.inr (Nat.succ_pos _))
  | quit => exact h.pushed rfl rfl (.inr (Nat.succ_pos _))
  | wakeup => exact h.pushed rfl rfl (.inl (wakeup_counter s))

end Wakeup

/-- **No lost wakeup.** Whenever the loop is blocked in `Poll` with `quit_` set, or with
tasks in the queue not all of which its own thread put there outside of `Loop`, the
eventfd is readable or another thread has its `Wakeup` still to come. -/
theorem no_lost_wakeup (α : Type) (needWakeup : Bool) (is : List (Input α)) (s : Loop α)
    (hr : Machine.run step (new α needWakeup) is = some s) (hpc : s.pc = .polling) :
    (s.quit = true → s.counter ≠ 0 ∨ 0 < s.inFlight) ∧
      (s.taskList ≠ [] →
        s.counter ≠ 0 ∨ 0 < s.inFlight ∨ ∀ e ∈ s.taskList, e.origin = .outside) := by
  have h := Machine.run_invariant (fun h hs => step_woken h (step_next hs))
    (woken_new α needWakeup) hr
  refine ⟨h.quit hpc, fun _ => ?_⟩
  by_cases hwait : s.Waiting
  · rcases h.tasks (by rw [hpc]; rfl) hwait with hc | hf
    · exact .inl hc
    · exact .inr (.inl hf)
  · refine .inr (.inr fun e he => ?_)
    by_contra horigin
    exact hwait ⟨e, he, horigin⟩

/-- A task queues another one while a thread is between its push and its `Wakeup`; the
loop goes to `Poll` with both in the queue. -/
theorem no_lost_wakeup_behind_task : ∃ s : Loop Nat,
    Machine.run step (new Nat false)
      [.queueInLoop 0, .callLoop, .clearQuit, .test, .pollReturns false, .handled, .beginTasks,
       .swap, .runTask, .queueInLoop 1, .push 2, .taskReturns, .endTasks, .test] = some s ∧
    s.pc = .polling ∧ s.taskList ≠ [] ∧
    (s.counter ≠ 0 ∨ 0 < s.inFlight ∨ ∀ e ∈ s.taskList, e.origin = .outside) := by
  obtain ⟨s, hr, hobs⟩ := Option.map_eq_some_iff.mp (show (Machine.run step (new Nat false)
      [.queueInLoop 0, .callLoop, .clearQuit, .test, .pollReturns false, .handled, .beginTasks,
       .swap, .runTask, .queueInLoop 1, .push 2, .taskReturns, .endTasks, .test]).map
      (fun s => (s.pc, s.taskList.length)) = some (.polling, 2) by decide +kernel)
  simp only [Prod.mk.injEq] at hobs
  have hne : s.taskList ≠ [] := by
    intro hnil
    rw [hnil] at hobs
    cases hobs.2
  exact ⟨s, hr, hobs.1, hne, (no_lost_wakeup Nat false _ s hr hobs.1).2 hne⟩

end Loop

end LinuxNet
