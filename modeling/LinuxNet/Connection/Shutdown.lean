import LinuxNet.Connection.Stream

/-!
# Shutting down the write side

`ShutdownWriteInLoop` does nothing while the write interest is on, and nothing remembers
that it was called: `HandleWrite` turns the interest off behind the last byte and is done.
So `shutdown(SHUT_WR)` is issued exactly by the calls that find nothing pending.
-/

namespace LinuxNet

set_option autoImplicit false

open LinuxNet.Lib

namespace Connection

/-- The step executes `ShutdownWriteInLoop` in state CONNECTED. -/
def ShutsDown (w : Connection) (i : Input) : Prop :=
  w.state = .connected ∧ i.isTask = true ∧ w.taskList.head? = some .shutdownWriteInLoop

/-- It does so while no output is pending. -/
def ShutsDownIdle (w : Connection) (i : Input) : Prop :=
  ShutsDown w i ∧ w.isWriting = false

instance (w : Connection) (i : Input) : Decidable (ShutsDown w i) :=
  inferInstanceAs (Decidable (_ ∧ _))

instance (w : Connection) (i : Input) : Decidable (ShutsDownIdle w i) :=
  inferInstanceAs (Decidable (_ ∧ _))

/-- A shutdown executed in the run from `s` has taken effect in `w`, unless output is
pending or the connection is closed. -/
def Honoured (s : Connection) (ins : List Input) (w : Connection) : Prop :=
  Machine.Sometime step ShutsDown s ins → w.state = .connected →
    w.bufferOutput.readableBytes = 0 → w.shutWr = true

/-! ## Steps and runs -/

section Steps

variable {w t : Connection} {i : Input}

theorem shutWr_iff_of_eq (h : t.shutWr = w.shutWr) (hi : ¬ ShutsDown w i) :
    t.shutWr = true ↔ w.shutWr = true ∨ ShutsDownIdle w i := by
  rw [h]
  exact ⟨.inl, fun hor => hor.resolve_right fun hidle => hi hidle.1⟩

theorem task_shutWr {task : ConnTask} {rest : List ConnTask} {r : SendResult}
    (hlist : w.taskList = task :: rest)
    (hc : (runTask { w with taskList := rest } task r).state = .connected) :
    (runTask { w with taskList := rest } task r).shutWr = true ↔
      w.shutWr = true ∨ ShutsDownIdle w (.task r) := by
  have hother : task ≠ .shutdownWriteInLoop → ¬ ShutsDown w (.task r) := by
    rintro hne ⟨-, -, hhead⟩
    rw [hlist] at hhead
    exact hne (Option.some.inj hhead)
  cases task with
  | sendInLoop dat =>
    exact shutWr_iff_of_eq (send_frame { w with taskList := rest } dat r).shutWr (hother (by simp))
  | shutdownWriteInLoop =>
    have hhead : w.taskList.head? = some .shutdownWriteInLoop := by rw [hlist]; rfl
    by_cases hoff : w.isWriting = false
    · have hshut : runTask { w with taskList := rest } .shutdownWriteInLoop r =
          { w with taskList := rest, shutWr := true } := if_pos hoff
      rw [hshut] at hc ⊢
      exact iff_of_true rfl (.inr ⟨⟨hc, rfl, hhead⟩, hoff⟩)
    · have hshut : runTask { w with taskList := rest } .shutdownWriteInLoop r =
          { w with taskList := rest } := if_neg hoff
      rw [hshut]
      exact ⟨.inl, fun hor => hor.resolve_right fun hidle => hoff hidle.2⟩
  | forceCloseInLoop =>
    simp only [runTask, forceCloseInLoop]
    split
    · exact shutWr_iff_of_eq rfl (hother (by simp))
    · exact shutWr_iff_of_eq (handleClose_frame _ false r).shutWr (hother (by simp))
  | connectionDestroy => exact shutWr_iff_of_eq rfl (hother (by simp))
  | writeComplete => exact shutWr_iff_of_eq rfl (hother (by simp))
  | highWaterMark n => exact shutWr_iff_of_eq rfl (hother (by simp))

/-- **One step.** -/
theorem step_shutWr (hn : w.Next i t) (hc : t.state = .connected) :
    t.shutWr = true ↔ w.shutWr = true ∨ ShutsDownIdle w i := by
  cases hn with
  | @event mask read r =>
    refine shutWr_iff_of_eq (handleEvent_frame (w.setRevents mask) read r).shutWr ?_
    exact fun h => absurd h.2.1 nofun
  | @retRead r =>
    exact shutWr_iff_of_eq (handleEventWrite_frame w r).shutWr (fun h => absurd h.2.1 nofun)
  | @retClose r inRead =>
    exact shutWr_iff_of_eq (handleCloseRest_frame w inRead r).shutWr (fun h => absurd h.2.1 nofun)
  | @send dat r =>
    exact shutWr_iff_of_eq (send_frame w dat r).shutWr (fun h => absurd h.2.1 nofun)
  | task _ hlist => exact task_shutWr hlist hc
  | _ => exact shutWr_iff_of_eq rfl (fun h => absurd h.2.1 nofun)

end Steps

theorem established_shutWr (p : Epoller) (c : ChanId) (cb : Callbacks) (rm : Remover) (ov : Nat) :
    (Connection.new p c cb rm ov).connectionEstablished.shutWr = false := by
  rw [connectionEstablished_eq]
  rfl

/-- **A shutdown is honoured exactly when one finds nothing pending.** After any run of an
established connection, a `ShutdownWriteInLoop` executed in state CONNECTED has led to
`shutdown(SHUT_WR)` by the time that the output is flushed if and only if one of those
executed found the write interest off. -/
theorem shutdown_honoured_iff (p : Epoller) (c : ChanId) (cb : Callbacks) (rm : Remover)
    (ov : Nat) (ins : List Input) (w : Connection)
    (hr : Machine.run step (Connection.new p c cb rm ov).connectionEstablished ins = some w) :
    Honoured (Connection.new p c cb rm ov).connectionEstablished ins w ↔
      (Machine.Sometime step ShutsDown (Connection.new p c cb rm ov).connectionEstablished ins →
        w.state = .connected → w.bufferOutput.readableBytes = 0 →
        Machine.Sometime step ShutsDownIdle
          (Connection.new p c cb rm ov).connectionEstablished ins) := by
  have hflag : w.state = .connected → (w.shutWr = true ↔ Machine.Sometime step ShutsDownIdle
      (Connection.new p c cb rm ov).connectionEstablished ins) := by
    intro hc
    have h := Machine.run_flag (C := fun w => w.state = .connected) (P := fun w => w.shutWr = true)
      (fun hs hc => (step_stream (step_next hs) hc).connected)
      (fun hs hc => step_shutWr (step_next hs) hc) hr hc
    rwa [established_shutWr, Bool.false_eq_true, false_or] at h
  refine ⟨fun h hreq hc hempty => (hflag hc).mp (h hreq hc hempty), ?_⟩
  exact fun h hreq hc hempty => (hflag hc).mpr (h hreq hc hempty)

/-- A shutdown requested by another thread, executed while nothing is pending. -/
theorem shutdown_honoured_iff_idle : ∃ w,
    Machine.run step (Connection.new (Epoller.new 8 (· + 1)) 3 ⟨false, false, false, false, false⟩
      .serverLoop 100).connectionEstablished
      [.call .shutdownWriteInLoop, .push 0, .send [65] (.accepted 1), .task (.error 0)] = some w ∧
    Honoured (Connection.new (Epoller.new 8 (· + 1)) 3 ⟨false, false, false, false, false⟩
      .serverLoop 100).connectionEstablished
      [.call .shutdownWriteInLoop, .push 0, .send [65] (.accepted 1), .task (.error 0)] w := by
  obtain ⟨w, hr⟩ := Option.isSome_iff_exists.mp (show (Machine.run step (Connection.new
      (Epoller.new 8 (· + 1)) 3 ⟨false, false, false, false, false⟩ .serverLoop
      100).connectionEstablished [.call .shutdownWriteInLoop, .push 0, .send [65] (.accepted 1),
      .task (.error 0)]).isSome = true by decide +kernel)
  refine ⟨w, hr, (shutdown_honoured_iff _ _ _ _ _ _ w hr).mpr fun _ _ _ => ?_⟩
  decide +kernel

/-- The request is executed while a byte is pending; the byte is flushed, and the write
side stays open. -/
theorem shutdown_forgotten : ∃ w,
    Machine.run step (Connection.new (Epoller.new 8 (· + 1)) 3 ⟨false, false, false, false, false⟩
      .serverLoop 100).connectionEstablished
      [.send [65] (.accepted 0), .call .shutdownWriteInLoop, .push 0, .task (.error 0),
       .event EPOLLOUT (.error 0) (.accepted 1)] = some w ∧
    w.state = .connected ∧ w.bufferOutput.readableBytes = 0 ∧ w.wire = [65] ∧ w.taskList = [] ∧
    w.shutWr = false ∧
    ¬ Honoured (Connection.new (Epoller.new 8 (· + 1)) 3 ⟨false, false, false, false, false⟩
      .serverLoop 100).connectionEstablished
      [.send [65] (.accepted 0), .call .shutdownWriteInLoop, .push 0, .task (.error 0),
       .event EPOLLOUT (.error 0) (.accepted 1)] w := by
  obtain ⟨w, hr, hobs⟩ := Option.map_eq_some_iff.mp (show (Machine.run step (Connection.new
      (Epoller.new 8 (· + 1)) 3 ⟨false, false, false, false, false⟩ .serverLoop
      100).connectionEstablished [.send [65] (.accepted 0), .call .shutdownWriteInLoop, .push 0,
      .task (.error 0), .event EPOLLOUT (.error 0) (.accepted 1)]).map
      (fun w => (w.state, w.bufferOutput.readableBytes, w.wire, w.taskList, w.shutWr)) =
      some (.connected, 0, [65], [], false) by decide +kernel)
  simp only [Prod.mk.injEq] at hobs
  obtain ⟨hc, hempty, hwire, htasks, hopen⟩ := hobs
  refine ⟨w, hr, hc, hempty, hwire, htasks, hopen, fun h => ?_⟩
  rw [h (by decide +kernel) hc hempty] at hopen
  cases hopen

end Connection

end LinuxNet
