import LinuxNet.Timer.Ownership

/-!
# Cancelling a timer

`CancelInLoop` finds a timer in the sets, or it is too late for the sets and the
timer is in the batch. A timer of the batch whose turn has passed is kept from
coming back by `canceling_timers_`; one whose turn is still to come is not skipped
by the loop of `HandleRead`. So a cancelled timer is never started again exactly when it
is not waiting in the batch.
-/

namespace LinuxNet

set_option autoImplicit false

open LinuxNet.Lib

namespace TimerQueue

/-- The addresses whose turn in the batch is still to come. -/
def Phase.waiting (p : Phase) : List Addr := p.rest.map fun e => (ofLex e).2

/-- The timer number `u` waits for its turn in the batch. -/
def Waiting (q : TimerQueue) (u : Nat) : Prop :=
  ∃ a t, q.heap a = some t ∧ t.uid = u ∧ a ∈ q.phase.waiting

/-- The timer has had its turn in the batch and is marked as cancelled. -/
def Condemned (q : TimerQueue) (u : Nat) : Prop :=
  ∃ a t, q.heap a = some t ∧ t.uid = u ∧ a ∈ q.phase.batch ∧ a ∉ q.phase.waiting ∧
    toLex (a, t.sequence) ∈ q.cancelingTimers

/-- Deleted, or about to be. -/
def Finished (q : TimerQueue) (u : Nat) : Prop := u ∈ q.deleted ∨ q.Condemned u

theorem Condemned.congr {q q' : TimerQueue} {u : Nat} (h : q.Condemned u)
    (hheap : ∀ a ∈ q.phase.batch, q'.heap a = q.heap a) (hph : q'.phase = q.phase)
    (hc : ∀ id ∈ q.cancelingTimers, id ∈ q'.cancelingTimers) : q'.Condemned u := by
  obtain ⟨a, t, ht, hu, hb, hw, hin⟩ := h
  rw [Condemned, hph]
  exact ⟨a, t, (hheap a hb).trans ht, hu, hb, hw, hc _ hin⟩

/-! ## The end of the batch -/

theorem resetEntry_other {ts : Timestamps} {now : Nat} {q : TimerQueue} {out : Set Addr}
    (h : q.Owns out) {e : Entry} (ha : (ofLex e).2 ∈ out) {b : Addr} (hb : b ≠ (ofLex e).2) :
    (resetEntry ts now q e).heap b = q.heap b := by
  obtain ⟨t, ht⟩ := Option.isSome_iff_exists.mp (h.indexed.allocated _ ha)
  rw [resetEntry_eq h.indexed ht ha]
  split
  · exact Function.update_of_ne hb ..
  · rw [delete_eq ht]
    exact Function.update_of_ne hb ..

/-- What `Reset` does not insert again: a timer fired once, or cancelled in its batch. -/
def Spent (q : TimerQueue) (a : Addr) (t : Timer) : Prop :=
  ¬ (t.repeat_ = true ∧ toLex (a, t.sequence) ∉ q.cancelingTimers)

theorem mem_resetEntry_deleted {ts : Timestamps} {now : Nat} {q : TimerQueue} {out : Set Addr}
    (h : q.Owns out) {e : Entry} (ha : (ofLex e).2 ∈ out) (u : Nat) :
    u ∈ (resetEntry ts now q e).deleted ↔ u ∈ q.deleted ∨
      ∃ t, q.heap (ofLex e).2 = some t ∧ t.uid = u ∧ q.Spent (ofLex e).2 t := by
  obtain ⟨t, ht⟩ := Option.isSome_iff_exists.mp (h.indexed.allocated _ ha)
  rw [resetEntry_eq h.indexed ht ha]
  by_cases hre : t.repeat_ = true ∧ toLex ((ofLex e).2, t.sequence) ∉ q.cancelingTimers
  · have hnot : ¬ q.Spent (ofLex e).2 t := not_not.mpr hre
    rw [if_pos hre]
    simp only [ht, Option.some.injEq, exists_eq_left', hnot, and_false, or_false]
    exact Iff.rfl
  · have hspent : q.Spent (ofLex e).2 t := hre
    rw [if_neg hre, delete_eq ht]
    simp only [ht, Option.some.injEq, exists_eq_left', hspent, and_true, List.mem_append,
      List.mem_singleton, eq_comm]

theorem mem_foldl_resetEntry_deleted (ts : Timestamps) (now : Nat) {l : List Entry}
    {q : TimerQueue} {out : Set Addr} (h : q.Owns out) (hin : ∀ e ∈ l, (ofLex e).2 ∈ out)
    (hnd : (l.map fun e => (ofLex e).2).Nodup) (u : Nat) :
    u ∈ (l.foldl (resetEntry ts now) q).deleted ↔ u ∈ q.deleted ∨
      ∃ e ∈ l, ∃ t, q.heap (ofLex e).2 = some t ∧ t.uid = u ∧ q.Spent (ofLex e).2 t := by
  induction l generalizing q out with
  | nil => simp
  | cons e l ih =>
    rw [List.map_cons, List.nodup_cons] at hnd
    have hout := hin e (by simp)
    obtain ⟨ho, hf⟩ := resetEntry_spec ts now h hout
    have hne : ∀ e' ∈ l, (ofLex e').2 ≠ (ofLex e).2 :=
      fun e' he' heq => hnd.1 (heq ▸ List.mem_map_of_mem he')
    rw [List.foldl_cons, ih ho (fun e' he' => ⟨hin e' (by simp [he']), hne e' he'⟩) hnd.2,
      mem_resetEntry_deleted h hout, List.exists_mem_cons_iff, or_assoc]
    -- the entries behind the first are as they were
    refine or_congr_right (or_congr_right (exists_congr fun e' => and_congr_right fun he' => ?_))
    rw [resetEntry_other h hout (hne e' he')]
    simp only [Spent, hf.canceling]

theorem foldl_resetEntry_other (ts : Timestamps) (now : Nat) {l : List Entry} {q : TimerQueue}
    {out : Set Addr} (h : q.Owns out) (hin : ∀ e ∈ l, (ofLex e).2 ∈ out)
    (hnd : (l.map fun e => (ofLex e).2).Nodup) {b : Addr} (hb : b ∉ l.map fun e => (ofLex e).2) :
    (l.foldl (resetEntry ts now) q).heap b = q.heap b := by
  induction l generalizing q out with
  | nil => rfl
  | cons e l ih =>
    rw [List.map_cons, List.nodup_cons] at hnd
    rw [List.map_cons, List.mem_cons, not_or] at hb
    have hout := hin e (by simp)
    have hne : ∀ e' ∈ l, (ofLex e').2 ≠ (ofLex e).2 :=
      fun e' he' heq => hnd.1 (heq ▸ List.mem_map_of_mem he')
    rw [List.foldl_cons, ih (resetEntry_spec ts now h hout).1
      (fun e' he' => ⟨hin e' (by simp [he']), hne e' he'⟩) hnd.2 hb.2, resetEntry_other h hout hb.1]

/-- The end of `Reset` arms the timerfd, and leaves the rest alone. -/
theorem reset_kept (ts : Timestamps) (now : Nat) {l : List Entry} {q : TimerQueue} {out : Set Addr}
    (h : q.Owns out) (hin : ∀ e ∈ l, (ofLex e).2 ∈ out)
    (hnd : (l.map fun e => (ofLex e).2).Nodup) :
    (q.reset ts l now).cancelingTimers = q.cancelingTimers ∧
      (q.reset ts l now).created = q.created ∧
      (q.reset ts l now).heap = (l.foldl (resetEntry ts now) q).heap := by
  obtain ⟨ho, hf⟩ := foldl_resetEntry ts now h hin hnd
  rw [reset_eq ho.indexed]
  split <;> exact ⟨hf.canceling, hf.created, rfl⟩

/-- What is deleted at the end of the batch. -/
theorem mem_finish_deleted (ts : Timestamps) {q : TimerQueue} (h : q.Good) {now : Nat}
    {expired : List Entry} (hph : q.phase = .firing now expired []) (u : Nat) :
    u ∈ (({ q with callingExpiredTimers := false } : TimerQueue).reset ts expired now).deleted ↔
      u ∈ q.deleted ∨ ∃ a ∈ q.phase.batch, ∃ t, q.heap a = some t ∧ t.uid = u ∧ q.Spent a t := by
  obtain ⟨h0, hin, hnd⟩ := h.batch_ready hph
  obtain ⟨_, _, _, hdeq⟩ := reset_frame ts now h0 hin hnd
  rw [hdeq, mem_foldl_resetEntry_deleted ts now h0 hin hnd, hph, Phase.batch_firing]
  refine or_congr_right ⟨?_, ?_⟩
  · rintro ⟨e, he, t, ht⟩
    exact ⟨_, List.mem_map_of_mem he, t, ht⟩
  · rintro ⟨a, ha, t, ht⟩
    obtain ⟨e, he, rfl⟩ := List.mem_map.mp ha
    exact ⟨e, he, t, ht⟩

theorem finish_spec (ts : Timestamps) {q : TimerQueue} (h : q.Good) {now : Nat}
    {expired : List Entry} (hph : q.phase = .firing now expired []) :
    (({ q with callingExpiredTimers := false } : TimerQueue).reset ts expired now).started =
        q.started ∧
      ∀ u, q.Finished u → u ∈ (({ q with callingExpiredTimers := false } : TimerQueue).reset ts
        expired now).deleted := by
  obtain ⟨h0, hin, hnd⟩ := h.batch_ready hph
  refine ⟨(reset_frame ts now h0 hin hnd).2.1, fun u hu => ?_⟩
  rw [mem_finish_deleted ts h hph]
  rcases hu with hu | ⟨a, t, ht, huid, hb, _, hc⟩
  · exact .inl hu
  · exact .inr ⟨a, hb, t, ht, huid, fun hre => hre.2 hc⟩

/-! ## One step -/

theorem addTimerInLoop_frame {q : TimerQueue} (h : q.Good) {a : Addr} (ha : a ∈ q.pending) :
    (q.addTimerInLoop a).deleted = q.deleted ∧ (q.addTimerInLoop a).phase = q.phase ∧
      (q.addTimerInLoop a).cancelingTimers = q.cancelingTimers ∧
      (q.addTimerInLoop a).started = q.started := by
  obtain ⟨t, ht⟩ := Option.isSome_iff_exists.mp (h.owns.indexed.allocated a (.inl ha))
  rw [addTimerInLoop_eq h.owns.indexed ht (.inl ha)]
  split <;> exact ⟨rfl, rfl, rfl, rfl⟩

theorem allocate_batch {q : TimerQueue} (h : q.Good) {a : Addr} (hfree : q.heap a = none)
    (expiration : Nat) (intervalS : Int) :
    ∀ b ∈ q.phase.batch, (q.allocate a expiration intervalS).heap b = q.heap b := by
  intro b hb
  refine Function.update_of_ne (fun heq => ?_) ..
  exact h.fresh hfree (List.mem_append_right _ (heq ▸ hb))

theorem addTimer_frame {q : TimerQueue} (h : q.Good) {a : Addr} (hfree : q.free a = true)
    (expiration : Nat) (intervalS : Int) :
    (q.addTimer a expiration intervalS).deleted = q.deleted ∧
      (q.addTimer a expiration intervalS).phase = q.phase ∧
      (q.addTimer a expiration intervalS).cancelingTimers = q.cancelingTimers ∧
      (q.addTimer a expiration intervalS).started = q.started ∧
      (∀ b ∈ q.phase.batch, (q.addTimer a expiration intervalS).heap b = q.heap b) := by
  have hnew := good_new h hfree expiration intervalS
  have hpend : a ∈ (q.allocate a expiration intervalS).pending := by simp [TimerQueue.allocate]
  obtain ⟨hd, hp, hc, hs⟩ := addTimerInLoop_frame hnew hpend
  obtain ⟨_, hheap⟩ := good_addTimerInLoop hnew hpend
  rw [addTimer_eq h hfree]
  refine ⟨hd, hp, hc, hs, fun b hb => ?_⟩
  rw [hheap]
  exact allocate_batch h (free_iff hfree).1 expiration intervalS b hb

theorem cancelInLoop_frame {q : TimerQueue} (h : q.Good) (id : ActiveTimer) :
    q.deleted ⊆ (q.cancelInLoop id).deleted ∧ (q.cancelInLoop id).phase = q.phase ∧
      (∀ x ∈ q.cancelingTimers, x ∈ (q.cancelInLoop id).cancelingTimers) ∧
      (q.cancelInLoop id).started = q.started ∧
      (∀ b ∈ q.out, (q.cancelInLoop id).heap b = q.heap b) ∧
      (q.cancelInLoop id).pending = q.pending := by
  rw [show id = toLex ((ofLex id).1, (ofLex id).2) from rfl]
  rcases cancelInLoop_eq h.owns (ofLex id).1 (ofLex id).2 with ⟨t, _, _, hout, heq⟩ | ⟨_, heq⟩
  · rw [heq]
    refine ⟨List.subset_append_left _ _, rfl, fun _ hx => hx, rfl, fun b hb => ?_, rfl⟩
    refine Function.update_of_ne (fun hba => hout ?_) ..
    rw [← hba]
    exact hb
  · rw [heq]
    split
    · refine ⟨List.Subset.refl _, rfl, fun x hx => ?_, rfl, fun _ _ => rfl, rfl⟩
      exact OrderedSet.mem_insert.mpr (.inr hx)
    · exact ⟨List.Subset.refl _, rfl, fun _ hx => hx, rfl, fun _ _ => rfl, rfl⟩

/-- A timer that is finished stays so, and no step starts it. -/
theorem step_finished {ts : Timestamps} {q q' : TimerQueue} {i : Input} {u : Nat} (h : q.Good)
    (hu : q.Finished u) (hn : q.Next ts i q') :
    q'.Finished u ∧ q'.started.count u = q.started.count u := by
  cases hn with
  | new hfree =>
    refine ⟨hu.imp_right fun hc => hc.congr ?_ rfl (fun _ hx => hx), rfl⟩
    exact allocate_batch h (free_iff hfree).1 _ _
  | addTimerInLoop _ hpend =>
    obtain ⟨hd, hp, hc, hst⟩ := addTimerInLoop_frame h hpend
    have hheap := (good_addTimerInLoop h hpend).2
    refine ⟨hu.imp (fun hdel => hd ▸ hdel) fun hcd => hcd.congr ?_ hp ?_, by rw [hst]⟩
    · exact fun _ _ => by rw [hheap]
    · exact fun _ hx => hc ▸ hx
  | @addTimer a expiration intervalS hfree =>
    obtain ⟨hd, hp, hc, hst, hheap⟩ := addTimer_frame h hfree expiration intervalS
    refine ⟨hu.imp (fun hdel => hd ▸ hdel) fun hcd => hcd.congr hheap hp ?_, by rw [hst]⟩
    exact fun _ hx => hc ▸ hx
  | @cancelInLoop id =>
    obtain ⟨hd, hp, hc, hst, hheap, _⟩ := cancelInLoop_frame h id
    exact ⟨hu.imp (fun hdel => hd hdel) fun hcd => hcd.congr (fun a ha => hheap a (.inr ha)) hp hc,
      by rw [hst]⟩
  | @handleRead delay hidle =>
    obtain ⟨fd, expired, act, heq, _⟩ := handleRead_spec h.owns delay
    rw [heq]
    refine ⟨.inl (hu.resolve_right ?_), rfl⟩
    rintro ⟨a, _, _, _, hb, _⟩
    cases hp : q.phase with
    | idle =>
      rw [hp] at hb
      cases hb
    | firing now expired rest => simp [hp, Phase.isIdle] at hidle
  | runNext hph =>
    obtain ⟨t, ht, hrun, _⟩ := good_runNext h hph
    rw [hrun]
    have hne : t.uid ≠ u := by
      rcases hu with hdel | ⟨a, t', ht', hu', _, hw, _⟩
      · exact ((h.owns.accounted.deleted u).mp hdel).2 _ t ht
      · intro heq
        obtain rfl := h.owns.accounted.addr_eq ht ht' (heq.trans hu'.symm)
        exact hw (by rw [hph]; exact List.mem_cons_self)
    refine ⟨hu.imp_right ?_, by simp [hne]⟩
    rintro ⟨a, t', ht', hu', hb, hw, hc⟩
    rw [hph] at hb hw
    exact ⟨a, t', ht', hu', hb, fun hin => hw (List.mem_cons_of_mem _ hin), hc⟩
  | finish hph =>
    obtain ⟨hst, hfin⟩ := finish_spec ts h hph
    exact ⟨.inl (hfin u hu), congrArg (List.count u) hst⟩
  | tick => exact ⟨hu.imp_right fun hc => hc.congr (fun _ _ => rfl) rfl (fun _ hx => hx), rfl⟩

theorem run_finished {ts : Timestamps} {q q' : TimerQueue} {ins : List Input} {u : Nat}
    (h : q.Good) (hu : q.Finished u) (hr : Machine.run (step ts) q ins = some q') :
    q'.started.count u = q.started.count u := by
  refine (Machine.run_invariant (P := fun s => s.Good ∧ s.Finished u ∧
    s.started.count u = q.started.count u) ?_ ⟨h, hu, rfl⟩ hr).2.2
  rintro s i s' ⟨hs, hfin, hcount⟩ hstep
  obtain ⟨hfin', hcount'⟩ := step_finished hs hfin (step_next hstep)
  exact ⟨step_timers_good hs (step_next hstep), hfin', hcount'.trans hcount⟩

theorem addTimerInLoop_created {q : TimerQueue} (h : q.Good) {a : Addr} (ha : a ∈ q.pending) :
    (q.addTimerInLoop a).created = q.created := by
  obtain ⟨t, ht⟩ := Option.isSome_iff_exists.mp (h.owns.indexed.allocated a (.inl ha))
  rw [addTimerInLoop_eq h.owns.indexed ht (.inl ha)]
  split <;> rfl

theorem addTimer_created {q : TimerQueue} (h : q.Good) {a : Addr} (hfree : q.free a = true)
    (expiration : Nat) (intervalS : Int) :
    (q.addTimer a expiration intervalS).created = q.created ++ [a] := by
  rw [addTimer_eq h hfree, addTimerInLoop_created (good_new h hfree expiration intervalS)
    (by simp [TimerQueue.allocate])]
  rfl

theorem cancelInLoop_created {q : TimerQueue} (h : q.Good) (x : ActiveTimer) :
    (q.cancelInLoop x).created = q.created := by
  rw [show x = toLex ((ofLex x).1, (ofLex x).2) from rfl]
  rcases cancelInLoop_eq h.owns (ofLex x).1 (ofLex x).2 with ⟨_, _, _, _, heq⟩ | ⟨_, heq⟩
  · rw [heq]
    rfl
  · rw [heq]
    split <;> rfl

/-- The address a timer was created at is not forgotten. -/
theorem created_of_append {l l' : List Addr} (h : l <+: l') {u : Nat} {a : Addr}
    (hu : l[u]? = some a) : l'[u]? = some a := by
  rw [List.getElem?_eq_some_iff] at hu ⊢
  obtain ⟨hlt, hget⟩ := hu
  exact ⟨hlt.trans_le h.length_le, (h.getElem hlt).symm.trans hget⟩

/-- A deleted timer stays deleted and keeps its name. -/
theorem step_history {ts : Timestamps} {q r : TimerQueue} {i : Input} (h : q.Good)
    (hn : q.Next ts i r) :
    q.deleted ⊆ r.deleted ∧ q.created <+: r.created := by
  cases hn with
  | new => exact ⟨List.Subset.refl _, List.prefix_append _ _⟩
  | addTimerInLoop _ hpend =>
    rw [(addTimerInLoop_frame h hpend).1, addTimerInLoop_created h hpend]
    exact ⟨List.Subset.refl _, List.prefix_refl _⟩
  | @addTimer a expiration intervalS hfree =>
    rw [(addTimer_frame h hfree expiration intervalS).1, addTimer_created h hfree]
    exact ⟨List.Subset.refl _, List.prefix_append _ _⟩
  | cancelInLoop =>
    rw [cancelInLoop_created h]
    exact ⟨(cancelInLoop_frame h _).1, List.prefix_refl _⟩
  | @handleRead delay hidle =>
    obtain ⟨fd, expired, act, heq, _⟩ := handleRead_spec h.owns delay
    rw [heq]
    exact ⟨List.Subset.refl _, List.prefix_refl _⟩
  | runNext hph =>
    obtain ⟨t, _, hrun, _⟩ := good_runNext h hph
    rw [hrun]
    exact ⟨List.Subset.refl _, List.prefix_refl _⟩
  | @finish now expired hph =>
    obtain ⟨h0, hin, hnd⟩ := h.batch_ready hph
    have hcr : (reset ts { q with callingExpiredTimers := false } expired now).created =
        q.created := (reset_kept ts now h0 hin hnd).2.1
    exact ⟨fun u hu => (finish_spec ts h hph).2 u (.inl hu),
      [], (List.append_nil _).trans hcr.symm⟩
  | tick => exact ⟨List.Subset.refl _, List.prefix_refl _⟩

/-! ## The request -/

/-- The inputs other than the creation of a timer by another thread. -/
def Input.inLoop : Input → Bool
  | .new _ _ _ => false
  | _ => true

/-- What the thread of the loop does by itself: it neither creates a timer for another thread
nor is handed one. -/
def Input.ownThread : Input → Bool
  | .new _ _ _ | .addTimerInLoop _ => false
  | _ => true

theorem addTimerInLoop_pending {q : TimerQueue} (h : q.Good) {a : Addr} (ha : a ∈ q.pending) :
    (q.addTimerInLoop a).pending = q.pending.erase a := by
  obtain ⟨t, ht⟩ := Option.isSome_iff_exists.mp (h.owns.indexed.allocated a (.inl ha))
  rw [addTimerInLoop_eq h.owns.indexed ht (.inl ha)]
  split <;> rfl

theorem addTimer_pending {q : TimerQueue} (h : q.Good) {a : Addr} (hfree : q.free a = true)
    (expiration : Nat) (intervalS : Int) :
    (q.addTimer a expiration intervalS).pending = q.pending := by
  have hnot : a ∉ q.pending := fun hin => h.fresh (free_iff hfree).1 (List.mem_append_left _ hin)
  have hpend : (q.allocate a expiration intervalS).pending = q.pending ++ [a] := rfl
  rw [addTimer_eq h hfree, addTimerInLoop_pending (good_new h hfree expiration intervalS)
    (by simp [hpend]), hpend, List.erase_append_right _ hnot]
  simp

/-- The thread of the loop leaves a timer alone that has not been handed over. -/
theorem next_pending {ts : Timestamps} {q q' : TimerQueue} {i : Input} (h : q.Good)
    (hi : i.ownThread = true) (hn : q.Next ts i q') :
    q'.pending = q.pending ∧ ∀ a ∈ q.pending, q'.heap a = q.heap a := by
  have hdisj := (List.nodup_append.mp h.nodup).2.2
  cases hn with
  | new | addTimerInLoop => cases hi
  | @addTimer a expiration intervalS hfree =>
    refine ⟨addTimer_pending h hfree expiration intervalS, fun b hb => ?_⟩
    have hnew := good_new h hfree expiration intervalS
    rw [addTimer_eq h hfree, (good_addTimerInLoop hnew (by simp [TimerQueue.allocate])).2]
    refine Function.update_of_ne (fun heq => ?_) ..
    exact h.fresh (free_iff hfree).1 (List.mem_append_left _ (heq ▸ hb))
  | @cancelInLoop id =>
    obtain ⟨_, _, _, _, hheap, hpend⟩ := cancelInLoop_frame h id
    exact ⟨hpend, fun a ha => hheap a (.inl ha)⟩
  | @handleRead delay =>
    obtain ⟨fd, expired, act, heq, _⟩ := handleRead_spec h.owns delay
    rw [heq]
    exact ⟨rfl, fun _ _ => rfl⟩
  | runNext hph =>
    obtain ⟨t, _, hrun, _⟩ := good_runNext h hph
    rw [hrun]
    exact ⟨rfl, fun _ _ => rfl⟩
  | @finish now expired hph =>
    obtain ⟨h0, hin, hnd⟩ := h.batch_ready hph
    rw [hph] at hdisj
    refine ⟨(reset_frame ts now h0 hin hnd).1, fun a ha => ?_⟩
    have hheap := (reset_kept ts now h0 hin hnd).2.2
    have hother := foldl_resetEntry_other ts now h0 hin hnd
      fun hb => hdisj a ha a hb rfl
    exact (congrFun hheap a).trans hother
  | tick => exact ⟨rfl, fun _ _ => rfl⟩

/-- As long as every thread but the loop's leaves the queue alone, no timer waits
to be handed over. -/
theorem run_pending {ts : Timestamps} {q q' : TimerQueue} {ins : List Input} (h : q.Good)
    (hp : q.pending = []) (hin : ∀ i ∈ ins, i.inLoop = true)
    (hr : Machine.run (step ts) q ins = some q') : q'.pending = [] := by
  refine (Machine.run_invariant_of_mem (P := fun s => s.Good ∧ s.pending = []) ?_ ⟨h, hp⟩ hin hr).2
  rintro s i s' ⟨hs, hpend⟩ hi hstep
  have hn := step_next hstep
  refine ⟨step_timers_good hs hn, ?_⟩
  by_cases hown : i.ownThread = true
  · exact (next_pending hs hown hn).1.trans hpend
  · cases hn with
    | new => cases hi
    | addTimerInLoop _ hmem => simp [hpend] at hmem
    | _ => exact absurd rfl hown

/-- The request finishes a timer that has been handed over and is not waiting in the batch. -/
theorem cancelInLoop_finished {q : TimerQueue} (h : q.Good) {u : Nat} {a : Addr}
    (hu : q.created[u]? = some a) (hp : ∀ t, q.heap a = some t → t.uid = u → a ∉ q.pending)
    (hw : ¬ q.Waiting u) : (q.cancelInLoop (toLex (a, u % 2 ^ 64))).Finished u := by
  have hlt : u < q.created.length := (List.getElem?_eq_some_iff.mp hu).1
  by_cases hdel : u ∈ q.deleted
  · exact .inl ((cancelInLoop_frame h _).1 hdel)
  -- the timer is on the heap, at the address its name says
  · obtain ⟨b, t, hb, htu⟩ : ∃ b t, q.heap b = some t ∧ t.uid = u := by
      by_contra hnone
      exact hdel ((h.owns.accounted.deleted u).mpr ⟨hlt, fun b t hb htu => hnone ⟨b, t, hb, htu⟩⟩)
    obtain ⟨hname, hseq⟩ := h.owns.accounted.named b t hb
    rw [htu, hu] at hname
    cases hname
    rw [htu] at hseq
    rcases cancelInLoop_eq h.owns a (u % 2 ^ 64) with ⟨t', ht', _, _, heq⟩ | ⟨hna, heq⟩
    · rw [hb] at ht'
      cases ht'
      refine .inl ?_
      rw [heq]
      simp [TimerQueue.canceled, htu]
    · have hbatch : a ∈ q.phase.batch := by
        by_contra hnot
        refine hna ((h.owns.indexed.active _ _).mpr ⟨t, hb, hseq, ?_⟩)
        rintro (hpend | hbat)
        · exact hp t hb htu hpend
        · exact hnot hbat
      have hcall : q.callingExpiredTimers = true := by
        rw [h.calling]
        cases hph : q.phase with
        | idle =>
          rw [hph] at hbatch
          cases hbatch
        | firing now expired rest => rfl
      rw [heq, if_pos hcall]
      refine .inr ⟨a, t, hb, htu, hbatch, fun hin => hw ⟨a, t, hb, htu, hin⟩, ?_⟩
      rw [hseq]
      exact OrderedSet.mem_insert.mpr (.inl rfl)

/-! ## A waiting timer gets its turn -/

/-- What the loop of `HandleRead` starts, if nothing happens in the callbacks. -/
theorem run_batch {ts : Timestamps} {now : Nat} {expired rest : List Entry} {q : TimerQueue}
    (hph : q.phase = .firing now expired rest) (hlive : ∀ e ∈ rest, (q.heap (ofLex e).2).isSome) :
    Machine.run (step ts) q (rest.map fun _ => .runNext) = some { q with
      started := q.started ++ rest.filterMap fun e => (q.heap (ofLex e).2).map Timer.uid
      phase := .firing now expired [] } := by
  induction rest generalizing q with
  | nil =>
    rw [List.map_nil, Machine.run_nil, List.filterMap_nil, List.append_nil, ← hph]
  | cons e rest ih =>
    obtain ⟨t, ht⟩ := Option.isSome_iff_exists.mp (hlive e (by simp))
    have hstep : q.step ts .runNext = some { q with
        started := q.started ++ [t.uid], phase := .firing now expired rest } := by
      simp [step, hph, runCallback, ht]
    refine Machine.run_cons_iff.mpr ⟨_, hstep, ?_⟩
    have hrest := ih (q := { q with
      started := q.started ++ [t.uid], phase := .firing now expired rest }) rfl
      fun e' he' => hlive e' (by simp [he'])
    rw [hrest]
    simp [ht]

theorem waiting_starts (ts : Timestamps) {q : TimerQueue} (h : q.Good) {u : Nat}
    (hw : q.Waiting u) (id : ActiveTimer) :
    ∃ ins q', Machine.run (step ts) (q.cancelInLoop id) ins = some q' ∧
      q.started.count u < q'.started.count u := by
  obtain ⟨b, t, hb, htu, hin⟩ := hw
  obtain ⟨now, expired, rest, hph⟩ : ∃ now expired rest, q.phase = .firing now expired rest := by
    cases hph : q.phase with
    | idle =>
      rw [hph] at hin
      cases hin
    | firing now expired rest => exact ⟨now, expired, rest, rfl⟩
  obtain ⟨_, hphase, _, hst, hheap, _⟩ := cancelInLoop_frame h id
  have hrest : ∀ e ∈ rest, (ofLex e).2 ∈ q.phase.batch := by
    have := h.rest
    rw [hph] at this ⊢
    exact this
  have hlive : ∀ e ∈ rest, ((q.cancelInLoop id).heap (ofLex e).2).isSome := by
    intro e he
    rw [hheap _ (.inr (hrest e he))]
    exact h.owns.indexed.allocated _ (.inr (hrest e he))
  refine ⟨_, _, run_batch (hphase.trans hph) hlive, ?_⟩
  rw [hph] at hin
  obtain ⟨e, he, rfl⟩ := List.mem_map.mp hin
  have hmem : u ∈ rest.filterMap fun e =>
      ((q.cancelInLoop id).heap (ofLex e).2).map Timer.uid := by
    refine List.mem_filterMap.mpr ⟨e, he, ?_⟩
    rw [hheap _ (.inr (hrest e he)), hb, ← htu]
    rfl
  simp only [hst, List.count_append]
  have := List.count_pos_iff.mpr hmem
  omega

/-- **A cancelled timer is started again exactly when it was waiting in the batch.**
The timer number `u`, created at `a`, is cancelled by its id after any run of the
loop thread. No continuation starts it again, if and only if its turn in the batch
being processed is not still to come. -/
theorem cancelled_never_starts_iff (ts : Timestamps) (clock : Nat) (ins : List Input)
    (q : TimerQueue) (hr : Machine.run (step ts) (init clock) ins = some q)
    (hloop : ∀ i ∈ ins, i.inLoop = true) (u : Nat) (a : Addr) (hu : q.created[u]? = some a) :
    (∀ ins' q', Machine.run (step ts) (q.cancelInLoop (toLex (a, u % 2 ^ 64))) ins' = some q' →
      q'.started.count u = q.started.count u) ↔ ¬ q.Waiting u := by
  have h := reachable_good ⟨ins, hr⟩
  have hp := run_pending (good_init clock) rfl hloop hr
  constructor
  · intro hnever hw
    obtain ⟨ins', q', hr', hlt⟩ := waiting_starts ts h hw (toLex (a, u % 2 ^ 64))
    rw [hnever ins' q' hr'] at hlt
    exact lt_irrefl _ hlt
  · intro hw ins' q' hr'
    rw [run_finished (good_cancelInLoop h _) (cancelInLoop_finished h hu (by simp [hp]) hw) hr',
      (cancelInLoop_frame h _).2.2.2.1]

/-- A repeating timer cancelled by its own callback. -/
theorem cancelled_never_starts_iff_own_callback : ∃ q,
    Machine.run (step ⟨fun now s => now + s * 1000000, 0⟩) (init 1000)
      [.addTimer 8 500 2, .handleRead 0, .runNext] = some q ∧ q.started = [0] ∧
    ∀ ins' q', Machine.run (step ⟨fun now s => now + s * 1000000, 0⟩)
      (q.cancelInLoop (toLex (8, 0))) ins' = some q' → q'.started.count 0 = 1 := by
  have hrun : (Machine.run (step ⟨fun now s => now + s * 1000000, 0⟩) (init 1000)
      [.addTimer 8 500 2, .handleRead 0, .runNext]).map
      (fun q => (q.started, q.created, q.phase.waiting)) = some ([0], [8], []) := by
    decide +kernel
  obtain ⟨q, hr, hq⟩ := Option.map_eq_some_iff.mp hrun
  simp only [Prod.mk.injEq] at hq
  obtain ⟨hst, hcr, hw⟩ := hq
  refine ⟨q, hr, hst, fun ins' q' hr' => ?_⟩
  have hnot : ¬ q.Waiting 0 := by
    rintro ⟨a, t, _, _, hin⟩
    rw [hw] at hin
    cases hin
  have hnever := (cancelled_never_starts_iff _ 1000 _ q hr (by simp [Input.inLoop]) 0 8
    (by simp [hcr])).mpr hnot ins' q' hr'
  rw [hnever, hst]
  rfl

/-- The first callback of a batch of two cancels the second timer, whose callback is
started all the same. -/
theorem cancelled_timer_starts : ∃ q q',
    Machine.run (step ⟨fun now s => now + s * 1000000, 0⟩) (init 1000)
      [.addTimer 8 500 0, .addTimer 16 600 0, .handleRead 0, .runNext] = some q ∧
    q.created[1]? = some 16 ∧ q.started = [0] ∧
    Machine.run (step ⟨fun now s => now + s * 1000000, 0⟩)
      (q.cancelInLoop (toLex (16, 1 % 2 ^ 64))) [.runNext] = some q' ∧ q'.started = [0, 1] := by
  have hrun : (Machine.run (step ⟨fun now s => now + s * 1000000, 0⟩) (init 1000)
      [.addTimer 8 500 0, .addTimer 16 600 0, .handleRead 0, .runNext]).map
      (fun q => (q.created, q.started, (Machine.run (step ⟨fun now s => now + s * 1000000, 0⟩)
        (q.cancelInLoop (toLex (16, 1 % 2 ^ 64))) [.runNext]).map fun q' => q'.started)) =
      some ([8, 16], [0], some [0, 1]) := by decide +kernel
  obtain ⟨q, hr, hq⟩ := Option.map_eq_some_iff.mp hrun
  simp only [Prod.mk.injEq] at hq
  obtain ⟨hcr, hst, hq⟩ := hq
  obtain ⟨q', hr', hst'⟩ := Option.map_eq_some_iff.mp hq
  exact ⟨q, q', hr, by simp [hcr], hst, hr', hst'⟩

end TimerQueue

end LinuxNet
