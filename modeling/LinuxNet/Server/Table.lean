import LinuxNet.Server.LifeCycle

/-!
# The connection table

`tcp_conn_list_` is indexed by descriptors, which the system hands out again as soon
as they are closed. Its entry outlives the connection's use of the descriptor: the
last reference is dropped, and the descriptor closed, only after the entry is gone.
`TableOk` is the law of the table, `Sized` what the table's counter and its bounds add
to it while all descriptors are below the size of the table. A step is quiet, puts one
connection into the table, or takes one out.
-/

namespace LinuxNet

set_option autoImplicit false

open LinuxNet.Lib LinuxNet.Lib.SlotTable Relation

namespace TCPServer

/-- The entry of a descriptor is the accepted connection that uses it and has not been
removed; the only asserts that may have failed are about the size of the table. -/
structure TableOk (s : TCPServer) : Prop where
  slot : ∀ i c, s.tcpConnList i = some c ↔
    (s.conns c).fd = i ∧ (s.conns c).accepted = true ∧ (s.conns c).removed = false
  faults : ∀ f ∈ s.faults, f = .outOfBounds ∨ f = .dumpCount

structure Sized (n : Nat) (s : TCPServer) : Prop where
  size : s.size = n
  range : ∀ i, (s.tcpConnList i).isSome → i < n
  count : s.tcpConnCount = occupied s.tcpConnList n
  noFault : s.faults = []

/-- Nothing the table depends on changes. -/
structure Quiet (s s' : TCPServer) : Prop where
  table : s'.tcpConnList = s.tcpConnList
  size : s'.size = s.size
  count : s'.tcpConnCount = s.tcpConnCount
  faults : s'.faults = s.faults
  next : s'.nextConnectId = s.nextConnectId
  fd : ∀ c, (s'.conns c).fd = (s.conns c).fd
  accepted : ∀ c, (s'.conns c).accepted = (s.conns c).accepted
  removed : ∀ c, (s'.conns c).removed = (s.conns c).removed

section Quiet

variable {s s' s'' : TCPServer} {c : ConnId} {l : LoopId} {t : ServerTask}

theorem Quiet.refl (s : TCPServer) : Quiet s s :=
  ⟨rfl, rfl, rfl, rfl, rfl, fun _ => rfl, fun _ => rfl, fun _ => rfl⟩

theorem Quiet.trans (h : Quiet s s') (h' : Quiet s' s'') : Quiet s s'' where
  table := h'.table.trans h.table
  size := h'.size.trans h.size
  count := h'.count.trans h.count
  faults := h'.faults.trans h.faults
  next := h'.next.trans h.next
  fd c := (h'.fd c).trans (h.fd c)
  accepted c := (h'.accepted c).trans (h.accepted c)
  removed c := (h'.removed c).trans (h.removed c)

theorem quiet_of_conns (hc : s'.conns = s.conns) (ht : s'.tcpConnList = s.tcpConnList)
    (hs : s'.size = s.size) (hn : s'.tcpConnCount = s.tcpConnCount)
    (hf : s'.faults = s.faults) (hx : s'.nextConnectId = s.nextConnectId) : Quiet s s' :=
  ⟨ht, hs, hn, hf, hx, fun _ => by rw [hc], fun _ => by rw [hc], fun _ => by rw [hc]⟩

theorem quiet_setConn {k : ServerConn} (hfd : k.fd = (s.conns c).fd)
    (hacc : k.accepted = (s.conns c).accepted) (hrem : k.removed = (s.conns c).removed) :
    Quiet s (s.setConn c k) :=
  ⟨rfl, rfl, rfl, rfl, rfl, setConn_field ServerConn.fd hfd,
    setConn_field ServerConn.accepted hacc, setConn_field ServerConn.removed hrem⟩

theorem quiet_queueInLoop (ha : s.loopAlive l = true) : Quiet s (s.queueInLoop l t) := by
  unfold queueInLoop
  rw [if_pos ha]
  exact quiet_of_conns rfl rfl rfl rfl rfl rfl

theorem quiet_handleClose : Quiet s (s.handleClose c l) := by
  have h := quiet_setConn (s := s) (c := c) (k := (s.conns c).handleClose) rfl rfl rfl
  exact { h with }

theorem quiet_connectionDestroy : Quiet s (s.connectionDestroy c l) := by
  have h := quiet_setConn (s := s) (c := c) (k := (s.conns c).connectionDestroy) rfl rfl rfl
  exact { h with }

theorem quiet_connectionEstablished : Quiet s (s.connectionEstablished c) :=
  quiet_setConn rfl rfl rfl

theorem check_true (f : Fault) {ok : Bool} (h : ok = true) : s.check f ok = s := by
  simp [check, h]

theorem quiet_handleEvent (halive : (s.conns c).alive = true) (close : Bool) :
    Quiet s (s.handleEvent c l close) := by
  unfold handleEvent
  rw [check_true _ halive]
  dsimp only
  split
  · exact quiet_handleClose
  · exact Quiet.refl s

theorem TableOk.quiet (h : s.TableOk) (hq : Quiet s s') : s'.TableOk where
  slot i c := by
    rw [hq.table, hq.fd, hq.accepted, hq.removed]
    exact h.slot i c
  faults := by
    rw [hq.faults]
    exact h.faults

theorem Sized.quiet {n : Nat} (h : Sized n s) (hq : Quiet s s') : Sized n s' where
  size := hq.size.trans h.size
  range := by
    rw [hq.table]
    exact h.range
  count := by
    rw [hq.table, hq.count]
    exact h.count
  noFault := hq.faults.trans h.noFault

end Quiet

/-! ## Removal -/

section Removal

variable {s : TCPServer} {c : ConnId} {n : Nat}

/-- `DelConnListItem` for a connection that is in its slot. -/
theorem delConnListItem_eq (h : s.tcpConnList (s.conns c).fd = some c) :
    s.delConnListItem c = { s with
      tcpConnList := Function.update s.tcpConnList (s.conns c).fd none
      tcpConnCount := s.tcpConnCount - 1 } := by
  simp [delConnListItem, check, h]

theorem TableOk.unlist (ht : s.TableOk) (h : s.tcpConnList (s.conns c).fd = some c) :
    (s.unlist c).TableOk := by
  unfold TCPServer.unlist
  rw [delConnListItem_eq h]
  refine ⟨?_, ht.faults⟩
  intro i c'
  by_cases hi : i = (s.conns c).fd
  · subst hi
    simp only [setConn, Function.update_self, reduceCtorEq, false_iff]
    by_cases hc : c' = c
    · simp [hc]
    · rw [Function.update_of_ne hc]
      rintro ⟨hfd, hacc, hrem⟩
      have hslot := (ht.slot _ _).mpr ⟨hfd, hacc, hrem⟩
      rw [h] at hslot
      exact hc (Option.some.inj hslot).symm
  · simp only [setConn, Function.update_of_ne hi]
    by_cases hc : c' = c
    · subst hc
      rw [ht.slot]
      simp [Ne.symm hi]
    · rw [Function.update_of_ne hc]
      exact ht.slot i c'

theorem Sized.unlist (hs : Sized n s) (h : s.tcpConnList (s.conns c).fd = some c) :
    Sized n (s.unlist c) := by
  have hi : (s.tcpConnList (s.conns c).fd).isSome := by simp [h]
  have hclear := occupied_clear (hs.range _ hi) hi
  unfold TCPServer.unlist
  rw [delConnListItem_eq h]
  refine ⟨hs.size, ?_, ?_, hs.noFault⟩
  · intro i hsome
    by_cases hi' : i = (s.conns c).fd
    · simp [setConn, hi'] at hsome
    · simp only [setConn, Function.update_of_ne hi'] at hsome
      exact hs.range i hsome
  · have hcount := hs.count
    simp only [setConn]
    omega

/-- `DumpConnections` finds every entry in the slot of its descriptor. -/
theorem TableOk.slotMatches (ht : s.TableOk) (i : Nat) : s.slotMatches i = true := by
  unfold TCPServer.slotMatches
  split
  · rfl
  · rename_i c hc
    simpa using ((ht.slot i c).mp hc).1

theorem TableOk.dumpConnections (ht : s.TableOk) : s.dumpConnections.TableOk := by
  have hindex : (List.range s.size).all s.slotMatches = true :=
    List.all_eq_true.mpr fun i _ => ht.slotMatches i
  unfold TCPServer.dumpConnections
  rw [check_true _ hindex]
  dsimp only
  unfold check
  split
  · exact ht
  · refine ⟨ht.slot, ?_⟩
    intro f hf
    rcases List.mem_append.mp hf with hold | hnew
    · exact ht.faults f hold
    · exact .inr (List.mem_singleton.mp hnew)

theorem Sized.dumpConnections (hs : Sized n s) (ht : s.TableOk) : s.dumpConnections = s := by
  have hindex : (List.range s.size).all s.slotMatches = true :=
    List.all_eq_true.mpr fun i _ => ht.slotMatches i
  have hcount : ((List.range s.size).countP (fun i => (s.tcpConnList i).isSome) ==
      s.tcpConnCount) = true := by
    rw [countP_range_eq_occupied, hs.size, hs.count]
    simp
  unfold TCPServer.dumpConnections
  rw [check_true _ hindex]
  exact check_true _ hcount

theorem quiet_unlisted (ha : ∀ l, s.loopAlive l = true) :
    ∃ s', Quiet (s.unlist c) s' ∧ s.onConnectionRemoveInLoop c = s'.dumpConnections := by
  rw [onConnectionRemoveInLoop_eq]
  split
  · exact ⟨_, quiet_connectionDestroy, rfl⟩
  · refine ⟨_, quiet_queueInLoop ?_, rfl⟩
    exact congrFun (sameButTable_delConnListItem s c).loopAlive _ ▸ ha _

theorem TableOk.onConnectionRemoveInLoop (ht : s.TableOk) (ha : ∀ l, s.loopAlive l = true)
    (h : s.tcpConnList (s.conns c).fd = some c) : (s.onConnectionRemoveInLoop c).TableOk := by
  obtain ⟨s', hq, heq⟩ := quiet_unlisted (c := c) ha
  rw [heq]
  exact ((ht.unlist h).quiet hq).dumpConnections

theorem Sized.onConnectionRemoveInLoop (hs : Sized n s) (ht : s.TableOk)
    (ha : ∀ l, s.loopAlive l = true) (h : s.tcpConnList (s.conns c).fd = some c) :
    Sized n (s.onConnectionRemoveInLoop c) := by
  obtain ⟨s', hq, heq⟩ := quiet_unlisted (c := c) ha
  have hs' := (hs.unlist h).quiet hq
  rw [heq, hs'.dumpConnections ((ht.unlist h).quiet hq)]
  exact hs'

theorem onConnectionRemoveInLoop_accepted (ha : ∀ l, s.loopAlive l = true) (c' : ConnId) :
    ((s.onConnectionRemoveInLoop c).conns c').accepted = (s.conns c').accepted := by
  obtain ⟨s', hq, heq⟩ := quiet_unlisted (c := c) ha
  rw [heq, (sameButTable_dumpConnections s').conns, hq.accepted]
  unfold TCPServer.unlist
  by_cases hc : c' = c
  · rw [hc, setConn_conns_self]
  · rw [setConn_conns_of_ne _ hc, (sameButTable_delConnListItem s c).conns]

theorem onConnectionRemoveInLoop_next (ha : ∀ l, s.loopAlive l = true) :
    (s.onConnectionRemoveInLoop c).nextConnectId = s.nextConnectId := by
  obtain ⟨s', hq, heq⟩ := quiet_unlisted (c := c) ha
  rw [heq, (sameButTable_dumpConnections s').nextConnectId, hq.next]
  exact (sameButTable_delConnListItem s c).nextConnectId

end Removal

/-! ## Acceptance -/

section Acceptance

variable {s : TCPServer} {c : ConnId} {l : LoopId} {n fd : Nat}

theorem TableOk.newConnection (ht : s.TableOk) (hp : s.Placed) :
    (s.newConnection fd l).TableOk := by
  refine ⟨?_, ht.faults⟩
  intro i c
  by_cases hc : c = s.nextConnectId
  · subst hc
    rw [newConnection_conn]
    constructor
    · exact fun he => absurd (hp.entry i _ he) (Nat.lt_irrefl _)
    · simp
  · rw [TCPServer.newConnection, setConn_conns_of_ne _ hc]
    exact ht.slot i c

theorem growConnList_faults (fd : Nat) : (s.growConnList fd).faults = s.faults := by
  unfold growConnList
  split <;> rfl

theorem growConnList_size (fd : Nat) :
    (s.growConnList fd).size = if s.size ≤ fd then s.size * 2 else s.size := by
  unfold growConnList
  split <;> rfl

theorem growConnList_lt_iff (fd : Nat) :
    (s.growConnList fd).size < fd ↔ 2 * s.size < fd := by
  have hsize := growConnList_size (s := s) fd
  split at hsize <;> omega

theorem growConnList_eq_iff (fd : Nat) :
    (s.growConnList fd).size = fd ↔ fd = 2 * s.size := by
  have hsize := growConnList_size (s := s) fd
  split at hsize <;> omega

theorem check_count (f g : Fault) (ok : Bool) : (s.check f ok).faults.count g =
    s.faults.count g + if ok = false ∧ f = g then 1 else 0 := by
  cases ok with
  | true => simp [check]
  | false => simp [check, List.count_append, List.count_singleton]

theorem check_tcpConnCount (f : Fault) (ok : Bool) :
    (s.check f ok).tcpConnCount = s.tcpConnCount := by
  unfold check
  split <;> rfl

/-- The descriptor is rejected. -/
theorem addConnListItem_of_lt (h : (s.growConnList (s.conns c).fd).size < (s.conns c).fd) :
    s.addConnListItem c = (false, s.growConnList (s.conns c).fd) := by
  unfold addConnListItem
  exact if_pos h

/-- The descriptor is accepted, also if it is the size of the table. -/
theorem addConnListItem_of_le (h : (s.conns c).fd ≤ (s.growConnList (s.conns c).fd).size) :
    (s.addConnListItem c).1 = true ∧
    (s.addConnListItem c).2.tcpConnCount = s.tcpConnCount + 1 ∧
    (s.addConnListItem c).2.faults.count .outOfBounds = s.faults.count .outOfBounds +
      if (s.growConnList (s.conns c).fd).size = (s.conns c).fd then 1 else 0 := by
  have hfaults := growConnList_faults (s := s) (s.conns c).fd
  have hcount := (growConnList_table (s := s) (s.conns c).fd).2
  unfold addConnListItem
  dsimp only
  rw [if_neg (Nat.not_lt.mpr h)]
  refine ⟨rfl, ?_, ?_⟩
  · dsimp only
    rw [check_tcpConnCount, check_tcpConnCount, hcount]
  · dsimp only
    have hback : ¬ (s.conns c).fd < (s.growConnList (s.conns c).fd).size ↔
        (s.growConnList (s.conns c).fd).size = (s.conns c).fd := by omega
    rw [check_count, check_count, hfaults]
    simp only [reduceCtorEq, and_false, and_true, if_false, add_zero, decide_eq_false_iff_not,
      hback]

/-- `AddConnListItem` doubles the table once, and then has room for a descriptor of at most
that size. -/
theorem addConnListItem_fst :
    (s.addConnListItem c).1 = true ↔ (s.conns c).fd ≤ 2 * s.size := by
  have hroom := growConnList_lt_iff (s := s) (s.conns c).fd
  rcases Nat.lt_or_ge (s.growConnList (s.conns c).fd).size (s.conns c).fd with hlt | hge
  · rw [addConnListItem_of_lt hlt]
    exact iff_of_false Bool.false_ne_true (Nat.not_le.mpr (hroom.mp hlt))
  · refine iff_of_true (addConnListItem_of_le hge).1 ?_
    exact Nat.not_lt.mp fun h => hge.not_gt (hroom.mpr h)

/-- The slot it then uses lies behind the last one if the descriptor is that size. -/
theorem outOfBounds_addConnListItem :
    Fault.outOfBounds ∈ (s.addConnListItem c).2.faults ↔
      Fault.outOfBounds ∈ s.faults ∨ (s.conns c).fd = 2 * s.size := by
  have hback := growConnList_eq_iff (s := s) (s.conns c).fd
  rcases Nat.lt_or_ge (s.growConnList (s.conns c).fd).size (s.conns c).fd with hlt | hge
  · have hne : (s.conns c).fd ≠ 2 * s.size := fun h => hlt.ne (hback.mpr h)
    rw [addConnListItem_of_lt hlt, growConnList_faults, or_iff_left hne]
  · obtain ⟨-, -, hfault⟩ := addConnListItem_of_le hge
    rw [← List.count_pos_iff, ← List.count_pos_iff, hfault, ← hback]
    split
    · rename_i heq
      exact iff_of_true (Nat.succ_pos _) (.inr heq)
    · rename_i hne
      rw [or_iff_left hne, Nat.add_zero]

/-- `AddConnListItem` for a descriptor whose slot is empty. -/
theorem addConnListItem_eq (hfree : s.tcpConnList (s.conns c).fd = none) :
    s.addConnListItem c =
      if (s.growConnList (s.conns c).fd).size < (s.conns c).fd then
        (false, s.growConnList (s.conns c).fd)
      else
        (true, { (s.growConnList (s.conns c).fd).check .outOfBounds
            ((s.conns c).fd < (s.growConnList (s.conns c).fd).size) with
          tcpConnList := Function.update s.tcpConnList (s.conns c).fd (some c)
          tcpConnCount := s.tcpConnCount + 1 }) := by
  obtain ⟨hlist, hcount⟩ := growConnList_table (s := s) (s.conns c).fd
  unfold addConnListItem
  dsimp only
  generalize s.growConnList (s.conns c).fd = s₁ at hlist hcount ⊢
  split
  · rfl
  · rw [check_true .addOccupied (by simp [hlist, hfree])]
    simp [hlist, check_tcpConnCount, hcount]

theorem TableOk.add (ht : s.TableOk) (hfree : s.tcpConnList (s.conns c).fd = none)
    {k : ServerConn} (hfd : k.fd = (s.conns c).fd) (hacc : (s.conns c).accepted = false)
    (hk : k.accepted = (s.addConnListItem c).1) (hrem : k.removed = false) :
    ((s.addConnListItem c).2.setConn c k).TableOk := by
  have hsame := sameButTable_addConnListItem s c
  have htable := addConnListItem_tcpConnList (s := s) (c := c)
  constructor
  · intro i c'
    change (s.addConnListItem c).2.tcpConnList i = _ ↔ _
    rw [htable]
    by_cases hc : c' = c
    · subst hc
      rw [setConn_conns_self, hk, hfd, hrem]
      split
      · rename_i hyes
        by_cases hi : i = (s.conns c').fd
        · simp [hi, hyes]
        · rw [Function.update_of_ne hi, ht.slot]
          simp [hacc, Ne.symm hi]
      · rename_i hno
        rw [ht.slot]
        simp [hacc, hno]
    · rw [setConn_conns_of_ne k hc, hsame.conns, ← ht.slot]
      split
      · by_cases hi : i = (s.conns c).fd
        · subst hi
          simp [hfree, Ne.symm hc]
        · rw [Function.update_of_ne hi]
      · rfl
  · intro f hf
    change f ∈ (s.addConnListItem c).2.faults at hf
    rw [addConnListItem_eq hfree] at hf
    split at hf
    · rw [growConnList_faults] at hf
      exact ht.faults f hf
    · simp only [check] at hf
      split at hf
      · rw [growConnList_faults] at hf
        exact ht.faults f hf
      · rw [growConnList_faults] at hf
        rcases List.mem_append.mp hf with hold | hnew
        · exact ht.faults f hold
        · exact .inl (List.mem_singleton.mp hnew)

theorem Sized.add (hs : Sized n s) (hfree : s.tcpConnList (s.conns c).fd = none)
    (hlt : (s.conns c).fd < n) (k : ServerConn) :
    (s.addConnListItem c).1 = true ∧ Sized n ((s.addConnListItem c).2.setConn c k) := by
  have hgrow : s.growConnList (s.conns c).fd = s := by
    unfold growConnList
    rw [if_neg (by rw [hs.size]; exact Nat.not_le.mpr hlt)]
  have heq := addConnListItem_eq hfree
  rw [hgrow, if_neg (by rw [hs.size]; exact Nat.not_lt.mpr hlt.le),
    check_true _ (by simpa [hs.size] using hlt)] at heq
  rw [heq]
  refine ⟨rfl, hs.size, ?_, ?_, hs.noFault⟩
  · intro i hsome
    by_cases hi : i = (s.conns c).fd
    · rw [hi]
      exact hlt
    · simp only [setConn, Function.update_of_ne hi] at hsome
      exact hs.range i hsome
  · have hstore := occupied_store c hlt hfree
    simp only [setConn, hstore, hs.count]

/-- `AddConnListItem` uses no slot behind the last one. If the table, doubled once where that is
needed, has a slot for the descriptor, the connection is put there and counted; otherwise
nothing but the size changes. -/
def AddsInBounds (s : TCPServer) (c : ConnId) : Prop :=
  (s.addConnListItem c).2.faults.count .outOfBounds = s.faults.count .outOfBounds ∧
  ((s.conns c).fd < (s.growConnList (s.conns c).fd).size → (s.addConnListItem c).1 = true ∧
    (s.addConnListItem c).2.tcpConnList =
      Function.update s.tcpConnList (s.conns c).fd (some c) ∧
    (s.addConnListItem c).2.tcpConnCount = s.tcpConnCount + 1) ∧
  ((s.growConnList (s.conns c).fd).size ≤ (s.conns c).fd → (s.addConnListItem c).1 = false ∧
    (s.addConnListItem c).2.tcpConnList = s.tcpConnList ∧
    (s.addConnListItem c).2.tcpConnCount = s.tcpConnCount)

/-- **The boundary is off by one.** `AddConnListItem` stays within the table unless the
descriptor is twice its size. -/
theorem add_in_bounds_iff (s : TCPServer) (c : ConnId) :
    s.AddsInBounds c ↔ (s.conns c).fd ≠ 2 * s.size := by
  have hback := growConnList_eq_iff (s := s) (s.conns c).fd
  unfold AddsInBounds
  rcases Nat.lt_trichotomy (s.growConnList (s.conns c).fd).size (s.conns c).fd with
    hlt | heq | hgt
  · have htable := growConnList_table (s := s) (s.conns c).fd
    have hne : (s.conns c).fd ≠ 2 * s.size := fun h => hlt.ne (hback.mpr h)
    rw [addConnListItem_of_lt hlt, growConnList_faults]
    exact iff_of_true ⟨rfl, fun h => absurd h hlt.not_gt, fun _ => ⟨rfl, htable⟩⟩ hne
  · -- the slot behind the last one is used
    obtain ⟨-, -, hfault⟩ := addConnListItem_of_le heq.ge
    rw [if_pos heq] at hfault
    refine iff_of_false (fun h => ?_) (not_not.mpr (hback.mp heq))
    have hno := h.1
    omega
  · obtain ⟨hyes, hcount, hfault⟩ := addConnListItem_of_le hgt.le
    have htable := addConnListItem_tcpConnList (s := s) (c := c)
    rw [if_neg hgt.ne'] at hfault
    rw [hyes, if_pos rfl] at htable
    exact iff_of_true ⟨hfault, fun _ => ⟨hyes, htable, hcount⟩, fun h => absurd h hgt.not_ge⟩
      (fun h => hgt.ne' (hback.mpr h))

/-- With a table of 8 slots the descriptor 16 is stored in slot 16 of 16. -/
theorem add_out_of_bounds :
    ¬ ((init 1 8).newConnection 16 1).AddsInBounds 0 ∧
    (((init 1 8).newConnection 16 1).addConnListItem 0).2.size = 16 ∧
    (((init 1 8).newConnection 16 1).addConnListItem 0).2.tcpConnList 16 = some 0 := by
  refine ⟨fun h => ?_, by decide, by decide⟩
  exact absurd h.1 (by decide)

end Acceptance

/-! ## Runs -/

/-- What holds while the server is running. -/
structure Serving (s : TCPServer) : Prop where
  placed : s.Placed
  running : s.phase = .running
  alive : ∀ l, s.loopAlive l = true
  lives : ∀ c, (s.life c).Inv
  table : s.TableOk

section Steps

variable {s s' : TCPServer} {c : ConnId} {l : LoopId} {n fd : Nat} {i : Input}

theorem serving_init (n size : Nat) : (init n size).Serving where
  placed := placed_init n size
  running := rfl
  alive _ := rfl
  lives _ := .inr (by constructor <;> rfl)
  table := by constructor <;> simp [init]

/-- Something is about the connection, so the server knows it. -/
theorem Serving.ok (h : s.Serving) (hc : (s.life c).Blank → False) : (s.life c).Ok :=
  (h.lives c).resolve_right hc

/-- A descriptor that `accept` may return has no entry: whoever has an entry is alive. -/
theorem Serving.slot_free (h : s.Serving) (hfree : s.fdFree fd = true) :
    s.tcpConnList fd = none := by
  by_contra hne
  obtain ⟨c, hc⟩ := Option.ne_none_iff_exists'.mp hne
  obtain ⟨hfd, hacc, hrem⟩ := (h.table.slot fd c).mp hc
  have hok := h.ok (c := c) fun hb => by
    have := hb.accepted
    simp [life, hacc] at this
  have halive : (s.conns c).alive = true := hok.alive hrem
  simp only [fdFree, Bool.and_eq_true, List.all_eq_true, List.mem_range] at hfree
  have := hfree.2 c (h.placed.entry fd c hc)
  simp [halive, hfd] at this

/-- A connection whose close has begun is still in its slot. -/
theorem Serving.slot_begun (h : s.Serving)
    (hb : 0 < (s.life c).closing.toNat + (s.life c).removing) :
    s.tcpConnList (s.conns c).fd = some c := by
  have hok := h.ok (c := c) fun hb' => by
    simp [hb'.closing, hb'.removing] at hb
  exact (h.table.slot _ c).mpr ⟨rfl, hok.accepted, (hok.begun hb).1⟩

theorem Serving.alive_of_active (h : s.Serving) (hc : (s.life c).active ≠ 0) :
    (s.conns c).alive = true := by
  have hok := h.ok (c := c) fun hb => hc hb.active
  have hs := hok.interest (hok.polled hc)
  exact hok.alive (hok.fresh (.inr hs)).2.2.1

theorem quiet_onNewConnection (ha : ∀ l, s.loopAlive l = true) (fd : Nat) (l : LoopId) :
    ∃ k : ServerConn, k.fd = fd ∧
      k.accepted = ((s.newConnection fd l).addConnListItem s.nextConnectId).1 ∧
      k.removed = false ∧ Quiet (s.triedConnection fd l k) (s.onNewConnection fd l) := by
  rw [onNewConnection_eq]
  split
  · rename_i hyes
    refine ⟨⟨fd, l, .connecting, false, true, true, false, 0⟩, rfl, hyes.symm, rfl, ?_⟩
    unfold runInLoop
    split
    · exact quiet_connectionEstablished
    · apply quiet_queueInLoop
      rw [triedConnection_loopAlive]
      exact ha l
  · rename_i hno
    exact ⟨⟨fd, l, .connecting, false, false, false, false, 0⟩, rfl,
      (Bool.eq_false_iff.mpr hno).symm, rfl, Quiet.refl _⟩

/-- A step leaves the table alone, adds a connection to it, or takes one out of it. -/
theorem Serving.kinds (h : s.Serving) (hn : s.Next i s') (hi : i ≠ .stop) :
    Quiet s s' ∨
    (∃ fd l k, i = .accept fd l ∧ s.tcpConnList fd = none ∧ k.fd = fd ∧
      k.accepted = ((s.newConnection fd l).addConnListItem s.nextConnectId).1 ∧
      k.removed = false ∧ Quiet (s.triedConnection fd l k) s') ∨
    (∃ s₁ c, Quiet s s₁ ∧ (∀ l, s₁.loopAlive l = true) ∧
      s₁.tcpConnList (s₁.conns c).fd = some c ∧ s' = s₁.onConnectionRemoveInLoop c) := by
  cases hn with
  | @accept fd l hphase hready hserve hfree =>
    obtain ⟨k, hk⟩ := quiet_onNewConnection h.alive fd l
    exact .inr (.inl ⟨fd, l, k, rfl, h.slot_free hfree, hk⟩)
  | @runTask l t rest hready hact hq =>
    have hpop : Quiet s (s.setTaskList l rest) := quiet_of_conns rfl rfl rfl rfl rfl rfl
    cases t with
    | connectionEstablished c => exact .inl (hpop.trans quiet_connectionEstablished)
    | forceCloseInLoop c =>
      refine .inl ?_
      simp only [runTask, forceCloseInLoop]
      split
      · exact hpop
      · exact hpop.trans quiet_handleClose
    | onConnectionRemoveInLoop c =>
      refine .inr (.inr ⟨_, c, hpop, h.alive, ?_, rfl⟩)
      apply h.slot_begun
      obtain rfl : l = 0 :=
        (h.placed.task l (.onConnectionRemoveInLoop c) (by rw [hq]; exact List.mem_cons_self)).2
      have hcount : (s.life c).removing = (s.taskList 0).count (.onConnectionRemoveInLoop c) := rfl
      rw [hcount, hq, List.count_cons_self]
      omega
    | connectionDestroy c => exact .inl (hpop.trans quiet_connectionDestroy)
  | poll => exact .inl (quiet_of_conns rfl rfl rfl rfl rfl rfl)
  | @dispatch l close c rest hready hact =>
    have hpop : Quiet s (s.setActive l rest) := quiet_of_conns rfl rfl rfl rfl rfl rfl
    have hl := (h.placed.active l c (by rw [hact]; exact List.mem_cons_self)).2
    have halive := h.alive_of_active (c := c) (by simp [life, ← hl, hact])
    exact .inl (hpop.trans (quiet_handleEvent (by exact halive) close))
  | @removeCb l c hcl =>
    have hpop : Quiet s (s.setClosing l none) := quiet_of_conns rfl rfl rfl rfl rfl rfl
    unfold onConnectionRemove runInLoop
    split
    · refine .inr (.inr ⟨_, c, hpop, h.alive, ?_, rfl⟩)
      apply h.slot_begun
      have hl := (h.placed.closing l c hcl).2
      have hclosing : (s.life c).closing = true := by simp [life, ← hl, hcl]
      rw [hclosing, Bool.toNat_true]
      omega
    · exact .inl (hpop.trans (quiet_queueInLoop (h.alive 0)))
  | forceClose => exact .inl (quiet_of_conns rfl rfl rfl rfl rfl rfl)
  | forceCloseLate => exact .inl (Quiet.refl s)
  | @push i c =>
    have hpop : Quiet s { s with inFlight := s.inFlight.eraseIdx i } :=
      quiet_of_conns rfl rfl rfl rfl rfl rfl
    exact .inl (hpop.trans (quiet_queueInLoop (h.alive _)))
  | drop => exact .inl (quiet_setConn rfl rfl rfl)
  | stop => exact absurd rfl hi
  | join hstop => simp [h.running] at hstop
  | sweep hstop => simp [h.running] at hstop

theorem step_serving (h : s.Serving) (hn : s.Next i s') (hi : i ≠ .stop) : s'.Serving := by
  have hjoin : i ≠ .join := by
    rintro rfl
    cases hn with
    | join hstop => simp [h.running] at hstop
  have hsweep : i ≠ .sweep := by
    rintro rfl
    cases hn with
    | sweep hstop => simp [h.running] at hstop
  have hsteady := next_steady hn hi hjoin hsweep
  have hmoves := step_moves h.placed h.alive h.running
    (fun c hacc hrem => (h.table.slot _ c).mpr ⟨rfl, hacc, hrem⟩) hn
  refine ⟨step_placed h.placed hn, hsteady.phase.trans h.running, ?_, ?_, ?_⟩
  · rw [hsteady.loopAlive]
    exact h.alive
  · exact fun c => (h.lives c).moves (hmoves c)
  · rcases h.kinds hn hi with hq | ⟨fd, l, k, -, hnone, hfd, hacc, hrem, hq⟩ |
      ⟨s₁, c, hq, ha, hslot, rfl⟩
    · exact h.table.quiet hq
    · apply TableOk.quiet _ hq
      have hconn := newConnection_conn (s := s) fd l
      apply (h.table.newConnection h.placed).add
      · rw [hconn]
        exact hnone
      · rw [hconn, hfd]
      · rw [hconn]
      · exact hacc
      · exact hrem
    · exact (h.table.quiet hq).onConnectionRemoveInLoop ha hslot

/-- Whatever `AddConnListItem` does not turn away is in the table from then on. -/
theorem step_accepted (h : s.Serving)
    (hacc : ∀ c, c < s.nextConnectId → (s.conns c).accepted = true) (hn : s.Next i s')
    (hi : i ≠ .stop) (hadd : ∀ fd l, i = .accept fd l → s.tcpConnList fd = none →
      ((s.newConnection fd l).addConnListItem s.nextConnectId).1 = true) {c : ConnId}
    (hc : c < s'.nextConnectId) : (s'.conns c).accepted = true := by
  rcases h.kinds hn hi with hq | ⟨fd, l, k, hin, hnone, hkfd, hkacc, hrem, hq⟩ |
    ⟨s₁, c₁, hq, ha, hslot, rfl⟩
  · rw [hq.accepted]
    exact hacc c (hq.next ▸ hc)
  · rw [hq.accepted]
    rw [hq.next, triedConnection_nextConnectId] at hc
    unfold triedConnection
    by_cases hc' : c = s.nextConnectId
    · subst hc'
      rw [setConn_conns_self, hkacc]
      exact hadd fd l hin hnone
    · rw [setConn_conns_of_ne _ hc', (sameButTable_addConnListItem _ _).conns,
        TCPServer.newConnection, setConn_conns_of_ne _ hc']
      exact hacc c (Nat.lt_of_le_of_ne (Nat.le_of_lt_succ hc) hc')
  · rw [onConnectionRemoveInLoop_accepted ha, hq.accepted]
    rw [onConnectionRemoveInLoop_next ha, hq.next] at hc
    exact hacc c hc

theorem Sized.newConnection (hs : Sized n s) (hfree : s.tcpConnList fd = none) (hlt : fd < n)
    (k : ServerConn) :
    ((s.newConnection fd l).addConnListItem s.nextConnectId).1 = true ∧
      Sized n (s.triedConnection fd l k) := by
  have hconn := newConnection_conn (s := s) fd l
  have hnew : Sized n (s.newConnection fd l) := { hs with }
  exact hnew.add (c := s.nextConnectId) (by rw [hconn]; exact hfree) (by rw [hconn]; exact hlt) k

theorem step_sized (h : s.Serving) (hs : Sized n s) (hn : s.Next i s') (hi : i ≠ .stop)
    (hfd : ∀ fd l, i = .accept fd l → fd < n) : Sized n s' := by
  rcases h.kinds hn hi with hq | ⟨fd, l, k, hin, hnone, hkfd, hkacc, hrem, hq⟩ |
    ⟨s₁, c, hq, ha, hslot, rfl⟩
  · exact hs.quiet hq
  · exact (hs.newConnection hnone (hfd fd l hin) k).2.quiet hq
  · exact (hs.quiet hq).onConnectionRemoveInLoop (h.table.quiet hq) ha hslot

end Steps

theorem sized_init (loopNums size : Nat) : Sized size (init loopNums size) where
  size := rfl
  range := by simp [init]
  count := (occupied_empty size).symm
  noFault := rfl

theorem run_serving {loopNums size : Nat} {is : List Input} {s : TCPServer}
    (hrun : Machine.run step (init loopNums size) is = some s)
    (hin : ∀ i ∈ is, i ≠ .stop ∧ ∀ fd l, i = .accept fd l → fd < size) :
    s.Serving ∧ Sized size s ∧ ∀ c, c < s.nextConnectId → (s.conns c).accepted = true := by
  refine Machine.run_invariant_of_mem
    (P := fun s => s.Serving ∧ Sized size s ∧ ∀ c, c < s.nextConnectId →
      (s.conns c).accepted = true) ?_ ?_ hin hrun
  · rintro s i s' ⟨hserving, hsized, hacc⟩ ⟨hi, hfd⟩ hstep
    have hn := step_next hstep
    refine ⟨step_serving hserving hn hi, step_sized hserving hsized hn hi hfd, fun c hc => ?_⟩
    refine step_accepted hserving hacc hn hi (fun fd l hin hnone => ?_) hc
    exact (hsized.newConnection hnone (hfd fd l hin) (s.conns s.nextConnectId)).1
  · exact ⟨serving_init loopNums size, sized_init loopNums size,
      fun c hc => absurd hc (Nat.not_lt_zero c)⟩

/-- **The table lists the connections that are open.** In every run without `Stop` in
which the descriptors stay below the size of the table, an entry is the connection
made for its descriptor and not yet removed, the counter counts the entries, every
connection runs `HandleClose` at most once, `AddConnListItem` finds its slot empty and
`DelConnListItem` finds the connection it is called for. -/
theorem conn_table_run {loopNums size : Nat} {is : List Input} {s : TCPServer}
    (hrun : Machine.run step (init loopNums size) is = some s) (hstop : Input.stop ∉ is)
    (hfd : ∀ fd l, Input.accept fd l ∈ is → fd < size) :
    (∀ fd c, s.tcpConnList fd = some c ↔
      c < s.nextConnectId ∧ (s.conns c).removed = false ∧ (s.conns c).fd = fd) ∧
    s.tcpConnCount = (List.range s.size).countP (fun fd => (s.tcpConnList fd).isSome) ∧
    (∀ c, (s.conns c).closes ≤ 1) ∧
    s.faults = [] := by
  obtain ⟨hserving, hsized, hacc⟩ := run_serving hrun fun i hi =>
    ⟨fun he => hstop (he ▸ hi), fun fd l he => hfd fd l (he ▸ hi)⟩
  refine ⟨?_, ?_, ?_, hsized.noFault⟩
  · intro fd c
    constructor
    · intro he
      obtain ⟨hf, _, hr⟩ := (hserving.table.slot fd c).mp he
      exact ⟨hserving.placed.entry fd c he, hr, hf⟩
    · rintro ⟨hc, hr, hf⟩
      exact (hserving.table.slot fd c).mpr ⟨hf, hacc c hc, hr⟩
  · rw [countP_range_eq_occupied, hsized.size]
    exact hsized.count
  · exact fun c => (hserving.lives c).closes_le

/-- A connection of the pool's only loop is closed by its peer while a call of
`ForceClose` is on its way; its descriptor is accepted again once it is dropped. -/
theorem conn_table_run_recycled_fd : ∃ s,
    Machine.run step (init 1 8) [.accept 5 1, .runTask 1, .poll 1 [0], .forceClose 0, .push 0,
      .dispatch 1 true, .removeCb 1, .runTask 1, .runTask 0, .runTask 1, .drop 0,
      .accept 5 1] = some s ∧
    (s.conns 0).closes = 1 ∧ s.tcpConnList 5 = some 1 ∧ s.faults = [] := by
  have hobs : (Machine.run step (init 1 8) [.accept 5 1, .runTask 1, .poll 1 [0], .forceClose 0,
      .push 0, .dispatch 1 true, .removeCb 1, .runTask 1, .runTask 0, .runTask 1, .drop 0,
      .accept 5 1]).map (fun s => (s.nextConnectId, (s.conns 0).closes, (s.conns 1).removed,
        (s.conns 1).fd)) = some (2, 1, false, 5) := by
    decide +kernel
  obtain ⟨s, hrun, heq⟩ := Option.map_eq_some_iff.mp hobs
  simp only [Prod.mk.injEq] at heq
  obtain ⟨hnext, hcloses, hremoved, hfd⟩ := heq
  have h := conn_table_run hrun (by decide) (by
    intro fd l hin
    simp only [List.mem_cons, Input.accept.injEq, reduceCtorEq, List.not_mem_nil, false_or,
      or_false] at hin
    omega)
  refine ⟨s, hrun, hcloses, ?_, h.2.2.2⟩
  exact (h.1 5 1).mpr ⟨by rw [hnext]; decide, hremoved, hfd⟩

end TCPServer

end LinuxNet
