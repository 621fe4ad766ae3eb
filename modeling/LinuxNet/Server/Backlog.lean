import LinuxNet.Server.Acceptor

/-!
# The backlog of the acceptor

The acceptor together with what its system calls depend on: the connections that wait to be
accepted, the descriptors that are open, and the limit on their numbers. `accept4` fails with
`EAGAIN` if nobody waits and with `EMFILE` if no number below the limit is left; where both are
true either may be reported. The rest of the process opens and closes descriptors of its own
between the turns of `HandleRead`, but not within one.
-/

namespace LinuxNet

set_option autoImplicit false

open LinuxNet.Lib

structure Listening where
  acceptor : Acceptor
  /-- The connections that wait, by the order in which they came. -/
  backlog : List Nat
  arrived : Nat
  /-- The open descriptors that the acceptor has nothing to do with. -/
  others : Finset Int
  limit : Nat

namespace Listening

/-- A number that `accept4` or `open` can return. -/
def fresh (used : Finset Int) (limit : Nat) (fd : Int) : Bool :=
  0 ≤ fd && fd < limit && fd ∉ used

def full (used : Finset Int) (limit : Nat) : Bool :=
  (List.range limit).all fun n => (n : Int) ∈ used

/-- `accept4` returns `fd`: what is left of the backlog. -/
def accepted (backlog : List Nat) (used : Finset Int) (limit : Nat) (fd : Int) :
    Option (List Nat) :=
  if 0 ≤ fd then
    match backlog with
    | [] => none
    | _ :: rest => if fresh used limit fd then some rest else none
  else if backlog = [] ∨ full used limit = true then some backlog
  else none

/-- The `errno` of an `accept4` that fails. -/
def fails (backlog : List Nat) (used : Finset Int) (limit errno : Nat) : Bool :=
  (errno == EAGAIN && backlog.isEmpty) || (errno == EMFILE && full used limit)

/-- `open` of `/dev/null`. -/
def opens (used : Finset Int) (limit : Nat) (fd : Int) : Bool :=
  if 0 ≤ fd then fresh used limit fd else full used limit

def used (s : Listening) : Finset Int := s.acceptor.fds.table ∪ s.others

/-- The descriptors in use once the reserve is closed. -/
def usedRest (s : Listening) : Finset Int :=
  s.acceptor.fds.table.erase s.acceptor.idleFd ∪ s.others

/-- What a turn leaves of the backlog, if the system can answer its calls like this. -/
def answered (s : Listening) (r : Turn) : Option (List Nat) :=
  if r.accept4 < 0 ∧ fails s.backlog s.used s.limit r.errno = false then none
  else
    (accepted s.backlog s.used s.limit r.accept4).bind fun rest =>
      if r.accept4 < 0 ∧ r.errno = EMFILE then
        if opens s.usedRest s.limit r.openIdle then accepted rest s.usedRest s.limit r.acceptIdle
        else none
      else some rest

inductive Input where
  | arrive
  | handleRead
  | turn (r : Turn)
  | destroySocket (i : Nat)
  /-- Somebody else in the process opens or closes a descriptor. -/
  | openOther (fd : Int)
  | closeOther (fd : Int)
  deriving DecidableEq

def step (s : Listening) : Input → Option Listening
  | .arrive => some { s with backlog := s.backlog ++ [s.arrived], arrived := s.arrived + 1 }
  | .handleRead => (s.acceptor.step .handleRead).map fun a => { s with acceptor := a }
  | .turn r =>
    (s.answered r).bind fun rest =>
      (s.acceptor.step (.turn r)).map fun a => { s with acceptor := a, backlog := rest }
  | .destroySocket i =>
    (s.acceptor.step (.destroySocket i)).map fun a => { s with acceptor := a }
  | .openOther fd =>
    if fresh s.used s.limit fd then some { s with others := insert fd s.others } else none
  | .closeOther fd =>
    if fd ∈ s.others then some { s with others := s.others.erase fd } else none

/-- The connections that a step takes out of the backlog. -/
def served (s : Listening) (_ : Input) (t : Listening) : List Nat :=
  s.backlog.take (s.backlog.length - t.backlog.length)

/-! ## What the system can answer -/

section Answers

variable {backlog rest : List Nat} {set : Finset Int} {limit : Nat} {fd : Int}

theorem fresh_iff : fresh set limit fd = true ↔ 0 ≤ fd ∧ fd < limit ∧ fd ∉ set := by
  simp only [fresh, Bool.and_eq_true, decide_eq_true_eq, and_assoc]

theorem exists_fresh (h : full set limit = false) : ∃ fd, fresh set limit fd = true := by
  rw [full, List.all_eq_false] at h
  obtain ⟨n, hn, hfree⟩ := h
  have hlt := List.mem_range.mp hn
  refine ⟨n, fresh_iff.mpr ⟨by omega, by omega, by simpa using hfree⟩⟩

theorem full_eq_false (h : fresh set limit fd = true) : full set limit = false := by
  obtain ⟨hpos, hlt, hfree⟩ := fresh_iff.mp h
  rw [full, List.all_eq_false]
  refine ⟨fd.toNat, List.mem_range.mpr (by omega), ?_⟩
  rw [Int.toNat_of_nonneg hpos]
  simpa using hfree

/-- A call that does not fail for want of a number serves the first of those who wait. -/
theorem accepted_eq_tail (h : accepted backlog set limit fd = some rest)
    (hroom : 0 ≤ fd ∨ full set limit = false ∨ backlog = []) : rest = backlog.tail := by
  unfold accepted at h
  split at h
  · cases backlog with
    | nil => cases h
    | cons c cs =>
      dsimp only at h
      split at h
      · exact (Option.some.inj h).symm
      · cases h
  · rename_i hneg
    split at h
    · rename_i hwhy
      rw [← Option.some.inj h]
      have hempty : backlog = [] := by
        rcases hwhy with hempty | hfull
        · exact hempty
        · rcases hroom with hpos | hroom | hempty
          · exact absurd hpos hneg
          · rw [hfull] at hroom
            cases hroom
          · exact hempty
      rw [hempty, List.tail_nil]
    · cases h

theorem fresh_of_accepted (h : accepted backlog set limit fd = some rest) (hpos : 0 ≤ fd) :
    fresh set limit fd = true := by
  unfold accepted at h
  rw [if_pos hpos] at h
  cases backlog with
  | nil => cases h
  | cons c cs =>
    dsimp only at h
    split at h
    · assumption
    · cases h

end Answers

/-! ## The descriptors of the acceptor -/

section Tables

variable {d d' : Descriptors} {fd : Int}

theorem close_table (d : Descriptors) (fd : Int) : (d.close fd).table ⊆ d.table := by
  unfold Descriptors.close
  split
  · exact Finset.Subset.refl _
  · exact Finset.erase_subset _ _

theorem destroy_table (k : Socket) (d : Descriptors) : (k.destroy d).table ⊆ d.table := by
  unfold Socket.destroy
  split
  · exact close_table d k.fd
  · exact Finset.Subset.refl _

theorem newFd_table (h : d.newFd fd = some d') :
    ∀ x ∈ d'.table, x ∈ d.table ∨ x = fd ∧ 0 ≤ fd := by
  unfold Descriptors.newFd at h
  split at h
  · rw [← Option.some.inj h]
    exact fun x hx => .inl hx
  · rename_i hneg
    split at h
    · cases h
    · rw [← Option.some.inj h]
      intro x hx
      rcases Finset.mem_insert.mp hx with rfl | hold
      · exact .inr ⟨rfl, by omega⟩
      · exact .inl hold

theorem newFd_of_notMem (hpos : 0 ≤ fd) (hfree : fd ∉ d.table) :
    ∃ d', d.newFd fd = some d' ∧ d'.table = insert fd d.table := by
  unfold Descriptors.newFd
  rw [if_neg (by omega), if_neg hfree]
  exact ⟨_, rfl, rfl⟩

theorem handleClient_table (s : Acceptor) (fd : Int) (r : Turn) :
    (s.handleClient fd r).fds.table ⊆ s.fds.table := by
  unfold Acceptor.handleClient Acceptor.newConnCb
  split
  · exact close_table _ _
  · split
    · exact close_table _ _
    · cases r.moves with
      | true =>
        show (Socket.destroy _ s.fds).table ⊆ s.fds.table
        exact destroy_table _ _
      | false =>
        show (Socket.destroy _ s.fds).table ⊆ s.fds.table
        exact destroy_table _ _

theorem notMem_close (hpos : 0 ≤ fd) (d : Descriptors) : fd ∉ (d.close fd).table := by
  unfold Descriptors.close
  rw [if_neg (by omega)]
  exact Finset.notMem_erase _ _

end Tables

/-! ## The invariant -/

/-- The descriptors of the acceptor are below the limit and not those of others, one of them is
the reserve, and nobody closes the descriptor 0. -/
structure Ready (s : Listening) : Prop where
  kept : s.acceptor.Kept
  alive : s.acceptor.phase ≠ .destroyed
  reserve : 0 ≤ s.acceptor.idleFd
  table : ∀ fd ∈ s.acceptor.fds.table, fd < s.limit ∧ fd ∉ s.others
  zero : 0 ∈ s.others

section Steps

variable {s t : Listening} {i : Input} {r : Turn} {rest : List Nat} {a : Acceptor}

theorem Ready.idle_mem (h : s.Ready) : s.acceptor.idleFd ∈ s.acceptor.fds.table := by
  rw [h.kept.books.table, List.mem_toFinset, Acceptor.owned_of_ne h.alive,
    Acceptor.valid_of_nonneg h.reserve]
  exact List.mem_cons_self

/-- Once the reserve is closed there is a number left. -/
theorem Ready.idle_fresh (h : s.Ready) : fresh s.usedRest s.limit s.acceptor.idleFd = true := by
  obtain ⟨hlt, hother⟩ := h.table _ h.idle_mem
  refine fresh_iff.mpr ⟨h.reserve, hlt, ?_⟩
  rw [usedRest, Finset.mem_union, not_or]
  exact ⟨Finset.notMem_erase _ _, hother⟩

/-- The reserve is opened again. -/
theorem Ready.opens_fresh (h : s.Ready) (ho : opens s.usedRest s.limit r.openIdle = true) :
    fresh s.usedRest s.limit r.openIdle = true := by
  unfold opens at ho
  split at ho
  · exact ho
  · rw [full_eq_false h.idle_fresh] at ho
    cases ho

/-- A turn is one of these: a connection is accepted, nobody waits, or the numbers are used up
and the first of those who wait is served on the number of the reserve. -/
theorem Ready.answered_cases (h : s.Ready) (hr : s.answered r = some rest) :
    rest = s.backlog.tail ∧ ((0 < r.accept4 ∧ fresh s.used s.limit r.accept4 = true) ∨
      (r.accept4 < 0 ∧ r.errno ≠ EMFILE) ∨
      (r.accept4 < 0 ∧ r.errno = EMFILE ∧ fresh s.usedRest s.limit r.openIdle = true)) := by
  unfold answered at hr
  split at hr
  · cases hr
  · rename_i hwhy
    obtain ⟨left, hacc, hrest⟩ := Option.bind_eq_some_iff.mp hr
    rcases Int.lt_or_le r.accept4 0 with hneg | hpos
    · have hwhy : fails s.backlog s.used s.limit r.errno = true := by
        by_contra hno
        exact hwhy ⟨hneg, Bool.eq_false_iff.mpr hno⟩
      split at hrest
      · rename_i hfile
        split at hrest
        · rename_i hopen
          have hsame : left = s.backlog := by
            unfold accepted at hacc
            rw [if_neg (by omega)] at hacc
            split at hacc
            · exact (Option.some.inj hacc).symm
            · cases hacc
          rw [hsame] at hrest
          have htail := accepted_eq_tail hrest (.inr (.inl (full_eq_false h.idle_fresh)))
          exact ⟨htail, .inr (.inr ⟨hneg, hfile.2, h.opens_fresh hopen⟩)⟩
        · cases hrest
      · rename_i hfile
        have hne : r.errno ≠ EMFILE := fun heq => hfile ⟨hneg, heq⟩
        have hempty : s.backlog = [] := by
          simp only [fails, Bool.or_eq_true, Bool.and_eq_true, beq_iff_eq,
            List.isEmpty_iff] at hwhy
          rcases hwhy with hagain | hfull
          · exact hagain.2
          · exact absurd hfull.1 hne
        rw [← Option.some.inj hrest]
        exact ⟨accepted_eq_tail hacc (.inr (.inr hempty)), .inr (.inl ⟨hneg, hne⟩)⟩
    · rw [if_neg (by omega)] at hrest
      rw [← Option.some.inj hrest]
      have hfresh := fresh_of_accepted hacc hpos
      refine ⟨accepted_eq_tail hacc (.inl hpos), .inl ⟨?_, hfresh⟩⟩
      -- the descriptor 0 is in use
      have hne : r.accept4 ≠ 0 := fun heq => by
        have hfree := (fresh_iff.mp hfresh).2.2
        rw [heq, used, Finset.mem_union, not_or] at hfree
        exact hfree.2 h.zero
      omega

theorem Ready.turn (h : s.Ready) (hr : s.answered r = some rest)
    (ha : s.acceptor.step (.turn r) = some a) :
    { s with acceptor := a, backlog := rest }.Ready ∧ rest = s.backlog.tail := by
  obtain ⟨htail, hcases⟩ := h.answered_cases hr
  obtain ⟨hphase, hturn⟩ := Option.ite_none_right_eq_some.mp ha
  have hkept : a.Kept := by
    refine Acceptor.step_kept h.kept ?_ ha
    show r.accept4 ≠ 0
    rcases hcases with hpos | hneg | hneg
    · omega
    · omega
    · omega
  refine ⟨?_, htail⟩
  obtain ⟨d, hd, hclient | hagain | hfile⟩ := Acceptor.turn_cases hturn
  · obtain ⟨hpos, rfl⟩ := hclient
    have hfresh : fresh s.used s.limit r.accept4 = true := by
      rcases hcases with hpos' | hneg | hneg
      · exact hpos'.2
      · omega
      · omega
    obtain ⟨-, hlt, hfree⟩ := fresh_iff.mp hfresh
    rw [used, Finset.mem_union, not_or] at hfree
    obtain ⟨hidle, hph⟩ := Acceptor.handleClient_kept { s.acceptor with fds := d } r.accept4 r
    refine ⟨hkept, ?_, ?_, fun x hx => ?_, h.zero⟩
    · show (Acceptor.handleClient { s.acceptor with fds := d } r.accept4 r).phase ≠ _
      rw [hph]
      exact h.alive
    · show 0 ≤ (Acceptor.handleClient { s.acceptor with fds := d } r.accept4 r).idleFd
      rw [hidle]
      exact h.reserve
    · rcases newFd_table hd x (handleClient_table _ _ _ hx) with hold | ⟨rfl, -⟩
      · exact h.table x hold
      · exact ⟨hlt, hfree.2⟩
  · obtain ⟨hle, -, rfl⟩ := hagain
    refine ⟨hkept, by simp, h.reserve, fun x hx => ?_, h.zero⟩
    rcases newFd_table hd x hx with hold | ⟨rfl, hpos⟩
    · exact h.table x hold
    · rcases hcases with hpos' | hneg | hneg <;> omega
  · obtain ⟨hle, hfile, a', ha', rfl⟩ := hfile
    have hfresh : fresh s.usedRest s.limit r.openIdle = true := by
      rcases hcases with hpos | hneg | hneg
      · omega
      · exact absurd hfile hneg.2
      · exact hneg.2.2
    obtain ⟨hpos, hlt, hfree⟩ := fresh_iff.mp hfresh
    rw [usedRest, Finset.mem_union, not_or] at hfree
    have hneg : r.accept4 < 0 := by rcases hcases with hpos' | hneg | hneg <;> omega
    obtain ⟨d₁, d₂, hd₁, hd₂, rfl⟩ := Acceptor.renewIdle_eq_some ha'
    refine ⟨hkept, by simp, hpos, fun x hx => ?_, h.zero⟩
    rcases newFd_table hd₂ x hx with hold | ⟨rfl, -⟩
    · -- what was accepted in the place of the reserve is closed again
      have hkeep : x ∈ d.table := by
        rcases newFd_table hd₁ x (close_table _ _ hold) with hkeep | ⟨rfl, hidle⟩
        · exact close_table _ _ hkeep
        · rw [if_neg (by omega)] at hold
          exact absurd hold (notMem_close hidle d₁)
      rcases newFd_table hd x hkeep with hmem | ⟨-, hpos'⟩
      · exact h.table x hmem
      · omega
    · exact ⟨hlt, hfree.2⟩

/-- The connections that have been served and those that wait are all that have come, in order. -/
structure Serves (h : List Nat) (s : Listening) : Prop where
  ready : s.Ready
  order : h ++ s.backlog = List.range s.arrived

/-- **One step.** -/
theorem step_serves {past : List Nat} (hp : Serves past s) (hi : i ≠ .closeOther 0)
    (hs : s.step i = some t) : Serves (past ++ served s i t) t := by
  have h := hp.ready
  have hquiet : ∀ {q : Listening}, q.Ready → q.backlog = s.backlog → q.arrived = s.arrived →
      Serves (past ++ served s i q) q := by
    intro q hq hb harr
    refine ⟨hq, ?_⟩
    rw [served, hb, harr, Nat.sub_self, List.take_zero, List.append_nil]
    exact hp.order
  cases i with
  | arrive =>
    obtain rfl := Option.some.inj hs
    refine ⟨{ h with }, ?_⟩
    rw [served, List.length_append, Nat.sub_eq_zero_of_le (by omega), List.take_zero,
      List.append_nil, List.range_succ, ← hp.order, List.append_assoc]
  | handleRead =>
    obtain ⟨a, ha, rfl⟩ := Option.map_eq_some_iff.mp hs
    have hkept := Acceptor.step_kept (i := .handleRead) h.kept trivial ha
    obtain ⟨hph, heq⟩ := Option.ite_none_right_eq_some.mp ha
    obtain rfl := Option.some.inj heq
    exact hquiet ⟨hkept, by simp, h.reserve, h.table, h.zero⟩ rfl rfl
  | turn r =>
    obtain ⟨rest, hrest, hmap⟩ := Option.bind_eq_some_iff.mp hs
    obtain ⟨a, ha, rfl⟩ := Option.map_eq_some_iff.mp hmap
    obtain ⟨hready, htail⟩ := h.turn hrest ha
    refine ⟨hready, ?_⟩
    rw [← hp.order, served, htail, List.append_assoc]
    cases hb : s.backlog with
    | nil => rfl
    | cons c cs =>
      rw [List.tail_cons, List.length_cons, Nat.add_sub_cancel_left]
      rfl
  | destroySocket n =>
    obtain ⟨a, ha, rfl⟩ := Option.map_eq_some_iff.mp hs
    have hkept := Acceptor.step_kept (i := .destroySocket n) h.kept trivial ha
    obtain ⟨k, hk, rfl⟩ := Option.map_eq_some_iff.mp ha
    refine hquiet ⟨hkept, h.alive, h.reserve, fun x hx => ?_, h.zero⟩ rfl rfl
    exact h.table x (destroy_table k _ hx)
  | openOther fd =>
    obtain ⟨hfresh, heq⟩ := Option.ite_none_right_eq_some.mp hs
    obtain rfl := Option.some.inj heq
    obtain ⟨hpos, hlt, hfree⟩ := fresh_iff.mp hfresh
    rw [used, Finset.mem_union, not_or] at hfree
    refine hquiet ⟨h.kept, h.alive, h.reserve, fun x hx => ?_, Finset.mem_insert_of_mem h.zero⟩
      rfl rfl
    refine ⟨(h.table x hx).1, fun hin => ?_⟩
    rcases Finset.mem_insert.mp hin with rfl | hold
    · exact hfree.1 hx
    · exact (h.table x hx).2 hold
  | closeOther fd =>
    obtain ⟨hmem, heq⟩ := Option.ite_none_right_eq_some.mp hs
    obtain rfl := Option.some.inj heq
    have hne : (0 : Int) ≠ fd := fun heq => hi (by rw [heq])
    refine hquiet ⟨h.kept, h.alive, h.reserve, fun x hx => ?_, Finset.mem_erase.mpr ⟨hne, h.zero⟩⟩
      rfl rfl
    exact ⟨(h.table x hx).1, fun hin => (h.table x hx).2 (Finset.mem_of_mem_erase hin)⟩

/-! ## The system can always answer -/

theorem step_turn (hr : s.answered r = some rest) (ha : s.acceptor.step (.turn r) = some a) :
    s.step (.turn r) = some { s with acceptor := a, backlog := rest } := by
  simp only [step, hr, ha, Option.bind_some, Option.map_some]

/-- The numbers are used up: the reserve is given up and taken again. -/
theorem Ready.turn_full (h : s.Ready) (hph : s.acceptor.phase = .reading) {c : Nat}
    {cs : List Nat} (hb : s.backlog = c :: cs) (hfull : full s.used s.limit = true) :
    ∃ r t, s.step (.turn r) = some t := by
  obtain ⟨r, hr⟩ : ∃ r : Turn, r = ⟨-1, EMFILE, 0, 0, false, false, s.acceptor.idleFd,
    s.acceptor.idleFd⟩ := ⟨_, rfl⟩
  have hfresh := h.idle_fresh
  have hans : s.answered r = some cs := by
    have hwhy : fails s.backlog s.used s.limit EMFILE = true := by simp [fails, hfull]
    have hfirst : accepted s.backlog s.used s.limit (-1) = some s.backlog := by
      simp [accepted, hfull]
    have hsecond : accepted s.backlog s.usedRest s.limit s.acceptor.idleFd = some cs := by
      simp [accepted, h.reserve, hb, hfresh]
    have hopen : opens s.usedRest s.limit s.acceptor.idleFd = true := by
      simp [opens, h.reserve, hfresh]
    subst hr
    simp [answered, hwhy, hfirst, hsecond, hopen]
  have hclosed : ∀ d : Descriptors, s.acceptor.idleFd ∉ (d.close s.acceptor.idleFd).table :=
    notMem_close h.reserve
  obtain ⟨d₁, hd₁, -⟩ := newFd_of_notMem h.reserve (hclosed s.acceptor.fds)
  obtain ⟨d₂, hd₂, -⟩ := newFd_of_notMem h.reserve (hclosed d₁)
  have hrenew : s.acceptor.renewIdle r =
      some { s.acceptor with idleFd := s.acceptor.idleFd, fds := d₂ } := by
    subst hr
    have hneg : ¬ (0 : Int) > s.acceptor.idleFd := by have := h.reserve; omega
    simp [Acceptor.renewIdle, Acceptor.acceptConnection, hd₁, hd₂, hneg]
  have hturn : s.acceptor.step (.turn r) = some { s.acceptor with
      idleFd := s.acceptor.idleFd, fds := d₂, phase := .waiting } := by
    have haccept : s.acceptor.acceptConnection r.accept4 = some (-1, s.acceptor) := by
      subst hr
      rfl
    have hfile : r.errno = EMFILE := by rw [hr]
    simp only [Acceptor.step, hph, if_true, Acceptor.turn, haccept, Option.bind_some]
    rw [if_neg (by decide), if_neg (by rw [hfile]; decide), if_pos hfile, hrenew]
    rfl
  exact ⟨r, _, step_turn hans hturn⟩

theorem Ready.exists_turn (h : s.Ready) (hph : s.acceptor.phase = .reading) :
    ∃ r t, s.step (.turn r) = some t := by
  cases hb : s.backlog with
  | nil =>
    have hans : s.answered ⟨-1, EAGAIN, 0, 0, false, false, -1, -1⟩ = some [] := by
      simp [answered, accepted, fails, hb, EAGAIN, EMFILE]
    have hturn : s.acceptor.step (.turn ⟨-1, EAGAIN, 0, 0, false, false, -1, -1⟩) =
        some { s.acceptor with phase := .waiting } := by
      simp only [Acceptor.step, hph, if_true]
      rfl
    exact ⟨_, _, step_turn hans hturn⟩
  | cons c cs =>
    cases hfull : full s.used s.limit with
    | true => exact h.turn_full hph hb hfull
    | false =>
      obtain ⟨fd, hfresh⟩ := exists_fresh hfull
      obtain ⟨hpos, -, hfree⟩ := fresh_iff.mp hfresh
      rw [used, Finset.mem_union, not_or] at hfree
      have hne : fd ≠ 0 := fun heq => hfree.2 (heq ▸ h.zero)
      obtain ⟨d, hd, -⟩ := newFd_of_notMem hpos hfree.1
      have hans : s.answered ⟨fd, 0, 0, 0, false, false, -1, -1⟩ = some cs := by
        have hneg : ¬ fd < 0 := by omega
        simp [answered, accepted, hb, hpos, hneg, hfresh]
      have hturn : s.acceptor.step (.turn ⟨fd, 0, 0, 0, false, false, -1, -1⟩) =
          some (Acceptor.handleClient { s.acceptor with fds := d } fd
            ⟨fd, 0, 0, 0, false, false, -1, -1⟩) := by
        have haccept :
            s.acceptor.acceptConnection fd = some (fd, { s.acceptor with fds := d }) := by
          rw [Acceptor.acceptConnection, hd, Option.map_some, if_neg (by omega)]
        simp only [Acceptor.step, hph, if_true, Acceptor.turn, haccept, Option.bind_some]
        rw [if_pos (by omega)]
      exact ⟨_, _, step_turn hans hturn⟩

end Steps

end Listening

end LinuxNet
