import LinuxNet.Lib.Ledger
import LinuxNet.Connection.Model

/-!
# The descriptors of the acceptor

`HandleRead` gets descriptors from `accept4` as plain integers. It closes them, or puts them
into a `Socket` that the callback may move on. One more descriptor is kept in reserve: when
the process has no descriptor left it is given up, the connection that waits is accepted and
closed, and the reserve is opened again.

`AcceptConnection` takes every negative result for an error and `HandleRead` everything that
is not positive: a connection that is accepted on the descriptor 0 is forgotten.
-/

namespace LinuxNet

set_option autoImplicit false

open LinuxNet.Lib

def EMFILE : Nat := 24

def POLLOUT : BitVec 16 := 0x004#16

/-! ## The system -/

/-- The descriptors that are open, of those the acceptor has got, and the calls that
opened and closed them. -/
structure Descriptors where
  table : Finset Int
  log : List (Ledger.Entry Int)
  deriving DecidableEq

namespace Descriptors

/-- A call that returns a new descriptor or fails. A new descriptor is one that is not open. -/
def newFd (d : Descriptors) (fd : Int) : Option Descriptors :=
  if fd < 0 then some d
  else if fd ∈ d.table then none
  else some ⟨insert fd d.table, d.log ++ [.opened fd]⟩

/-- `::close`, which fails on negative descriptors. -/
def close (d : Descriptors) (fd : Int) : Descriptors :=
  if fd < 0 then d else ⟨d.table.erase fd, d.log ++ [.closed fd]⟩

end Descriptors

/-- `net::Socket`. -/
structure Socket where
  fd : Int
  deriving DecidableEq, Repr

/-- `Socket(Socket&& other)`: the new socket and what is left of the other one. -/
def Socket.move (other : Socket) : Socket × Socket := (⟨other.fd⟩, ⟨-1⟩)

/-- `~Socket`. -/
def Socket.destroy (k : Socket) (d : Descriptors) : Descriptors :=
  if 0 < k.fd then d.close k.fd else d

/-! ## The acceptor -/

/-- What `HandleRead` finds in one turn of its loop. -/
structure Turn where
  accept4 : Int
  /-- `errno` after `accept4`; a call that succeeds leaves an older value there. -/
  errno : Nat
  pollNum : Int
  revents : BitVec 16
  /-- `new_conn_cb_` is set. -/
  newConnCb : Bool
  /-- The callback moves the socket out of its argument. -/
  moves : Bool
  /-- The results of `accept4` and `open` after `EMFILE`. -/
  acceptIdle : Int
  openIdle : Int
  deriving DecidableEq, Repr

inductive Acceptor.Phase where
  | waiting | reading | destroyed
  deriving DecidableEq, Repr

structure Acceptor where
  idleFd : Int
  phase : Acceptor.Phase
  /-- The sockets that callbacks have moved out of their argument, as long as they exist. -/
  sockets : List Socket
  fds : Descriptors
  deriving DecidableEq

namespace Acceptor

/-- `Initialize`; the process exits if `/dev/null` cannot be opened. -/
def init (fd : Int) : Option Acceptor :=
  if 0 > fd then none else some ⟨fd, .waiting, [], ⟨{fd}, [.opened fd]⟩⟩

def acceptConnection (s : Acceptor) (accept4 : Int) : Option (Int × Acceptor) :=
  (s.fds.newFd accept4).map fun d => (if 0 > accept4 then -1 else accept4, { s with fds := d })

def checkConnection (r : Turn) : Bool := r.pollNum = 1 && (POLLOUT &&& r.revents != 0)

/-- `new_conn_cb_`: what is left of its argument, and the acceptor after it. -/
def newConnCb (s : Acceptor) (k : Socket) (moves : Bool) : Socket × Acceptor :=
  if moves then (k.move.2, { s with sockets := s.sockets ++ [k.move.1] }) else (k, s)

/-- The branch of `HandleRead` for a descriptor; the local socket is destroyed at its end. -/
def handleClient (s : Acceptor) (clientFd : Int) (r : Turn) : Acceptor :=
  if checkConnection r = false then { s with fds := s.fds.close clientFd }
  else if r.newConnCb = false then { s with fds := s.fds.close clientFd }
  else
    let (socket, s) := s.newConnCb ⟨clientFd⟩ r.moves
    { s with fds := socket.destroy s.fds }

/-- The branch for `EMFILE`. -/
def renewIdle (s : Acceptor) (r : Turn) : Option Acceptor :=
  let s := { s with fds := s.fds.close s.idleFd }
  (s.acceptConnection r.acceptIdle).bind fun (fd, s) =>
    let s := { s with idleFd := fd }
    let s := { s with fds := s.fds.close s.idleFd }
    (s.fds.newFd r.openIdle).map fun d => { s with idleFd := r.openIdle, fds := d }

/-- One turn of the loop of `HandleRead`. -/
def turn (s : Acceptor) (r : Turn) : Option Acceptor :=
  (s.acceptConnection r.accept4).bind fun (clientFd, s) =>
    if 0 < clientFd then some (s.handleClient clientFd r)
    else if r.errno = EAGAIN then some { s with phase := .waiting }
    else if r.errno = EMFILE then (s.renewIdle r).map fun s => { s with phase := .waiting }
    else some { s with phase := .waiting }

/-- A call of `HandleRead` and the turns of its loop, the end of a socket that a callback
has moved on, and `~Acceptor`. -/
inductive Input where
  | handleRead
  | turn (r : Turn)
  | destroySocket (i : Nat)
  | dtor
  deriving DecidableEq, Repr

def step (s : Acceptor) : Input → Option Acceptor
  | .handleRead => if s.phase = .waiting then some { s with phase := .reading } else none
  | .turn r => if s.phase = .reading then s.turn r else none
  | .destroySocket i =>
    s.sockets[i]?.map fun k =>
      { s with sockets := s.sockets.eraseIdx i, fds := k.destroy s.fds }
  | .dtor =>
    if s.phase = .waiting then
      some { s with phase := .destroyed, fds := s.fds.close s.idleFd }
    else none

/-! ## The accounts -/

/-- The descriptor, unless it stands for an error. -/
def valid (fd : Int) : List Int := if fd < 0 then [] else [fd]

/-- The descriptors somebody is going to close: the reserve and those in a socket. -/
def owned (s : Acceptor) : List Int :=
  (if s.phase = .destroyed then [] else valid s.idleFd) ++ s.sockets.map Socket.fd

/-- Every descriptor has been closed once each time it was opened, or it is open and has one
owner. -/
def Accounted (s : Acceptor) : Prop :=
  s.owned.Nodup ∧ Ledger.balance s.fds.log = some s.owned.toFinset

instance (s : Acceptor) : Decidable s.Accounted := inferInstanceAs (Decidable (_ ∧ _))

def opening (fd : Int) : List (Ledger.Entry Int) := (valid fd).map .opened

def closing (fd : Int) : List (Ledger.Entry Int) := (valid fd).map .closed

/-- A turn that finds no descriptor left closes the reserve once and what it accepts then
once, and the reserve is what `open` returns. -/
def Renews (s : Acceptor) (i : Input) : Prop :=
  ∀ r t, i = .turn r → r.accept4 ≤ 0 → r.errno = EMFILE → s.step i = some t →
    t.idleFd = r.openIdle ∧ t.fds.log = s.fds.log ++ (opening r.accept4 ++ closing s.idleFd ++
      opening r.acceptIdle ++ closing r.acceptIdle ++ opening r.openIdle)

/-! ## The calls keep the accounts -/

/-- The descriptors `own` are open, and every other one has been closed. -/
structure Books (d : Descriptors) (own : List Int) : Prop where
  nodup : own.Nodup
  table : d.table = own.toFinset
  balance : Ledger.balance d.log = some own.toFinset

section Books

variable {d d' : Descriptors} {own own' : List Int} {fd : Int}

theorem Books.perm (h : Books d own) (hp : own.Perm own') : Books d own' := by
  have hset : own'.toFinset = own.toFinset := (List.toFinset_eq_of_perm own own' hp).symm
  exact ⟨hp.nodup_iff.mp h.nodup, hset ▸ h.table, hset ▸ h.balance⟩

theorem valid_of_neg (h : fd < 0) : valid fd = [] := if_pos h

theorem valid_of_nonneg (h : 0 ≤ fd) : valid fd = [fd] := if_neg (Int.not_lt.mpr h)

/-- A new descriptor has to be owned by somebody. -/
theorem Books.newFd (h : Books d own) (hd : d.newFd fd = some d') : Books d' (valid fd ++ own) := by
  unfold Descriptors.newFd at hd
  split at hd
  · rename_i hneg
    rw [valid_of_neg hneg, List.nil_append]
    exact Option.some.inj hd ▸ h
  · rename_i hfd
    rw [valid_of_nonneg (Int.not_lt.mp hfd), List.singleton_append]
    split at hd
    · cases hd
    · rename_i hfresh
      obtain rfl := Option.some.inj hd
      rw [h.table] at hfresh
      have hnot : fd ∉ own := fun hmem => hfresh (List.mem_toFinset.mpr hmem)
      refine ⟨List.nodup_cons.mpr ⟨hnot, h.nodup⟩, ?_, ?_⟩
      · rw [List.toFinset_cons, h.table]
      · rw [List.toFinset_cons]
        exact Ledger.balance_opened h.balance hfresh

theorem Books.close (h : Books d (valid fd ++ own)) : Books (d.close fd) own := by
  unfold Descriptors.close
  split
  · rename_i hneg
    rwa [valid_of_neg hneg, List.nil_append] at h
  · rename_i hfd
    rw [valid_of_nonneg (Int.not_lt.mp hfd), List.singleton_append] at h
    obtain ⟨hnot, hnodup⟩ := List.nodup_cons.mp h.nodup
    have herase : ((fd :: own).toFinset).erase fd = own.toFinset := by
      rw [List.toFinset_cons, Finset.erase_insert (fun hmem => hnot (List.mem_toFinset.mp hmem))]
    refine ⟨hnodup, ?_, ?_⟩
    · change d.table.erase fd = _
      rw [h.table, herase]
    · rw [← herase]
      exact Ledger.balance_closed h.balance (List.mem_toFinset.mpr List.mem_cons_self)

theorem newFd_log (hd : d.newFd fd = some d') : d'.log = d.log ++ opening fd := by
  unfold Descriptors.newFd at hd
  unfold opening valid
  split at hd
  · rename_i hneg
    rw [if_pos hneg, List.map_nil, List.append_nil]
    exact congrArg Descriptors.log (Option.some.inj hd).symm
  · rename_i hfd
    rw [if_neg hfd]
    split at hd
    · cases hd
    · exact congrArg Descriptors.log (Option.some.inj hd).symm

theorem close_log (d : Descriptors) (fd : Int) : (d.close fd).log = d.log ++ closing fd := by
  unfold Descriptors.close closing valid
  split
  · rw [List.map_nil, List.append_nil]
  · rfl

end Books

/-! ## The acceptor keeps the accounts -/

section Turn

variable {s t : Acceptor} {r : Turn} {fd accept4 : Int} {rest : List Int}

/-- The descriptors in sockets that callbacks have moved on. -/
def handedOver (s : Acceptor) : List Int := s.sockets.map Socket.fd

theorem owned_of_ne (h : s.phase ≠ .destroyed) : s.owned = valid s.idleFd ++ s.handedOver := by
  rw [owned, if_neg h, handedOver]

theorem acceptConnection_eq_some (h : s.acceptConnection accept4 = some (fd, t)) :
    ∃ d, s.fds.newFd accept4 = some d ∧ fd = (if 0 > accept4 then -1 else accept4) ∧
      t = { s with fds := d } := by
  obtain ⟨d, hd, heq⟩ := Option.map_eq_some_iff.mp h
  obtain ⟨hfd, ht⟩ := Prod.mk.inj heq
  exact ⟨d, hd, hfd.symm, ht.symm⟩

/-- `AcceptConnection` returns every error as -1. -/
theorem valid_accepted (fd : Int) : valid (if 0 > fd then -1 else fd) = valid fd := by
  split
  · rename_i hneg
    rw [valid_of_neg hneg, valid_of_neg (by decide)]
  · rfl

theorem Books.handleClient (h : Books s.fds (fd :: (rest ++ s.handedOver))) (hfd : 0 < fd) :
    Books (s.handleClient fd r).fds (rest ++ (s.handleClient fd r).handedOver) := by
  have hclosed : Books (s.fds.close fd) (rest ++ s.handedOver) := by
    refine Books.close ?_
    rwa [valid_of_nonneg hfd.le]
  unfold Acceptor.handleClient
  split
  · exact hclosed
  · split
    · exact hclosed
    · cases hmoves : r.moves with
      | true =>
        -- the callback's socket owns the descriptor, the local one is left with -1
        have hsockets : (s.newConnCb ⟨fd⟩ true).2.handedOver = s.handedOver ++ [fd] := by
          simp [Acceptor.newConnCb, Acceptor.handedOver, Socket.move]
        change Books s.fds (rest ++ (s.newConnCb ⟨fd⟩ true).2.handedOver)
        rw [hsockets, ← List.append_assoc]
        exact h.perm (List.perm_append_singleton fd _).symm
      | false =>
        have hdestroy : (⟨fd⟩ : Socket).destroy s.fds = s.fds.close fd := if_pos hfd
        change Books ((⟨fd⟩ : Socket).destroy s.fds) (rest ++ s.handedOver)
        rw [hdestroy]
        exact hclosed

theorem handleClient_kept (s : Acceptor) (fd : Int) (r : Turn) :
    (s.handleClient fd r).idleFd = s.idleFd ∧ (s.handleClient fd r).phase = s.phase := by
  unfold Acceptor.handleClient newConnCb
  split
  · exact ⟨rfl, rfl⟩
  · split
    · exact ⟨rfl, rfl⟩
    · cases r.moves <;> exact ⟨rfl, rfl⟩

/-- What `EMFILE` does: two descriptors are closed and at most one is open at its end. -/
theorem renewIdle_eq_some (h : s.renewIdle r = some t) :
    ∃ d d', (s.fds.close s.idleFd).newFd r.acceptIdle = some d ∧
      (d.close (if 0 > r.acceptIdle then -1 else r.acceptIdle)).newFd r.openIdle = some d' ∧
      t = { s with idleFd := r.openIdle, fds := d' } := by
  obtain ⟨⟨fd, s'⟩, hacc, hrest⟩ := Option.bind_eq_some_iff.mp h
  obtain ⟨d, hd, rfl, rfl⟩ := acceptConnection_eq_some hacc
  obtain ⟨d', hd', rfl⟩ := Option.map_eq_some_iff.mp hrest
  exact ⟨d, d', hd, hd', rfl⟩

theorem Books.renewIdle (h : Books s.fds (valid s.idleFd ++ rest)) (ht : s.renewIdle r = some t) :
    Books t.fds (valid t.idleFd ++ rest) := by
  obtain ⟨d, d', hd, hd', rfl⟩ := renewIdle_eq_some ht
  have haccepted : Books d (valid (if 0 > r.acceptIdle then -1 else r.acceptIdle) ++ rest) := by
    rw [valid_accepted]
    exact h.close.newFd hd
  exact haccepted.close.newFd hd'

theorem turn_cases (h : s.turn r = some t) : ∃ d, s.fds.newFd r.accept4 = some d ∧
    ((0 < r.accept4 ∧ t = handleClient { s with fds := d } r.accept4 r) ∨
      (r.accept4 ≤ 0 ∧ r.errno ≠ EMFILE ∧ t = { s with phase := .waiting, fds := d }) ∨
      (r.accept4 ≤ 0 ∧ r.errno = EMFILE ∧ ∃ t', renewIdle { s with fds := d } r = some t' ∧
        t = { t' with phase := .waiting })) := by
  obtain ⟨⟨fd, s'⟩, hacc, hrest⟩ := Option.bind_eq_some_iff.mp h
  obtain ⟨d, hd, rfl, rfl⟩ := acceptConnection_eq_some hacc
  dsimp only at hrest
  refine ⟨d, hd, ?_⟩
  rcases Int.lt_or_le 0 r.accept4 with hpos | hpos
  · have hfd : (if 0 > r.accept4 then -1 else r.accept4) = r.accept4 := if_neg (by omega)
    rw [hfd, if_pos hpos] at hrest
    exact .inl ⟨hpos, (Option.some.inj hrest).symm⟩
  · have hfd : ¬ 0 < (if 0 > r.accept4 then -1 else r.accept4) := by split <;> omega
    rw [if_neg hfd] at hrest
    right
    split at hrest
    · rename_i hagain
      exact .inl ⟨hpos, by rw [hagain]; decide, (Option.some.inj hrest).symm⟩
    · split at hrest
      · rename_i hfile
        obtain ⟨t', ht', heq⟩ := Option.map_eq_some_iff.mp hrest
        exact .inr ⟨hpos, hfile, t', ht', heq.symm⟩
      · rename_i hfile
        exact .inl ⟨hpos, hfile, (Option.some.inj hrest).symm⟩

/-- The descriptor 0 is the one that `HandleRead` forgets. -/
def forgotten (r : Turn) : List Int := if r.accept4 = 0 then [0] else []

theorem valid_eq_forgotten (h : r.accept4 ≤ 0) : valid r.accept4 = forgotten r := by
  unfold forgotten
  split
  · rename_i hzero
    rw [hzero]
    rfl
  · exact valid_of_neg (by omega)

theorem Books.turn (h : Books s.fds s.owned) (hs : s.phase = .reading) (ht : s.turn r = some t) :
    Books t.fds (forgotten r ++ t.owned) := by
  rw [owned_of_ne (by rw [hs]; decide)] at h
  obtain ⟨d, hd, ⟨hpos, rfl⟩ | ⟨hpos, -, rfl⟩ | ⟨hpos, -, t', ht', rfl⟩⟩ := turn_cases ht
  · have hnew := h.newFd hd
    rw [valid_of_nonneg hpos.le] at hnew
    have hkept := handleClient_kept { s with fds := d } r.accept4 r
    have hne : (Acceptor.handleClient { s with fds := d } r.accept4 r).phase ≠ .destroyed := by
      rw [hkept.2, hs]
      decide
    rw [forgotten, if_neg hpos.ne', List.nil_append, owned_of_ne hne, hkept.1]
    exact Books.handleClient hnew hpos
  · have hnew := h.newFd hd
    rw [valid_eq_forgotten hpos] at hnew
    rw [owned_of_ne]
    · exact hnew
    · nofun
  · have hnew := h.newFd hd
    rw [valid_eq_forgotten hpos] at hnew
    have hsockets : t'.sockets = s.sockets := by
      obtain ⟨d, d', -, -, rfl⟩ := renewIdle_eq_some ht'
      rfl
    have hrenewed := Books.renewIdle (hnew.perm (List.perm_append_comm_assoc _ _ _)) ht'
    rw [owned_of_ne]
    · change Books t'.fds (forgotten r ++ (valid t'.idleFd ++ t'.sockets.map Socket.fd))
      rw [hsockets]
      exact hrenewed.perm (List.perm_append_comm_assoc _ _ _)
    · nofun

/-- The calls of a turn that finds no descriptor left. -/
theorem turn_renews (ht : s.turn r = some t) (hpos : r.accept4 ≤ 0) (hfile : r.errno = EMFILE) :
    t.idleFd = r.openIdle ∧ t.fds.log = s.fds.log ++ (opening r.accept4 ++ closing s.idleFd ++
      opening r.acceptIdle ++ closing r.acceptIdle ++ opening r.openIdle) := by
  obtain ⟨d, hd, ⟨hfd, -⟩ | ⟨-, hne, -⟩ | ⟨-, -, t', ht', rfl⟩⟩ := turn_cases ht
  · omega
  · exact absurd hfile hne
  · obtain ⟨d', d'', hd', hd'', rfl⟩ := renewIdle_eq_some ht'
    refine ⟨rfl, ?_⟩
    have hclosing : closing (if 0 > r.acceptIdle then -1 else r.acceptIdle) =
        closing r.acceptIdle := by rw [closing, valid_accepted, closing]
    calc d''.log = d'.log ++ closing r.acceptIdle ++ opening r.openIdle := by
          rw [newFd_log hd'', close_log, hclosing]
      _ = d.log ++ closing s.idleFd ++ opening r.acceptIdle ++ closing r.acceptIdle ++
          opening r.openIdle := by rw [newFd_log hd', close_log]
      _ = _ := by simp only [newFd_log hd, List.append_assoc]

end Turn

/-! ## Runs -/

/-- What holds as long as no descriptor has been forgotten. -/
structure Kept (s : Acceptor) : Prop where
  books : Books s.fds s.owned
  sockets : ∀ k ∈ s.sockets, 0 < k.fd

/-- The turn forgets no descriptor. -/
def Input.Remembers : Input → Prop
  | .turn r => r.accept4 ≠ 0
  | _ => True

section Runs

variable {s t : Acceptor} {i : Input} {r : Turn}

theorem kept_init {fd : Int} (h : init fd = some s) : s.Kept := by
  unfold init at h
  split at h
  · cases h
  · rename_i hfd
    obtain rfl := Option.some.inj h
    refine ⟨?_, nofun⟩
    rw [owned_of_ne]
    · rw [valid_of_nonneg (Int.not_lt.mp hfd)]
      exact ⟨List.nodup_singleton fd, rfl, rfl⟩
    · nofun

theorem Kept.accounted (h : s.Kept) : s.Accounted := ⟨h.books.nodup, h.books.balance⟩

theorem turn_sockets (h : ∀ k ∈ s.sockets, 0 < k.fd) (ht : s.turn r = some t) :
    ∀ k ∈ t.sockets, 0 < k.fd := by
  obtain ⟨d, -, ⟨hpos, rfl⟩ | ⟨-, -, rfl⟩ | ⟨-, -, t', ht', rfl⟩⟩ := turn_cases ht
  · unfold handleClient newConnCb
    split
    · exact h
    · split
      · exact h
      · cases r.moves with
        | false => exact h
        | true =>
          intro k hk
          rcases List.mem_append.mp hk with hold | hnew
          · exact h k hold
          · rw [List.mem_singleton.mp hnew]
            exact hpos
  · exact h
  · obtain ⟨d', d'', -, -, rfl⟩ := renewIdle_eq_some ht'
    exact h

theorem Kept.destroySocket (h : s.Kept) {n : Nat} {k : Socket} (hk : s.sockets[n]? = some k) :
    Kept { s with sockets := s.sockets.eraseIdx n, fds := k.destroy s.fds } := by
  have hpos : 0 < k.fd := h.sockets k (List.mem_of_getElem? hk)
  refine ⟨?_, fun k' hk' => h.sockets k' (List.mem_of_mem_eraseIdx hk')⟩
  have hperm : (k :: s.sockets.eraseIdx n).Perm s.sockets := by
    obtain ⟨hn, rfl⟩ := List.getElem?_eq_some_iff.mp hk
    exact List.getElem_cons_eraseIdx_perm hn
  have hfds : (k.fd :: (s.sockets.eraseIdx n).map Socket.fd).Perm (s.sockets.map Socket.fd) :=
    hperm.map Socket.fd
  have hdestroy : k.destroy s.fds = s.fds.close k.fd := if_pos hpos
  change Books (k.destroy s.fds) (_ ++ (s.sockets.eraseIdx n).map Socket.fd)
  rw [hdestroy]
  refine Books.close ?_
  rw [valid_of_nonneg hpos.le]
  exact h.books.perm ((hfds.symm.append_left _).trans (List.perm_append_comm_assoc _ [k.fd] _))

theorem step_kept (h : s.Kept) (hi : i.Remembers) (ht : s.step i = some t) : t.Kept := by
  cases i with
  | handleRead =>
    obtain ⟨hphase, hst⟩ := Option.ite_none_right_eq_some.mp ht
    obtain rfl := Option.some.inj hst
    refine ⟨?_, h.sockets⟩
    have hbooks := h.books
    rw [owned_of_ne (by rw [hphase]; decide)] at hbooks
    rw [owned_of_ne]
    · exact hbooks
    · nofun
  | turn r =>
    obtain ⟨hphase, hst⟩ := Option.ite_none_right_eq_some.mp ht
    have hbooks := h.books.turn hphase hst
    rw [forgotten, if_neg hi] at hbooks
    exact ⟨hbooks, turn_sockets h.sockets hst⟩
  | destroySocket n =>
    obtain ⟨k, hk, rfl⟩ := Option.map_eq_some_iff.mp ht
    exact h.destroySocket hk
  | dtor =>
    obtain ⟨hphase, hst⟩ := Option.ite_none_right_eq_some.mp ht
    obtain rfl := Option.some.inj hst
    refine ⟨?_, h.sockets⟩
    have hbooks := h.books
    rw [owned_of_ne (by rw [hphase]; decide)] at hbooks
    exact hbooks.close

/-- A descriptor without an owner is open. -/
theorem not_accounted_of_forgotten (h : Books t.fds (0 :: t.owned)) : ¬ t.Accounted := by
  intro hacc
  have hset : (0 :: t.owned).toFinset = t.owned.toFinset :=
    Option.some.inj (h.balance.symm.trans hacc.2)
  have hmem : (0 : Int) ∈ t.owned := by
    rw [← List.mem_toFinset, ← hset]
    exact List.mem_toFinset.mpr List.mem_cons_self
  exact (List.nodup_cons.mp h.nodup).1 hmem

theorem step_forgets (h : s.Kept) (hi : ¬ i.Remembers) (ht : s.step i = some t) :
    ¬ t.Accounted := by
  cases i with
  | turn r =>
    obtain ⟨hphase, hst⟩ := Option.ite_none_right_eq_some.mp ht
    have hbooks := h.books.turn hphase hst
    rw [forgotten, if_pos (not_not.mp hi)] at hbooks
    exact not_accounted_of_forgotten hbooks
  | handleRead => exact absurd trivial hi
  | destroySocket n => exact absurd trivial hi
  | dtor => exact absurd trivial hi

theorem step_renews (s : Acceptor) (i : Input) : s.Renews i := by
  rintro r t rfl hpos hfile ht
  obtain ⟨-, hst⟩ := Option.ite_none_right_eq_some.mp ht
  exact turn_renews hst hpos hfile

end Runs

/-- In every run of calls of `HandleRead`, every descriptor that was got from `accept4` or
`open` is closed once or has one owner, exactly if `accept4` does not return the descriptor
0 to the loop. -/
theorem descriptors_accounted_iff {fd : Int} {is : List Input} {s t : Acceptor}
    (hinit : init fd = some s) (hrun : Machine.run step s is = some t) :
    (Machine.Throughout step Accounted s is ∧ Machine.Along step Renews s is) ↔
      ∀ r, Input.turn r ∈ is → r.accept4 ≠ 0 := by
  have hrenews : Machine.Along step Renews s is :=
    Machine.along_of_mem (fun i _ s => step_renews s i) s
  have hiff := Machine.throughout_iff_along (G := fun _ i => i.Remembers) (P := Kept)
    (Q := Accounted) step_kept Kept.accounted step_forgets (kept_init hinit) hrun
  rw [hiff, Machine.along_iff_mem hrun]
  constructor
  · rintro ⟨h, -⟩ r hr
    exact h _ hr
  · intro h
    refine ⟨fun i hi => ?_, hrenews⟩
    cases i with
    | turn r => exact h r hi
    | handleRead => trivial
    | destroySocket n => trivial
    | dtor => trivial

/-- A connection is handed over and ends, one that is not writable is closed, and one is
accepted on the number of the reserve when the descriptors are used up. -/
theorem descriptors_accounted_iff_emfile : ∃ s t, init 3 = some s ∧
    Machine.run step s
      [.handleRead, .turn ⟨5, 0, 1, POLLOUT, true, true, -1, -1⟩,
        .turn ⟨6, 0, 0, 0, true, true, -1, -1⟩, .turn ⟨-1, EMFILE, 0, 0, true, true, 3, 3⟩,
        .handleRead, .destroySocket 0, .turn ⟨-1, EAGAIN, 0, 0, true, true, -1, -1⟩,
        .dtor] = some t ∧
    Machine.Throughout step Accounted s
      [.handleRead, .turn ⟨5, 0, 1, POLLOUT, true, true, -1, -1⟩,
        .turn ⟨6, 0, 0, 0, true, true, -1, -1⟩, .turn ⟨-1, EMFILE, 0, 0, true, true, 3, 3⟩,
        .handleRead, .destroySocket 0, .turn ⟨-1, EAGAIN, 0, 0, true, true, -1, -1⟩, .dtor] ∧
    t.fds.table = ∅ := by
  refine ⟨⟨3, .waiting, [], ⟨{3}, [.opened 3]⟩⟩, _, rfl, rfl, ?_, by decide⟩
  refine ((descriptors_accounted_iff (show init 3 = some _ from rfl) rfl).mpr ?_).1
  intro r hr
  simp only [List.mem_cons, Input.turn.injEq, reduceCtorEq, List.not_mem_nil, or_false,
    false_or] at hr
  rcases hr with rfl | rfl | rfl | rfl <;> decide

/-- A connection that is accepted on the descriptor 0 stays open and nobody owns it. -/
theorem descriptor_zero_forgotten : ∃ s t, init 3 = some s ∧
    Machine.run step s [.handleRead, .turn ⟨0, EAGAIN, 1, POLLOUT, true, true, -1, -1⟩] = some t ∧
    (0 : Int) ∈ t.fds.table ∧ (0 : Int) ∉ t.owned ∧ ¬ t.Accounted := by
  refine ⟨⟨3, .waiting, [], ⟨{3}, [.opened 3]⟩⟩, _, rfl, rfl, ?_⟩
  decide

end Acceptor

end LinuxNet
