import LinuxNet.Server.Model
import Mathlib.Logic.Relation

/-!
# The life of a connection of the server

What the server and its loops hold about one connection is its `Life`: the object,
its turn in `active_channels_`, its tasks in the queues, the calls of `ForceClose` on
their way, and whether its loop is in its `disconnection_cb_`. `Life.Move` is
everything that can happen to it, whichever loop it happens in, and `Life.Ok` is what
the moves keep.
-/

namespace LinuxNet

set_option autoImplicit false

open Relation

structure Life where
  conn : ServerConn
  active : Nat
  established : Nat
  /-- Calls of `ForceClose` between their test and `ForceCloseInLoop`. -/
  forced : Nat
  removing : Nat
  destroying : Nat
  closing : Bool

namespace Life

def add (f : Life) : ServerTask → Life
  | .connectionEstablished _ => { f with established := f.established + 1 }
  | .forceCloseInLoop _ => { f with forced := f.forced + 1 }
  | .onConnectionRemoveInLoop _ => { f with removing := f.removing + 1 }
  | .connectionDestroy _ => { f with destroying := f.destroying + 1 }

def take (f : Life) : ServerTask → Life
  | .connectionEstablished _ => { f with established := f.established - 1 }
  | .forceCloseInLoop _ => { f with forced := f.forced - 1 }
  | .onConnectionRemoveInLoop _ => { f with removing := f.removing - 1 }
  | .connectionDestroy _ => { f with destroying := f.destroying - 1 }

def handleClose (f : Life) : Life :=
  { f with conn := f.conn.handleClose, closing := true }

/-- A connection nothing is about. -/
def idle (k : ServerConn) : Life := ⟨k, 0, 0, 0, 0, 0, false⟩

/-- Not known to the server: not created yet, or turned away by `AddConnListItem`. -/
structure Blank (f : Life) : Prop where
  accepted : f.conn.accepted = false
  removed : f.conn.removed = false
  alive : f.conn.alive = false
  interest : f.conn.interest = false
  closes : f.conn.closes = 0
  active : f.active = 0
  established : f.established = 0
  forced : f.forced = 0
  removing : f.removing = 0
  destroying : f.destroying = 0
  closing : f.closing = false

inductive Move : Life → Life → Prop where
  | created {f : Life} (k : ServerConn) (hb : f.Blank)
      (hk : k = ⟨k.fd, k.loop, .connecting, false, true, true, false, 0⟩) :
      Move f { f with conn := k, established := f.established + 1 }
  | rejected {f : Life} (k : ServerConn) (hb : f.Blank)
      (hk : k = ⟨k.fd, k.loop, .connecting, false, false, false, false, 0⟩) :
      Move f { f with conn := k }
  | established {f : Life} (h : f.established ≠ 0) :
      Move f { f with
        established := f.established - 1
        conn := f.conn.connectionEstablished }
  | polled {f : Life} (hi : f.conn.interest = true) (ha : f.active = 0) :
      Move f { f with active := 1 }
  | dispatched {f : Life} (h : f.active ≠ 0) : Move f { f with active := f.active - 1 }
  | closeEvent {f : Life} (h : f.active ≠ 0) :
      Move f { f with active := f.active - 1 }.handleClose
  | forceCall {f : Life} (ha : f.conn.alive = true) (hs : f.conn.state = .connected) :
      Move f { f with forced := f.forced + 1 }
  | forceClose {f : Life} (h : f.forced ≠ 0) (ha : f.active = 0)
      (hs : ¬(f.conn.state = .disconnecting ∨ f.conn.state = .disconnected)) :
      Move f { f with forced := f.forced - 1 }.handleClose
  | forceLate {f : Life} (h : f.forced ≠ 0) : Move f { f with forced := f.forced - 1 }
  | removeCb {f : Life} (h : f.closing = true) :
      Move f { f with closing := false, removing := f.removing + 1 }
  | removed {f : Life} (h : f.removing ≠ 0) :
      Move f { f with
        removing := f.removing - 1
        conn := { f.conn with removed := true }
        destroying := f.destroying + 1 }
  | destroyed {f : Life} (h : f.destroying ≠ 0) :
      Move f { f with
        destroying := f.destroying - 1
        conn := f.conn.connectionDestroy }
  | dropped {f : Life} (ha : f.conn.alive = true)
      (h : ¬(f.conn.accepted = true ∧ f.conn.removed = false)) :
      Move f { f with conn := { f.conn with alive := false } }

/-- The close of a connection is in one place: in the callback, in the queue of the
server's loop, or over; and it is somewhere exactly if the state says so. -/
structure Ok (f : Life) : Prop where
  accepted : f.conn.accepted = true
  established : f.established = if f.conn.state = .connecting then 1 else 0
  active : f.active ≤ 1
  polled : f.active ≠ 0 → f.conn.interest = true
  interest : f.conn.interest = true → f.conn.state = .connected
  forced : f.forced ≠ 0 → f.conn.state ≠ .connecting
  place : f.conn.closes = f.closing.toNat + f.removing + f.conn.removed.toNat
  once : f.conn.closes =
    if f.conn.state = .connecting ∨ f.conn.state = .connected then 0 else 1
  destroying : f.destroying ≠ 0 → f.conn.removed = true
  alive : f.conn.removed = false → f.conn.alive = true

def Inv (f : Life) : Prop := f.Ok ∨ f.Blank

/-- No close has begun. -/
theorem Ok.fresh {f : Life} (h : f.Ok)
    (hs : f.conn.state = .connecting ∨ f.conn.state = .connected) :
    f.closing = false ∧ f.removing = 0 ∧ f.conn.removed = false ∧ f.conn.closes = 0 := by
  have hc := h.once
  have hp := h.place
  rw [if_pos hs] at hc
  rw [hc] at hp
  have h1 : f.closing.toNat = 0 := by omega
  have h2 : f.conn.removed.toNat = 0 := by omega
  refine ⟨?_, by omega, ?_, hc⟩
  · simpa using h1
  · simpa using h2

/-- The close has begun, and is not yet over. -/
theorem Ok.begun {f : Life} (h : f.Ok) (hp : 0 < f.closing.toNat + f.removing) :
    f.conn.removed = false ∧ f.closing.toNat + f.removing = 1 ∧ f.conn.closes = 1 ∧
      ¬(f.conn.state = .connecting ∨ f.conn.state = .connected) := by
  have hc := h.once
  have hplace := h.place
  by_cases hs : f.conn.state = .connecting ∨ f.conn.state = .connected
  · rw [if_pos hs] at hc
    omega
  · rw [if_neg hs] at hc
    have h2 : f.conn.removed.toNat = 0 := by omega
    exact ⟨by simpa using h2, by omega, hc, hs⟩

theorem Ok.handleClose {f : Life} (h : f.Ok) (hs : f.conn.state = .connected)
    (ha : f.active = 0) : f.handleClose.Ok := by
  obtain ⟨_, hrem, hremoved, hcloses⟩ := h.fresh (.inr hs)
  have hest := h.established
  rw [hs] at hest
  exact {
    accepted := h.accepted
    established := by simpa [Life.handleClose] using hest
    active := h.active
    polled := fun hne => absurd ha hne
    interest := by simp [Life.handleClose]
    forced := by simp [Life.handleClose]
    place := by simp [Life.handleClose, hrem, hremoved, hcloses]
    once := by simp [Life.handleClose, hcloses]
    destroying := h.destroying
    alive := h.alive }

theorem Ok.of_forced {f : Life} (h : f.Ok) (hf : f.forced ≠ 0)
    (hs : ¬(f.conn.state = .disconnecting ∨ f.conn.state = .disconnected)) :
    f.conn.state = .connected := by
  have hnc := h.forced hf
  cases hst : f.conn.state with
  | connected => rfl
  | connecting => exact absurd hst hnc
  | disconnecting => exact absurd (.inl hst) hs
  | disconnected => exact absurd (.inr hst) hs

theorem Ok.of_established {f : Life} (h : f.Ok) (he : f.established ≠ 0) :
    f.conn.state = .connecting ∧ f.established = 1 := by
  have hest := h.established
  by_cases hs : f.conn.state = .connecting
  · exact ⟨hs, by rw [hest, if_pos hs]⟩
  · rw [if_neg hs] at hest
    exact absurd hest he

theorem Ok.move {f g : Life} (h : f.Ok) (hm : Move f g) : g.Ok := by
  cases hm with
  | created k hb hk => exact absurd h.accepted (by simp [hb.accepted])
  | rejected k hb hk => exact absurd h.accepted (by simp [hb.accepted])
  | established he =>
    obtain ⟨hs, hone⟩ := h.of_established he
    obtain ⟨hcl, hrem, hremoved, hcloses⟩ := h.fresh (.inl hs)
    refine { h with established := ?_, polled := ?_, interest := ?_, forced := ?_, once := ?_ }
    · simp [hone]
    · exact fun _ => rfl
    · exact fun _ => rfl
    · simp
    · simpa using hcloses
  | polled hi ha => exact { h with active := Nat.le_refl 1, polled := fun _ => hi }
  | dispatched ha =>
    have hle := h.active
    refine { h with active := ?_, polled := ?_ }
    · exact Nat.le_trans (Nat.sub_le _ _) hle
    · exact fun _ => h.polled ha
  | closeEvent ha =>
    have hle := h.active
    have hzero : f.active - 1 = 0 := by omega
    have hs := h.interest (h.polled ha)
    refine Ok.handleClose { h with active := ?_, polled := ?_ } hs hzero
    · simp [hzero]
    · exact fun hne => absurd hzero hne
  | forceCall ha hs => exact { h with forced := fun _ => by simp [hs] }
  | forceClose hf ha hs =>
    have hconn := h.of_forced hf hs
    exact Ok.handleClose { h with forced := fun _ => h.forced hf } hconn ha
  | forceLate hf => exact { h with forced := fun _ => h.forced hf }
  | removeCb hc =>
    obtain ⟨hremoved, hsum, hcloses, _⟩ := h.begun (by simp only [hc, Bool.toNat_true]; omega)
    have hrem : f.removing = 0 := by
      rw [hc] at hsum
      simpa using hsum
    refine { h with place := ?_ }
    simp [hcloses, hrem, hremoved]
  | removed hr =>
    obtain ⟨hremoved, hsum, hcloses, hs⟩ := h.begun (by omega)
    have hcl : f.closing = false := by
      cases hb : f.closing with
      | false => rfl
      | true =>
        rw [hb] at hsum
        simp only [Bool.toNat_true] at hsum
        omega
    have hone : f.removing = 1 := by
      rw [hcl] at hsum
      simpa using hsum
    refine { h with place := ?_, destroying := ?_, alive := ?_ }
    · simp [hcloses, hone, hcl]
    · exact fun _ => rfl
    · simp
  | destroyed hd =>
    have hremoved := h.destroying hd
    have hs : ¬(f.conn.state = .connecting ∨ f.conn.state = .connected) := by
      intro hs
      have := (h.fresh hs).2.2.1
      simp [this] at hremoved
    have hest := h.established
    have honce := h.once
    rw [if_neg hs] at honce
    rw [if_neg (fun hc => hs (.inl hc))] at hest
    refine { h with
      established := ?_, polled := ?_, interest := ?_, forced := ?_, once := ?_
      destroying := ?_ }
    · simpa using hest
    · intro ha
      exact absurd (h.interest (h.polled ha)) (fun hc => hs (.inr hc))
    · simp
    · simp
    · simpa using honce
    · exact fun _ => hremoved
  | dropped ha hl =>
    refine { h with alive := ?_ }
    intro hr
    exact absurd ⟨h.accepted, hr⟩ hl

theorem Blank.move {f g : Life} (h : f.Blank) (hm : Move f g) : g.Inv := by
  cases hm with
  | created k hb hk =>
    refine .inl ?_
    rw [hk]
    exact {
      accepted := rfl
      established := by simp [h.established]
      active := by simp [h.active]
      polled := by simp [h.active]
      interest := by simp
      forced := by simp [h.forced]
      place := by simp [h.closing, h.removing]
      once := by simp
      destroying := by simp [h.destroying]
      alive := by simp }
  | rejected k hb hk =>
    refine .inr ?_
    rw [hk]
    exact { h with accepted := rfl, removed := rfl, alive := rfl, interest := rfl, closes := rfl }
  | established he => exact absurd h.established he
  | polled hi _ => simp [h.interest] at hi
  | dispatched ha => exact absurd h.active ha
  | closeEvent ha => exact absurd h.active ha
  | forceCall ha _ => simp [h.alive] at ha
  | forceClose hf _ _ => exact absurd h.forced hf
  | forceLate hf => exact absurd h.forced hf
  | removeCb hc => simp [h.closing] at hc
  | removed hr => exact absurd h.removing hr
  | destroyed hd => exact absurd h.destroying hd
  | dropped ha _ => simp [h.alive] at ha

theorem Inv.moves {f g : Life} (h : f.Inv) (hm : ReflTransGen Move f g) : g.Inv := by
  induction hm with
  | refl => exact h
  | tail _ hm ih => exact ih.elim (fun ho => .inl (ho.move hm)) (fun hb => hb.move hm)

theorem Inv.closes_le {f : Life} (h : f.Inv) : f.conn.closes ≤ 1 := by
  rcases h with ho | hb
  · rw [ho.once]
    split <;> omega
  · rw [hb.closes]
    omega

end Life

end LinuxNet
