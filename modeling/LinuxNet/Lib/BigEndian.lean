import Mathlib.Data.List.Basic
import Mathlib.Tactic.Positivity
import Mathlib.Tactic.Ring

/-!
# Numbers as bytes

A number of `n` bytes with the most significant byte first, and the number a list of bytes
stands for. Both ways round they agree up to the range of `n` bytes.
-/

namespace LinuxNet.Lib.BigEndian

/-- The `n` bytes of `x`, the most significant one first. -/
def toBytes (n x : Nat) : List UInt8 :=
  (List.range n).map fun i => UInt8.ofNat (x / 256 ^ (n - 1 - i))

/-- The bytes read as a numeral. -/
def ofBytes (bytes : List UInt8) : Nat := bytes.foldl (fun acc x => acc * 256 + x.toNat) 0

@[simp] theorem length_toBytes (n x : Nat) : (toBytes n x).length = n := by
  simp [toBytes]

theorem toBytes_succ (n x : Nat) :
    toBytes (n + 1) x = UInt8.ofNat (x / 256 ^ n) :: toBytes n x := by
  unfold toBytes
  rw [List.range_succ_eq_map, List.map_cons, List.map_map]
  refine congrArg₂ List.cons rfl (List.map_congr_left fun i hi => ?_)
  have hexp : n + 1 - 1 - (i + 1) = n - 1 - i := by omega
  simp only [Function.comp_apply, Nat.succ_eq_add_one, hexp]

theorem foldl_numeral (acc : Nat) (bytes : List UInt8) :
    bytes.foldl (fun acc x => acc * 256 + x.toNat) acc =
      acc * 256 ^ bytes.length + ofBytes bytes := by
  unfold ofBytes
  induction bytes generalizing acc with
  | nil => simp
  | cons x bytes ih =>
    rw [List.foldl_cons, List.foldl_cons, ih, ih (0 * 256 + x.toNat), List.length_cons, pow_succ]
    ring

theorem ofBytes_cons (x : UInt8) (bytes : List UInt8) :
    ofBytes (x :: bytes) = x.toNat * 256 ^ bytes.length + ofBytes bytes := by
  rw [ofBytes, List.foldl_cons, foldl_numeral, Nat.zero_mul, Nat.zero_add]

theorem ofBytes_toBytes (n x : Nat) : ofBytes (toBytes n x) = x % 256 ^ n := by
  induction n with
  | zero => simp [toBytes, ofBytes, Nat.mod_one]
  | succ n ih =>
    have hbyte : (UInt8.ofNat (x / 256 ^ n)).toNat = x / 256 ^ n % 256 := UInt8.toNat_ofNat'
    rw [toBytes_succ, ofBytes_cons, ih, length_toBytes, hbyte, Nat.mod_pow_succ (b := 256),
      Nat.add_comm, Nat.mul_comm]

theorem ofBytes_lt (bytes : List UInt8) : ofBytes bytes < 256 ^ bytes.length := by
  induction bytes with
  | nil => simp [ofBytes]
  | cons x bytes ih =>
    have hx : x.toNat + 1 ≤ 256 := x.toNat_lt
    rw [ofBytes_cons, List.length_cons]
    calc x.toNat * 256 ^ bytes.length + ofBytes bytes
        < x.toNat * 256 ^ bytes.length + 256 ^ bytes.length := Nat.add_lt_add_left ih _
      _ = (x.toNat + 1) * 256 ^ bytes.length := by ring
      _ ≤ 256 * 256 ^ bytes.length := Nat.mul_le_mul_right _ hx
      _ = 256 ^ (bytes.length + 1) := by ring

/-- What is above `n` bytes does not show in them. -/
theorem toBytes_add (n k x : Nat) : toBytes n (k * 256 ^ n + x) = toBytes n x := by
  refine List.map_congr_left fun i hi => ?_
  have hlt : i < n := List.mem_range.mp hi
  have hsplit : 256 ^ n = 256 ^ (i + 1) * 256 ^ (n - 1 - i) := by
    rw [← pow_add]
    congr 1
    omega
  have hdiv : (k * 256 ^ n + x) / 256 ^ (n - 1 - i) =
      k * 256 ^ i * 256 + x / 256 ^ (n - 1 - i) := by
    rw [hsplit, ← Nat.mul_assoc, Nat.add_comm, Nat.add_mul_div_right _ _ (by positivity), pow_succ]
    ring
  apply UInt8.toNat.inj
  rw [hdiv]
  simp

theorem toBytes_ofBytes (bytes : List UInt8) : toBytes bytes.length (ofBytes bytes) = bytes := by
  induction bytes with
  | nil => rfl
  | cons x bytes ih =>
    have hdiv : (x.toNat * 256 ^ bytes.length + ofBytes bytes) / 256 ^ bytes.length = x.toNat := by
      rw [Nat.add_comm, Nat.add_mul_div_right _ _ (by positivity),
        Nat.div_eq_of_lt (ofBytes_lt bytes), Nat.zero_add]
    rw [List.length_cons, toBytes_succ, ofBytes_cons, toBytes_add, ih, hdiv, UInt8.ofNat_toNat]

end LinuxNet.Lib.BigEndian
