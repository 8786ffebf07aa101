import Mathlib.Algebra.Order.Group.Nat
import Mathlib.Tactic.Ring

/-!
# Byte strings — fixed-width integers and checked ranges

The two byte orders of a fixed-width unsigned integer, and the range
`[a, b)` of a byte string, which exists only inside it. Writing keeps the
low bytes of whatever it is given, so a read back is the value modulo the
width; what fits the width survives.
-/

namespace WaylandWebStream

/-- A byte string. -/
abbrev Bytes := List UInt8

namespace Bytes

/-- The low `n` bytes of `v`, the least significant first. -/
def le : ℕ → ℕ → Bytes
  | 0, _ => []
  | n + 1, v => UInt8.ofNat v :: le n (v / 256)

/-- The low `n` bytes of `v`, the most significant first. -/
def be (n v : ℕ) : Bytes := (le n v).reverse

/-- The value of a little-endian byte string. -/
def leNat : Bytes → ℕ
  | [] => 0
  | b :: bs => b.toNat + 256 * leNat bs

/-- The value of a big-endian byte string. -/
def beNat (bs : Bytes) : ℕ := leNat bs.reverse

/-- The bytes `[a, b)`, where the string has them. -/
def range (bs : Bytes) (a b : ℕ) : Option Bytes :=
  if a ≤ b ∧ b ≤ bs.length then some ((bs.take b).drop a) else none

variable {n v : ℕ}

@[simp] theorem length_le (n v : ℕ) : (le n v).length = n := by
  induction n generalizing v with
  | zero => rfl
  | succ n ih => simp [le, ih]

@[simp] theorem length_be (n v : ℕ) : (be n v).length = n := by simp [be]

/-- A value fits the bytes it was read from. -/
theorem leNat_lt (bs : Bytes) : leNat bs < 256 ^ bs.length := by
  induction bs with
  | nil => simp [leNat]
  | cons b bs ih =>
    have hb : b.toNat < 256 := b.toNat_lt
    rw [leNat, List.length_cons, Nat.pow_succ]
    omega

/-- **Writing and reading back** keeps the value modulo the width. -/
theorem leNat_le (n v : ℕ) : leNat (le n v) = v % 256 ^ n := by
  induction n generalizing v with
  | zero => simp [le, leNat, Nat.mod_one]
  | succ n ih =>
    have hbyte : (UInt8.ofNat v).toNat = v % 256 := UInt8.toNat_ofNat'
    rw [le, leNat, ih, hbyte, Nat.pow_succ, Nat.mul_comm (256 ^ n) 256, Nat.mod_mul]

theorem leNat_le_of_lt (h : v < 256 ^ n) : leNat (le n v) = v := by
  rw [leNat_le, Nat.mod_eq_of_lt h]

theorem beNat_be_of_lt (h : v < 256 ^ n) : beNat (be n v) = v := by
  rw [beNat, be, List.reverse_reverse, leNat_le_of_lt h]

/-- Two big-endian halves make one value. -/
theorem beNat_append (bs cs : Bytes) : beNat (bs ++ cs) = beNat bs * 256 ^ cs.length + beNat cs := by
  have hle : ∀ xs ys : Bytes, leNat (xs ++ ys) = leNat xs + 256 ^ xs.length * leNat ys := by
    intro xs ys
    induction xs with
    | nil => simp [leNat]
    | cons x xs ih => rw [List.cons_append, leNat, ih, leNat, List.length_cons]; ring
  rw [beNat, List.reverse_append, hle, List.length_reverse, beNat, beNat]
  ring

end Bytes

end WaylandWebStream
