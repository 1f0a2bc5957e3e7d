import Mathlib.Algebra.Ring.Nat
import Custody.Bytes

set_option autoImplicit false

/-! # The value of a byte string

A byte string of length `n` stands for a number below `256 ^ n`, and writing a number at that length
keeps its remainder. -/

namespace Custody

/-- Writing a number keeps as many of its digits to the base 256 as there is room for. -/
theorem Bytes.toNat_ofNat (width n : Nat) : (Bytes.ofNat width n).toNat = n % 256 ^ width := by
  induction width generalizing n with
  | zero => simp [Bytes.ofNat, Bytes.toNat, Nat.mod_one]
  | succ width ih =>
    rw [Bytes.ofNat, Bytes.toNat, ih, Nat.pow_succ, Nat.mul_comm (256 ^ width) 256, Nat.mod_mul]
    simp

/-- A byte string stands for a number that its length can hold. -/
theorem Bytes.toNat_lt (bytes : Bytes) : bytes.toNat < 256 ^ bytes.length := by
  induction bytes with
  | nil => simp [Bytes.toNat]
  | cons b rest ih =>
    have hb := b.toNat_lt
    simp only [Bytes.toNat, List.length_cons, Nat.pow_succ]
    omega

end Custody
