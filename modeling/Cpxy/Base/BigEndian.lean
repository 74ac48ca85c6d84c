import Mathlib.Data.Nat.ModEq
import Mathlib.Data.List.Basic

/-!
# Big-endian integers

Library `Base`. Fixed-width unsigned integers as byte lists, most significant byte
first. The two conversions are inverse on every width, so a codec built from them needs
no arithmetic of its own.
-/

namespace Cpxy.Base

/-- Byte strings, in stream order. -/
abbrev Bytes := List UInt8

/-- `isize::MAX`. No slice is longer. -/
def isizeMax : Nat := 2 ^ 63 - 1

/-- The low `k` bytes of `n`, most significant first. -/
def toBE : Nat → Nat → Bytes
  | 0, _ => []
  | k + 1, n => UInt8.ofNat (n / 256 ^ k) :: toBE k n

/-- The number whose radix-256 digits are the given bytes, most significant first. -/
def ofBE : Bytes → Nat
  | [] => 0
  | b :: bs => b.toNat * 256 ^ bs.length + ofBE bs

/-- A number is below the power of the radix that belongs to its width. -/
theorem ofBE_lt (bs : Bytes) : ofBE bs < 256 ^ bs.length := by
  induction bs with
  | nil => simp [ofBE]
  | cons b bs ih =>
    have hb : b.toNat + 1 ≤ 256 := b.toNat_lt
    rw [ofBE, List.length_cons, Nat.pow_succ]
    calc b.toNat * 256 ^ bs.length + ofBE bs
        < b.toNat * 256 ^ bs.length + 256 ^ bs.length := Nat.add_lt_add_left ih _
      _ = (b.toNat + 1) * 256 ^ bs.length := by rw [Nat.add_mul, Nat.one_mul]
      _ ≤ 256 * 256 ^ bs.length := Nat.mul_le_mul_right _ hb
      _ = 256 ^ bs.length * 256 := Nat.mul_comm _ _

/-- The encoding has exactly the requested width. -/
@[simp] theorem length_toBE (k n : Nat) : (toBE k n).length = k := by
  induction k with
  | zero => rfl
  | succ k ih => rw [toBE, List.length_cons, ih]

/-- Decoding an encoding returns the number modulo its width. -/
theorem ofBE_toBE_mod (k n : Nat) : ofBE (toBE k n) = n % 256 ^ k := by
  induction k with
  | zero => simp [toBE, ofBE, Nat.mod_one]
  | succ k ih =>
    rw [toBE, ofBE, length_toBE, ih, Nat.mod_pow_succ, Nat.add_comm, Nat.mul_comm]
    rfl

/-- Decoding an encoding returns every number that fits the width. -/
theorem ofBE_toBE {k n : Nat} (h : n < 256 ^ k) : ofBE (toBE k n) = n := by
  rw [ofBE_toBE_mod, Nat.mod_eq_of_lt h]

end Cpxy.Base
