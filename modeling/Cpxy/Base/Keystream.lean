import Cpxy.Base.BigEndian
import Cpxy.Base.Outcome

/-!
# Seekable stream ciphers

Library `Base`. A stream cipher adds a keystream, indexed by position, to the data it is
applied to, and can be moved to any position. What is left of the cipher is then its
keystream and the position it is at.
-/

namespace Cpxy.Base

/-- The key byte at each position. -/
abbrev Keystream := Nat → UInt8

/-- Data with the key bytes from position `pos` on added to it. -/
def xorAt (ks : Keystream) : Nat → Bytes → Bytes
  | _, [] => []
  | pos, b :: bs => (b ^^^ ks pos) :: xorAt ks (pos + 1) bs

/-- The keystream that leaves data as it is. -/
def zeroKeys : Keystream := fun _ ↦ 0

section XorAt

variable {ks ks' : Keystream}

@[simp] theorem xorAt_nil (pos : Nat) : xorAt ks pos [] = [] := rfl

@[simp] theorem length_xorAt (pos : Nat) (bs : Bytes) : (xorAt ks pos bs).length = bs.length := by
  induction bs generalizing pos with
  | nil => rfl
  | cons b bs ih => simp [xorAt, ih]

/-- Adding to consecutive parts is adding to the whole. -/
theorem xorAt_append (pos : Nat) (xs ys : Bytes) :
    xorAt ks pos (xs ++ ys) = xorAt ks pos xs ++ xorAt ks (pos + xs.length) ys := by
  induction xs generalizing pos with
  | nil => rfl
  | cons x xs ih =>
    have hpos : pos + 1 + xs.length = pos + (xs.length + 1) := by omega
    simp [xorAt, ih, hpos]

/-- A prefix of the output belongs to the same prefix of the input. -/
theorem take_xorAt (pos n : Nat) (bs : Bytes) :
    (xorAt ks pos bs).take n = xorAt ks pos (bs.take n) := by
  induction bs generalizing pos n with
  | nil => simp
  | cons b bs ih =>
    cases n with
    | zero => rfl
    | succ n => simp [xorAt, ih]

theorem drop_xorAt (pos n : Nat) (bs : Bytes) :
    (xorAt ks pos bs).drop n = xorAt ks (pos + n) (bs.drop n) := by
  induction bs generalizing pos n with
  | nil => simp
  | cons b bs ih =>
    cases n with
    | zero => rfl
    | succ n =>
      have hpos : pos + (n + 1) = pos + 1 + n := by omega
      rw [xorAt, List.drop_succ_cons, List.drop_succ_cons, ih, hpos]

/-- Adding the same keys twice gives the data back. -/
@[simp] theorem xorAt_xorAt (pos : Nat) (bs : Bytes) : xorAt ks pos (xorAt ks pos bs) = bs := by
  induction bs generalizing pos with
  | nil => rfl
  | cons b bs ih => rw [xorAt, xorAt, ih, UInt8.xor_assoc, UInt8.xor_self, UInt8.xor_zero]

/-- What was added to shows in the output. -/
theorem xorAt_inj {pos : Nat} {xs ys : Bytes} : xorAt ks pos xs = xorAt ks pos ys ↔ xs = ys := by
  constructor
  · intro h
    have hback := congrArg (xorAt ks pos) h
    rwa [xorAt_xorAt, xorAt_xorAt] at hback
  · intro h
    rw [h]

/-- Only the keys at the positions of the data matter. -/
theorem xorAt_congr {pos pos' : Nat} {bs : Bytes}
    (h : ∀ i, i < bs.length → ks (pos + i) = ks' (pos' + i)) :
    xorAt ks pos bs = xorAt ks' pos' bs := by
  induction bs generalizing pos pos' with
  | nil => rfl
  | cons b bs ih =>
    have h0 := h 0 (by simp)
    have hs : ∀ i, i < bs.length → ks (pos + 1 + i) = ks' (pos' + 1 + i) := by
      intro i hi
      have := h (i + 1) (by simpa using hi)
      rwa [Nat.add_right_comm, Nat.add_right_comm pos']
    simp only [Nat.add_zero] at h0
    rw [xorAt, xorAt, h0, ih hs]

@[simp] theorem xorAt_zeroKeys (pos : Nat) (bs : Bytes) : xorAt zeroKeys pos bs = bs := by
  induction bs generalizing pos with
  | nil => rfl
  | cons b bs ih => simp [xorAt, ih, zeroKeys]

/-- Keys that are zero from a position on leave the data there as it is. -/
theorem xorAt_of_zero {pos : Nat} (h : ∀ i, pos ≤ i → ks i = 0) (bs : Bytes) :
    xorAt ks pos bs = bs := by
  have hkeys : xorAt ks pos bs = xorAt zeroKeys pos bs :=
    xorAt_congr fun i _ ↦ h (pos + i) (Nat.le_add_right pos i)
  rw [hkeys, xorAt_zeroKeys]

end XorAt

/-- A cipher: its keystream and the position it is at. -/
@[ext]
structure Cipher where
  ks : Keystream
  pos : Nat

namespace Cipher

/-- A fresh cipher is at the start of its keystream. -/
def new (ks : Keystream) : Cipher := ⟨ks, 0⟩

/-- `apply_keystream`: the data with key bytes added, and the cipher behind them. -/
def apply (c : Cipher) (data : Bytes) : Bytes × Cipher :=
  (xorAt c.ks c.pos data, ⟨c.ks, c.pos + data.length⟩)

/-- Seek `cnt` positions back; the subtraction panics before the start. -/
def rewind {ε : Type} (c : Cipher) (cnt : Nat) : Outcome ε Cipher :=
  if cnt ≤ c.pos then .ok ⟨c.ks, c.pos - cnt⟩ else .panicked

/-- Rewinding what was just applied in excess leaves the cipher behind the rest. -/
theorem rewind_apply {ε : Type} (c : Cipher) (data : Bytes) {n : Nat} (h : n ≤ data.length) :
    ((c.apply data).2.rewind (data.length - n) : Outcome ε Cipher) = .ok ⟨c.ks, c.pos + n⟩ := by
  have hle : data.length - n ≤ c.pos + data.length := by omega
  have hpos : c.pos + data.length - (data.length - n) = c.pos + n := by omega
  simp only [rewind, apply, if_pos hle, hpos]

end Cipher
end Cpxy.Base
