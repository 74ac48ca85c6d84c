import Cpxy.Base.Run
import Cpxy.TcpMan.CipherStream

/-!
# Rewinding a partial cipher

Library `TcpMan`. Source `src/protocol/tcpman/cipher/partial.rs:6–47`. The counter of a partial
cipher goes below zero to remember by how much the budget was overrun, but stands still from
then on. Bytes that a spent cipher lets pass are not remembered, and a later rewind that goes
back into the budget stops short of its start by their number.
-/

namespace Cpxy.TcpMan

open Cpxy.Base

/-- A call on a partial cipher. -/
inductive PartialCall where
  | apply (buf : Slice)
  | rewind (cnt : Nat)

/-- A partial cipher in use, with what was applied less what was rewound, and whether a call
panicked. -/
structure PartialRun where
  cipher : PartialStreamCipher
  pos : Nat
  failed : Bool

namespace PartialRun

/-- Nothing applied. -/
def start (c : PartialStreamCipher) : PartialRun := ⟨c, 0, false⟩

/-- One call. -/
def step (r : PartialRun) : PartialCall → PartialRun
  | .apply buf =>
    match (r.cipher.apply buf.val : Outcome ErrorChain _) with
    | .ok (_, c) => { r with cipher := c, pos := r.pos + buf.val.length }
    | _ => { r with failed := true }
  | .rewind cnt =>
    match (r.cipher.rewind cnt : Outcome ErrorChain _) with
    | .ok c => { r with cipher := c, pos := r.pos - cnt }
    | _ => { r with failed := true }

/-- A rewind goes back over no more than is applied. -/
def Within (r : PartialRun) : PartialCall → Prop
  | .apply _ => True
  | .rewind cnt => cnt ≤ r.pos

/-- A rewind starts from a counter that has counted every byte, or leaves the counter spent; and
its length is an `isize`. -/
def Counted (n : Nat) (r : PartialRun) : PartialCall → Prop
  | .apply _ => True
  | .rewind cnt => cnt ≤ isizeMax ∧ (r.cipher.n = n - r.pos ∨ r.cipher.n + cnt ≤ 0)

instance (r : PartialRun) : (call : PartialCall) → Decidable (r.Within call)
  | .apply _ => inferInstanceAs (Decidable True)
  | .rewind cnt => inferInstanceAs (Decidable (cnt ≤ r.pos))

instance (n : Nat) (r : PartialRun) : (call : PartialCall) → Decidable (r.Counted n call)
  | .apply _ => inferInstanceAs (Decidable True)
  | .rewind _ => inferInstanceAs (Decidable (_ ∧ _))

/-- The cipher behaves as at its net position: of any buffer, it adds the keys of the positions
below the budget and no others, and it says whether it stands below the budget. -/
structure Behaves (n : NonZeroUsize) (ks : Keystream) (r : PartialRun) : Prop where
  succeeds : r.failed = false
  apply : ∀ buf : Slice, ∃ c, (r.cipher.apply buf.val : Outcome ErrorChain _) =
    .ok (xorAt (EncryptionStrategy.keys (.firstN n) ks) r.pos buf.val, c)
  willModifyData : r.cipher.willModifyData = true ↔ r.pos < n.val

end PartialRun

/-- The inner cipher stands at the position, as far as the budget reaches, and the counter is
exact there; behind the budget it may be too high. -/
structure PartialAt (n : NonZeroUsize) (ks : Keystream) (pos : Nat) (c : PartialStreamCipher) :
    Prop where
  stands : StrategyCipher.At (.firstN n) ks pos (.firstN c)
  high : (n.val : Int) - pos ≤ c.n
  range : -(2 ^ 63) ≤ c.n

namespace PartialAt

variable {n : NonZeroUsize} {ks : Keystream} {pos cnt : Nat} {c : PartialStreamCipher}

/-- A new cipher stands at the start. -/
theorem of_new (h : (PartialStreamCipher.new n.val (Cipher.new ks) : Outcome ErrorChain _) = .ok c) :
    n.val ≤ isizeMax ∧ PartialAt n ks 0 c := by
  have hn := n.property.1
  rw [PartialStreamCipher.new, toIsize] at h
  by_cases hle : n.val ≤ isizeMax
  · rw [if_pos hle] at h
    cases h
    refine ⟨hle, ⟨?_, ?_, ?_⟩, ?_, ?_⟩
    · rw [Nat.zero_min]
      rfl
    · intro _
      simp
    · intro hzero
      omega
    · simp
    · dsimp only
      omega
  · rw [if_neg hle] at h
    cases h

/-- Below the budget the cipher is known by its position. -/
theorem eq_of_lt (h : PartialAt n ks pos c) (hpos : pos < n.val) :
    c = ⟨⟨ks, min pos n.val⟩, n.val - pos⟩ := by
  obtain ⟨inner, count⟩ := c
  obtain ⟨⟨hinner, hleft, _⟩, _, _⟩ := h
  obtain rfl : inner = ⟨ks, min pos n.val⟩ := hinner
  obtain rfl : count = n.val - pos := hleft hpos
  rfl

/-- Whatever is applied gets the keys of its positions. -/
theorem apply (h : PartialAt n ks pos c) (hn : n.val ≤ isizeMax) (buf : Slice) :
    ∃ c', (c.apply buf.val : Outcome ErrorChain _) =
        .ok (xorAt (EncryptionStrategy.keys (.firstN n) ks) pos buf.val, c') ∧
      PartialAt n ks (pos + buf.val.length) c' := by
  have hbuf : buf.val.length ≤ 2 ^ 63 - 1 := buf.property
  by_cases hpos : pos < n.val
  · have hc := h.eq_of_lt hpos
    rw [Nat.min_eq_left (Nat.le_of_lt hpos)] at hc
    rw [hc, StrategyCipher.partial_apply hn hpos buf.property]
    refine ⟨_, rfl, StrategyCipher.at_firstN n ks pos buf.val.length, ?_, ?_⟩
    · dsimp only
      omega
    · dsimp only
      omega
  · have hdone : c.n ≤ 0 := h.stands.2.2 (by omega)
    have hidle : c.willModifyData = false := decide_eq_false (by omega)
    have hzero := h.stands.keys_eq_zero hidle
    refine ⟨c, ?_, h.stands.idle hidle _, ?_, h.range⟩
    · rw [PartialStreamCipher.apply, if_neg (by omega), xorAt_of_zero hzero]
    · have hhigh := h.high
      omega

/-- A rewind that counts undoes what was applied. -/
theorem rewind (h : PartialAt n ks pos c) (hn : n.val ≤ isizeMax) (hcnt : cnt ≤ pos)
    (hle : cnt ≤ isizeMax) (hcounted : c.n = n.val - pos ∨ c.n + cnt ≤ 0) :
    ∃ c', (c.rewind cnt : Outcome ErrorChain _) = .ok c' ∧ PartialAt n ks (pos - cnt) c' := by
  have hhigh := h.high
  have hrange := h.range
  by_cases hspent : c.n + cnt ≤ 0
  · -- still behind the budget: only the counter moves
    have hback : n.val ≤ pos - cnt := by omega
    refine ⟨⟨c.inner, c.n + cnt⟩, ?_, ⟨?_, ?_, ?_⟩, ?_, ?_⟩
    · rw [PartialStreamCipher.rewind, toIsize_of_le hle, Outcome.ok_bind,
        checkedIsize_of_range (by omega) (by omega), Outcome.ok_bind, if_neg (by omega)]
    · rw [h.stands.1, Nat.min_eq_right (by omega), Nat.min_eq_right hback]
    · intro hlt
      omega
    · intro _
      exact hspent
    · dsimp only
      omega
    · dsimp only
      omega
  · have hexact : c.n = n.val - pos := hcounted.resolve_right hspent
    have hpos : pos - cnt < n.val := by omega
    have hsum : pos - cnt + cnt = pos := Nat.sub_add_cancel hcnt
    have hc : c = ⟨⟨ks, min (pos - cnt + cnt) n.val⟩, n.val - (pos - cnt : Nat) - cnt⟩ := by
      obtain ⟨inner, count⟩ := c
      obtain rfl : inner = ⟨ks, min pos n.val⟩ := h.stands.1
      have hcount : count = n.val - (pos - cnt : Nat) - cnt := by
        dsimp only at hexact
        omega
      rw [hsum, hcount]
    have hback : (PartialStreamCipher.rewind
        ⟨⟨ks, min (pos - cnt + cnt) n.val⟩, n.val - (pos - cnt : Nat) - cnt⟩ (cnt - 0) :
          Outcome ErrorChain _) =
        .ok ⟨⟨ks, min (pos - cnt + 0) n.val⟩, n.val - (pos - cnt : Nat) - (0 : Nat)⟩ :=
      StrategyCipher.partial_rewind hn hpos hle (Nat.zero_le cnt)
    rw [Nat.sub_zero, ← hc] at hback
    refine ⟨_, hback, StrategyCipher.at_firstN n ks (pos - cnt) 0, ?_, ?_⟩
    · dsimp only
      omega
    · dsimp only
      rw [isizeMax] at hn
      omega

/-- A rewind leads back to the position exactly if it counts. -/
theorem rewind_stands_iff (h : PartialAt n ks pos c) (hn : n.val ≤ isizeMax) (hcnt : cnt ≤ pos) :
    (∃ c', (c.rewind cnt : Outcome ErrorChain _) = .ok c' ∧
        StrategyCipher.At (.firstN n) ks (pos - cnt) (.firstN c')) ↔
      cnt ≤ isizeMax ∧ (c.n = n.val - pos ∨ c.n + cnt ≤ 0) := by
  constructor
  · rintro ⟨c', hrewind, hstands⟩
    rw [PartialStreamCipher.rewind] at hrewind
    obtain ⟨signed, hsigned, hrewind⟩ := Outcome.bind_eq_ok_iff.mp hrewind
    obtain ⟨count, hcount, hrewind⟩ := Outcome.bind_eq_ok_iff.mp hrewind
    have hle : cnt ≤ isizeMax ∧ signed = cnt := by
      rw [toIsize] at hsigned
      split at hsigned <;> cases hsigned
      next hle => exact ⟨hle, rfl⟩
    have hsum : count = c.n + signed := by
      rw [checkedIsize] at hcount
      split at hcount <;> cases hcount
      rfl
    have hn' : c'.n = count := by
      split at hrewind
      · obtain ⟨inner, _, hrewind⟩ := Outcome.bind_eq_ok_iff.mp hrewind
        cases hrewind
        rfl
      · cases hrewind
        rfl
    obtain ⟨_, hleft, hdone⟩ := hstands
    refine ⟨hle.1, ?_⟩
    by_cases hpos : pos - cnt < n.val
    · have := hleft hpos
      omega
    · have := hdone (by omega)
      omega
  · rintro ⟨hle, hcounted⟩
    obtain ⟨c', hrewind, hat⟩ := h.rewind hn hcnt hle hcounted
    exact ⟨c', hrewind, hat.stands⟩

end PartialAt

namespace PartialRun

variable {n : NonZeroUsize} {ks : Keystream} {r : PartialRun}

/-- No call has failed, and the cipher stands at the net position. -/
def InStep (n : NonZeroUsize) (ks : Keystream) (r : PartialRun) : Prop :=
  r.failed = false ∧ PartialAt n ks r.pos r.cipher

/-- Calls that count keep the cipher in step. -/
theorem InStep.step (h : InStep n ks r) (hn : n.val ≤ isizeMax) {call : PartialCall}
    (hwithin : r.Within call) (hcounted : r.Counted n.val call) : InStep n ks (r.step call) := by
  obtain ⟨hfailed, hat⟩ := h
  cases call with
  | apply buf =>
    obtain ⟨c', happly, hat'⟩ := hat.apply hn buf
    rw [PartialRun.step, happly]
    exact ⟨hfailed, hat'⟩
  | rewind cnt =>
    obtain ⟨c', hrewind, hat'⟩ := hat.rewind hn hwithin hcounted.1 hcounted.2
    rw [PartialRun.step, hrewind]
    exact ⟨hfailed, hat'⟩

theorem InStep.behaves (h : InStep n ks r) (hn : n.val ≤ isizeMax) : Behaves n ks r where
  succeeds := h.1
  apply := by
    intro buf
    obtain ⟨c', happly, _⟩ := h.2.apply hn buf
    exact ⟨c', happly⟩
  willModifyData := by
    have hreach := h.2.stands.willModifyData_eq
    rw [StrategyCipher.willModifyData, EncryptionStrategy.reaches] at hreach
    rw [hreach, decide_eq_true_iff]

/-- In any order of applications and rewinds that count, the cipher behaves as at its net
position. -/
theorem rewind_undoes_apply (n : NonZeroUsize) (ks : Keystream) (c : PartialStreamCipher)
    (calls : List PartialCall)
    (hnew : (PartialStreamCipher.new n.val (Cipher.new ks) : Outcome ErrorChain _) = .ok c)
    (h : Along step (fun r call ↦ r.Within call ∧ r.Counted n.val call) (start c) calls) :
    Behaves n ks (runFrom step (start c) calls) := by
  obtain ⟨hn, hat⟩ := PartialAt.of_new hnew
  have hstep : ∀ r call, InStep n ks r → r.Within call ∧ r.Counted n.val call →
      InStep n ks (r.step call) := fun r call hr hcall ↦ hr.step hn hcall.1 hcall.2
  exact (Along.invariant hstep ⟨rfl, hat⟩ h).behaves hn

private def zeroSlice (n : Nat) (h : n ≤ isizeMax) : Slice :=
  ⟨List.replicate n 0, by rwa [List.length_replicate]⟩

private def budgetOfFive : NonZeroUsize := ⟨5, by decide⟩

/-- The budget is overrun by eight bytes, and the rewind goes back into it. -/
private def countedCalls : List PartialCall :=
  [.apply (zeroSlice 3 (by decide)), .apply (zeroSlice 10 (by decide)), .rewind 9]

theorem rewind_undoes_apply_counted :
    Behaves budgetOfFive zeroKeys
      (runFrom step (start ⟨Cipher.new zeroKeys, 5⟩) countedCalls) :=
  rewind_undoes_apply budgetOfFive zeroKeys ⟨Cipher.new zeroKeys, 5⟩ countedCalls rfl (by decide)

/-- The budget is used up to the byte, and ten more bytes are not counted. -/
private def uncountedCalls : List PartialCall :=
  [.apply (zeroSlice 5 (by decide)), .apply (zeroSlice 10 (by decide)), .rewind 3]

/-- Three bytes back from the fifteenth, the cipher takes itself to be within the first five. -/
theorem rewind_loses_position :
    ¬ ∀ (n : NonZeroUsize) (ks : Keystream) (c : PartialStreamCipher) (calls : List PartialCall),
      (PartialStreamCipher.new n.val (Cipher.new ks) : Outcome ErrorChain _) = .ok c →
      Along step Within (start c) calls → Behaves n ks (runFrom step (start c) calls) := by
  intro h
  have hbehaves := h budgetOfFive zeroKeys ⟨Cipher.new zeroKeys, 5⟩ uncountedCalls rfl (by decide)
  have hpos := hbehaves.willModifyData.mp (by decide)
  revert hpos
  decide

end PartialRun
end Cpxy.TcpMan
