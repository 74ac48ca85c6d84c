import Cpxy.Base.Run
import Cpxy.Base.Writer
import Cpxy.TcpMan.Cipher

/-!
# The cipher stream

Library `TcpMan`. Source `src/protocol/tcpman/cipher/stream.rs:10–134`. A stream whose two
directions have a cipher each. A write encrypts before it knows how much the writer below
takes, and rewinds its cipher over what was not taken. A cipher that modifies nothing any
more is dropped. Either way, a direction adds the keystream of its strategy.
-/

namespace Cpxy.TcpMan

open Cpxy.Base

/-- `CipherStream` without the streams below; `stream.rs:10–21`. Each call overwrites the
scratch buffer before it uses it, and the name is for logs. -/
structure CipherStream where
  rdCipher : Option StrategyCipher
  wrCipher : Option StrategyCipher
  lastWrittenSize : Option Nat

namespace CipherStream

/-- `CipherStream::new`; `stream.rs:25–35`. -/
def new (rdCipher wrCipher : StrategyCipher) : CipherStream where
  rdCipher := some rdCipher
  wrCipher := some wrCipher
  lastWrittenSize := none

/-- `poll_read`, given the result of the stream below; `stream.rs:41–70`. -/
def pollRead (s : CipherStream) (result : Poll (Outcome ErrorChain Bytes)) :
    Poll (Outcome ErrorChain Bytes) × CipherStream :=
  match result with
  | .ready (.ok data) =>
    if 0 < data.length then
      match s.rdCipher with
      | some c =>
        if c.willModifyData then
          match c.apply data with
          | .ok (out, c) => (.ready (.ok out), { s with rdCipher := some c })
          | .err e => (.ready (.err e), s)
          | .panicked => (.ready .panicked, s)
        else (result, { s with rdCipher := none })
      | none => (result, s)
    else (result, s)
  | _ => (result, s)

/-- The encrypting half of `poll_write`; `stream.rs:84–118`. -/
def encryptAndWrite (s : CipherStream) (c : StrategyCipher) (buf : Bytes) (a : Answer) :
    Poll (Outcome ErrorChain Nat) × CipherStream × Bytes :=
  let desired := min buf.length (max (s.lastWrittenSize.getD 4096) 512)
  match c.apply (buf.take desired) with
  | .err e => (.ready (.err e), s, [])
  | .panicked => (.ready .panicked, s, [])
  | .ok (wrBuf, c) =>
    match a.pollWrite wrBuf with
    | (.ready (.ok actual), out) =>
      match if actual < desired then c.rewind (desired - actual) else .ok c with
      | .ok c =>
        (.ready (.ok actual), { s with wrCipher := some c, lastWrittenSize := some actual }, out)
      | .err e => (.ready (.err e), s, out)
      | .panicked => (.ready .panicked, s, out)
    | (.pending, out) =>
      match c.rewind wrBuf.length with
      | .ok c => (.pending, { s with wrCipher := some c }, out)
      | .err e => (.ready (.err e), s, out)
      | .panicked => (.ready .panicked, s, out)
    | (result, out) => (result, { s with wrCipher := some c }, out)

/-- `poll_write`; `stream.rs:76–134`: the result, the stream afterwards and the bytes that
reached the wire. -/
def pollWrite (s : CipherStream) (buf : Bytes) (a : Answer) :
    Poll (Outcome ErrorChain Nat) × CipherStream × Bytes :=
  match s.wrCipher with
  | some c =>
    if c.willModifyData then s.encryptAndWrite c buf a
    else
      let (result, out) := a.pollWrite buf
      (result, { s with wrCipher := none }, out)
  | none =>
    let (result, out) := a.pollWrite buf
    (result, s, out)

/-- Reading leaves the writing cipher alone. -/
theorem wrCipher_pollRead (s : CipherStream) (result : Poll (Outcome ErrorChain Bytes)) :
    (s.pollRead result).2.wrCipher = s.wrCipher := by
  fun_cases pollRead <;> rfl

theorem rdCipher_encryptAndWrite (s : CipherStream) (c : StrategyCipher) (buf : Bytes)
    (a : Answer) : (s.encryptAndWrite c buf a).2.1.rdCipher = s.rdCipher := by
  fun_cases encryptAndWrite <;> rfl

/-- Writing leaves the reading cipher alone. -/
theorem rdCipher_pollWrite (s : CipherStream) (buf : Bytes) (a : Answer) :
    (s.pollWrite buf a).2.1.rdCipher = s.rdCipher := by
  unfold pollWrite
  split
  · split
    · exact rdCipher_encryptAndWrite _ _ _ _
    · rfl
  · rfl

end CipherStream

/-! ### Directions in step -/

/-- A direction with this cipher adds the strategy's keys from the position on. -/
def InStep (s : EncryptionStrategy) (ks : Keystream) (pos : Nat) : Option StrategyCipher → Prop
  | some c => StrategyCipher.At s ks pos c
  | none => ∀ i, pos ≤ i → s.keys ks i = 0

variable {strategy : EncryptionStrategy} {ks : Keystream} {pos : Nat} {s : CipherStream}

theorem InStep.of_idle {c : StrategyCipher} (h : StrategyCipher.At strategy ks pos c)
    (hm : ¬ c.willModifyData = true) (k : Nat) : InStep strategy ks (pos + k) none := by
  intro i hi
  exact h.keys_eq_zero (Bool.not_eq_true _ ▸ hm) i (by omega)

/-- Reading adds the keys at the position, and moves on by what was read. -/
theorem InStep.pollRead (h : InStep strategy ks pos s.rdCipher) (hs : strategy.Counts)
    {data : Bytes} (hd : data.length ≤ isizeMax) :
    ∃ s', s.pollRead (.ready (.ok data)) = (.ready (.ok (xorAt (strategy.keys ks) pos data)), s') ∧
      InStep strategy ks (pos + data.length) s'.rdCipher := by
  rw [CipherStream.pollRead]
  by_cases hlen : 0 < data.length
  · rw [if_pos hlen]
    cases hc : s.rdCipher with
    | none =>
      rw [hc] at h
      refine ⟨s, ?_, ?_⟩
      · rw [xorAt_of_zero h]
      · rw [hc]
        intro i hi
        exact h i (by omega)
    | some c =>
      rw [hc] at h
      dsimp only
      by_cases hm : c.willModifyData = true
      · rw [if_pos hm]
        obtain ⟨c', happly, hat, _⟩ := StrategyCipher.At.apply (ε := ErrorChain) h hs hd
        rw [happly]
        exact ⟨_, rfl, hat⟩
      · rw [if_neg hm]
        have hzero : ∀ i, pos ≤ i → strategy.keys ks i = 0 := InStep.of_idle h hm 0
        refine ⟨{ s with rdCipher := none }, ?_, InStep.of_idle h hm data.length⟩
        rw [xorAt_of_zero hzero]
  · obtain rfl : data = [] := List.eq_nil_of_length_eq_zero (by omega)
    exact ⟨s, rfl, h⟩

/-- While the cipher works, a write that has to wait leaves it where it was. -/
theorem encryptAndWrite_pending {c : StrategyCipher} (h : StrategyCipher.At strategy ks pos c)
    (hm : c.willModifyData = true) (hs : strategy.Counts) {buf : Bytes}
    (hb : buf.length ≤ isizeMax) :
    ∃ s', s.encryptAndWrite c buf .pending = (.pending, s', []) ∧
      InStep strategy ks pos s'.wrCipher := by
  rw [CipherStream.encryptAndWrite]
  generalize hd : min buf.length (max (s.lastWrittenSize.getD 4096) 512) = desired
  have hlen : (buf.take desired).length = desired := List.length_take_of_le (by omega)
  have hle : (buf.take desired).length ≤ isizeMax := by omega
  obtain ⟨c', happly, _, hrewind⟩ := StrategyCipher.At.apply (ε := ErrorChain) h hs hle
  obtain ⟨c'', hback, hat⟩ := hrewind hm 0 (Nat.zero_le _)
  rw [happly]
  simp only [Answer.pollWrite, length_xorAt]
  rw [Nat.sub_zero] at hback
  rw [hback]
  exact ⟨_, rfl, hat⟩

/-- How much of a buffer a working cipher gets written: what was written last bounds what is
offered, and the answer bounds what is taken of that. -/
def actualWrittenLen (last : Option Nat) (len limit : Nat) : Nat :=
  min limit (min len (max (last.getD 4096) 512))

theorem actualWrittenLen_le (last : Option Nat) (len limit : Nat) :
    actualWrittenLen last len limit ≤ len := by
  rw [actualWrittenLen]
  omega

/-- While the cipher works, it stops behind the prefix that is accepted. -/
theorem encryptAndWrite_ready {c : StrategyCipher} (h : StrategyCipher.At strategy ks pos c)
    (hm : c.willModifyData = true) (hs : strategy.Counts) {buf : Bytes}
    (hb : buf.length ≤ isizeMax) (limit : Nat) {k : Nat}
    (hk : k = actualWrittenLen s.lastWrittenSize buf.length limit) :
    ∃ c', s.encryptAndWrite c buf (.ready limit) =
        (.ready (.ok k), { s with wrCipher := some c', lastWrittenSize := some k },
          xorAt (strategy.keys ks) pos (buf.take k)) ∧
      StrategyCipher.At strategy ks (pos + k) c' := by
  rw [CipherStream.encryptAndWrite]
  rw [actualWrittenLen] at hk
  generalize hd : min buf.length (max (s.lastWrittenSize.getD 4096) 512) = desired at hk
  subst hk
  have hlen : (buf.take desired).length = desired := List.length_take_of_le (by omega)
  have hle : (buf.take desired).length ≤ isizeMax := by omega
  obtain ⟨c', happly, hat, hrewind⟩ := StrategyCipher.At.apply (ε := ErrorChain) h hs hle
  rw [hlen] at hat hrewind
  rw [happly]
  simp only [Answer.pollWrite, length_xorAt, hlen, take_xorAt, List.take_take]
  by_cases hshort : min limit desired < desired
  · obtain ⟨c'', hback, hat'⟩ := hrewind hm (min limit desired) (Nat.le_of_lt hshort)
    rw [if_pos hshort, hback]
    exact ⟨c'', rfl, hat'⟩
  · have hall : min limit desired = desired := by omega
    rw [if_neg hshort, hall]
    exact ⟨c', rfl, hat⟩

/-- A write that has to wait leaves the direction where it was. -/
theorem InStep.pollWrite_pending (h : InStep strategy ks pos s.wrCipher) (hs : strategy.Counts)
    {buf : Bytes} (hb : buf.length ≤ isizeMax) :
    ∃ s', s.pollWrite buf .pending = (.pending, s', []) ∧
      InStep strategy ks pos s'.wrCipher := by
  rw [CipherStream.pollWrite]
  cases hc : s.wrCipher with
  | none =>
    rw [hc] at h
    exact ⟨s, rfl, by rw [hc]; exact h⟩
  | some c =>
    rw [hc] at h
    dsimp only
    by_cases hm : c.willModifyData = true
    · rw [if_pos hm]
      exact encryptAndWrite_pending h hm hs hb
    · rw [if_neg hm]
      exact ⟨_, rfl, InStep.of_idle h hm 0⟩

/-- A write puts the prefix that it accepts on the wire, with the keys at the position. -/
theorem InStep.pollWrite_ready (h : InStep strategy ks pos s.wrCipher) (hs : strategy.Counts)
    {buf : Bytes} (hb : buf.length ≤ isizeMax) (limit : Nat) :
    ∃ k s', s.pollWrite buf (.ready limit) =
        (.ready (.ok k), s', xorAt (strategy.keys ks) pos (buf.take k)) ∧ k ≤ buf.length ∧
      InStep strategy ks (pos + k) s'.wrCipher := by
  have htake : buf.take limit = buf.take (min limit buf.length) := by
    rw [List.take_eq_take_min]
  rw [CipherStream.pollWrite]
  cases hc : s.wrCipher with
  | none =>
    rw [hc] at h
    refine ⟨min limit buf.length, s, ?_, Nat.min_le_right _ _, ?_⟩
    · rw [xorAt_of_zero h, Answer.pollWrite, htake]
    · rw [hc]
      intro i hi
      exact h i (by omega)
  | some c =>
    rw [hc] at h
    dsimp only
    by_cases hm : c.willModifyData = true
    · rw [if_pos hm]
      obtain ⟨c', hwrite, hat⟩ := encryptAndWrite_ready (s := s) h hm hs hb limit rfl
      exact ⟨_, _, hwrite, actualWrittenLen_le _ _ _, hat⟩
    · rw [if_neg hm]
      have hzero : ∀ i, pos ≤ i → strategy.keys ks i = 0 := InStep.of_idle h hm 0
      refine ⟨min limit buf.length, { s with wrCipher := none }, ?_, Nat.min_le_right _ _,
        InStep.of_idle h hm _⟩
      rw [xorAt_of_zero hzero, Answer.pollWrite, htake]

/-! ### Runs of writes -/

/-- A slice of bytes. -/
abbrev Slice := { b : Bytes // b.length ≤ isizeMax }

/-- A stream that is written to, with what was accepted, what reached the wire, and whether a
call has failed. -/
structure Writing where
  stream : CipherStream
  accepted : Bytes
  wire : Bytes
  failed : Bool

/-- The call failed or panicked. -/
def isFailure : Poll (Outcome ErrorChain Nat) → Bool
  | .pending => false
  | .ready (.ok _) => false
  | .ready _ => true

namespace Writing

/-- Nothing written. -/
def start (s : CipherStream) : Writing where
  stream := s
  accepted := []
  wire := []
  failed := false

/-- One call of `poll_write`, which the writer below answers with `Pending` or by taking a
bounded prefix. -/
def step (w : Writing) (call : Slice × Option Nat) : Writing :=
  let (result, stream, out) := w.stream.pollWrite call.1.val (.ofLimit call.2)
  { stream := stream
    accepted := w.accepted ++ acceptedPrefix call.1.val result
    wire := w.wire ++ out
    failed := w.failed || isFailure result }

/-- The wire holds what was accepted with its keys, and the cipher stands behind it. -/
structure Invariant (strategy : EncryptionStrategy) (ks : Keystream) (pos : Nat) (w : Writing) :
    Prop where
  inStep : InStep strategy ks (pos + w.accepted.length) w.stream.wrCipher
  wire : w.wire = xorAt (strategy.keys ks) pos w.accepted
  failed : w.failed = false

theorem Invariant.step {w : Writing} (h : Invariant strategy ks pos w) (hs : strategy.Counts)
    (call : Slice × Option Nat) : Invariant strategy ks pos (w.step call) := by
  obtain ⟨buf, limit⟩ := call
  cases limit with
  | none =>
    obtain ⟨s', hpoll, hstep⟩ := h.inStep.pollWrite_pending hs buf.property
    rw [Writing.step, Answer.ofLimit, hpoll]
    constructor
    · simpa [acceptedPrefix] using hstep
    · simpa [acceptedPrefix] using h.wire
    · simpa [isFailure] using h.failed
  | some limit =>
    obtain ⟨k, s', hpoll, hk, hstep⟩ := h.inStep.pollWrite_ready hs buf.property limit
    rw [Writing.step, Answer.ofLimit, hpoll]
    constructor
    · simpa [acceptedPrefix, Nat.add_assoc, Nat.min_eq_left hk] using hstep
    · dsimp only
      rw [acceptedPrefix, xorAt_append, h.wire]
    · simpa [isFailure] using h.failed

theorem invariant_start {s : CipherStream} (h : InStep strategy ks pos s.wrCipher) :
    Invariant strategy ks pos (start s) :=
  ⟨h, rfl, rfl⟩

end Writing
end Cpxy.TcpMan
