import Cpxy.Base.BigEndian
import Cpxy.Base.Outcome

/-!
# The read-write buffer

Library `Io`. Source `src/buf.rs:5–68`. A vector with a read and a write cursor: what lies
between them is to be read, what lies behind the write cursor can be filled.
-/

namespace Cpxy.Io

open Cpxy.Base

/-- `RWBuffer`; `buf.rs:5–9`. -/
structure RWBuffer where
  buf : Bytes
  readCursor : Nat
  writeCursor : Nat
  read_le : readCursor ≤ writeCursor
  write_le : writeCursor ≤ buf.length

namespace RWBuffer

/-- `RWBuffer::new`; `buf.rs:12–18`. -/
def new (buf : Bytes) : RWBuffer where
  buf := buf
  readCursor := 0
  writeCursor := 0
  read_le := Nat.le_refl 0
  write_le := Nat.zero_le _

/-- `grow`; `buf.rs:24–31`: half as long again, unless that rounds down to nothing. -/
def grow (b : RWBuffer) : RWBuffer where
  buf := b.buf ++ List.replicate (b.buf.length * 15 / 10 - b.buf.length) 0
  readCursor := b.readCursor
  writeCursor := b.writeCursor
  read_le := b.read_le
  write_le := by
    have := b.write_le
    simp only [List.length_append]
    omega

/-- `remaining_read`; `buf.rs:33–35`. -/
def remainingRead (b : RWBuffer) : Nat := b.writeCursor - b.readCursor

/-- `read_buf`; `buf.rs:46–48`. -/
def readBuf (b : RWBuffer) : Bytes := (b.buf.take b.writeCursor).drop b.readCursor

/-- `remaining_write`; `buf.rs:55–57`. -/
def remainingWrite (b : RWBuffer) : Nat := b.buf.length - b.writeCursor

/-- `advance_read`; `buf.rs:37–44`: an emptied buffer starts over. -/
def advanceRead {ε : Type} (b : RWBuffer) (cnt : Nat) : Outcome ε RWBuffer :=
  if h : b.readCursor + cnt ≤ b.writeCursor then
    if b.readCursor + cnt = b.writeCursor then .ok (new b.buf)
    else .ok ⟨b.buf, b.readCursor + cnt, b.writeCursor, h, b.write_le⟩
  else .panicked

/-- `advance_write`; `buf.rs:50–53`. -/
def advanceWrite {ε : Type} (b : RWBuffer) (cnt : Nat) : Outcome ε RWBuffer :=
  if h : b.writeCursor + cnt ≤ b.buf.length then
    .ok ⟨b.buf, b.readCursor, b.writeCursor + cnt, Nat.le_add_right_of_le b.read_le, h⟩
  else .panicked

/-- What `write_buf` does to the buffer, `buf.rs:63–68`; the slice it returns is what lies
behind the write cursor afterwards. -/
def writeBuf (b : RWBuffer) : RWBuffer := if b.remainingWrite = 0 then b.grow else b

/-- Store bytes at the start of the slice behind the write cursor. -/
def store (b : RWBuffer) (data : Bytes) : RWBuffer where
  buf := b.buf.take b.writeCursor ++ (data ++ b.buf.drop (b.writeCursor + data.length))
  readCursor := b.readCursor
  writeCursor := b.writeCursor
  read_le := b.read_le
  write_le := by
    have := b.write_le
    simp only [List.length_append, List.length_take]
    omega

@[simp] theorem readBuf_new (buf : Bytes) : (new buf).readBuf = [] := rfl

theorem length_readBuf (b : RWBuffer) : b.readBuf.length = b.writeCursor - b.readCursor := by
  have := b.write_le
  simp only [readBuf, List.length_drop, List.length_take]
  omega

@[simp] theorem readBuf_writeBuf (b : RWBuffer) : b.writeBuf.readBuf = b.readBuf := by
  rw [writeBuf]
  split
  · simp only [readBuf, grow]
    rw [List.take_append_of_le_length b.write_le]
  · rfl

theorem length_buf_writeBuf (b : RWBuffer) : b.buf.length ≤ b.writeBuf.buf.length := by
  rw [writeBuf]
  split
  · simp [grow]
  · exact Nat.le_refl _

/-- With two bytes or more, there is always room to write. -/
theorem remainingWrite_writeBuf {b : RWBuffer} (h : 2 ≤ b.buf.length) :
    0 < b.writeBuf.remainingWrite := by
  rw [writeBuf]
  split
  · next hz =>
    have := b.write_le
    simp only [remainingWrite, grow, List.length_append, List.length_replicate] at hz ⊢
    omega
  · next hz => omega

@[simp] theorem readCursor_writeBuf (b : RWBuffer) : b.writeBuf.readCursor = b.readCursor := by
  rw [writeBuf]
  split <;> rfl

theorem readCursor_advanceWrite {ε : Type} {b b' : RWBuffer} {cnt : Nat}
    (h : (b.advanceWrite cnt : Outcome ε RWBuffer) = .ok b') : b'.readCursor = b.readCursor := by
  rw [advanceWrite] at h
  split at h <;> cases h
  rfl

/-- With nothing read on yet, a buffer has room for what it does not hold. -/
theorem length_readBuf_add_room {b : RWBuffer} (h : b.readCursor = 0) :
    b.readBuf.length + b.remainingWrite = b.buf.length := by
  have := b.write_le
  rw [length_readBuf, remainingWrite, h]
  omega

/-- Only a full buffer grows, by half. -/
theorem length_buf_writeBuf_eq {b : RWBuffer} (h : b.readCursor = 0) :
    b.writeBuf.buf.length = b.buf.length ∨
      b.readBuf.length = b.buf.length ∧ 2 * b.writeBuf.buf.length ≤ 3 * b.buf.length := by
  have hroom := length_readBuf_add_room h
  rw [writeBuf]
  split
  · next hfull =>
    refine .inr ⟨by omega, ?_⟩
    simp only [grow, List.length_append, List.length_replicate]
    omega
  · exact .inl rfl

/-- Bytes stored and taken over follow what was there. -/
theorem advanceWrite_store {ε : Type} (b : RWBuffer) {data : Bytes}
    (h : data.length ≤ b.remainingWrite) :
    ∃ b', ((b.store data).advanceWrite data.length : Outcome ε RWBuffer) = .ok b' ∧
      b'.readBuf = b.readBuf ++ data ∧ b'.buf.length = b.buf.length := by
  have hw := b.write_le
  have hr := b.read_le
  have htake : (b.buf.take b.writeCursor).length = b.writeCursor := List.length_take_of_le hw
  have hlen : (b.store data).buf.length = b.buf.length := by
    rw [remainingWrite] at h
    simp only [store, List.length_append, List.length_take, List.length_drop]
    omega
  have hle : (b.store data).writeCursor + data.length ≤ (b.store data).buf.length := by
    rw [remainingWrite] at h
    rw [hlen]
    simp only [store]
    omega
  refine ⟨_, dif_pos hle, ?_, hlen⟩
  simp only [readBuf, store]
  rw [← List.append_assoc, List.take_append_of_le_length (by simp [htake]),
    List.take_of_length_le (by simp [htake]), List.drop_append_of_le_length (by omega)]

/-- Reading on takes bytes from the front. -/
theorem readBuf_advanceRead {ε : Type} {b : RWBuffer} {cnt : Nat} (h : cnt ≤ b.readBuf.length) :
    ∃ b', (b.advanceRead cnt : Outcome ε RWBuffer) = .ok b' ∧ b'.readBuf = b.readBuf.drop cnt ∧
      b'.buf = b.buf := by
  rw [length_readBuf] at h
  have hr := b.read_le
  have hle : b.readCursor + cnt ≤ b.writeCursor := by omega
  rw [advanceRead, dif_pos hle]
  split
  · next heq =>
    refine ⟨_, rfl, ?_, rfl⟩
    rw [readBuf_new, List.drop_eq_nil_of_le]
    rw [length_readBuf]
    omega
  · refine ⟨_, rfl, ?_, rfl⟩
    simp only [readBuf, List.drop_drop]

/-- A buffer that is read to its end starts over. -/
theorem advanceRead_remaining {ε : Type} (b : RWBuffer) :
    (b.advanceRead b.remainingRead : Outcome ε RWBuffer) = .ok (new b.buf) := by
  have hend : b.readCursor + b.remainingRead = b.writeCursor := Nat.add_sub_cancel' b.read_le
  rw [advanceRead, dif_pos (Nat.le_of_eq hend), if_pos hend]

end RWBuffer
end Cpxy.Io
