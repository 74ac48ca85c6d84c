import Cpxy.Base.Cursor
import Cpxy.Base.Fifo
import Cpxy.Base.Run
import Cpxy.Io.RWBuffer

/-!
# The read-write buffer as a queue

Library `Io`. Source `src/buf.rs:5–114`. The buffer with nothing promised of its cursors: every
subtraction, assertion and slice of the source can fail here. From a new buffer on none does, and
the buffer gives back the bytes that it took.
-/

namespace Cpxy.Io

open Cpxy.Base

/-- The fields of `RWBuffer`; `buf.rs:5–9`. -/
structure RawBuffer where
  buf : Bytes
  readCursor : Nat
  writeCursor : Nat
  deriving DecidableEq, Repr

namespace RawBuffer

/-- `new`; `buf.rs:12–18`. -/
def new (buf : Bytes) : RawBuffer := ⟨buf, 0, 0⟩

/-- `grow`; `buf.rs:24–31`. No vector is so long that the product overflows. -/
def grow (b : RawBuffer) : RawBuffer :=
  if b.buf.length < b.buf.length * 15 / 10 then
    { b with buf := b.buf ++ List.replicate (b.buf.length * 15 / 10 - b.buf.length) 0 }
  else b

/-- `remaining_read`; `buf.rs:33–35`. -/
def remainingRead (b : RawBuffer) : Outcome ErrorChain Nat :=
  .checkedSub b.writeCursor b.readCursor

/-- `advance_read`; `buf.rs:37–44`. -/
def advanceRead (b : RawBuffer) (cnt : Nat) : Outcome ErrorChain RawBuffer :=
  if b.readCursor + cnt ≤ b.writeCursor then
    if b.readCursor + cnt = b.writeCursor then .ok { b with readCursor := 0, writeCursor := 0 }
    else .ok { b with readCursor := b.readCursor + cnt }
  else .panicked

/-- `read_buf`; `buf.rs:46–48`. -/
def readBuf (b : RawBuffer) : Outcome ErrorChain Bytes :=
  slice b.buf b.readCursor b.writeCursor

/-- `advance_write`; `buf.rs:50–53`. -/
def advanceWrite (b : RawBuffer) (cnt : Nat) : Outcome ErrorChain RawBuffer :=
  if b.writeCursor + cnt ≤ b.buf.length then
    .ok { b with writeCursor := b.writeCursor + cnt }
  else .panicked

/-- `remaining_write`; `buf.rs:55–57`. -/
def remainingWrite (b : RawBuffer) : Outcome ErrorChain Nat :=
  .checkedSub b.buf.length b.writeCursor

/-- `write_buf`; `buf.rs:63–68`: the buffer afterwards, and what the slice holds. -/
def writeBuf (b : RawBuffer) : Outcome ErrorChain (RawBuffer × Bytes) := do
  let room ← b.remainingWrite
  let b := if room = 0 then b.grow else b
  let tail ← slice b.buf b.writeCursor b.buf.length
  .ok (b, tail)

/-- Fill the start of the slice that `write_buf` returned, as `put_slice` does; `tail` is what it
held. -/
def putSlice (b : RawBuffer) (tail data : Bytes) : Outcome ErrorChain RawBuffer :=
  if data.length ≤ tail.length then
    .ok { b with buf := b.buf.take b.writeCursor ++ (data ++ tail.drop data.length) }
  else .panicked

/-- `compact`; `buf.rs:70–83`. -/
def compact (b : RawBuffer) : Outcome ErrorChain RawBuffer :=
  if b.readCursor < b.writeCursor then
    if 0 < b.readCursor then do
      let unread ← slice b.buf b.readCursor b.writeCursor
      let writeCursor ← .checkedSub b.writeCursor b.readCursor
      .ok ⟨unread ++ b.buf.drop unread.length, 0, writeCursor⟩
    else .ok b
  else if b.readCursor = b.writeCursor then .ok { b with readCursor := 0, writeCursor := 0 }
  else .panicked

/-- `write`; `buf.rs:87–98`. -/
def write (b : RawBuffer) (data : Bytes) : Outcome ErrorChain (Nat × RawBuffer) := do
  let room ← b.remainingWrite
  let b ← (if room < data.length then b.compact else .ok b)
  let room ← b.remainingWrite
  let len := min room data.length
  if 0 < len then do
    let (b, tail) ← b.writeBuf
    let b ← b.putSlice tail (data.take len)
    let b ← b.advanceWrite len
    .ok (len, b)
  else .ok (len, b)

/-- `read` into a slice with room for so many bytes, and what is put there; `buf.rs:106–113`. -/
def read (b : RawBuffer) (room : Nat) : Outcome ErrorChain (Bytes × RawBuffer) := do
  let unread ← b.remainingRead
  let len := min unread room
  if 0 < len then do
    let data ← b.readBuf
    let data ← slice data 0 len
    let b ← b.advanceRead len
    .ok (data, b)
  else .ok ([], b)

end RawBuffer

/-- A call on the buffer. To fill the buffer is to put bytes into the slice that `write_buf`
returns and to advance over them. -/
inductive BufferCall where
  | write (data : Bytes)
  | fill (data : Bytes)
  | read (room : Nat)
  | advanceRead (cnt : Nat)
  | compact
  deriving DecidableEq, Repr

namespace BufferCall

/-- The buffer after the call, with the bytes that it took and those that were consumed. -/
def run (b : RawBuffer) : BufferCall → Outcome ErrorChain (RawBuffer × Passed UInt8)
  | .write data => do
    let (n, b) ← b.write data
    .ok (b, ⟨data.take n, []⟩)
  | .fill data => do
    let (b, tail) ← b.writeBuf
    let b ← b.putSlice tail data
    let b ← b.advanceWrite data.length
    .ok (b, ⟨data, []⟩)
  | .read room => do
    let (data, b) ← b.read room
    .ok (b, ⟨[], data⟩)
  | .advanceRead cnt => do
    let unread ← b.readBuf
    let b ← b.advanceRead cnt
    .ok (b, ⟨[], unread.take cnt⟩)
  | .compact => do
    let b ← b.compact
    .ok (b, .none)

/-- What callers owe: not to fill more than the slice, nor to advance over more than is there. -/
def Within (b : RawBuffer) : BufferCall → Prop
  | .fill data => b.writeBuf.All fun r ↦ data.length ≤ r.2.length
  | .advanceRead cnt => b.remainingRead.All fun unread ↦ cnt ≤ unread
  | _ => True

instance (b : RawBuffer) : (call : BufferCall) → Decidable (call.Within b)
  | .write _ => inferInstanceAs (Decidable True)
  | .fill data => inferInstanceAs (Decidable (b.writeBuf.All fun r ↦ data.length ≤ r.2.length))
  | .read _ => inferInstanceAs (Decidable True)
  | .advanceRead cnt => inferInstanceAs (Decidable (b.remainingRead.All fun unread ↦ cnt ≤ unread))
  | .compact => inferInstanceAs (Decidable True)

end BufferCall

/-- The buffer in use: what passed through it, and whether a call failed. -/
structure ByteQueue where
  buffer : RawBuffer
  passed : Passed UInt8
  failed : Bool
  deriving DecidableEq, Repr

namespace ByteQueue

/-- A new buffer. -/
def start (mem : Bytes) : ByteQueue := ⟨.new mem, .none, false⟩

/-- One call. -/
def step (q : ByteQueue) (call : BufferCall) : ByteQueue :=
  match call.run q.buffer with
  | .ok (buffer, passed) => { q with buffer := buffer, passed := q.passed.append passed }
  | _ => { q with failed := true }

end ByteQueue

/-! ### Operations on a buffer whose cursors are in order -/

section Operations

variable {b : RWBuffer} {data : Bytes} {n : Nat}

/-- The fields, without what is known of them. -/
def RWBuffer.raw (b : RWBuffer) : RawBuffer := ⟨b.buf, b.readCursor, b.writeCursor⟩

theorem RWBuffer.raw_remainingRead (b : RWBuffer) :
    b.raw.remainingRead = .ok b.readBuf.length := by
  rw [b.length_readBuf]
  exact if_pos b.read_le

theorem RWBuffer.raw_remainingWrite (b : RWBuffer) :
    b.raw.remainingWrite = .ok b.remainingWrite :=
  if_pos b.write_le

theorem RWBuffer.raw_readBuf (b : RWBuffer) : b.raw.readBuf = .ok b.readBuf :=
  slice_of_le b.read_le b.write_le

theorem RWBuffer.raw_grow (b : RWBuffer) : b.raw.grow = b.grow.raw := by
  rw [RawBuffer.grow]
  split
  · rfl
  · next h =>
    have hzero : b.buf.length * 15 / 10 - b.buf.length = 0 := Nat.sub_eq_zero_of_le (not_lt.mp h)
    simp only [RWBuffer.raw, RWBuffer.grow, hzero, List.replicate_zero, List.append_nil]

theorem RWBuffer.raw_writeBuf (b : RWBuffer) :
    b.raw.writeBuf = .ok (b.writeBuf.raw, b.writeBuf.buf.drop b.writeBuf.writeCursor) := by
  have hgrow : (if b.remainingWrite = 0 then b.raw.grow else b.raw) = b.writeBuf.raw := by
    rw [RWBuffer.writeBuf, RWBuffer.raw_grow]
    split <;> rfl
  have htail := slice_of_le (ε := ErrorChain) b.writeBuf.write_le (Nat.le_refl _)
  rw [List.take_length] at htail
  rw [RawBuffer.writeBuf, b.raw_remainingWrite, Outcome.ok_bind, hgrow]
  simp only [RWBuffer.raw, htail, Outcome.ok_bind]

theorem RWBuffer.raw_putSlice (h : data.length ≤ b.remainingWrite) :
    b.raw.putSlice (b.buf.drop b.writeCursor) data = .ok (b.store data).raw := by
  have hlen : data.length ≤ (b.buf.drop b.writeCursor).length := by rwa [List.length_drop]
  rw [RawBuffer.putSlice, if_pos hlen, List.drop_drop]
  rfl

theorem RWBuffer.raw_advanceWrite {b' : RWBuffer}
    (h : (b.advanceWrite n : Outcome ErrorChain RWBuffer) = .ok b') :
    b.raw.advanceWrite n = .ok b'.raw := by
  rw [RWBuffer.advanceWrite] at h
  split at h <;> cases h
  next hle => exact if_pos hle

theorem RWBuffer.raw_advanceRead {b' : RWBuffer}
    (h : (b.advanceRead n : Outcome ErrorChain RWBuffer) = .ok b') :
    b.raw.advanceRead n = .ok b'.raw := by
  rw [RWBuffer.advanceRead] at h
  split at h
  · next hle =>
    have hraw : b.raw.readCursor + n ≤ b.raw.writeCursor := hle
    rw [RawBuffer.advanceRead, if_pos hraw]
    split at h <;> cases h
    · next heq => exact if_pos heq
    · next hne => exact if_neg hne
  · cases h

/-- Bytes that fit go behind what was there. -/
theorem RWBuffer.raw_fill (h : data.length ≤ b.remainingWrite) :
    ∃ b' : RWBuffer, (do
        let filled ← b.raw.putSlice (b.buf.drop b.writeCursor) data
        filled.advanceWrite data.length) = .ok b'.raw ∧
      b'.readBuf = b.readBuf ++ data ∧ b'.buf.length = b.buf.length := by
  obtain ⟨b', hadvance, hread, hlen⟩ := RWBuffer.advanceWrite_store (ε := ErrorChain) b h
  refine ⟨b', ?_, hread, hlen⟩
  rw [RWBuffer.raw_putSlice h, Outcome.ok_bind, RWBuffer.raw_advanceWrite hadvance]

/-- Compacting moves what is unread to the front. -/
theorem RWBuffer.raw_compact (b : RWBuffer) :
    ∃ b' : RWBuffer, b.raw.compact = .ok b'.raw ∧ b'.readBuf = b.readBuf ∧
      b'.buf.length = b.buf.length := by
  have hr : b.raw.readCursor ≤ b.raw.writeCursor := b.read_le
  have hw : b.raw.writeCursor ≤ b.buf.length := b.write_le
  have hlen : b.readBuf.length = b.raw.writeCursor - b.raw.readCursor := b.length_readBuf
  rw [RawBuffer.compact]
  by_cases hlt : b.raw.readCursor < b.raw.writeCursor
  · rw [if_pos hlt]
    by_cases hpos : 0 < b.raw.readCursor
    · have hslice : slice b.raw.buf b.raw.readCursor b.raw.writeCursor = .ok b.readBuf :=
        b.raw_readBuf
      have hsub : (.checkedSub b.raw.writeCursor b.raw.readCursor : Outcome ErrorChain Nat) =
          .ok (b.raw.writeCursor - b.raw.readCursor) := if_pos hr
      have hfull : (b.readBuf ++ b.raw.buf.drop b.readBuf.length).length = b.buf.length := by
        show (b.readBuf ++ b.buf.drop b.readBuf.length).length = b.buf.length
        rw [List.length_append, List.length_drop]
        omega
      refine ⟨⟨b.readBuf ++ b.raw.buf.drop b.readBuf.length, 0,
        b.raw.writeCursor - b.raw.readCursor, Nat.zero_le _, by omega⟩, ?_, ?_, hfull⟩
      · rw [if_pos hpos, hslice, Outcome.ok_bind, hsub, Outcome.ok_bind]
        rfl
      · show ((b.readBuf ++ _).take (b.raw.writeCursor - b.raw.readCursor)).drop 0 = b.readBuf
        rw [← hlen, List.take_left, List.drop_zero]
    · rw [if_neg hpos]
      exact ⟨b, rfl, rfl, rfl⟩
  · have heq : b.raw.readCursor = b.raw.writeCursor := by omega
    rw [if_neg hlt, if_pos heq]
    refine ⟨.new b.buf, rfl, ?_, rfl⟩
    rw [RWBuffer.readBuf_new]
    exact (List.eq_nil_of_length_eq_zero (by omega)).symm

/-- A write takes what it reports. -/
theorem RWBuffer.raw_write (b : RWBuffer) (data : Bytes) :
    ∃ (n : Nat) (b' : RWBuffer), b.raw.write data = .ok (n, b'.raw) ∧
      b'.readBuf = b.readBuf ++ data.take n ∧ b'.buf.length = b.buf.length := by
  -- whether the buffer is compacted first makes no difference to what it holds
  obtain ⟨c, hc, hread, hlen⟩ : ∃ c : RWBuffer,
      (if b.remainingWrite < data.length then b.raw.compact else .ok b.raw) = .ok c.raw ∧
        c.readBuf = b.readBuf ∧ c.buf.length = b.buf.length := by
    by_cases hroom : b.remainingWrite < data.length
    · rw [if_pos hroom]
      exact b.raw_compact
    · rw [if_neg hroom]
      exact ⟨b, rfl, rfl, rfl⟩
  rw [RawBuffer.write, b.raw_remainingWrite, Outcome.ok_bind, hc, Outcome.ok_bind,
    c.raw_remainingWrite, Outcome.ok_bind]
  dsimp only
  by_cases hpos : 0 < min c.remainingWrite data.length
  · have htake : (data.take (min c.remainingWrite data.length)).length =
        min c.remainingWrite data.length := List.length_take_of_le (Nat.min_le_right _ _)
    have hroom : ¬ c.remainingWrite = 0 := by omega
    have hwriteBuf : c.writeBuf = c := if_neg hroom
    have hfits : (data.take (min c.remainingWrite data.length)).length ≤ c.remainingWrite := by
      omega
    obtain ⟨b', hfill, hread', hlen'⟩ := RWBuffer.raw_fill hfits
    obtain ⟨filled, hput, hadvance⟩ := Outcome.bind_eq_ok_iff.mp hfill
    rw [htake] at hadvance
    refine ⟨min c.remainingWrite data.length, b', ?_, ?_, ?_⟩
    · rw [if_pos hpos, c.raw_writeBuf, hwriteBuf, Outcome.ok_bind]
      dsimp only
      rw [hput, Outcome.ok_bind, hadvance, Outcome.ok_bind]
    · rw [hread', hread]
    · rw [hlen', hlen]
  · refine ⟨min c.remainingWrite data.length, c, ?_, ?_, hlen⟩
    · rw [if_neg hpos]
    · have hzero : min c.remainingWrite data.length = 0 := by omega
      rw [hzero, List.take_zero, List.append_nil, hread]

/-- A read consumes what it gives. -/
theorem RWBuffer.raw_read (b : RWBuffer) (room : Nat) :
    ∃ (n : Nat) (b' : RWBuffer), b.raw.read room = .ok (b.readBuf.take n, b'.raw) ∧
      b'.readBuf = b.readBuf.drop n ∧ b'.buf.length = b.buf.length := by
  rw [RawBuffer.read, b.raw_remainingRead, Outcome.ok_bind]
  dsimp only
  by_cases hpos : 0 < min b.readBuf.length room
  · have hle : min b.readBuf.length room ≤ b.readBuf.length := Nat.min_le_left _ _
    obtain ⟨b', hadvance, hread, hbuf⟩ := RWBuffer.readBuf_advanceRead (ε := ErrorChain) hle
    refine ⟨min b.readBuf.length room, b', ?_, hread, congrArg List.length hbuf⟩
    rw [if_pos hpos, b.raw_readBuf, Outcome.ok_bind, slice_of_le (Nat.zero_le _) hle,
      Outcome.ok_bind, RWBuffer.raw_advanceRead hadvance, Outcome.ok_bind, List.drop_zero]
  · refine ⟨0, b, ?_, rfl, rfl⟩
    rw [if_neg hpos, List.take_zero]

end Operations

/-! ### Every call -/

/-- A call within its bounds succeeds, moves the queue by the bytes that passed, and leaves a
buffer that is no shorter, with its cursors in order. -/
theorem BufferCall.run_spec (b : RWBuffer) (call : BufferCall) (h : call.Within b.raw) :
    ∃ (b' : RWBuffer) (p : Passed UInt8), call.run b.raw = .ok (b'.raw, p) ∧
      p.Moves b.readBuf b'.readBuf ∧ b.buf.length ≤ b'.buf.length := by
  cases call with
  | write data =>
    obtain ⟨n, b', hwrite, hread, hlen⟩ := b.raw_write data
    refine ⟨b', ⟨data.take n, []⟩, ?_, ?_, by omega⟩
    · rw [run, hwrite, Outcome.ok_bind]
    · rw [hread]
      exact Passed.moves_put _ _
  | fill data =>
    have hroom : data.length ≤ b.writeBuf.remainingWrite := by
      rwa [Within, b.raw_writeBuf, Outcome.All, List.length_drop] at h
    obtain ⟨b', hfill, hread, hlen⟩ := RWBuffer.raw_fill hroom
    obtain ⟨filled, hput, hadvance⟩ := Outcome.bind_eq_ok_iff.mp hfill
    have hgrows := b.length_buf_writeBuf
    refine ⟨b', ⟨data, []⟩, ?_, ?_, by omega⟩
    · rw [run, b.raw_writeBuf, Outcome.ok_bind]
      dsimp only
      rw [hput, Outcome.ok_bind, hadvance, Outcome.ok_bind]
    · rw [hread, b.readBuf_writeBuf]
      exact Passed.moves_put _ _
  | read room =>
    obtain ⟨n, b', hread, hdrop, hlen⟩ := b.raw_read room
    refine ⟨b', ⟨[], b.readBuf.take n⟩, ?_, ?_, by omega⟩
    · rw [run, hread, Outcome.ok_bind]
    · rw [hdrop]
      exact Passed.moves_got _ _
  | advanceRead cnt =>
    have hle : cnt ≤ b.readBuf.length := by
      rwa [Within, b.raw_remainingRead, Outcome.All] at h
    obtain ⟨b', hadvance, hdrop, hbuf⟩ := RWBuffer.readBuf_advanceRead (ε := ErrorChain) hle
    refine ⟨b', ⟨[], b.readBuf.take cnt⟩, ?_, ?_, by rw [hbuf]⟩
    · rw [run, b.raw_readBuf, Outcome.ok_bind, RWBuffer.raw_advanceRead hadvance,
        Outcome.ok_bind]
    · rw [hdrop]
      exact Passed.moves_got _ _
  | compact =>
    obtain ⟨b', hcompact, hread, hlen⟩ := b.raw_compact
    refine ⟨b', .none, ?_, ?_, by omega⟩
    · rw [run, hcompact, Outcome.ok_bind]
    · rw [hread]
      exact Passed.moves_none _

namespace ByteQueue

/-- No call has failed, the cursors are in order, and what passed leads to what is unread. -/
def Valid (len : Nat) (q : ByteQueue) : Prop :=
  q.failed = false ∧
    ∃ b : RWBuffer, q.buffer = b.raw ∧ q.passed.Moves [] b.readBuf ∧ len ≤ b.buf.length

variable {len : Nat} {q : ByteQueue}

theorem valid_start (mem : Bytes) : Valid mem.length (start mem) :=
  ⟨rfl, .new mem, rfl, Passed.moves_none [], Nat.le_refl _⟩

/-- A call within its bounds keeps the queue valid. -/
theorem Valid.step {call : BufferCall} (h : Valid len q) (hcall : call.Within q.buffer) :
    Valid len (q.step call) := by
  obtain ⟨hfailed, b, hb, hmoves, hlen⟩ := h
  rw [hb] at hcall
  obtain ⟨b', p, hrun, hmoves', hlen'⟩ := call.run_spec b hcall
  have hstep : q.step call = { q with buffer := b'.raw, passed := q.passed.append p } := by
    rw [ByteQueue.step, hb, hrun]
  rw [hstep]
  exact ⟨hfailed, b', rfl, hmoves.append hmoves', by omega⟩

/-- What a queue that started with `len` bytes of memory owes after any calls: none failed, the
cursors are in order, the buffer shows exactly the bytes that were taken and not yet consumed,
and there is room to write if there were two bytes to begin with. -/
structure Sound (len : Nat) (q : ByteQueue) : Prop where
  succeeds : q.failed = false
  read_le : q.buffer.readCursor ≤ q.buffer.writeCursor
  write_le : q.buffer.writeCursor ≤ q.buffer.buf.length
  unread : ∃ unread, q.buffer.readBuf = .ok unread ∧ q.passed.put = q.passed.got ++ unread
  room : ∃ b tail, q.buffer.writeBuf = .ok (b, tail) ∧ (2 ≤ len → tail ≠ [])

theorem Valid.sound (h : Valid len q) : Sound len q := by
  obtain ⟨hfailed, b, hb, hmoves, hlen⟩ := h
  constructor
  · exact hfailed
  · rw [hb]
    exact b.read_le
  · rw [hb]
    exact b.write_le
  · rw [hb]
    exact ⟨b.readBuf, b.raw_readBuf, hmoves.put_eq⟩
  · rw [hb]
    refine ⟨_, _, b.raw_writeBuf, ?_⟩
    intro htwo hnil
    have hroom := RWBuffer.remainingWrite_writeBuf (b := b) (by omega)
    have hzero := congrArg List.length hnil
    rw [List.length_drop, List.length_nil] at hzero
    rw [RWBuffer.remainingWrite] at hroom
    omega

/-- In any order of calls within their bounds, the buffer is a queue of bytes. -/
theorem buffer_is_fifo (mem : Bytes) (calls : List BufferCall)
    (h : Along step (fun q call ↦ call.Within q.buffer) (start mem) calls) :
    Sound mem.length (runFrom step (start mem) calls) :=
  (Along.invariant (fun _ _ hq hcall ↦ hq.step hcall) (valid_start mem) h).sound

/-- Two bytes of memory: filled, read in part, moved to the front and grown. -/
private def smallCalls : List BufferCall :=
  [.write [1, 2, 3], .advanceRead 1, .write [3, 4], .fill [5], .read 2, .compact]

theorem buffer_is_fifo_small :
    runFrom step (start [0, 0]) smallCalls =
        ⟨⟨[5, 3, 5], 0, 1⟩, ⟨[1, 2, 3, 5], [1, 2, 3]⟩, false⟩ ∧
      Sound 2 (runFrom step (start [0, 0]) smallCalls) :=
  ⟨by decide, buffer_is_fifo [0, 0] smallCalls (by decide)⟩

end ByteQueue
end Cpxy.Io
