import Cpxy.Http.Stream
import Cpxy.Io.Reader

/-!
# Message bodies

Library `Http`. Source `src/http.rs:15–39` and `171–221`. The body behind a head is read by its
length or in chunks. A chunk's size line is read into a small buffer, with some of the chunk;
the rest of the chunk is read without it.
-/

namespace Cpxy.Http

open Cpxy.Base Cpxy.Io

variable {α : Type}

/-- `WithHeaders`; `http.rs:15–16`. -/
class WithHeaders (α : Type) where
  headers : α → List (String × Bytes)

instance : WithHeaders HttpRequest := ⟨HttpRequest.headers⟩

instance : WithHeaders HttpResponse := ⟨HttpResponse.headers⟩

/-- `get_content_length`; `http.rs:31–34`. -/
def getContentLength (headers : List (String × Bytes)) : Option Nat :=
  (getHeaderText headers "content-length").bind fun v ↦ (parseUnsigned (2 ^ 64) v.toList).toOption

/-- `httparse::parse_chunk_size`, with the text of its error. -/
abbrev ParseChunkSize := Incremental String Nat

namespace AsyncHttpStream

/-- `read`, awaited. -/
def read (s : AsyncHttpStream α) (room : Nat) : Outcome ErrorChain (Bytes × AsyncHttpStream α) :=
  awaited (s.pollRead room false)

theorem read_append {s s' : AsyncHttpStream α} {room : Nat} {data : Bytes}
    (h : s.read room = .ok (data, s')) : data ++ s'.unread = s.unread := by
  rw [read] at h
  rcases s.pollRead_spec room false with hread | ⟨data', s'', hread, hall, _⟩
  · rw [hread] at h
    cases h
  · rw [hread] at h
    cases h
    exact hall

/-- The stream as a reader. -/
def reader : Reader ErrorChain (AsyncHttpStream α) where
  read := read
  left s := s.unread.length
  shrinks h hdata := by
    have hlen := congrArg List.length (read_append h)
    have hpos := List.length_pos_iff.mpr hdata
    rw [List.length_append] at hlen
    omega

/-- `read_exact` into so many bytes. -/
def readExact (s : AsyncHttpStream α) (n : Nat) :
    Outcome ErrorChain (Bytes × AsyncHttpStream α) :=
  reader.readExact ["unexpected end of file"] s n

/-- A read of a kept stream is a read of its pieces. -/
theorem Kept.read_eq {s : AsyncHttpStream α} (h : s.Kept) (room : Nat) :
    ∃ s', s.read room = .ok ((takeChunk room s.pieces).1, s') ∧
      s'.pieces = (takeChunk room s.pieces).2 ∧ s'.Kept := by
  obtain ⟨s', hread, hpieces, hkept⟩ := h.pollRead_pieces room
  exact ⟨s', by rw [read, hread, awaited], hpieces, hkept⟩

/-- A kept stream delivers what is unread. -/
theorem delivers (plain : Bytes) : (reader : Reader ErrorChain (AsyncHttpStream α)).Delivers plain
    fun k s ↦ s.Kept ∧ s.unread = plain.drop k where
  read := by
    rintro k s ⟨hkept, hunread⟩ room
    obtain ⟨s', hread, hpieces, hkept'⟩ := hkept.read_eq room
    have hrest : content s.pieces = plain.drop k := (content_pieces s).trans hunread
    obtain ⟨hpre, hnext, hend⟩ := takeChunk_drop hrest room
    rw [← hpieces, content_pieces] at hnext
    exact ⟨_, s', hread, hpre, (takeChunk_spec room s.pieces).2, ⟨hkept', hnext⟩, hend⟩

/-- All bytes that are asked for are read, when there are so many. -/
theorem Kept.readExact_eq {s : AsyncHttpStream α} (h : s.Kept) {n : Nat}
    (hn : n ≤ s.unread.length) :
    ∃ s', s.readExact n = .ok (s.unread.take n, s') ∧ s'.unread = s.unread.drop n ∧ s'.Kept := by
  obtain ⟨s', hexact, hkept, hunread⟩ :=
    (delivers s.unread).readExact ["unexpected end of file"] ⟨h, rfl⟩ (by omega : 0 + n ≤ _)
  rw [Nat.zero_add] at hunread
  exact ⟨s', hexact, hunread, hkept⟩

end AsyncHttpStream

/-- The loop of `body`, between two rounds; `http.rs:183–185`. -/
structure ChunkedState (α : Type) where
  stream : AsyncHttpStream α
  buf : RWBuffer
  finalBuf : Bytes

namespace ChunkedState

/-- Read into the buffer; `none` at the end of the stream; `http.rs:187–190`. -/
def fill (st : ChunkedState α) : Outcome ErrorChain (Option (ChunkedState α)) := do
  let (data, stream) ← st.stream.read st.buf.writeBuf.remainingWrite
  if data = [] then .ok none
  else
    let buf ← (st.buf.writeBuf.store data).advanceWrite data.length
    .ok (some { st with stream := stream, buf := buf })

/-- Read a chunk of so many bytes behind its size line; `http.rs:194–204`. More bytes in the
buffer than the chunk has make the subtraction fail. -/
def readChunk (st : ChunkedState α) (offset len : Nat) : Outcome ErrorChain (ChunkedState α) := do
  let buf ← st.buf.advanceRead offset
  let finalBuf := st.finalBuf ++ buf.readBuf
  if len < buf.remainingRead then .panicked
  else if isizeMax < finalBuf.length + (len - buf.remainingRead) then .panicked
  else
    let (data, stream) ← st.stream.readExact (len - buf.remainingRead)
    let buf ← buf.advanceRead buf.remainingRead
    .ok ⟨stream, buf, finalBuf ++ data⟩

/-- A round: the loop returns, or goes on; `http.rs:187–212`. -/
def round (parseChunkSize : ParseChunkSize) (st : ChunkedState α) :
    Outcome ErrorChain ((Bytes × AsyncHttpStream α) ⊕ ChunkedState α) := do
  match ← st.fill with
  | none => .ok (.inl (st.finalBuf, st.stream))
  | some st =>
    match parseChunkSize st.buf.readBuf with
    | .ok (some (offset, len)) =>
      if 0 < len then
        let st ← st.readChunk offset len
        .ok (.inr st)
      else .ok (.inl (st.finalBuf, st.stream))
    | .ok none => .ok (.inr st)
    | .err _ => .err [s!"Invalid chunk size on buf: {fromUtf8Lossy st.buf.readBuf}"]
    | .panicked => .panicked

/-- Filling the buffer takes bytes off the stream. -/
theorem fill_shrinks {st st' : ChunkedState α} (h : st.fill = .ok (some st')) :
    st'.stream.unread.length < st.stream.unread.length := by
  obtain ⟨⟨data, stream⟩, hread, h⟩ := Outcome.bind_eq_ok_iff.mp h
  dsimp only at h
  split at h
  · cases h
  · next hdata =>
    obtain ⟨buf, _, h⟩ := Outcome.bind_eq_ok_iff.mp h
    cases h
    have hlen := congrArg List.length (AsyncHttpStream.read_append hread)
    have hpos := List.length_pos_iff.mpr hdata
    rw [List.length_append] at hlen
    dsimp only
    omega

theorem length_unread_readChunk {st st' : ChunkedState α} {offset len : Nat}
    (h : st.readChunk offset len = .ok st') :
    st'.stream.unread.length ≤ st.stream.unread.length := by
  obtain ⟨buf, _, h⟩ := Outcome.bind_eq_ok_iff.mp h
  dsimp only at h
  split at h
  · cases h
  · split at h
    · cases h
    · obtain ⟨⟨data, stream⟩, hread, h⟩ := Outcome.bind_eq_ok_iff.mp h
      obtain ⟨buf', _, h⟩ := Outcome.bind_eq_ok_iff.mp h
      cases h
      exact Reader.readExact_left hread

theorem round_shrinks {parseChunkSize : ParseChunkSize} {st st' : ChunkedState α}
    (h : st.round parseChunkSize = .ok (.inr st')) :
    st'.stream.unread.length < st.stream.unread.length := by
  obtain ⟨filled, hfill, h⟩ := Outcome.bind_eq_ok_iff.mp h
  cases filled with
  | none => cases h
  | some st₁ =>
    have hlt := fill_shrinks hfill
    dsimp only at h
    split at h
    · split at h
      · obtain ⟨st₂, hchunk, h⟩ := Outcome.bind_eq_ok_iff.mp h
        cases h
        exact Nat.lt_of_le_of_lt (length_unread_readChunk hchunk) hlt
      · cases h
    · cases h
      exact hlt
    · cases h
    · cases h

/-- The loop of `body`; `http.rs:186–213`. -/
def decode (parseChunkSize : ParseChunkSize) (st : ChunkedState α) :
    Outcome ErrorChain (Bytes × AsyncHttpStream α) :=
  match _h : st.round parseChunkSize with
  | .ok (.inl r) => .ok r
  | .ok (.inr st') => st'.decode parseChunkSize
  | .err e => .err e
  | .panicked => .panicked
termination_by st.stream.unread.length
decreasing_by exact round_shrinks _h

/-- A round, and what it leaves to the next ones. -/
theorem decode_eq (parseChunkSize : ParseChunkSize) (st : ChunkedState α) :
    st.decode parseChunkSize =
      (st.round parseChunkSize >>= Sum.elim Outcome.ok (decode parseChunkSize)) := by
  rw [decode]
  split
  · next h => rw [h, Outcome.ok_bind, Sum.elim_inl]
  · next h => rw [h, Outcome.ok_bind, Sum.elim_inr]
  · next h => rw [h, Outcome.err_bind]
  · next h => rw [h, Outcome.panicked_bind]

end ChunkedState

/-- `body`; `http.rs:172–220`. The buffer of eight bytes is not initialised. -/
def body [WithHeaders α] (parseChunkSize : ParseChunkSize) (mem : Bytes)
    (s : AsyncHttpStream α) : Outcome ErrorChain (Bytes × AsyncHttpStream α) :=
  let headers := WithHeaders.headers s.init
  let contentLen := (getContentLength headers).getD 0
  if isizeMax < contentLen then .panicked
  else if 0 < contentLen then s.readExact contentLen
  else
    match getHeaderText headers "transfer-encoding" with
    | some e =>
      if eqIgnoreAsciiCase e "chunked" then
        (ChunkedState.mk s (.new mem) []).decode parseChunkSize
      else .ok ([], s)
    | none => .ok ([], s)

end Cpxy.Http
