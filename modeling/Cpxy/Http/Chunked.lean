import Cpxy.Http.Body
import Mathlib.Data.List.TakeWhile

/-!
# Chunked bodies

Library `Http`. Source `src/http.rs:182–214`, against the chunked encoding of HTTP/1.1. The loop
looks for a size line right behind a chunk, where the line end of the chunk stands. It reads
that as a size of zero, and returns after the first chunk.
-/

namespace Cpxy.Http

open Cpxy.Base Cpxy.Io

variable {α : Type}

/-! ### The encoding -/

def crlf : Bytes := [13, 10]

/-- A size in hexadecimal digits, and the end of its line. -/
def sizeLine (n : Nat) : Bytes := (Nat.toDigits 16 n).map (fun c ↦ c.toNat.toUInt8) ++ crlf

/-- The chunked encoding: every chunk behind its size, with a line end, and a size of zero. -/
def encodeChunks (chunks : List Bytes) : Bytes :=
  chunks.flatMap (fun c ↦ sizeLine c.length ++ c ++ crlf) ++ sizeLine 0 ++ crlf

/-- What is assumed of `httparse::parse_chunk_size`: it reads size lines, and a line without a
digit as zero. -/
structure ReadsSizes (parseChunkSize : ParseChunkSize) : Prop where
  size : ∀ n, n < 2 ^ 64 → ReadsWord parseChunkSize (sizeLine n) n
  empty : ReadsWord parseChunkSize crlf 0

theorem length_sizeLine (n : Nat) : (sizeLine n).length = (Nat.toDigits 16 n).length + 2 := by
  rw [sizeLine, List.length_append, List.length_map]
  rfl

/-- A small size has a single digit. -/
theorem length_sizeLine_of_lt {n : Nat} (h : n < 16) : (sizeLine n).length = 3 := by
  rw [length_sizeLine, Nat.toDigits_of_lt_base h]
  rfl

theorem three_le_length_sizeLine (n : Nat) : 3 ≤ (sizeLine n).length := by
  have := Nat.length_toDigits_pos (b := 16) (n := n)
  rw [length_sizeLine]
  omega

/-- A size line is short for its size. -/
theorem length_sizeLine_le {n : Nat} (h : 0 < n) : (sizeLine n).length ≤ n + 2 := by
  have hdigits : (Nat.toDigits 16 n).length ≤ n :=
    (Nat.length_toDigits_le_iff (by decide) h).mpr (Nat.lt_pow_self (by decide))
  rw [length_sizeLine]
  omega

/-! ### Where reads end -/

/-- A piece ends between two positions, when the first one starts at `t`. -/
def EndsBetween (lo hi t : Nat) (cs : List Chunk) : Prop :=
  ∃ k, lo ≤ t + (content (cs.take k)).length ∧ t + (content (cs.take k)).length ≤ hi

theorem EndsBetween.le {lo hi t : Nat} {cs : List Chunk} (h : EndsBetween lo hi t cs) : t ≤ hi := by
  obtain ⟨k, _, hhi⟩ := h
  omega

theorem endsBetween_iff_le {lo hi t : Nat} (ht : lo ≤ t) (cs : List Chunk) :
    EndsBetween lo hi t cs ↔ t ≤ hi := by
  constructor
  · exact EndsBetween.le
  · intro hle
    refine ⟨0, ?_, ?_⟩
    · exact ht
    · exact hle

/-- Where the first piece starts no piece ends. -/
theorem endsBetween_cons {lo hi t : Nat} (ht : t < lo) (c : Chunk) (cs : List Chunk) :
    EndsBetween lo hi t (c :: cs) ↔ EndsBetween lo hi (t + c.val.length) cs := by
  constructor
  · rintro ⟨k, hlo, hhi⟩
    cases k with
    | zero =>
      rw [List.take_zero, content_nil, List.length_nil] at hlo
      omega
    | succ k =>
      rw [List.take_succ_cons, content_cons, List.length_append, ← Nat.add_assoc] at hlo hhi
      exact ⟨k, hlo, hhi⟩
  · rintro ⟨k, hlo, hhi⟩
    refine ⟨k + 1, ?_⟩
    rw [List.take_succ_cons, content_cons, List.length_append, ← Nat.add_assoc]
    exact ⟨hlo, hhi⟩

/-- A read that ends too early moves no end of a piece beyond it. -/
theorem endsBetween_read {lo hi t : Nat} (room : Nat) {cs : List Chunk}
    (ht : t + (takeChunk room cs).1.length < lo) :
    EndsBetween lo hi t cs ↔
      EndsBetween lo hi (t + (takeChunk room cs).1.length) (takeChunk room cs).2 := by
  cases cs with
  | nil => exact Iff.rfl
  | cons c cs =>
    have htlo : t < lo := by omega
    rw [endsBetween_cons htlo]
    rw [takeChunk_fst] at ht ⊢
    rw [takeChunk]
    split
    · next hfits => rw [List.take_of_length_le hfits]
    · next hcut =>
      rw [List.length_take_of_le (by omega)] at ht ⊢
      rw [endsBetween_cons ht, List.length_drop]
      have hsum : t + room + (c.val.length - room) = t + c.val.length := by omega
      rw [hsum]

/-- A read that could end behind the second position ends before it when a piece does. -/
theorem endsBetween_read_iff {lo hi t : Nat} (room : Nat) {cs : List Chunk} (ht : t < lo)
    (hlo : lo ≤ t + (takeChunk room cs).1.length) (hhi : hi < t + room) :
    EndsBetween lo hi t cs ↔ t + (takeChunk room cs).1.length ≤ hi := by
  cases cs with
  | nil =>
    rw [takeChunk, List.length_nil] at hlo
    omega
  | cons c cs =>
    rw [endsBetween_cons ht]
    rw [takeChunk_fst] at hlo ⊢
    by_cases hfits : c.val.length ≤ room
    · rw [List.take_of_length_le hfits] at hlo ⊢
      exact endsBetween_iff_le hlo cs
    · rw [List.length_take_of_le (by omega)]
      refine iff_of_false ?_ (by omega)
      intro h
      have := h.le
      omega

/-! ### Filling the buffer up to the end of a line -/

/-- The buffer of eight bytes cannot take more than the chunk behind a size line of three: the
chunk has five bytes or more, or a piece ends within it or right before it. -/
def FitsChunk (pieces : List Chunk) (c : Bytes) : Prop :=
  5 ≤ c.length ∨ EndsBetween 3 (3 + c.length) 0 pieces

namespace ChunkedState

/-- The buffer, with nothing of it read on, while a line is looked for. -/
structure Filling (st : ChunkedState α) : Prop where
  kept : st.stream.Kept
  fresh : st.buf.readCursor = 0
  eight : 8 ≤ st.buf.buf.length

/-- The buffer is small: as it was made, or grown by half when it did not hold the line. -/
def Small (length : Nat) (st : ChunkedState α) : Prop :=
  st.buf.buf.length = 8 ∨ 2 * st.buf.buf.length ≤ 3 * length

theorem Filling.length_readBuf {st : ChunkedState α} (h : st.Filling) {length : Nat}
    (hsmall : st.Small length) : st.buf.readBuf.length ≤ 8 ∨
      2 * st.buf.readBuf.length ≤ 3 * length := by
  have hroom := RWBuffer.length_readBuf_add_room h.fresh
  rcases hsmall with height | hgrown
  · exact .inl (by omega)
  · exact .inr (by omega)

/-- While bytes are to come, the buffer is filled with some of them: what a read gets with room
for eight bytes in all, or more. -/
theorem Filling.fill {st : ChunkedState α} (h : st.Filling) (hmore : st.stream.unread ≠ []) :
    ∃ st' room, st.fill = .ok (some st') ∧ st'.Filling ∧ st'.finalBuf = st.finalBuf ∧
      (takeChunk room st.stream.pieces).1 ≠ [] ∧
      st'.buf.readBuf = st.buf.readBuf ++ (takeChunk room st.stream.pieces).1 ∧
      st'.stream.pieces = (takeChunk room st.stream.pieces).2 ∧
      8 ≤ st.buf.readBuf.length + room ∧
      ∀ length, st.buf.readBuf.length < length → st.Small length → st'.Small length := by
  have height := h.eight
  have hgrows := st.buf.length_buf_writeBuf
  have hroom := RWBuffer.length_readBuf_add_room
    ((RWBuffer.readCursor_writeBuf st.buf).trans h.fresh)
  rw [RWBuffer.readBuf_writeBuf] at hroom
  obtain ⟨stream, hread, hpieces, hkept⟩ := h.kept.read_eq st.buf.writeBuf.remainingWrite
  obtain ⟨_, hle⟩ := takeChunk_spec st.buf.writeBuf.remainingWrite st.stream.pieces
  obtain ⟨buf, hwrite, hreadBuf, hlen⟩ := st.buf.writeBuf.advanceWrite_store (ε := ErrorChain) hle
  have hdata : (takeChunk st.buf.writeBuf.remainingWrite st.stream.pieces).1 ≠ [] := by
    intro hnil
    have hpos := RWBuffer.remainingWrite_writeBuf (b := st.buf) (by omega)
    have hend := takeChunk_eq_nil hpos hnil
    apply hmore
    rw [← AsyncHttpStream.content_pieces, hend, content_nil]
  refine ⟨⟨stream, buf, st.finalBuf⟩, st.buf.writeBuf.remainingWrite, ?_, ⟨hkept, ?_, ?_⟩, rfl,
    hdata, ?_, hpieces, ?_, ?_⟩
  · rw [ChunkedState.fill, hread, Outcome.ok_bind]
    dsimp only
    rw [if_neg hdata, hwrite, Outcome.ok_bind]
  · dsimp only
    rw [RWBuffer.readCursor_advanceWrite hwrite]
    exact (RWBuffer.readCursor_writeBuf st.buf).trans h.fresh
  · dsimp only
    omega
  · rw [hreadBuf, RWBuffer.readBuf_writeBuf]
  · omega
  · intro length hshort hsmall
    rw [Small] at hsmall ⊢
    dsimp only
    rw [hlen]
    rcases RWBuffer.length_buf_writeBuf_eq h.fresh with hsame | ⟨hfull, hgrown⟩
    · rw [hsame]
      exact hsmall
    · exact .inr (by omega)

/-- From a part of a line, the buffer was filled until it held all of it, with some of what
follows. -/
structure FilledTo (line x : Bytes) (st st' : ChunkedState α) (excess : Bytes) : Prop where
  filling : st'.Filling
  finalBuf : st'.finalBuf = st.finalBuf
  readBuf : st'.buf.readBuf = line ++ excess
  rest : excess ++ st'.stream.unread = x
  small : st.Small line.length → st'.Small line.length
  ends : ∀ hi, hi < 8 → (EndsBetween line.length hi st.buf.readBuf.length st.stream.pieces ↔
    line.length + excess.length ≤ hi)

/-- The loop reads a line to its end, and then does what the line says. -/
theorem Filling.decode_line {parseChunkSize : ParseChunkSize} {line x : Bytes} {v : Nat}
    (hp : ReadsWord parseChunkSize line v) {st : ChunkedState α} (h : st.Filling)
    (hshort : st.buf.readBuf.length < line.length)
    (hall : st.buf.readBuf ++ st.stream.unread = line ++ x) :
    ∃ st' excess, FilledTo line x st st' excess ∧
      st.decode parseChunkSize =
        if 0 < v then st'.readChunk line.length v >>= decode parseChunkSize
        else .ok (st'.finalBuf, st'.stream) := by
  -- on the number of bytes still to come
  induction hn : st.stream.unread.length using Nat.strongRecOn generalizing st with
  | ind n ih =>
    have hmore : st.stream.unread ≠ [] := by
      intro hnil
      have hlen := congrArg List.length hall
      rw [hnil, List.append_nil, List.length_append] at hlen
      omega
    obtain ⟨st₁, room, hfill, hfilling, hfinal, hdata, hread, hpieces, hroom, hsmall⟩ :=
      h.fill hmore
    obtain ⟨hsplit, _⟩ := takeChunk_spec room st.stream.pieces
    have hall₁ : st₁.buf.readBuf ++ st₁.stream.unread = line ++ x := by
      rw [hread, ← AsyncHttpStream.content_pieces, hpieces, List.append_assoc, hsplit,
        AsyncHttpStream.content_pieces, hall]
    have hlen₁ := congrArg List.length hread
    rw [List.length_append] at hlen₁
    rw [decode_eq, round, hfill, Outcome.ok_bind]
    dsimp only
    by_cases hline : st₁.buf.readBuf.length < line.length
    case pos =>
      have hpre : st₁.buf.readBuf <+: line :=
        List.prefix_of_prefix_length_le ⟨_, hall₁⟩ (List.prefix_append line x) (Nat.le_of_lt hline)
      have hne : st₁.buf.readBuf ≠ line := by
        intro heq
        rw [heq] at hline
        omega
      have hlt : st₁.stream.unread.length < n := hn ▸ fill_shrinks hfill
      obtain ⟨st', excess, hto, hdecode⟩ := ih _ hlt hfilling hline hall₁ rfl
      refine ⟨st', excess,
        ⟨hto.filling, hto.finalBuf.trans hfinal, hto.readBuf, hto.rest, ?_, ?_⟩, ?_⟩
      · exact fun hsm ↦ hto.small (hsmall _ hshort hsm)
      · intro hi hhi
        have hends := hto.ends hi hhi
        rw [hlen₁, hpieces] at hends
        rw [endsBetween_read room (by omega), hends]
      · rw [hp.more _ hpre hne]
        exact hdecode
    case neg =>
      have hpre : line <+: st₁.buf.readBuf :=
        List.prefix_of_prefix_length_le (List.prefix_append line x) ⟨_, hall₁⟩ (by omega)
      obtain ⟨excess, hexcess⟩ := hpre
      have hrest : excess ++ st₁.stream.unread = x := by
        rw [← hexcess, List.append_assoc] at hall₁
        exact List.append_cancel_left hall₁
      have hlen := congrArg List.length hexcess
      rw [List.length_append] at hlen
      refine ⟨st₁, excess, ⟨hfilling, hfinal, hexcess.symm, hrest, hsmall _ hshort, ?_⟩, ?_⟩
      · intro hi hhi
        rw [endsBetween_read_iff room hshort (by omega) (by omega), hlen, hlen₁]
      · rw [← hexcess, hp.complete excess]
        dsimp only
        split
        · cases st₁.readChunk line.length v <;> rfl
        · rfl

/-! ### Reading a chunk -/

/-- Behind its size line, a chunk is read when the buffer holds no more than the chunk. -/
theorem Filling.readChunk_ok {st : ChunkedState α} (h : st.Filling) {line excess c y : Bytes}
    (hread : st.buf.readBuf = line ++ excess) (hrest : excess ++ st.stream.unread = c ++ y)
    (hfits : excess.length ≤ c.length) (hmax : st.finalBuf.length + c.length ≤ isizeMax) :
    ∃ st', st.readChunk line.length c.length = .ok st' ∧ st'.Filling ∧
      st'.finalBuf = st.finalBuf ++ c ∧ st'.buf.readBuf = [] ∧ st'.stream.unread = y := by
  have hle : line.length ≤ st.buf.readBuf.length := by
    rw [hread, List.length_append]
    omega
  obtain ⟨buf, hadvance, hbuf, hmem⟩ := RWBuffer.readBuf_advanceRead (ε := ErrorChain) hle
  rw [hread, List.drop_left] at hbuf
  have hexcess : excess <+: c :=
    List.prefix_of_prefix_length_le ⟨_, hrest⟩ (List.prefix_append c y) hfits
  obtain ⟨tail, rfl⟩ := hexcess
  have hunread : st.stream.unread = tail ++ y := by
    rw [List.append_assoc] at hrest
    exact List.append_cancel_left hrest
  have htail : (excess ++ tail).length - excess.length = tail.length := by
    rw [List.length_append]
    omega
  have hn : tail.length ≤ st.stream.unread.length := by
    rw [hunread, List.length_append]
    omega
  obtain ⟨stream, hexact, hrest', hkept⟩ := h.kept.readExact_eq hn
  have hremaining : buf.remainingRead = excess.length := by
    rw [AsyncHttpStream.remainingRead_eq, hbuf]
  refine ⟨⟨stream, .new buf.buf, st.finalBuf ++ excess ++ tail⟩, ?_, ⟨hkept, rfl, ?_⟩, ?_, rfl, ?_⟩
  · rw [readChunk, hadvance, Outcome.ok_bind]
    dsimp only
    rw [if_neg (by omega), if_neg, hremaining, htail, hexact, Outcome.ok_bind]
    · dsimp only
      rw [← hremaining, RWBuffer.advanceRead_remaining, Outcome.ok_bind, hbuf, hunread,
        List.take_left]
    · rw [hremaining, htail, hbuf, List.length_append]
      rw [List.length_append] at hmax
      omega
  · rw [RWBuffer.new]
    dsimp only
    rw [hmem]
    exact h.eight
  · exact List.append_assoc _ _ _
  · dsimp only
    rw [hrest', hunread, List.drop_left]

/-- With more in the buffer than the chunk, the subtraction overflows. -/
theorem readChunk_panics {st : ChunkedState α} {line excess : Bytes}
    (hread : st.buf.readBuf = line ++ excess) {n : Nat} (hexcess : n < excess.length) :
    st.readChunk line.length n = .panicked := by
  have hle : line.length ≤ st.buf.readBuf.length := by
    rw [hread, List.length_append]
    omega
  obtain ⟨buf, hadvance, hbuf, _⟩ := RWBuffer.readBuf_advanceRead (ε := ErrorChain) hle
  rw [hread, List.drop_left] at hbuf
  rw [readChunk, hadvance, Outcome.ok_bind]
  dsimp only
  rw [if_pos]
  rw [AsyncHttpStream.remainingRead_eq, hbuf]
  exact hexcess

/-- A line with the size zero ends the loop. -/
theorem Filling.decode_zero {parseChunkSize : ParseChunkSize} {line x : Bytes}
    (hp : ReadsWord parseChunkSize line 0) (hne : line ≠ []) {st : ChunkedState α} (h : st.Filling)
    (hempty : st.buf.readBuf = []) (hall : st.stream.unread = line ++ x) :
    ∃ stream, st.decode parseChunkSize = .ok (st.finalBuf, stream) := by
  have hshort : st.buf.readBuf.length < line.length := by
    rw [hempty]
    exact List.length_pos_iff.mpr hne
  obtain ⟨st', excess, hto, hdecode⟩ := h.decode_line hp hshort (by rw [hempty, hall]; rfl)
  refine ⟨st'.stream, ?_⟩
  rw [hdecode, if_neg (Nat.lt_irrefl 0), hto.finalBuf]

/-- The buffer holds no more than the chunk exactly when the chunk fits. -/
theorem FilledTo.fitsChunk_iff {c x excess : Bytes} (hc : c ≠ []) {st st' : ChunkedState α}
    (hto : FilledTo (sizeLine c.length) x st st' excess) (hsmall : st.buf.buf.length = 8)
    (hempty : st.buf.readBuf = []) :
    FitsChunk st.stream.pieces c ↔ excess.length ≤ c.length := by
  have hpos := List.length_pos_iff.mpr hc
  by_cases hlong : 5 ≤ c.length
  · refine iff_of_true (.inl hlong) ?_
    have hline := length_sizeLine_le hpos
    have hline' := three_le_length_sizeLine c.length
    have hbuf := hto.filling.length_readBuf (hto.small (.inl hsmall))
    rw [hto.readBuf, List.length_append] at hbuf
    omega
  · have hends := hto.ends (3 + c.length) (by omega)
    rw [length_sizeLine_of_lt (by omega), hempty, List.length_nil] at hends
    rw [FitsChunk, or_iff_right hlong, hends]
    omega

/-- The first chunk is read and returned when it fits; else the subtraction overflows. -/
theorem Filling.decode_chunk {parseChunkSize : ParseChunkSize} (hp : ReadsSizes parseChunkSize)
    {st : ChunkedState α} (h : st.Filling) (hsmall : st.buf.buf.length = 8)
    (hempty : st.buf.readBuf = []) (hfinal : st.finalBuf = []) {c x : Bytes} (hc : c ≠ [])
    (hmax : c.length ≤ isizeMax)
    (hall : st.stream.unread = sizeLine c.length ++ (c ++ (crlf ++ x))) :
    (FitsChunk st.stream.pieces c ∧ ∃ stream, st.decode parseChunkSize = .ok (c, stream)) ∨
      (¬ FitsChunk st.stream.pieces c ∧ st.decode parseChunkSize = .panicked) := by
  have hsize := hp.size c.length (Nat.lt_of_le_of_lt hmax (by decide))
  have hshort : st.buf.readBuf.length < (sizeLine c.length).length := by
    have := three_le_length_sizeLine c.length
    rw [hempty, List.length_nil]
    omega
  obtain ⟨st₁, excess, hto, hdecode⟩ := h.decode_line hsize hshort (by rw [hempty, hall]; rfl)
  rw [hdecode, if_pos (List.length_pos_iff.mpr hc), hto.fitsChunk_iff hc hsmall hempty]
  by_cases hfits : excess.length ≤ c.length
  · left
    have hmax₁ : st₁.finalBuf.length + c.length ≤ isizeMax := by
      rw [hto.finalBuf, hfinal, List.length_nil]
      omega
    obtain ⟨st₂, hchunk, hfilling, hfinal₂, hempty₂, hunread⟩ :=
      hto.filling.readChunk_ok hto.readBuf hto.rest hfits hmax₁
    obtain ⟨stream, hzero⟩ := hfilling.decode_zero hp.empty nofun hempty₂ hunread
    refine ⟨hfits, stream, ?_⟩
    rw [hchunk, Outcome.ok_bind, hzero, hfinal₂, hto.finalBuf, hfinal, List.nil_append]
  · right
    refine ⟨hfits, ?_⟩
    rw [readChunk_panics hto.readBuf (by omega), Outcome.panicked_bind]

end ChunkedState

/-- The encoding of these chunks, in pieces, is decoded. -/
def Decoded (pieces : List Chunk) : List Bytes → Prop
  | [] => True
  | [c] => FitsChunk pieces c
  | _ :: _ :: _ => False

theorem encodeChunks_cons (c : Bytes) (cs : List Bytes) :
    encodeChunks (c :: cs) = sizeLine c.length ++ (c ++ (crlf ++ encodeChunks cs)) := by
  rw [encodeChunks, encodeChunks, List.flatMap_cons]
  simp only [List.append_assoc]

/-- The headers say that the body is chunked, and no length. -/
structure IsChunked (headers : List (String × Bytes)) : Prop where
  length : getHeader headers "content-length" = none
  encoding : ∃ e, getHeaderText headers "transfer-encoding" = some e ∧
    eqIgnoreAsciiCase e "chunked" = true

theorem IsChunked.body_eq [WithHeaders α] {s : AsyncHttpStream α}
    (h : IsChunked (WithHeaders.headers s.init)) (parseChunkSize : ParseChunkSize) (mem : Bytes) :
    body parseChunkSize mem s = (ChunkedState.mk s (.new mem) []).decode parseChunkSize := by
  obtain ⟨e, htext, hchunked⟩ := h.encoding
  have hcontentLen : getContentLength (WithHeaders.headers s.init) = none := by
    rw [getContentLength, getHeaderText, h.length]
    rfl
  rw [body, hcontentLen, htext]
  dsimp only [Option.getD]
  rw [if_neg (by decide), if_neg (by decide), if_pos hchunked]

theorem filling_new {s : AsyncHttpStream α} (h : s.Kept) {mem : Bytes} (hmem : mem.length = 8) :
    (ChunkedState.mk s (.new mem) []).Filling :=
  ⟨h, rfl, Nat.le_of_eq hmem.symm⟩

/-- A chunked body comes out as its content exactly when it has no chunk, or a single one that
fits. -/
theorem body_decodes_iff [WithHeaders α] (parseChunkSize : ParseChunkSize)
    (hp : ReadsSizes parseChunkSize) (mem : Bytes) (hmem : mem.length = 8)
    (s : AsyncHttpStream α) (hkept : s.Kept)
    (hheaders : IsChunked (WithHeaders.headers s.init))
    (chunks : List Bytes) (hchunks : ∀ c ∈ chunks, c ≠ [] ∧ c.length ≤ isizeMax)
    (hunread : s.unread = encodeChunks chunks) :
    (∃ s', body parseChunkSize mem s = .ok (chunks.flatten, s')) ↔ Decoded s.pieces chunks := by
  have hfilling := filling_new hkept hmem
  rw [hheaders.body_eq]
  match chunks with
  | [] =>
    have hsize := hp.size 0 (by decide)
    have hne : sizeLine 0 ≠ [] := by decide
    obtain ⟨stream, hdecode⟩ := hfilling.decode_zero hsize hne rfl hunread
    exact iff_of_true ⟨stream, hdecode⟩ trivial
  | [c] =>
    obtain ⟨hc, hmax⟩ := hchunks c List.mem_cons_self
    rw [encodeChunks_cons] at hunread
    rw [List.flatten_singleton, Decoded]
    rcases hfilling.decode_chunk hp hmem rfl rfl hc hmax hunread with
      ⟨hfits, hdecode⟩ | ⟨hlong, hdecode⟩
    · exact iff_of_true hdecode hfits
    · refine iff_of_false ?_ hlong
      rintro ⟨s', hok⟩
      rw [hdecode] at hok
      cases hok
  | c :: c' :: cs =>
    obtain ⟨hc, hmax⟩ := hchunks c List.mem_cons_self
    obtain ⟨hc', _⟩ := hchunks c' (List.mem_cons_of_mem c List.mem_cons_self)
    rw [encodeChunks_cons] at hunread
    refine iff_of_false ?_ not_false
    rintro ⟨s', hok⟩
    rcases hfilling.decode_chunk hp hmem rfl rfl hc hmax hunread with
      ⟨_, stream, hdecode⟩ | ⟨_, hdecode⟩
    · -- the result is the first chunk, and the second one is not empty
      rw [hdecode] at hok
      have heq : c ++ [] = c ++ (c' ++ cs.flatten) := by
        rw [List.append_nil]
        exact congrArg Prod.fst (Outcome.ok.inj hok)
      exact hc' (List.append_eq_nil_iff.mp (List.append_cancel_left heq).symm).1
    · rw [hdecode] at hok
      cases hok

/-! ### A parser for size lines -/

private def hexDigit (b : UInt8) : Option Nat := digitVal 16 (Char.ofNat b.toNat)

private def hexValue (digits : Bytes) : Nat :=
  digits.foldl (fun n b ↦ n * 16 + (hexDigit b).getD 0) 0

/-- A hexadecimal number, which may be empty, and the end of its line. -/
def plainChunkSize : ParseChunkSize := fun b ↦
  let digits := b.takeWhile fun b ↦ (hexDigit b).isSome
  match b.dropWhile fun b ↦ (hexDigit b).isSome with
  | [] => .ok none
  | [13] => .ok none
  | 13 :: 10 :: _ => .ok (some (digits.length + 2, hexValue digits))
  | _ => .err "Invalid chunk size"

private theorem plainChunkSize_readsWord {digits : Bytes}
    (h : ∀ b ∈ digits, (hexDigit b).isSome = true) :
    ReadsWord plainChunkSize (digits ++ crlf) (hexValue digits) where
  more c hc hne := by
    have hword : digits ++ crlf = digits ++ [13] ++ [10] :=
      (List.append_assoc digits [13] [10]).symm
    rw [hword] at hc hne
    have hc' := (List.prefix_concat_iff.mp hc).resolve_left hne
    rw [plainChunkSize]
    rcases List.prefix_concat_iff.mp hc' with rfl | hdigits
    · have hcr : (hexDigit 13).isSome = false := by decide
      rw [List.dropWhile_append_of_pos h,
        List.dropWhile_cons_of_neg (by rw [hcr]; exact Bool.false_ne_true)]
      rfl
    · have hnil : (c.dropWhile fun b ↦ (hexDigit b).isSome) = [] :=
        List.dropWhile_eq_nil_iff.mpr fun b hb ↦ h b (hdigits.mem hb)
      rw [hnil]
  complete x := by
    have hcr : (hexDigit 13).isSome = false := by decide
    rw [plainChunkSize, crlf, List.append_assoc]
    dsimp only [List.cons_append]
    rw [List.takeWhile_append_of_pos h, List.dropWhile_append_of_pos h,
      List.takeWhile_cons_of_neg (by rw [hcr]; exact Bool.false_ne_true),
      List.dropWhile_cons_of_neg (by rw [hcr]; exact Bool.false_ne_true), List.append_nil,
      List.length_append]
    rfl

private theorem hexDigit_digitChar {d : Nat} (h : d < 16) :
    hexDigit d.digitChar.toNat.toUInt8 = some d := by
  revert d
  decide

/-- The digits of a number are digits, and give the number back. -/
private theorem hex_toDigits (n : Nat) :
    (∀ b ∈ (Nat.toDigits 16 n).map fun c ↦ c.toNat.toUInt8, (hexDigit b).isSome = true) ∧
      hexValue ((Nat.toDigits 16 n).map fun c ↦ c.toNat.toUInt8) = n := by
  induction n using Nat.strongRecOn with
  | ind n ih =>
    by_cases hn : n < 16
    · rw [Nat.toDigits_of_lt_base hn, List.map_singleton]
      constructor
      · intro b hb
        rw [List.mem_singleton.mp hb, hexDigit_digitChar hn]
        rfl
      · rw [hexValue, List.foldl_cons, hexDigit_digitChar hn]
        exact Nat.zero_add n
    · obtain ⟨hall, hvalue⟩ := ih (n / 16) (by omega)
      have hd : hexDigit (n % 16).digitChar.toNat.toUInt8 = some (n % 16) :=
        hexDigit_digitChar (Nat.mod_lt n (by decide))
      rw [Nat.toDigits_of_base_le (by decide) (by omega), List.map_append, List.map_singleton]
      constructor
      · intro b hb
        rcases List.mem_append.mp hb with hb | hb
        · exact hall b hb
        · rw [List.mem_singleton.mp hb, hd]
          rfl
      · rw [hexValue, List.foldl_append, ← hexValue, hvalue, List.foldl_cons, hd]
        exact Nat.div_add_mod' n 16

theorem plainChunkSize_readsSizes : ReadsSizes plainChunkSize where
  size n _ := by
    obtain ⟨hall, hvalue⟩ := hex_toDigits n
    have hword := plainChunkSize_readsWord hall
    rw [hvalue] at hword
    exact hword
  empty := @plainChunkSize_readsWord [] nofun

/-! ### Messages -/

private def chunkedHeaders : List (String × Bytes) := [("Transfer-Encoding", asBytes "chunked")]

private theorem isChunked_chunkedHeaders : IsChunked chunkedHeaders where
  length := by decide
  encoding := by
    have hheader : getHeader chunkedHeaders "transfer-encoding" = some (asBytes "chunked") := by
      have hname : eqIgnoreAsciiCase "Transfer-Encoding" "transfer-encoding" = true := by decide
      rw [getHeader, chunkedHeaders, List.find?_cons, hname]
      rfl
    refine ⟨"chunked", ?_, by decide⟩
    rw [getHeaderText, hheader, Option.bind_some, fromUtf8_asBytes]

/-- A chunk of two bytes, its size line in a read of its own. -/
theorem body_decodes_hi :
    ∃ s', body plainChunkSize (List.replicate 8 0)
      (⟨⟨chunkedHeaders, 200⟩, none, [⟨[50, 13, 10], by decide⟩,
        ⟨[104, 105, 13, 10, 48, 13, 10, 13, 10], by decide⟩]⟩ : AsyncHttpStream HttpResponse) =
      .ok ([104, 105], s') := by
  have h := body_decodes_iff plainChunkSize plainChunkSize_readsSizes (List.replicate 8 0) rfl
    (⟨⟨chunkedHeaders, 200⟩, none, [⟨[50, 13, 10], by decide⟩,
      ⟨[104, 105, 13, 10, 48, 13, 10, 13, 10], by decide⟩]⟩ : AsyncHttpStream HttpResponse)
    nofun isChunked_chunkedHeaders [[104, 105]] (by decide) (by decide)
  exact h.mpr (.inr ⟨1, by decide, by decide⟩)

private def hello : Bytes := [104, 101, 108, 108, 111]

/-- Of two chunks, the first one is returned. -/
theorem body_drops_second_chunk :
    let s : AsyncHttpStream HttpResponse :=
      ⟨⟨chunkedHeaders, 200⟩, none, [⟨encodeChunks [hello, [33]], by decide⟩]⟩
    ReadsSizes plainChunkSize ∧ IsChunked (WithHeaders.headers s.init) ∧
      s.unread = encodeChunks [hello, [33]] ∧
      (∃ s', body plainChunkSize (List.replicate 8 0) s = .ok (hello, s')) ∧
      hello ≠ [hello, [33]].flatten := by
  intro s
  have hunread : s.unread = encodeChunks [hello, [33]] := List.append_nil _
  refine ⟨plainChunkSize_readsSizes, isChunked_chunkedHeaders, hunread, ?_, by decide⟩
  rw [isChunked_chunkedHeaders.body_eq]
  have hfilling := filling_new (s := s) nofun (List.length_replicate (n := 8) (a := 0))
  rcases hfilling.decode_chunk plainChunkSize_readsSizes rfl rfl rfl (by decide) (by decide)
    (hunread.trans (encodeChunks_cons hello [[33]])) with ⟨_, hdecode⟩ | ⟨hlong, _⟩
  · exact hdecode
  · exact absurd (.inl (by decide)) hlong

end Cpxy.Http
