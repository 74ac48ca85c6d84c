import Cpxy.Http.Request
import Cpxy.Io.ReadLoop

/-!
# Streams behind a head

Library `Http`. Source `src/http.rs:15–39`, `160–265` and `299–401`. A head is read from a
stream until its parser is done. What was read beyond the head stays in the buffer, and the
stream that follows gives it back before it goes on with the stream below.
-/

namespace Cpxy.Http

open Cpxy.Base Cpxy.Io

/-! ### Headers -/

/-- `get_header`; `http.rs:18–25`: the first one with the name. -/
def getHeader (headers : List (String × Bytes)) (n : String) : Option Bytes :=
  (headers.find? fun h ↦ eqIgnoreAsciiCase h.1 n).map Prod.snd

/-- `get_header_text`; `http.rs:27–29`. -/
def getHeaderText (headers : List (String × Bytes)) (n : String) : Option String :=
  (getHeader headers n).bind fromUtf8

/-! ### Reading a head -/

/-- `AsyncHttpStream`; `http.rs:160–169`. -/
structure AsyncHttpStream (α : Type) where
  init : α
  bodyBuf : Option RWBuffer
  body : List Chunk

variable {ε α : Type}

/-- The loop that `parse_response` and `parse_request` share; `http.rs:303–348` and
`355–400`. Every round begins with a read. -/
def parseHead (eof : ε) (parse : Incremental ε α) (b : RWBuffer) (cs : List Chunk) :
    Outcome ε (AsyncHttpStream α) := do
  match ← readMore b cs with
  | none => .err eof
  | some (b, cs) =>
    let ((offset, head), b, cs) ← readUntil eof (pollParser id parse) () b cs
    let b ← b.advanceRead offset
    .ok ⟨head, if 0 < b.remainingRead then some b else none, cs⟩

/-- What `parse_request` takes from the parser; `http.rs:364–398`. -/
def requestHead (httparse : Httparse) : Incremental ErrorChain HttpRequest := fun buf ↦
  match httparse buf with
  | .ok (some (offset, req)) =>
    .ok (some (offset, ⟨req.headers, req.method.getD "", req.path.getD ""⟩))
  | .ok none => .ok none
  | .err e => .err [e]
  | .panicked => .panicked

/-- `parse_request`; `http.rs:351–401`. -/
def parseRequest (httparse : Httparse) (b : RWBuffer) (cs : List Chunk) :
    Outcome ErrorChain (AsyncHttpStream HttpRequest) :=
  parseHead ["Unexpected EOF"] (requestHead httparse) b cs

/-- `HttpResponse`; `http.rs:82–86`. -/
structure HttpResponse where
  headers : List (String × Bytes)
  statusCode : UInt16
  deriving DecidableEq, Repr

/-- What `httparse::Response` holds when its parser is done. -/
structure ParsedResponse where
  code : Option UInt16
  headers : List (String × Bytes)
  deriving DecidableEq, Repr

/-- `httparse::Response::parse`, with the text of its error. -/
abbrev HttparseResponse := Incremental String ParsedResponse

/-- What `parse_response` takes from the parser; `http.rs:315–346`. -/
def responseHead (httparse : HttparseResponse) : Incremental ErrorChain HttpResponse := fun buf ↦
  match httparse buf with
  | .ok (some (offset, response)) =>
    match response.code with
    | some code => .ok (some (offset, ⟨response.headers, code⟩))
    | none => .err ["No status code"]
  | .ok none => .ok none
  | .err e => .err [e]
  | .panicked => .panicked

/-- `parse_response`; `http.rs:299–349`. The error at the end of the stream is kept without
the number of free bytes in its text. -/
def parseResponse (httparse : HttparseResponse) (b : RWBuffer) (cs : List Chunk) :
    Outcome ErrorChain (AsyncHttpStream HttpResponse) :=
  parseHead ["Unexpected EOF while parsing HTTP response"] (responseHead httparse) b cs

namespace AsyncHttpStream

/-- `poll_read` into a slice with room for so many bytes; `http.rs:246–264`. The stream below
may have to be waited for, the buffer never. -/
def pollRead (s : AsyncHttpStream α) (room : Nat) (blocked : Bool) :
    Poll (Outcome ErrorChain Bytes) × AsyncHttpStream α :=
  match s.bodyBuf with
  | some existing =>
    let copyLen := min room existing.remainingRead
    match (existing.advanceRead copyLen : Outcome ErrorChain RWBuffer) with
    | .ok left =>
      (.ready (.ok (existing.readBuf.take copyLen)),
        { s with bodyBuf := if left.remainingRead = 0 then none else some left })
    | .err e => (.ready (.err e), s)
    | .panicked => (.ready .panicked, s)
  | none =>
    if blocked then (.pending, s)
    else
      let (data, body) := takeChunk room s.body
      (.ready (.ok data), { s with body := body })

/-- What a buffer that may be missing holds. -/
def buffered : Option RWBuffer → Bytes
  | some b => b.readBuf
  | none => []

/-- All bytes that are still to be read. -/
def unread (s : AsyncHttpStream α) : Bytes := buffered s.bodyBuf ++ content s.body

theorem remainingRead_eq (b : RWBuffer) : b.remainingRead = b.readBuf.length := by
  rw [b.length_readBuf, RWBuffer.remainingRead]

/-- A buffer that is dropped held nothing. -/
theorem buffered_of_dropped {p : Prop} [Decidable p] {b : RWBuffer}
    (h : ¬ p → b.remainingRead = 0) : buffered (if p then some b else none) = b.readBuf := by
  split
  · rfl
  · next hp =>
    have hlen := h hp
    rw [remainingRead_eq] at hlen
    exact (List.eq_nil_of_length_eq_zero hlen).symm

/-- A read takes bytes off the front, no more than there is room for, or has to wait. -/
theorem pollRead_spec (s : AsyncHttpStream α) (room : Nat) (blocked : Bool) :
    s.pollRead room blocked = (.pending, s) ∨
      ∃ data s', s.pollRead room blocked = (.ready (.ok data), s') ∧
        data ++ s'.unread = s.unread ∧ data.length ≤ room := by
  rw [pollRead]
  cases hb : s.bodyBuf with
  | none =>
    dsimp only
    cases blocked with
    | true => exact .inl rfl
    | false =>
      obtain ⟨hall, hroom⟩ := takeChunk_spec room s.body
      refine .inr ⟨_, _, rfl, ?_, hroom⟩
      simp only [unread, hb]
      exact hall
  | some b =>
    have hlen := remainingRead_eq b
    have hcopy : min room b.remainingRead ≤ b.readBuf.length := by omega
    obtain ⟨left, hleft, hread, _⟩ := RWBuffer.readBuf_advanceRead (ε := ErrorChain) hcopy
    dsimp only
    rw [hleft]
    refine .inr ⟨_, _, rfl, ?_, ?_⟩
    · have hkept : buffered (if left.remainingRead = 0 then none else some left) =
          left.readBuf := by
        rw [← ite_not]
        exact buffered_of_dropped Decidable.not_not.mp
      rw [unread, unread, hkept, hread, hb, ← List.append_assoc, List.take_append_drop]
      rfl
    · rw [List.length_take]
      omega

/-- Only the stream below makes a reader wait. -/
theorem blocked_of_pending {s s' : AsyncHttpStream α} {room : Nat} {blocked : Bool}
    (h : s.pollRead room blocked = (.pending, s')) : blocked = true := by
  rw [pollRead] at h
  split at h
  · dsimp only at h
    split at h <;> cases h
  · split at h
    · next hblocked => exact hblocked
    · cases h

/-- A buffer that is kept holds something. -/
def Kept (s : AsyncHttpStream α) : Prop := ∀ b, s.bodyBuf = some b → 0 < b.remainingRead

theorem kept_of_dropped {p : Prop} [Decidable p] {b : RWBuffer} (h : p → 0 < b.remainingRead)
    (init : α) (body : List Chunk) : Kept ⟨init, if p then some b else none, body⟩ := by
  intro b' hb'
  dsimp only at hb'
  split at hb'
  · next hp =>
    cases hb'
    exact h hp
  · cases hb'

theorem Kept.pollRead {s : AsyncHttpStream α} (h : s.Kept) (room : Nat) (blocked : Bool) :
    (s.pollRead room blocked).2.Kept := by
  rw [AsyncHttpStream.pollRead]
  split
  · next b hb =>
    dsimp only
    split
    · dsimp only
      rw [← ite_not]
      exact kept_of_dropped Nat.pos_of_ne_zero _ _
    · exact h
    · exact h
  · next hb =>
    split
    · exact h
    · intro b' hb'
      exact absurd (hb.symm.trans hb') nofun

/-- A read that is ready, and has room, gets something unless nothing is left. -/
theorem Kept.pollRead_pos {s s' : AsyncHttpStream α} (h : s.Kept) {room : Nat} (hroom : 0 < room)
    {blocked : Bool} {data : Bytes}
    (hread : s.pollRead room blocked = (.ready (.ok data), s')) (hleft : s.unread ≠ []) :
    data ≠ [] := by
  rw [AsyncHttpStream.pollRead] at hread
  split at hread
  · next b hb =>
    have hpos := h b hb
    have hlen := remainingRead_eq b
    dsimp only at hread
    split at hread <;> cases hread
    rw [← List.length_pos_iff, List.length_take]
    omega
  · next hb =>
    split at hread <;> cases hread
    intro hnil
    apply hleft
    rw [unread, hb, takeChunk_eq_nil hroom hnil]
    rfl

/-- Polls of a reader, each with the room in its slice and whether the stream below makes it
wait, and what they return. -/
def pollReads (s : AsyncHttpStream α) :
    List (Nat × Bool) → List (Poll (Outcome ErrorChain Bytes)) × AsyncHttpStream α
  | [] => ([], s)
  | (room, blocked) :: polls =>
    let (answer, s) := s.pollRead room blocked
    let (answers, s) := s.pollReads polls
    (answer :: answers, s)

/-- The bytes that polls have returned. -/
def received : List (Poll (Outcome ErrorChain Bytes)) → Bytes
  | [] => []
  | .ready (.ok data) :: answers => data ++ received answers
  | _ :: answers => received answers

/-- A poll that returns bytes, or has to wait. -/
def Fine : Poll (Outcome ErrorChain Bytes) → Prop
  | .ready (.ok _) => True
  | .ready _ => False
  | .pending => True

/-- A poll that has room and need not wait. -/
def ready (p : Nat × Bool) : Bool := decide (0 < p.1) && !p.2

/-- Whatever slices the stream is read into, the reader gets these bytes: at any time a
beginning of them with the rest still to come, and all of them with enough reads. -/
def Yields (s : AsyncHttpStream α) (x : Bytes) : Prop :=
  ∀ polls, (∀ answer ∈ (s.pollReads polls).1, Fine answer) ∧
    received (s.pollReads polls).1 ++ (s.pollReads polls).2.unread = x ∧
    (x.length ≤ polls.countP ready → received (s.pollReads polls).1 = x)

theorem ready_eq_true {p : Nat × Bool} : ready p = true ↔ 0 < p.1 ∧ p.2 = false := by
  simp [ready]

/-- The bytes that one poll takes, and that a ready one takes at least one. -/
theorem Kept.length_pollRead {s s' : AsyncHttpStream α} (h : s.Kept) {p : Nat × Bool}
    {data : Bytes} (hread : s.pollRead p.1 p.2 = (.ready (.ok data), s'))
    (hdata : data ++ s'.unread = s.unread) (hready : ready p = true) :
    s'.unread.length ≤ s.unread.length - 1 := by
  have hlen := congrArg List.length hdata
  rw [List.length_append] at hlen
  by_cases hleft : s.unread = []
  · rw [hleft, List.length_nil] at hlen
    omega
  · have hpos := h.pollRead_pos (ready_eq_true.mp hready).1 hread hleft
    rw [← List.length_pos_iff] at hpos
    omega

/-- Reads lose nothing, and each one that is ready brings the end closer. -/
theorem Kept.pollReads_spec {s : AsyncHttpStream α} (h : s.Kept) (polls : List (Nat × Bool)) :
    (∀ answer ∈ (s.pollReads polls).1, Fine answer) ∧
      received (s.pollReads polls).1 ++ (s.pollReads polls).2.unread = s.unread ∧
      (s.pollReads polls).2.unread.length ≤ s.unread.length - polls.countP ready := by
  induction polls generalizing s with
  | nil => exact ⟨nofun, rfl, Nat.le_refl _⟩
  | cons p polls ih =>
    have hrest := ih (h.pollRead p.1 p.2)
    rw [pollReads, List.countP_cons]
    dsimp only
    rcases s.pollRead_spec p.1 p.2 with hpoll | ⟨data, s', hpoll, hdata, _⟩
    · have hnot : ¬ ready p = true := by
        intro hready
        have hblocked := blocked_of_pending hpoll
        rw [(ready_eq_true.mp hready).2] at hblocked
        cases hblocked
      rw [hpoll] at hrest ⊢
      rw [if_neg hnot]
      obtain ⟨hfine, hall, hleft⟩ := hrest
      exact ⟨List.forall_mem_cons.mpr ⟨trivial, hfine⟩, hall, hleft⟩
    · rw [hpoll] at hrest ⊢
      obtain ⟨hfine, hall, hleft⟩ := hrest
      refine ⟨List.forall_mem_cons.mpr ⟨trivial, hfine⟩, ?_, ?_⟩
      · dsimp only
        rw [received, List.append_assoc, hall, hdata]
      · have hlen := congrArg List.length hdata
        rw [List.length_append] at hlen
        dsimp only at hleft ⊢
        split
        · next hready =>
          have hstep := h.length_pollRead hpoll hdata hready
          omega
        · omega

/-- Everything that is read on goes through a buffer first, then comes in pieces. -/
def pieces (s : AsyncHttpStream α) : List Chunk :=
  match s.bodyBuf with
  | some b => if h : b.readBuf ≠ [] then ⟨b.readBuf, h⟩ :: s.body else s.body
  | none => s.body

theorem content_pieces (s : AsyncHttpStream α) : content s.pieces = s.unread := by
  rw [pieces, unread]
  cases s.bodyBuf with
  | none => rfl
  | some b =>
    dsimp only [buffered]
    split
    · rfl
    · next h => rw [not_not.mp h, List.nil_append]

theorem pieces_of_kept {s : AsyncHttpStream α} {b : RWBuffer} (hb : s.bodyBuf = some b)
    (hne : b.readBuf ≠ []) : s.pieces = ⟨b.readBuf, hne⟩ :: s.body := by
  rw [pieces, hb]
  exact dif_pos hne

/-- A read of the stream is a read of its pieces. -/
theorem Kept.pollRead_pieces {s : AsyncHttpStream α} (h : s.Kept) (room : Nat) :
    ∃ s', s.pollRead room false = (.ready (.ok (takeChunk room s.pieces).1), s') ∧
      s'.pieces = (takeChunk room s.pieces).2 ∧ s'.Kept := by
  have hkept := h.pollRead room false
  cases hb : s.bodyBuf with
  | none =>
    have hpieces : s.pieces = s.body := by rw [pieces, hb]
    have hread : s.pollRead room false =
        (.ready (.ok (takeChunk room s.body).1), { s with body := (takeChunk room s.body).2 }) := by
      rw [AsyncHttpStream.pollRead, hb]
      rfl
    rw [hread] at hkept
    refine ⟨_, by rw [hread, hpieces], ?_, hkept⟩
    rw [pieces, hb, hpieces]
  | some b =>
    have hlen := remainingRead_eq b
    have hpos := h b hb
    have hne : b.readBuf ≠ [] := by
      rw [← List.length_pos_iff]
      omega
    have hcopy : min room b.remainingRead ≤ b.readBuf.length := by omega
    obtain ⟨left, hleft, hrest, _⟩ := RWBuffer.readBuf_advanceRead (ε := ErrorChain) hcopy
    have hread : s.pollRead room false =
        (.ready (.ok (b.readBuf.take (min room b.remainingRead))),
          { s with bodyBuf := if left.remainingRead = 0 then none else some left }) := by
      rw [AsyncHttpStream.pollRead, hb]
      dsimp only
      rw [hleft]
    have hlen' := remainingRead_eq left
    rw [hrest, List.length_drop] at hlen'
    rw [hread] at hkept
    refine ⟨_, ?_, ?_, hkept⟩
    · rw [hread, pieces_of_kept hb hne, takeChunk_fst, hlen, ← List.take_eq_take_min]
    · rw [pieces_of_kept hb hne, takeChunk]
      by_cases hfits : b.readBuf.length ≤ room
      · rw [dif_pos hfits, if_pos (by omega)]
        rfl
      · have hleftne : left.readBuf ≠ [] := by
          rw [← List.length_pos_iff, hrest, List.length_drop]
          omega
        rw [dif_neg hfits, if_neg (by omega), pieces_of_kept rfl hleftne]
        have hdrop : left.readBuf = b.readBuf.drop room := by
          rw [hrest, Nat.min_eq_left (by omega)]
        congr 1
        exact Subtype.ext hdrop

theorem Kept.yields_unread {s : AsyncHttpStream α} (h : s.Kept) : s.Yields s.unread := by
  intro polls
  obtain ⟨hfine, hall, hleft⟩ := h.pollReads_spec polls
  refine ⟨hfine, hall, ?_⟩
  intro henough
  have hnil : (s.pollReads polls).2.unread = [] := by
    apply List.eq_nil_of_length_eq_zero
    omega
  rw [hnil, List.append_nil] at hall
  exact hall

end AsyncHttpStream

/-- A head at the start of the stream is found, however it arrives, and nothing behind it is
lost. -/
theorem parseHead_spec (eof : ε) {parse : Incremental ε α} {head x : Bytes} {a : α}
    (hp : ReadsWord parse head a) (hne : head ≠ []) {b : RWBuffer} (hempty : b.readBuf = [])
    (hb : 2 ≤ b.buf.length) {cs : List Chunk} (hcs : content cs = head ++ x) :
    ∃ s, parseHead eof parse b cs = .ok s ∧ s.init = a ∧ s.unread = x ∧ s.Kept := by
  rcases readMore_spec (ε := ε) b cs hb with ⟨_, rfl⟩ | ⟨b₁, cs₁, hmore, hdata, hb₁⟩
  · exact absurd (List.append_eq_nil_iff.mp hcs.symm).1 hne
  · obtain ⟨data, _, hread₁, hcs₁⟩ := hdata
    have hstream : b₁.readBuf ++ content cs₁ = head ++ x := by
      rw [hread₁, hempty, List.nil_append, hcs₁, hcs]
    obtain ⟨b₂, cs₂, hok, hall, hn⟩ := readUntil_word eof hp hb₁ hstream
    obtain ⟨b₃, hb₃, hread₃, _⟩ := RWBuffer.readBuf_advanceRead (ε := ε) hn
    refine ⟨⟨a, if 0 < b₃.remainingRead then some b₃ else none, cs₂⟩, ?_, rfl, ?_,
      AsyncHttpStream.kept_of_dropped id _ _⟩
    · rw [parseHead, hmore, Outcome.ok_bind]
      dsimp only
      rw [hok, Outcome.ok_bind]
      dsimp only
      rw [hb₃, Outcome.ok_bind]
    · have hkept : AsyncHttpStream.buffered (if 0 < b₃.remainingRead then some b₃ else none) =
          b₃.readBuf := AsyncHttpStream.buffered_of_dropped Nat.eq_zero_of_not_pos
      rw [AsyncHttpStream.unread, hkept, hread₃, ← List.drop_append_of_le_length hn, hall,
        List.drop_left]

/-- `parse_request` reads the heads that the parser reads. -/
theorem requestHead_readsWord {httparse : Httparse} {head : Bytes} {req : ParsedHead}
    (h : ReadsWord httparse head req) :
    ReadsWord (requestHead httparse) head
      ⟨req.headers, req.method.getD "", req.path.getD ""⟩ where
  more c hc hne := by rw [requestHead, h.more c hc hne]
  complete x := by rw [requestHead, h.complete x]

/-- `parse_response` reads the heads that the parser reads, when they have a status code. -/
theorem responseHead_readsWord {httparse : HttparseResponse} {head : Bytes}
    {response : ParsedResponse} {code : UInt16} (h : ReadsWord httparse head response)
    (hcode : response.code = some code) :
    ReadsWord (responseHead httparse) head ⟨response.headers, code⟩ where
  more c hc hne := by rw [responseHead, h.more c hc hne]
  complete x := by
    rw [responseHead, h.complete x]
    dsimp only
    rw [hcode]

/-- Heads are found at the start of every stream, however it arrives, and a reader of the
stream that follows gets exactly what stands behind the head. -/
theorem head_keeps_stream (httparse : Httparse) (httparseResponse : HttparseResponse)
    (head x : Bytes) (hne : head ≠ []) (b : RWBuffer) (hempty : b.readBuf = [])
    (hb : 2 ≤ b.buf.length) (cs : List Chunk) (hcs : content cs = head ++ x) :
    (∀ req, ReadsWord httparse head req →
      ∃ s, parseRequest httparse b cs = .ok s ∧
        s.init = ⟨req.headers, req.method.getD "", req.path.getD ""⟩ ∧ s.Yields x) ∧
    ∀ response code, ReadsWord httparseResponse head response → response.code = some code →
      ∃ s, parseResponse httparseResponse b cs = .ok s ∧ s.init = ⟨response.headers, code⟩ ∧
        s.Yields x := by
  constructor
  · intro req hreq
    obtain ⟨s, hs, hinit, hunread, hkept⟩ :=
      parseHead_spec ["Unexpected EOF"] (requestHead_readsWord hreq) hne hempty hb hcs
    exact ⟨s, hs, hinit, hunread ▸ hkept.yields_unread⟩
  · intro response code hresponse hcode
    obtain ⟨s, hs, hinit, hunread, hkept⟩ :=
      parseHead_spec ["Unexpected EOF while parsing HTTP response"]
        (responseHead_readsWord hresponse hcode) hne hempty hb hcs
    exact ⟨s, hs, hinit, hunread ▸ hkept.yields_unread⟩

private def getHead : Bytes := "GET / HTTP/1.1\r\n\r\n".toList.map fun c ↦ c.val.toUInt8

private def okHead : Bytes := "HTTP/1.1 200 OK\r\n\r\n".toList.map fun c ↦ c.val.toUInt8

private def getHttparse : Httparse :=
  onlyWord getHead "invalid token" ⟨some "GET", some "/", []⟩

private def okHttparse : HttparseResponse := onlyWord okHead "invalid token" ⟨some 200, []⟩

/-- A request and a response, each in two pieces with two bytes of what follows. -/
theorem head_keeps_stream_hi :
    (∃ s, parseRequest getHttparse (.new [0, 0])
        [⟨getHead.take 3, by decide⟩, ⟨getHead.drop 3 ++ [104, 105], by decide⟩] = .ok s ∧
      s.init = ⟨[], "GET", "/"⟩ ∧ s.Yields [104, 105]) ∧
    ∃ s, parseResponse okHttparse (.new [0, 0])
        [⟨okHead.take 3, by decide⟩, ⟨okHead.drop 3 ++ [104, 105], by decide⟩] = .ok s ∧
      s.init = ⟨[], 200⟩ ∧ s.Yields [104, 105] := by
  constructor
  · exact (head_keeps_stream getHttparse okHttparse getHead [104, 105] (by decide) (.new [0, 0]) rfl
      (Nat.le_refl 2) _ (by decide)).1 _ (onlyWord_readsWord _ _ _)
  · exact (head_keeps_stream getHttparse okHttparse okHead [104, 105] (by decide) (.new [0, 0]) rfl
      (Nat.le_refl 2) _ (by decide)).2 _ 200 (onlyWord_readsWord _ _ _) rfl

end Cpxy.Http
