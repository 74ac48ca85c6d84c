import Cpxy.Base.Incremental
import Cpxy.Io.RWBuffer

/-!
# Reading until a decision

Library `Io`. The loop that handshakes and head parsers share: look at the bytes so far,
and either decide or read more into the buffer. A client's stream is the list of pieces in
which it arrives; a read takes a piece, or what the buffer has room for. The loop decides
by the bytes alone when every decision persists.
-/

namespace Cpxy.Io

open Cpxy.Base

/-- A piece of a stream, as one read may return it. -/
abbrev Chunk := { b : Bytes // b ≠ [] }

/-- All bytes of a list of pieces. -/
def content (cs : List Chunk) : Bytes := (cs.map Subtype.val).flatten

@[simp] theorem content_nil : content [] = [] := rfl

@[simp] theorem content_cons (c : Chunk) (cs : List Chunk) :
    content (c :: cs) = c.val ++ content cs := rfl

@[simp] theorem content_append (cs ds : List Chunk) :
    content (cs ++ ds) = content cs ++ content ds := by
  simp [content]

theorem content_eq_nil {cs : List Chunk} (h : content cs = []) : cs = [] := by
  cases cs with
  | nil => rfl
  | cons c cs => exact absurd (List.append_eq_nil_iff.mp h).1 c.property

/-- All bytes may arrive in one piece. -/
theorem exists_content (b : Bytes) : ∃ cs, content cs = b := by
  by_cases hb : b = []
  · exact ⟨[], hb.symm⟩
  · exact ⟨[⟨b, hb⟩], List.append_nil b⟩

/-- One read into a slice with room for `room` bytes: what it returns, and what is to come.
An empty result is the end of the stream. -/
def takeChunk (room : Nat) : List Chunk → Bytes × List Chunk
  | [] => ([], [])
  | c :: cs =>
    if h : c.val.length ≤ room then (c.val, cs)
    else (c.val.take room, ⟨c.val.drop room, by simp; omega⟩ :: cs)

theorem takeChunk_fst (room : Nat) (c : Chunk) (cs : List Chunk) :
    (takeChunk room (c :: cs)).1 = c.val.take room := by
  rw [takeChunk]
  split
  · next h => exact (List.take_of_length_le h).symm
  · rfl

/-- A read takes bytes off the front, and no more than there is room for. -/
theorem takeChunk_spec (room : Nat) (cs : List Chunk) :
    (takeChunk room cs).1 ++ content (takeChunk room cs).2 = content cs ∧
      (takeChunk room cs).1.length ≤ room := by
  cases cs with
  | nil => exact ⟨rfl, Nat.zero_le _⟩
  | cons c cs =>
    rw [takeChunk]
    split
    · next h => exact ⟨rfl, h⟩
    · constructor
      · simp only [content_cons, ← List.append_assoc, List.take_append_drop]
      · rw [List.length_take]
        omega

/-- With room to read into, an empty read means that nothing is left. -/
theorem takeChunk_eq_nil {room : Nat} {cs : List Chunk} (hr : 0 < room)
    (h : (takeChunk room cs).1 = []) : cs = [] := by
  cases cs with
  | nil => rfl
  | cons c cs =>
    rw [takeChunk] at h
    split at h
    · exact absurd h c.property
    · have hlen := congrArg List.length h
      simp only [List.length_take, List.length_nil] at hlen
      omega

/-- A read of the rest of a stream takes the next bytes, and nothing only at the end. -/
theorem takeChunk_drop {stream : Bytes} {k : Nat} {cs : List Chunk}
    (h : content cs = stream.drop k) (room : Nat) :
    (takeChunk room cs).1 <+: stream.drop k ∧
      content (takeChunk room cs).2 = stream.drop (k + (takeChunk room cs).1.length) ∧
      (0 < room → (takeChunk room cs).1 = [] → stream.length ≤ k) := by
  obtain ⟨hall, _⟩ := takeChunk_spec room cs
  rw [h] at hall
  refine ⟨⟨_, hall⟩, ?_, ?_⟩
  · rw [← List.drop_drop, ← hall, List.drop_left]
  · intro hroom hnil
    rw [takeChunk_eq_nil hroom hnil, content_nil] at h
    exact List.drop_eq_nil_iff.mp h.symm

theorem takeChunk_append {room : Nat} {cs : List Chunk} (h : cs ≠ []) (later : List Chunk) :
    takeChunk room (cs ++ later) = ((takeChunk room cs).1, (takeChunk room cs).2 ++ later) := by
  cases cs with
  | nil => exact absurd rfl h
  | cons c cs =>
    rw [List.cons_append, takeChunk, takeChunk]
    split <;> rfl

/-- `stream.read(buf.write_buf())` followed by `advance_write`; `none` at the end of the stream. -/
def readMore {ε : Type} (b : RWBuffer) (cs : List Chunk) :
    Outcome ε (Option (RWBuffer × List Chunk)) :=
  let (data, rest) := takeChunk b.writeBuf.remainingWrite cs
  if data = [] then .ok none
  else
    match (b.writeBuf.store data).advanceWrite data.length with
    | .ok b' => .ok (some (b', rest))
    | .err e => .err e
    | .panicked => .panicked

/-- Reading either ends the stream or adds bytes to the buffer. -/
theorem readMore_spec {ε : Type} (b : RWBuffer) (cs : List Chunk) (hb : 2 ≤ b.buf.length) :
    ((readMore b cs : Outcome ε _) = .ok none ∧ cs = []) ∨
      ∃ b' rest, (readMore b cs : Outcome ε _) = .ok (some (b', rest)) ∧
        (∃ data, data ≠ [] ∧ b'.readBuf = b.readBuf ++ data ∧ data ++ content rest = content cs) ∧
        2 ≤ b'.buf.length := by
  have hroom := RWBuffer.remainingWrite_writeBuf hb
  obtain ⟨hc, hlen⟩ := takeChunk_spec b.writeBuf.remainingWrite cs
  rw [readMore]
  dsimp only
  split
  · next hnil => exact .inl ⟨rfl, takeChunk_eq_nil hroom hnil⟩
  · next hnil =>
    obtain ⟨b', hb', hread, hbuf⟩ := b.writeBuf.advanceWrite_store (ε := ε) hlen
    right
    refine ⟨b', _, by rw [hb'], ⟨_, hnil, ?_, hc⟩, ?_⟩
    · rw [hread, RWBuffer.readBuf_writeBuf]
    · have := b.length_buf_writeBuf
      omega

theorem readMore_shrinks {ε : Type} {b b' : RWBuffer} {cs rest : List Chunk}
    (h : (readMore b cs : Outcome ε _) = .ok (some (b', rest))) :
    (content rest).length < (content cs).length := by
  obtain ⟨hc, _⟩ := takeChunk_spec b.writeBuf.remainingWrite cs
  rw [readMore] at h
  dsimp only at h
  split at h
  · cases h
  · next hnil =>
    split at h
    · cases h
      have hlen := congrArg List.length hc
      have hpos := List.length_pos_iff.mpr hnil
      rw [List.length_append] at hlen
      omega
    · cases h
    · cases h

/-- What arrives behind the next piece does not show in a read. -/
theorem readMore_append {ε : Type} {b b' : RWBuffer} {cs rest : List Chunk}
    (h : (readMore b cs : Outcome ε _) = .ok (some (b', rest))) (later : List Chunk) :
    (readMore b (cs ++ later) : Outcome ε _) = .ok (some (b', rest ++ later)) := by
  have hcs : cs ≠ [] := by
    rintro rfl
    cases h
  rw [readMore] at h ⊢
  rw [takeChunk_append hcs]
  dsimp only at h ⊢
  split at h
  · cases h
  · next hnil =>
    rw [if_neg hnil]
    split at h <;> cases h
    rfl

/-- A read gets the same from a stream whose next piece is just what it returns. -/
theorem readMore_piece {ε : Type} {b b' : RWBuffer} {cs rest : List Chunk}
    (h : (readMore b cs : Outcome ε _) = .ok (some (b', rest))) :
    ∃ c : Chunk, c.val ++ content rest = content cs ∧
      ∀ later, (readMore b (c :: later) : Outcome ε _) = .ok (some (b', later)) := by
  obtain ⟨hall, hroom⟩ := takeChunk_spec b.writeBuf.remainingWrite cs
  rw [readMore] at h
  dsimp only at h
  split at h
  · cases h
  · next hnil =>
    split at h <;> cases h
    next hb =>
      refine ⟨⟨_, hnil⟩, hall, fun later ↦ ?_⟩
      rw [readMore, takeChunk, dif_pos hroom]
      dsimp only
      rw [if_neg hnil, hb]

/-! ### Streams and reads -/

/-- A way of reading a stream, given as a relation of the pieces, the result and what was not
read. What arrives later does not show in it, and it gets the same from a stream whose pieces
are the reads that it makes. -/
structure Paced {γ : Type} (run : List Chunk → γ → List Chunk → Prop) : Prop where
  append : ∀ {cs a rest}, run cs a rest → ∀ later, run (cs ++ later) a (rest ++ later)
  whole : ∀ {cs a rest}, run cs a rest → ∃ seen, content seen ++ content rest = content cs ∧
    run seen a []

namespace Paced

variable {γ δ : Type}

/-- Nothing is read. -/
theorem const (P : γ → Prop) : Paced fun cs a rest ↦ P a ∧ rest = cs where
  append h later := ⟨h.1, by rw [h.2]⟩
  whole h := ⟨[], by rw [h.2]; rfl, h.1, rfl⟩

/-- The second goes on where the first has stopped. -/
theorem bind {run : List Chunk → γ → List Chunk → Prop}
    {next : γ → List Chunk → δ → List Chunk → Prop} (h : Paced run) (hn : ∀ a, Paced (next a)) :
    Paced fun cs c rest ↦ ∃ a mid, run cs a mid ∧ next a mid c rest where
  append := by
    rintro cs c rest ⟨a, mid, hrun, hnext⟩ later
    exact ⟨a, mid ++ later, h.append hrun later, (hn a).append hnext later⟩
  whole := by
    rintro cs c rest ⟨a, mid, hrun, hnext⟩
    obtain ⟨seen, hseen, hrun'⟩ := h.whole hrun
    obtain ⟨seen', hseen', hnext'⟩ := (hn a).whole hnext
    refine ⟨seen ++ seen', ?_, a, seen', h.append hrun' seen', hnext'⟩
    rw [content_append, List.append_assoc, hseen', hseen]

/-- Run on the reads it makes, with whatever comes behind them. -/
theorem reads {run : List Chunk → γ → List Chunk → Prop} (h : Paced run) {cs rest : List Chunk}
    {a : γ} (hrun : run cs a rest) :
    ∃ seen, content (seen ++ rest) = content cs ∧ run (seen ++ rest) a rest := by
  obtain ⟨seen, hseen, hrun'⟩ := h.whole hrun
  exact ⟨seen, by rw [content_append, hseen], h.append hrun' rest⟩

end Paced

variable {σ ρ ε : Type}

/-- Look at the buffer: decide, fail, or go on in another state with more bytes. -/
def readUntil (eof : ε) (poll : σ → Bytes → Outcome ε (σ ⊕ ρ)) (s : σ) (b : RWBuffer)
    (cs : List Chunk) : Outcome ε (ρ × RWBuffer × List Chunk) :=
  match poll s b.readBuf with
  | .ok (.inr r) => .ok (r, b, cs)
  | .err e => .err e
  | .panicked => .panicked
  | .ok (.inl s') =>
    match _h : (readMore b cs : Outcome ε _) with
    | .ok none => .err eof
    | .ok (some (b', rest)) => readUntil eof poll s' b' rest
    | .err e => .err e
    | .panicked => .panicked
termination_by (content cs).length
decreasing_by exact readMore_shrinks _h

section Unfold

variable {eof : ε} {poll : σ → Bytes → Outcome ε (σ ⊕ ρ)} {s s' : σ} {b : RWBuffer}
  {cs : List Chunk}

theorem readUntil_done {r : ρ} (h : poll s b.readBuf = .ok (.inr r)) :
    readUntil eof poll s b cs = .ok (r, b, cs) := by
  rw [readUntil, h]

theorem readUntil_failed {e : ε} (h : poll s b.readBuf = .err e) :
    readUntil eof poll s b cs = .err e := by
  rw [readUntil, h]

theorem readUntil_eof (h : poll s b.readBuf = .ok (.inl s'))
    (hm : (readMore b cs : Outcome ε _) = .ok none) : readUntil eof poll s b cs = .err eof := by
  rw [readUntil, h]
  dsimp only
  split <;> simp_all

theorem readUntil_more {b' : RWBuffer} {rest : List Chunk} (h : poll s b.readBuf = .ok (.inl s'))
    (hm : (readMore b cs : Outcome ε _) = .ok (some (b', rest))) :
    readUntil eof poll s b cs = readUntil eof poll s' b' rest := by
  rw [readUntil, h]
  dsimp only
  split <;> simp_all

/-- Along a run that decides: what holds where it decides, and is carried over each read that
it makes, holds at its start. -/
theorem readUntil_induct {motive : σ → RWBuffer → List Chunk → Prop} {r : ρ} {b' : RWBuffer}
    {rest : List Chunk} (h : readUntil eof poll s b cs = .ok (r, b', rest))
    (done : ∀ s, poll s b'.readBuf = .ok (.inr r) → motive s b' rest)
    (more : ∀ s s' b b₁ cs cs₁, poll s b.readBuf = .ok (.inl s') →
      (readMore b cs : Outcome ε _) = .ok (some (b₁, cs₁)) → motive s' b₁ cs₁ → motive s b cs) :
    motive s b cs := by
  induction hn : (content cs).length using Nat.strongRecOn generalizing s b cs with
  | ind n ih =>
    cases hp : poll s b.readBuf with
    | panicked =>
      rw [readUntil, hp] at h
      cases h
    | err e =>
      rw [readUntil_failed hp] at h
      cases h
    | ok v =>
      cases v with
      | inr r' =>
        rw [readUntil_done hp] at h
        cases h
        exact done s hp
      | inl s' =>
        cases hm : (readMore b cs : Outcome ε _) with
        | panicked =>
          rw [readUntil, hp] at h
          dsimp only at h
          split at h <;> simp_all
        | err e =>
          rw [readUntil, hp] at h
          dsimp only at h
          split at h <;> simp_all
        | ok m =>
          cases m with
          | none =>
            rw [readUntil_eof hp hm] at h
            cases h
          | some m =>
            obtain ⟨b₁, cs₁⟩ := m
            have hlt := readMore_shrinks hm
            rw [readUntil_more hp hm] at h
            exact more s s' b b₁ cs cs₁ hp hm (ih _ (by omega) h rfl)

theorem readUntil_paced (eof : ε) (poll : σ → Bytes → Outcome ε (σ ⊕ ρ)) (s : σ) (b : RWBuffer) :
    Paced fun cs (a : ρ × RWBuffer) rest ↦ readUntil eof poll s b cs = .ok (a.1, a.2, rest) where
  append := by
    intro cs a rest h later
    refine readUntil_induct (motive := fun s b cs ↦ readUntil eof poll s b (cs ++ later) =
      .ok (a.1, a.2, rest ++ later)) h ?_ ?_
    · intro s hp
      exact readUntil_done hp
    · intro s s' b b₁ cs cs₁ hp hm ih
      rw [readUntil_more hp (readMore_append hm later), ih]
  whole := by
    intro cs a rest h
    refine readUntil_induct (motive := fun s b cs ↦ ∃ seen, content seen ++ content rest =
      content cs ∧ readUntil eof poll s b seen = .ok (a.1, a.2, [])) h ?_ ?_
    · intro s hp
      exact ⟨[], rfl, readUntil_done hp⟩
    · rintro s s' b b₁ cs cs₁ hp hm ⟨seen, hseen, ih⟩
      obtain ⟨c, hc, hpiece⟩ := readMore_piece hm
      refine ⟨c :: seen, ?_, ?_⟩
      · rw [content_cons, List.append_assoc, hseen, hc]
      · rw [readUntil_more hp (hpiece seen), ih]

end Unfold

/-- What the loop does in a state with these bytes is right for all that may follow; while it
decides nothing, there is nothing to find in the bytes so far. -/
structure DecidesAt (poll : σ → Bytes → Outcome ε (σ ⊕ ρ)) (Fits : σ → Bytes → Prop)
    (spec : Bytes → Option ρ) (s : σ) (b : Bytes) : Prop where
  done : ∀ r, poll s b = .ok (.inr r) → ∀ x, spec (b ++ x) = some r
  failed : ∀ e, poll s b = .err e → ∀ x, spec (b ++ x) = none
  more : ∀ s', poll s b = .ok (.inl s') → spec b = none ∧ ∀ x, Fits s' (b ++ x)
  total : poll s b ≠ .panicked

/-- The loop is right in every state that fits the bytes. -/
def Decides (poll : σ → Bytes → Outcome ε (σ ⊕ ρ)) (Fits : σ → Bytes → Prop)
    (spec : Bytes → Option ρ) : Prop :=
  ∀ s b, Fits s b → DecidesAt poll Fits spec s b

/-- The loop finds what there is to find in the whole stream, however it arrives, and keeps
every byte that it has read. -/
theorem readUntil_spec {poll : σ → Bytes → Outcome ε (σ ⊕ ρ)} {Fits : σ → Bytes → Prop}
    {spec : Bytes → Option ρ} (hd : Decides poll Fits spec) (eof : ε) (s : σ) {b : RWBuffer}
    (cs : List Chunk) (hb : 2 ≤ b.buf.length) (hs : Fits s b.readBuf) :
    match spec (b.readBuf ++ content cs) with
    | none => ∃ e, readUntil eof poll s b cs = .err e
    | some r => ∃ b' rest, readUntil eof poll s b cs = .ok (r, b', rest) ∧
        b'.readBuf ++ content rest = b.readBuf ++ content cs ∧ 2 ≤ b'.buf.length ∧
        spec b'.readBuf = some r := by
  -- on the number of bytes still to come
  induction hn : (content cs).length using Nat.strongRecOn generalizing s b cs with
  | ind n ih =>
    have hat := hd s _ hs
    cases hp : poll s b.readBuf with
    | panicked => exact absurd hp hat.total
    | err e =>
      rw [hat.failed e hp]
      exact ⟨e, readUntil_failed hp⟩
    | ok v =>
      cases v with
      | inr r =>
        have hown := hat.done r hp []
        rw [List.append_nil] at hown
        rw [hat.done r hp]
        exact ⟨b, cs, readUntil_done hp, rfl, hb, hown⟩
      | inl s' =>
        obtain ⟨hnone, hfits⟩ := hat.more s' hp
        rcases readMore_spec (ε := ε) b cs hb with ⟨hm, rfl⟩ | ⟨b', rest, hm, hread, hb'⟩
        · rw [content_nil, List.append_nil, hnone]
          exact ⟨eof, readUntil_eof hp hm⟩
        · obtain ⟨data, _, hdata, hc⟩ := hread
          have hlt := readMore_shrinks hm
          have hrec := ih _ (by omega) s' rest hb' (hdata ▸ hfits data) rfl
          have hall : b'.readBuf ++ content rest = b.readBuf ++ content cs := by
            rw [hdata, List.append_assoc, hc]
          rw [hall] at hrec
          rw [readUntil_more hp hm]
          exact hrec

/-- Only what is polled on beginnings of the stream shows in the result. -/
theorem readUntil_congr {poll poll' : σ → Bytes → Outcome ε (σ ⊕ ρ)} {stream : Bytes}
    (hpoll : ∀ s c, c <+: stream → poll s c = poll' s c) (eof : ε) (s : σ) {b : RWBuffer}
    {cs : List Chunk} (hb : 2 ≤ b.buf.length) (hcs : b.readBuf ++ content cs = stream) :
    readUntil eof poll s b cs = readUntil eof poll' s b cs := by
  -- on the number of bytes still to come
  induction hn : (content cs).length using Nat.strongRecOn generalizing s b cs with
  | ind n ih =>
    have hsame : poll s b.readBuf = poll' s b.readBuf := hpoll s _ ⟨_, hcs⟩
    cases hp : poll' s b.readBuf with
    | panicked => rw [readUntil, readUntil, hsame, hp]
    | err e => rw [readUntil_failed hp, readUntil_failed (hsame.trans hp)]
    | ok v =>
      cases v with
      | inr r => rw [readUntil_done hp, readUntil_done (hsame.trans hp)]
      | inl s' =>
        rcases readMore_spec (ε := ε) b cs hb with ⟨hm, _⟩ | ⟨b', rest, hm, hread, hb'⟩
        · rw [readUntil_eof hp hm, readUntil_eof (hsame.trans hp) hm]
        · obtain ⟨data, _, hdata, hc⟩ := hread
          have hlt := readMore_shrinks hm
          have hall : b'.readBuf ++ content rest = stream := by
            rw [hdata, List.append_assoc, hc, hcs]
          rw [readUntil_more hp hm, readUntil_more (hsame.trans hp) hm]
          exact ih _ (by omega) s' hb' hall rfl

/-! ### Reading until a parser is done -/

variable {α δ : Type}

/-- Ask the parser about the bytes so far. -/
def pollParser (f : ε → δ) (p : Incremental ε α) (_ : Unit) (b : Bytes) :
    Outcome δ (Unit ⊕ (Nat × α)) :=
  match p b with
  | .ok none => .ok (.inl ())
  | .ok (some r) => .ok (.inr r)
  | .err e => .err (f e)
  | .panicked => .panicked

/-- A stable parser decides. -/
theorem decides_pollParser {f : ε → δ} {p : Incremental ε α} (hp : Stable p) :
    Decides (pollParser f p) (fun _ _ ↦ True) (reads p) := by
  intro s b _
  constructor
  case done =>
    intro r h x
    unfold pollParser at h
    split at h <;> cases h
    next heq => exact hp.reads_of_complete heq x
  case failed =>
    intro e h x
    unfold pollParser at h
    split at h <;> cases h
    next heq => exact hp.reads_of_error heq x
  case more =>
    intro s' h
    unfold pollParser at h
    split at h <;> cases h
    next heq => exact ⟨reads_of_more heq, fun _ ↦ trivial⟩
  case total =>
    intro h
    unfold pollParser at h
    split at h <;> cases h
    next heq => exact hp.total b heq

/-- A parser that reads a word finds it at the start of the stream, and keeps what follows. -/
theorem readUntil_word (eof : ε) {p : Incremental ε α} {word x : Bytes} {a : α}
    (hp : ReadsWord p word a) {b : RWBuffer} {cs : List Chunk} (hb : 2 ≤ b.buf.length)
    (hcs : b.readBuf ++ content cs = word ++ x) :
    ∃ b' rest, readUntil eof (pollParser id p) () b cs = .ok ((word.length, a), b', rest) ∧
      b'.readBuf ++ content rest = word ++ x ∧ word.length ≤ b'.readBuf.length := by
  have hsame : readUntil eof (pollParser id p) () b cs =
      readUntil eof (pollParser id (onlyWord word eof a)) () b cs := by
    apply readUntil_congr _ eof () hb hcs
    intro s c hc
    rw [pollParser, pollParser, hp.eq_onlyWord eof hc]
  have hstable := onlyWord_stable word eof a
  have hfound := readUntil_spec (decides_pollParser (f := id) hstable) eof () cs hb trivial
  rw [hcs, hstable.reads_of_complete (onlyWord_self word eof a) x] at hfound
  obtain ⟨b', rest, hok, hall, _, hown⟩ := hfound
  exact ⟨b', rest, hsame.trans hok, hall, (hstable.of_reads hown).2⟩

end Cpxy.Io
