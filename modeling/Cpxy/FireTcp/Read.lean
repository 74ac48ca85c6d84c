import Cpxy.FireTcp.Write
import Cpxy.Io.Reader
import Cpxy.Io.ReadLoop

/-!
# The reading half of the firetcp cipher

Library `FireTcp`. Source `src/protocol/firetcp/cipher/read.rs:11–90`. The first bytes are
decrypted with the initial cipher. The established one takes over behind them, and can be
chosen only before.
-/

namespace Cpxy.FireTcp

open Cpxy.Base Cpxy.Io

/-- `ReadState`; `read.rs:11–14`. -/
inductive ReadState where
  | init (bytesLeft : Nat) (cipher : Cipher)
  | established (cipher : Option Cipher)

/-- `CipherRead`; `read.rs:16–23`. -/
structure CipherRead where
  r : List Chunk
  establishCipher : Option Cipher
  state : ReadState

namespace CipherRead

/-- `CipherRead::new`; `read.rs:30–39`. -/
def new (r : List Chunk) (initialSize : Nat) (initialCipher : Cipher) : CipherRead where
  r := r
  establishCipher := none
  state := .init initialSize initialCipher

/-- `set_establish_cipher`; `read.rs:41–50`. -/
def setEstablishCipher (s : CipherRead) (cipher : Option Cipher) :
    Outcome ErrorChain Unit × CipherRead :=
  match s.state with
  | .established _ => (.err ["Connection already established, too late for cipher change"], s)
  | .init _ _ => (.ok (), { s with establishCipher := cipher })

/-- `poll_read` into a slice with room for so many bytes; `read.rs:54–90`. -/
def pollRead (s : CipherRead) (room : Nat) (blocked : Bool) :
    Poll (Outcome ErrorChain Bytes) × CipherRead :=
  if room = 0 then (.ready (.ok []), s)
  else if blocked then (.pending, s)
  else
    match s.state with
    | .init bytesLeft cipher =>
      let (read, r) := takeChunk (min room bytesLeft) s.r
      let (data, cipher) := cipher.apply read
      if bytesLeft - read.length = 0 then
        (.ready (.ok data), ⟨r, none, .established s.establishCipher⟩)
      else (.ready (.ok data), ⟨r, s.establishCipher, .init (bytesLeft - read.length) cipher⟩)
    | .established (some cipher) =>
      let (read, r) := takeChunk room s.r
      let (data, cipher) := cipher.apply read
      (.ready (.ok data), ⟨r, s.establishCipher, .established (some cipher)⟩)
    | .established none =>
      let (read, r) := takeChunk room s.r
      (.ready (.ok read), ⟨r, s.establishCipher, .established none⟩)

/-- `poll_read` over a stream below that has to wait, or reads up to a limit of its own;
`read.rs:54–90`. -/
def pollReadUpTo (s : CipherRead) (room : Nat) (limit : Option Nat) :
    Poll (Outcome ErrorChain Bytes) × CipherRead :=
  if room = 0 then (.ready (.ok []), s)
  else
    match limit with
    | none => (.pending, s)
    | some limit =>
      match s.state with
      | .init bytesLeft cipher =>
        let (read, r) := takeChunk (min limit (min room bytesLeft)) s.r
        let (data, cipher) := cipher.apply read
        if bytesLeft - read.length = 0 then
          (.ready (.ok data), ⟨r, none, .established s.establishCipher⟩)
        else (.ready (.ok data), ⟨r, s.establishCipher, .init (bytesLeft - read.length) cipher⟩)
      | .established (some cipher) =>
        let (read, r) := takeChunk (min limit room) s.r
        let (data, cipher) := cipher.apply read
        (.ready (.ok data), ⟨r, s.establishCipher, .established (some cipher)⟩)
      | .established none =>
        let (read, r) := takeChunk (min limit room) s.r
        (.ready (.ok read), ⟨r, s.establishCipher, .established none⟩)

/-- The stream below reads all that is there, unless it is blocked. -/
theorem pollRead_eq (s : CipherRead) (room : Nat) (blocked : Bool) :
    s.pollRead room blocked = s.pollReadUpTo room (if blocked then none else some room) := by
  have hmin (left : Nat) : min room (min room left) = min room left := by omega
  unfold pollRead pollReadUpTo
  cases blocked with
  | true => rfl
  | false => simp only [Bool.false_eq_true, if_false, hmin, Nat.min_self]

/-- `read`, awaited. -/
def read (s : CipherRead) (room : Nat) : Outcome ErrorChain (Bytes × CipherRead) :=
  awaited (s.pollRead room false)

/-- The reader has taken the first `k` bytes of the stream, with these keys to come: the cipher
in use is at the position of the next byte. -/
structure ReadAt (n : Nat) (initial : Keystream) (established : Option Keystream) (stream : Bytes)
    (k : Nat) (s : CipherRead) : Prop where
  rest : content s.r = stream.drop k
  state : match s.state with
    | .init left cipher => 0 < left ∧ k + left = n ∧ cipher = ⟨initial, k⟩ ∧
        s.establishCipher = established.map Cipher.new
    | .established cipher => n ≤ k ∧ cipher = established.map fun keys ↦ ⟨keys, k - n⟩

variable {n k : Nat} {initial : Keystream} {established : Option Keystream} {stream : Bytes}
  {s : CipherRead}

theorem readAt_new (hn : 0 < n) (initial : Keystream) (r : List Chunk) :
    ReadAt n initial none (content r) 0 (.new r n (.new initial)) where
  rest := rfl
  state := ⟨hn, Nat.zero_add n, rfl, rfl⟩

/-- A read is decrypted with the keys of its position, however much of what is offered the
stream below reads. -/
theorem ReadAt.pollReadUpTo (h : ReadAt n initial established stream k s) {room : Nat}
    (hroom : 0 < room) (limit : Nat) :
    ∃ offered s', 0 < offered ∧ offered ≤ room ∧
      s.pollReadUpTo room (some limit) =
        (.ready (.ok (xorAt (wireKeys n initial established) k
          (takeChunk (min limit offered) s.r).1)), s') ∧
      ReadAt n initial established stream
        (k + (takeChunk (min limit offered) s.r).1.length) s' := by
  have hst := h.state
  rw [CipherRead.pollReadUpTo, if_neg (by omega)]
  dsimp only
  cases hs : s.state with
  | init left cipher =>
    rw [hs] at hst
    obtain ⟨hleft, hsum, rfl, hest⟩ := hst
    obtain ⟨_, hrest, _⟩ := takeChunk_drop h.rest (min limit (min room left))
    obtain ⟨_, hlen⟩ := takeChunk_spec (min limit (min room left)) s.r
    have hkeys := xorAt_wireKeys_of_le initial established
      (by omega : k + (takeChunk (min limit (min room left)) s.r).1.length ≤ n)
    refine ⟨min room left, ?_⟩
    dsimp only [Cipher.apply]
    rw [← hkeys]
    by_cases hz : left - (takeChunk (min limit (min room left)) s.r).1.length = 0
    · -- the budget is used up: the established cipher takes over, at its position 0
      have hpos : k + (takeChunk (min limit (min room left)) s.r).1.length - n = 0 := by omega
      have hcipher : established.map Cipher.new = established.map fun keys ↦
          ⟨keys, k + (takeChunk (min limit (min room left)) s.r).1.length - n⟩ := by
        rw [hpos]
        rfl
      rw [if_pos hz]
      refine ⟨⟨(takeChunk (min limit (min room left)) s.r).2, none,
        .established s.establishCipher⟩, by omega, Nat.min_le_left _ _, rfl, hrest, by omega, ?_⟩
      rw [hest]
      exact hcipher
    · rw [if_neg hz]
      exact ⟨⟨(takeChunk (min limit (min room left)) s.r).2, s.establishCipher,
        .init (left - _) ⟨_, _⟩⟩, by omega, Nat.min_le_left _ _, rfl, hrest, by omega, by omega,
        rfl, hest⟩
  | established cipher =>
    rw [hs] at hst
    obtain ⟨hge, rfl⟩ := hst
    obtain ⟨_, hrest, _⟩ := takeChunk_drop h.rest (min limit room)
    have hkeys := xorAt_wireKeys_of_ge initial established (takeChunk (min limit room) s.r).1 hge
    have hle : n ≤ k + (takeChunk (min limit room) s.r).1.length := by omega
    refine ⟨room, ?_⟩
    cases established with
    | none =>
      rw [hkeys]
      exact ⟨⟨(takeChunk (min limit room) s.r).2, s.establishCipher, .established none⟩, hroom,
        Nat.le_refl room, rfl, hrest, hle, rfl⟩
    | some keys =>
      have hpos : k - n + (takeChunk (min limit room) s.r).1.length =
          k + (takeChunk (min limit room) s.r).1.length - n := by omega
      dsimp only [Option.map_some, Cipher.apply]
      rw [hkeys, hpos]
      exact ⟨⟨(takeChunk (min limit room) s.r).2, s.establishCipher,
        .established (some ⟨keys, _⟩)⟩, hroom, Nat.le_refl room, rfl, hrest, hle, rfl⟩

/-- The same for a stream below that reads all it can. -/
theorem ReadAt.read_eq (h : ReadAt n initial established stream k s) {room : Nat}
    (hroom : 0 < room) :
    ∃ m s', s.read room =
        .ok (xorAt (wireKeys n initial established) k (takeChunk m s.r).1, s') ∧
      0 < m ∧ m ≤ room ∧
      ReadAt n initial established stream (k + (takeChunk m s.r).1.length) s' := by
  obtain ⟨offered, s', hpos, hle, hpoll, hat⟩ := h.pollReadUpTo hroom room
  have hmin : min room offered = offered := Nat.min_eq_right hle
  rw [hmin] at hpoll hat
  refine ⟨offered, s', ?_, hpos, hle, hat⟩
  rw [read, pollRead_eq, if_neg Bool.false_ne_true, hpoll]
  rfl

/-- Before the last byte under the initial keys is read, an established cipher can be chosen, in
place of one that was. -/
theorem ReadAt.setEstablishCipher_early {before : Option Keystream}
    (h : ReadAt n initial before stream k s) (hk : k < n) (established : Option Keystream) :
    ∃ s', s.setEstablishCipher (established.map Cipher.new) = (.ok (), s') ∧
      ReadAt n initial established stream k s' := by
  have hst := h.state
  cases hs : s.state with
  | established cipher =>
    rw [hs] at hst
    exact absurd hst.1 (by omega)
  | init left cipher =>
    rw [hs] at hst
    obtain ⟨hleft, hsum, hcipher, _⟩ := hst
    refine ⟨{ s with establishCipher := established.map Cipher.new }, ?_, h.rest, ?_⟩
    · rw [setEstablishCipher, hs]
    · rw [hs]
      exact ⟨hleft, hsum, hcipher, rfl⟩

/-- From then on it is too late. -/
theorem ReadAt.setEstablishCipher_late (h : ReadAt n initial established stream k s) (hk : n ≤ k)
    (cipher : Option Cipher) :
    s.setEstablishCipher cipher =
      (.err ["Connection already established, too late for cipher change"], s) := by
  have hst := h.state
  cases hs : s.state with
  | established _ => rw [setEstablishCipher, hs]
  | init left _ =>
    rw [hs] at hst
    exact absurd hst.2.1 (by omega)

/-- A read takes what it decrypts off the stream below. -/
theorem read_shrinks {s' : CipherRead} {room : Nat} {data : Bytes}
    (h : s.read room = .ok (data, s')) (hdata : data ≠ []) :
    (content s'.r).length < (content s.r).length := by
  have htaken : ∃ m, s'.r = (takeChunk m s.r).2 ∧ data.length = (takeChunk m s.r).1.length := by
    rw [read, pollRead] at h
    split at h
    · cases h
      exact absurd rfl hdata
    · rw [if_neg Bool.false_ne_true] at h
      dsimp only [Cipher.apply] at h
      split at h
      · split at h
        · cases h
          exact ⟨_, rfl, length_xorAt _ _⟩
        · cases h
          exact ⟨_, rfl, length_xorAt _ _⟩
      · cases h
        exact ⟨_, rfl, length_xorAt _ _⟩
      · cases h
        exact ⟨_, rfl, rfl⟩
  obtain ⟨m, hr, hlen⟩ := htaken
  have hall := congrArg List.length (takeChunk_spec m s.r).1
  have hpos := List.length_pos_iff.mpr hdata
  rw [List.length_append, ← hr, ← hlen] at hall
  omega

/-- The decrypting half as a reader. -/
def reader : Reader ErrorChain CipherRead where
  read := read
  left s := (content s.r).length
  shrinks := read_shrinks

/-- It delivers what the other half was given. -/
theorem delivers (n : Nat) (initial : Keystream) (established : Option Keystream) (stream : Bytes) :
    reader.Delivers (xorAt (wireKeys n initial established) 0 stream)
      (ReadAt n initial established stream) where
  read := by
    intro k s h room
    by_cases hroom : 0 < room
    · obtain ⟨m, s', hread, hm, hle, hat⟩ := h.read_eq hroom
      obtain ⟨hpre, _, hend⟩ := takeChunk_drop h.rest m
      obtain ⟨_, hlen⟩ := takeChunk_spec m s.r
      refine ⟨_, s', hread, ?_, ?_, ?_, ?_⟩
      · rw [drop_xorAt, Nat.zero_add]
        obtain ⟨rest, hrest⟩ := hpre
        rw [← hrest, xorAt_append]
        exact List.prefix_append _ _
      · rw [length_xorAt]
        omega
      · rw [length_xorAt]
        exact hat
      · intro _ hnil
        have hzero := congrArg List.length hnil
        rw [length_xorAt] at hzero
        rw [length_xorAt]
        exact hend hm (List.eq_nil_of_length_eq_zero hzero)
    · have hzero : room = 0 := by omega
      refine ⟨[], s, ?_, List.nil_prefix, Nat.zero_le _, h, fun hpos ↦ absurd hpos hroom⟩
      rw [hzero]
      rfl

end CipherRead
end Cpxy.FireTcp
