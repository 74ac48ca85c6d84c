import Cpxy.Base.Run
import Cpxy.FireTcp.Read

/-!
# Schedules of reads

Library `FireTcp`. Source `src/protocol/firetcp/cipher/read.rs:25–90`. Polls with slices of any
size, over a stream below that has to wait or reads what it likes, and choices of an
established cipher, in any order.
-/

namespace Cpxy.FireTcp

open Cpxy.Base Cpxy.Io

namespace CipherRead

/-- One call on the reader: a read into a slice of some size, over a stream below that has to
wait or reads up to a limit, or the choice of an established cipher. -/
inductive Event where
  | poll (room : Nat) (limit : Option Nat)
  | setEstablish (keys : Option Keystream)

/-- The reader with what its callers have got, and the keys of the established cipher that was
last accepted. -/
structure Run where
  reader : CipherRead
  got : Bytes
  established : Option Keystream

namespace Run

/-- A new reader, nothing read. -/
def start (n : Nat) (keys : Keystream) (cs : List Chunk) : Run where
  reader := .new cs n (.new keys)
  got := []
  established := none

/-- One call. -/
def step (r : Run) : Event → Run
  | .poll room limit =>
    match r.reader.pollReadUpTo room limit with
    | (.ready (.ok data), reader) => { r with reader := reader, got := r.got ++ data }
    | (_, reader) => { r with reader := reader }
  | .setEstablish keys =>
    match r.reader.setEstablishCipher (keys.map Cipher.new) with
    | (.ok _, reader) => { r with reader := reader, established := keys }
    | (_, reader) => { r with reader := reader }

end Run

/-- What a call owes: what was read so far is the wire with the keys of its positions, and the
rest of the wire is still to come; an established cipher is accepted before the initial keys
are used up, and refused without a change from then on; and a read gives nothing, to a slice
that has room, only if the stream below does. -/
structure Exact (n : Nat) (initial : Keystream) (wire : Bytes) (r : Run) (e : Event) : Prop where
  got : (r.step e).got =
    expectedWire n initial (r.step e).established (wire.take (r.step e).got.length)
  rest : content (r.step e).reader.r = wire.drop (r.step e).got.length
  early : ∀ keys, e = .setEstablish keys → r.got.length < n →
    (r.reader.setEstablishCipher (keys.map Cipher.new)).1 = .ok () ∧ (r.step e).established = keys
  late : ∀ keys, e = .setEstablish keys → n ≤ r.got.length →
    r.reader.setEstablishCipher (keys.map Cipher.new) =
      (.err ["Connection already established, too late for cipher change"], r.reader)
  returns : ∀ room limit, e = .poll room limit → 0 < room →
    (limit = none ∧ r.reader.pollReadUpTo room limit = (.pending, r.reader)) ∨
      ∃ up data reader, limit = some up ∧
        r.reader.pollReadUpTo room limit = (.ready (.ok data), reader) ∧
        (data = [] → up = 0 ∨ r.reader.r = [])

/-- The reader is in step with what it has read. -/
def InStep (n : Nat) (initial : Keystream) (wire : Bytes) (r : Run) : Prop :=
  r.got.length ≤ wire.length ∧
    r.got = xorAt (wireKeys n initial r.established) 0 (wire.take r.got.length) ∧
    ReadAt n initial r.established wire r.got.length r.reader

section Schedules

variable {n : Nat} {initial : Keystream} {wire : Bytes} {r : Run}

theorem inStep_start (hn : 0 < n) (initial : Keystream) (cs : List Chunk) :
    InStep n initial (content cs) (.start n initial cs) :=
  ⟨Nat.zero_le _, rfl, readAt_new hn initial cs⟩

private theorem Run.step_poll_zero (limit : Option Nat) : r.step (.poll 0 limit) = r := by
  simp [Run.step, CipherRead.pollReadUpTo]

private theorem Run.step_poll_none (room : Nat) : r.step (.poll room none) = r := by
  by_cases hroom : room = 0
  · rw [hroom, Run.step_poll_zero]
  · simp [Run.step, CipherRead.pollReadUpTo, hroom]

/-- What is read next comes after what was read. -/
private theorem InStep.got_append (h : InStep n initial wire r) {data : Bytes}
    (hdata : data <+: wire.drop r.got.length) :
    r.got.length + data.length ≤ wire.length ∧
      r.got ++ xorAt (wireKeys n initial r.established) r.got.length data =
        xorAt (wireKeys n initial r.established) 0
          (wire.take (r.got.length + data.length)) := by
  obtain ⟨hle, hgot, _⟩ := h
  have hlen := hdata.length_le
  have htake : data = (wire.drop r.got.length).take data.length :=
    List.prefix_iff_eq_take.mp hdata
  have hprev : (wire.take r.got.length).length = r.got.length := List.length_take_of_le hle
  rw [List.length_drop] at hlen
  refine ⟨by omega, ?_⟩
  rw [List.take_add, ← htake, xorAt_append, hprev, ← hgot, Nat.zero_add]

/-- A read keeps the reader in step. -/
theorem InStep.poll (h : InStep n initial wire r) (room : Nat) (limit : Option Nat) :
    InStep n initial wire (r.step (.poll room limit)) := by
  by_cases hroom : room = 0
  · rwa [hroom, Run.step_poll_zero]
  cases limit with
  | none => rwa [Run.step_poll_none]
  | some limit =>
    obtain ⟨offered, s', _, _, hpoll, hat⟩ :=
      h.2.2.pollReadUpTo (Nat.pos_of_ne_zero hroom) limit
    obtain ⟨hpre, _, _⟩ := takeChunk_drop h.2.2.rest (min limit offered)
    obtain ⟨hle, hgot⟩ := h.got_append hpre
    have hstep : r.step (.poll room (some limit)) =
        { r with
          reader := s'
          got := r.got ++ xorAt (wireKeys n initial r.established) r.got.length
            (takeChunk (min limit offered) r.reader.r).1 } := by
      simp only [Run.step, hpoll]
    rw [hstep]
    refine ⟨?_, ?_, ?_⟩
    · rwa [List.length_append, length_xorAt]
    · rw [List.length_append, length_xorAt]
      exact hgot
    · rw [List.length_append, length_xorAt]
      exact hat

/-- A choice before the last byte under the initial keys takes the place of the one before. -/
theorem InStep.setEstablish_early (h : InStep n initial wire r) (hk : r.got.length < n)
    (keys : Option Keystream) :
    ∃ s', r.step (.setEstablish keys) = { r with reader := s', established := keys } ∧
      InStep n initial wire { r with reader := s', established := keys } := by
  obtain ⟨hle, hgot, hat⟩ := h
  obtain ⟨s', hset, hat'⟩ := hat.setEstablishCipher_early hk keys
  have hfits : 0 + (wire.take r.got.length).length ≤ n := by
    rw [List.length_take]
    omega
  refine ⟨s', ?_, hle, ?_, hat'⟩
  · simp only [Run.step, hset]
  · -- all that was read is under the initial keys
    rw [xorAt_wireKeys_of_le _ _ hfits] at hgot ⊢
    exact hgot

/-- From then on a choice changes nothing. -/
theorem InStep.setEstablish_late (h : InStep n initial wire r) (hk : n ≤ r.got.length)
    (keys : Option Keystream) : r.step (.setEstablish keys) = r := by
  simp only [Run.step, h.2.2.setEstablishCipher_late hk]

/-- Every call keeps the reader in step. -/
theorem InStep.step (h : InStep n initial wire r) (e : Event) :
    InStep n initial wire (r.step e) := by
  cases e with
  | poll room limit => exact h.poll room limit
  | setEstablish keys =>
    by_cases hk : r.got.length < n
    · obtain ⟨_, hstep, h'⟩ := h.setEstablish_early hk keys
      rwa [hstep]
    · rwa [h.setEstablish_late (by omega)]

/-- A read into a slice that has room waits only if the stream below does, and comes back with
nothing only if that gives nothing. -/
theorem InStep.returns (h : InStep n initial wire r) {room : Nat} (hroom : 0 < room)
    (limit : Option Nat) :
    (limit = none ∧ r.reader.pollReadUpTo room limit = (.pending, r.reader)) ∨
      ∃ up data reader, limit = some up ∧
        r.reader.pollReadUpTo room limit = (.ready (.ok data), reader) ∧
        (data = [] → up = 0 ∨ r.reader.r = []) := by
  cases limit with
  | none =>
    refine .inl ⟨rfl, ?_⟩
    rw [CipherRead.pollReadUpTo, if_neg (by omega)]
  | some up =>
    obtain ⟨offered, s', hpos, _, hpoll, _⟩ := h.2.2.pollReadUpTo hroom up
    refine .inr ⟨up, _, s', rfl, hpoll, ?_⟩
    intro hnil
    have hlen := congrArg List.length hnil
    rw [length_xorAt, List.length_nil] at hlen
    by_cases hup : up = 0
    · exact .inl hup
    · exact .inr (takeChunk_eq_nil (by omega) (List.eq_nil_of_length_eq_zero hlen))

/-- A call on a reader that is in step keeps its obligations. -/
theorem InStep.exact (h : InStep n initial wire r) (e : Event) : Exact n initial wire r e where
  got := by
    obtain ⟨_, hgot, _⟩ := h.step e
    rw [expectedWire_eq]
    exact hgot
  rest := (h.step e).2.2.rest
  early := by
    intro keys he hk
    obtain ⟨_, hset, _⟩ := h.2.2.setEstablishCipher_early hk keys
    obtain ⟨_, hstep, _⟩ := h.setEstablish_early hk keys
    rw [he, hstep, hset]
    exact ⟨rfl, rfl⟩
  late := by
    intro keys _ hk
    exact h.2.2.setEstablishCipher_late hk _
  returns := by
    intro room limit _ hroom
    exact h.returns hroom limit

/-- Whatever the schedule of reads and choices, every byte of the wire is decrypted with the key
of its position. -/
theorem decrypts_by_position (hn : 0 < n) (initial : Keystream) (cs : List Chunk)
    (events : List Event) :
    Along Run.step (Exact n initial (content cs)) (.start n initial cs) events := by
  refine along_of_invariant ?_ ?_ (inStep_start hn initial cs) events
  · intro r e h
    exact h.step e
  · intro r e h
    exact h.exact e

private def fiveBytes : List Chunk := [⟨[1, 2, 3, 4, 5], by simp⟩]

/-- Three bytes are under the initial keys, and the second read stops there. -/
private def boundaryReads : List Event :=
  [.poll 2 (some 2), .setEstablish (some fun pos ↦ UInt8.ofNat (16 * (pos + 1))), .poll 4 none,
    .poll 4 (some 9), .setEstablish none, .poll 4 (some 9)]

theorem decrypts_by_position_boundary :
    (runFrom Run.step (.start 3 (fun _ ↦ 255) fiveBytes) boundaryReads).got =
        [254, 253, 252, 20, 37] ∧
      Along Run.step (Exact 3 (fun _ ↦ 255) (content fiveBytes))
        (.start 3 (fun _ ↦ 255) fiveBytes) boundaryReads :=
  ⟨by decide, decrypts_by_position (by decide) _ _ _⟩

end Schedules

end CipherRead
end Cpxy.FireTcp
