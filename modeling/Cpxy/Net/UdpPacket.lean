import Cpxy.Net.AddressCodec

/-!
# SOCKS5 datagrams

Library `Net`. Source `src/socks5/udp.rs:7–97`. A datagram is a reserved word, a fragment
number, an address and the payload. It is checked once, and the offset of the payload kept; the
accessors parse the header again and unwrap what they find.
-/

namespace Cpxy.Net

open Cpxy.Base

/-- `UdpPacket`; `udp.rs:7–10`. -/
structure UdpPacket where
  buf : Bytes
  dataOffset : Nat
  deriving DecidableEq, Repr

namespace UdpPacket

/-- `new_checked`; `udp.rs:29–51`. -/
def newChecked (buf : Bytes) : Outcome ErrorChain UdpPacket := do
  let (rsv, b) ← Cursor.readExact ["Reading RSV", "failed to fill whole buffer"] 2 buf
  if ofBE rsv ≠ 0 then .err ["RSV is not 0"]
  else do
    let (_, b) ← Cursor.readExact ["Reading frag_no", "failed to fill whole buffer"] 1 b
    match ← (Address.parse b).mapErr fun e ↦ ["Parsing address", parseErrorText e] with
    | none => .err ["Parsing address"]
    | some (offset, _) => .ok ⟨buf, 2 + 1 + offset⟩

/-- `frag_no`; `udp.rs:53–55`. -/
def fragNo (p : UdpPacket) : Outcome ErrorChain UInt8 := .unwrap p.buf[2]?

/-- `addr`; `udp.rs:57–62`. -/
def addr (p : UdpPacket) : Outcome ErrorChain Address := do
  let header ← slice p.buf 3 p.dataOffset
  match Address.parse header with
  | .ok parsed => do
    let (_, addr) ← .unwrap parsed
    .ok addr
  | _ => .panicked

/-- `payload`; `udp.rs:64–66`. -/
def payload (p : UdpPacket) : Outcome ErrorChain Bytes := slice p.buf p.dataOffset p.buf.length

/-- `payload_bytes`; `udp.rs:70–72`: the same slice, of a shared buffer. -/
def payloadBytes (p : UdpPacket) : Outcome ErrorChain Bytes :=
  slice p.buf p.dataOffset p.buf.length

end UdpPacket

/-- `UdpRepr`; `udp.rs:75–79`. -/
structure UdpRepr where
  addr : Address
  payload : Bytes
  fragNo : UInt8
  deriving DecidableEq, Repr

namespace UdpRepr

/-- `header_write_len`; `udp.rs:82–84`. -/
def headerWriteLen (r : UdpRepr) : Nat := 3 + r.addr.writeLen

/-- `write_len`; `udp.rs:86–88`. -/
def writeLen (r : UdpRepr) : Nat := r.headerWriteLen + r.payload.length

/-- `to_packet`; `udp.rs:90–98`. Writing to a byte vector does not fail of itself. -/
def toPacket (r : UdpRepr) : Outcome ErrorChain UdpPacket := do
  let addr ← r.addr.writeTo
  UdpPacket.newChecked (toBE 2 0 ++ [r.fragNo] ++ addr ++ r.payload)

end UdpRepr

/-! ### Checked packets -/

namespace UdpPacket

/-- A packet in parts: its header is read back from the offsets that are kept. -/
structure Checked (p : UdpPacket) (fragNo : UInt8) (addr : Address) : Prop where
  word : p.buf.take 3 = [0, 0, fragNo]
  offset : 3 ≤ p.dataOffset
  parsed : Address.parse (p.buf.drop 3) = .ok (some (p.dataOffset - 3, addr))

variable {buf : Bytes} {p : UdpPacket} {fragNo : UInt8} {addr : Address}

theorem newChecked_of_short (h : buf.length < 3) : ∃ e, newChecked buf = .err e := by
  match buf, h with
  | [], _ => exact ⟨_, rfl⟩
  | [_], _ => exact ⟨_, rfl⟩
  | [x, y], _ =>
    show ∃ e, (if ofBE [x, y] ≠ 0 then _ else _) = Outcome.err e
    by_cases hrsv : ofBE [x, y] ≠ 0
    · rw [if_pos hrsv]
      exact ⟨_, rfl⟩
    · rw [if_neg hrsv]
      exact ⟨_, rfl⟩

/-- A buffer that has a reserved word and a fragment number is checked by its address. -/
theorem newChecked_cons (x y fragNo : UInt8) (b : Bytes) :
    newChecked (x :: y :: fragNo :: b) =
      if x = 0 ∧ y = 0 then
        match Address.parse b with
        | .ok (some (offset, _)) => .ok ⟨x :: y :: fragNo :: b, 3 + offset⟩
        | .ok none => .err ["Parsing address"]
        | .err e => .err ["Parsing address", parseErrorText e]
        | .panicked => .panicked
      else .err ["RSV is not 0"] := by
  have hzero : ofBE [x, y] = 0 ↔ x = 0 ∧ y = 0 := by
    simp [ofBE, ← UInt8.toNat_inj]
  have hword : Cursor.readExact ["Reading RSV", "failed to fill whole buffer"] 2
      (x :: y :: fragNo :: b) = .ok ([x, y], fragNo :: b) := rfl
  have hfrag : Cursor.readExact ["Reading frag_no", "failed to fill whole buffer"] 1
      (fragNo :: b) = .ok ([fragNo], b) := rfl
  rw [newChecked, hword, Outcome.ok_bind]
  dsimp only
  by_cases h : x = 0 ∧ y = 0
  · rw [if_neg (not_not.mpr (hzero.mpr h)), if_pos h, hfrag, Outcome.ok_bind]
    cases Address.parse b with
    | ok parsed => cases parsed <;> rfl
    | err e => rfl
    | panicked => rfl
  · rw [if_pos (hzero.not.mpr h), if_neg h]

/-- What is accepted is what can be read back. -/
theorem newChecked_eq_ok_iff :
    newChecked buf = .ok p ↔ p.buf = buf ∧ ∃ fragNo addr, p.Checked fragNo addr := by
  by_cases hlen : buf.length < 3
  · obtain ⟨e, he⟩ := newChecked_of_short hlen
    rw [he]
    constructor
    · intro h
      cases h
    · rintro ⟨rfl, fragNo, addr, hc⟩
      have hword := congrArg List.length hc.word
      rw [List.length_take, List.length_cons] at hword
      simp at hword
      omega
  · match buf, hlen with
    | [], h => exact absurd (by simp) h
    | [_], h => exact absurd (by simp) h
    | [_, _], h => exact absurd (by simp) h
    | x :: y :: fragNo :: b, _ =>
      rw [newChecked_cons]
      constructor
      · intro h
        split at h
        · next hzero =>
          split at h <;> cases h
          next offset addr hparse =>
            refine ⟨rfl, fragNo, addr, ?_, ?_, ?_⟩
            · simp [hzero]
            · simp
            · simpa using hparse
        · cases h
      · rintro ⟨hbuf, fragNo', addr, hc⟩
        have hword := hc.word
        have hparsed := hc.parsed
        rw [hbuf] at hword hparsed
        simp only [List.take_succ_cons, List.take_zero, List.cons.injEq, and_true] at hword
        simp only [List.drop_succ_cons, List.drop_zero] at hparsed
        have hoffset := hc.offset
        have hsum : 3 + (p.dataOffset - 3) = p.dataOffset := by omega
        rw [if_pos ⟨hword.1, hword.2.1⟩, hparsed]
        dsimp only
        rw [hsum, ← hbuf]

/-- The header ends within the packet. -/
theorem Checked.dataOffset_le (h : p.Checked fragNo addr) : p.dataOffset ≤ p.buf.length := by
  have hword := congrArg List.length h.word
  have hle := (Address.parse_stable.complete _ _ _ h.parsed).1
  have hoffset := h.offset
  rw [List.length_take] at hword
  rw [List.length_drop] at hle
  simp at hword
  omega

theorem Checked.fragNo_eq (h : p.Checked fragNo addr) : p.fragNo = .ok fragNo := by
  have hget : p.buf[2]? = some fragNo := by
    rw [← List.getElem?_take_of_lt (show 2 < 3 by decide), h.word]
    rfl
  rw [UdpPacket.fragNo, hget, Outcome.unwrap_some]

/-- The bytes between the offsets are those that the address was read from. -/
theorem Checked.addr_eq (h : p.Checked fragNo addr) : p.addr = .ok addr := by
  have hexact := Address.parse_exact _ _ _ h.parsed
  rw [← List.drop_take] at hexact
  rw [UdpPacket.addr, slice_of_le h.offset h.dataOffset_le, Outcome.ok_bind, hexact]
  rfl

theorem Checked.payload_eq (h : p.Checked fragNo addr) :
    p.payload = .ok (p.buf.drop p.dataOffset) := by
  rw [payload, slice_of_le h.dataOffset_le (Nat.le_refl _), List.take_length]

end UdpPacket

/-! ### Encoding -/

namespace UdpRepr

variable {r : UdpRepr}

/-- The packet of a name that has no length byte is not made. -/
theorem toPacket_of_long (h : r.addr.LongName) : ∃ e, r.toPacket = .err e := by
  obtain ⟨addr, payload, fragNo⟩ := r
  match addr, h with
  | .name host port, h =>
    have hlong : ¬ (asBytes host).length ≤ 255 := Nat.not_le.mpr h
    refine ⟨["out of range integral type conversion attempted"], ?_⟩
    rw [toPacket, Address.writeTo, if_neg hlong, Outcome.err_bind]

/-- Every other packet is made and checked, with the payload behind the header. -/
theorem toPacket_of_short (h : ¬ r.addr.LongName) :
    ∃ p, r.toPacket = .ok p ∧ p.Checked r.fragNo r.addr.norm ∧ p.buf.length = r.writeLen ∧
      p.buf.drop p.dataOffset = r.payload := by
  obtain ⟨hwrite, _⟩ := Address.writeTo_of_short h
  have hlen := Address.length_writeInto h
  have hparse := Address.parse_writeInto h r.payload
  have hbytes : toBE 2 0 ++ [r.fragNo] ++ r.addr.writeInto.bytes ++ r.payload =
      0 :: 0 :: r.fragNo :: (r.addr.writeInto.bytes ++ r.payload) := by
    simp [toBE]
  refine ⟨⟨0 :: 0 :: r.fragNo :: (r.addr.writeInto.bytes ++ r.payload), 3 + r.addr.writeLen⟩,
    ?_, ?_, ?_, ?_⟩
  · rw [toPacket, hwrite, Outcome.ok_bind, hbytes, UdpPacket.newChecked_cons,
      if_pos ⟨rfl, rfl⟩, hparse]
  · constructor
    · rfl
    · simp
    · simpa using hparse
  · simp only [List.length_cons, List.length_append, hlen, writeLen, headerWriteLen]
    omega
  · simp [Nat.add_comm 3, ← hlen]

end UdpRepr

/-- A packet that was accepted is its header and its payload, and the accessors read them without
a panic. A packet is made of anything whose address has an encoding, has the announced length,
and is read back to what it was made of, as far as the wire carries the address. -/
theorem packets_read_back :
    (∀ buf p, UdpPacket.newChecked buf = .ok p →
      ∃ fragNo n addr header payload,
        p.fragNo = .ok fragNo ∧ p.addr = .ok addr ∧
        p.payload = .ok payload ∧ p.payloadBytes = .ok payload ∧
        header ++ payload = buf ∧ header.length = 3 + n ∧ header.take 3 = [0, 0, fragNo] ∧
        Address.parse (buf.drop 3) = .ok (some (n, addr))) ∧
    ∀ r : UdpRepr,
      ((∃ e, r.toPacket = .err e) ↔ r.addr.LongName) ∧
      (¬ r.addr.LongName →
        ∃ p, r.toPacket = .ok p ∧ p.buf.length = r.writeLen ∧ p.fragNo = .ok r.fragNo ∧
          p.payload = .ok r.payload ∧ p.payloadBytes = .ok r.payload ∧
          p.addr = .ok r.addr.norm) := by
  constructor
  · intro buf p h
    obtain ⟨rfl, fragNo, addr, hc⟩ := UdpPacket.newChecked_eq_ok_iff.mp h
    have hoffset := hc.offset
    have hlen : (p.buf.take p.dataOffset).length = p.dataOffset :=
      List.length_take_of_le hc.dataOffset_le
    have hword : (p.buf.take p.dataOffset).take 3 = [0, 0, fragNo] := by
      rw [List.take_take, Nat.min_eq_left hoffset]
      exact hc.word
    exact ⟨fragNo, p.dataOffset - 3, addr, p.buf.take p.dataOffset, p.buf.drop p.dataOffset,
      hc.fragNo_eq, hc.addr_eq, hc.payload_eq, hc.payload_eq, List.take_append_drop _ _,
      by omega, hword, hc.parsed⟩
  · intro r
    constructor
    · constructor
      · rintro ⟨e, he⟩
        by_contra hshort
        obtain ⟨p, hp, _⟩ := UdpRepr.toPacket_of_short hshort
        rw [hp] at he
        cases he
      · exact UdpRepr.toPacket_of_long
    · intro hshort
      obtain ⟨p, hp, hc, hlen, hpayload⟩ := UdpRepr.toPacket_of_short hshort
      have hback := hc.payload_eq
      rw [hpayload] at hback
      exact ⟨p, hp, hlen, hc.fragNo_eq, hback, hback, hc.addr_eq⟩

end Cpxy.Net
