import Cpxy.Net.Address

/-!
# Datagrams over a byte stream

Library `TcpMan`. Source `src/protocol/tcpman/udp_stream.rs:16–206` and
`src/protocol/tcpman/dgram.rs:9–29`. A packet is a type byte, a payload length, an
address and the payload. Writer and reader each remember the last address, and a packet
to the same address leaves it out.
-/

namespace Cpxy.TcpMan

open Cpxy.Base Cpxy.Net

/-- `PacketType`; `udp_stream.rs:23–30`. -/
inductive PacketType where
  | payloadOnly
  | withV4Addr
  | withV6Addr
  | withDomainName
  deriving DecidableEq, Repr

namespace PacketType

/-- The discriminants of `udp_stream.rs:26–29`. -/
def toU8 : PacketType → UInt8
  | .payloadOnly => 1
  | .withV4Addr => 2
  | .withV6Addr => 3
  | .withDomainName => 4

/-- The derived `FromPrimitive::from_u8`. -/
def fromU8 (v : UInt8) : Option PacketType :=
  if v = 1 then some .payloadOnly
  else if v = 2 then some .withV4Addr
  else if v = 3 then some .withV6Addr
  else if v = 4 then some .withDomainName
  else none

@[simp] theorem fromU8_toU8 (t : PacketType) : fromU8 t.toU8 = some t := by
  cases t <;> rfl

end PacketType

/-- `PacketReader`; `udp_stream.rs:32–34`. -/
structure PacketReader where
  lastReceived : Option Address
  deriving DecidableEq, Repr

/-- `PacketWriter`; `udp_stream.rs:140–142`. -/
structure PacketWriter where
  lastSent : Option Address
  deriving DecidableEq, Repr

private def eofIn (ctx : String) : ErrorChain := [ctx, "unexpected end of file"]

private def readSocket (octets : Nat) (mk : Nat → IpAddr) (payloadLen : Nat) :
    Cursor ErrorChain (Bytes × Address) := do
  let data ← Cursor.readExact (eofIn "Reading payload") (payloadLen + (octets + 2))
  let (n, port) ← Cursor.onBytes data do
    let n ← Cursor.getBE octets
    let port ← Cursor.getU16
    pure (n, port)
  pure (data.drop (octets + 2), .ip (SocketAddr.new (mk n) port))

private def readName (payloadLen : Nat) : Cursor ErrorChain (Bytes × Address) := do
  let hostLen ← Cursor.readExact (eofIn "Read host len") 2
  let hostLen := ofBE hostLen
  let data ← Cursor.readExact (eofIn "Reading payload") (hostLen + 2 + payloadLen)
  match fromUtf8 (data.take hostLen) with
  | none => Cursor.throw ["Converting host name"]
  | some host => do
    let port ← Cursor.onBytes (data.drop hostLen) Cursor.getU16
    pure (data.drop (hostLen + 2), .name host port)

private def readAddressed (t : PacketType) (payloadLen : Nat) (last : Option Address) :
    Cursor ErrorChain (Bytes × Address) :=
  match t with
  | .payloadOnly => do
    let payload ← Cursor.readExact (eofIn "Reading payload") payloadLen
    match last with
    | some addr => pure (payload, addr)
    | none => Cursor.throw ["Getting last address"]
  | .withV4Addr => readSocket 4 (fun n ↦ .v4 (Ipv4Addr.ofNat n)) payloadLen
  | .withV6Addr => readSocket 16 (fun n ↦ .v6 (Ipv6Addr.ofNat n)) payloadLen
  | .withDomainName => readName payloadLen

private def readHeader : Cursor ErrorChain (PacketType × Nat) := do
  let hdrs ← Cursor.readExact (eofIn "Read headers") 3
  let (kind, payloadLen) ← Cursor.onBytes hdrs do
    let kind ← Cursor.getU8
    let payloadLen ← Cursor.getU16
    pure (kind, payloadLen.toNat)
  match PacketType.fromU8 kind with
  | none => Cursor.throw ["Convert payload type"]
  | some t => pure (t, payloadLen)

namespace PacketReader

/-- `PacketReader::new` and `new_with_initial_addr`; `udp_stream.rs:46–56`. -/
def new (addr : Option Address) : PacketReader := ⟨addr⟩

/-- `PacketReader::read`; `udp_stream.rs:58–136`: the payload with its address, and the
reader that remembers that address. -/
def read (r : PacketReader) : Cursor ErrorChain ((Bytes × Address) × PacketReader) := do
  let (t, payloadLen) ← readHeader
  let packet ← readAddressed t payloadLen r.lastReceived
  pure (packet, ⟨some packet.2⟩)

private theorem shrinks_readAddressed (t : PacketType) (n : Nat) (last : Option Address) :
    Cursor.Shrinks (readAddressed t n last) := by
  have hsock (octets : Nat) (mk : Nat → IpAddr) : Cursor.Shrinks (readSocket octets mk n) :=
    Cursor.Shrinks.bind (Cursor.Shrinks.readExact _ _) fun _ ↦
      Cursor.Shrinks.bind (Cursor.Shrinks.onBytes _ _) fun _ ↦ Cursor.Shrinks.pure _
  cases t with
  | payloadOnly =>
    refine Cursor.Shrinks.bind (Cursor.Shrinks.readExact _ _) fun payload ↦ ?_
    cases last with
    | none => exact Cursor.Shrinks.throw _
    | some addr => exact Cursor.Shrinks.pure _
  | withV4Addr => exact hsock 4 fun n ↦ .v4 (Ipv4Addr.ofNat n)
  | withV6Addr => exact hsock 16 fun n ↦ .v6 (Ipv6Addr.ofNat n)
  | withDomainName =>
    refine Cursor.Shrinks.bind (Cursor.Shrinks.readExact _ _) fun hostLen ↦ ?_
    refine Cursor.Shrinks.bind (Cursor.Shrinks.readExact _ _) fun data ↦ ?_
    cases fromUtf8 (data.take (ofBE hostLen)) with
    | none => exact Cursor.Shrinks.throw _
    | some host =>
      exact Cursor.Shrinks.bind (Cursor.Shrinks.onBytes _ _) fun port ↦ Cursor.Shrinks.pure _

/-- A successful read takes at least the three header bytes. -/
theorem read_consumes {r r' : PacketReader} {input rest : Bytes} {packet : Bytes × Address}
    (h : r.read input = .ok ((packet, r'), rest)) : rest.length < input.length := by
  obtain ⟨⟨⟨t, n⟩, b⟩, hh, ht⟩ := Outcome.bind_eq_ok_iff.mp h
  obtain ⟨⟨hdrs, b'⟩, h3, hb⟩ := Outcome.bind_eq_ok_iff.mp hh
  have hshort := Cursor.readExact_length h3
  have htail : b.length ≤ b'.length := by
    refine Cursor.Shrinks.bind (Cursor.Shrinks.onBytes _ _) (fun ⟨kind, n⟩ ↦ ?_) b' _ b hb
    dsimp only
    cases PacketType.fromU8 kind with
    | none => exact Cursor.Shrinks.throw _
    | some t => exact Cursor.Shrinks.pure _
  have hrest := Cursor.Shrinks.bind (shrinks_readAddressed t n r.lastReceived)
    (fun packet ↦ Cursor.Shrinks.pure (packet, (⟨some packet.2⟩ : PacketReader))) b _ rest ht
  omega

private theorem persists_readAddressed (t : PacketType) (n : Nat) (last : Option Address) :
    Cursor.Persists (readAddressed t n last) := by
  have hsock (octets : Nat) (mk : Nat → IpAddr) : Cursor.Persists (readSocket octets mk n) :=
    Cursor.Persists.bind (Cursor.Persists.readExact _ _) fun _ ↦
      Cursor.Persists.bind (Cursor.Persists.onBytes _ _) fun _ ↦ Cursor.Persists.pure _
  cases t with
  | payloadOnly =>
    refine Cursor.Persists.bind (Cursor.Persists.readExact _ _) fun payload ↦ ?_
    cases last with
    | none => exact Cursor.Persists.throw _
    | some addr => exact Cursor.Persists.pure _
  | withV4Addr => exact hsock 4 fun n ↦ .v4 (Ipv4Addr.ofNat n)
  | withV6Addr => exact hsock 16 fun n ↦ .v6 (Ipv6Addr.ofNat n)
  | withDomainName =>
    refine Cursor.Persists.bind (Cursor.Persists.readExact _ _) fun hostLen ↦ ?_
    refine Cursor.Persists.bind (Cursor.Persists.readExact _ _) fun data ↦ ?_
    cases fromUtf8 (data.take (ofBE hostLen)) with
    | none => exact Cursor.Persists.throw _
    | some host =>
      exact Cursor.Persists.bind (Cursor.Persists.onBytes _ _) fun port ↦ Cursor.Persists.pure _

/-- A packet that can be read stays the same when more bytes follow. -/
theorem read_persists (r : PacketReader) : Cursor.Persists r.read := by
  refine Cursor.Persists.bind ?_ fun ⟨t, n⟩ ↦ ?_
  · refine Cursor.Persists.bind (Cursor.Persists.readExact _ _) fun hdrs ↦ ?_
    refine Cursor.Persists.bind (Cursor.Persists.onBytes _ _) fun ⟨kind, n⟩ ↦ ?_
    dsimp only
    cases PacketType.fromU8 kind with
    | none => exact Cursor.Persists.throw _
    | some t => exact Cursor.Persists.pure _
  · exact Cursor.Persists.bind (persists_readAddressed t n r.lastReceived) fun packet ↦
      Cursor.Persists.pure _

/-- The loop of `create_udp_stream`; `dgram.rs:18–28`: packets up to the first error, that
error, and what the failing read was given. -/
def readAll (r : PacketReader) (input : Bytes) :
    List (Bytes × Address) × Outcome ErrorChain Unit × Bytes :=
  match _h : r.read input with
  | .ok ((packet, r'), rest) =>
    let tail := readAll r' rest
    (packet :: tail.1, tail.2)
  | .err e => ([], .err e, input)
  | .panicked => ([], .panicked, input)
termination_by input.length
decreasing_by exact read_consumes _h

end PacketReader

/-- The header of a packet: type, payload length, and the address unless it is left out. -/
def packetHeader (payloadLen : Nat) : Option Address → Outcome ErrorChain Bytes
  | none => .ok (PacketType.payloadOnly.toU8 :: toBE 2 payloadLen)
  | some (.ip (.v4 ip port)) =>
    .ok (PacketType.withV4Addr.toU8 :: (toBE 2 payloadLen ++ (ip.octets ++ toBE 2 port.toNat)))
  | some (.ip (.v6 ip port _ _)) =>
    .ok (PacketType.withV6Addr.toU8 :: (toBE 2 payloadLen ++ (ip.octets ++ toBE 2 port.toNat)))
  | some (.name host port) =>
    if (asBytes host).length ≤ 65535 then
      .ok (PacketType.withDomainName.toU8 :: (toBE 2 payloadLen ++
        (toBE 2 (asBytes host).length ++ (asBytes host ++ toBE 2 port.toNat))))
    else .err ["Converting name len to u16 int", "out of range integral type conversion attempted"]

namespace PacketWriter

/-- `PacketWriter::new`; `udp_stream.rs:145–147`. -/
def new : PacketWriter := ⟨none⟩

/-- `PacketWriter::write`; `udp_stream.rs:149–205`: the result, the writer afterwards and
the bytes written. The address is remembered before its length is checked. -/
def write (w : PacketWriter) (addr : Address) (payload : Bytes) :
    Outcome ErrorChain Nat × PacketWriter × Bytes :=
  if payload.length ≤ 65535 then
    let (sent, w') := match w.lastSent with
      | some last => if last = addr then (none, w) else (some addr, ⟨some addr⟩)
      | none => (some addr, (⟨some addr⟩ : PacketWriter))
    match packetHeader payload.length sent with
    | .ok header => (.ok (header.length + payload.length), w', header ++ payload)
    | .err e => (.err e, w', [])
    | .panicked => (.panicked, w', [])
  else
    (.err ["Converting payload len to u16 int", "out of range integral type conversion attempted"],
      w, [])

/-- A sequence of writes on one writer: each result with the bytes of that write. -/
def writeAll (w : PacketWriter) :
    List (Address × Bytes) → List (Outcome ErrorChain Nat × Bytes) × PacketWriter
  | [] => ([], w)
  | p :: ps =>
    let (result, w', out) := w.write p.1 p.2
    let tail := writeAll w' ps
    ((result, out) :: tail.1, tail.2)

end PacketWriter

/-! ### One packet is read back -/

private theorem readHeader_append (t : PacketType) {n : Nat} (rest : Bytes) (h : n ≤ 65535) :
    readHeader (t.toU8 :: (toBE 2 n ++ rest)) = .ok ((t, n), rest) := by
  have h3 : Cursor.readExact (eofIn "Read headers") 3 (t.toU8 :: (toBE 2 n ++ rest)) =
      .ok (t.toU8 :: toBE 2 n, rest) :=
    Cursor.readExact_append (x := t.toU8 :: toBE 2 n) _ rest (by simp)
  have hn : (UInt16.ofNat n).toNat = n := by
    rw [UInt16.toNat_ofNat', Nat.mod_eq_of_lt (by omega)]
  have h16 := Cursor.getU16_append (ε := ErrorChain) (UInt16.ofNat n) []
  rw [hn, List.append_nil] at h16
  simp [readHeader, Cursor.bind_apply, h3, Cursor.onBytes, h16, hn]

private theorem readSocket_append (octets : Nat) (mk : Nat → IpAddr) (n : Nat) (port : UInt16)
    (payload rest : Bytes) (h : n < 256 ^ octets) :
    readSocket octets mk payload.length
        (toBE octets n ++ (toBE 2 port.toNat ++ (payload ++ rest))) =
      .ok ((payload, .ip (SocketAddr.new (mk n) port)), rest) := by
  have hr := Cursor.readExact_append (eofIn "Reading payload")
    (n := payload.length + (octets + 2))
    (x := toBE octets n ++ (toBE 2 port.toNat ++ payload)) rest (by simp; omega)
  simp only [List.append_assoc] at hr
  have hd : (toBE octets n ++ (toBE 2 port.toNat ++ payload)).drop (octets + 2) = payload := by
    rw [← List.append_assoc, List.drop_left' (by simp)]
  simp [readSocket, Cursor.bind_apply, hr, Cursor.onBytes, Cursor.getBE_append _ h, hd]

private theorem readName_append (host : String) (port : UInt16) (payload rest : Bytes)
    (h : (asBytes host).length ≤ 65535) :
    readName payload.length (toBE 2 (asBytes host).length ++
        (asBytes host ++ (toBE 2 port.toNat ++ (payload ++ rest)))) =
      .ok ((payload, .name host port), rest) := by
  have h2 := Cursor.readExact_append (eofIn "Read host len") (n := 2)
    (x := toBE 2 (asBytes host).length)
    (asBytes host ++ (toBE 2 port.toNat ++ (payload ++ rest))) (by simp)
  have hl : ofBE (toBE 2 (asBytes host).length) = (asBytes host).length :=
    ofBE_toBE (by omega)
  have hr := Cursor.readExact_append (eofIn "Reading payload")
    (n := (asBytes host).length + 2 + payload.length)
    (x := asBytes host ++ (toBE 2 port.toNat ++ payload)) rest (by simp; omega)
  simp only [List.append_assoc] at hr
  have hd : (asBytes host ++ (toBE 2 port.toNat ++ payload)).drop
      ((asBytes host).length + 2) = payload := by
    rw [← List.append_assoc, List.drop_left' (by simp)]
  simp [readName, Cursor.bind_apply, h2, hl, hr, Cursor.onBytes, hd]

/-- What the reader takes for the address of a packet: the one it carries, without what the
format drops, or else the last one. -/
def addressed (last : Option Address) : Option Address → Option Address
  | none => last
  | some a => some a.canonical

private theorem read_packet {sent : Option Address} {last : Option Address} {addr : Address}
    {header : Bytes} (payload rest : Bytes) (hp : payload.length ≤ 65535)
    (hh : packetHeader payload.length sent = .ok header)
    (ha : addressed last sent = some addr) :
    (⟨last⟩ : PacketReader).read (header ++ (payload ++ rest)) =
      .ok (((payload, addr), ⟨some addr⟩), rest) := by
  match sent with
  | none =>
    cases hh
    obtain rfl : last = some addr := ha
    have hr := Cursor.readExact_append (eofIn "Reading payload") (x := payload) rest rfl
    simp [PacketReader.read, Cursor.bind_apply, readHeader_append _ _ hp, readAddressed, hr]
  | some (.ip (.v4 ip port)) =>
    cases hh
    obtain rfl := Option.some.inj ha
    have hs := readSocket_append 4 (fun n ↦ .v4 (Ipv4Addr.ofNat n)) ip.bits.toNat port payload
      rest ip.bits.toNat_lt
    rw [Ipv4Addr.ofNat_toNat] at hs
    simp [PacketReader.read, Cursor.bind_apply, readHeader_append _ _ hp, readAddressed,
      Ipv4Addr.octets, hs, Address.canonical, SocketAddr.canonical, SocketAddr.ip,
      SocketAddr.port]
  | some (.ip (.v6 ip port _ _)) =>
    cases hh
    obtain rfl := Option.some.inj ha
    have hs := readSocket_append 16 (fun n ↦ .v6 (Ipv6Addr.ofNat n)) ip.bits.toNat port payload
      rest ip.bits.isLt
    rw [Ipv6Addr.ofNat_toNat] at hs
    simp [PacketReader.read, Cursor.bind_apply, readHeader_append _ _ hp, readAddressed,
      Ipv6Addr.octets, hs, Address.canonical, SocketAddr.canonical, SocketAddr.ip,
      SocketAddr.port]
  | some (.name host port) =>
    simp only [packetHeader] at hh
    split at hh
    · next hl =>
      cases hh
      obtain rfl := Option.some.inj ha
      have hs := readName_append host port payload rest hl
      simp [PacketReader.read, Cursor.bind_apply, readHeader_append _ _ hp, readAddressed, hs,
        Address.canonical]
    · cases hh

/-! ### Whole sequences -/

/-- A payload that `write` accepts. -/
def Accepted (p : Address × Bytes) : Prop := p.2.length ≤ 65535

instance (p : Address × Bytes) : Decidable (Accepted p) := inferInstanceAs (Decidable (_ ≤ _))

/-- A host name that the format can carry. -/
def HostFits : Address → Prop
  | .ip _ => True
  | .name host _ => (asBytes host).length ≤ 65535

instance : (a : Address) → Decidable (HostFits a)
  | .ip _ => inferInstanceAs (Decidable True)
  | .name _ _ => inferInstanceAs (Decidable (_ ≤ _))

/-- Both ends remember the same address, once the writer remembers one. -/
def Synced (w : PacketWriter) (r : PacketReader) : Prop :=
  ∀ a, w.lastSent = some a → r.lastReceived = some a.canonical

private theorem packetHeader_of_fits {addr : Address} (n : Nat) (h : HostFits addr) :
    ∃ header, packetHeader n (some addr) = .ok header := by
  match addr with
  | .ip (.v4 _ _) => exact ⟨_, rfl⟩
  | .ip (.v6 _ _ _ _) => exact ⟨_, rfl⟩
  | .name host port =>
    have hl : (asBytes host).length ≤ 65535 := h
    rw [packetHeader, if_pos hl]
    exact ⟨_, rfl⟩

/-- An oversized payload is refused, and neither the writer nor the stream changes. -/
theorem PacketWriter.write_of_not_accepted (w : PacketWriter) {p : Address × Bytes}
    (h : ¬ Accepted p) : ∃ e, w.write p.1 p.2 = (.err e, w, []) := by
  have hl : ¬ p.2.length ≤ 65535 := h
  rw [PacketWriter.write, if_neg hl]
  exact ⟨_, rfl⟩

/-- An accepted packet is written, its size is returned, and the other end reads it back. -/
theorem PacketWriter.write_of_accepted {w : PacketWriter} {r : PacketReader}
    {p : Address × Bytes} (hs : Synced w r) (hf : HostFits p.1) (hp : Accepted p) :
    ∃ w' out, w.write p.1 p.2 = (.ok out.length, w', out) ∧
      Synced w' ⟨some p.1.canonical⟩ ∧
      ∀ rest, r.read (out ++ rest) = .ok (((p.2, p.1.canonical), ⟨some p.1.canonical⟩), rest) := by
  have hl : p.2.length ≤ 65535 := hp
  by_cases hlast : w.lastSent = some p.1
  · -- the address is left out: the reader already has it
    have ha : addressed r.lastReceived none = some p.1.canonical := hs p.1 hlast
    refine ⟨w, PacketType.payloadOnly.toU8 :: toBE 2 p.2.length ++ p.2, ?_, ?_, fun rest ↦ ?_⟩
    · rw [PacketWriter.write, if_pos hl, hlast]
      simp [packetHeader]
      omega
    · intro a h
      rw [hlast] at h
      rw [Option.some.inj h]
    · rw [List.append_assoc]
      exact read_packet p.2 rest hp rfl ha
  · obtain ⟨header, hh⟩ := packetHeader_of_fits p.2.length hf
    refine ⟨⟨some p.1⟩, header ++ p.2, ?_, ?_, fun rest ↦ ?_⟩
    · rw [PacketWriter.write, if_pos hl]
      cases hw : w.lastSent with
      | none => simp [hh]
      | some last =>
        have hne : last ≠ p.1 := fun h ↦ hlast (by rw [hw, h])
        simp [hne, hh]
    · intro a h
      cases h
      rfl
    · rw [List.append_assoc]
      exact read_packet p.2 rest hp hh rfl

/-- The bytes that a sequence of writes put on the stream. -/
def emitted (results : List (Outcome ErrorChain Nat × Bytes)) : Bytes :=
  (results.map (·.2)).flatten

/-- What `write` owes its caller: the number of bytes emitted, or an error and no byte. -/
def Reported (p : Address × Bytes) (result : Outcome ErrorChain Nat × Bytes) : Prop :=
  if Accepted p then result.1 = .ok result.2.length
  else (∃ e, result.1 = .err e) ∧ result.2 = []

theorem PacketReader.readAll_nil (r : PacketReader) :
    r.readAll [] = ([], .err ["Read headers", "unexpected end of file"], []) := by
  rw [PacketReader.readAll]
  rfl

theorem PacketReader.readAll_of_read {r r' : PacketReader} {input rest : Bytes}
    {packet : Bytes × Address} (h : r.read input = .ok ((packet, r'), rest)) :
    r.readAll input = (packet :: (r'.readAll rest).1, (r'.readAll rest).2) := by
  rw [PacketReader.readAll]
  split
  · next h' =>
    rw [h] at h'
    cases h'
    rfl
  · next h' => simp [h] at h'
  · next h' => simp [h] at h'

/-- What was yielded of the front part of a stream is a front part of what is yielded of it. -/
theorem PacketReader.yielded_mono (r : PacketReader) (b x : Bytes) :
    (r.readAll b).1 <+: (r.readAll (b ++ x)).1 := by
  induction hn : b.length using Nat.strong_induction_on generalizing r b with
  | _ n ih =>
    rw [PacketReader.readAll]
    split
    · next packet r' rest hread =>
      rw [PacketReader.readAll_of_read (r.read_persists _ _ _ hread x)]
      have hlt := read_consumes hread
      exact List.prefix_append_right_inj [packet] |>.mpr (ih rest.length (by omega) r' rest rfl)
    · exact List.nil_prefix
    · exact List.nil_prefix

/-- Writes on synchronised ends report their size, and reading yields what was accepted. -/
theorem writeAll_readAll {w : PacketWriter} {r : PacketReader} (ps : List (Address × Bytes))
    (hs : Synced w r) (hf : ∀ p ∈ ps, HostFits p.1) :
    List.Forall₂ Reported ps (w.writeAll ps).1 ∧
      r.readAll (emitted (w.writeAll ps).1) =
        ((ps.filter Accepted).map fun p ↦ (p.2, p.1.canonical),
          .err ["Read headers", "unexpected end of file"], []) := by
  induction ps generalizing w r with
  | nil => exact ⟨.nil, r.readAll_nil⟩
  | cons p ps ih =>
    have hps : ∀ q ∈ ps, HostFits q.1 := fun q hq ↦ hf q (List.mem_cons_of_mem p hq)
    by_cases hp : Accepted p
    · obtain ⟨w', out, hw, hs', hr⟩ := PacketWriter.write_of_accepted hs (hf p (by simp)) hp
      obtain ⟨hrep, hread⟩ := ih hs' hps
      simp only [PacketWriter.writeAll, hw]
      constructor
      · exact .cons (by simp [Reported, hp]) hrep
      · have he : emitted ((.ok out.length, out) :: (w'.writeAll ps).1) =
            out ++ emitted (w'.writeAll ps).1 := rfl
        rw [he, PacketReader.readAll_of_read (hr _), hread]
        simp [hp]
    · obtain ⟨e, hw⟩ := w.write_of_not_accepted hp
      obtain ⟨hrep, hread⟩ := ih hs hps
      simp only [PacketWriter.writeAll, hw]
      constructor
      · exact .cons (by simp [Reported, hp]) hrep
      · have he : emitted ((.err e, []) :: (w.writeAll ps).1) = emitted (w.writeAll ps).1 := rfl
        rw [he, hread]
        simp [hp]

/-- Refused writes leave no trace: without them the stream and the writer are the same. -/
theorem PacketWriter.writeAll_filter (w : PacketWriter) (ps : List (Address × Bytes)) :
    emitted (w.writeAll (ps.filter Accepted)).1 = emitted (w.writeAll ps).1 ∧
      (w.writeAll (ps.filter Accepted)).2 = (w.writeAll ps).2 := by
  induction ps generalizing w with
  | nil => exact ⟨rfl, rfl⟩
  | cons p ps ih =>
    by_cases hp : Accepted p
    · obtain ⟨he, hw⟩ := ih (w.write p.1 p.2).2.1
      rw [List.filter_cons_of_pos (by simpa using hp)]
      constructor
      · simp only [PacketWriter.writeAll, emitted, List.map_cons, List.flatten_cons]
        exact congrArg _ he
      · exact hw
    · obtain ⟨e, hw⟩ := w.write_of_not_accepted hp
      rw [List.filter_cons_of_neg (by simpa using hp)]
      simpa [PacketWriter.writeAll, hw, emitted] using ih w

/-- One writer's packets are read back in order, whatever address the reader starts with.
Each write reports the bytes it emitted, a refused one emits none and changes nothing, and
the stream is read to its very end. -/
theorem packets_roundtrip (initial : Option Address) (ps : List (Address × Bytes))
    (hf : ∀ p ∈ ps, HostFits p.1) :
    List.Forall₂ Reported ps (PacketWriter.new.writeAll ps).1 ∧
      (emitted (PacketWriter.new.writeAll (ps.filter Accepted)).1 =
          emitted (PacketWriter.new.writeAll ps).1 ∧
        (PacketWriter.new.writeAll (ps.filter Accepted)).2 =
          (PacketWriter.new.writeAll ps).2) ∧
      (PacketReader.new initial).readAll (emitted (PacketWriter.new.writeAll ps).1) =
        ((ps.filter Accepted).map fun p ↦ (p.2, p.1.canonical),
          .err ["Read headers", "unexpected end of file"], []) := by
  have hs : Synced PacketWriter.new (PacketReader.new initial) := by
    intro a h
    cases h
  obtain ⟨hrep, hread⟩ := writeAll_readAll ps hs hf
  exact ⟨hrep, PacketWriter.writeAll_filter _ ps, hread⟩

/-- Two packets to one name and one to an IPv6 address, behind an unrelated first address. -/
theorem packets_roundtrip_mixed :
    let ps : List (Address × Bytes) :=
      [(.name "localhost" 53, [1, 2]), (.name "localhost" 53, []),
        (.ip (.v6 (Ipv6Addr.ofNat 1) 53 7 9), [3])]
    (PacketReader.new (some (.ip (.v4 (Ipv4Addr.ofNat 2130706433) 80)))).readAll
        (emitted (PacketWriter.new.writeAll ps).1) =
      ([([1, 2], .name "localhost" 53), ([], .name "localhost" 53),
        ([3], .ip (.v6 (Ipv6Addr.ofNat 1) 53 0 0))],
        .err ["Read headers", "unexpected end of file"], []) := by
  intro ps
  have hf : ∀ p ∈ ps, HostFits p.1 := by decide
  exact (packets_roundtrip _ ps hf).2.2

end Cpxy.TcpMan
