import Cpxy.Base.Cursor
import Cpxy.Net.SocketAddr

/-!
# UDP-man messages

Library `UdpMan`. Source `src/protocol/udpman/proto.rs:14–355`. One flag byte carries the
message type in its top three bits and, per type, which optional fields follow. The
decoder checks the remaining length before every access.
-/

namespace Cpxy.UdpMan

open Cpxy.Base Cpxy.Net

/-- Protocol messages; `proto.rs:14–33`. Owned and borrowed byte strings are one type here. -/
inductive Message where
  | connect (uuid initialData : Bytes) (initialDataNonce : Option UInt16) (dst : SocketAddr)
  | establish (uuid : Bytes) (connId : UInt16) (initialReply : Option (Bytes × SocketAddr))
  | data (connId : Option UInt16) (addr : Option SocketAddr) (payload : Bytes)
      (encNonce : Option UInt16)
  deriving DecidableEq, Repr

/-- Message types; `proto.rs:35–42`. -/
inductive MessageType where
  | connect
  | establish
  | data
  deriving DecidableEq, Repr

/-- The discriminants of `proto.rs:39–41`. -/
def MessageType.toU8 : MessageType → UInt8
  | .connect => 0
  | .establish => 1
  | .data => 2

/-- The derived `FromPrimitive::from_u8`. -/
def MessageType.fromU8 (v : UInt8) : Option MessageType :=
  if v = 0 then some .connect
  else if v = 1 then some .establish
  else if v = 2 then some .data
  else none

/-- Meaning of the flag byte; `proto.rs:44–60`. -/
inductive MessageFlags where
  | connect (isIpv6 hasNonce : Bool)
  | establish (hasReply replyInIpv6 : Bool)
  | data (hasConnId hasAddr addrInIpv6 hasNonce : Bool)
  deriving DecidableEq, Repr

private def flagBit (value : UInt8) (i : UInt8) : Bool := (value >>> i) &&& 0x1 != 0

/-- `TryFrom<u8> for MessageFlags`; `proto.rs:62–86`. Unused bits are ignored. -/
def MessageFlags.tryFrom (value : UInt8) : Outcome ErrorChain MessageFlags :=
  match MessageType.fromU8 (value >>> 5) with
  | none => .err ["Parsing message type"]
  | some .connect => .ok (.connect (flagBit value 0) (flagBit value 1))
  | some .establish => .ok (.establish (flagBit value 0) (flagBit value 1))
  | some .data =>
    .ok (.data (flagBit value 0) (flagBit value 1) (flagBit value 2) (flagBit value 3))

private def bitIf (b : Bool) (i : UInt8) : UInt8 := if b then 1 <<< i else 0

/-- `Into<u8> for MessageFlags`; `proto.rs:88–138`. -/
def MessageFlags.into : MessageFlags → UInt8
  | .connect isIpv6 hasNonce =>
    (MessageType.connect.toU8 <<< 5) ||| (bitIf isIpv6 0 ||| bitIf hasNonce 1)
  | .establish hasReply replyInIpv6 =>
    (MessageType.establish.toU8 <<< 5) ||| (bitIf hasReply 0 ||| bitIf replyInIpv6 1)
  | .data hasConnId hasAddr addrInIpv6 hasNonce =>
    (MessageType.data.toU8 <<< 5) |||
      (bitIf hasConnId 0 ||| bitIf hasAddr 1 ||| bitIf addrInIpv6 2 ||| bitIf hasNonce 3)

/-- The macro `check_remaining!`; `proto.rs:140–151`. -/
def checkRemaining (expected : Nat) (ctx : String) : Cursor ErrorChain Unit :=
  Cursor.ensure expected fun remaining ↦
    [s!"{ctx}: Expecting {expected} bytes but only has {remaining} bytes remaining"]

/-- `parse_uuid`; `proto.rs:153–158`. -/
def parseUuid : Cursor ErrorChain Bytes := do
  checkRemaining 1 "UUID len"
  let uuidLen ← Cursor.getU8
  checkRemaining uuidLen.toNat "UUID"
  Cursor.splitTo uuidLen.toNat

/-- `write_uuid`; `proto.rs:160–165`. -/
def writeUuid (id : Bytes) : Outcome ErrorChain Bytes :=
  if id.length ≤ 255 then .ok (UInt8.ofNat id.length :: id)
  else .err ["Writing UUID len", "out of range integral type conversion attempted"]

private def parseIpAddr : Bool → Cursor ErrorChain IpAddr
  | true => do
    checkRemaining 4 "IPv4 address"
    let n ← Cursor.getBE 4
    pure (IpAddr.v4 (Ipv4Addr.ofNat n))
  | false => do
    checkRemaining 16 "IPv6 address"
    let n ← Cursor.getBE 16
    pure (IpAddr.v6 (Ipv6Addr.ofNat n))

/-- `parse_socket_addr`; `proto.rs:167–178`. -/
def parseSocketAddr (v4 : Bool) : Cursor ErrorChain SocketAddr := do
  let ip ← parseIpAddr v4
  checkRemaining 2 "Port"
  let port ← Cursor.getU16
  pure (SocketAddr.new ip port)

/-- `write_socket_addr`; `proto.rs:180–188`. -/
def writeSocketAddr : SocketAddr → Bytes
  | .v4 ip port => ip.octets ++ toBE 2 port.toNat
  | .v6 ip port _ _ => ip.octets ++ toBE 2 port.toNat

/-- A checked two-byte word, the shape of `parse_conn_id` and of both nonces. -/
def parseU16 (ctx : String) : Cursor ErrorChain UInt16 := do
  checkRemaining 2 ctx
  Cursor.getU16

/-- `parse_conn_id`; `proto.rs:190–193`. -/
def parseConnId : Cursor ErrorChain UInt16 := parseU16 "Conn ID"

private def parseBody : MessageFlags → Cursor ErrorChain Message
  | .connect isIpv6 hasNonce => do
    let uuid ← parseUuid
    let dst ← parseSocketAddr (!isIpv6)
    let nonce ← Cursor.optional hasNonce (parseU16 "Nonce")
    let initialData ← Cursor.rest
    pure (.connect uuid initialData nonce dst)
  | .establish hasReply replyInIpv6 => do
    let uuid ← parseUuid
    let connId ← parseConnId
    if hasReply then do
      let addr ← parseSocketAddr (!replyInIpv6)
      let reply ← Cursor.rest
      pure (.establish uuid connId (some (reply, addr)))
    else pure (.establish uuid connId none)
  | .data hasConnId hasAddr addrInIpv6 hasNonce => do
    let connId ← Cursor.optional hasConnId parseConnId
    let addr ← Cursor.optional hasAddr (parseSocketAddr (!addrInIpv6))
    let nonce ← Cursor.optional hasNonce (parseU16 "Enc nonce")
    let payload ← Cursor.rest
    pure (.data connId addr payload nonce)

private def parseMessage : Cursor ErrorChain Message := do
  checkRemaining 1 "MessageType"
  let value ← Cursor.getU8
  match (MessageFlags.tryFrom value).context "Unknown message type" with
  | .ok flags => parseBody flags
  | .err e => Cursor.throw e
  | .panicked => fun _ ↦ .panicked

/-- `Message::parse`; `proto.rs:196–270`. -/
def Message.parse (b : Bytes) : Outcome ErrorChain Message := do
  let r ← parseMessage b
  pure r.1

private def writeAddr : Option SocketAddr → Bytes
  | some a => writeSocketAddr a
  | none => []

private def writeU16 : Option UInt16 → Bytes
  | some n => toBE 2 n.toNat
  | none => []

/-- `Message::to_writer` into a fresh vector, that is `Message::to_bytes`; `proto.rs:272–354`. -/
def Message.toBytes : Message → Outcome ErrorChain Bytes
  | .connect uuid initialData nonce dst => do
    let id ← writeUuid uuid
    let flags := MessageFlags.connect dst.isV6 nonce.isSome
    pure (flags.into :: (id ++ (writeSocketAddr dst ++ (writeU16 nonce ++ initialData))))
  | .establish uuid connId reply => do
    let id ← writeUuid uuid
    let flags := MessageFlags.establish reply.isSome (reply.any fun r ↦ r.2.isV6)
    let body := match reply with
      | some (bytes, addr) => writeSocketAddr addr ++ bytes
      | none => []
    pure (flags.into :: (id ++ (toBE 2 connId.toNat ++ body)))
  | .data connId addr payload nonce =>
    let flags := MessageFlags.data connId.isSome addr.isSome (addr.any SocketAddr.isV6)
      nonce.isSome
    pure (flags.into :: (writeU16 connId ++ (writeAddr addr ++ (writeU16 nonce ++ payload))))

/-! ### Encoded fields are read back -/

/-- Reading the flag byte inverts writing it. -/
@[simp] theorem MessageFlags.tryFrom_into (f : MessageFlags) : tryFrom f.into = .ok f := by
  cases f with
  | connect isIpv6 hasNonce => cases isIpv6 <;> cases hasNonce <;> rfl
  | establish hasReply replyInIpv6 => cases hasReply <;> cases replyInIpv6 <;> rfl
  | data hasConnId hasAddr addrInIpv6 hasNonce =>
    cases hasConnId <;> cases hasAddr <;> cases addrInIpv6 <;> cases hasNonce <;> rfl

/-- A written uuid is read back. -/
theorem parseUuid_append {id e : Bytes} (rest : Bytes) (h : writeUuid id = .ok e) :
    parseUuid (e ++ rest) = .ok (id, rest) := by
  unfold writeUuid at h
  split at h
  · next hl =>
    cases h
    have hn : (UInt8.ofNat id.length).toNat = id.length := by
      rw [UInt8.toNat_ofNat', Nat.mod_eq_of_lt (by omega)]
    have h1 : checkRemaining 1 "UUID len" (UInt8.ofNat id.length :: (id ++ rest)) =
        .ok ((), UInt8.ofNat id.length :: (id ++ rest)) :=
      Cursor.ensure_of_le _ (by simp)
    have h2 : checkRemaining id.length "UUID" (id ++ rest) = .ok ((), id ++ rest) :=
      Cursor.ensure_of_le _ (by simp)
    simp [parseUuid, Cursor.bind_apply, h1, hn, h2]
  · cases h

/-- A written address is read back without its flow info and scope id. -/
theorem parseSocketAddr_append (a : SocketAddr) (rest : Bytes) :
    parseSocketAddr (!a.isV6) (writeSocketAddr a ++ rest) = .ok (a.canonical, rest) := by
  have hp (p : UInt16) : checkRemaining 2 "Port" (toBE 2 p.toNat ++ rest) =
      .ok ((), toBE 2 p.toNat ++ rest) := Cursor.ensure_of_le _ (by simp)
  cases a with
  | v4 ip port =>
    have h1 : checkRemaining 4 "IPv4 address" (ip.octets ++ (toBE 2 port.toNat ++ rest)) =
        .ok ((), ip.octets ++ (toBE 2 port.toNat ++ rest)) := Cursor.ensure_of_le _ (by simp)
    have h2 : (Cursor.getBE 4 : Cursor ErrorChain Nat) (ip.octets ++ (toBE 2 port.toNat ++ rest)) =
        .ok (ip.bits.toNat, toBE 2 port.toNat ++ rest) :=
      Cursor.getBE_append _ ip.bits.toNat_lt
    simp [parseSocketAddr, parseIpAddr, writeSocketAddr, SocketAddr.isV6, Cursor.bind_apply, h1, h2,
      hp, SocketAddr.canonical, SocketAddr.ip, SocketAddr.port, Ipv4Addr.ofNat]
  | v6 ip port flowinfo scopeId =>
    have h1 : checkRemaining 16 "IPv6 address" (ip.octets ++ (toBE 2 port.toNat ++ rest)) =
        .ok ((), ip.octets ++ (toBE 2 port.toNat ++ rest)) := Cursor.ensure_of_le _ (by simp)
    have h2 : (Cursor.getBE 16 : Cursor ErrorChain Nat)
        (ip.octets ++ (toBE 2 port.toNat ++ rest)) =
        .ok (ip.bits.toNat, toBE 2 port.toNat ++ rest) :=
      Cursor.getBE_append _ ip.bits.isLt
    simp [parseSocketAddr, parseIpAddr, writeSocketAddr, SocketAddr.isV6, Cursor.bind_apply, h1, h2,
      hp, SocketAddr.canonical, SocketAddr.ip, SocketAddr.port, Ipv6Addr.ofNat]

/-- A written word is read back. -/
theorem parseU16_append (ctx : String) (n : UInt16) (rest : Bytes) :
    parseU16 ctx (toBE 2 n.toNat ++ rest) = .ok (n, rest) := by
  rw [parseU16, checkRemaining, Cursor.ensure_bind_of_le _ _ (by simp), Cursor.getU16_append]

private theorem optionalU16_append (ctx : String) (n : Option UInt16) (rest : Bytes) :
    Cursor.optional n.isSome (parseU16 ctx) (writeU16 n ++ rest) = .ok (n, rest) := by
  apply Cursor.optional_of_field
  · rintro rfl
    rfl
  · rintro x rfl
    exact parseU16_append ctx x rest

private theorem optionalAddr_append (addr : Option SocketAddr) (rest : Bytes) :
    Cursor.optional addr.isSome (parseSocketAddr (!addr.any SocketAddr.isV6))
      (writeAddr addr ++ rest) = .ok (addr.map SocketAddr.canonical, rest) := by
  cases addr with
  | none => rfl
  | some a =>
    exact Cursor.optional_of_field (a := some a.canonical) (by simp) fun x hx ↦
      Option.some.inj hx ▸ parseSocketAddr_append a rest

/-- The uuid of a message, where its type has one. -/
def Message.uuid? : Message → Option Bytes
  | .connect uuid _ _ _ => some uuid
  | .establish uuid _ _ => some uuid
  | .data _ _ _ _ => none

/-- The message with the address parts that the format does not carry set to zero. -/
def Message.canonical : Message → Message
  | .connect uuid initialData nonce dst => .connect uuid initialData nonce dst.canonical
  | .establish uuid connId reply =>
    .establish uuid connId (reply.map fun r ↦ (r.1, r.2.canonical))
  | .data connId addr payload nonce =>
    .data connId (addr.map SocketAddr.canonical) payload nonce

private theorem parse_cons (f : MessageFlags) (b : Bytes) :
    Message.parse (f.into :: b) = parseBody f b >>= fun r ↦ pure r.1 := by
  have h : checkRemaining 1 "MessageType" (f.into :: b) = .ok ((), f.into :: b) :=
    Cursor.ensure_of_le _ (by simp)
  simp [Message.parse, parseMessage, Cursor.bind_apply, h]

/-- Encoding fails only on a uuid whose length does not fit its length byte. -/
theorem Message.toBytes_ok_iff (m : Message) :
    (∃ b, m.toBytes = .ok b) ↔ ∀ u, m.uuid? = some u → u.length ≤ 255 := by
  cases m with
  | connect uuid initialData nonce dst =>
    simp only [toBytes, writeUuid, uuid?, Option.some.injEq, forall_eq']
    by_cases h : uuid.length ≤ 255 <;> simp [h]
  | establish uuid connId reply =>
    simp only [toBytes, writeUuid, uuid?, Option.some.injEq, forall_eq']
    by_cases h : uuid.length ≤ 255 <;> simp [h]
  | data connId addr payload nonce => simp [toBytes, uuid?]

/-- Decoding an encoded message returns it. -/
theorem Message.parse_toBytes (m : Message) (b : Bytes) (h : m.toBytes = .ok b) :
    parse b = .ok m.canonical := by
  cases m with
  | connect uuid initialData nonce dst =>
    obtain ⟨id, hid, hb⟩ := Outcome.bind_eq_ok_iff.mp h
    cases hb
    rw [parse_cons]
    simp [parseBody, Cursor.bind_apply, parseUuid_append _ hid, parseSocketAddr_append,
      optionalU16_append, canonical]
  | establish uuid connId reply =>
    obtain ⟨id, hid, hb⟩ := Outcome.bind_eq_ok_iff.mp h
    cases hb
    rw [parse_cons]
    cases reply with
    | none =>
      have hc := parseU16_append "Conn ID" connId []
      rw [List.append_nil] at hc
      simp [parseBody, parseConnId, Cursor.bind_apply, parseUuid_append _ hid, hc, canonical]
    | some r =>
      simp [parseBody, parseConnId, Cursor.bind_apply, parseUuid_append _ hid, parseU16_append,
        parseSocketAddr_append, canonical]
  | data connId addr payload nonce =>
    cases h
    rw [parse_cons]
    simp [parseBody, parseConnId, Cursor.bind_apply, optionalU16_append, optionalAddr_append,
      canonical]

/-! ### Every input is answered -/

private theorem parseUuid_answers :
    Cursor.Answers 0 parseUuid fun u ↦ u.length ≤ 255 := by
  refine Cursor.Answers.ensure _ (Cursor.Answers.bind Cursor.Answers.getU8 fun n _ ↦ ?_)
  refine Cursor.Answers.ensure _ fun b hb ↦ ?_
  have hn := n.toNat_lt
  rcases Cursor.Answers.splitTo (ε := ErrorChain) b hb with he | ⟨u, r, hu, hl⟩
  · exact .inl he
  · exact .inr ⟨u, r, hu, by omega⟩

private theorem parseIpAddr_answers (v4 : Bool) :
    Cursor.Answers 0 (parseIpAddr v4) fun _ ↦ True := by
  cases v4 <;>
    exact Cursor.Answers.ensure _ (Cursor.Answers.bind Cursor.Answers.getBE fun _ _ ↦
      Cursor.Answers.pure trivial)

private theorem parseSocketAddr_answers (v4 : Bool) :
    Cursor.Answers 0 (parseSocketAddr v4) fun a ↦ a.canonical = a := by
  refine Cursor.Answers.bind (parseIpAddr_answers v4) fun ip _ ↦ ?_
  refine Cursor.Answers.ensure _ (Cursor.Answers.bind Cursor.Answers.getU16 fun port _ ↦ ?_)
  exact Cursor.Answers.pure (SocketAddr.canonical_new ip port)

private theorem parseU16_answers (ctx : String) :
    Cursor.Answers 0 (parseU16 ctx) fun _ ↦ True :=
  Cursor.Answers.ensure _ Cursor.Answers.getU16

/-- A message that the decoder can return: its uuid can be written again, and its
addresses carry nothing that the format drops. -/
def Message.Decoded (m : Message) : Prop :=
  (∀ u, m.uuid? = some u → u.length ≤ 255) ∧ m.canonical = m

private theorem parseBody_answers (f : MessageFlags) :
    Cursor.Answers 0 (parseBody f) Message.Decoded := by
  cases f with
  | connect isIpv6 hasNonce =>
    refine Cursor.Answers.bind parseUuid_answers fun uuid hu ↦ ?_
    refine Cursor.Answers.bind (parseSocketAddr_answers _) fun dst hd ↦ ?_
    refine Cursor.Answers.bind (Cursor.Answers.optional (parseU16_answers _)) fun nonce _ ↦ ?_
    refine Cursor.Answers.bind Cursor.Answers.rest fun initialData _ ↦ Cursor.Answers.pure ?_
    exact ⟨by simpa [Message.uuid?] using hu, by simp [Message.canonical, hd]⟩
  | establish hasReply replyInIpv6 =>
    refine Cursor.Answers.bind parseUuid_answers fun uuid hu ↦ ?_
    refine Cursor.Answers.bind (parseU16_answers _) fun connId _ ↦ ?_
    cases hasReply with
    | true =>
      refine Cursor.Answers.bind (parseSocketAddr_answers _) fun addr ha ↦ ?_
      refine Cursor.Answers.bind Cursor.Answers.rest fun reply _ ↦ Cursor.Answers.pure ?_
      exact ⟨by simpa [Message.uuid?] using hu, by simp [Message.canonical, ha]⟩
    | false =>
      refine Cursor.Answers.pure ?_
      exact ⟨by simpa [Message.uuid?] using hu, by simp [Message.canonical]⟩
  | data hasConnId hasAddr addrInIpv6 hasNonce =>
    refine Cursor.Answers.bind (Cursor.Answers.optional (parseU16_answers _)) fun connId _ ↦ ?_
    refine Cursor.Answers.bind (Cursor.Answers.optional (parseSocketAddr_answers _))
      fun addr ha ↦ ?_
    refine Cursor.Answers.bind (Cursor.Answers.optional (parseU16_answers _)) fun nonce _ ↦ ?_
    refine Cursor.Answers.bind Cursor.Answers.rest fun payload _ ↦ Cursor.Answers.pure ?_
    refine ⟨by simp [Message.uuid?], ?_⟩
    cases addr with
    | none => rfl
    | some a => simp [Message.canonical, ha a rfl]

private theorem parseMessage_answers : Cursor.Answers 0 parseMessage Message.Decoded := by
  refine Cursor.Answers.ensure _ (Cursor.Answers.bind Cursor.Answers.getU8 fun value _ ↦ ?_)
  unfold MessageFlags.tryFrom
  cases MessageType.fromU8 (value >>> 5) with
  | none => exact Cursor.Answers.throw _
  | some t => cases t <;> exact parseBody_answers _

/-- Every input gets an error or a message that can be encoded and decoded again. -/
theorem Message.parse_answers (b : Bytes) :
    (∃ e, parse b = .err e) ∨ ∃ m, parse b = .ok m ∧ m.Decoded := by
  rcases parseMessage_answers b (Nat.zero_le _) with ⟨e, he⟩ | ⟨m, r, hm, hd⟩
  · exact .inl ⟨e, by rw [parse, he]; rfl⟩
  · exact .inr ⟨m, by rw [parse, hm]; rfl, hd⟩

/-- The message codec. Encoding succeeds exactly when the uuid, if there is one, fits its
length byte, and is then inverted by decoding. Decoding answers every byte string without
an access past its end, and a decoded message encodes to bytes that decode to it. -/
theorem Message.codec :
    (∀ m : Message, ((∃ b, m.toBytes = .ok b) ↔ ∀ u, m.uuid? = some u → u.length ≤ 255) ∧
      ∀ b, m.toBytes = .ok b → parse b = .ok m.canonical) ∧
    ∀ b : Bytes, parse b ≠ .panicked ∧
      ∀ m, parse b = .ok m → ∃ e, m.toBytes = .ok e ∧ parse e = .ok m := by
  refine ⟨fun m ↦ ⟨toBytes_ok_iff m, parse_toBytes m⟩, fun b ↦ ?_⟩
  rcases parse_answers b with ⟨e, he⟩ | ⟨m, hm, hd⟩
  · simp [he]
  · refine ⟨by simp [hm], fun m' hm' ↦ ?_⟩
    obtain rfl : m = m' := by simpa [hm] using hm'
    obtain ⟨e, he⟩ := (toBytes_ok_iff m).mpr hd.1
    exact ⟨e, he, by rw [parse_toBytes m e he, hd.2]⟩

end Cpxy.UdpMan
