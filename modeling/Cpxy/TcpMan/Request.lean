import Cpxy.Handshake.Start
import Cpxy.Net.AddressCodec

/-!
# Requests to a tcpman server

Library `TcpMan`. Source `src/protocol/tcpman/proto.rs:8–63`. A request is a type byte, the
destination as SOCKS5 writes it, and initial data. The encoder unwraps that of the address,
which has no form for long names.
-/

namespace Cpxy.TcpMan

open Cpxy.Base Cpxy.Net Cpxy.Handshake Cpxy.Http

/-- `RequestType`; `proto.rs:20–25`. -/
inductive RequestType where
  | tcp
  | udp
  deriving DecidableEq, Repr

/-- `Request`, its kind apart; `proto.rs:8–18`. -/
structure Request where
  type : RequestType
  dst : Address
  initialData : Bytes
  deriving DecidableEq, Repr

/-- `as u8` of the type. -/
def RequestType.toU8 : RequestType → UInt8
  | .tcp => 0
  | .udp => 1

/-- `RequestType::from_u8`. -/
def RequestType.fromU8 (v : UInt8) : Option RequestType :=
  if v = 0 then some .tcp else if v = 1 then some .udp else none

namespace Request

/-- `Request::parse`; `proto.rs:28–49`. -/
def parse (buf : Bytes) : Outcome ErrorChain Request :=
  if buf.length < 1 then .err ["Invalid buf size"]
  else do
    let (v, buf) ← Cursor.getU8 buf
    match RequestType.fromU8 v with
    | none => .err ["Reading request_type"]
    | some type =>
      match ← (Address.parse buf).mapErr fun e ↦ ["Parsing address", parseErrorText e] with
      | none => .err ["Expecting complete address"]
      | some (offset, dst) => do
        let (_, buf) ← Cursor.splitTo offset buf
        .ok ⟨type, dst, buf⟩

/-- `to_vec`; `proto.rs:51–62`. -/
def toVec (r : Request) : Outcome ErrorChain Bytes :=
  match r.dst.writeTo with
  | .ok dst => .ok ([r.type.toU8] ++ dst ++ r.initialData)
  | _ => .panicked

/-- The request comes through `to_vec` and `parse`: the same kind and data, and the address
that the wire carries. -/
def RoundTrips (r : Request) : Prop :=
  ∃ v, r.toVec = .ok v ∧ parse v = .ok { r with dst := r.dst.norm }

theorem fromU8_toU8 (t : RequestType) : RequestType.fromU8 t.toU8 = some t := by
  cases t <;> rfl

theorem toVec_of_long {r : Request} (h : r.dst.LongName) : r.toVec = .panicked := by
  obtain ⟨type, dst, data⟩ := r
  match dst, h with
  | .name host port, h =>
    have hlong : ¬ (asBytes host).length ≤ 255 := Nat.not_le.mpr h
    simp only [toVec, Address.writeTo, if_neg hlong]

/-- Behind the type byte, an address is followed by the data. -/
theorem parse_cons_of_address {t : RequestType} {buf : Bytes} {n : Nat} {dst : Address}
    (h : Address.parse buf = .ok (some (n, dst))) :
    parse (t.toU8 :: buf) = .ok ⟨t, dst, buf.drop n⟩ := by
  have hn := (Address.parse_stable.complete buf n dst h).1
  rw [parse, if_neg (by simp), Cursor.getU8_cons, Outcome.ok_bind]
  dsimp only
  rw [fromU8_toU8, h]
  dsimp only [Outcome.mapErr]
  rw [Outcome.ok_bind]
  dsimp only
  rw [Cursor.splitTo_of_le hn, Outcome.ok_bind]

/-- Requests come through exactly when their destination is not a long name. -/
theorem roundTrips_iff (r : Request) : r.RoundTrips ↔ ¬ r.dst.LongName := by
  constructor
  · rintro ⟨v, hv, _⟩ hlong
    rw [toVec_of_long hlong] at hv
    cases hv
  · intro hshort
    have hwrite := (Address.writeTo_of_short hshort).1
    have hparse := Address.parse_writeInto hshort r.initialData
    refine ⟨r.type.toU8 :: (r.dst.writeInto.bytes ++ r.initialData), ?_, ?_⟩
    · rw [toVec, hwrite]
      rfl
    · rw [parse_cons_of_address hparse, ← Address.length_writeInto hshort, List.drop_left]

/-! ### Destinations from the front ends -/

/-- The destination comes from one of the proxy front ends: an HTTP request, a SOCKS4 request
or the address of a SOCKS5 request. -/
def FromFrontEnd (dst : Address) : Prop :=
  (∃ r, handshakeHttp r = .ok (.tcp dst)) ∨
    (∃ r https req, handshakeHttp r = .ok (.http dst https req)) ∨
    (∃ b n r, parseSocks4Request b = .ok (some (n, r)) ∧ r.addr = dst) ∨
    ∃ b n r, parseConnRequest b = .ok (some (n, r)) ∧ r.address = dst

/-- The name that 86 bytes of no UTF-8 are taken for. -/
private def replacedName : Address := .name (String.ofList (List.replicate 86 (Char.ofNat 0xFFFD))) 80

/-- A SOCKS5 client may name a host in bytes that are no UTF-8, each of which becomes a
character of three bytes. -/
theorem toVec_panics_on_front_end :
    ¬ ∀ r : Request, FromFrontEnd r.dst → r.RoundTrips := by
  intro h
  have hread : parseConnRequest ([5, 1, 0, 3, 86] ++ List.replicate 86 0xFF ++ [0, 80]) =
      .ok (some (93, ⟨1, replacedName⟩)) := by
    have htext : fromUtf8Lossy (List.replicate 86 0xFF) =
        String.ofList (List.replicate 86 (Char.ofNat 0xFFFD)) := by
      decide +kernel
    have hname : IpAddr.fromStr (String.ofList (List.replicate 86 (Char.ofNat 0xFFFD))) = none := by
      rw [IpAddr.fromStr, String.toList_ofList]
      rfl
    have htake : (List.replicate 86 0xFF ++ [0, 80] : Bytes).take 86 = List.replicate 86 0xFF := rfl
    have hlen : (86 : UInt8).toNat + 2 ≤ (List.replicate 86 0xFF ++ [0, 80] : Bytes).length := by
      decide
    have hrequest := parseConnRequest_name 1 86 hlen
    have hcount : (86 : UInt8).toNat = 86 := rfl
    rw [hcount, htake, htext, Address.fromHost, hname] at hrequest
    exact hrequest
  have hlen : (asBytes (String.ofList (List.replicate 86 (Char.ofNat 0xFFFD)))).length = 258 := by
    decide +kernel
  have hlong : replacedName.LongName := by
    rw [replacedName, Address.LongName, hlen]
    decide
  obtain ⟨v, hv, _⟩ := h ⟨.tcp, replacedName, []⟩ (.inr (.inr (.inr ⟨_, _, _, hread, rfl⟩)))
  rw [toVec_of_long hlong] at hv
  cases hv

end Request
end Cpxy.TcpMan
