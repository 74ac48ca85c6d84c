import Cpxy.Base.Cursor
import Cpxy.Base.Incremental
import Cpxy.Net.SocketAddr

/-!
# Proxy addresses

Library `Net`. Source `src/socks5/addr.rs:18–324` and `src/parse.rs`. An address is a
socket address or a host name with a port. Its wire form is that of SOCKS5: a type byte,
the octets or a length-prefixed name, and the port.
-/

namespace Cpxy.Net

open Cpxy.Base

/-- `ParseError::Unexpected`; `parse.rs:3–10`. Every caller reports an unexpected byte. -/
structure ParseError where
  name : String
  got : UInt8
  expect : String
  deriving DecidableEq, Repr

/-- `ParseError` as the text of an error; `parse.rs:12–16`. -/
def parseErrorText (e : ParseError) : String :=
  s!"Unexpected \x7b name: \"{e.name}\", expect: \"{e.expect}\", got: {e.got} \x7d"

/-- `Address`; `addr.rs:18–22`. -/
inductive Address where
  | ip (addr : SocketAddr)
  | name (host : String) (port : UInt16)
  deriving DecidableEq, Repr

namespace Address

/-- `get_port`; `addr.rs:25–30`. -/
def getPort : Address → UInt16
  | .ip addr => addr.port
  | .name _ port => port

/-- `get_host`; `addr.rs:32–37`. -/
def getHost : Address → String
  | .ip addr => addr.ip.display
  | .name host _ => host

/-- `Default for Address`; `addr.rs:40–44`: 0.0.0.0 with port 0. -/
def default : Address := .ip (.v4 ⟨0⟩ 0)

instance : Inhabited Address := ⟨default⟩

/-- `TryFrom<&str>`, through which `FromStr` goes too; `addr.rs:67–105`. Both parts around
the last colon must be non-empty. -/
def tryFrom (s : String) : Outcome ErrorChain Address :=
  match SocketAddr.fromStr s with
  | some v => .ok (.ip v)
  | none =>
    match rsplitOnce ':' s.toList with
    | some (host, port) =>
      if host ≠ [] ∧ port ≠ [] then
        match parseUnsigned 65536 port with
        | .ok p => .ok (.name (String.ofList host) (UInt16.ofNat p))
        | .error e => .err [s!"Parsing URL {s}", e]
      else .err [s!"Invalid URL: {s}"]
    | none => .err [s!"Invalid URL: {s}"]

theorem tryFrom_total (s : String) : tryFrom s ≠ .panicked := by
  unfold tryFrom
  split
  · simp
  · split
    · split
      · split <;> simp
      · simp
    · simp

/-- `From<(Cow<str>, u16)>`; `addr.rs:87–96`: a host that is an IP literal becomes that IP. -/
def fromHost (host : String) (port : UInt16) : Address :=
  match IpAddr.fromStr host with
  | some a => .ip (SocketAddr.new a port)
  | none => .name host port

/-- `Address::parse`; `addr.rs:177–241`. `none` asks for more bytes. -/
def parse (buf : Bytes) : Outcome ParseError (Option (Nat × Address)) :=
  if buf.length = 0 then .ok none
  else do
    let (kind, buf) ← Cursor.getU8 buf
    if kind = 0x1 then
      if buf.length < 6 then .ok none
      else do
        let (octets, buf) ← Cursor.splitTo 4 buf
        let (port, _) ← Cursor.getU16 buf
        .ok (some (1 + 6, .ip (.v4 (Ipv4Addr.ofNat (ofBE octets)) port)))
    else if kind = 0x3 then
      if buf.length < 1 then .ok none
      else do
        let (nameLen, buf) ← Cursor.getU8 buf
        if buf.length < nameLen.toNat + 2 then .ok none
        else do
          let (host, buf) ← Cursor.splitTo nameLen.toNat buf
          let (port, _) ← Cursor.getU16 buf
          .ok (some (1 + 1 + (nameLen.toNat + 2), fromHost (fromUtf8Lossy host) port))
    else if kind = 0x4 then
      if buf.length < 18 then .ok none
      else do
        let (octets, buf) ← Cursor.splitTo 16 buf
        let (port, _) ← Cursor.getU16 buf
        .ok (some (1 + (16 + 2), .ip (.v6 (Ipv6Addr.ofNat (ofBE octets)) port 0 0)))
    else .err ⟨"IP address type", kind, "1, 3 or 4"⟩

/-- Octets and a port, `k + 2` bytes in all, as the IP branches of `parse` read them. -/
private theorem octets_port {k : Nat} {b : Bytes} (f : Bytes → UInt16 → Nat × Address)
    (h : k + 2 ≤ b.length) :
    ((do
      let (octets, b) ← Cursor.splitTo k b
      let (port, _) ← Cursor.getU16 b
      .ok (some (f octets port))) : Outcome ParseError (Option (Nat × Address))) =
      .ok (some (f (b.take k) (UInt16.ofNat (ofBE ((b.drop k).take 2))))) := by
  have h2 : 2 ≤ (b.drop k).length := by
    rw [List.length_drop]
    omega
  simp [Cursor.splitTo_of_le (show k ≤ b.length by omega), Cursor.getU16_of_le h2]

/-- `parse` by its type byte, with the bytes that each branch takes. -/
theorem parse_cons (kind : UInt8) (b : Bytes) :
    parse (kind :: b) =
      if kind = 0x1 then
        if b.length < 6 then .ok none
        else .ok (some (7, .ip (.v4 (Ipv4Addr.ofNat (ofBE (b.take 4)))
          (UInt16.ofNat (ofBE ((b.drop 4).take 2))))))
      else if kind = 0x3 then
        match b with
        | [] => .ok none
        | len :: b =>
          if b.length < len.toNat + 2 then .ok none
          else .ok (some (len.toNat + 4, fromHost (fromUtf8Lossy (b.take len.toNat))
            (UInt16.ofNat (ofBE ((b.drop len.toNat).take 2)))))
      else if kind = 0x4 then
        if b.length < 18 then .ok none
        else .ok (some (19, .ip (.v6 (Ipv6Addr.ofNat (ofBE (b.take 16)))
          (UInt16.ofNat (ofBE ((b.drop 16).take 2))) 0 0)))
      else .err ⟨"IP address type", kind, "1, 3 or 4"⟩ := by
  rw [parse, if_neg (by simp), Cursor.getU8_cons, Outcome.ok_bind]
  dsimp only
  split
  · split
    · rfl
    · next h =>
      exact octets_port (k := 4)
        (fun octets port ↦ (7, .ip (.v4 (Ipv4Addr.ofNat (ofBE octets)) port))) (by omega)
  · split
    · cases b with
      | nil => rfl
      | cons len b =>
        rw [if_neg (by simp), Cursor.getU8_cons, Outcome.ok_bind]
        dsimp only
        split
        · rfl
        · next h =>
          have hn : 1 + 1 + (len.toNat + 2) = len.toNat + 4 := by omega
          rw [hn]
          exact octets_port (k := len.toNat)
            (fun host port ↦ (len.toNat + 4, fromHost (fromUtf8Lossy host) port)) (by omega)
    · split
      · split
        · rfl
        · next h =>
          exact octets_port (k := 16)
            (fun octets port ↦ (19, .ip (.v6 (Ipv6Addr.ofNat (ofBE octets)) port 0 0))) (by omega)
      · rfl

private theorem take_take_append {k : Nat} (b x : Bytes) (h : k + 2 ≤ b.length) :
    (b ++ x).take k = b.take k ∧ ((b ++ x).drop k).take 2 = (b.drop k).take 2 := by
  constructor
  · rw [List.take_append_of_le_length (by omega)]
  · rw [List.drop_append_of_le_length (by omega), List.take_append_of_le_length]
    rw [List.length_drop]
    omega

theorem parse_decided (b x : Bytes) (h : parse b ≠ .ok none) :
    parse (b ++ x) = parse b := by
  cases b with
  | nil => exact absurd rfl h
  | cons kind b =>
    rw [List.cons_append, parse_cons, parse_cons]
    rw [parse_cons] at h
    split at h
    · next hk =>
      split at h
      · exact absurd rfl h
      · next hl =>
        have hx : ¬ (b ++ x).length < 6 := by
          rw [List.length_append]
          omega
        obtain ⟨ht, hd⟩ := take_take_append (k := 4) b x (by omega)
        rw [if_pos hk, if_pos hk, if_neg hl, if_neg hx, ht, hd]
    · next hk1 =>
      rw [if_neg hk1, if_neg hk1]
      split at h
      · next hk =>
        rw [if_pos hk, if_pos hk]
        cases b with
        | nil => exact absurd rfl h
        | cons len b =>
          dsimp only at h ⊢
          split at h
          · exact absurd rfl h
          · next hl =>
            have hx : ¬ (b ++ x).length < len.toNat + 2 := by
              rw [List.length_append]
              omega
            obtain ⟨ht, hd⟩ := take_take_append (k := len.toNat) b x (by omega)
            rw [List.cons_append]
            dsimp only
            rw [if_neg hl, if_neg hx, ht, hd]
      · next hk3 =>
        rw [if_neg hk3, if_neg hk3]
        split at h
        · next hk =>
          split at h
          · exact absurd rfl h
          · next hl =>
            have hx : ¬ (b ++ x).length < 18 := by
              rw [List.length_append]
              omega
            obtain ⟨ht, hd⟩ := take_take_append (k := 16) b x (by omega)
            rw [if_pos hk, if_pos hk, if_neg hl, if_neg hx, ht, hd]
        · next hk => rw [if_neg hk, if_neg hk]

theorem parse_answered (b : Bytes) : Answered parse b := by
  cases b with
  | nil => exact .inl rfl
  | cons kind b =>
    rw [Answered, parse_cons, List.length_cons]
    split
    · split
      · exact .inl rfl
      · exact .inr (.inr ⟨_, _, rfl, by omega⟩)
    · split
      · cases b with
        | nil => exact .inl rfl
        | cons len b =>
          dsimp only
          split
          · exact .inl rfl
          · refine .inr (.inr ⟨_, _, rfl, ?_⟩)
            rw [List.length_cons]
            omega
      · split
        · split
          · exact .inl rfl
          · exact .inr (.inr ⟨_, _, rfl, by omega⟩)
        · exact .inr (.inl ⟨_, rfl⟩)

/-- `parse` changes no decision when bytes follow, and takes no more than it is given. -/
theorem parse_stable : Stable parse :=
  Stable.of_decided parse_answered parse_decided

/-- The parts of a field with a port do not depend on what follows it. -/
theorem take_field {k : Nat} (b : Bytes) :
    (b.take (k + 2)).take k = b.take k ∧
      ((b.take (k + 2)).drop k).take 2 = (b.drop k).take 2 := by
  constructor
  · rw [List.take_take, Nat.min_eq_left (by omega)]
  · rw [List.drop_take, List.take_take]
    congr 1
    omega

/-- An address is read from the bytes that `parse` reports. -/
theorem parse_exact : Exact parse := by
  intro b n a h
  cases b with
  | nil => cases h
  | cons kind b =>
    rw [parse_cons] at h
    split at h
    · next hk =>
      split at h <;> cases h
      next hl =>
        obtain ⟨ht, hd⟩ := take_field (k := 4) b
        have hlen : ¬ (b.take 6).length < 6 := by
          rw [List.length_take]
          omega
        rw [List.take_succ_cons, parse_cons, if_pos hk, if_neg hlen, ht, hd]
    · next hk1 =>
      split at h
      · next hk =>
        cases b with
        | nil => cases h
        | cons len b =>
          dsimp only at h
          split at h <;> cases h
          next hl =>
            obtain ⟨ht, hd⟩ := take_field (k := len.toNat) b
            have hlen : ¬ (b.take (len.toNat + 2)).length < len.toNat + 2 := by
              rw [List.length_take]
              omega
            rw [List.take_succ_cons, List.take_succ_cons, parse_cons, if_neg hk1, if_pos hk]
            dsimp only
            rw [if_neg hlen, ht, hd]
      · next hk3 =>
        split at h
        · next hk =>
          split at h <;> cases h
          next hl =>
            obtain ⟨ht, hd⟩ := take_field (k := 16) b
            have hlen : ¬ (b.take 18).length < 18 := by
              rw [List.length_take]
              omega
            rw [List.take_succ_cons, parse_cons, if_neg hk1, if_neg hk3, if_pos hk, if_neg hlen,
              ht, hd]
        · cases h

/-- `is_unspecified`; `addr.rs:243–250`. -/
def isUnspecified : Address → Bool
  | .ip addr => addr.isUnspecified
  | .name host _ => eqIgnoreAsciiCase host "0.0.0.0" || eqIgnoreAsciiCase host "::/128"

/-- `write_to` into a byte vector; `addr.rs:293–314`. The length of a name is converted
before anything is written. -/
def writeTo : Address → Outcome ErrorChain Bytes
  | .ip (.v4 a port) => .ok (0x1 :: (a.octets ++ toBE 2 port.toNat))
  | .ip (.v6 a port _ _) => .ok (0x4 :: (a.octets ++ toBE 2 port.toNat))
  | .name host port =>
    if (asBytes host).length ≤ 255 then
      .ok (0x3 :: UInt8.ofNat (asBytes host).length :: (asBytes host ++ toBE 2 port.toNat))
    else .err ["out of range integral type conversion attempted"]

/-- `Display for Address`; `addr.rs:317–324`. -/
def display : Address → String
  | .ip addr => addr.display
  | .name host port => host ++ ":" ++ toString port.toNat

/-- The part of an address that the wire formats carry. -/
def canonical : Address → Address
  | .ip addr => .ip addr.canonical
  | .name host port => .name host port

end Address
end Cpxy.Net
