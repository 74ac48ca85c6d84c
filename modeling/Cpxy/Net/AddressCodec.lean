import Cpxy.Net.Address

/-!
# The wire form of proxy addresses

Library `Net`. Source `src/socks5/addr.rs:127–175` and `262–315`. Two encoders write an
address, one of them to a stream, and a separate computation gives the length. Of the two
decoders, the one for buffers turns names that are IP literals into addresses and replaces
what is not UTF-8, the one for streams does neither.
-/

namespace Cpxy.Net

open Cpxy.Base

/-- What reached the writer, and how the call ended. -/
structure Written where
  bytes : Bytes
  outcome : Outcome ErrorChain Unit

namespace Address

/-! ### Encoders -/

/-- `write_len`; `addr.rs:262–268`. -/
def writeLen (a : Address) : Nat :=
  1 + (match a with
    | .ip (.v4 _ _) => 4
    | .ip (.v6 _ _ _ _) => 16
    | .name host _ => 1 + (asBytes host).length) + 2

/-- `write_all` of one part after another, to a writer that takes all it is given. -/
def writeAll (parts : List Bytes) : Written := ⟨parts.flatten, .ok ()⟩

/-- `host.as_bytes().len().try_into()?`, and what is written with the result. -/
def withLength (host : String) (next : UInt8 → Written) : Written :=
  if (asBytes host).length ≤ 255 then next (UInt8.ofNat (asBytes host).length)
  else ⟨[], .err ["out of range integral type conversion attempted"]⟩

/-- `write`; `addr.rs:270–291`. -/
def write : Address → Written
  | .ip (.v4 a port) => writeAll [[0x1], a.octets, toBE 2 port.toNat]
  | .ip (.v6 a port _ _) => writeAll [[0x4], a.octets, toBE 2 port.toNat]
  | .name host port =>
    withLength host fun len ↦ writeAll [[0x3, len], asBytes host, toBE 2 port.toNat]

/-- `write_to`; `addr.rs:293–314`, with what reached the writer also when it fails. -/
def writeInto : Address → Written
  | .ip (.v4 a port) => writeAll [[0x1], a.octets, toBE 2 port.toNat]
  | .ip (.v6 a port _ _) => writeAll [[0x4], a.octets, toBE 2 port.toNat]
  | .name host port =>
    withLength host fun len ↦ writeAll [[0x3], [len], asBytes host, toBE 2 port.toNat]

/-- A name that has no length byte. -/
def LongName : Address → Prop
  | .ip _ => False
  | .name host _ => 255 < (asBytes host).length

/-- What the wire carries of an address, read by the decoder for buffers. -/
def norm : Address → Address
  | .ip addr => .ip addr.canonical
  | .name host port => fromHost host port

theorem writeInto_of_long {a : Address} (h : a.LongName) :
    a.writeInto = ⟨[], .err ["out of range integral type conversion attempted"]⟩ := by
  match a, h with
  | .name host port, h =>
    have hlong : ¬ (asBytes host).length ≤ 255 := Nat.not_le.mpr h
    rw [writeInto, withLength, if_neg hlong]

/-- A byte vector gets what the writer is given. -/
theorem writeTo_of_short {a : Address} (h : ¬ a.LongName) :
    a.writeTo = .ok a.writeInto.bytes ∧ a.writeInto.outcome = .ok () := by
  match a with
  | .ip (.v4 a port) => exact ⟨by simp [writeTo, writeInto, writeAll], rfl⟩
  | .ip (.v6 a port _ _) => exact ⟨by simp [writeTo, writeInto, writeAll], rfl⟩
  | .name host port =>
    have hlen : (asBytes host).length ≤ 255 := Nat.not_lt.mp h
    rw [writeTo, writeInto, withLength, if_pos hlen, if_pos hlen]
    exact ⟨by simp [writeAll], rfl⟩

theorem write_eq_writeInto (a : Address) : a.write = a.writeInto := by
  match a with
  | .ip (.v4 _ _) => rfl
  | .ip (.v6 _ _ _ _) => rfl
  | .name host port => rfl

/-- A length byte is that of a short name. -/
theorem toNat_lenByte {host : String} (h : (asBytes host).length ≤ 255) :
    (UInt8.ofNat (asBytes host).length).toNat = (asBytes host).length := by
  rw [UInt8.toNat_ofNat']
  exact Nat.mod_eq_of_lt (by omega)

theorem length_writeInto {a : Address} (h : ¬ a.LongName) :
    a.writeInto.bytes.length = a.writeLen := by
  match a with
  | .ip (.v4 a port) => simp [writeInto, writeAll, writeLen]
  | .ip (.v6 a port _ _) => simp [writeInto, writeAll, writeLen]
  | .name host port =>
    have hlen : (asBytes host).length ≤ 255 := Nat.not_lt.mp h
    rw [writeInto, withLength, if_pos hlen]
    simp only [writeAll, writeLen, List.flatten_cons, List.flatten_nil, List.length_append,
      List.length_cons, List.length_nil, length_toBE]
    omega

/-- The two parts of a field with a port, in front of anything. -/
private theorem split_port (field : Bytes) (port : UInt16) (x : Bytes) :
    (field ++ (toBE 2 port.toNat ++ x)).take field.length = field ∧
      UInt16.ofNat (ofBE (((field ++ (toBE 2 port.toNat ++ x)).drop field.length).take 2)) =
        port := by
  have hport : port.toNat < 256 ^ 2 := port.toNat_lt
  have htake : (toBE 2 port.toNat ++ x).take 2 = toBE 2 port.toNat :=
    List.take_left' (length_toBE _ _)
  rw [List.take_left, List.drop_left, htake, ofBE_toBE hport, UInt16.ofNat_toNat]
  exact ⟨rfl, rfl⟩

/-- What is encoded is decoded, whatever follows. -/
theorem parse_writeInto {a : Address} (h : ¬ a.LongName) (x : Bytes) :
    parse (a.writeInto.bytes ++ x) = .ok (some (a.writeLen, a.norm)) := by
  match a with
  | .ip (.v4 a port) =>
    obtain ⟨htake, hport⟩ := split_port a.octets port x
    rw [Ipv4Addr.length_octets] at htake hport
    have hbytes : (writeInto (.ip (.v4 a port))).bytes ++ x =
        0x1 :: (a.octets ++ (toBE 2 port.toNat ++ x)) := by
      simp [writeInto, writeAll]
    have hlen : ¬ (a.octets ++ (toBE 2 port.toNat ++ x)).length < 6 := by
      simp only [List.length_append, Ipv4Addr.length_octets, length_toBE]
      omega
    rw [hbytes, parse_cons, if_pos rfl, if_neg hlen, htake, hport, Ipv4Addr.ofNat_octets]
    rfl
  | .ip (.v6 a port flow scope) =>
    obtain ⟨htake, hport⟩ := split_port a.octets port x
    rw [Ipv6Addr.length_octets] at htake hport
    have hbytes : (writeInto (.ip (.v6 a port flow scope))).bytes ++ x =
        0x4 :: (a.octets ++ (toBE 2 port.toNat ++ x)) := by
      simp [writeInto, writeAll]
    have hlen : ¬ (a.octets ++ (toBE 2 port.toNat ++ x)).length < 18 := by
      simp only [List.length_append, Ipv6Addr.length_octets, length_toBE]
      omega
    rw [hbytes, parse_cons, if_neg (by decide), if_neg (by decide), if_pos rfl, if_neg hlen, htake,
      hport, Ipv6Addr.ofNat_octets]
    rfl
  | .name host port =>
    have hle : (asBytes host).length ≤ 255 := Nat.not_lt.mp h
    obtain ⟨htake, hport⟩ := split_port (asBytes host) port x
    have hbytes : (writeInto (.name host port)).bytes ++ x =
        0x3 :: UInt8.ofNat (asBytes host).length ::
          (asBytes host ++ (toBE 2 port.toNat ++ x)) := by
      rw [writeInto, withLength, if_pos hle]
      simp [writeAll]
    have hlen : ¬ (asBytes host ++ (toBE 2 port.toNat ++ x)).length <
        (asBytes host).length + 2 := by
      simp only [List.length_append, length_toBE]
      omega
    have hn : (asBytes host).length + 4 = writeLen (.name host port) := by
      rw [writeLen]
      omega
    rw [hbytes, parse_cons, if_neg (by decide), if_pos rfl]
    dsimp only
    rw [toNat_lenByte hle, if_neg hlen, htake, hport, fromUtf8Lossy_asBytes, hn]
    rfl

/-! ### Decoding and encoding again -/

/-- The bytes of the name in an encoded address that has one. -/
def nameBytes : Bytes → Option Bytes
  | 0x3 :: len :: b => some (b.take len.toNat)
  | _ => none

/-- An address that was decoded encodes to itself, unless its name was not UTF-8. -/
theorem norm_of_parse {b : Bytes} {n : Nat} {a : Address} (h : parse b = .ok (some (n, a)))
    (hname : ∀ name, nameBytes b = some name → (fromUtf8 name).isSome) :
    ¬ a.LongName ∧ a.norm = a := by
  cases b with
  | nil => cases h
  | cons kind b =>
    rw [parse_cons] at h
    split at h
    · split at h <;> cases h
      exact ⟨id, rfl⟩
    · split at h
      · next hkind =>
        subst hkind
        cases b with
        | nil => cases h
        | cons len b =>
          dsimp only at h
          split at h <;> cases h
          next hlen =>
            obtain ⟨host, hhost⟩ := Option.isSome_iff_exists.mp (hname (b.take len.toNat) rfl)
            have hbytes := asBytes_of_fromUtf8 hhost
            rw [← hbytes, fromUtf8Lossy_asBytes]
            generalize UInt16.ofNat (ofBE ((b.drop len.toNat).take 2)) = port
            unfold fromHost
            split
            · next ip hip => exact ⟨id, by rw [norm, SocketAddr.canonical_new]⟩
            · next hip =>
              refine ⟨?_, ?_⟩
              · have hle : (asBytes host).length ≤ len.toNat := by
                  rw [hbytes]
                  exact List.length_take_le _ _
                have hlt := len.toNat_lt
                exact Nat.not_lt.mpr (by omega)
              · rw [norm, fromHost, hip]
      · split at h
        · split at h <;> cases h
          exact ⟨id, rfl⟩
        · cases h

/-- The wire codec of addresses: encoding fails, and then writes nothing, exactly on long
names; else both encoders write `write_len` bytes, which are decoded to the address that the
wire carries, whatever follows. What was decoded is encoded and decoded to itself. -/
theorem address_codec :
    (∀ a : Address,
      ((∃ e, a.writeInto.outcome = .err e) ↔ a.LongName) ∧
      (a.LongName → a.writeInto.bytes = []) ∧
      (¬ a.LongName → a.writeInto.outcome = .ok () ∧ a.writeInto.bytes.length = a.writeLen ∧
        a.write = a.writeInto ∧
        ∀ x, parse (a.writeInto.bytes ++ x) = .ok (some (a.writeLen, a.norm)))) ∧
    ∀ b n a, parse b = .ok (some (n, a)) →
      (∀ name, nameBytes b = some name → (fromUtf8 name).isSome) →
      a.writeInto.outcome = .ok () ∧ ∃ m, parse a.writeInto.bytes = .ok (some (m, a)) := by
  constructor
  · intro a
    refine ⟨⟨?_, ?_⟩, ?_, ?_⟩
    · rintro ⟨e, he⟩
      by_contra hshort
      rw [(writeTo_of_short hshort).2] at he
      cases he
    · intro hlong
      rw [writeInto_of_long hlong]
      exact ⟨_, rfl⟩
    · intro hlong
      rw [writeInto_of_long hlong]
    · intro hshort
      exact ⟨(writeTo_of_short hshort).2, length_writeInto hshort, write_eq_writeInto a,
        parse_writeInto hshort⟩
  · intro b n a h hname
    obtain ⟨hshort, hnorm⟩ := norm_of_parse h hname
    have hback := parse_writeInto hshort []
    rw [List.append_nil, hnorm] at hback
    exact ⟨(writeTo_of_short hshort).2, _, hback⟩

/-! ### The decoder for streams -/

/-- `read_exact` with a context. -/
def readExactAs (text : String) (n : Nat) : Cursor ErrorChain Bytes :=
  Cursor.readExact [text, "unexpected end of file"] n

/-- `parse_async`; `addr.rs:127–175`. Of the last error only the context is kept. -/
def parseAsync : Cursor ErrorChain Address := do
  let buf ← readExactAs "Reading address type" 1
  let kind ← Cursor.onBytes buf Cursor.getU8
  if kind = 0x1 then do
    let buf ← readExactAs "Reading IPv4 addr" 6
    Cursor.onBytes buf do
      let ip ← Cursor.getBE 4
      let port ← Cursor.getU16
      pure (.ip (.v4 (Ipv4Addr.ofNat ip) port))
  else if kind = 0x4 then do
    let buf ← readExactAs "Reading IPv6 addr" 18
    Cursor.onBytes buf do
      let ip ← Cursor.getBE 16
      let port ← Cursor.getU16
      pure (.ip (.v6 (Ipv6Addr.ofNat ip) port 0 0))
  else if kind = 0x3 then do
    let buf ← readExactAs "Reading address len" 1
    let addrLen ← Cursor.onBytes buf Cursor.getU8
    let addrBuf ← readExactAs "Reading address" addrLen.toNat
    let buf ← readExactAs "Reading port" 2
    let port ← Cursor.onBytes buf Cursor.getU16
    match fromUtf8 addrBuf with
    | some addr => pure (.name addr port)
    | none => Cursor.throw ["Parsing address string"]
  else Cursor.throw [s!"Unknown address type {kind}"]

/-- What is read of a stream is read also when more of it has arrived. -/
theorem parseAsync_persists : parseAsync.Persists := by
  have hread : ∀ text n, (readExactAs text n).Persists :=
    fun text n ↦ Cursor.Persists.readExact _ n
  have hbytes : ∀ {α : Type} x (p : Cursor ErrorChain α), (Cursor.onBytes x p).Persists :=
    fun x p ↦ Cursor.Persists.onBytes x p
  apply (hread _ _).bind
  intro buf
  apply (hbytes buf _).bind
  intro kind
  split
  · exact (hread _ _).bind fun _ ↦ hbytes _ _
  · split
    · exact (hread _ _).bind fun _ ↦ hbytes _ _
    · split
      · apply (hread _ _).bind
        intro buf
        apply (hbytes buf _).bind
        intro addrLen
        apply (hread _ _).bind
        intro addrBuf
        apply (hread _ _).bind
        intro buf
        apply (hbytes buf _).bind
        intro port
        split
        · exact Cursor.Persists.pure _
        · exact Cursor.Persists.throw _
      · exact Cursor.Persists.throw _

theorem readExactAs_of_lt {text : String} {n : Nat} {b : Bytes} (h : b.length < n) :
    readExactAs text n b = .err [text, "unexpected end of file"] := by
  rw [readExactAs, Cursor.readExact, if_neg (Nat.not_le.mpr h)]

theorem readExactAs_of_le {text : String} {n : Nat} {b : Bytes} (h : n ≤ b.length) :
    readExactAs text n b = .ok (b.take n, b.drop n) := by
  rw [readExactAs, Cursor.readExact, if_pos h]

/-- A number of `k` bytes and a port, as the IP branches of `parse_async` read them. -/
private theorem readOctets_eq (k : Nat) (text : String) (f : Nat → UInt16 → Address) (b : Bytes) :
    (do
      let buf ← readExactAs text (k + 2)
      Cursor.onBytes buf do
        let ip ← Cursor.getBE k
        let port ← Cursor.getU16
        pure (f ip port) : Cursor ErrorChain Address) b =
      if b.length < k + 2 then .err [text, "unexpected end of file"]
      else .ok (f (ofBE (b.take k)) (UInt16.ofNat (ofBE ((b.drop k).take 2))),
        b.drop (k + 2)) := by
  rw [Cursor.bind_apply]
  split
  · next hlen =>
    rw [readExactAs_of_lt hlen]
    rfl
  · next hlen =>
    obtain ⟨htake, hdrop⟩ := take_field (k := k) b
    have hbuf : (b.take (k + 2)).length = k + 2 := List.length_take_of_le (by omega)
    have hk : k ≤ (b.take (k + 2)).length := by omega
    have h2 : 2 ≤ ((b.take (k + 2)).drop k).length := by
      rw [List.length_drop]
      omega
    rw [readExactAs_of_le (by omega), Outcome.ok_bind]
    simp [Cursor.onBytes, Cursor.bind_apply, Cursor.getBE_of_le hk, Cursor.getU16_of_le h2,
      htake, hdrop]

/-- A name behind its length, and a port, as the name branch reads them. -/
private theorem readName_eq (b : Bytes) :
    (do
      let buf ← readExactAs "Reading address len" 1
      let addrLen ← Cursor.onBytes buf Cursor.getU8
      let addrBuf ← readExactAs "Reading address" addrLen.toNat
      let buf ← readExactAs "Reading port" 2
      let port ← Cursor.onBytes buf Cursor.getU16
      match fromUtf8 addrBuf with
      | some addr => pure (.name addr port)
      | none => Cursor.throw ["Parsing address string"] : Cursor ErrorChain Address) b =
      match b with
      | [] => .err ["Reading address len", "unexpected end of file"]
      | len :: b =>
        if b.length < len.toNat then .err ["Reading address", "unexpected end of file"]
        else if b.length < len.toNat + 2 then .err ["Reading port", "unexpected end of file"]
        else match fromUtf8 (b.take len.toNat) with
          | some addr =>
            .ok (.name addr (UInt16.ofNat (ofBE ((b.drop len.toNat).take 2))),
              b.drop (len.toNat + 2))
          | none => .err ["Parsing address string"] := by
  rw [Cursor.bind_apply]
  cases b with
  | nil => rfl
  | cons len b =>
    have hlen1 : readExactAs "Reading address len" 1 (len :: b) = .ok ([len], b) :=
      readExactAs_of_le (by simp)
    have hlenb : (Cursor.onBytes [len] Cursor.getU8 : Cursor ErrorChain UInt8) b =
        .ok (len, b) := rfl
    rw [hlen1, Outcome.ok_bind, Cursor.bind_apply, hlenb, Outcome.ok_bind, Cursor.bind_apply]
    dsimp only
    split
    · next hname =>
      rw [readExactAs_of_lt hname]
      rfl
    · next hname =>
      rw [readExactAs_of_le (by omega), Outcome.ok_bind, Cursor.bind_apply]
      dsimp only
      by_cases hport : b.length < len.toNat + 2
      · rw [readExactAs_of_lt (by rw [List.length_drop]; omega), if_pos hport]
        rfl
      · have hleft : 2 ≤ (b.drop len.toNat).length := by
          rw [List.length_drop]
          omega
        have htwo : ((b.drop len.toNat).take 2).length = 2 := List.length_take_of_le hleft
        rw [if_neg hport, readExactAs_of_le hleft, Outcome.ok_bind, Cursor.bind_apply,
          Cursor.onBytes, Cursor.getU16_of_le htwo.ge, Outcome.ok_bind, Outcome.ok_bind,
          List.drop_drop, List.take_take, Nat.min_self]
        cases fromUtf8 (b.take len.toNat) <;> rfl

/-- `parse_async` by its type byte, with the bytes that each branch takes. -/
theorem parseAsync_cons (kind : UInt8) (b : Bytes) :
    parseAsync (kind :: b) =
      if kind = 0x1 then
        if b.length < 6 then .err ["Reading IPv4 addr", "unexpected end of file"]
        else .ok (.ip (.v4 (Ipv4Addr.ofNat (ofBE (b.take 4)))
          (UInt16.ofNat (ofBE ((b.drop 4).take 2)))), b.drop 6)
      else if kind = 0x4 then
        if b.length < 18 then .err ["Reading IPv6 addr", "unexpected end of file"]
        else .ok (.ip (.v6 (Ipv6Addr.ofNat (ofBE (b.take 16)))
          (UInt16.ofNat (ofBE ((b.drop 16).take 2))) 0 0), b.drop 18)
      else if kind = 0x3 then
        match b with
        | [] => .err ["Reading address len", "unexpected end of file"]
        | len :: b =>
          if b.length < len.toNat then .err ["Reading address", "unexpected end of file"]
          else if b.length < len.toNat + 2 then .err ["Reading port", "unexpected end of file"]
          else match fromUtf8 (b.take len.toNat) with
            | some addr =>
              .ok (.name addr (UInt16.ofNat (ofBE ((b.drop len.toNat).take 2))),
                b.drop (len.toNat + 2))
            | none => .err ["Parsing address string"]
      else .err [s!"Unknown address type {kind}"] := by
  have hone : readExactAs "Reading address type" 1 (kind :: b) = .ok ([kind], b) :=
    readExactAs_of_le (by simp)
  have hkind : (Cursor.onBytes [kind] Cursor.getU8 : Cursor ErrorChain UInt8) b = .ok (kind, b) :=
    rfl
  rw [parseAsync, Cursor.bind_apply, hone, Outcome.ok_bind, Cursor.bind_apply, hkind,
    Outcome.ok_bind]
  dsimp only
  split
  · exact readOctets_eq 4 _ (fun ip port ↦ .ip (.v4 (Ipv4Addr.ofNat ip) port)) b
  · split
    · exact readOctets_eq 16 _ (fun ip port ↦ .ip (.v6 (Ipv6Addr.ofNat ip) port 0 0)) b
    · split
      · exact readName_eq b
      · rfl

/-- What the two decoders owe each other: the buffer decoder reads an address from so many
bytes exactly when the stream decoder reads it and has then consumed so many. -/
def DecodersAgree (b : Bytes) : Prop :=
  ∀ n a, parse b = .ok (some (n, a)) ↔ n ≤ b.length ∧ parseAsync b = .ok (a, b.drop n)

/-- A name that is all there is UTF-8, and not an IP literal. -/
def PlainName : Bytes → Prop
  | 0x3 :: len :: b => len.toNat + 2 ≤ b.length →
      ∃ host, fromUtf8 (b.take len.toNat) = some host ∧ IpAddr.fromStr host = none
  | _ => True

/-- Addresses read from the same bytes agree if they are the same. -/
theorem decodersAgree_of_read {b : Bytes} {n : Nat} {a a' : Address}
    (h : parse b = .ok (some (n, a))) (h' : parseAsync b = .ok (a', b.drop n)) :
    DecodersAgree b ↔ a = a' := by
  have hn := (parse_stable.complete b n a h).1
  constructor
  · intro hagree
    have hread := ((hagree n a).mp h).2
    rw [h'] at hread
    cases hread
    rfl
  · rintro rfl m c
    rw [h, h']
    constructor
    · intro hsame
      cases hsame
      exact ⟨hn, rfl⟩
    · rintro ⟨hm, hsame⟩
      have hrest : b.drop n = b.drop m := by
        injection hsame with hsame
        injection hsame
      have hlen := congrArg List.length hrest
      rw [List.length_drop, List.length_drop] at hlen
      obtain rfl : n = m := by omega
      cases hsame
      rfl

/-- Where neither reads anything, the decoders agree. -/
theorem decodersAgree_of_neither {b : Bytes} (h : ∀ n a, parse b ≠ .ok (some (n, a)))
    (h' : ∀ a r, parseAsync b ≠ .ok (a, r)) : DecodersAgree b := by
  intro n a
  constructor
  · intro hread
    exact absurd hread (h n a)
  · rintro ⟨_, hread⟩
    exact absurd hread (h' _ _)

/-- Both read socket addresses alike, and nothing from other types. -/
theorem decodersAgree_of_not_name {kind : UInt8} (h3 : kind ≠ 0x3) (b : Bytes) :
    DecodersAgree (kind :: b) := by
  have hparse := parse_cons kind b
  have hasync := parseAsync_cons kind b
  rw [if_neg h3] at hparse hasync
  by_cases h1 : kind = 0x1
  · rw [if_pos h1] at hparse hasync
    by_cases hlen : b.length < 6
    · rw [if_pos hlen] at hparse hasync
      exact decodersAgree_of_neither (by simp [hparse]) (by simp [hasync])
    · rw [if_neg hlen] at hparse hasync
      exact (decodersAgree_of_read hparse hasync).mpr rfl
  · rw [if_neg h1] at hparse hasync
    by_cases h4 : kind = 0x4
    · rw [if_pos h4] at hparse hasync
      by_cases hlen : b.length < 18
      · rw [if_pos hlen] at hparse hasync
        exact decodersAgree_of_neither (by simp [hparse]) (by simp [hasync])
      · rw [if_neg hlen] at hparse hasync
        exact (decodersAgree_of_read hparse hasync).mpr rfl
    · rw [if_neg h4] at hparse hasync
      exact decodersAgree_of_neither (by simp [hparse]) (by simp [hasync])

/-- A name is read alike if it is UTF-8 and stays a name. -/
theorem decodersAgree_name_iff {len : UInt8} {b : Bytes} (hlen : len.toNat + 2 ≤ b.length) :
    DecodersAgree (0x3 :: len :: b) ↔
      ∃ host, fromUtf8 (b.take len.toNat) = some host ∧ IpAddr.fromStr host = none := by
  have hparse := parse_cons 0x3 (len :: b)
  have hasync := parseAsync_cons 0x3 (len :: b)
  rw [if_neg (by decide), if_pos rfl] at hparse
  rw [if_neg (by decide), if_neg (by decide), if_pos rfl] at hasync
  dsimp only at hparse hasync
  rw [if_neg (Nat.not_lt.mpr hlen)] at hparse hasync
  rw [if_neg (by omega)] at hasync
  cases hname : fromUtf8 (b.take len.toNat) with
  | none =>
    rw [hname] at hasync
    refine iff_of_false ?_ ?_
    · intro hagree
      have hread := ((hagree _ _).mp hparse).2
      rw [hasync] at hread
      cases hread
    · rintro ⟨host, hhost, _⟩
      cases hhost
  | some host =>
    rw [hname] at hasync
    have hlossy : fromUtf8Lossy (b.take len.toNat) = host := by
      rw [← asBytes_of_fromUtf8 hname, fromUtf8Lossy_asBytes]
    rw [hlossy] at hparse
    rw [decodersAgree_of_read hparse hasync, fromHost]
    cases hip : IpAddr.fromStr host with
    | none => exact iff_of_true rfl ⟨host, rfl, hip⟩
    | some ip =>
      refine iff_of_false (by simp) ?_
      rintro ⟨host', hhost', hnone⟩
      cases hhost'
      rw [hip] at hnone
      cases hnone

/-- The decoders agree on every input but a name that is all there and is not UTF-8, or an IP
literal. -/
theorem decoders_agree_iff (b : Bytes) : DecodersAgree b ↔ PlainName b := by
  match b with
  | [] =>
    refine iff_of_true (decodersAgree_of_neither (by simp [parse]) ?_) trivial
    intro a r h
    cases h
  | kind :: b =>
    by_cases h3 : kind = 0x3
    · subst h3
      cases b with
      | nil =>
        exact iff_of_true
          (decodersAgree_of_neither (by simp [parse_cons]) (by simp [parseAsync_cons])) trivial
      | cons len b =>
        rw [PlainName]
        by_cases hlen : len.toNat + 2 ≤ b.length
        · rw [decodersAgree_name_iff hlen]
          exact ⟨fun h _ ↦ h, fun h ↦ h hlen⟩
        · refine iff_of_true ?_ fun h ↦ absurd h hlen
          have hshort : b.length < len.toNat + 2 := Nat.not_le.mp hlen
          apply decodersAgree_of_neither
          · simp [parse_cons, hshort]
          · intro a r h
            rw [parseAsync_cons, if_neg (by decide), if_neg (by decide), if_pos rfl] at h
            dsimp only at h
            rw [if_pos hshort] at h
            split at h <;> cases h
    · refine iff_of_true (decodersAgree_of_not_name h3 b) ?_
      unfold PlainName
      split
      · next heq =>
        cases heq
        exact absurd rfl h3
      · trivial

/-- The name `1.2.3.4` is an address to the one decoder, and a name to the other. -/
theorem decoders_disagree_on_literal : ¬ ∀ b, DecodersAgree b := by
  intro h
  have hparse : parse ([0x3, 7] ++ asBytes "1.2.3.4" ++ [0, 80]) =
      .ok (some (11, .ip (.v4 (Ipv4Addr.ofNat 0x01020304) 80))) := by
    decide +kernel
  have hasync : parseAsync ([0x3, 7] ++ asBytes "1.2.3.4" ++ [0, 80]) =
      .ok (.name "1.2.3.4" 80, []) := by
    decide +kernel
  have hread := ((h _ _ _).mp hparse).2
  rw [hasync] at hread
  cases hread

end Address
end Cpxy.Net
