import Cpxy.FireTcp.Read
import Cpxy.Net.Address

/-!
# The firetcp handshake

Library `FireTcp`. Source `src/protocol/firetcp/proto.rs:18–109`,
`src/protocol/firetcp/server.rs:43–76`, `src/protocol/firetcp/pw.rs:13–38` and
`src/utils.rs:63–102`. In a request the client names the destination and the keys that take over
behind the first 512 bytes, and writes on. The server can install these keys only when it has
read the request, so a request that fills the first 512 bytes comes too late.
-/

namespace Cpxy

open Cpxy.Base Cpxy.Io Cpxy.Net

/-- `PasswordedKey` without its text; `pw.rs:13–18`. The derivation fixes the lengths. -/
structure FireTcp.PasswordedKey where
  initKey : Bytes
  initNonce : Bytes
  length_initKey : initKey.length = 32
  length_initNonce : initNonce.length = 12

/-- `FireTcp`; `proto.rs:18–23`. -/
structure FireTcp where
  address : Address
  password : FireTcp.PasswordedKey

namespace FireTcp

/-- `ChaCha20`: the keystream of a key and a nonce. -/
abbrev ChaCha20 := Bytes → Bytes → Keystream

/-- `CipherOption`; `proto.rs:35–39`. -/
structure CipherOption where
  key : Bytes
  nonce : Bytes
  length_key : key.length = 32
  length_nonce : nonce.length = 12
  deriving DecidableEq

/-- The keystream that an option names. -/
def CipherOption.keys (chacha20 : ChaCha20) (c : CipherOption) : Keystream :=
  chacha20 c.key c.nonce

/-- `Request`; `proto.rs:41–46`. -/
structure Request where
  addr : Address
  initialDataLen : Nat
  estCipher : Option CipherOption

/-- What `serde` makes of a request: an address is its text; `addr.rs:45–52`. -/
structure RequestJson where
  addr : String
  initialDataLen : Nat
  estCipher : Option CipherOption
  deriving DecidableEq

/-- `serde_json` on requests. -/
structure JsonCodec where
  toWriter : RequestJson → Bytes
  fromSlice : Bytes → Outcome ErrorChain RequestJson

namespace Request

/-- The fields that are written. -/
def toJson (r : Request) : RequestJson := ⟨r.addr.display, r.initialDataLen, r.estCipher⟩

/-- A request from the fields that are read; `addr.rs:54–64`. -/
def ofJson (j : RequestJson) : Outcome ErrorChain Request := do
  let addr ← Address.tryFrom j.addr
  .ok ⟨addr, j.initialDataLen, j.estCipher⟩

theorem ofJson_toJson {r : Request} (h : Address.tryFrom r.addr.display = .ok r.addr) :
    ofJson r.toJson = .ok r := by
  rw [ofJson, toJson, h, Outcome.ok_bind]

end Request

/-! ### The client -/

/-- The writing half of the client's connection, and how often it has been polled. -/
structure Uplink where
  run : Run
  calls : Nat

namespace Uplink

/-- The choice of an established cipher. -/
def setEstablishCipher (u : Uplink) (keys : Option Keystream) : Outcome ErrorChain Uplink := do
  (u.run.writer.setEstablishCipher (keys.map Cipher.new)).1
  .ok { u with run := u.run.step (.setEstablish keys) }

/-- One write, to a transport that takes up to so many bytes at each call. -/
def write (limits : Nat → Nat) (u : Uplink) (buf : Bytes) : Outcome ErrorChain (Nat × Uplink) :=
  awaited ((u.run.writer.pollWrite buf (.ready (limits u.calls))).1,
    ⟨u.run.step (.poll buf (some (limits u.calls))), u.calls + 1⟩)

/-- `write_all`: what was not taken is written again. -/
def writeAll (limits : Nat → Nat) (u : Uplink) (buf : Bytes) : Outcome ErrorChain Uplink :=
  if _hbuf : buf = [] then .ok u
  else do
    let (n, u) ← u.write limits buf
    if _hn : n = 0 then .err ["write zero"]
    else u.writeAll limits (buf.drop n)
termination_by buf.length
decreasing_by
  have := List.length_pos_iff.mpr _hbuf
  rw [List.length_drop]
  omega

/-- One `write_all` after another. -/
def writeEach (limits : Nat → Nat) (u : Uplink) : List Bytes → Outcome ErrorChain Uplink
  | [] => .ok u
  | buf :: bufs => do
    let u ← u.writeAll limits buf
    u.writeEach limits bufs

end Uplink

/-- `write_bincode_lengthed`; `utils.rs:63–74`. -/
def writeBincodeLengthed (codec : JsonCodec) (buf : Bytes) (o : Request) :
    Outcome ErrorChain Bytes :=
  let json := codec.toWriter o.toJson
  if 65535 < json.length then .err [s!"Object is too big: {json.length} > 65535"]
  else .ok (buf ++ toBE 2 json.length ++ json)

/-- `write_bincode_lengthed_async`; `utils.rs:76–84`. -/
def writeBincodeLengthedAsync (codec : JsonCodec) (limits : Nat → Nat) (u : Uplink)
    (o : Request) : Outcome ErrorChain Uplink := do
  let data ← writeBincodeLengthed codec [] o
  u.writeAll limits data

/-- `INITIAL_CIPHER_LEN`; `proto.rs:48`. -/
def initialCipherLen : Nat := 512

/-- The request for a destination; `proto.rs:80–102`. Its keys are random, and there are none
for port 443. -/
def request (dst : Address) (initialData : Option Bytes) (random : CipherOption) :
    Request where
  addr := dst
  initialDataLen := (initialData.map List.length).getD 0
  estCipher := if dst.getPort = 443 then none else some random

/-- `new_stream`; `proto.rs:56–109`. The counters of the connection are left out. -/
def newStream (codec : JsonCodec) (chacha20 : ChaCha20)
    (connectTcpMarked : Address → Option UInt32 → Outcome ErrorChain Unit) (limits : Nat → Nat)
    (random : CipherOption) (self : FireTcp) (dst : Address) (initialData : Option Bytes)
    (fwmark : Option UInt32) : Outcome ErrorChain Uplink := do
  (connectTcpMarked self.address fwmark).context "Connecting to firetcp server"
  let w : Uplink :=
    ⟨.start initialCipherLen (chacha20 self.password.initKey self.password.initNonce), 0⟩
  let req := request dst initialData random
  let w ← (w.setEstablishCipher (req.estCipher.map (CipherOption.keys chacha20))).context
    "Unable to set establish cipher"
  let w ← (writeBincodeLengthedAsync codec limits w req).context "Unable to send request"
  match initialData with
  | some b => (w.writeAll limits b).context "Sending initial data"
  | none => .ok w

/-! ### The server -/

/-- `read_bincode_lengthed_async`; `utils.rs:86–102`. -/
def readBincodeLengthedAsync (codec : JsonCodec) (r : CipherRead) :
    Outcome ErrorChain (Request × CipherRead) := do
  let (len, r) ← CipherRead.reader.readExact ["unexpected end of file"] r 2
  let (json, r) ← CipherRead.reader.readExact ["unexpected end of file"] r (ofBE len)
  let fields ← codec.fromSlice json
  let request ← Request.ofJson fields
  .ok (request, r)

/-- `serve`, up to the end of the client's stream; `server.rs:43–72`: the destination, and what
the upload task copies there. -/
def serve (codec : JsonCodec) (chacha20 : ChaCha20)
    (connectTcp : Address → Outcome ErrorChain Unit) (password : PasswordedKey)
    (stream : List Chunk) : Outcome ErrorChain (Address × Bytes) := do
  let r := CipherRead.new stream initialCipherLen
    (.new (chacha20 password.initKey password.initNonce))
  let (request, r) ← (readBincodeLengthedAsync codec r).context "Reading request"
  let (established, r) := r.setEstablishCipher
    ((request.estCipher.map (CipherOption.keys chacha20)).map .new)
  established.context "Unable to change est cipher"
  (connectTcp request.addr).context s!"Connecting to upstream {request.addr.display}"
  let data ← CipherRead.reader.readToEnd 8192 r
  .ok (request.addr, data)

/-! ### What the client sends -/

namespace Uplink

variable {n : Nat} {initial : Keystream} {established : Option Keystream} {plain : Bytes}
  {u u' : Uplink} {limits : Nat → Nat}

/-- This much has been written, under these keys. -/
structure Sent (n : Nat) (initial : Keystream) (established : Option Keystream) (plain : Bytes)
    (u : Uplink) : Prop where
  inStep : InStep n initial u.run
  accepted : u.run.accepted = plain
  established : u.run.established = established

theorem Sent.wire (h : Sent n initial established plain u) :
    u.run.wire = xorAt (wireKeys n initial established) 0 plain := by
  rw [h.inStep.wire, h.accepted, h.established]

/-- On a new connection the established cipher is accepted. -/
theorem sent_start (hn : 0 < n) (initial : Keystream) (keys : Option Keystream) :
    ∃ u, (Uplink.mk (.start n initial) 0).setEstablishCipher keys = .ok u ∧
      Sent n initial keys [] u :=
  ⟨_, rfl, (inStep_start hn initial).setEstablish keys, rfl, rfl⟩

/-- A transport that takes some of what it is offered takes all of a `write_all`. -/
theorem Sent.writeAll (hlimits : ∀ i, 0 < limits i) (h : Sent n initial established plain u)
    (buf : Bytes) :
    ∃ u', u.writeAll limits buf = .ok u' ∧ Sent n initial established (plain ++ buf) u' := by
  induction hlen : buf.length using Nat.strongRecOn generalizing u plain buf with
  | ind len ih =>
    rw [Uplink.writeAll]
    by_cases hbuf : buf = []
    · rw [dif_pos hbuf, hbuf, List.append_nil]
      exact ⟨u, rfl, h⟩
    · obtain ⟨m, hm, hpoll⟩ := h.inStep.pollWrite_ready hbuf (hlimits u.calls)
      have hpos := List.length_pos_iff.mpr hbuf
      have hlt : (buf.drop m).length < len := by
        rw [List.length_drop]
        omega
      have hsent : Sent n initial established (plain ++ buf.take m)
          ⟨u.run.step (.poll buf (some (limits u.calls))), u.calls + 1⟩ := by
        refine ⟨h.inStep.poll_ready buf _, ?_, h.established⟩
        show u.run.accepted ++ acceptedPrefix buf (u.run.writer.pollWrite buf _).1 = _
        rw [Answer.ofLimit, hpoll, h.accepted, acceptedPrefix]
      obtain ⟨u', hrest, hu'⟩ := ih _ hlt hsent _ rfl
      refine ⟨u', ?_, ?_⟩
      · rw [dif_neg hbuf, Uplink.write, hpoll, awaited, Outcome.ok_bind]
        show (if _ : m = 0 then _ else _) = _
        rw [dif_neg (by omega), hrest]
      · rwa [List.append_assoc, List.take_append_drop] at hu'

theorem Sent.writeEach (hlimits : ∀ i, 0 < limits i) (h : Sent n initial established plain u)
    (bufs : List Bytes) :
    ∃ u', u.writeEach limits bufs = .ok u' ∧
      Sent n initial established (plain ++ bufs.flatten) u' := by
  induction bufs generalizing u plain with
  | nil => exact ⟨u, rfl, by rwa [List.flatten_nil, List.append_nil]⟩
  | cons buf bufs ih =>
    obtain ⟨u₁, hfirst, h₁⟩ := h.writeAll hlimits buf
    obtain ⟨u₂, hrest, h₂⟩ := ih h₁
    refine ⟨u₂, ?_, ?_⟩
    · rw [Uplink.writeEach, hfirst, Outcome.ok_bind, hrest]
    · rwa [List.flatten_cons, ← List.append_assoc]

end Uplink

section Handshake

variable {codec : JsonCodec} {chacha20 : ChaCha20} {limits : Nat → Nat} {random : CipherOption}
  {connectTcpMarked : Address → Option UInt32 → Outcome ErrorChain Unit} {self : FireTcp}
  {dst : Address} {initialData : Option Bytes} {fwmark : Option UInt32}

/-- On a connection, a request that fits its length field is written, and the initial data. -/
theorem newStream_eq (chacha20 : ChaCha20) (hlimits : ∀ i, 0 < limits i)
    (hconnected : connectTcpMarked self.address fwmark = .ok ())
    (hfits : (codec.toWriter (request dst initialData random).toJson).length ≤ 65535) :
    let json := codec.toWriter (request dst initialData random).toJson
    ∃ u, newStream codec chacha20 connectTcpMarked limits random self dst initialData fwmark =
        .ok u ∧
      u.Sent initialCipherLen (chacha20 self.password.initKey self.password.initNonce)
        ((request dst initialData random).estCipher.map (CipherOption.keys chacha20))
        (toBE 2 json.length ++ json ++ initialData.getD []) := by
  intro json
  obtain ⟨u₀, hset, h₀⟩ := Uplink.sent_start (by decide : 0 < initialCipherLen)
    (chacha20 self.password.initKey self.password.initNonce)
    ((request dst initialData random).estCipher.map (CipherOption.keys chacha20))
  obtain ⟨u₁, hwrite, h₁⟩ := h₀.writeAll hlimits (toBE 2 json.length ++ json)
  have hlengthed : writeBincodeLengthed codec [] (request dst initialData random) =
      .ok (toBE 2 json.length ++ json) := by
    rw [writeBincodeLengthed, if_neg (by omega), List.nil_append]
  rw [newStream, hconnected, Outcome.context_ok, Outcome.ok_bind]
  dsimp only
  rw [hset, Outcome.context_ok, Outcome.ok_bind, writeBincodeLengthedAsync, hlengthed,
    Outcome.ok_bind, hwrite, Outcome.context_ok, Outcome.ok_bind]
  cases initialData with
  | none => exact ⟨u₁, rfl, by simpa using h₁⟩
  | some b =>
    obtain ⟨u₂, hinitial, h₂⟩ := h₁.writeAll hlimits b
    refine ⟨u₂, ?_, h₂⟩
    show (u₁.writeAll limits b).context "Sending initial data" = .ok u₂
    rw [hinitial, Outcome.context_ok]

/-- The client succeeds exactly when it is connected and its request fits. -/
theorem newStream_isOk_iff (hlimits : ∀ i, 0 < limits i) :
    (∃ u, newStream codec chacha20 connectTcpMarked limits random self dst initialData fwmark =
      .ok u) ↔
      connectTcpMarked self.address fwmark = .ok () ∧
        (codec.toWriter (request dst initialData random).toJson).length ≤ 65535 := by
  constructor
  · rintro ⟨u, h⟩
    obtain ⟨⟨⟩, hconnected, h⟩ := Outcome.bind_eq_ok_iff.mp h
    obtain ⟨w, _, h⟩ := Outcome.bind_eq_ok_iff.mp h
    obtain ⟨w', hrequest, _⟩ := Outcome.bind_eq_ok_iff.mp h
    refine ⟨Outcome.context_eq_ok.mp hconnected, ?_⟩
    obtain ⟨data, hlengthed, _⟩ := Outcome.bind_eq_ok_iff.mp (Outcome.context_eq_ok.mp hrequest)
    rw [writeBincodeLengthed] at hlengthed
    by_contra hlong
    rw [if_pos (by omega)] at hlengthed
    cases hlengthed
  · rintro ⟨hconnected, hfits⟩
    obtain ⟨u, hnew, _⟩ := newStream_eq chacha20 hlimits hconnected hfits
    exact ⟨u, hnew⟩

/-- A client that succeeds has sent its request behind its length, and the initial data. -/
theorem newStream_sent (hlimits : ∀ i, 0 < limits i) {u : Uplink}
    (h : newStream codec chacha20 connectTcpMarked limits random self dst initialData fwmark =
      .ok u) :
    let json := codec.toWriter (request dst initialData random).toJson
    u.Sent initialCipherLen (chacha20 self.password.initKey self.password.initNonce)
      ((request dst initialData random).estCipher.map (CipherOption.keys chacha20))
      (toBE 2 json.length ++ json ++ initialData.getD []) := by
  intro json
  obtain ⟨hconnected, hfits⟩ := (newStream_isOk_iff hlimits).mp ⟨u, h⟩
  obtain ⟨_, heq, hsent⟩ := newStream_eq chacha20 hlimits hconnected hfits
  rw [h] at heq
  cases heq
  exact hsent

/-! ### What the server reads -/

/-- The first bytes are decrypted before the established cipher is known. -/
theorem take_decrypted {n k : Nat} (initial : Keystream) (established : Option Keystream)
    (plain : Bytes) (hk : k ≤ n) :
    (xorAt (wireKeys n initial none) 0
      (xorAt (wireKeys n initial established) 0 plain)).take k = plain.take k := by
  have hlen : (plain.take k).length ≤ k := List.length_take_le k plain
  rw [take_xorAt, take_xorAt, xorAt_wireKeys_of_le initial established (by omega),
    xorAt_wireKeys_of_le initial none (by rw [length_xorAt]; omega), xorAt_xorAt]

/-- The length of a request is read as it was sent; so is the request, up to the end of the
bytes under the initial keys. -/
theorem readBincodeLengthedAsync_eq (codec : JsonCodec) {n : Nat} {initial : Keystream}
    {established : Option Keystream} {json rest : Bytes} {cs : List Chunk} (hn : 2 ≤ n)
    (hfits : json.length ≤ 65535)
    (hcs : content cs = xorAt (wireKeys n initial established) 0
      (toBE 2 json.length ++ json ++ rest)) :
    ∃ r, CipherRead.ReadAt n initial none (content cs) (2 + json.length) r ∧
      readBincodeLengthedAsync codec (.new cs n (.new initial)) = (do
        let fields ← codec.fromSlice
          (((xorAt (wireKeys n initial none) 0 (content cs)).drop 2).take json.length)
        let request ← Request.ofJson fields
        .ok (request, r)) := by
  have hdelivers := CipherRead.delivers n initial none (content cs)
  have hlen : (xorAt (wireKeys n initial none) 0 (content cs)).length =
      2 + json.length + rest.length := by
    simp [hcs, Nat.add_assoc]
  obtain ⟨r₁, hheader, hr₁⟩ := hdelivers.readExact ["unexpected end of file"]
    (CipherRead.readAt_new (by omega) initial cs) (by omega : 0 + 2 ≤ _)
  obtain ⟨r₂, hbody, hr₂⟩ := hdelivers.readExact ["unexpected end of file"] hr₁
    (by omega : 0 + 2 + json.length ≤ _)
  have htwo : ((xorAt (wireKeys n initial none) 0 (content cs)).drop 0).take 2 =
      toBE 2 json.length := by
    rw [List.drop_zero, hcs, take_decrypted initial established _ hn, List.append_assoc,
      List.take_append_of_le_length (by simp), List.take_of_length_le (by simp)]
  have hofBE : ofBE (toBE 2 json.length) = json.length := ofBE_toBE (by omega)
  refine ⟨r₂, hr₂, ?_⟩
  rw [readBincodeLengthedAsync, hheader, Outcome.ok_bind]
  dsimp only
  rw [htwo, hofBE, hbody, Outcome.ok_bind]

section Serve

variable {connectTcp : Address → Outcome ErrorChain Unit} {password : PasswordedKey}
  {rest : Bytes} {cs : List Chunk}

/-- A request that ends before the established cipher takes over is served, and what follows it
is copied. -/
theorem serve_early (req : Request) (haddr : Address.tryFrom req.addr.display = .ok req.addr)
    (hconnect : connectTcp req.addr = .ok ())
    (hjson : codec.fromSlice (codec.toWriter req.toJson) = .ok req.toJson)
    (hlen : (codec.toWriter req.toJson).length ≤ 509)
    (hcs : content cs = xorAt (wireKeys initialCipherLen
        (chacha20 password.initKey password.initNonce)
        (req.estCipher.map (CipherOption.keys chacha20))) 0
      (toBE 2 (codec.toWriter req.toJson).length ++ codec.toWriter req.toJson ++ rest)) :
    serve codec chacha20 connectTcp password cs = .ok (req.addr, rest) := by
  generalize codec.toWriter req.toJson = json at *
  generalize hinitial : chacha20 password.initKey password.initNonce = initial at *
  have hshort : 2 + json.length < initialCipherLen := by
    rw [initialCipherLen]
    omega
  obtain ⟨r, hr, hread⟩ := readBincodeLengthedAsync_eq codec (by decide) (by omega) hcs
  have hhead : ((xorAt (wireKeys initialCipherLen initial none) 0 (content cs)).drop 2).take
      json.length = json := by
    rw [List.take_drop, hcs, take_decrypted initial _ _ (by omega), ← List.take_drop,
      List.append_assoc, List.drop_left' (length_toBE 2 _), List.take_left]
  obtain ⟨r', hset, hr'⟩ := hr.setEstablishCipher_early hshort
    (req.estCipher.map (CipherOption.keys chacha20))
  have hcopy := (CipherRead.delivers _ _ _ _).readToEnd hr' (by decide : 0 < 8192)
  have hrest : (toBE 2 json.length ++ json ++ rest).drop (2 + json.length) = rest :=
    List.drop_left' (by simp)
  rw [hcs, xorAt_xorAt, hrest] at hcopy
  rw [serve]
  dsimp only
  rw [hinitial, hread, hhead, hjson, Outcome.ok_bind, Request.ofJson_toJson haddr,
    Outcome.ok_bind, Outcome.context_ok, Outcome.ok_bind]
  dsimp only
  rw [hset, Outcome.context_ok, Outcome.ok_bind, hconnect, Outcome.context_ok, Outcome.ok_bind,
    hcopy, Outcome.ok_bind]

/-- Behind any other request the server installs no cipher: either it is not decoded, or it is
too late. -/
theorem serve_late {json : Bytes} {established : Option Keystream} (hlate : 509 < json.length)
    (hfits : json.length ≤ 65535)
    (hcs : content cs = xorAt (wireKeys initialCipherLen
        (chacha20 password.initKey password.initNonce) established) 0
      (toBE 2 json.length ++ json ++ rest)) :
    serve codec chacha20 connectTcp password cs = (do
      let _ ← Outcome.context "Reading request" (do
        let fields ← codec.fromSlice (((xorAt (wireKeys initialCipherLen
          (chacha20 password.initKey password.initNonce) none) 0 (content cs)).drop 2).take
            json.length)
        Request.ofJson fields)
      .err ["Unable to change est cipher",
        "Connection already established, too late for cipher change"]) := by
  generalize hinitial : chacha20 password.initKey password.initNonce = initial at *
  obtain ⟨r, hr, hread⟩ := readBincodeLengthedAsync_eq codec (by decide) hfits hcs
  have hlong : initialCipherLen ≤ 2 + json.length := by
    rw [initialCipherLen]
    omega
  rw [serve]
  dsimp only
  rw [hinitial, hread]
  cases codec.fromSlice (((xorAt (wireKeys initialCipherLen initial none) 0
      (content cs)).drop 2).take json.length) with
  | err e => rfl
  | panicked => rfl
  | ok fields =>
    rw [Outcome.ok_bind, Outcome.ok_bind]
    cases Request.ofJson fields with
    | err e => rfl
    | panicked => rfl
    | ok req =>
      rw [Outcome.ok_bind, Outcome.context_ok, Outcome.context_ok, Outcome.ok_bind,
        Outcome.ok_bind]
      dsimp only
      rw [hr.setEstablishCipher_late hlong]
      rfl

end Serve

/-- The server serves the client's destination with all that the client sent for it exactly when
the text of the request is at most 509 bytes long. -/
theorem serve_agrees_iff (hlimits : ∀ i, 0 < limits i)
    (haddr : Address.tryFrom dst.display = .ok dst)
    (hjson : codec.fromSlice (codec.toWriter (request dst initialData random).toJson) =
      .ok (request dst initialData random).toJson)
    {u : Uplink}
    (hnew : newStream codec chacha20 connectTcpMarked limits random self dst initialData fwmark =
      .ok u)
    (payload : List Bytes) (connectTcp : Address → Outcome ErrorChain Unit)
    (hconnect : connectTcp dst = .ok ()) :
    ∃ u', u.writeEach limits payload = .ok u' ∧ ∀ cs, content cs = u'.run.wire →
      (serve codec chacha20 connectTcp self.password cs =
          .ok (dst, initialData.getD [] ++ payload.flatten) ↔
        (codec.toWriter (request dst initialData random).toJson).length ≤ 509) := by
  obtain ⟨_, hfits⟩ := (newStream_isOk_iff hlimits).mp ⟨u, hnew⟩
  obtain ⟨u', hwrites, hsent'⟩ := (newStream_sent hlimits hnew).writeEach hlimits payload
  refine ⟨u', hwrites, fun cs hcs ↦ ?_⟩
  rw [hsent'.wire, List.append_assoc] at hcs
  constructor
  · intro hok
    by_contra hlate
    rw [serve_late (by omega) hfits hcs] at hok
    obtain ⟨_, _, herr⟩ := Outcome.bind_eq_ok_iff.mp hok
    cases herr
  · intro hlen
    exact serve_early (request dst initialData random) haddr hconnect hjson hlen hcs

end Handshake

/-! ### Two requests

The keystream is that of the cipher, computed. -/

private def rotl (x n : UInt32) : UInt32 := x <<< n ||| x >>> (32 - n)

private def quarterRound (a b c d : Nat) (s : List UInt32) : List UInt32 :=
  let a₁ := s.getD a 0 + s.getD b 0
  let d₁ := rotl (s.getD d 0 ^^^ a₁) 16
  let c₁ := s.getD c 0 + d₁
  let b₁ := rotl (s.getD b 0 ^^^ c₁) 12
  let a₂ := a₁ + b₁
  let d₂ := rotl (d₁ ^^^ a₂) 8
  let c₂ := c₁ + d₂
  (((s.set a a₂).set b (rotl (b₁ ^^^ c₂) 7)).set c c₂).set d d₂

private def doubleRound (s : List UInt32) : List UInt32 :=
  let s := (List.range 4).foldl (fun s i ↦ quarterRound i (4 + i) (8 + i) (12 + i) s) s
  (List.range 4).foldl
    (fun s i ↦ quarterRound i (4 + (i + 1) % 4) (8 + (i + 2) % 4) (12 + (i + 3) % 4) s) s

private def littleWord (b : Bytes) (i : Nat) : UInt32 :=
  .ofNat (ofBE ((b.drop (4 * i)).take 4).reverse)

private def chacha20Keys : ChaCha20 := fun key nonce pos ↦
  let start := [0x61707865, 0x3320646e, 0x79622d32, 0x6b206574] ++
    (List.range 8).map (littleWord key) ++ [.ofNat (pos / 64)] ++
    (List.range 3).map (littleWord nonce)
  let block := List.zipWith (· + ·) start ((List.range 10).foldl (fun s _ ↦ doubleRound s) start)
  (block.getD (pos % 64 / 4) 0 >>> .ofNat (8 * (pos % 4))).toUInt8

private def zeros (n : Nat) : Bytes := List.replicate n 0

private def zeroCipher : CipherOption := ⟨zeros 32, zeros 12, rfl, rfl⟩

example : (List.range 2).map (zeroCipher.keys chacha20Keys) = [0x76, 0xb8] := by decide +kernel

private def zeroClient : FireTcp := ⟨.default, zeros 32, zeros 12, rfl, rfl⟩

private def jsonNumbers (b : Bytes) : String :=
  "[" ++ ",".intercalate (b.map fun x ↦ toString x.toNat) ++ "]"

-- The compact text of a request whose address needs no escapes.
private def compactJson (j : RequestJson) : Bytes :=
  let cipher := match j.estCipher with
    | none => "null"
    | some c =>
      "\x7b\"key\":" ++ jsonNumbers c.key ++ ",\"nonce\":" ++ jsonNumbers c.nonce ++ "\x7d"
  asBytes ("\x7b\"addr\":\"" ++ j.addr ++ "\",\"initial_data_len\":" ++
    toString j.initialDataLen ++ ",\"est_cipher\":" ++ cipher ++ "\x7d")

private def compactCodec (j : RequestJson) : JsonCodec where
  toWriter := compactJson
  fromSlice b := if b = compactJson j then .ok j else .err ["expected value"]

private theorem compactCodec_lossless (j : RequestJson) :
    (compactCodec j).fromSlice ((compactCodec j).toWriter j) = .ok j :=
  if_pos rfl

/-- A short name, its request of 157 bytes: all is copied, in a cipher that is agreed upon. -/
theorem serve_agrees_short_name :
    let codec := compactCodec (request (.name "a" 80) (some [1]) zeroCipher).toJson
    ∃ u, newStream codec chacha20Keys (fun _ _ ↦ .ok ()) (fun _ ↦ 100) zeroCipher zeroClient
        (.name "a" 80) (some [1]) none = .ok u ∧
      ∃ u', u.writeEach (fun _ ↦ 100) [[2, 3], [4]] = .ok u' ∧ ∀ cs, content cs = u'.run.wire →
        serve codec chacha20Keys (fun _ ↦ .ok ()) zeroClient.password cs =
          .ok (.name "a" 80, [1, 2, 3, 4]) := by
  intro codec
  have hlen : (codec.toWriter (request (.name "a" 80) (some [1]) zeroCipher).toJson).length ≤
      509 := by
    decide +kernel
  have haddr : Address.tryFrom (Address.name "a" 80).display = .ok (.name "a" 80) := by
    decide +kernel
  obtain ⟨u, hnew⟩ : ∃ u, newStream codec chacha20Keys (fun _ _ ↦ .ok ()) (fun _ ↦ 100)
      zeroCipher zeroClient (.name "a" 80) (some [1]) none = .ok u :=
    (newStream_isOk_iff fun _ ↦ by decide).mpr ⟨rfl, hlen.trans (by decide)⟩
  obtain ⟨u', hwrites, hserve⟩ := serve_agrees_iff (fun _ ↦ by decide) haddr
    (compactCodec_lossless _) hnew [[2, 3], [4]] (fun _ ↦ .ok ()) rfl
  exact ⟨u, hnew, u', hwrites, fun cs hcs ↦ (hserve cs hcs).mpr hlen⟩

private def longName : Address := .name (String.ofList (List.replicate 500 'a')) 443

private theorem longName_text :
    longName.display.toList = List.replicate 500 'a' ++ [':', '4', '4', '3'] := by
  rw [longName, Address.display, String.toList_append, String.toList_append,
    String.toList_ofList, List.append_assoc]
  rfl

private theorem tryFrom_longName : Address.tryFrom longName.display = .ok longName := by
  have hip : SocketAddr.fromStr longName.display = none := by
    rw [SocketAddr.fromStr, longName_text]
    rfl
  have hsplit : rsplitOnce ':' longName.display.toList =
      some (List.replicate 500 'a', ['4', '4', '3']) := by
    rw [longName_text]
    decide +kernel
  have hport : parseUnsigned 65536 ['4', '4', '3'] = .ok 443 := by decide
  rw [Address.tryFrom, hip, hsplit]
  dsimp only
  rw [if_pos (by decide +kernel), hport]
  rfl

/-- A name of 500 letters, its request of 554 bytes: the server refuses to go on. -/
theorem serve_refuses_long_name :
    let codec := compactCodec (request longName none zeroCipher).toJson
    Address.tryFrom longName.display = .ok longName ∧
      codec.fromSlice (codec.toWriter (request longName none zeroCipher).toJson) =
        .ok (request longName none zeroCipher).toJson ∧
      ∃ u cs, newStream codec chacha20Keys (fun _ _ ↦ .ok ()) (fun _ ↦ 1024) zeroCipher
          zeroClient longName none none = .ok u ∧
        content cs = u.run.wire ∧
        serve codec chacha20Keys (fun _ ↦ .ok ()) zeroClient.password cs =
          .err ["Unable to change est cipher",
            "Connection already established, too late for cipher change"] := by
  intro codec
  have hlen : (codec.toWriter (request longName none zeroCipher).toJson).length = 554 := by
    decide +kernel
  have hjson := compactCodec_lossless (request longName none zeroCipher).toJson
  refine ⟨tryFrom_longName, hjson, ?_⟩
  have hlate : 509 < (codec.toWriter (request longName none zeroCipher).toJson).length := by omega
  have hfits : (codec.toWriter (request longName none zeroCipher).toJson).length ≤ 65535 := by
    omega
  obtain ⟨u, hnew⟩ : ∃ u, newStream codec chacha20Keys (fun _ _ ↦ .ok ()) (fun _ ↦ 1024)
      zeroCipher zeroClient longName none none = .ok u :=
    (newStream_isOk_iff fun _ ↦ by decide).mpr ⟨rfl, hfits⟩
  obtain ⟨cs, hcs⟩ := exists_content u.run.wire
  refine ⟨u, cs, hnew, hcs, ?_⟩
  -- behind the first 512 bytes nothing is encrypted, so the request is decoded
  have hest : (request longName none zeroCipher).estCipher = none := by decide +kernel
  have hofJson : Request.ofJson (request longName none zeroCipher).toJson =
      .ok (request longName none zeroCipher) := Request.ofJson_toJson tryFrom_longName
  have hsent := newStream_sent (fun _ ↦ by decide) hnew
  rw [hsent.wire, hest, Option.map_none] at hcs
  rw [serve_late hlate hfits hcs, hcs, xorAt_xorAt, List.append_assoc,
    List.drop_left' (length_toBE 2 _), List.take_left, hjson, Outcome.ok_bind,
    hofJson, Outcome.context_ok, Outcome.ok_bind]

end FireTcp
end Cpxy
