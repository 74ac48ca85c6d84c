import Cpxy.Http.Url
import Cpxy.Http.WebSocket
import Cpxy.TcpMan.CipherParams
import Cpxy.TcpMan.CipherStream

/-!
# The cipher channel

Library `TcpMan`. Source `src/protocol/tcpman/cipher/client.rs:58–109` and
`src/protocol/tcpman/cipher/server.rs:15–124`. A client picks a key, sends it with the
strategies in the path of an upgrade request, and encrypts some initial data in a header with
the cipher that goes on with its stream. The server builds its ciphers from the path. What
one end has accepted, the other reads, in both directions.
-/

namespace Cpxy.TcpMan

open Cpxy.Base Cpxy.Http Cpxy.Io

/-- What `pick_cipher` draws at random; `suite.rs:47–51`. -/
structure CipherKeys where
  key : Bytes
  iv : Bytes
  length_key : key.length = 32
  length_iv : iv.length = 12

/-- An end of the channel: its cipher stream and the stream below. -/
structure Endpoint (α : Type) where
  stream : CipherStream
  source : AsyncHttpStream α

/-! ### The client -/

/-- `INITIAL_DATA_HEADER`; `client.rs:58`. -/
def initialDataHeader : String := "X-Cache-Key"

/-- The writing cipher, and what it makes of the initial data; `client.rs:68–69,79–81`. -/
def encryptInitial (chacha20 : Chacha20) (k : CipherKeys) (send : EncryptionStrategy)
    (initialData : Bytes) : Outcome ErrorChain (Bytes × StrategyCipher) := do
  let wrCipher ← send.wrapCipher (Cipher.new (chacha20 k.key k.iv))
  if 0 < initialData.length then wrCipher.apply initialData else .ok (initialData, wrCipher)

/-- The parameters in the path; `client.rs:71–77`. -/
def connectParams (k : CipherKeys) (send recv : EncryptionStrategy) : CipherParams :=
  ⟨k.key, k.iv, send, recv, 1⟩

/-- The headers that `connect` puts; `client.rs:84–93`. -/
def connectHeaders (host : String) (auth : Option String) (data : Bytes) :
    List (String × String) :=
  [("Host", host), (initialDataHeader, Base64.encodeText data)] ++
    (match auth with
      | some auth => [("Authorization", auth)]
      | none => [])

/-- The request of `connect`, with the data as it is encrypted; `client.rs:83–95`. -/
def connectRequest (k : CipherKeys) (send recv : EncryptionStrategy) (host : String)
    (auth : Option String) (data : Bytes) : Bytes :=
  websocketRequest ((HttpRequestBuilder.new "GET" (connectParams k send recv).display).putHeaderTexts
    (connectHeaders host auth data))

/-- `connect`; `client.rs:60–109`. -/
def connect (chacha20 : Chacha20) (httparse : HttparseResponse) (mem : Bytes) (k : CipherKeys)
    (send recv : EncryptionStrategy) (url : HttpUrl) (auth : Option String) (initialData : Bytes)
    (cs : List Chunk) : Replied (Endpoint HttpResponse) :=
  match encryptInitial chacha20 k send initialData with
  | .err e => ⟨[], .err e⟩
  | .panicked => ⟨[], .panicked⟩
  | .ok (data, wrCipher) =>
    ⟨connectRequest k send recv url.address.getHost auth data, do
      let source ← negotiateWebsocket httparse mem cs
      match createCipher chacha20 1 k.key k.iv with
      | .ok c => do
        let rdCipher ← recv.wrapCipher c
        .ok ⟨.new rdCipher wrCipher, source⟩
      | _ => .panicked⟩

/-! ### The server -/

/-- `check_request`; `server.rs:15–47`. The error is the response, and its text. -/
def checkRequest (chacha20 : Chacha20) (path : String) :
    Outcome (String × String) (StrategyCipher × StrategyCipher) :=
  match CipherParams.fromStr path with
  | .err _ => .err ("HTTP/1.1 404 Not found\r\n\r\n", "Invalid PATH")
  | .panicked => .panicked
  | .ok p =>
    match createCipher chacha20 p.cipherType p.key p.iv with
    | .err _ => .err ("HTTP/1.1 401 Invalid type\r\n\r\n", "Invalid cipher type")
    | .panicked => .panicked
    | .ok c => do
      let rdCipher ← p.sendStrategy.wrapCipher c
      let c ← match createCipher chacha20 p.cipherType p.key p.iv with
        | .ok c => .ok c
        | _ => .panicked
      let wrCipher ← p.recvStrategy.wrapCipher c
      .ok (rdCipher, wrCipher)

/-- `Handshaker`; `server.rs:49–53`. -/
structure ServerHandshaker where
  r : AsyncHttpStream HttpRequest
  rc : StrategyCipher
  wc : StrategyCipher

/-- `accept_client`; `server.rs:92–124`. -/
def acceptClient (chacha20 : Chacha20) (httparse : Httparse) (mem : Bytes) (cs : List Chunk) :
    Replied (Option Bytes × ServerHandshaker) :=
  let served := serveWebsocket httparse mem cs
  match served.outcome with
  | .err e => ⟨served.written, .err e⟩
  | .panicked => ⟨served.written, .panicked⟩
  | .ok req =>
    match checkRequest chacha20 req.init.path with
    | .err (res, err) => ⟨served.written ++ asBytes res, .err [err]⟩
    | .panicked => ⟨served.written, .panicked⟩
    | .ok (rdCipher, wrCipher) =>
      ⟨served.written,
        match getHeader req.init.headers initialDataHeader with
        | some value => do
          let data ← CipherParams.decodeEngine value
          let (data, rdCipher) ← rdCipher.apply data
          .ok (some data, ⟨req, rdCipher, wrCipher⟩)
        | none => .ok (none, ⟨req, rdCipher, wrCipher⟩)⟩

/-- `respond_success`; `server.rs:78–89`: what it writes, and the server's end. -/
def ServerHandshaker.respondSuccess (h : ServerHandshaker) : Bytes × Endpoint HttpRequest :=
  (switchingProtocols, ⟨.new h.rc h.wc, h.r⟩)

/-! ### Runs of reads -/

/-- An end that is read from, with what was read, and whether a call has failed. -/
structure Reading (α : Type) where
  endpoint : Endpoint α
  got : Bytes
  failed : Bool

/-- The length of a slice. -/
abbrev Room := { n : Nat // n ≤ isizeMax }

namespace Reading

variable {α : Type}

/-- Nothing read. -/
def start (e : Endpoint α) : Reading α where
  endpoint := e
  got := []
  failed := false

/-- One call of `poll_read`, with the length of its slice, and whether the stream below has
to be waited for. -/
def step (r : Reading α) (call : Room × Bool) : Reading α :=
  let (result, source) := r.endpoint.source.pollRead call.1.val call.2
  let (result, stream) := r.endpoint.stream.pollRead result
  match result with
  | .pending => ⟨⟨stream, source⟩, r.got, r.failed⟩
  | .ready (.ok data) => ⟨⟨stream, source⟩, r.got ++ data, r.failed⟩
  | .ready _ => ⟨⟨stream, source⟩, r.got, true⟩

/-- What was read is a front part of the wire, with the keys taken off. -/
def Invariant (strategy : EncryptionStrategy) (ks : Keystream) (pos : Nat) (wire : Bytes)
    (r : Reading α) : Prop :=
  ∃ seen, seen ++ r.endpoint.source.unread = wire ∧ r.got = xorAt (strategy.keys ks) pos seen ∧
    InStep strategy ks (pos + seen.length) r.endpoint.stream.rdCipher ∧ r.failed = false

/-- Reading leaves the writing cipher alone. -/
theorem wrCipher_step (r : Reading α) (call : Room × Bool) :
    (r.step call).endpoint.stream.wrCipher = r.endpoint.stream.wrCipher := by
  rw [← CipherStream.wrCipher_pollRead r.endpoint.stream
    (r.endpoint.source.pollRead call.1.val call.2).1]
  unfold step
  dsimp only
  split <;> rfl

variable {strategy : EncryptionStrategy} {ks : Keystream} {pos : Nat} {wire plain : Bytes}
  {r : Reading α}

theorem Invariant.step (h : Invariant strategy ks pos wire r) (hs : strategy.Counts)
    (call : Room × Bool) : Invariant strategy ks pos wire (r.step call) := by
  obtain ⟨seen, hall, hgot, hstep, hok⟩ := h
  rcases r.endpoint.source.pollRead_spec call.1.val call.2 with hpoll | ⟨data, source, hpoll, hdata⟩
  · rw [Reading.step, hpoll]
    exact ⟨seen, hall, hgot, hstep, hok⟩
  · obtain ⟨hrest, hroom⟩ := hdata
    obtain ⟨stream, hread, hstep'⟩ := hstep.pollRead hs (Nat.le_trans hroom call.1.property)
    rw [Reading.step, hpoll]
    dsimp only
    rw [hread]
    refine ⟨seen ++ data, ?_, ?_, ?_, hok⟩
    · rw [List.append_assoc, hrest, hall]
    · dsimp only
      rw [hgot, xorAt_append]
    · rw [List.length_append, ← Nat.add_assoc]
      exact hstep'

theorem Invariant.failed (h : Invariant strategy ks pos wire r) : r.failed = false := by
  obtain ⟨_, _, _, _, hok⟩ := h
  exact hok

theorem invariant_start {e : Endpoint α} (h : InStep strategy ks pos e.stream.rdCipher) :
    Invariant strategy ks pos e.source.unread (start e) :=
  ⟨[], rfl, rfl, h, rfl⟩

/-- What was read off a wire is a front part of what was put on it, and all of it once the
wire is empty. -/
theorem Invariant.got (h : Invariant strategy ks pos (xorAt (strategy.keys ks) pos plain) r) :
    r.got <+: plain ∧ (r.endpoint.source.unread = [] → r.got = plain) := by
  obtain ⟨seen, hall, hgot, _, _⟩ := h
  have hseen : seen = xorAt (strategy.keys ks) pos (plain.take seen.length) := by
    rw [← take_xorAt, ← hall, List.take_left]
  constructor
  · rw [hgot, hseen, xorAt_xorAt]
    exact List.take_prefix _ _
  · intro hempty
    rw [hempty, List.append_nil] at hall
    rw [hgot, hall, xorAt_xorAt]

end Reading

/-! ### Both ends -/

variable {chacha20 : Chacha20} {k : CipherKeys} {send recv : EncryptionStrategy}

variable (chacha20 k) in
/-- The initial data is encrypted from the start of the keystream, and the cipher goes on
behind it. -/
theorem encryptInitial_eq (hsend : send.Counts) {d : Bytes} (hd : d.length ≤ isizeMax) :
    ∃ c, encryptInitial chacha20 k send d =
        .ok (xorAt (send.keys (chacha20 k.key k.iv)) 0 d, c) ∧
      StrategyCipher.At send (chacha20 k.key k.iv) d.length c := by
  obtain ⟨c, hwrap, hat⟩ :=
    StrategyCipher.at_wrapCipher (ε := ErrorChain) (chacha20 k.key k.iv) hsend
  rw [encryptInitial, hwrap, Outcome.ok_bind]
  by_cases hlen : 0 < d.length
  · obtain ⟨c', happly, hat', _⟩ := hat.apply (ε := ErrorChain) hsend hd
    rw [Nat.zero_add] at hat'
    rw [if_pos hlen]
    exact ⟨c', happly, hat'⟩
  · obtain rfl : d = [] := List.eq_nil_of_length_eq_zero (by omega)
    rw [if_neg hlen]
    exact ⟨c, rfl, hat⟩

theorem createCipher_keys : createCipher chacha20 1 k.key k.iv =
    .ok (Cipher.new (chacha20 k.key k.iv)) := by
  rw [createCipher, if_pos rfl, if_pos ⟨k.length_key, k.length_iv⟩]

variable (chacha20 k) in
/-- The server builds the ciphers that the path of the client names. -/
theorem checkRequest_connect (hsend : send.Counts) (hrecv : recv.Counts) :
    ∃ rc wc, checkRequest chacha20 (connectParams k send recv).display = .ok (rc, wc) ∧
      StrategyCipher.At send (chacha20 k.key k.iv) 0 rc ∧
      StrategyCipher.At recv (chacha20 k.key k.iv) 0 wc := by
  obtain ⟨rc, hrc, hatr⟩ :=
    StrategyCipher.at_wrapCipher (ε := String × String) (chacha20 k.key k.iv) hsend
  obtain ⟨wc, hwc, hatw⟩ :=
    StrategyCipher.at_wrapCipher (ε := String × String) (chacha20 k.key k.iv) hrecv
  refine ⟨rc, wc, ?_, hatr, hatw⟩
  rw [checkRequest, CipherParams.fromStr_display]
  simp only [connectParams, createCipher_keys, hrc, hwc, Outcome.ok_bind]

/-- The client's headers, as a parser returns them. -/
def connectHead (k : CipherKeys) (send recv : EncryptionStrategy) (host : String)
    (auth : Option String) (data : Bytes) : ParsedHead where
  method := some "GET"
  path := some (connectParams k send recv).display
  headers := textHeaders (connectHeaders host auth data ++ upgradeHeaders)

theorem isUpgrade_connectHead (host : String) (auth : Option String) (data : Bytes) :
    isUpgrade (connectHead k send recv host auth data).headers = true := by
  rw [connectHead, textHeaders, List.map_append]
  apply isUpgrade_textHeaders
  intro p hp
  obtain ⟨q, hq, rfl⟩ := List.mem_map.mp hp
  have hname : q.1 ∈ ["Host", "X-Cache-Key", "Authorization"] := by
    cases auth with
    | none =>
      simp only [connectHeaders, List.append_nil, List.mem_cons, List.not_mem_nil, or_false] at hq
      rcases hq with rfl | rfl <;> simp [initialDataHeader]
    | some auth =>
      simp only [connectHeaders, List.mem_append, List.mem_cons, List.not_mem_nil, or_false] at hq
      rcases hq with (rfl | rfl) | rfl <;> simp [initialDataHeader]
  have hall : ∀ m ∈ ["Host", "X-Cache-Key", "Authorization"], ∀ n ∈ upgradeNames,
      eqIgnoreAsciiCase m n = false := by
    decide
  exact hall q.1 hname

theorem getHeader_connectHead (host : String) (auth : Option String) (data : Bytes) :
    getHeader (connectHead k send recv host auth data).headers initialDataHeader =
      some (asBytes (Base64.encodeText data)) := by
  have hhost : eqIgnoreAsciiCase "Host" initialDataHeader = false := by decide
  have hself : eqIgnoreAsciiCase initialDataHeader initialDataHeader = true := by decide
  simp only [connectHead, connectHeaders, textHeaders, List.cons_append, List.map_cons]
  rw [getHeader_cons, hhost, if_neg Bool.false_ne_true, getHeader_cons, hself, if_pos rfl]

theorem connectRequest_ne_nil (host : String) (auth : Option String) (data : Bytes) :
    connectRequest k send recv host auth data ≠ [] := by
  intro h
  have hend : asBytes "\r\n" = [] := (List.append_eq_nil_iff.mp h).2
  exact absurd hend (by decide)

variable (chacha20 k) in
/-- The client gets through the handshake, and stands behind it in both directions. -/
theorem connect_spec (hsend : send.Counts) (hrecv : recv.Counts) {httparse : HttparseResponse}
    (hp : Stable httparse) {headers : List (String × Bytes)}
    (hreads : httparse switchingProtocols =
      .ok (some (switchingProtocols.length, ⟨some 101, headers⟩)))
    {mem : Bytes} (hmem : 2 ≤ mem.length) (url : HttpUrl) (auth : Option String) (d : Slice)
    {cs : List Chunk} {y : Bytes} (hcs : content cs = switchingProtocols ++ y) :
    ∃ client, connect chacha20 httparse mem k send recv url auth d.val cs =
        ⟨connectRequest k send recv url.address.getHost auth
          (xorAt (send.keys (chacha20 k.key k.iv)) 0 d.val), .ok client⟩ ∧ client.source.unread = y ∧
      InStep send (chacha20 k.key k.iv) d.val.length client.stream.wrCipher ∧
      InStep recv (chacha20 k.key k.iv) 0 client.stream.rdCipher := by
  obtain ⟨wrCipher, hinit, hwr⟩ := encryptInitial_eq chacha20 k hsend d.property
  obtain ⟨rdCipher, hwrap, hrd⟩ :=
    StrategyCipher.at_wrapCipher (ε := ErrorChain) (chacha20 k.key k.iv) hrecv
  have hhead := responseHead_readsWord (hp.readsWord hreads) rfl
  obtain ⟨source, hparse, hsource, hunread, _⟩ :=
    parseHead_spec ["Unexpected EOF while parsing HTTP response"] hhead (by decide)
      (RWBuffer.readBuf_new mem) hmem hcs
  refine ⟨⟨.new rdCipher wrCipher, source⟩, ?_, hunread, hwr, hrd⟩
  have hstatus : ¬ source.init.statusCode ≠ 101 := by
    rw [hsource]
    exact not_not_intro rfl
  have hnegotiate : negotiateWebsocket httparse mem cs = .ok source := by
    rw [negotiateWebsocket, parseResponse, hparse, Outcome.context_ok, Outcome.ok_bind,
      if_neg hstatus]
  rw [connect, hinit]
  dsimp only
  rw [hnegotiate, Outcome.ok_bind, createCipher_keys]
  dsimp only
  rw [hwrap, Outcome.ok_bind]

/-- The server reads the initial data, and stands behind the request in both directions. -/
theorem acceptClient_spec (hsend : send.Counts) (hrecv : recv.Counts) {httparse : Httparse}
    (hp : Stable httparse) {host : String} {auth : Option String} {d : Slice} {request : Bytes}
    (hreads : httparse request = .ok (some (request.length,
      connectHead k send recv host auth (xorAt (send.keys (chacha20 k.key k.iv)) 0 d.val))))
    (hne : request ≠ []) {mem : Bytes} (hmem : 2 ≤ mem.length) {cs : List Chunk} {x : Bytes}
    (hcs : content cs = request ++ x) :
    ∃ server, acceptClient chacha20 httparse mem cs = ⟨[], .ok (some d.val, server)⟩ ∧
      server.r.unread = x ∧
      InStep send (chacha20 k.key k.iv) d.val.length (some server.rc) ∧
      InStep recv (chacha20 k.key k.iv) 0 (some server.wc) := by
  generalize hks : chacha20 k.key k.iv = ks at hreads ⊢
  generalize hdata : xorAt (send.keys ks) 0 d.val = data at hreads
  obtain ⟨rc, wc, hcheck, hrc, hwc⟩ := checkRequest_connect chacha20 k hsend hrecv
  rw [hks] at hrc hwc
  have hlen : data.length = d.val.length := by rw [← hdata, length_xorAt]
  have hle : data.length ≤ isizeMax := hlen ▸ d.property
  obtain ⟨rc', happly, hrc', _⟩ := hrc.apply (ε := ErrorChain) hsend hle
  have hhead := requestHead_readsWord (hp.readsWord hreads)
  obtain ⟨r, hparse, hinit, hunread, _⟩ :=
    parseHead_spec ["Unexpected EOF"] hhead hne (RWBuffer.readBuf_new mem) hmem hcs
  have hname : eqIgnoreAsciiCase "GET" "get" = true := by decide
  have hget : ¬ ¬ eqIgnoreAsciiCase r.init.method "get" = true := by
    rw [hinit]
    exact not_not_intro hname
  have hpath : r.init.path = (connectParams k send recv).display := by rw [hinit]; rfl
  have hserve : serveWebsocket httparse mem cs = ⟨[], .ok r⟩ := by
    rw [serveWebsocket, parseRequest, hparse]
    dsimp only
    rw [if_neg hget, hinit]
    dsimp only
    rw [isUpgrade_connectHead, if_pos rfl]
  refine ⟨⟨r, rc', wc⟩, ?_, hunread, ?_, hwc⟩
  · rw [acceptClient, hserve]
    dsimp only
    rw [hpath, hcheck, hinit]
    dsimp only
    rw [getHeader_connectHead]
    dsimp only
    rw [CipherParams.decodeEngine_encodeText, Outcome.ok_bind, happly, Outcome.ok_bind, ← hdata,
      xorAt_xorAt]
  · rw [Nat.zero_add, hlen] at hrc'
    exact hrc'

/-! ### The channel in use -/

/-- A call on an end: a buffer to write, with the answer of the writer below, or a slice to
read into. -/
inductive Call where
  | write (buf : Slice) (limit : Option Nat)
  | read (room : Room) (blocked : Bool)

/-- An end in use, with all that was accepted, sent and read there. -/
structure Exchange (α : Type) where
  endpoint : Endpoint α
  accepted : Bytes
  wire : Bytes
  got : Bytes
  failed : Bool

namespace Exchange

variable {α : Type}

def start (e : Endpoint α) : Exchange α where
  endpoint := e
  accepted := []
  wire := []
  got := []
  failed := false

/-- The writing side. -/
def writing (t : Exchange α) : Writing where
  stream := t.endpoint.stream
  accepted := t.accepted
  wire := t.wire
  failed := t.failed

/-- The reading side. -/
def reading (t : Exchange α) : Reading α where
  endpoint := t.endpoint
  got := t.got
  failed := t.failed

/-- One call, on either side. -/
def step (t : Exchange α) : Call → Exchange α
  | .write buf limit =>
    let w := t.writing.step (buf, limit)
    ⟨⟨w.stream, t.endpoint.source⟩, w.accepted, w.wire, t.got, w.failed⟩
  | .read room blocked =>
    let r := t.reading.step (room, blocked)
    ⟨r.endpoint, t.accepted, t.wire, r.got, r.failed⟩

/-- Both sides are where they should be. -/
structure Invariant (send recv : EncryptionStrategy) (ks : Keystream) (wrPos rdPos : Nat)
    (incoming : Bytes) (t : Exchange α) : Prop where
  writing : Writing.Invariant send ks wrPos t.writing
  reading : Reading.Invariant recv ks rdPos incoming t.reading

variable {send recv : EncryptionStrategy} {ks : Keystream} {wrPos rdPos : Nat} {incoming : Bytes}
  {t : Exchange α}

/-- Each call keeps its own side in step and leaves the other alone. -/
theorem Invariant.step (h : Invariant send recv ks wrPos rdPos incoming t) (hsend : send.Counts)
    (hrecv : recv.Counts) (call : Call) :
    Invariant send recv ks wrPos rdPos incoming (t.step call) := by
  cases call with
  | write buf limit =>
    have hw := h.writing.step hsend (buf, limit)
    obtain ⟨seen, hall, hgot, hstep, _⟩ := h.reading
    refine ⟨hw, seen, hall, hgot, ?_, hw.failed⟩
    have hframe : (t.writing.step (buf, limit)).stream.rdCipher = t.endpoint.stream.rdCipher :=
      CipherStream.rdCipher_pollWrite _ _ _
    exact hframe ▸ hstep
  | read room blocked =>
    have hr := h.reading.step hrecv (room, blocked)
    refine ⟨⟨?_, h.writing.wire, hr.failed⟩, hr⟩
    have hframe : (t.reading.step (room, blocked)).endpoint.stream.wrCipher =
        t.endpoint.stream.wrCipher := Reading.wrCipher_step _ _
    exact hframe ▸ h.writing.inStep

theorem Invariant.run (h : Invariant send recv ks wrPos rdPos incoming t) (hsend : send.Counts)
    (hrecv : recv.Counts) (calls : List Call) :
    Invariant send recv ks wrPos rdPos incoming (runFrom Exchange.step t calls) :=
  runFrom_invariant (fun _ call hinv ↦ hinv.step hsend hrecv call) h calls

theorem invariant_start {e : Endpoint α} (hwr : InStep send ks wrPos e.stream.wrCipher)
    (hrd : InStep recv ks rdPos e.stream.rdCipher) :
    Invariant send recv ks wrPos rdPos e.source.unread (start e) :=
  ⟨Writing.invariant_start hwr, Reading.invariant_start hrd⟩

end Exchange

/-- What the one end has read is a front part of what the other has accepted, and all of it
once nothing is left to read. -/
def Delivered {α β : Type} (sender : Exchange α) (receiver : Exchange β) : Prop :=
  receiver.got <+: sender.accepted ∧
    (receiver.endpoint.source.unread = [] → receiver.got = sender.accepted)

/-- A receiver whose wire is the sender's, with the keys of the same strategy from the same
position on. -/
theorem delivered_of_invariant {α β : Type} {s₁ s₂ s₃ : EncryptionStrategy} {ks : Keystream}
    {pos p q : Nat} {incoming wire : Bytes} {sender : Exchange α} {receiver : Exchange β}
    (hs : Exchange.Invariant s₁ s₂ ks pos p incoming sender)
    (hr : Exchange.Invariant s₃ s₁ ks q pos wire receiver) (hwire : wire = sender.wire) :
    Delivered sender receiver := by
  have hread := hr.reading
  have hsent : sender.wire = xorAt (s₁.keys ks) pos sender.accepted := hs.writing.wire
  rw [hwire, hsent] at hread
  exact hread.got

/-- The cipher channel from end to end. Whatever the key, the strategies and the initial data,
and however the requests and answers are cut into pieces: the server decrypts the initial
data, and after any calls at either end, none has failed, and what an end reads is what the
other has accepted. Here `x` and `y` is what follows the handshake on the two wires. -/
theorem channel_delivers (hsend : send.Counts) (hrecv : recv.Counts) {httparse : Httparse}
    {httparseResponse : HttparseResponse} (hp : Stable httparse) (hp' : Stable httparseResponse)
    {url : HttpUrl} {auth : Option String} {headers : List (String × Bytes)}
    {d : Slice} (hrequest : ∀ data c, encryptInitial chacha20 k send d.val = .ok (data, c) →
      httparse (connectRequest k send recv url.address.getHost auth data) =
        .ok (some ((connectRequest k send recv url.address.getHost auth data).length,
          connectHead k send recv url.address.getHost auth data)))
    (hresponse : httparseResponse switchingProtocols =
      .ok (some (switchingProtocols.length, ⟨some 101, headers⟩)))
    {mem mem' : Bytes} (hmem : mem.length = 512) (hmem' : mem'.length = 512)
    {cs cs' : List Chunk} {x y : Bytes}
    (hup : content cs =
      (connect chacha20 httparseResponse mem' k send recv url auth d.val cs').written ++ x)
    (hdown : content cs' = switchingProtocols ++ y) :
    ∃ client server,
      (connect chacha20 httparseResponse mem' k send recv url auth d.val cs').outcome =
        .ok client ∧
      (acceptClient chacha20 httparse mem cs).outcome = .ok (some d.val, server) ∧
      ∀ clientCalls serverCalls,
        let c := runFrom Exchange.step (.start client) clientCalls
        let s := runFrom Exchange.step (.start server.respondSuccess.2) serverCalls
        c.failed = false ∧ s.failed = false ∧ (x = c.wire → Delivered c s) ∧
          (y = s.wire → Delivered s c) := by
  have htwo : 2 ≤ mem.length := by omega
  have htwo' : 2 ≤ mem'.length := by omega
  obtain ⟨wrCipher, hinit, _⟩ := encryptInitial_eq chacha20 k hsend d.property
  obtain ⟨client, hconnect, hunread, hwr, hrd⟩ :=
    connect_spec chacha20 k hsend hrecv hp' hresponse htwo' url auth d hdown
  rw [hconnect] at hup
  obtain ⟨server, haccept, hunread', hrd', hwr'⟩ := acceptClient_spec hsend hrecv hp
    (hrequest _ wrCipher hinit) (connectRequest_ne_nil _ auth _) htwo hup
  refine ⟨client, server, by rw [hconnect], by rw [haccept], ?_⟩
  intro clientCalls serverCalls
  have hc := (Exchange.invariant_start hwr hrd).run hsend hrecv clientCalls
  have hs := (Exchange.invariant_start (e := server.respondSuccess.2) hwr' hrd').run hrecv hsend
    serverCalls
  refine ⟨hc.writing.failed, hs.writing.failed, ?_, ?_⟩
  · intro hx
    exact delivered_of_invariant hc hs (hunread'.trans hx)
  · intro hy
    exact delivered_of_invariant hs hc (hunread.trans hy)

/-! A client with the zero key sends `hi` along, and then two bytes. Three bytes of its stream
are encrypted, with the keystream that ChaCha20 has for this key. -/

private def zeroKey : CipherKeys := ⟨List.replicate 32 0, List.replicate 12 0, rfl, rfl⟩

private def zeroBlock : Chacha20 := fun _ _ i ↦
  [0x76, 0xb8, 0xe0, 0xad, 0xa0, 0xf1, 0x3d, 0x90, 0x40, 0x5d, 0x6a, 0xe5, 0x53, 0x86, 0xbd,
    0x28].getD i 0

private def firstThree : EncryptionStrategy := .firstN ⟨3, by decide⟩

private def hiUrl : HttpUrl := ⟨false, .name "a" 80, "/"⟩

private def hiRequest : Bytes := connectRequest zeroKey firstThree .always "a" none [30, 209]

private def hiHttparse : Httparse :=
  onlyWord hiRequest "invalid token" (connectHead zeroKey firstThree .always "a" none [30, 209])

private def switchingHeaders : List (String × Bytes) :=
  textHeaders [("Upgrade", "WebSocket"), ("Connection", "Upgrade"),
    ("Sec-WebSocket-Accept", "s3pPLMBiTxaQ9kYGzzhZRbK+xOo=")]

private def switchingHttparse : HttparseResponse :=
  onlyWord switchingProtocols "invalid token" ⟨some 101, switchingHeaders⟩

theorem channel_delivers_hi :
    let connected := connect zeroBlock switchingHttparse (List.replicate 512 0) zeroKey firstThree
      .always hiUrl none [104, 105] [⟨switchingProtocols, by decide⟩]
    ∃ client server, connected.outcome = .ok client ∧
      (acceptClient zeroBlock hiHttparse (List.replicate 512 0)
        [⟨hiRequest, connectRequest_ne_nil _ _ _⟩, ⟨[225, 2], by decide⟩]).outcome =
          .ok (some [104, 105], server) ∧
      ∀ clientCalls serverCalls,
        let c := runFrom Exchange.step (.start client) clientCalls
        let s := runFrom Exchange.step (.start server.respondSuccess.2) serverCalls
        c.failed = false ∧ s.failed = false ∧ ([225, 2] = c.wire → Delivered c s) ∧
          ([] = s.wire → Delivered s c) := by
  have hencrypted : ∀ data c,
      encryptInitial zeroBlock zeroKey firstThree [104, 105] = .ok (data, c) →
        data = [30, 209] := by
    intro data c h
    cases h
    rfl
  have hcounts : firstThree.Counts := (by decide : 3 ≤ isizeMax)
  have halways : EncryptionStrategy.always.Counts := trivial
  have hmem : (List.replicate 512 0 : Bytes).length = 512 := List.length_replicate
  refine channel_delivers (d := ⟨[104, 105], by decide⟩) hcounts halways (onlyWord_stable _ _ _)
    (onlyWord_stable _ _ _) ?_ (onlyWord_self _ _ _) hmem hmem ?_ ?_
  · intro data c h
    rw [hencrypted data c h]
    exact onlyWord_self _ _ _
  · rfl
  · rfl

end Cpxy.TcpMan
