import Cpxy.Handshake.Socks
import Cpxy.Http.Request
import Cpxy.Http.Url
import Cpxy.Io.ReadLoop

/-!
# Proxy handshakes

Library `Handshake`. Source `src/handshake.rs:18–314`. A client may open with SOCKS5,
SOCKS4 or HTTP. Three parsers look at what has arrived so far, and the first that is done
decides; an automaton drops those that cannot become right any more. What comes of it
depends on the client's bytes alone, not on the pieces in which they arrive.
-/

namespace Cpxy.Handshake

open Cpxy.Base Cpxy.Net Cpxy.Http Cpxy.Io

/-- `ParseState`; `handshake.rs:22–27`. -/
inductive ParseState where
  | init
  | socks5Partial
  | socks4Partial
  | httpPartial
  deriving DecidableEq, Repr

/-- `ProxyState`; `handshake.rs:29–33`. -/
inductive ProxyState where
  | socks5Greeted (s : SocksState)
  | socks4 (r : Socks4Request)
  | http (r : HttpRequest)
  deriving DecidableEq, Repr

/-- `HandshakeType`; `handshake.rs:47–52`. -/
inductive HandshakeType where
  | socks5
  | socks4
  | http
  | httpTcpChannel
  deriving DecidableEq, Repr

/-- `HandshakeRequest`; `handshake.rs:57–69`. -/
inductive HandshakeRequest where
  | tcp (dst : Address)
  | udp (dst : Option Address)
  | http (dst : Address) (https : Bool) (req : HttpRequest)
  deriving DecidableEq, Repr

/-- The errors of a handshake: no grammar fits, `handshake.rs:105–107`; a SOCKS5 parser fails;
or anything that comes with its texts. -/
inductive HandshakeError where
  | undetected (socks5 : ParseError) (socks4 http : ErrorChain)
  | parse (e : ParseError)
  | chain (e : ErrorChain)
  deriving DecidableEq, Repr

/-- What was written to the client, and what the call returned. -/
structure Started (α : Type) where
  written : Bytes
  outcome : Outcome HandshakeError α
  deriving DecidableEq

/-! ### Detection -/

/-- A state in which one parser is left; `handshake.rs:115–142`. -/
def waitFor {ε α : Type} (state : ParseState) (f : ε → HandshakeError) (mk : α → ProxyState)
    (parse : Incremental ε α) (b : Bytes) :
    Outcome HandshakeError (ParseState ⊕ (Nat × ProxyState)) := do
  match ← (parse b).mapErr f with
  | none => .ok (.inl state)
  | some (offset, a) => .ok (.inr (offset, mk a))

/-- One round of the detection loop; `handshake.rs:80–143`. The parsers of the first state
run before anything is decided. -/
def detect (httparse : Httparse) :
    ParseState → Bytes → Outcome HandshakeError (ParseState ⊕ (Nat × ProxyState))
  | .init, b =>
    match parseSocks5Greeting b, parseSocks4Request b, HttpRequest.parse httparse b with
    | .panicked, _, _ => .panicked
    | _, .panicked, _ => .panicked
    | _, _, .panicked => .panicked
    | .ok (some (offset, s)), _, _ => .ok (.inr (offset, .socks5Greeted s))
    | _, .ok (some (offset, r)), _ => .ok (.inr (offset, .socks4 r))
    | _, _, .ok (some (offset, h)) => .ok (.inr (offset, .http h))
    | .err e1, .err e2, .err e3 => .err (.undetected e1 e2 e3)
    | .err _, .err _, .ok none => .ok (.inl .httpPartial)
    | .ok none, .err _, .err _ => .ok (.inl .socks5Partial)
    | .err _, .ok none, .err _ => .ok (.inl .socks4Partial)
    | _, _, _ => .ok (.inl .init)
  | .httpPartial, b => waitFor .httpPartial .chain .http (HttpRequest.parse httparse) b
  | .socks5Partial, b => waitFor .socks5Partial .parse .socks5Greeted parseSocks5Greeting b
  | .socks4Partial, b => waitFor .socks4Partial .chain .socks4 parseSocks4Request b

/-! ### The three handshakes -/

/-- The error of a read that finds the stream at its end; `handshake.rs:146,310`. -/
def unexpectedEof : HandshakeError := .chain ["Unexpected EOF"]

/-- `handshake_socks4`; `handshake.rs:229–237`. -/
def handshakeSocks4 (r : Socks4Request) : Outcome HandshakeError HandshakeRequest :=
  if r.cmd ≠ socks4RequestTcp then .err (.chain [s!"Unsupported socks4 request: {r.cmd}"])
  else .ok (.tcp r.addr)

/-- `handshake_http`; `handshake.rs:239–265`. -/
def handshakeHttp (r : HttpRequest) : Outcome HandshakeError HandshakeRequest :=
  if eqIgnoreAsciiCase r.method "connect" then do
    let dst ← (Address.tryFrom r.path).mapErr .chain
    .ok (.tcp dst)
  else do
    let url ← ((HttpUrl.tryFrom r.path).context "Parsing HTTP request path").mapErr .chain
    .ok (.http url.address url.isHttps { r with path := url.path })

/-- The type of an HTTP handshake; `handshake.rs:158–162`. -/
def httpHandshakeType : HandshakeRequest → Outcome HandshakeError HandshakeType
  | .tcp _ => .ok .httpTcpChannel
  | .http _ _ _ => .ok .http
  | .udp _ => .panicked

/-- `handshake_socks5`; `handshake.rs:267–314`. -/
def handshakeSocks5 (b : RWBuffer) (cs : List Chunk) (state : SocksState) :
    Started (HandshakeRequest × RWBuffer × List Chunk) :=
  if authNoPassword ∉ state.auths then
    ⟨greetingReply authNotAccepted, .err (.chain ["Invalid socks auth method"])⟩
  else
    let greeted := greetingReply authNoPassword
    match readUntil unexpectedEof (pollParser HandshakeError.parse parseConnRequest) () b cs with
    | .err e => ⟨greeted, .err e⟩
    | .panicked => ⟨greeted, .panicked⟩
    | .ok ((offset, r), b, cs) =>
      if r.cmd = connectTcp then
        ⟨greeted, do
          let b ← b.advanceRead offset
          .ok (.tcp r.address, b, cs)⟩
      else if r.cmd = bindUdp then
        let dst := if r.address.isUnspecified then none else some r.address
        ⟨greeted, do
          let b ← b.advanceRead offset
          .ok (.udp dst, b, cs)⟩
      else
        match connReply unsupportedCommand default with
        | .ok reply => ⟨greeted ++ reply, .err (.chain ["Invalid socks5 command"])⟩
        | .err e => ⟨greeted, .err (.chain e)⟩
        | .panicked => ⟨greeted, .panicked⟩

/-- `Handshaker::start`; `handshake.rs:72–167`. With the request come the buffer and the
part of the stream that has not been read. -/
def start (httparse : Httparse) (b : RWBuffer) (cs : List Chunk) :
    Started (HandshakeType × HandshakeRequest × RWBuffer × List Chunk) :=
  let detected := do
    let ((offset, s), b, cs) ← readUntil unexpectedEof (detect httparse) .init b cs
    let b ← b.advanceRead offset
    .ok (s, b, cs)
  match detected with
  | .err e => ⟨[], .err e⟩
  | .panicked => ⟨[], .panicked⟩
  | .ok (.socks5Greeted s, b, cs) =>
    let r := handshakeSocks5 b cs s
    ⟨r.written, do
      let (req, b, cs) ← r.outcome
      .ok (.socks5, req, b, cs)⟩
  | .ok (.http r, b, cs) =>
    ⟨[], do
      let req ← handshakeHttp r
      let type ← httpHandshakeType req
      .ok (type, req, b, cs)⟩
  | .ok (.socks4 r, b, cs) =>
    ⟨[], do
      let req ← handshakeSocks4 r
      .ok (.socks4, req, b, cs)⟩

/-- `Handshaker::respond_ok`; `handshake.rs:169–200`. -/
def respondOk (type : HandshakeType) (boundAddress : Option SocketAddr) :
    Outcome ErrorChain Bytes :=
  match type, boundAddress with
  | .socks5, boundAddress => connReply connGranted ((boundAddress.map .ip).getD default)
  | .socks4, some (.v4 ip port) => .ok (socks4Reply ip port socks4ReplyGranted)
  | .socks4, _ => .ok (socks4Reply ⟨0⟩ 0 socks4ReplyGranted)
  | .http, _ => .ok []
  | .httpTcpChannel, _ => .ok (asBytes "HTTP/1.1 200 OK\r\n\r\n")

/-- `Handshaker::respond_err`; `handshake.rs:202–226`. -/
def respondErr : HandshakeType → Outcome ErrorChain Bytes
  | .socks5 => connReply connFailed default
  | .socks4 => .ok (socks4Reply ⟨0⟩ 0 socks4ReplyFailed)
  | .http => .ok (asBytes "HTTP/1.1 500 Internal server error\r\n\r\n")
  | .httpTcpChannel => .ok (asBytes "HTTP/1.1 500 Internal server error\r\n\r\n")

/-- What is relied on of `HttpRequest::parse`: it is stable, and it rejects whatever starts
with the version byte of a SOCKS protocol. -/
structure HeadParser (httparse : Httparse) : Prop where
  stable : Stable (HttpRequest.parse httparse)
  rejects : ∀ v b, v = 4 ∨ v = 5 → ∃ e, HttpRequest.parse httparse (v :: b) = .err e

/-! ### Detection depends on the bytes alone -/

/-- What there is to find at the start of the bytes: the first one says by which parser. -/
def detected (httparse : Httparse) (b : Bytes) : Option (Nat × ProxyState) :=
  if b.head? = some 0x5 then
    (reads parseSocks5Greeting b).map fun r ↦ (r.1, .socks5Greeted r.2)
  else if b.head? = some 0x4 then
    (reads parseSocks4Request b).map fun r ↦ (r.1, .socks4 r.2)
  else (reads (HttpRequest.parse httparse) b).map fun r ↦ (r.1, .http r.2)

/-- What the automaton knows of the bytes that brought it into a state. -/
def Fits (httparse : Httparse) : ParseState → Bytes → Prop
  | .init, _ => True
  | .socks5Partial, b => b.head? = some 0x5
  | .socks4Partial, b => ∃ v, b.head? = some v ∧ v ≠ 0x5 ∧
      (v = 0x4 ∨ ∃ e, HttpRequest.parse httparse b = .err e)
  | .httpPartial, b => ∃ v, b.head? = some v ∧ v ≠ 0x5 ∧ v ≠ 0x4

/-- With one parser left, its answer is the answer. -/
theorem waitFor_eq {ε α : Type} {state : ParseState} {f : ε → HandshakeError}
    {mk : α → ProxyState} {parse : Incremental ε α} (b : Bytes) :
    waitFor state f mk parse b =
      match parse b with
      | .ok none => .ok (.inl state)
      | .ok (some r) => .ok (.inr (r.1, mk r.2))
      | .err e => .err (f e)
      | .panicked => .panicked := by
  unfold waitFor
  cases parse b with
  | ok r => cases r <;> rfl
  | err e => rfl
  | panicked => rfl

variable {httparse : Httparse} {b : Bytes} {v : UInt8}

theorem head?_append_of_some (h : b.head? = some v) (x : Bytes) : (b ++ x).head? = some v := by
  rw [List.head?_append, h]
  rfl

theorem detected_eq_none (h5 : reads parseSocks5Greeting b = none)
    (h4 : reads parseSocks4Request b = none)
    (hh : reads (HttpRequest.parse httparse) b = none) : detected httparse b = none := by
  rw [detected, h5, h4, hh]
  split
  · rfl
  · split <;> rfl

theorem detected_socks5 (h : b.head? = some 0x5) :
    detected httparse b =
      (reads parseSocks5Greeting b).map fun r ↦ (r.1, .socks5Greeted r.2) := by
  rw [detected, if_pos h]

theorem detected_socks4 (h : b.head? = some 0x4) :
    detected httparse b = (reads parseSocks4Request b).map fun r ↦ (r.1, .socks4 r.2) := by
  rw [detected, if_neg (by simp [h]), if_pos h]

theorem detected_http (h : b.head? = some v) (h5 : v ≠ 0x5) (h4 : v ≠ 0x4) :
    detected httparse b =
      (reads (HttpRequest.parse httparse) b).map fun r ↦ (r.1, .http r.2) := by
  rw [detected, if_neg (by simp [h, h5]), if_neg (by simp [h, h4])]

/-- Bytes that HTTP does not reject are looked at as HTTP. -/
theorem HeadParser.detected_of_complete (hp : HeadParser httparse) {r : Nat × HttpRequest}
    (h : HttpRequest.parse httparse b = .ok (some r)) :
    detected httparse b = some (r.1, .http r.2) := by
  have hne : ∀ v, v = 4 ∨ v = 5 → b.head? ≠ some v := by
    intro v hv hb
    cases b with
    | nil => cases hb
    | cons w b =>
      cases hb
      obtain ⟨e, he⟩ := hp.rejects _ b hv
      rw [h] at he
      cases he
  rw [detected, if_neg (hne 5 (.inr rfl)), if_neg (hne 4 (.inl rfl)), reads, h]
  rfl

/-- Any decision of the first state is right for all that may follow. -/
theorem detect_init_done (hp : HeadParser httparse) {r : Nat × ProxyState}
    (h : detect httparse .init b = .ok (.inr r)) (x : Bytes) :
    detected httparse (b ++ x) = some r := by
  rw [detect] at h
  split at h <;> cases h
  · next h5 _ _ =>
    have hhead := head?_append_of_some (head_of_socks5Greeting h5) x
    rw [detected_socks5 hhead, parseSocks5Greeting_stable.reads_of_complete h5 x]
    rfl
  · next h4 _ _ _ =>
    have hhead := head?_append_of_some (head_of_socks4Request h4) x
    rw [detected_socks4 hhead, parseSocks4Request_stable.reads_of_complete h4 x]
    rfl
  · next hh _ _ _ _ => exact hp.detected_of_complete ((hp.stable.complete _ _ _ hh).2 x)

/-- The first state gives up only what no parser will take. -/
theorem detect_init_failed (hp : HeadParser httparse) {e : HandshakeError}
    (h : detect httparse .init b = .err e) (x : Bytes) : detected httparse (b ++ x) = none := by
  rw [detect] at h
  split at h <;> cases h
  next h5 h4 hh =>
    exact detected_eq_none (parseSocks5Greeting_stable.reads_of_error h5 x)
      (parseSocks4Request_stable.reads_of_error h4 x) (hp.stable.reads_of_error hh x)

/-- The first state is left when a single parser may still become right. -/
theorem detect_init_more (hp : HeadParser httparse) {s : ParseState}
    (h : detect httparse .init b = .ok (.inl s)) :
    detected httparse b = none ∧ ∀ x, Fits httparse s (b ++ x) := by
  rw [detect] at h
  split at h <;> cases h
  · next h5 h4 hh =>
    obtain ⟨v, hv, hv5⟩ := head_of_socks5Greeting_err h5
    obtain ⟨_, w, hw, hw4⟩ := head_of_socks4Request_err h4
    rw [hv] at hw
    cases hw
    constructor
    · rw [detected_http hv hv5 hw4, reads_of_more hh]
      rfl
    · intro x
      exact ⟨v, head?_append_of_some hv x, hv5, hw4⟩
  · next h5 h4 hh =>
    have hlen := (head_of_socks4Request_err h4).1
    have hv := head_of_socks5Greeting_more (by omega) h5
    constructor
    · rw [detected_socks5 hv, reads_of_more h5]
      rfl
    · intro x
      exact head?_append_of_some hv x
  · next h5 h4 hh =>
    obtain ⟨v, hv, hv5⟩ := head_of_socks5Greeting_err h5
    constructor
    · exact detected_eq_none (reads_eq_none (by simp [h5])) (reads_of_more h4)
        (reads_eq_none (by simp [hh]))
    · intro x
      exact ⟨v, head?_append_of_some hv x, hv5, .inr (hp.stable.error _ _ hh x)⟩
  · next h5 _ h4 _ hh _ _ _ _ =>
    exact ⟨detected_eq_none (reads_eq_none h5) (reads_eq_none h4) (reads_eq_none hh),
      fun _ ↦ trivial⟩

theorem detect_init_total (hp : HeadParser httparse) : detect httparse .init b ≠ .panicked := by
  intro h
  rw [detect] at h
  split at h <;> cases h
  · next h5 => exact parseSocks5Greeting_stable.total b h5
  · next h4 _ => exact parseSocks4Request_stable.total b h4
  · next hh _ _ => exact hp.stable.total b hh

/-- With one parser left, it decides, provided that it is the one that counts. -/
theorem decidesAt_waitFor {ε α : Type} {state : ParseState} {f : ε → HandshakeError}
    {mk : α → ProxyState} {parse : Incremental ε α} (hp : Stable parse)
    (hpoll : detect httparse state b = waitFor state f mk parse b)
    (hspec : ∀ x, detected httparse (b ++ x) =
      (reads parse (b ++ x)).map fun r ↦ (r.1, mk r.2))
    (hfits : ∀ x, Fits httparse state (b ++ x)) :
    DecidesAt (detect httparse) (Fits httparse) (detected httparse) state b := by
  rw [waitFor_eq] at hpoll
  constructor
  case done =>
    intro r h x
    rw [hpoll] at h
    split at h <;> cases h
    next heq =>
      rw [hspec, hp.reads_of_complete heq x]
      rfl
  case failed =>
    intro e h x
    rw [hpoll] at h
    split at h <;> cases h
    next heq =>
      rw [hspec, hp.reads_of_error heq x]
      rfl
  case more =>
    intro s h
    rw [hpoll] at h
    split at h <;> cases h
    next heq =>
      refine ⟨?_, hfits⟩
      have hown := hspec []
      rw [List.append_nil, reads_of_more heq] at hown
      exact hown
  case total =>
    intro h
    rw [hpoll] at h
    split at h <;> cases h
    next heq => exact hp.total b heq

/-- The automaton decides by the bytes alone. -/
theorem decides_detect (hp : HeadParser httparse) :
    Decides (detect httparse) (Fits httparse) (detected httparse) := by
  intro s b hs
  cases s with
  | init =>
    exact ⟨fun r h ↦ detect_init_done hp h, fun e h ↦ detect_init_failed hp h,
      fun s' h ↦ detect_init_more hp h, detect_init_total hp⟩
  | socks5Partial =>
    have hhead := fun x ↦ head?_append_of_some hs x
    exact decidesAt_waitFor parseSocks5Greeting_stable rfl (fun x ↦ detected_socks5 (hhead x)) hhead
  | socks4Partial =>
    obtain ⟨v, hv, hv5, hor⟩ := hs
    have hhead := fun x ↦ head?_append_of_some hv x
    by_cases hv4 : v = 0x4
    · subst hv4
      exact decidesAt_waitFor parseSocks4Request_stable rfl (fun x ↦ detected_socks4 (hhead x))
        (fun x ↦ ⟨_, hhead x, hv5, .inl rfl⟩)
    · -- neither SOCKS4 nor HTTP: the state only waits for the nine bytes of an error
      obtain ⟨e, he⟩ := hor.resolve_left hv4
      refine decidesAt_waitFor parseSocks4Request_stable rfl (fun x ↦ ?_)
        (fun x ↦ ⟨v, hhead x, hv5, .inr (hp.stable.error _ e he x)⟩)
      have h4 : reads parseSocks4Request (b ++ x) = none := by
        apply reads_eq_none
        intro n a h
        have h4 := head_of_socks4Request h
        rw [hhead x] at h4
        exact hv4 (Option.some.inj h4)
      rw [detected_http (hhead x) hv5 hv4, hp.stable.reads_of_error he x, h4]
      rfl
  | httpPartial =>
    obtain ⟨v, hv, hv5, hv4⟩ := hs
    have hhead := fun x ↦ head?_append_of_some hv x
    exact decidesAt_waitFor hp.stable rfl (fun x ↦ detected_http (hhead x) hv5 hv4)
      (fun x ↦ ⟨v, hhead x, hv5, hv4⟩)

/-- What is detected lies within the bytes. -/
theorem detected_le (hp : HeadParser httparse) {n : Nat} {s : ProxyState}
    (h : detected httparse b = some (n, s)) : n ≤ b.length := by
  unfold detected at h
  split at h
  · obtain ⟨r, hr, hrs⟩ := Option.map_eq_some_iff.mp h
    cases hrs
    exact (parseSocks5Greeting_stable.of_reads hr).2
  · split at h
    · obtain ⟨r, hr, hrs⟩ := Option.map_eq_some_iff.mp h
      cases hrs
      exact (parseSocks4Request_stable.of_reads hr).2
    · obtain ⟨r, hr, hrs⟩ := Option.map_eq_some_iff.mp h
      cases hrs
      exact (hp.stable.of_reads hr).2

/-! ### The handshake depends on the bytes alone -/

/-- What `handshakeSocks5` answers to the bytes behind a greeting: what it writes, and the
request with its length. -/
def socks5Answer (b : Bytes) (state : SocksState) : Bytes × Option (Nat × HandshakeRequest) :=
  if authNoPassword ∉ state.auths then (greetingReply authNotAccepted, none)
  else
    let greeted := greetingReply authNoPassword
    match reads parseConnRequest b with
    | none => (greeted, none)
    | some (n, r) =>
      if r.cmd = connectTcp then (greeted, some (n, .tcp r.address))
      else if r.cmd = bindUdp then
        (greeted, some (n, .udp (if r.address.isUnspecified then none else some r.address)))
      else (greeted ++ [0x5, unsupportedCommand, 0, 1, 0, 0, 0, 0, 0, 0], none)

/-- The value of a call that succeeded. -/
def succeeded {ε α : Type} : Outcome ε α → Option α
  | .ok a => some a
  | .err _ => none
  | .panicked => none

theorem succeeded_eq_some {ε α : Type} {x : Outcome ε α} {a : α} :
    succeeded x = some a ↔ x = .ok a := by
  cases x <;> simp [succeeded]

/-- What `start` answers to a client's bytes: what it writes, and the request with its type
and length. -/
def answer (httparse : Httparse) (b : Bytes) :
    Bytes × Option (Nat × HandshakeType × HandshakeRequest) :=
  match detected httparse b with
  | none => ([], none)
  | some (n, .socks5Greeted s) =>
    let (written, r) := socks5Answer (b.drop n) s
    (written, r.map fun r ↦ (n + r.1, .socks5, r.2))
  | some (n, .socks4 r) => ([], (succeeded (handshakeSocks4 r)).map fun req ↦ (n, .socks4, req))
  | some (n, .http r) =>
    ([], succeeded do
      let req ← handshakeHttp r
      let type ← httpHandshakeType req
      .ok (n, type, req))

/-- The call read a part of the stream, took `n` bytes of it and kept the others. -/
def Kept (stream : Bytes) (n : Nat) (b : RWBuffer) (rest : List Chunk) : Prop :=
  ∃ read, read ++ content rest = stream ∧ n ≤ read.length ∧ b.readBuf = read.drop n

/-- Taking bytes twice is taking both numbers at once. -/
theorem Kept.trans {stream : Bytes} {n m : Nat} {b₁ b₂ : RWBuffer} {rest₁ rest₂ : List Chunk}
    (h₁ : Kept stream n b₁ rest₁) (h₂ : Kept (stream.drop n) m b₂ rest₂) :
    Kept stream (n + m) b₂ rest₂ := by
  obtain ⟨read₁, hall₁, hn, _⟩ := h₁
  obtain ⟨read₂, hall₂, hm, hread₂⟩ := h₂
  have hlen : (stream.take n).length = n := by
    apply List.length_take_of_le
    rw [← hall₁, List.length_append]
    omega
  refine ⟨stream.take n ++ read₂, ?_, ?_, ?_⟩
  · rw [List.append_assoc, hall₂, List.take_append_drop]
  · rw [List.length_append, hlen]
    omega
  · rw [hread₂, ← List.drop_drop, List.drop_left' hlen]

theorem handshakeSocks5_spec (b : RWBuffer) (cs : List Chunk) (state : SocksState)
    (hb : 2 ≤ b.buf.length) :
    (handshakeSocks5 b cs state).written = (socks5Answer (b.readBuf ++ content cs) state).1 ∧
      match (socks5Answer (b.readBuf ++ content cs) state).2 with
      | none => ∃ e, (handshakeSocks5 b cs state).outcome = .err e
      | some (n, req) => ∃ b' rest, (handshakeSocks5 b cs state).outcome = .ok (req, b', rest) ∧
          Kept (b.readBuf ++ content cs) n b' rest := by
  have hread := readUntil_spec (decides_pollParser (f := HandshakeError.parse)
    parseConnRequest_stable) unexpectedEof () cs hb trivial
  rw [handshakeSocks5, socks5Answer]
  split
  · exact ⟨rfl, _, rfl⟩
  · cases hr : reads parseConnRequest (b.readBuf ++ content cs) with
    | none =>
      rw [hr] at hread
      obtain ⟨e, he⟩ := hread
      rw [he]
      exact ⟨rfl, e, rfl⟩
    | some r =>
      obtain ⟨n, r⟩ := r
      rw [hr] at hread
      obtain ⟨b', rest, hok, hall, _, hown⟩ := hread
      have hn := (parseConnRequest_stable.of_reads hown).2
      obtain ⟨b₂, hb₂, hread₂, _⟩ := RWBuffer.readBuf_advanceRead (ε := HandshakeError) hn
      have hkept : Kept (b.readBuf ++ content cs) n b₂ rest := ⟨_, hall, hn, hread₂⟩
      rw [hok]
      dsimp only
      split
      · exact ⟨rfl, b₂, rest, by rw [hb₂]; rfl, hkept⟩
      · split
        · exact ⟨rfl, b₂, rest, by rw [hb₂]; rfl, hkept⟩
        · exact ⟨rfl, _, rfl⟩

theorem handshakeHttp_total (r : HttpRequest) : handshakeHttp r ≠ .panicked := by
  unfold handshakeHttp
  split
  · apply Outcome.bind_ne_panicked
    · rw [Ne, Outcome.mapErr_eq_panicked]
      exact Address.tryFrom_total r.path
    · simp
  · apply Outcome.bind_ne_panicked
    · rw [Ne, Outcome.mapErr_eq_panicked, Outcome.context, Outcome.mapErr_eq_panicked]
      exact HttpUrl.tryFrom_total r.path
    · simp

theorem httpHandshakeType_handshakeHttp {r : HttpRequest} {req : HandshakeRequest}
    (h : handshakeHttp r = .ok req) : ∃ type, httpHandshakeType req = .ok type := by
  unfold handshakeHttp at h
  split at h
  · obtain ⟨dst, _, hdst⟩ := Outcome.bind_eq_ok_iff.mp h
    cases hdst
    exact ⟨_, rfl⟩
  · obtain ⟨url, _, hurl⟩ := Outcome.bind_eq_ok_iff.mp h
    cases hurl
    exact ⟨_, rfl⟩

/-- The handshake writes and returns what its answer to the whole stream says, and keeps
every byte that it has read and not taken. -/
theorem start_spec (hp : HeadParser httparse) (mem : Bytes) (cs : List Chunk)
    (hmem : 2 ≤ mem.length) :
    (start httparse (.new mem) cs).written = (answer httparse (content cs)).1 ∧
      match (answer httparse (content cs)).2 with
      | none => ∃ e, (start httparse (.new mem) cs).outcome = .err e
      | some (n, type, req) => ∃ b rest,
          (start httparse (.new mem) cs).outcome = .ok (type, req, b, rest) ∧
            Kept (content cs) n b rest := by
  have hread := readUntil_spec (decides_detect hp) unexpectedEof .init (b := .new mem) cs hmem
    trivial
  rw [RWBuffer.readBuf_new, List.nil_append] at hread
  rw [start, answer]
  cases hd : detected httparse (content cs) with
  | none =>
    rw [hd] at hread
    obtain ⟨e, he⟩ := hread
    rw [he]
    exact ⟨rfl, e, rfl⟩
  | some r =>
    obtain ⟨n, s⟩ := r
    rw [hd] at hread
    obtain ⟨b, rest, hok, hall, hb, hown⟩ := hread
    have hn := detected_le hp hown
    obtain ⟨b₁, hb₁, hread₁, hbuf₁⟩ := RWBuffer.readBuf_advanceRead (ε := HandshakeError) hn
    have hkept : Kept (content cs) n b₁ rest := ⟨_, hall, hn, hread₁⟩
    rw [hok]
    simp only [Outcome.ok_bind, hb₁]
    cases s with
    | socks5Greeted s =>
      have hstream : b₁.readBuf ++ content rest = (content cs).drop n := by
        rw [hread₁, ← hall, List.drop_append_of_le_length hn]
      obtain ⟨hw, hout⟩ := handshakeSocks5_spec b₁ rest s (by rw [hbuf₁]; exact hb)
      rw [hstream] at hw hout
      refine ⟨hw, ?_⟩
      dsimp only
      cases ha : (socks5Answer ((content cs).drop n) s).2 with
      | none =>
        rw [ha] at hout
        obtain ⟨e, he⟩ := hout
        rw [he]
        exact ⟨e, rfl⟩
      | some r =>
        rw [ha] at hout
        obtain ⟨b₂, rest₂, hok₂, hkept₂⟩ := hout
        rw [hok₂]
        exact ⟨b₂, rest₂, rfl, hkept.trans hkept₂⟩
    | socks4 r =>
      refine ⟨rfl, ?_⟩
      dsimp only
      by_cases hcmd : r.cmd ≠ socks4RequestTcp
      · rw [handshakeSocks4, if_pos hcmd]
        exact ⟨_, rfl⟩
      · rw [handshakeSocks4, if_neg hcmd]
        exact ⟨b₁, rest, rfl, hkept⟩
    | http r =>
      refine ⟨rfl, ?_⟩
      dsimp only
      cases hh : handshakeHttp r with
      | panicked => exact absurd hh (handshakeHttp_total r)
      | err e => exact ⟨e, rfl⟩
      | ok req =>
        obtain ⟨type, htype⟩ := httpHandshakeType_handshakeHttp hh
        simp only [Outcome.ok_bind, htype]
        exact ⟨b₁, rest, rfl, hkept⟩

/-- However the same bytes arrive, the handshake writes the same, and either fails or comes to
the same request after taking the same number of them; what else it has read stays in the
buffer. -/
theorem start_ignores_packetisation (hp : HeadParser httparse) (mem₁ mem₂ : Bytes)
    (cs₁ cs₂ : List Chunk) (hmem₁ : 2 ≤ mem₁.length) (hmem₂ : 2 ≤ mem₂.length)
    (hsame : content cs₁ = content cs₂) :
    (start httparse (.new mem₁) cs₁).written = (start httparse (.new mem₂) cs₂).written ∧
      ((∃ e₁ e₂, (start httparse (.new mem₁) cs₁).outcome = .err e₁ ∧
          (start httparse (.new mem₂) cs₂).outcome = .err e₂) ∨
        ∃ type req n b₁ rest₁ b₂ rest₂,
          (start httparse (.new mem₁) cs₁).outcome = .ok (type, req, b₁, rest₁) ∧
            (start httparse (.new mem₂) cs₂).outcome = .ok (type, req, b₂, rest₂) ∧
            Kept (content cs₁) n b₁ rest₁ ∧ Kept (content cs₂) n b₂ rest₂) := by
  obtain ⟨hw₁, hout₁⟩ := start_spec hp mem₁ cs₁ hmem₁
  obtain ⟨hw₂, hout₂⟩ := start_spec hp mem₂ cs₂ hmem₂
  rw [← hsame] at hw₂ hout₂
  refine ⟨hw₁.trans hw₂.symm, ?_⟩
  cases ha : (answer httparse (content cs₁)).2 with
  | none =>
    rw [ha] at hout₁ hout₂
    obtain ⟨e₁, he₁⟩ := hout₁
    obtain ⟨e₂, he₂⟩ := hout₂
    exact .inl ⟨e₁, e₂, he₁, he₂⟩
  | some a =>
    obtain ⟨n, type, req⟩ := a
    rw [ha] at hout₁ hout₂
    obtain ⟨b₁, rest₁, hok₁, hkept₁⟩ := hout₁
    obtain ⟨b₂, rest₂, hok₂, hkept₂⟩ := hout₂
    rw [← hsame]
    exact .inr ⟨type, req, n, b₁, rest₁, b₂, rest₂, hok₁, hok₂, hkept₁, hkept₂⟩

/-! An HTTP parser for a single head, and a client that sends it in one piece or in two. -/

/-- `httparse`, as far as it is asked for one head. -/
def onlyHead (head : Bytes) (parsed : ParsedHead) : Httparse :=
  onlyWord head "invalid token" parsed

theorem parse_onlyHead (head : Bytes) (method path : String) (headers : List (String × Bytes)) :
    HttpRequest.parse (onlyHead head ⟨some method, some path, headers⟩) =
      onlyWord head ["Pasring HTTP request", "invalid token"] ⟨headers, method, path⟩ := by
  ext b
  unfold HttpRequest.parse onlyHead onlyWord
  split
  · rfl
  · split <;> rfl

theorem headParser_onlyHead {v : UInt8} (head : Bytes) (method path : String)
    (headers : List (String × Bytes)) (h4 : v ≠ 4) (h5 : v ≠ 5) :
    HeadParser (onlyHead (v :: head) ⟨some method, some path, headers⟩) where
  stable := by
    rw [parse_onlyHead]
    exact onlyWord_stable _ _ _
  rejects w b hw := by
    have hne : v ≠ w := by
      rintro rfl
      exact hw.elim h4 h5
    refine ⟨["Pasring HTTP request", "invalid token"], ?_⟩
    rw [parse_onlyHead, onlyWord, if_neg, if_neg]
    · rw [List.cons_prefix_cons]
      exact fun h ↦ hne h.1.symm
    · rw [List.cons_prefix_cons]
      exact fun h ↦ hne h.1

theorem exact_onlyHead (head : Bytes) (method path : String)
    (headers : List (String × Bytes)) :
    Exact (HttpRequest.parse (onlyHead head ⟨some method, some path, headers⟩)) := by
  rw [parse_onlyHead]
  exact onlyWord_exact _ _ _

private def connectHead : Bytes := asBytes "ONNECT a:1 HTTP/1.1\r\n\r\n"

theorem start_ignores_packetisation_connect :
    let httparse := onlyHead (67 :: connectHead) ⟨some "CONNECT", some "a:1", []⟩
    let one := start httparse (.new [0, 0]) [⟨67 :: connectHead, by simp⟩]
    let two := start httparse (.new [0, 0, 0]) [⟨[67], by simp⟩, ⟨connectHead, by decide +kernel⟩]
    one.written = two.written ∧
      ((∃ e₁ e₂, one.outcome = .err e₁ ∧ two.outcome = .err e₂) ∨
        ∃ type req n b₁ rest₁ b₂ rest₂, one.outcome = .ok (type, req, b₁, rest₁) ∧
          two.outcome = .ok (type, req, b₂, rest₂) ∧ Kept (67 :: connectHead) n b₁ rest₁ ∧
          Kept (67 :: connectHead) n b₂ rest₂) :=
  start_ignores_packetisation (headParser_onlyHead connectHead "CONNECT" "a:1" []
    (by decide) (by decide)) [0, 0] [0, 0, 0] [⟨67 :: connectHead, by simp⟩]
    [⟨[67], by simp⟩, ⟨connectHead, by decide +kernel⟩] (by decide) (by decide) rfl

/-! ### The handshake ends with its last byte -/

/-- With its bytes, all of what is detected is there. -/
theorem detected_take (hp : HeadParser httparse) (he : Exact (HttpRequest.parse httparse))
    {n m : Nat} {s : ProxyState} (h : detected httparse b = some (n, s)) (hm : n ≤ m) :
    detected httparse (b.take m) = some (n, s) := by
  unfold detected at h
  split at h
  · obtain ⟨r, hr, hrs⟩ := Option.map_eq_some_iff.mp h
    cases hrs
    have ht := parseSocks5Greeting_stable.reads_take parseSocks5Greeting_exact hr hm
    rw [detected_socks5 (head_of_socks5Greeting (parseSocks5Greeting_stable.of_reads ht).1), ht]
    rfl
  · split at h
    · obtain ⟨r, hr, hrs⟩ := Option.map_eq_some_iff.mp h
      cases hrs
      have ht := parseSocks4Request_stable.reads_take parseSocks4Request_exact hr hm
      rw [detected_socks4 (head_of_socks4Request (parseSocks4Request_stable.of_reads ht).1), ht]
      rfl
    · obtain ⟨r, hr, hrs⟩ := Option.map_eq_some_iff.mp h
      cases hrs
      have ht := hp.stable.reads_take he hr hm
      exact hp.detected_of_complete (hp.stable.of_reads ht).1

theorem socks5Answer_take {state : SocksState} {n : Nat} {req : HandshakeRequest}
    (h : (socks5Answer b state).2 = some (n, req)) :
    (socks5Answer (b.take n) state).2 = some (n, req) := by
  unfold socks5Answer at h
  split at h
  · cases h
  · next hauth =>
    cases hr : reads parseConnRequest b with
    | none =>
      rw [hr] at h
      cases h
    | some r =>
      have ht := parseConnRequest_stable.reads_take parseConnRequest_exact hr (Nat.le_refl _)
      rw [hr] at h
      rw [socks5Answer, if_neg hauth]
      dsimp only at h ⊢
      split at h
      · next hcmd =>
        cases h
        rw [ht]
        dsimp only
        rw [if_pos hcmd]
      · next hcmd =>
        split at h
        · next hcmd' =>
          cases h
          rw [ht]
          dsimp only
          rw [if_neg hcmd, if_pos hcmd']
        · cases h

/-- The bytes of a handshake are answered as the whole stream is. -/
theorem answer_take (hp : HeadParser httparse) (he : Exact (HttpRequest.parse httparse))
    {n : Nat} {type : HandshakeType} {req : HandshakeRequest}
    (h : (answer httparse b).2 = some (n, type, req)) :
    (answer httparse (b.take n)).2 = some (n, type, req) := by
  rw [answer] at h
  cases hd : detected httparse b with
  | none =>
    rw [hd] at h
    cases h
  | some r =>
    obtain ⟨m, s⟩ := r
    rw [hd] at h
    cases s with
    | socks5Greeted s =>
      obtain ⟨r, hr, hrs⟩ := Option.map_eq_some_iff.mp h
      cases hrs
      rw [answer, detected_take hp he hd (Nat.le_add_right m r.1)]
      dsimp only
      rw [List.drop_take, Nat.add_sub_cancel_left, socks5Answer_take hr]
      rfl
    | socks4 r =>
      dsimp only at h
      obtain ⟨q, hq, hqs⟩ := Option.map_eq_some_iff.mp h
      cases hqs
      rw [answer, detected_take hp he hd (Nat.le_refl _)]
      exact h
    | http r =>
      obtain ⟨q, hq, hok⟩ := Outcome.bind_eq_ok_iff.mp (succeeded_eq_some.mp h)
      obtain ⟨type', _, hend⟩ := Outcome.bind_eq_ok_iff.mp hok
      cases hend
      rw [answer, detected_take hp he hd (Nat.le_refl _)]
      exact h

/-! ### The handshake goes by its reads -/

/-- What `handshake_socks5` makes of a request that it has read; `handshake.rs:282–304`. -/
def finishSocks5 (a : (Nat × ClientConnRequest) × RWBuffer) :
    Outcome HandshakeError (HandshakeRequest × RWBuffer) :=
  if a.1.2.cmd = connectTcp then do
    let b ← a.2.advanceRead a.1.1
    .ok (.tcp a.1.2.address, b)
  else if a.1.2.cmd = bindUdp then do
    let b ← a.2.advanceRead a.1.1
    .ok (.udp (if a.1.2.address.isUnspecified then none else some a.1.2.address), b)
  else .err (.chain ["Invalid socks5 command"])

theorem handshakeSocks5_eq_ok_iff {buf : RWBuffer} {cs rest : List Chunk} {state : SocksState}
    {out : HandshakeRequest × RWBuffer} :
    (handshakeSocks5 buf cs state).outcome = .ok (out.1, out.2, rest) ↔
      ∃ a mid, readUntil unexpectedEof (pollParser HandshakeError.parse parseConnRequest) () buf cs =
          .ok (a.1, a.2, mid) ∧
        (authNoPassword ∈ state.auths ∧ finishSocks5 a = .ok out) ∧ rest = mid := by
  unfold handshakeSocks5
  by_cases hauth : authNoPassword ∈ state.auths
  · rw [if_neg (not_not_intro hauth)]
    dsimp only
    split
    · next heq => simp [heq]
    · next heq => simp [heq]
    · next offset r b₁ rest₁ heq =>
      have honly : (∃ a mid, Outcome.ok ((offset, r), b₁, rest₁) =
            (Outcome.ok (a.1, a.2, mid) : Outcome HandshakeError _) ∧
          (authNoPassword ∈ state.auths ∧ finishSocks5 a = .ok out) ∧ rest = mid) ↔
          finishSocks5 ((offset, r), b₁) = .ok out ∧ rest₁ = rest := by
        constructor
        · rintro ⟨⟨q, b₂⟩, mid, hsame, ⟨_, hfinish⟩, rfl⟩
          cases hsame
          exact ⟨hfinish, rfl⟩
        · rintro ⟨hfinish, rfl⟩
          exact ⟨((offset, r), b₁), _, rfl, ⟨hauth, hfinish⟩, rfl⟩
      rw [heq, honly, finishSocks5]
      split
      · cases (b₁.advanceRead offset : Outcome HandshakeError RWBuffer) <;>
          simp [Prod.ext_iff, and_assoc]
      · split
        · cases (b₁.advanceRead offset : Outcome HandshakeError RWBuffer) <;>
            simp [Prod.ext_iff, and_assoc]
        · split <;> simp
  · simp [hauth]

theorem handshakeSocks5_paced (buf : RWBuffer) (state : SocksState) :
    Paced fun cs (out : HandshakeRequest × RWBuffer) rest ↦
      (handshakeSocks5 buf cs state).outcome = .ok (out.1, out.2, rest) := by
  simp only [handshakeSocks5_eq_ok_iff]
  exact (readUntil_paced _ _ _ _).bind fun a ↦
    .const fun out ↦ authNoPassword ∈ state.auths ∧ finishSocks5 a = .ok out

/-- How `start` goes on from what it has detected. -/
def Continues (s : ProxyState) (b : RWBuffer) (cs : List Chunk)
    (out : HandshakeType × HandshakeRequest × RWBuffer) (rest : List Chunk) : Prop :=
  match s with
  | .socks5Greeted s =>
    (handshakeSocks5 b cs s).outcome = .ok (out.2.1, out.2.2, rest) ∧ out.1 = .socks5
  | .http r => (handshakeHttp r = .ok out.2.1 ∧ httpHandshakeType out.2.1 = .ok out.1 ∧
      out.2.2 = b) ∧ rest = cs
  | .socks4 r => (handshakeSocks4 r = .ok out.2.1 ∧ out.1 = .socks4 ∧ out.2.2 = b) ∧ rest = cs

theorem continues_paced (s : ProxyState) (b : RWBuffer) : Paced (Continues s b) := by
  cases s with
  | socks5Greeted s =>
    constructor
    · rintro cs out rest ⟨h, htype⟩ later
      exact ⟨(handshakeSocks5_paced b s).append (a := out.2) h later, htype⟩
    · rintro cs out rest ⟨h, htype⟩
      obtain ⟨seen, hseen, h'⟩ := (handshakeSocks5_paced b s).whole (a := out.2) h
      exact ⟨seen, hseen, h', htype⟩
  | http r => exact .const _
  | socks4 r => exact .const _

theorem start_eq_ok_iff {buf : RWBuffer} {cs rest : List Chunk}
    {out : HandshakeType × HandshakeRequest × RWBuffer} :
    (start httparse buf cs).outcome = .ok (out.1, out.2.1, out.2.2, rest) ↔
      ∃ (a : (Nat × ProxyState) × RWBuffer) (mid : List Chunk),
        readUntil unexpectedEof (detect httparse) .init buf cs = .ok (a.1, a.2, mid) ∧
        ∃ b mid', (a.2.advanceRead a.1.1 = (.ok b : Outcome HandshakeError RWBuffer) ∧
          mid' = mid) ∧ Continues a.1.2 b mid' out rest := by
  obtain ⟨type, req, b'⟩ := out
  unfold start
  constructor
  · intro h
    cases hr : readUntil unexpectedEof (detect httparse) .init buf cs with
    | err e =>
      rw [hr] at h
      cases h
    | panicked =>
      rw [hr] at h
      cases h
    | ok r =>
      obtain ⟨⟨offset, s⟩, b₁, mid⟩ := r
      rw [hr] at h
      simp only [Outcome.ok_bind] at h
      cases hb : (b₁.advanceRead offset : Outcome HandshakeError RWBuffer) with
      | err e =>
        rw [hb] at h
        cases h
      | panicked =>
        rw [hb] at h
        cases h
      | ok b₂ =>
        rw [hb] at h
        refine ⟨((offset, s), b₁), mid, rfl, b₂, mid, ⟨hb, rfl⟩, ?_⟩
        cases s with
        | socks5Greeted s =>
          obtain ⟨q, hq, hend⟩ := Outcome.bind_eq_ok_iff.mp h
          cases hend
          exact ⟨hq, rfl⟩
        | socks4 r =>
          obtain ⟨q, hq, hend⟩ := Outcome.bind_eq_ok_iff.mp h
          cases hend
          exact ⟨⟨hq, rfl, rfl⟩, rfl⟩
        | http r =>
          obtain ⟨q, hq, hok⟩ := Outcome.bind_eq_ok_iff.mp h
          obtain ⟨type', htype, hend⟩ := Outcome.bind_eq_ok_iff.mp hok
          cases hend
          exact ⟨⟨hq, htype, rfl⟩, rfl⟩
  · rintro ⟨⟨⟨offset, s⟩, b₁⟩, mid, hr, b₂, mid', ⟨hb, rfl⟩, hnext⟩
    dsimp only at hr hb
    simp only [hr, Outcome.ok_bind, hb]
    cases s with
    | socks5Greeted s =>
      obtain ⟨hq, rfl⟩ := hnext
      simp only [hq, Outcome.ok_bind]
    | socks4 r =>
      obtain ⟨⟨hq, rfl, rfl⟩, rfl⟩ := hnext
      simp only [hq, Outcome.ok_bind]
    | http r =>
      obtain ⟨⟨hq, htype, rfl⟩, rfl⟩ := hnext
      simp only [hq, htype, Outcome.ok_bind]

/-- What arrives behind the reads of a handshake does not show in it. -/
theorem start_paced (httparse : Httparse) (buf : RWBuffer) :
    Paced fun cs (out : HandshakeType × HandshakeRequest × RWBuffer) rest ↦
      (start httparse buf cs).outcome = .ok (out.1, out.2.1, out.2.2, rest) := by
  simp only [start_eq_ok_iff]
  exact (readUntil_paced _ _ _ _).bind fun a ↦
    (Paced.const fun b ↦ a.2.advanceRead a.1.1 = (.ok b : Outcome HandshakeError RWBuffer)).bind
      fun b ↦ continues_paced a.1.2 b

end Cpxy.Handshake
