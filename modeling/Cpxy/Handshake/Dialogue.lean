import Cpxy.Base.Talk
import Cpxy.Handshake.Start
import Cpxy.Net.AddressCodec

/-!
# SOCKS5 between the two ends

Library `Handshake`. Source `src/protocol/socks5/mod.rs:30–108`, `src/socks5/greeting.rs:41–57`,
`src/socks5/req.rs:71–86`, and the answer that `src/client/tcp.rs:23–37` and
`src/client/udp.rs:28–37` give to a handshake. The client of this program and its server talk
to each other: whatever the packets on the two pipes, they come to the same request, the same
answer, and lose nothing that follows.
-/

namespace Cpxy.Handshake

open Cpxy.Base Cpxy.Net Cpxy.Http Cpxy.Io

/-! ### The client -/

/-- `read_exact` of so many bytes. -/
def readExactly (n : Nat) : Cursor ErrorChain Bytes :=
  Cursor.readExact ["unexpected end of file"] n

/-- `ClientGreeting::to_async_writer`; `greeting.rs:50–54`. -/
def greetingToWriter (auths : Bytes) : Talk ErrorChain Unit := do
  let len ← Talk.attempt (if auths.length ≤ 255 then .ok (UInt8.ofNat auths.length)
    else .err ["out of range integral type conversion attempted"])
  Talk.write [0x5, len]
  Talk.write auths

/-- `ClientGreeting::read_response`; `greeting.rs:41–48`. -/
def readGreetingResponse : Cursor ErrorChain UInt8 := do
  let bufs ← readExactly 2
  Cursor.onBytes bufs do
    let version ← Cursor.getU8
    if version ≠ 0x5 then Cursor.throw [s!"Unknown protocol version: {version}"]
    else Cursor.getU8

/-- `ClientConnRequest::to_async_writer`; `req.rs:71–75`. The length of a name is converted
when the head of the request is already written. -/
def ClientConnRequest.toWriter (req : ClientConnRequest) : Talk ErrorChain Unit := do
  Talk.write [0x5, req.cmd, 0]
  Talk.write req.address.write.bytes
  Talk.attempt req.address.write.outcome

/-- `ClientConnRequest::parse_response`; `req.rs:77–86`. -/
def parseConnResponse : Cursor ErrorChain (UInt8 × Address) := do
  let hdrs ← readExactly 3
  let (version, code, rsv) ← Cursor.onBytes hdrs do
    let version ← Cursor.getU8
    let code ← Cursor.getU8
    let rsv ← Cursor.getU8
    pure (version, code, rsv)
  if version ≠ 5 ∨ rsv ≠ 0 then Cursor.throw ["Invalid Response"]
  else do
    let bounded ← Address.parseAsync
    pure (code, bounded)

/-- `request_socks5`; `mod.rs:30–66`. -/
def requestSocks5 (req : ClientConnRequest) : Talk ErrorChain Address := do
  (greetingToWriter [authNoPassword]).context "Sending greeting message"
  let auth ← (Talk.read readGreetingResponse).context "Receiving greeting response"
  if auth ≠ authNoPassword then Talk.throw ["Expecting NO_PASSWORD AUTH"]
  else do
    req.toWriter.context "Sending conn req"
    let (code, addr) ← (Talk.read parseConnResponse).context "Receiving conn response"
    if code ≠ connGranted then
      Talk.throw [s!"Invalid socks5 status code: ConnStatusCode({code})"]
    else pure addr

/-- The client's part of a connection: the request, and what it goes on to send when it is
granted; `new_stream` in `mod.rs:76–108`. -/
def newStream (req : ClientConnRequest) (initialData : Bytes) : Talk ErrorChain Address := do
  let addr ← (requestSocks5 req).context "Requesting SOCKS5 proxy"
  Talk.write initialData
  pure addr

/-! ### The server -/

/-- What becomes of a request: refused, or granted with a bound address. -/
abbrev Decision := HandshakeRequest → Option (Option SocketAddr)

/-- The answer to a request; `tcp.rs:23–35`, `udp.rs:28–37`. -/
def respond (decision : Decision) (type : HandshakeType) (req : HandshakeRequest) :
    Outcome ErrorChain Bytes :=
  match decision req with
  | some bound => respondOk type bound
  | none => respondErr type

/-- A handshake and its answer. -/
def serveHandshake (httparse : Httparse) (decision : Decision) (b : RWBuffer)
    (cs : List Chunk) : Started (HandshakeRequest × RWBuffer × List Chunk) :=
  let started := start httparse b cs
  match started.outcome with
  | .err e => ⟨started.written, .err e⟩
  | .panicked => ⟨started.written, .panicked⟩
  | .ok (type, req, b, cs) =>
    match respond decision type req with
    | .ok reply => ⟨started.written ++ reply, .ok (req, b, cs)⟩
    | .err e => ⟨started.written, .err (.chain e)⟩
    | .panicked => ⟨started.written, .panicked⟩

/-! ### Both ends as parties -/

theorem readExactly_persists (n : Nat) : (readExactly n).Persists := Cursor.Persists.readExact _ n

theorem readGreetingResponse_persists : readGreetingResponse.Persists :=
  (readExactly_persists 2).bind fun _ ↦ Cursor.Persists.onBytes _ _

theorem parseConnResponse_persists : parseConnResponse.Persists := by
  apply (readExactly_persists 3).bind
  intro hdrs
  apply (Cursor.Persists.onBytes hdrs _).bind
  rintro ⟨version, code, rsv⟩
  dsimp only
  split
  · exact Cursor.Persists.throw _
  · exact Address.parseAsync_persists.bind fun _ ↦ Cursor.Persists.pure _

theorem greetingToWriter_causal (auths : Bytes) : (greetingToWriter auths).Causal :=
  (Talk.Causal.attempt _).bind fun _ ↦ (Talk.Causal.write _).bind fun _ ↦ Talk.Causal.write _

theorem ClientConnRequest.toWriter_causal (req : ClientConnRequest) : req.toWriter.Causal :=
  (Talk.Causal.write _).bind fun _ ↦ (Talk.Causal.write _).bind fun _ ↦ Talk.Causal.attempt _

theorem requestSocks5_causal (req : ClientConnRequest) : (requestSocks5 req).Causal := by
  apply ((greetingToWriter_causal _).context _).bind
  intro _
  apply ((Talk.Causal.read readGreetingResponse_persists).context _).bind
  intro auth
  split
  · exact Talk.Causal.throw _
  · apply (req.toWriter_causal.context _).bind
    intro _
    apply ((Talk.Causal.read parseConnResponse_persists).context _).bind
    rintro ⟨code, addr⟩
    dsimp only
    split
    · exact Talk.Causal.throw _
    · exact Talk.Causal.pure _

theorem newStream_causal (req : ClientConnRequest) (initialData : Bytes) :
    (newStream req initialData).Causal :=
  ((requestSocks5_causal req).context _).bind fun _ ↦
    (Talk.Causal.write _).bind fun _ ↦ Talk.Causal.pure _

variable {httparse : Httparse} {b : Bytes}

theorem detected_persists (hp : HeadParser httparse) {r : Nat × ProxyState}
    (h : detected httparse b = some r) (x : Bytes) : detected httparse (b ++ x) = some r := by
  unfold detected at h
  split at h
  · next h5 =>
    obtain ⟨a, ha, rfl⟩ := Option.map_eq_some_iff.mp h
    rw [detected_socks5 (head?_append_of_some h5 x),
      parseSocks5Greeting_stable.reads_of_complete (parseSocks5Greeting_stable.of_reads ha).1 x]
    rfl
  · split at h
    · next h4 =>
      obtain ⟨a, ha, rfl⟩ := Option.map_eq_some_iff.mp h
      rw [detected_socks4 (head?_append_of_some h4 x),
        parseSocks4Request_stable.reads_of_complete (parseSocks4Request_stable.of_reads ha).1 x]
      rfl
    · obtain ⟨a, ha, rfl⟩ := Option.map_eq_some_iff.mp h
      exact hp.detected_of_complete ((hp.stable.complete _ _ _ (hp.stable.of_reads ha).1).2 x)

/-- The request behind a greeting is decided once; before that, only the greeting is answered. -/
theorem socks5Answer_grows (state : SocksState) (b x : Bytes) :
    ((socks5Answer b state).1 <+: (socks5Answer (b ++ x) state).1) ∧
      ∀ r, (socks5Answer b state).2 = some r →
        socks5Answer (b ++ x) state = socks5Answer b state := by
  unfold socks5Answer
  by_cases hauth : authNoPassword ∉ state.auths
  · rw [if_pos hauth, if_pos hauth]
    exact ⟨List.prefix_rfl, fun _ _ ↦ rfl⟩
  · rw [if_neg hauth, if_neg hauth]
    cases hr : reads parseConnRequest b with
    | some r =>
      rw [parseConnRequest_stable.reads_of_complete (parseConnRequest_stable.of_reads hr).1 x]
      exact ⟨List.prefix_rfl, fun _ _ ↦ rfl⟩
    | none =>
      constructor
      · dsimp only
        split
        · exact List.prefix_rfl
        · split
          · exact List.prefix_rfl
          · split
            · exact List.prefix_rfl
            · exact List.prefix_append _ _
      · intro r h
        cases h

/-- More bytes add to what the handshake writes, and change no request. -/
theorem answer_grows (hp : HeadParser httparse) (b x : Bytes) :
    ((answer httparse b).1 <+: (answer httparse (b ++ x)).1) ∧
      ∀ r, (answer httparse b).2 = some r → answer httparse (b ++ x) = answer httparse b := by
  cases hd : detected httparse b with
  | none =>
    constructor
    · rw [answer, hd]
      exact List.nil_prefix
    · intro r h
      rw [answer, hd] at h
      cases h
  | some d =>
    obtain ⟨n, state⟩ := d
    have hn := detected_le hp hd
    have hx := detected_persists hp hd x
    rw [answer, answer, hd, hx]
    cases state with
    | socks5Greeted s =>
      obtain ⟨hgrows, hdone⟩ := socks5Answer_grows s (b.drop n) x
      dsimp only
      rw [List.drop_append_of_le_length hn]
      refine ⟨hgrows, fun r h ↦ ?_⟩
      obtain ⟨r', hr', _⟩ := Option.map_eq_some_iff.mp h
      rw [hdone r' hr']
    | socks4 r => exact ⟨List.prefix_rfl, fun _ _ ↦ rfl⟩
    | http r => exact ⟨List.prefix_rfl, fun _ _ ↦ rfl⟩

/-- What the server has written when these bytes have arrived. -/
def serverWrites (httparse : Httparse) (decision : Decision) (b : Bytes) : Bytes :=
  (answer httparse b).1 ++
    match (answer httparse b).2 with
    | none => []
    | some (_, type, req) => (succeeded (respond decision type req)).getD []

/-- The server as a party. -/
def serverParty (hp : HeadParser httparse) (decision : Decision) : Party UInt8 UInt8 where
  writes := serverWrites httparse decision
  mono := by
    rintro b _ ⟨x, rfl⟩
    obtain ⟨hgrows, hdone⟩ := answer_grows hp b x
    cases ha : (answer httparse b).2 with
    | none =>
      rw [serverWrites, ha, List.append_nil]
      exact hgrows.trans (List.prefix_append _ _)
    | some r => rw [serverWrites, serverWrites, hdone r ha]

/-- The code of the server is the party, in whatever pieces the bytes come. -/
theorem serveHandshake_spec (hp : HeadParser httparse) (decision : Decision) (mem : Bytes)
    (cs : List Chunk) (hmem : 2 ≤ mem.length) :
    (serveHandshake httparse decision (.new mem) cs).written =
        serverWrites httparse decision (content cs) ∧
      ∀ n type req reply, (answer httparse (content cs)).2 = some (n, type, req) →
        respond decision type req = .ok reply →
        ∃ b rest, (serveHandshake httparse decision (.new mem) cs).outcome = .ok (req, b, rest) ∧
          Kept (content cs) n b rest := by
  obtain ⟨hw, hout⟩ := start_spec hp mem cs hmem
  rw [serveHandshake, serverWrites]
  cases ha : (answer httparse (content cs)).2 with
  | none =>
    rw [ha] at hout
    obtain ⟨e, he⟩ := hout
    simp [he, hw]
  | some r =>
    obtain ⟨n, type, req⟩ := r
    rw [ha] at hout
    obtain ⟨b, rest, hok, hkept⟩ := hout
    simp only [hok]
    cases hr : respond decision type req with
    | ok reply =>
      refine ⟨by rw [hw]; rfl, ?_⟩
      rintro n' type' req' reply' heq -
      cases heq
      exact ⟨b, rest, rfl, hkept⟩
    | err e =>
      refine ⟨by rw [hw]; exact (List.append_nil _).symm, ?_⟩
      rintro n' type' req' reply' heq hok'
      cases heq
      rw [hr] at hok'
      cases hok'
    | panicked =>
      refine ⟨by rw [hw]; exact (List.append_nil _).symm, ?_⟩
      rintro n' type' req' reply' heq hok'
      cases heq
      rw [hr] at hok'
      cases hok'

/-! ### What each end says -/

/-- The greeting of the client. -/
def hail : Bytes := [0x5, 1, authNoPassword]

/-- The request of the client. -/
def requestBytes (req : ClientConnRequest) : Bytes := [0x5, req.cmd, 0] ++ req.address.write.bytes

/-- What the server makes of a request. -/
def asked (req : ClientConnRequest) : HandshakeRequest :=
  if req.cmd = connectTcp then .tcp req.address.norm
  else .udp (if req.address.norm.isUnspecified then none else some req.address.norm)

/-- The status of the server's answer. -/
def status : Option (Option SocketAddr) → UInt8
  | some _ => connGranted
  | none => connFailed

/-- The address in the server's answer. -/
def bound : Option (Option SocketAddr) → SocketAddr
  | some (some addr) => addr
  | some none => .v4 ⟨0⟩ 0
  | none => .v4 ⟨0⟩ 0

/-- The server's answer to a request. -/
def answerBytes (d : Option (Option SocketAddr)) : Bytes :=
  [0x5, status d, 0] ++ (Address.ip (bound d)).writeInto.bytes

theorem not_longName_ip (addr : SocketAddr) : ¬ (Address.ip addr).LongName := id

theorem connReply_ip (code : UInt8) (addr : SocketAddr) :
    connReply code (.ip addr) = .ok ([0x5, code, 0] ++ (Address.ip addr).writeInto.bytes) := by
  rw [connReply, (Address.writeTo_of_short (not_longName_ip addr)).1]
  rfl

theorem respond_socks5 (decision : Decision) (req : HandshakeRequest) :
    respond decision .socks5 req = .ok (answerBytes (decision req)) := by
  rw [respond]
  cases decision req with
  | none => exact connReply_ip _ _
  | some d =>
    cases d with
    | none => exact connReply_ip _ _
    | some addr => exact connReply_ip _ _

/-- A socket address on the wire is read from a stream as it is from a buffer. -/
theorem parseAsync_writeInto (addr : SocketAddr) (x : Bytes) :
    Address.parseAsync ((Address.ip addr).writeInto.bytes ++ x) = .ok (.ip addr.canonical, x) := by
  have hparse := Address.parse_writeInto (not_longName_ip addr) x
  have hlen := Address.length_writeInto (not_longName_ip addr)
  obtain ⟨kind, tail, hbytes, hkind⟩ : ∃ kind tail,
      (Address.ip addr).writeInto.bytes = kind :: tail ∧ kind ≠ 0x3 := by
    cases addr with
    | v4 a port => exact ⟨0x1, _, rfl, by decide⟩
    | v6 a port flow scope => exact ⟨0x4, _, rfl, by decide⟩
  have hagree := Address.decodersAgree_of_not_name hkind (tail ++ x)
  rw [← List.cons_append, ← hbytes] at hagree
  have hread := ((hagree _ _).mp hparse).2
  rw [← hlen, List.drop_left] at hread
  exact hread

theorem parseConnResponse_append (code : UInt8) (addr : SocketAddr) (x : Bytes) :
    parseConnResponse ([0x5, code, 0] ++ ((Address.ip addr).writeInto.bytes ++ x)) =
      .ok ((code, .ip addr.canonical), x) := by
  have hhead : readExactly 3 ([0x5, code, 0] ++ ((Address.ip addr).writeInto.bytes ++ x)) =
      .ok ([0x5, code, 0], (Address.ip addr).writeInto.bytes ++ x) :=
    Cursor.readExact_append _ _ rfl
  have hdr : ∀ rest, Cursor.onBytes [0x5, code, 0] (do
      let version ← Cursor.getU8
      let code ← Cursor.getU8
      let rsv ← Cursor.getU8
      pure (version, code, rsv) : Cursor ErrorChain (UInt8 × UInt8 × UInt8)) rest =
        .ok ((0x5, code, 0), rest) := fun _ ↦ rfl
  rw [parseConnResponse, Cursor.bind_apply, hhead, Outcome.ok_bind, Cursor.bind_apply, hdr,
    Outcome.ok_bind]
  dsimp only
  rw [if_neg (by decide), Cursor.bind_apply, parseAsync_writeInto]
  rfl

theorem readGreetingResponse_append (auth : UInt8) (x : Bytes) :
    readGreetingResponse (greetingReply auth ++ x) = .ok (auth, x) := by
  have hhead : readExactly 2 (greetingReply auth ++ x) = .ok (greetingReply auth, x) :=
    Cursor.readExact_append _ _ rfl
  rw [readGreetingResponse, Cursor.bind_apply, hhead]
  rfl

theorem ClientConnRequest.toWriter_apply {req : ClientConnRequest}
    (h : ¬ req.address.LongName) (b : Bytes) :
    req.toWriter b = (requestBytes req, .ok ((), b)) := by
  have hout : req.address.write.outcome = .ok () := by
    rw [Address.write_eq_writeInto]
    exact (Address.writeTo_of_short h).2
  rw [toWriter, Talk.bind_of_ok (Talk.write_apply _ _), Talk.bind_of_ok (Talk.write_apply _ _),
    hout]
  simp [requestBytes]

/-- The client greets, and waits. -/
theorem requestSocks5_nil (req : ClientConnRequest) :
    ∃ e, requestSocks5 req [] = (hail, .err e) := ⟨_, rfl⟩

/-- Greeted, the client asks. -/
theorem requestSocks5_greeted {req : ClientConnRequest} (h : ¬ req.address.LongName)
    (x : Bytes) :
    requestSocks5 req (greetingReply authNoPassword ++ x) =
      (hail ++ requestBytes req, do
        let ((code, addr), rest) ← (parseConnResponse x).context "Receiving conn response"
        if code ≠ connGranted then .err [s!"Invalid socks5 status code: ConnStatusCode({code})"]
        else .ok (addr, rest)) := by
  have hauth : ((Talk.read readGreetingResponse).context "Receiving greeting response")
      (greetingReply authNoPassword ++ x) = ([], .ok (authNoPassword, x)) := by
    rw [Talk.context_apply, Talk.read_apply, readGreetingResponse_append]
    rfl
  have hask : (req.toWriter.context "Sending conn req") x = (requestBytes req, .ok ((), x)) := by
    rw [Talk.context_apply, req.toWriter_apply h]
    rfl
  rw [requestSocks5, Talk.bind_of_ok (w := hail) (a := ()) rfl]
  dsimp only
  rw [Talk.bind_of_ok hauth]
  dsimp only
  rw [if_neg (by simp), Talk.bind_of_ok hask, Talk.bind_apply, Talk.context_apply, Talk.read_apply]
  cases (parseConnResponse x).context "Receiving conn response" with
  | ok r =>
    obtain ⟨⟨code, addr⟩, rest⟩ := r
    dsimp only
    rw [Outcome.ok_bind]
    dsimp only
    split <;> simp
  | err e => simp
  | panicked => simp

/-- What the client's call comes to. -/
def clientResult (d : Option (Option SocketAddr)) : Outcome ErrorChain (Address × Bytes) :=
  match d with
  | some _ => .ok (.ip (bound d).canonical, [])
  | none => .err ["Requesting SOCKS5 proxy", "Invalid socks5 status code: ConnStatusCode(1)"]

/-- What the client sends once it has the answer. -/
def sentOn (d : Option (Option SocketAddr)) (initialData : Bytes) : Bytes :=
  if d.isSome then initialData else []

theorem newStream_answered {req : ClientConnRequest} (h : ¬ req.address.LongName)
    (initialData : Bytes) (d : Option (Option SocketAddr)) :
    newStream req initialData (greetingReply authNoPassword ++ answerBytes d) =
      (hail ++ requestBytes req ++ sentOn d initialData, clientResult d) := by
  have hresp : parseConnResponse (answerBytes d) = .ok ((status d, .ip (bound d).canonical), []) := by
    have happ := parseConnResponse_append (status d) (bound d) []
    rw [List.append_nil] at happ
    exact happ
  have hreq := requestSocks5_greeted h (answerBytes d)
  rw [hresp] at hreq
  cases d with
  | some bound =>
    rw [newStream, Talk.bind_of_ok (w := hail ++ requestBytes req)]
    · rw [Talk.bind_of_ok (Talk.write_apply _ _)]
      simp only [sentOn, Option.isSome_some, if_true, Talk.pure_apply, List.append_nil]
      rfl
    · rw [Talk.context_apply, hreq]
      rfl
  | none =>
    rw [newStream, Talk.bind_of_err (w := hail ++ requestBytes req)
      (e := ["Requesting SOCKS5 proxy", "Invalid socks5 status code: ConnStatusCode(1)"])]
    · simp only [sentOn, Option.isSome_none, Bool.false_eq_true, if_false, List.append_nil]
      rfl
    · rw [Talk.context_apply, hreq]
      rfl

/-- The client of the dialogue. -/
def clientParty (req : ClientConnRequest) (initialData : Bytes) : Party UInt8 UInt8 :=
  (newStream_causal req initialData).party

theorem newStream_nil (req : ClientConnRequest) (initialData : Bytes) :
    (newStream req initialData []).1 = hail := by
  obtain ⟨e, he⟩ := requestSocks5_nil req
  rw [newStream, Talk.bind_of_err (w := hail)]
  rw [Talk.context_apply, he]
  rfl

theorem newStream_greeted {req : ClientConnRequest} (h : ¬ req.address.LongName)
    (initialData : Bytes) :
    (newStream req initialData (greetingReply authNoPassword)).1 = hail ++ requestBytes req := by
  have hreq := requestSocks5_greeted h []
  rw [List.append_nil] at hreq
  rw [newStream, Talk.bind_of_err (w := hail ++ requestBytes req)]
  rw [Talk.context_apply, hreq]
  rfl

/-- Behind a greeting, the answer is that of the SOCKS5 handshake. -/
theorem answer_hail (httparse : Httparse) (x : Bytes) :
    answer httparse (hail ++ x) =
      ((socks5Answer x ⟨[authNoPassword]⟩).1,
        (socks5Answer x ⟨[authNoPassword]⟩).2.map fun r ↦ (3 + r.1, .socks5, r.2)) := by
  have hread : reads parseSocks5Greeting (hail ++ x) = some (3, ⟨[authNoPassword]⟩) :=
    parseSocks5Greeting_stable.reads_of_complete (b := hail) rfl x
  have hdet : detected httparse (hail ++ x) =
      some (3, .socks5Greeted ⟨[authNoPassword]⟩) := by
    rw [detected_socks5 rfl, hread]
    rfl
  rw [answer, hdet]
  rfl

theorem length_requestBytes {req : ClientConnRequest} (h : ¬ req.address.LongName) :
    (requestBytes req).length = 3 + req.address.writeLen := by
  rw [requestBytes, Address.write_eq_writeInto, List.length_append, Address.length_writeInto h]
  rfl

/-- The request of the client is read as it was meant. -/
theorem socks5Answer_requestBytes {req : ClientConnRequest} (h : ¬ req.address.LongName)
    (hcmd : req.cmd = connectTcp ∨ req.cmd = bindUdp) (x : Bytes) :
    socks5Answer (requestBytes req ++ x) ⟨[authNoPassword]⟩ =
      (greetingReply authNoPassword, some ((requestBytes req).length, asked req)) := by
  have hparse : parseConnRequest (requestBytes req ++ x) =
      .ok (some ((requestBytes req).length, ⟨req.cmd, req.address.norm⟩)) := by
    rw [length_requestBytes h, requestBytes, Address.write_eq_writeInto, List.append_assoc]
    change parseConnRequest (0x5 :: req.cmd :: 0 :: (req.address.writeInto.bytes ++ x)) = _
    rw [parseConnRequest_cons, if_neg (by decide), if_neg (by decide), Address.parse_writeInto h]
    rfl
  have hreads : reads parseConnRequest (requestBytes req ++ x) =
      some ((requestBytes req).length, ⟨req.cmd, req.address.norm⟩) := by
    rw [reads, hparse]
  rw [socks5Answer, if_neg (by simp), hreads, asked]
  dsimp only
  rcases hcmd with hcmd | hcmd
  · rw [if_pos hcmd, if_pos hcmd]
  · have hne : req.cmd ≠ connectTcp := by
      rw [hcmd]
      decide
    rw [if_neg hne, if_pos hcmd, if_neg hne]

theorem serverWrites_nil (decision : Decision) (hp : HeadParser httparse) :
    (serverParty hp decision).writes hail = greetingReply authNoPassword := by
  have ha : answer httparse hail = (greetingReply authNoPassword, none) := by
    have happ := answer_hail httparse []
    rw [List.append_nil] at happ
    rw [happ]
    rfl
  change serverWrites httparse decision hail = _
  rw [serverWrites, ha]
  rfl

theorem serverWrites_request {req : ClientConnRequest} (h : ¬ req.address.LongName)
    (hcmd : req.cmd = connectTcp ∨ req.cmd = bindUdp) (decision : Decision)
    (hp : HeadParser httparse) (x : Bytes) :
    (serverParty hp decision).writes (hail ++ requestBytes req ++ x) =
      greetingReply authNoPassword ++ answerBytes (decision (asked req)) := by
  change serverWrites httparse decision _ = _
  rw [serverWrites, List.append_assoc, answer_hail httparse, socks5Answer_requestBytes h hcmd]
  simp only [Option.map_some, respond_socks5]
  rfl

/-! ### The dialogue -/

/-- The end of the dialogue: what the two have received then. -/
def transcript (req : ClientConnRequest) (initialData : Bytes) (decision : Decision) :
    Received UInt8 UInt8 where
  left := greetingReply authNoPassword ++ answerBytes (decision (asked req))
  right := hail ++ requestBytes req ++ sentOn (decision (asked req)) initialData

/-- Greeting, reply, request, answer, and what the client sends on. -/
theorem reached_transcript (hp : HeadParser httparse) {req : ClientConnRequest}
    (h : ¬ req.address.LongName) (hcmd : req.cmd = connectTcp ∨ req.cmd = bindUdp)
    (decision : Decision) (initialData : Bytes) :
    Dialogue.Reached (clientParty req initialData) (serverParty hp decision)
      (transcript req initialData decision) := by
  have hgreeted : Dialogue.Reached (clientParty req initialData) (serverParty hp decision)
      ⟨greetingReply authNoPassword, hail⟩ := by
    have hr := (Dialogue.reached_start (l := clientParty req initialData)
      (r := serverParty hp decision)).allRight.allLeft
    have hw : (clientParty req initialData).writes (Dialogue.start (β := UInt8)).left = hail :=
      newStream_nil req initialData
    rw [hw, serverWrites_nil] at hr
    exact hr
  have hasked : Dialogue.Reached (clientParty req initialData) (serverParty hp decision)
      ⟨greetingReply authNoPassword, hail ++ requestBytes req⟩ := by
    have hw : (clientParty req initialData).writes (greetingReply authNoPassword) = _ :=
      newStream_greeted h initialData
    rw [← hw]
    exact hgreeted.allRight
  have hanswered : Dialogue.Reached (clientParty req initialData) (serverParty hp decision)
      ⟨greetingReply authNoPassword ++ answerBytes (decision (asked req)),
        hail ++ requestBytes req⟩ := by
    have hw := serverWrites_request h hcmd decision hp []
    rw [List.append_nil] at hw
    rw [← hw]
    exact hasked.allLeft
  have hw : (clientParty req initialData).writes (greetingReply authNoPassword ++
      answerBytes (decision (asked req))) =
        hail ++ requestBytes req ++ sentOn (decision (asked req)) initialData :=
    congrArg Prod.fst (newStream_answered h initialData _)
  rw [transcript, ← hw]
  exact hanswered.allRight

theorem quiet_transcript (hp : HeadParser httparse) {req : ClientConnRequest}
    (h : ¬ req.address.LongName) (hcmd : req.cmd = connectTcp ∨ req.cmd = bindUdp)
    (decision : Decision) (initialData : Bytes) :
    Dialogue.Quiet (clientParty req initialData) (serverParty hp decision)
      (transcript req initialData decision) :=
  ⟨serverWrites_request h hcmd decision hp _,
    congrArg Prod.fst (newStream_answered h initialData _)⟩

/-- At the end of the dialogue the server has the request, and keeps what came behind it. -/
theorem serveHandshake_transcript (hp : HeadParser httparse) {req : ClientConnRequest}
    (h : ¬ req.address.LongName) (hcmd : req.cmd = connectTcp ∨ req.cmd = bindUdp)
    (decision : Decision) (initialData : Bytes) {mem : Bytes} {cs : List Chunk}
    (hmem : 2 ≤ mem.length) (hcs : content cs = (transcript req initialData decision).right) :
    ∃ b rest, (serveHandshake httparse decision (.new mem) cs).outcome =
        .ok (asked req, b, rest) ∧
      b.readBuf ++ content rest = sentOn (decision (asked req)) initialData := by
  have hall : content cs = hail ++ (requestBytes req ++
      sentOn (decision (asked req)) initialData) := by
    rw [hcs, transcript, List.append_assoc]
  have hans : (answer httparse (content cs)).2 =
      some (3 + (requestBytes req).length, .socks5, asked req) := by
    rw [hall, answer_hail httparse, socks5Answer_requestBytes h hcmd]
    rfl
  obtain ⟨b, rest, hok, read, hread, hn, hleft⟩ :=
    (serveHandshake_spec hp decision mem cs hmem).2 _ _ _ _ hans (respond_socks5 _ _)
  refine ⟨b, rest, hok, ?_⟩
  have hdrop : b.readBuf ++ content rest =
      (content cs).drop (3 + (requestBytes req).length) := by
    rw [hleft, ← hread, List.drop_append_of_le_length hn]
  have hlen : (hail ++ requestBytes req).length = 3 + (requestBytes req).length := by
    rw [List.length_append]
    rfl
  rw [hdrop, hall, ← List.append_assoc, ← hlen, List.drop_left]

private def askSite : ClientConnRequest := ⟨connectTcp, .ip (.v4 ⟨0x08080808⟩ 80)⟩

private def blankHead : Httparse := onlyHead (71 :: asBytes "ET / HTTP/1.1") ⟨some "GET", some "/", []⟩

private theorem headParser_blankHead : HeadParser blankHead :=
  headParser_onlyHead _ "GET" "/" [] (by decide) (by decide)

end Cpxy.Handshake
