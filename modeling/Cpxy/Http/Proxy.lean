import Cpxy.Http.Url
import Cpxy.Http.WebSocket
import Cpxy.Io.Duplex
import Cpxy.Net.AddressText

/-!
# The HTTP proxy

Library `Http`. Source `src/protocol/http/mod.rs` and `src/protocol/http/server.rs`. The client
asks with CONNECT and the address as text, and may send on before it is answered. The server
opens a stream for a request, with the request itself ahead when it is no CONNECT, and copies
what comes behind the head, and what the opened stream sends back.
-/

namespace Cpxy.Http

open Cpxy.Base Cpxy.Net Cpxy.Io

/-! ### The client -/

/-- `HttpProxy`; `mod.rs:19–23`. -/
structure HttpProxy where
  address : Address
  ssl : Bool
  authHeader : Option String
  deriving DecidableEq, Repr

namespace HttpProxy

/-- The head of a CONNECT request; `mod.rs:46–53`. -/
def connectHead (t : HttpProxy) (dst : Address) : Bytes :=
  let request := HttpRequestBuilder.new "CONNECT" dst.display
  (match t.authHeader with
    | some authHeader => request.putHeaderText "Proxy-Authorization" authHeader
    | none => request).finalise

/-- `new_stream` on a stream that is connected; `mod.rs:46–75`. The initial data is sent with the
request. -/
def newStream (httparse : HttparseResponse) (mem : Bytes) (t : HttpProxy) (dst : Address)
    (initialData : Option Bytes) (cs : List Chunk) : Replied (AsyncHttpStream HttpResponse) where
  written := t.connectHead dst ++ initialData.getD []
  outcome := do
    let upstream ← (parseResponse httparse (.new mem) cs).context "Parsing response"
    if upstream.init.statusCode ≠ 200 then
      .err [s!"Invalid status code from HTTP Proxy: {upstream.init.statusCode}"]
    else .ok upstream

end HttpProxy

/-! ### The server -/

/-- A connection that is served: what was opened, and the client's stream behind the head. -/
structure Proxied where
  dst : Address
  initialData : Option Bytes
  stream : AsyncHttpStream HttpRequest

/-- Whether a request is answered, its destination, and the data that goes ahead;
`server.rs:34–49`. A request that is no CONNECT is made anew, with the path of its URL. -/
def proxyRoute (req : HttpRequest) : Outcome ErrorChain (Bool × Address × Option Bytes) :=
  if req.method = "CONNECT" then do
    let dst ← Address.tryFrom req.path
    .ok (true, dst, none)
  else do
    let url ← (HttpUrl.tryFrom req.path).context s!"Parsing {req.path} as HTTP URL"
    let anew : HttpRequest := { req with path := url.path }
    .ok (false, url.address, some anew.toBuilder.finalise)

/-- The answer to a CONNECT request; `server.rs:70`. -/
def established : Bytes := asBytes "HTTP/1.1 200 OK\r\n\r\n"

/-- The answer when no stream is opened; `server.rs:64`. -/
def refused : Bytes := asBytes "HTTP/1.1 500 Error\r\n\r\n"

/-- What becomes of a request whose stream was opened, or was not; `server.rs:61–71`. -/
def respondProxied (replyHttpResponse : Bool) (p : Proxied) :
    Except ErrorChain Unit → Replied Proxied
  | .error e => ⟨refused, .err e⟩
  | .ok () => ⟨if replyHttpResponse then established else [], .ok p⟩

/-- One connection of `serve`, up to where it is copied; `server.rs:26–71`. The upstream opens a
stream to an address with data that goes ahead, or fails to. -/
def serveProxied (httparse : Httparse) (upstream : Address → Option Bytes → Except ErrorChain Unit)
    (mem : Bytes) (sender : SocketAddr) (cs : List Chunk) : Replied Proxied :=
  match (parseRequest httparse (.new mem) cs).context
      s!"Error parsing request for {sender.display}" with
  | .err e => ⟨[], .err e⟩
  | .panicked => ⟨[], .panicked⟩
  | .ok stream =>
    match proxyRoute stream.init with
    | .err e => ⟨[], .err e⟩
    | .panicked => ⟨[], .panicked⟩
    | .ok (replyHttpResponse, dst, initialData) =>
      respondProxied replyHttpResponse ⟨dst, initialData, stream⟩ (upstream dst initialData)

variable {τ : Type}

/-- How far a connection was copied: the result, if there is one, and what was written to the
stream that was opened and to the client. -/
structure Copied where
  result : Option (Outcome ErrorChain Unit)
  toUpstream : Bytes
  toClient : Bytes

/-- How the connection goes on; `server.rs:73`. The client's stream is read like its pieces. -/
def Proxied.copy (p : Proxied) (copy : Copier τ) (replies : List Chunk)
    (polls : List (List Answer × List Answer)) : Copied :=
  let copied := copyDuplex copy p.stream.pieces replies none none polls
  ⟨copied.1, copied.2.1, copied.2.2⟩

/-! ### Serving a request -/

variable {httparse : Httparse}

/-- A request at the start of the stream is routed, and the rest is kept for the upstream. -/
theorem serveProxied_spec {head x : Bytes} {req : ParsedHead} (hp : ReadsWord httparse head req)
    (hne : head ≠ []) {reply : Bool} {dst : Address} {initialData : Option Bytes}
    (hroute : proxyRoute ⟨req.headers, req.method.getD "", req.path.getD ""⟩ =
      .ok (reply, dst, initialData)) {mem : Bytes} (hmem : 2 ≤ mem.length) {cs : List Chunk}
    (hcs : content cs = head ++ x) :
    ∃ stream : AsyncHttpStream HttpRequest, content stream.pieces = x ∧
      ∀ upstream sender, serveProxied httparse upstream mem sender cs =
        respondProxied reply ⟨dst, initialData, stream⟩ (upstream dst initialData) := by
  obtain ⟨stream, hparse, hinit, hunread, _⟩ :=
    parseHead_spec ["Unexpected EOF"] (requestHead_readsWord hp) hne
      (b := RWBuffer.new mem) (RWBuffer.readBuf_new mem) hmem hcs
  have hok : parseRequest httparse (.new mem) cs = .ok stream := hparse
  refine ⟨stream, by rw [AsyncHttpStream.content_pieces, hunread], ?_⟩
  intro upstream sender
  rw [serveProxied, hok, Outcome.context_ok]
  dsimp only
  rw [hinit, hroute]

/-- What is copied for a client and for its upstream is a beginning of what the other sent. -/
theorem Proxied.copy_spec (p : Proxied) {copy : Copier τ} (hcopy : copy.Copies)
    (replies : List Chunk) (polls : List (List Answer × List Answer)) :
    (p.copy copy replies polls).toUpstream <+: content p.stream.pieces ∧
      (p.copy copy replies polls).toClient <+: content replies ∧
      ((p.copy copy replies polls).result = some (.ok ()) →
        (p.copy copy replies polls).toUpstream = content p.stream.pieces ∨
        (p.copy copy replies polls).toClient = content replies) :=
  race_copies (direction_copies hcopy none) (direction_copies hcopy none) rfl

/-! ### CONNECT between the two ends -/

/-- The headers of a CONNECT request, as a parser returns them. -/
def HttpProxy.headers (t : HttpProxy) : List (String × Bytes) :=
  match t.authHeader with
  | some authHeader => [("Proxy-Authorization", asBytes authHeader)]
  | none => []

theorem HttpProxy.connectHead_ne_nil (t : HttpProxy) (dst : Address) : t.connectHead dst ≠ [] := by
  rw [HttpProxy.connectHead, HttpRequestBuilder.finalise]
  intro h
  have hend := (List.append_eq_nil_iff.mp h).2
  exact absurd hend (by decide)

/-- The client of an answered request keeps the stream behind the answer, or fails. -/
theorem HttpProxy.newStream_kept (t : HttpProxy) (dst : Address) (initialData : Option Bytes)
    {httparse : HttparseResponse} (hp : Stable httparse) {reply : Bytes} (hne : reply ≠ [])
    {code : UInt16} {headers : List (String × Bytes)}
    (hresponse : httparse reply = .ok (some (reply.length, ⟨some code, headers⟩)))
    {mem : Bytes} (hmem : 2 ≤ mem.length) {cs : List Chunk} {y : Bytes}
    (hcs : content cs = reply ++ y) :
    ∃ client, (t.newStream httparse mem dst initialData cs).outcome =
        (if code ≠ 200 then .err [s!"Invalid status code from HTTP Proxy: {code}"]
        else .ok client) ∧ client.unread = y ∧ client.Kept := by
  obtain ⟨client, hparse, hinit, hunread, hkept⟩ :=
    parseHead_spec ["Unexpected EOF while parsing HTTP response"]
      (responseHead_readsWord (hp.readsWord hresponse) rfl) hne (b := RWBuffer.new mem)
      (RWBuffer.readBuf_new mem) hmem hcs
  have hok : parseResponse httparse (.new mem) cs = .ok client := hparse
  refine ⟨client, ?_, hunread, hkept⟩
  rw [HttpProxy.newStream]
  dsimp only
  rw [hok, Outcome.context_ok, Outcome.ok_bind, hinit]

/-- The client of an answered request goes on with the stream behind the answer, or fails. -/
theorem HttpProxy.newStream_spec (t : HttpProxy) (dst : Address) (initialData : Option Bytes)
    {httparse : HttparseResponse} (hp : Stable httparse) {reply : Bytes} (hne : reply ≠ [])
    {code : UInt16} {headers : List (String × Bytes)}
    (hresponse : httparse reply = .ok (some (reply.length, ⟨some code, headers⟩)))
    {mem : Bytes} (hmem : 2 ≤ mem.length) {cs : List Chunk} {y : Bytes}
    (hcs : content cs = reply ++ y) :
    ∃ client, (t.newStream httparse mem dst initialData cs).outcome =
        (if code ≠ 200 then .err [s!"Invalid status code from HTTP Proxy: {code}"]
        else .ok client) ∧ client.Yields y := by
  obtain ⟨client, houtcome, hunread, hkept⟩ :=
    t.newStream_kept dst initialData hp hne hresponse hmem hcs
  exact ⟨client, houtcome, hunread ▸ hkept.yields_unread⟩

private def plainProxy : HttpProxy := ⟨.name "proxy" 3128, false, some "Basic YTpi"⟩

private def loopback6 : Address := .ip (.v6 ⟨1⟩ 443 0 0)

private def connectParser : Httparse :=
  onlyWord (plainProxy.connectHead loopback6) "invalid token"
    ⟨some "CONNECT", some loopback6.display, plainProxy.headers⟩

private def okParser : HttparseResponse := onlyWord established "invalid token" ⟨some 200, []⟩

end Cpxy.Http
