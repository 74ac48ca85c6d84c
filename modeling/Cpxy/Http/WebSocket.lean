import Cpxy.Http.Stream

/-!
# WebSocket upgrades

Library `Http`. Source `src/ws.rs:12–116`. The client asks for an upgrade and waits for
status 101, the server checks the request. Both then go on with the stream behind the head.
-/

namespace Cpxy.Http

open Cpxy.Base Cpxy.Io

/-- The headers that `negotiate_websocket` adds; `ws.rs:16–20`. -/
def upgradeHeaders : List (String × String) :=
  [("Connection", "Upgrade"), ("Upgrade", "Websocket"), ("Sec-WebSocket-Version", "13"),
    ("Sec-WebSocket-Key", "dGhlIHNhbXBsZSBub25jZQ==")]

/-- `put_header_text` for each of a list of headers. -/
def HttpRequestBuilder.putHeaderTexts (b : HttpRequestBuilder) (headers : List (String × String)) :
    HttpRequestBuilder :=
  headers.foldl (fun b h ↦ b.putHeaderText h.1 h.2) b

/-- What `negotiate_websocket` sends; `ws.rs:16–25`. -/
def websocketRequest (builder : HttpRequestBuilder) : Bytes :=
  (builder.putHeaderTexts upgradeHeaders).finalise

/-- `negotiate_websocket` after the request is sent; `ws.rs:27–45`. The error is kept without
the body in its text. -/
def negotiateWebsocket (httparse : HttparseResponse) (mem : Bytes) (cs : List Chunk) :
    Outcome ErrorChain (AsyncHttpStream HttpResponse) := do
  let httpStream ← (parseResponse httparse (.new mem) cs).context "Parsing initial response"
  if httpStream.init.statusCode ≠ 101 then
    .err [s!"Expecting 101 response but got {httpStream.init.statusCode}"]
  else .ok httpStream

/-- What was written to the peer, and what the call returned. -/
structure Replied (α : Type) where
  written : Bytes
  outcome : Outcome ErrorChain α

/-- The checks of `serve_websocket`; `ws.rs:92–106`. -/
def isUpgrade (headers : List (String × Bytes)) : Bool :=
  eqIgnoreAsciiCase ((getHeaderText headers "connection").getD "") "upgrade" &&
    eqIgnoreAsciiCase ((getHeaderText headers "upgrade").getD "") "websocket" &&
    eqIgnoreAsciiCase ((getHeaderText headers "sec-websocket-version").getD "") "13" &&
    0 < (asBytes ((getHeaderText headers "sec-websocket-key").getD "")).length

/-- `serve_websocket`; `ws.rs:81–116`. -/
def serveWebsocket (httparse : Httparse) (mem : Bytes) (cs : List Chunk) :
    Replied (AsyncHttpStream HttpRequest) :=
  match parseRequest httparse (.new mem) cs with
  | .err e => ⟨[], .err e⟩
  | .panicked => ⟨[], .panicked⟩
  | .ok req =>
    if ¬ eqIgnoreAsciiCase req.init.method "get" then
      ⟨[], .err [s!"Expecting GET method but got {req.init.method}"]⟩
    else if isUpgrade req.init.headers then ⟨[], .ok req⟩
    else ⟨asBytes "HTTP/1.1 404 Not found\r\n\r\n", .err ["Invalid websocket parameters"]⟩

/-- What `respond_success` writes; `ws.rs:56–64`. -/
def switchingProtocols : Bytes :=
  asBytes ("HTTP/1.1 101 Switching Protocols\r\nUpgrade: WebSocket\r\nConnection: Upgrade\r\n" ++
    "Sec-WebSocket-Accept: s3pPLMBiTxaQ9kYGzzhZRbK+xOo=\r\n\r\n")

/-! ### Looking up headers -/

theorem getHeader_cons (k : String) (v : Bytes) (hs : List (String × Bytes)) (n : String) :
    getHeader ((k, v) :: hs) n = if eqIgnoreAsciiCase k n then some v else getHeader hs n := by
  rw [getHeader, List.find?_cons]
  cases eqIgnoreAsciiCase k n <;> rfl

/-- The headers as a parser returns them. -/
def textHeaders (headers : List (String × String)) : List (String × Bytes) :=
  headers.map fun h ↦ (h.1, asBytes h.2)

/-- Headers under other names do not show. -/
theorem getHeader_append_of_ne {hs : List (String × Bytes)} {n : String}
    (h : ∀ p ∈ hs, eqIgnoreAsciiCase p.1 n = false) (rest : List (String × Bytes)) :
    getHeader (hs ++ rest) n = getHeader rest n := by
  induction hs with
  | nil => rfl
  | cons p hs ih =>
    rw [List.cons_append, getHeader_cons, h p List.mem_cons_self, if_neg Bool.false_ne_true]
    exact ih fun q hq ↦ h q (List.mem_cons_of_mem p hq)

/-- The names that `serve_websocket` looks for. -/
def upgradeNames : List String :=
  ["connection", "upgrade", "sec-websocket-version", "sec-websocket-key"]

/-- The upgrade headers pass the checks behind any headers of other names. -/
theorem isUpgrade_textHeaders {hs : List (String × Bytes)}
    (h : ∀ p ∈ hs, ∀ n ∈ upgradeNames, eqIgnoreAsciiCase p.1 n = false) :
    isUpgrade (hs ++ textHeaders upgradeHeaders) = true := by
  have hskip : ∀ n ∈ upgradeNames, getHeaderText (hs ++ textHeaders upgradeHeaders) n =
      getHeaderText (textHeaders upgradeHeaders) n := by
    intro n hn
    rw [getHeaderText, getHeader_append_of_ne fun p hp ↦ h p hp n hn]
    rfl
  have halone : isUpgrade (textHeaders upgradeHeaders) = true := by decide +kernel
  rw [isUpgrade, hskip _ (by decide), hskip _ (by decide), hskip _ (by decide),
    hskip _ (by decide)]
  exact halone

end Cpxy.Http
