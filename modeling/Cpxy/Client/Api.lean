import Cpxy.Client.Controller
import Cpxy.Client.ConfigFile
import Cpxy.Http.Path
import Cpxy.Http.Response
import Cpxy.Net.SocketAddr

/-!
# The controller's interface

Library `Client`. Source `src/controller.rs:25–94` and `203–369`, and `src/http.rs:223–234`. A
connection brings one request and gets one response. `serde`, the files of the web page, the
names of their types, and the engines of the two rule lists are outside; they are parameters.
-/

namespace Cpxy.Client

open Cpxy.Base Cpxy.Http Cpxy.Io Cpxy.Net

/-! ### What is answered -/

/-- `Response`; `controller.rs:25–35`. -/
inductive Response where
  | empty
  | regular (data : Bytes) (mimeType : String)
  | embedFile (path : String) (file : Bytes)

/-- `ErrorResponse`; `controller.rs:76–80`. -/
inductive ErrorResponse where
  | generic (e : ErrorChain)
  | notFound (s : String)
  | invalidRequest (e : ErrorChain)

/-- `RuleResult`; `controller.rs:90–94`. -/
structure RuleResult (D : Type) where
  numRules : Option Nat
  lastUpdated : Option D

/-- The values that are serialised. -/
inductive Payload (P S D : Type) where
  | config (c : ClientConfig P S)
  | stats (s : ClientStatistics)
  | rules (r : RuleResult D)
  | unit

/-- The two formats. -/
inductive Format where
  | json
  | yaml
  deriving DecidableEq, Repr

/-- What a format is called in a response. -/
def Format.mimeType : Format → String
  | json => "application/json"
  | yaml => "text/yaml"

/-- What a failure to serialise is called. -/
def Format.failure : Format → String
  | json => "Serialising JSON"
  | yaml => "Serialising YAML"

/-- The two lists of rules. -/
inductive RuleList where
  | gfwList
  | adblockList
  deriving DecidableEq, Repr

/-- `serde_json` and `serde_yaml`, on what is written and what is read. -/
structure Serde (P S D : Type) where
  write : Format → Payload P S D → Except ErrorChain Bytes
  config : Format → Bytes → Except ErrorChain (ClientConfig P S)
  updates : Format → Bytes → Except ErrorChain (List (UpstreamUpdate P))
  names : Format → Bytes → Except ErrorChain (List String)

/-- The parts that are outside, the same for every connection; `debug` is the `{:?}` of a text. -/
structure Outside (P S D : Type) where
  httparse : Httparse
  parseChunkSize : ParseChunkSize
  decode : UrlDecode
  serde : Serde P S D
  asset : String → Option Bytes
  mimeGuess : String → Option String
  socks5Address : S → SocketAddr
  debug : Option String → String

/-- What one connection meets with: uninitialised buffers, the file system, and the engines of
the rule lists, before and after an update. -/
structure Meeting (D : Type) where
  mem : Bytes
  mem8 : Bytes
  fs : FileSystem
  lastUpdated : RuleList → Except ErrorChain (Option D)
  update : RuleList → SocketAddr → Except ErrorChain Nat
  thenUpdated : RuleList → Except ErrorChain (Option D)
  length_mem : mem.length = 512
  length_mem8 : mem8.length = 8

/-- The controller as its interface uses it: what it has, and its operations. -/
structure Backend (σ P S : Type) where
  current : σ → Controller P S
  operate : Operation P S → FileSystem → σ → Except ErrorChain Unit × σ

variable {σ P S D : Type}

/-! ### One request -/

/-- The format that `mapper` writes for a media type; `controller.rs:42–49`. -/
def writtenFormat (mimeType : String) : Option Format :=
  if eqIgnoreAsciiCase mimeType "application/json" || eqIgnoreAsciiCase mimeType "*/*" then
    some .json
  else if eqIgnoreAsciiCase mimeType "text/yaml" then some .yaml
  else none

/-- `mapper`; `controller.rs:38–73`. -/
def mapper (serde : Serde P S D) (mimeType : String) (data : Payload P S D) :
    Outcome ErrorResponse Response :=
  match writtenFormat mimeType with
  | some format =>
    match serde.write format data with
    | .ok data => .ok (.regular data format.mimeType)
    | .error e => .err (.generic (format.failure :: e))
  | none => .err (.generic [s!"Invalid mimetype: {mimeType}"])

/-- The format that a body is read in; `http.rs:225–229`. -/
def readFormat (contentType : String) : Option Format :=
  let lower := contentType.toList.map asciiLower
  if "application/json".toList <+: lower then some .json
  else if "text/yaml".toList <+: lower then some .yaml
  else none

/-- `body_json_or_yaml`, with what `body` returns when it is called; `http.rs:223–234`. -/
def bodyJsonOrYaml {α : Type} (debug : Option String → String)
    (read : Format → Bytes → Except ErrorChain α) (req : HttpRequest)
    (body : Outcome ErrorChain Bytes) : Outcome ErrorChain α :=
  let contentType := getHeaderText req.headers "content-type"
  match contentType.bind readFormat with
  | some format => do
    let data ← body
    match read format data with
    | .ok a => .ok a
    | .error e => .err e
  | none => .err [s!"Invalid content type: {debug contentType}"]

/-- The media type of the response; `controller.rs:208–214`. -/
def responseType (req : HttpRequest) : String :=
  let name := if eqIgnoreAsciiCase req.method "get" then "Accept" else "Content-Type"
  (getHeaderText req.headers name).getD "application/json"

/-- A request for an operation, once its body is read; `controller.rs:221–227`. -/
def change (outside : Outside P S D) (backend : Backend σ P S) (fs : FileSystem)
    (mimeType : String) (t : σ) :
    Outcome ErrorChain (Operation P S) → Outcome ErrorResponse Response × σ
  | .ok op =>
    match backend.operate op fs t with
    | (.ok (), t) => (mapper outside.serde mimeType .unit, t)
    | (.error e, t) => (.err (.generic e), t)
  | .err e => (.err (.generic e), t)
  | .panicked => (.panicked, t)

/-- A request about a list of rules; `controller.rs:229–258`. -/
def ruleList (outside : Outside P S D) (m : Meeting D) (socks5Address : SocketAddr)
    (method mimeType : String) (list : RuleList) : Outcome ErrorResponse Response :=
  if method = "GET" then
    match m.lastUpdated list with
    | .ok lastUpdated => mapper outside.serde mimeType (.rules ⟨none, lastUpdated⟩)
    | .error e => .err (.generic e)
  else if method = "POST" then
    match m.update list socks5Address with
    | .ok numRules =>
      match m.thenUpdated list with
      | .ok lastUpdated => mapper outside.serde mimeType (.rules ⟨some numRules, lastUpdated⟩)
      | .error e => .err (.generic e)
    | .error e => .err (.generic e)
  else .err (.invalidRequest [s!"Unknown method {method}"])

/-- The text without its first byte; the index panics when no character begins behind it. -/
def skipByte (s : String) : Outcome ErrorResponse String :=
  match s.toList with
  | c :: rest => if c.utf8Size = 1 then .ok (String.ofList rest) else .panicked
  | [] => .panicked

/-- A request for a file; `controller.rs:260–274`. -/
def embedded (outside : Outside P S D) (originalP : String) : Outcome ErrorResponse Response := do
  let p ← if originalP = "/" ∨ originalP = "" then .ok "index.html" else skipByte originalP
  match outside.asset p with
  | some file => .ok (.embedFile p file)
  | none => .err (.notFound originalP)

/-- The match of `dispatch`; `controller.rs:206–287`. -/
def route (outside : Outside P S D) (backend : Backend σ P S) (m : Meeting D) (t : σ)
    (req : HttpRequest) (body : Outcome ErrorChain Bytes) :
    Outcome ErrorResponse Response × σ :=
  match HttpPath.fromStr outside.decode req.path with
  | .error e => (.err (.generic e), t)
  | .ok path =>
    let mimeType := responseType req
    let current := backend.current t
    let socks5Address := outside.socks5Address current.config.settings
    if req.method = "OPTIONS" then (.ok .empty, t)
    else if req.method = "GET" ∧ path.path = "/api/config" then
      (mapper outside.serde mimeType (.config current.config), t)
    else if req.method = "POST" ∧ path.path = "/api/config" then
      change outside backend m.fs mimeType t <| do
        let c ← bodyJsonOrYaml outside.debug outside.serde.config req body
        .ok (.setConfig c (path.getQuery "replace" = some "all"))
    else if req.method = "GET" ∧ path.path = "/api/stats" then
      (mapper outside.serde mimeType (.stats current.stats), t)
    else if path.path = "/api/gfwlist" then
      (ruleList outside m socks5Address req.method mimeType .gfwList, t)
    else if path.path = "/api/adblocklist" then
      (ruleList outside m socks5Address req.method mimeType .adblockList, t)
    else if req.method = "GET" then (embedded outside path.path, t)
    else if req.method = "POST" ∧ path.path = "/api/upstream" then
      change outside backend m.fs mimeType t <| do
        let updates ← bodyJsonOrYaml outside.debug outside.serde.updates req body
        .ok (.updateUpstreams updates)
    else if req.method = "DELETE" ∧ path.path = "/api/upstream" then
      change outside backend m.fs mimeType t <| do
        let names ← bodyJsonOrYaml outside.debug outside.serde.names req body
        .ok (.deleteUpstreams names)
    else (.err (.notFound path.path), t)

/-- `dispatch`; `controller.rs:203–291`. -/
def dispatch (outside : Outside P S D) (backend : Backend σ P S) (m : Meeting D) (t : σ)
    (cs : List Chunk) : Outcome ErrorResponse Response × σ :=
  match parseRequest outside.httparse (.new m.mem) cs with
  | .ok r =>
    route outside backend m t r.init do
      let (data, _) ← body outside.parseChunkSize m.mem8 r
      .ok data
  | .err e => (.err (.invalidRequest e), t)
  | .panicked => (.panicked, t)

/-- What `handle_client` writes; `controller.rs:300–326`. -/
def written (outside : Outside P S D) :
    Outcome ErrorResponse Response → Outcome ErrorChain Bytes
  | .ok .empty => .ok (writeHttpResponse 201 (some "OK") none [])
  | .ok (.regular data mimeType) => .ok (writeHttpResponse 200 (some "OK") (some mimeType) data)
  | .ok (.embedFile path file) =>
    .ok (writeHttpResponse 200 (some "OK") (outside.mimeGuess path) file)
  | .err (.generic e) =>
    .ok (writeHttpResponse 500 none (some "text/plain") (asBytes (e.headD "")))
  | .err (.invalidRequest e) =>
    .ok (writeHttpResponse 400 none (some "text/plain") (asBytes (e.headD "")))
  | .err (.notFound s) =>
    .ok (writeHttpResponse 404 none (some "text/plain") (asBytes s!"Resource {s} not found"))
  | .panicked => .panicked

/-- `handle_client`, with a client that takes what is written; `controller.rs:293–328`. -/
def handleClient (outside : Outside P S D) (backend : Backend σ P S) (m : Meeting D) (t : σ)
    (cs : List Chunk) : Outcome ErrorChain Bytes × σ :=
  let result := dispatch outside backend m t cs
  (written outside result.1, result.2)

/-! ### What a request asks for -/

/-- The operation that a request with this body asks for. -/
def asked (outside : Outside P S D) (req : HttpRequest) (path : HttpPath) (body : Bytes) :
    Option (Operation P S) :=
  let read {α : Type} (read : Format → Bytes → Except ErrorChain α) : Option α :=
    ((getHeaderText req.headers "content-type").bind readFormat).bind fun format ↦
      (read format body).toOption
  if req.method = "POST" ∧ path.path = "/api/config" then
    (read outside.serde.config).map (.setConfig · (path.getQuery "replace" = some "all"))
  else if req.method = "POST" ∧ path.path = "/api/upstream" then
    (read outside.serde.updates).map .updateUpstreams
  else if req.method = "DELETE" ∧ path.path = "/api/upstream" then
    (read outside.serde.names).map .deleteUpstreams
  else none

section Requests

variable {outside : Outside P S D} {backend : Backend σ P S} {m : Meeting D} {t : σ}
  {req : HttpRequest} {path : HttpPath} {data : Bytes}

/-- A body that is read in the format that its type names. -/
theorem bodyJsonOrYaml_of_read {α : Type} {read : Format → Bytes → Except ErrorChain α} {a : α}
    (h : ((getHeaderText req.headers "content-type").bind readFormat).bind
      (fun format ↦ (read format data).toOption) = some a) (debug : Option String → String) :
    bodyJsonOrYaml debug read req (.ok data) = .ok a := by
  obtain ⟨format, hformat, hread⟩ := Option.bind_eq_some_iff.mp h
  rw [bodyJsonOrYaml, hformat]
  dsimp only
  rw [Outcome.ok_bind]
  cases hres : read format data with
  | error e =>
    rw [hres] at hread
    cases hread
  | ok a' =>
    rw [hres] at hread
    cases hread
    rfl

/-- A request that asks for an operation is routed to it. -/
theorem route_of_asked {op : Operation P S}
    (hpath : HttpPath.fromStr outside.decode req.path = .ok path)
    (h : asked outside req path data = some op) :
    route outside backend m t req (.ok data) =
      change outside backend m.fs (responseType req) t (.ok op) := by
  have hpost : "POST" ≠ "OPTIONS" ∧ "POST" ≠ "GET" := by decide
  have hdelete : "DELETE" ≠ "OPTIONS" ∧ "DELETE" ≠ "GET" ∧ "DELETE" ≠ "POST" := by decide
  have hupstream : "/api/upstream" ≠ "/api/config" ∧ "/api/upstream" ≠ "/api/gfwlist" ∧
      "/api/upstream" ≠ "/api/adblocklist" := by decide
  rw [asked] at h
  rw [route, hpath]
  dsimp only at h ⊢
  split at h
  · next hconfig =>
    obtain ⟨c, hread, rfl⟩ := Option.map_eq_some_iff.mp h
    rw [hconfig.1, hconfig.2, if_neg hpost.1, if_neg fun hget ↦ hpost.2 hget.1,
      if_pos ⟨rfl, rfl⟩, bodyJsonOrYaml_of_read hread, Outcome.ok_bind]
  · split at h
    · next hup =>
      obtain ⟨updates, hread, rfl⟩ := Option.map_eq_some_iff.mp h
      rw [hup.1, hup.2, if_neg hpost.1, if_neg fun hget ↦ hpost.2 hget.1,
        if_neg fun hconfig ↦ hupstream.1 hconfig.2, if_neg fun hget ↦ hpost.2 hget.1,
        if_neg hupstream.2.1, if_neg hupstream.2.2, if_neg hpost.2, if_pos ⟨rfl, rfl⟩,
        bodyJsonOrYaml_of_read hread, Outcome.ok_bind]
    · split at h
      · next hdel =>
        obtain ⟨names, hread, rfl⟩ := Option.map_eq_some_iff.mp h
        rw [hdel.1, hdel.2, if_neg hdelete.1, if_neg fun hget ↦ hdelete.2.1 hget.1,
          if_neg fun hconfig ↦ hupstream.1 hconfig.2, if_neg fun hget ↦ hdelete.2.1 hget.1,
          if_neg hupstream.2.1, if_neg hupstream.2.2, if_neg hdelete.2.1,
          if_neg fun hpost ↦ hdelete.2.2 hpost.1, if_pos ⟨rfl, rfl⟩, bodyJsonOrYaml_of_read hread,
          Outcome.ok_bind]
      · cases h

theorem change_saved {op : Operation P S} {fs : FileSystem} (mimeType : String)
    (h : (backend.operate op fs t).1 = .ok ()) :
    change outside backend fs mimeType t (.ok op) =
      (mapper outside.serde mimeType .unit, (backend.operate op fs t).2) := by
  rw [change]
  split
  · next heq => rw [heq]
  · next heq =>
    rw [heq] at h
    cases h

theorem change_failed {op : Operation P S} {fs : FileSystem} {e : ErrorChain} (mimeType : String)
    (h : (backend.operate op fs t).1 = .error e) :
    change outside backend fs mimeType t (.ok op) =
      (.err (.generic e), (backend.operate op fs t).2) := by
  rw [change]
  split
  · next heq =>
    rw [heq] at h
    cases h
  · next heq =>
    rw [heq] at h
    cases h
    rw [heq]

/-- The state after a request is the one before, or that of one operation. -/
def Operated (backend : Backend σ P S) (fs : FileSystem) (t t' : σ) : Prop :=
  t' = t ∨ ∃ op, t' = (backend.operate op fs t).2

theorem operated_change (mimeType : String) (op : Outcome ErrorChain (Operation P S)) :
    Operated backend m.fs t (change outside backend m.fs mimeType t op).2 := by
  cases op with
  | ok op =>
    right
    refine ⟨op, ?_⟩
    rw [change]
    split <;> next heq => rw [heq]
  | err e => exact .inl rfl
  | panicked => exact .inl rfl

theorem Operated.ite {ρ : Type} {fs : FileSystem} {p : Prop} [Decidable p] {a b : ρ × σ}
    (ha : Operated backend fs t a.2) (hb : Operated backend fs t b.2) :
    Operated backend fs t (if p then a else b).2 := by
  by_cases hp : p
  · rwa [if_pos hp]
  · rwa [if_neg hp]

theorem operated_route (body : Outcome ErrorChain Bytes) :
    Operated backend m.fs t (route outside backend m t req body).2 := by
  have hsame : Operated backend m.fs t t := .inl rfl
  rw [route]
  cases HttpPath.fromStr outside.decode req.path with
  | error e => exact hsame
  | ok path =>
    -- the operations stand behind the third, the eighth and the ninth condition
    refine .ite hsame (.ite hsame (.ite (operated_change _ _) ?_))
    refine .ite hsame (.ite hsame (.ite hsame (.ite hsame ?_)))
    exact .ite (operated_change _ _) (.ite (operated_change _ _) hsame)

/-- Whatever a connection brings, it comes to one operation at most. -/
theorem operated_handleClient (outside : Outside P S D) (backend : Backend σ P S) (m : Meeting D)
    (t : σ) (cs : List Chunk) :
    Operated backend m.fs t (handleClient outside backend m t cs).2 := by
  rw [handleClient, dispatch]
  dsimp only
  split
  · exact operated_route _
  · exact .inl rfl
  · exact .inl rfl

/-- A request that is read whole is routed with its body, however it arrives. -/
theorem handleClient_eq {head later : Bytes} {parsed : ParsedHead}
    (hp : Stable outside.httparse) (hhead : outside.httparse head = .ok (some (head.length, parsed)))
    (hne : head ≠ []) (hframed : Framed parsed.headers data) {cs : List Chunk}
    (hcs : content cs = head ++ (data ++ later)) :
    let req : HttpRequest := ⟨parsed.headers, parsed.method.getD "", parsed.path.getD ""⟩
    handleClient outside backend m t cs =
      (written outside (route outside backend m t req (.ok data)).1,
        (route outside backend m t req (.ok data)).2) := by
  intro req
  have hmem := m.length_mem
  obtain ⟨s, hparse, hinit, hunread, hkept⟩ :=
    parseHead_spec ["Unexpected EOF"] (requestHead_readsWord (hp.readsWord hhead)) hne
      (b := RWBuffer.new m.mem) (RWBuffer.readBuf_new m.mem)
      (hmem ▸ (by decide : 2 ≤ 512)) hcs
  have hs : Framed (WithHeaders.headers s.init) data := by
    rw [hinit]
    exact hframed
  obtain ⟨s', hbody, _⟩ := hs.body_eq hkept hunread outside.parseChunkSize m.mem8
  rw [handleClient, dispatch, parseRequest, hparse]
  dsimp only
  rw [hbody, Outcome.ok_bind, hinit]

theorem written_mapper {format : Format} {reply : Bytes} {mimeType : String}
    {payload : Payload P S D} (hformat : writtenFormat mimeType = some format)
    (hreply : outside.serde.write format payload = .ok reply) :
    written outside (mapper outside.serde mimeType payload) =
      .ok (writeHttpResponse 200 (some "OK") (some format.mimeType) reply) := by
  rw [mapper, hformat]
  dsimp only
  rw [hreply]
  rfl

/-- Every connection is answered with one response, unless the controller panics. -/
theorem handleClient_answers (outside : Outside P S D) (backend : Backend σ P S) (m : Meeting D)
    (t : σ) (cs : List Chunk) :
    (handleClient outside backend m t cs).1 = .panicked ∨
      ∃ code ∈ [200, 201, 400, 404, 500], ∃ statusMsg contentType body,
        (handleClient outside backend m t cs).1 =
          .ok (writeHttpResponse code statusMsg contentType body) := by
  rw [handleClient]
  dsimp only
  cases (dispatch outside backend m t cs).1 with
  | ok response =>
    right
    cases response with
    | empty => exact ⟨201, by decide, _, _, _, rfl⟩
    | regular data mimeType => exact ⟨200, by decide, _, _, _, rfl⟩
    | embedFile path file => exact ⟨200, by decide, _, _, _, rfl⟩
  | err e =>
    right
    cases e with
    | generic e => exact ⟨500, by decide, _, _, _, rfl⟩
    | notFound s => exact ⟨404, by decide, _, _, _, rfl⟩
    | invalidRequest e => exact ⟨400, by decide, _, _, _, rfl⟩
  | panicked => exact .inl rfl

end Requests

end Cpxy.Client
