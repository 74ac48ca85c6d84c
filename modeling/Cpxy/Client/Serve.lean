import Cpxy.Handshake.Start

/-!
# Serving a client

Library `Client`. Source `src/client/handler.rs:123–147`, `src/client/tcp.rs:16–38`,
`src/client/http.rs:12–74` and `src/client/common.rs:13–56`. After the handshake an upstream
is chosen and the client's stream is copied to it. The handshake's buffer ends with
`serve_proxy_conn`: what it still holds is not among the bytes that are copied.
-/

namespace Cpxy.Client

open Cpxy.Base Cpxy.Http Cpxy.Io Cpxy.Handshake

/-- The upstream that was chosen: the data its stream was opened with, and what was written
to the stream since. -/
structure Upstream where
  initialData : Option Bytes
  written : Bytes
  deriving DecidableEq, Repr

/-- All bytes the upstream was given. -/
def Upstream.delivered (u : Upstream) : Bytes := u.initialData.getD [] ++ u.written

/-- The errors of a connection: of its handshake, in the context `Handshaking`, or any other. -/
inductive ServeError where
  | handshaking (e : HandshakeError)
  | chain (e : ErrorChain)
  deriving DecidableEq, Repr

/-- What became of a connection: the bytes written to the client, the upstream, the result. -/
structure Served where
  replied : Bytes
  upstream : Option Upstream
  outcome : Outcome ServeError Unit

/-- What lies outside: the upstreams that fit a destination, in the order in which they are
tried, with what comes of it, the TLS handshake, and what becomes of a UDP association. -/
structure Network where
  upstreams : Outcome ErrorChain (List (Except ErrorChain Unit))
  tls : Except ErrorChain Unit
  udp : Served

/-- The loop of `find_and_connect_stream`; `common.rs:21–55`. -/
def connectFirst (initialData : Option Bytes) :
    List (Except ErrorChain Unit) → Option ErrorChain → Outcome ErrorChain Upstream
  | [], lastError => .err (lastError.getD ["No upstream available"])
  | .ok () :: _, _ => .ok ⟨initialData, []⟩
  | .error e :: rest, _ => connectFirst initialData rest (some e)

/-- `find_and_connect_stream`; `common.rs:13–56`. -/
def findAndConnectStream (net : Network) (initialData : Option Bytes) :
    Outcome ErrorChain Upstream := do
  let upstreams ← net.upstreams
  connectFirst initialData upstreams none

/-- `find_and_connect_tls`; `http.rs:61–74`. -/
def findAndConnectTls (net : Network) : Outcome ErrorChain Upstream := do
  let upstream ← (findAndConnectStream net none).context "Connecting to upstream"
  match net.tls with
  | .ok () => .ok upstream
  | .error e => .err ("Connecting to TLS stream" :: e)

/-- The half of `copy_duplex` that serves the client: all that is still to be read of its
stream is written to the upstream; `utils.rs:42–49`. -/
def copyToUpstream (u : Upstream) (cs : List Chunk) : Upstream :=
  { u with written := u.written ++ content cs }

/-- How both kinds of streams go on from the connection: answer the client, and copy;
`tcp.rs:27–37`, `http.rs:29–38` and `48–57`. -/
def respondAndCopy (type : HandshakeType) (cs : List Chunk)
    (connected : Outcome ErrorChain Upstream) : Served :=
  match connected with
  | .panicked => ⟨[], none, .panicked⟩
  | .ok upstream =>
    match respondOk type none with
    | .ok reply => ⟨reply, some (copyToUpstream upstream cs), .ok ()⟩
    | .err e => ⟨[], some upstream, .err (.chain e)⟩
    | .panicked => ⟨[], some upstream, .panicked⟩
  | .err e =>
    match respondErr type with
    | .ok reply => ⟨reply, none, .err (.chain e)⟩
    | .err e => ⟨[], none, .err (.chain e)⟩
    | .panicked => ⟨[], none, .panicked⟩

/-- `serve_tcp_proxy_conn`; `tcp.rs:16–38`. -/
def serveTcpProxyConn (net : Network) (dst : Net.Address) (type : HandshakeType)
    (cs : List Chunk) : Served :=
  respondAndCopy type cs
    ((findAndConnectStream net none).context s!"Finding proxy for tcp://{dst.display}")

/-- `serve_http_proxy_conn`; `http.rs:12–59`. -/
def serveHttpProxyConn (net : Network) (https : Bool) (req : HttpRequest) (type : HandshakeType)
    (cs : List Chunk) : Served :=
  if https then
    respondAndCopy type cs do
      let upstream ← findAndConnectTls net
      .ok { upstream with written := upstream.written ++ req.toBuilder.finalise }
  else respondAndCopy type cs (findAndConnectStream net (some req.toBuilder.finalise))

/-- `serve_proxy_conn` for a connection that was not redirected; `handler.rs:133–146`. Only
the stream goes on to the rest, the buffer does not. -/
def serveProxyConn (httparse : Httparse) (mem : Bytes) (net : Network) (cs : List Chunk) :
    Served :=
  let started := start httparse (.new mem) cs
  match started.outcome with
  | .err e => ⟨started.written, none, .err (.handshaking e)⟩
  | .panicked => ⟨started.written, none, .panicked⟩
  | .ok (type, req, _, cs) =>
    let served :=
      match req with
      | .tcp dst => serveTcpProxyConn net dst type cs
      | .http _ https req => serveHttpProxyConn net https req type cs
      | .udp _ => net.udp
    { served with replied := started.written ++ served.replied }

/-! ### What the upstream is to receive -/

/-- What goes ahead of the client's bytes: nothing for a TCP request, the head for HTTP. -/
def ahead : HandshakeRequest → Option Bytes
  | .tcp _ => some []
  | .http _ _ req => some req.toBuilder.finalise
  | .udp _ => none

/-- A read ends with the `n`-th byte of the stream. -/
def ReadEndsAt (n : Nat) (reads : List Chunk) : Prop := ∃ k, (content (reads.take k)).length = n

/-- Where the handshake stops reading, a piece of the stream ends: its last read was not cut
short by the room in the buffer. -/
def WholeReads (httparse : Httparse) (mem : Bytes) (cs : List Chunk) : Prop :=
  ∃ type req b k, (start httparse (.new mem) cs).outcome = .ok (type, req, b, cs.drop k)

theorem connectFirst_eq {d : Option Bytes} {us : List (Except ErrorChain Unit)}
    {last : Option ErrorChain} {u : Upstream} (h : connectFirst d us last = .ok u) :
    u = ⟨d, []⟩ := by
  induction us generalizing last with
  | nil => cases h
  | cons a us ih =>
    cases a with
    | ok _ =>
      cases h
      rfl
    | error e => exact ih h

/-- Whichever upstream is found, its stream was opened with the data, and is fresh. -/
theorem findAndConnectStream_eq {net : Network} {d : Option Bytes} {u : Upstream}
    (h : findAndConnectStream net d = .ok u) : u = ⟨d, []⟩ := by
  obtain ⟨us, _, hu⟩ := Outcome.bind_eq_ok_iff.mp h
  exact connectFirst_eq hu

theorem findAndConnectTls_eq {net : Network} {u : Upstream} (h : findAndConnectTls net = .ok u) :
    u = ⟨none, []⟩ := by
  obtain ⟨u₀, hu₀, hu⟩ := Outcome.bind_eq_ok_iff.mp h
  rw [Outcome.context_eq_ok] at hu₀
  split at hu <;> cases hu
  exact findAndConnectStream_eq hu₀

/-- An upstream that was chosen is given the rest of the stream. -/
theorem respondAndCopy_upstream {type : HandshakeType} {cs : List Chunk}
    {connected : Outcome ErrorChain Upstream} {u : Upstream}
    (h : (respondAndCopy type cs connected).upstream = some u) :
    ∃ u₀, connected = .ok u₀ ∧ u = copyToUpstream u₀ cs := by
  cases connected with
  | panicked => cases h
  | err e =>
    unfold respondAndCopy at h
    dsimp only at h
    split at h <;> cases h
  | ok u₀ =>
    refine ⟨u₀, rfl, ?_⟩
    cases type <;> exact (Option.some.inj h).symm

/-- A request's upstream receives what goes ahead, and then what the handshake left unread. -/
theorem serve_delivered {httparse : Httparse} {mem : Bytes} {net : Network}
    {cs rest : List Chunk} {type : HandshakeType} {req : HandshakeRequest} {b : RWBuffer}
    {u : Upstream} {pre : Bytes}
    (hs : (start httparse (.new mem) cs).outcome = .ok (type, req, b, rest))
    (hpre : ahead req = some pre)
    (hu : (serveProxyConn httparse mem net cs).upstream = some u) :
    u.delivered = pre ++ content rest := by
  rw [serveProxyConn] at hu
  dsimp only at hu
  rw [hs] at hu
  dsimp only at hu
  cases req with
  | udp dst => cases hpre
  | tcp dst =>
    cases hpre
    obtain ⟨u₀, hc, rfl⟩ := respondAndCopy_upstream hu
    rw [Outcome.context_eq_ok] at hc
    rw [findAndConnectStream_eq hc]
    rfl
  | http dst https r =>
    cases hpre
    cases https with
    | true =>
      obtain ⟨u₀, hc, rfl⟩ := respondAndCopy_upstream hu
      obtain ⟨u₁, hu₁, hend⟩ := Outcome.bind_eq_ok_iff.mp hc
      cases hend
      rw [findAndConnectTls_eq hu₁]
      rfl
    | false =>
      obtain ⟨u₀, hc, rfl⟩ := respondAndCopy_upstream hu
      rw [findAndConnectStream_eq hc]
      rfl

/-- The handshake stops at a read that ends with its last byte. -/
theorem start_stops {httparse : Httparse} (hp : HeadParser httparse)
    (he : Exact (HttpRequest.parse httparse)) {mem : Bytes} (hmem : 2 ≤ mem.length)
    {cs : List Chunk} {n k : Nat} {type : HandshakeType} {req : HandshakeRequest}
    (ha : (answer httparse (content cs)).2 = some (n, type, req))
    (hk : (content (cs.take k)).length = n) :
    ∃ b, (start httparse (.new mem) cs).outcome = .ok (type, req, b, cs.drop k) := by
  have hcs : content (cs.take k) ++ content (cs.drop k) = content cs := by
    rw [← content_append, List.take_append_drop]
  have htake : (content cs).take n = content (cs.take k) := by
    rw [← hcs, List.take_left' hk]
  have hat := answer_take hp he ha
  rw [htake] at hat
  have hspec := (start_spec hp mem (cs.take k) hmem).2
  rw [hat] at hspec
  obtain ⟨b, rest, hok, read, hread, hn, _⟩ := hspec
  have hlen := congrArg List.length hread
  rw [List.length_append, hk] at hlen
  have hrest : rest = [] := content_eq_nil (List.eq_nil_of_length_eq_zero (by omega))
  subst hrest
  have happ := (start_paced httparse (.new mem)).append (a := (type, req, b)) hok (cs.drop k)
  rw [List.take_append_drop] at happ
  exact ⟨b, happ⟩

/-- A connection goes as it would if the pieces of the stream were the reads of its handshake. -/
theorem serveProxyConn_reads {httparse : Httparse} (hp : HeadParser httparse) {mem : Bytes}
    (hmem : 2 ≤ mem.length) (net : Network) {cs rest : List Chunk} {type : HandshakeType}
    {req : HandshakeRequest} {b : RWBuffer}
    (hs : (start httparse (.new mem) cs).outcome = .ok (type, req, b, rest)) :
    ∃ reads, content reads = content cs ∧ WholeReads httparse mem reads ∧
      serveProxyConn httparse mem net reads = serveProxyConn httparse mem net cs := by
  obtain ⟨seen, hseen, hs'⟩ := (start_paced httparse (.new mem)).reads (a := (type, req, b)) hs
  have hwritten : (start httparse (.new mem) (seen ++ rest)).written =
      (start httparse (.new mem) cs).written := by
    rw [(start_spec hp mem _ hmem).1, (start_spec hp mem _ hmem).1, hseen]
  refine ⟨seen ++ rest, hseen, ⟨type, req, b, seen.length, ?_⟩, ?_⟩
  · rw [List.drop_left]
    exact hs'
  · simp only [serveProxyConn, hs, hs', hwritten]

/-- With whole reads, nothing is lost exactly when one of them ends with the handshake. -/
theorem WholeReads.forwards_iff {httparse : Httparse} {mem : Bytes} {cs : List Chunk}
    (hw : WholeReads httparse mem cs) (hp : HeadParser httparse)
    (he : Exact (HttpRequest.parse httparse)) (hmem : 2 ≤ mem.length) {net : Network} {n : Nat}
    {type : HandshakeType} {req : HandshakeRequest} {u : Upstream} {pre : Bytes}
    (ha : (answer httparse (content cs)).2 = some (n, type, req)) (hpre : ahead req = some pre)
    (hu : (serveProxyConn httparse mem net cs).upstream = some u) :
    u.delivered = pre ++ (content cs).drop n ↔ ReadEndsAt n cs := by
  obtain ⟨type', req', b, k, hs⟩ := hw
  have hcs : content (cs.take k) ++ content (cs.drop k) = content cs := by
    rw [← content_append, List.take_append_drop]
  have hspec := (start_spec hp mem cs hmem).2
  rw [ha] at hspec
  obtain ⟨b', rest, hok, read, hread, hn, _⟩ := hspec
  rw [hs] at hok
  cases hok
  rw [← hcs, List.append_cancel_right_eq] at hread
  subst hread
  rw [serve_delivered hs hpre hu, List.append_cancel_left_eq]
  constructor
  · intro h
    have hlen := congrArg List.length h
    rw [List.length_drop, ← hcs, List.length_append] at hlen
    exact ⟨k, by omega⟩
  · rintro ⟨k', hk'⟩
    obtain ⟨b', hstop⟩ := start_stops hp he hmem ha hk'
    rw [hs] at hstop
    have hrest : cs.drop k = cs.drop k' := by
      injection hstop with hstop
      injection hstop with _ hstop
      injection hstop with _ hstop
      injection hstop
    have hcs' : content (cs.take k') ++ content (cs.drop k') = content cs := by
      rw [← content_append, List.take_append_drop]
    rw [← hcs', List.drop_left' hk', hrest]

/-- The upstream receives every byte behind the handshake exactly when one of the reads ends
with the handshake's last byte. The reads are the pieces of the stream, unless the buffer of
the handshake has cut one where the handshake stops. -/
theorem serve_forwards_iff {httparse : Httparse} (hp : HeadParser httparse)
    (he : Exact (HttpRequest.parse httparse)) {mem : Bytes} (hmem : 512 ≤ mem.length)
    {net : Network} {cs : List Chunk} {n : Nat} {type : HandshakeType} {req : HandshakeRequest}
    {u : Upstream} {pre : Bytes} (ha : (answer httparse (content cs)).2 = some (n, type, req))
    (hpre : ahead req = some pre)
    (hu : (serveProxyConn httparse mem net cs).upstream = some u) :
    ∃ reads, content reads = content cs ∧ WholeReads httparse mem reads ∧
      (WholeReads httparse mem cs → reads = cs) ∧
      serveProxyConn httparse mem net reads = serveProxyConn httparse mem net cs ∧
      (u.delivered = pre ++ (content cs).drop n ↔ ReadEndsAt n reads) := by
  have hmem2 : 2 ≤ mem.length := by omega
  by_cases hw : WholeReads httparse mem cs
  · exact ⟨cs, rfl, hw, fun _ ↦ rfl, rfl, hw.forwards_iff hp he hmem2 ha hpre hu⟩
  · have hspec := (start_spec hp mem cs hmem2).2
    rw [ha] at hspec
    obtain ⟨b, rest, hs, _⟩ := hspec
    obtain ⟨reads, hreads, hwhole, hsame⟩ := serveProxyConn_reads hp hmem2 net hs
    refine ⟨reads, hreads, hwhole, fun h ↦ absurd h hw, hsame, ?_⟩
    rw [← hreads] at ha ⊢
    rw [← hsame] at hu
    exact hwhole.forwards_iff hp he hmem2 ha hpre hu

/-! A SOCKS4 client that asks for 1.2.3.4 and sends a byte of payload. -/

private def socks4Request : Chunk := ⟨[4, 1, 0, 80, 1, 2, 3, 4, 0], by decide⟩

private def payload : Chunk := ⟨[65], by decide⟩

private def together : Chunk := ⟨socks4Request.val ++ payload.val, by decide⟩

private def oneUpstream : Network := ⟨.ok [.ok ()], .ok (), ⟨[], none, .ok ()⟩⟩

private def getOnly : Httparse :=
  onlyHead (71 :: asBytes "ET http://a/ HTTP/1.1\r\n\r\n") ⟨some "GET", some "http://a/", []⟩

private def memory : Bytes := List.replicate 512 0

private theorem length_memory : memory.length = 512 := List.length_replicate

/-- When the payload comes in a read of its own, it is forwarded. -/
theorem serve_forwards_separate :
    ∃ u, (serveProxyConn getOnly memory oneUpstream [socks4Request, payload]).upstream = some u ∧
      ∃ reads, content reads = content [socks4Request, payload] ∧
        WholeReads getOnly memory reads ∧
        (WholeReads getOnly memory [socks4Request, payload] → reads = [socks4Request, payload]) ∧
        serveProxyConn getOnly memory oneUpstream reads =
          serveProxyConn getOnly memory oneUpstream [socks4Request, payload] ∧
        (u.delivered = [] ++ (content [socks4Request, payload]).drop 9 ↔ ReadEndsAt 9 reads) := by
  have ha : (answer getOnly (content [socks4Request, payload])).2 =
      some (9, .socks4, .tcp (.ip (.v4 (Net.Ipv4Addr.ofNat 0x01020304) 80))) := by
    decide +kernel
  have hp : HeadParser getOnly := headParser_onlyHead _ _ _ _ (by decide) (by decide)
  have he : Exact (HttpRequest.parse getOnly) := exact_onlyHead _ _ _ _
  have hu : (serveProxyConn getOnly memory oneUpstream
      [socks4Request, payload]).upstream = some ⟨none, [65]⟩ := by
    decide +kernel
  exact ⟨_, hu, serve_forwards_iff hp he length_memory.ge ha rfl hu⟩

/-- When the payload comes with the request, it is lost. -/
theorem serve_loses_payload :
    ∃ (httparse : Httparse) (mem : Bytes) (net : Network) (cs : List Chunk) (n : Nat)
      (type : HandshakeType) (req : HandshakeRequest) (u : Upstream) (pre : Bytes),
      HeadParser httparse ∧ Exact (HttpRequest.parse httparse) ∧ 512 ≤ mem.length ∧
        (answer httparse (content cs)).2 = some (n, type, req) ∧ ahead req = some pre ∧
        (serveProxyConn httparse mem net cs).upstream = some u ∧
        u.delivered ≠ pre ++ (content cs).drop n := by
  refine ⟨getOnly, memory, oneUpstream, [together], 9, .socks4,
    .tcp (.ip (.v4 (Net.Ipv4Addr.ofNat 0x01020304) 80)), ⟨none, []⟩, [],
    headParser_onlyHead _ _ _ _ (by decide) (by decide), exact_onlyHead _ _ _ _,
    length_memory.ge, ?_, rfl, ?_, by decide⟩
  · decide +kernel
  · decide +kernel

end Cpxy.Client
