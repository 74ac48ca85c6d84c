import Cpxy.TcpMan.Datagrams
import Cpxy.TcpMan.Request

/-!
# TCPMan sessions

Library `TcpMan`. Source `src/protocol/tcpman/mod.rs`, `src/protocol/tcpman/server/handler.rs`
and `src/protocol/tcpman/cipher/strategy.rs:25–39`. The client puts its request into the initial
data of a cipher channel, the server takes it out and opens what is asked for. Behind the
handshake the channel carries a stream, or packets in both directions.
-/

namespace Cpxy.TcpMan

open Cpxy.Base Cpxy.Net Cpxy.Http Cpxy.Io

/-- `new_send`; `strategy.rs:26–32`. -/
def EncryptionStrategy.newSend (isTcp : Bool) (dstPort : UInt16) (isUpstreamTls : Bool) :
    EncryptionStrategy :=
  match isTcp, decide (dstPort = 443), isUpstreamTls with
  | _, _, true => .never
  | true, true, _ => .firstN ⟨512, by decide⟩
  | _, _, _ => .always

/-- `new_receive`; `strategy.rs:34–39`. -/
def EncryptionStrategy.newReceive (isTcp : Bool) (dstPort : UInt16) : EncryptionStrategy :=
  match isTcp, decide (dstPort = 443) with
  | true, true => .never
  | _, _ => .always

theorem EncryptionStrategy.newSend_counts (isTcp : Bool) (dstPort : UInt16)
    (isUpstreamTls : Bool) : (newSend isTcp dstPort isUpstreamTls).Counts := by
  unfold newSend
  split
  · trivial
  · exact (by decide : 512 ≤ isizeMax)
  · trivial

theorem EncryptionStrategy.newReceive_counts (isTcp : Bool) (dstPort : UInt16) :
    (newReceive isTcp dstPort).Counts := by
  unfold newReceive
  split <;> trivial

/-! ### The client -/

/-- `Credentials`; `mod.rs:25–29`. -/
structure Credentials where
  username : String
  password : String
  deriving DecidableEq, Repr

/-- `to_header_value`; `mod.rs:121–128`. -/
def Credentials.toHeaderValue (c : Credentials) : String :=
  "Basic " ++ Base64.standardText (asBytes (c.username ++ ":" ++ c.password))

section

set_option linter.dupNamespace false

/-- `TcpMan`; `mod.rs:31–37`. -/
structure TcpMan where
  address : Address
  ssl : Bool
  allowsUdp : Bool
  credentials : Option Credentials
  deriving DecidableEq, Repr

namespace TcpMan

/-- `supports`, for the two kinds of request; `mod.rs:74–79`. -/
def supports (t : TcpMan) : RequestType → Bool
  | .tcp => true
  | .udp => t.allowsUdp

/-- What the request of a session is encrypted with; `mod.rs:63–64`. -/
def sendStrategy (t : TcpMan) (dst : Address) : EncryptionStrategy :=
  .newSend true dst.getPort t.ssl

def recvStrategy (dst : Address) : EncryptionStrategy := .newReceive true dst.getPort

/-- The URL that is connected to; `mod.rs:58–62`. -/
def url (t : TcpMan) : HttpUrl := ⟨t.ssl, t.address, "/"⟩

/-- The authorization header; `mod.rs:65`. -/
def auth (t : TcpMan) : Option String := t.credentials.map Credentials.toHeaderValue

/-- `send_request` on a stream that is connected; `mod.rs:55–69`. -/
def sendRequest (chacha20 : Chacha20) (httparse : HttparseResponse) (mem : Bytes) (k : CipherKeys)
    (t : TcpMan) (req : Request) (cs : List Chunk) : Replied (Endpoint HttpResponse) :=
  match req.toVec with
  | .ok initialData =>
    connect chacha20 httparse mem k (t.sendStrategy req.dst) (recvStrategy req.dst) t.url t.auth
      initialData cs
  | .err e => ⟨[], .err e⟩
  | .panicked => ⟨[], .panicked⟩

/-- `new_stream`; `mod.rs:81–98`. -/
def newStream (chacha20 : Chacha20) (httparse : HttparseResponse) (mem : Bytes) (k : CipherKeys)
    (t : TcpMan) (dst : Address) (initialData : Option Bytes) (cs : List Chunk) :
    Replied (Endpoint HttpResponse) :=
  t.sendRequest chacha20 httparse mem k ⟨.tcp, dst, initialData.getD []⟩ cs

/-- `new_datagram`; `mod.rs:100–118`: the end that the sink and the stream share. -/
def newDatagram (chacha20 : Chacha20) (httparse : HttparseResponse) (mem : Bytes) (k : CipherKeys)
    (t : TcpMan) (dst : Address) (initialData : Bytes) (cs : List Chunk) :
    Replied (Endpoint HttpResponse) :=
  t.sendRequest chacha20 httparse mem k ⟨.udp, dst, initialData⟩ cs

end TcpMan

end

/-! ### The server -/

/-- `respond_error`; `server.rs:61–76`, with the error's text for people. -/
def respondError (debug : ErrorChain → String) (e : ErrorChain) : Bytes :=
  let errorContent := debug e
  asBytes ("HTTP/1.1 500 Internal Error\r\nContent-Type: text/plain\r\nContent-Length: " ++
    toString (asBytes errorContent).length ++ "\r\n\r\n" ++ errorContent)

/-- `serve_client` up to where it passes data on; `handler.rs:13–88`. The upstream is opened for
a request, or is not: its factory and its opening answer alike. What is returned is the request
and the server's end. -/
def serveClient (chacha20 : Chacha20) (httparse : Httparse) (debug : ErrorChain → String)
    (upstream : Request → Except ErrorChain Unit) (mem : Bytes) (cs : List Chunk) :
    Replied (Request × Endpoint HttpRequest) :=
  let accepted := acceptClient chacha20 httparse mem cs
  match accepted.outcome.context "Awaiting handshake" with
  | .err e => ⟨accepted.written, .err e⟩
  | .panicked => ⟨accepted.written, .panicked⟩
  | .ok (initialData, hs) =>
    match (Request.parse (initialData.getD [])).context "Parsing TCPMan request" with
    | .err e => ⟨accepted.written ++ respondError debug e, .err e⟩
    | .panicked => ⟨accepted.written, .panicked⟩
    | .ok req =>
      match upstream req with
      | .error e => ⟨accepted.written ++ respondError debug e, .err e⟩
      | .ok () => ⟨accepted.written ++ hs.respondSuccess.1, .ok (req, hs.respondSuccess.2)⟩

/-! ### A session -/

/-- A request that can be written is read back. -/
theorem Request.parse_of_toVec {r : Request} {v : Bytes} (h : r.toVec = .ok v) :
    Request.parse v = .ok { r with dst := r.dst.norm } := by
  have hshort : ¬ r.dst.LongName := by
    intro hlong
    rw [toVec_of_long hlong] at h
    cases h
  have hwrite := (Address.writeTo_of_short hshort).1
  have hparse := Address.parse_writeInto hshort r.initialData
  rw [toVec, hwrite] at h
  cases h
  rw [List.cons_append, List.nil_append, List.cons_append]
  rw [parse_cons_of_address hparse, ← Address.length_writeInto hshort, List.drop_left]

variable {chacha20 : Chacha20} {k : CipherKeys}

/-- The server gets the request and is behind the handshake in both directions. -/
theorem serveClient_spec {send recv : EncryptionStrategy} (hsend : send.Counts)
    (hrecv : recv.Counts) {httparse : Httparse} (hp : Stable httparse) {host : String}
    {auth : Option String} {req : Request} {v : Slice} (hv : req.toVec = .ok v.val)
    {request : Bytes} (hreads : httparse request = .ok (some (request.length,
      connectHead k send recv host auth (xorAt (send.keys (chacha20 k.key k.iv)) 0 v.val))))
    (hne : request ≠ []) (debug : ErrorChain → String) {upstream : Request → Except ErrorChain Unit}
    (hup : upstream { req with dst := req.dst.norm } = .ok ()) {mem : Bytes}
    (hmem : 2 ≤ mem.length) {cs : List Chunk} {x : Bytes} (hcs : content cs = request ++ x) :
    ∃ server, serveClient chacha20 httparse debug upstream mem cs =
        ⟨switchingProtocols, .ok ({ req with dst := req.dst.norm }, server)⟩ ∧
      server.source.unread = x ∧
      InStep send (chacha20 k.key k.iv) v.val.length server.stream.rdCipher ∧
      InStep recv (chacha20 k.key k.iv) 0 server.stream.wrCipher := by
  obtain ⟨hs, haccept, hunread, hrd, hwr⟩ := acceptClient_spec hsend hrecv hp hreads hne hmem hcs
  refine ⟨hs.respondSuccess.2, ?_, hunread, hrd, hwr⟩
  have hparse := Request.parse_of_toVec hv
  rw [serveClient, haccept]
  dsimp only
  rw [Outcome.context_ok]
  dsimp only
  rw [Option.getD_some, hparse, Outcome.context_ok]
  dsimp only
  rw [hup]
  rfl

/-- What passes through a session once both ends are behind the handshake: used as a stream, or
for datagrams. -/
structure Carries {α β : Type} (x y : Bytes) (dst : Address) (client : Endpoint α)
    (server : Endpoint β) : Prop where
  streams : ∀ clientCalls serverCalls,
    let c := runFrom Exchange.step (.start client) clientCalls
    let s := runFrom Exchange.step (.start server) serverCalls
    c.failed = false ∧ s.failed = false ∧ (x = c.wire → Delivered c s) ∧
      (y = s.wire → Delivered s c)
  datagrams : ∀ clientEvents serverEvents,
    let c := runFrom PacketEnd.step (.start client) clientEvents
    let s := runFrom PacketEnd.step (.start server) serverEvents
    (x = c.exchange.wire → Crossed (some dst) c s) ∧
      (y = s.exchange.wire → Crossed none s c)

private def askKey : CipherKeys := ⟨List.replicate 32 1, List.replicate 12 2, rfl, rfl⟩

private def overTls : TcpMan := ⟨.name "proxy" 443, true, true, none⟩

private def askName : Request := ⟨.udp, .name "b" 53, [7]⟩

private def askNameSlice : Slice := ⟨[1, 3, 1, 98, 0, 53, 7], by decide⟩

private def askNameRequest : Bytes :=
  connectRequest askKey .never .always "proxy" none [1, 3, 1, 98, 0, 53, 7]

private def upgraded : ParsedResponse := ⟨some 101, []⟩

end Cpxy.TcpMan
