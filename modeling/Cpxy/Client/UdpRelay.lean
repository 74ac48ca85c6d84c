import Cpxy.Base.Run
import Cpxy.Net.UdpPacket
import Cpxy.Transparent.Session

/-!
# The UDP relay

Library `Client`. Source `src/socks5/udp_relay.rs:15–53` and `src/client/udp.rs:25–135`. The
relay's socket is split in two halves that share a cell: what comes in leaves its sender there,
what goes out goes to the address in the cell. The first packet chooses the upstream; after
that the packets are forwarded both ways, or a single reply is waited for.
-/

namespace Cpxy.Client

open Cpxy.Base Cpxy.Net Cpxy.Transparent

/-- Where a UDP association stands. -/
inductive RelayPhase where
  | waiting
  | serving (dst : Address)
  | ended (result : Outcome ErrorChain Unit)
  deriving DecidableEq, Repr

/-- An association: the cell, what the upstream was given, and what was handed to the sink of
the relay's socket, with the address it goes to. -/
structure Association where
  lastAddr : Option SocketAddr
  phase : RelayPhase
  uploaded : List (Bytes × Address)
  replied : List (Bytes × SocketAddr)
  deriving DecidableEq, Repr

/-- What happens to an association. -/
inductive RelayEvent where
  /-- A datagram is read from the relay's socket. -/
  | datagram (data : Bytes) (src : SocketAddr)
  /-- Reading the relay's socket fails. -/
  | failed (e : ErrorChain)
  /-- The upstream yields a datagram. -/
  | reply (data : Bytes) (src : Address)
  /-- The upstream yields an error. -/
  | replyFailed (e : ErrorChain)
  /-- The upstream's stream ends. -/
  | upstreamEnds
  /-- The timer of the phase fires. -/
  | timeout
  /-- `drain_socks` returns. -/
  | controlClosed (result : Outcome ErrorChain Unit)
  deriving DecidableEq, Repr

/-- The sink half of `new_udp_relay`; `udp_relay.rs:26–34`. -/
def relaySink (lastAddr : Option SocketAddr) (pkt : UdpPacket) :
    Outcome ErrorChain (Bytes × SocketAddr) :=
  match lastAddr with
  | none => .err ["No last address"]
  | some addr => .ok (pkt.buf, addr)

/-- The loop over the upstreams, in the order in which they are tried; `udp.rs:45–66` and `128`. -/
def openFirst (addr : Address) :
    List (Except ErrorChain Unit) → Option ErrorChain → Outcome ErrorChain Unit
  | [], lastError => .err (lastError.getD [s!"No upstreams available for UDP://{addr.display}"])
  | .ok () :: _, _ => .ok ()
  | .error e :: rest, _ => openFirst addr rest (some e)

/-- What lies outside: the upstreams that fit a first packet, each with what comes of opening it. -/
abbrev Candidates := Address → Bytes → Outcome ErrorChain (List (Except ErrorChain Unit))

/-- `find_best_upstream` and the loop over its answer; `udp.rs:43–66`. -/
def openUpstream (candidates : Candidates) (addr : Address) (payload : Bytes) :
    Outcome ErrorChain Unit := do
  let upstreams ← candidates addr payload
  openFirst addr upstreams none

namespace Association

/-- After `respond_ok`, before the first packet. -/
def start : Association := ⟨none, .waiting, [], []⟩

/-- Whether the stream of the relay's socket is polled: a query that has one answer is not
interested in more packets; `udp.rs:40`, `68–99` and `101–111`. -/
def reading (s : Association) : Bool :=
  match s.phase with
  | .waiting => true
  | .serving dst => !isOneOffQuery dst
  | .ended _ => false

/-- A packet that was accepted opens the upstream, or goes to the one that is open;
`udp.rs:40–66` and `103–110`. -/
def packet (candidates : Candidates) (s : Association) (pkt : UdpPacket) : Association :=
  match pkt.addr, pkt.payloadBytes with
  | .ok addr, .ok payload =>
    match s.phase with
    | .waiting =>
      match openUpstream candidates addr payload with
      | .ok () => { s with phase := .serving addr, uploaded := s.uploaded ++ [(payload, addr)] }
      | .err e => { s with phase := .ended (.err e) }
      | .panicked => { s with phase := .ended .panicked }
    | .serving _ => { s with uploaded := s.uploaded ++ [(payload, addr)] }
    | .ended _ => s
  | _, _ => { s with phase := .ended .panicked }

/-- The stream half of `new_udp_relay`: the sender is noted before the packet is checked;
`udp_relay.rs:36–50`. -/
def datagram (candidates : Candidates) (s : Association) (data : Bytes) (src : SocketAddr) :
    Association :=
  let s := { s with lastAddr := some src }
  match UdpPacket.newChecked data with
  | .ok pkt => s.packet candidates pkt
  | .err _ => s
  | .panicked => { s with phase := .ended .panicked }

/-- A reply is packed and handed to the sink; `udp.rs:79–98` and `113–126`. What ends the
download ends the association without an error, unless a single reply is waited for. -/
def reply (s : Association) (data : Bytes) (src : Address) : Association :=
  match s.phase with
  | .serving dst =>
    let out := do
      let pkt ← (UdpRepr.mk src data 0).toPacket
      relaySink s.lastAddr pkt
    match out with
    | .ok out =>
      { s with
        replied := s.replied ++ [out]
        phase := if isOneOffQuery dst then .ended (.ok ()) else s.phase }
    | .err e => { s with phase := .ended (if isOneOffQuery dst then .err e else .ok ()) }
    | .panicked => { s with phase := .ended .panicked }
  | _ => s

/-- Leave the service of an upstream, with an error where a single reply is waited for. -/
def leave (s : Association) (e : ErrorChain) : Association :=
  match s.phase with
  | .serving dst => { s with phase := .ended (if isOneOffQuery dst then .err e else .ok ()) }
  | _ => s

/-- One step of `serve_udp_proxy_conn`; `udp.rs:38–135`. -/
def step (candidates : Candidates) (s : Association) : RelayEvent → Association
  | .datagram data src => if s.reading then s.datagram candidates data src else s
  | .failed e =>
    match s.phase with
    | .waiting => { s with phase := .ended (.err e) }
    | .serving dst => if isOneOffQuery dst then s else { s with phase := .ended (.ok ()) }
    | .ended _ => s
  | .reply data src => s.reply data src
  | .replyFailed e => s.leave e
  | .upstreamEnds => s.leave ["Unexpected EOF while waiting for response"]
  | .timeout => s.leave ["Timeout waiting for response"]
  | .controlClosed result =>
    match s.phase with
    | .serving dst => if isOneOffQuery dst then s else { s with phase := .ended result }
    | _ => s

end Association

/-! ### One step -/

namespace Association

variable {candidates : Candidates} {s : Association}

/-- A phase that an event without a packet leads to: the same, or the end. -/
def Near (p q : RelayPhase) : Prop := q = p ∨ ∃ result, q = .ended result

/-- A packet that is read opens the upstream or goes to it. -/
theorem packet_eq {pkt : UdpPacket} {addr : Address} {payload : Bytes} (ha : pkt.addr = .ok addr)
    (hp : pkt.payloadBytes = .ok payload) :
    s.packet candidates pkt =
      match s.phase with
      | .waiting =>
        match openUpstream candidates addr payload with
        | .ok () => { s with phase := .serving addr, uploaded := s.uploaded ++ [(payload, addr)] }
        | .err e => { s with phase := .ended (.err e) }
        | .panicked => { s with phase := .ended .panicked }
      | .serving _ => { s with uploaded := s.uploaded ++ [(payload, addr)] }
      | .ended _ => s := by
  rw [packet, ha, hp]

/-- A packet for an association that reads is taken by the upstream, or ends it. -/
theorem packet_cases {pkt : UdpPacket} {addr : Address} {payload : Bytes}
    (ha : pkt.addr = .ok addr) (hp : pkt.payloadBytes = .ok payload)
    (hlive : ∀ result, s.phase ≠ .ended result) :
    (∃ dst, s.packet candidates pkt =
        { s with phase := .serving dst, uploaded := s.uploaded ++ [(payload, addr)] }) ∨
      ∃ result, s.packet candidates pkt = { s with phase := .ended result } := by
  rw [packet_eq ha hp]
  obtain ⟨lastAddr, phase, uploaded, replied⟩ := s
  cases phase with
  | waiting =>
    dsimp only
    cases openUpstream candidates addr payload with
    | ok u => exact .inl ⟨addr, rfl⟩
    | err e => exact .inr ⟨_, rfl⟩
    | panicked => exact .inr ⟨_, rfl⟩
  | serving dst => exact .inl ⟨dst, rfl⟩
  | ended result => exact absurd rfl (hlive result)

/-- The same for a datagram that holds a packet; its sender is noted. -/
theorem datagram_cases (candidates : Candidates) {data : Bytes} {pkt : UdpPacket}
    {addr : Address} {payload : Bytes} (hnew : UdpPacket.newChecked data = .ok pkt)
    (ha : pkt.addr = .ok addr) (hp : pkt.payloadBytes = .ok payload) (src : SocketAddr)
    (hlive : ∀ result, s.phase ≠ .ended result) :
    (∃ dst, s.datagram candidates data src =
        { s with
          lastAddr := some src
          phase := .serving dst
          uploaded := s.uploaded ++ [(payload, addr)] }) ∨
      ∃ result, s.datagram candidates data src =
        { s with lastAddr := some src, phase := .ended result } := by
  have hd : s.datagram candidates data src =
      ({ s with lastAddr := some src } : Association).packet candidates pkt := by
    simp only [datagram, hnew]
  rw [hd]
  exact packet_cases ha hp hlive

/-- A reply is packed for the address in the cell, or ends the association; where none is
served, nothing happens. -/
theorem reply_cases {addr : SocketAddr} (hheard : ∀ dst, s.phase = .serving dst →
    s.lastAddr = some addr) (data : Bytes) (src : Address) :
    (∃ pkt phase, (UdpRepr.mk src data 0).toPacket = .ok pkt ∧ Near s.phase phase ∧
        s.reply data src =
          { s with replied := s.replied ++ [(pkt.buf, addr)], phase := phase }) ∨
      ∃ phase, Near s.phase phase ∧ s.reply data src = { s with phase := phase } := by
  unfold reply
  obtain ⟨lastAddr, phase, uploaded, replied⟩ := s
  cases phase with
  | waiting => exact .inr ⟨_, .inl rfl, rfl⟩
  | ended result => exact .inr ⟨_, .inl rfl, rfl⟩
  | serving dst =>
    obtain rfl : lastAddr = some addr := hheard dst rfl
    dsimp only
    cases (UdpRepr.mk src data 0).toPacket with
    | ok pkt =>
      refine .inl ⟨pkt, _, rfl, ?_, rfl⟩
      split
      · exact .inr ⟨_, rfl⟩
      · exact .inl rfl
    | err e => exact .inr ⟨_, .inr ⟨_, rfl⟩, rfl⟩
    | panicked => exact .inr ⟨_, .inr ⟨_, rfl⟩, rfl⟩

/-- Whatever else happens changes the phase only, and only to the end. -/
theorem step_cases (candidates : Candidates) (e : RelayEvent) (hd : ∀ data src, e ≠ .datagram data src)
    (hr : ∀ data src, e ≠ .reply data src) :
    ∃ phase, Near s.phase phase ∧ s.step candidates e = { s with phase := phase } := by
  have hleave : ∀ e, ∃ phase, Near s.phase phase ∧
      s.leave e = { s with phase := phase } := by
    intro e
    unfold leave
    split
    · exact ⟨_, .inr ⟨_, rfl⟩, rfl⟩
    · exact ⟨_, .inl rfl, rfl⟩
  cases e with
  | datagram data src => exact absurd rfl (hd data src)
  | reply data src => exact absurd rfl (hr data src)
  | replyFailed e => exact hleave e
  | upstreamEnds => exact hleave _
  | timeout => exact hleave _
  | failed e =>
    rw [step]
    split
    · exact ⟨_, .inr ⟨_, rfl⟩, rfl⟩
    · split
      · exact ⟨_, .inl rfl, rfl⟩
      · exact ⟨_, .inr ⟨_, rfl⟩, rfl⟩
    · exact ⟨_, .inl rfl, rfl⟩
  | controlClosed result =>
    rw [step]
    split
    · split
      · exact ⟨_, .inl rfl, rfl⟩
      · exact ⟨_, .inr ⟨_, rfl⟩, rfl⟩
    · exact ⟨_, .inl rfl, rfl⟩

/-- Only an association that has not ended reads. -/
theorem not_ended_of_reading (h : s.reading = true) (result : Outcome ErrorChain Unit) :
    s.phase ≠ .ended result := by
  intro hp
  rw [reading, hp] at h
  cases h

end Association
end Cpxy.Client
