import Cpxy.Base.Network
import Cpxy.Client.UdpRelay

/-!
# A UDP association between its two ends

Library `Client`. Source `src/protocol/socks5/mod.rs:110–181`, `src/io/udp.rs:78–106` and the
relay of `src/client/udp.rs`. The one end is the SOCKS5 upstream of this program, the other its
proxy. Datagrams between them may be lost, repeated and reordered. What comes out at either end
is what went in at the other, as often and in such an order as the datagrams arrive.
-/

namespace Cpxy.Client

open Cpxy.Base Cpxy.Net Cpxy.Transparent

/-- The client's socket: the address it sends to, and the items of its stream. -/
structure ConnectedSocket where
  lastAddr : SocketAddr
  received : List (Outcome ErrorChain (Bytes × Address))

/-- The bytes of a datagram for a destination; `mod.rs:141–147` and `157–170`. -/
def packDatagram (data : Bytes) (dst : Address) : Outcome ErrorChain Bytes := do
  let pkt ← (UdpRepr.mk dst data 0).toPacket
  .ok pkt.buf

/-- What the stream makes of a datagram; `mod.rs:171–179`. -/
def unpackDatagram (buf : Bytes) : Outcome ErrorChain (Bytes × Address) := do
  let pkt ← UdpPacket.newChecked buf
  let payload ← pkt.payloadBytes
  let addr ← pkt.addr
  .ok (payload, addr)

/-- The two ends and the network between them. `appSent` and `yielded` remember, beside the
datagrams on the wires, what they were made of. -/
structure Relayed where
  client : ConnectedSocket
  relay : Association
  toRelay : Wire (Bytes × SocketAddr)
  toClient : Wire (Bytes × SocketAddr)
  appSent : List (Bytes × Address)
  yielded : List (Bytes × Address)

/-- What happens. -/
inductive AssociationEvent where
  /-- The application gives the client a datagram, the first one with `new_datagram`. -/
  | appSends (data : Bytes) (dst : Address)
  /-- A datagram of the client is read from the relay's socket. -/
  | relayGets (i : Nat)
  /-- The relay's upstream, its control connection or its timer does something. -/
  | relaySees (e : RelayEvent)
  /-- A datagram of the relay is read from the client's socket, with this source address. -/
  | clientGets (i : Nat) (src : SocketAddr)

/-- Where the relay can be reached, where its datagrams come from, and the client's address. -/
structure Addresses where
  isRelay : SocketAddr → Bool
  client : SocketAddr

namespace Relayed

/-- Both ends are up; the client has been told an address of the relay. -/
def start (relayAddr : SocketAddr) : Relayed :=
  ⟨⟨relayAddr, []⟩, .start, .empty, .empty, [], []⟩

/-- The relay after a step of its own: what it handed to its sink goes on the wire. -/
def relayStep (candidates : Candidates) (s : Relayed) (e : RelayEvent) : Relayed :=
  let relay := s.relay.step candidates e
  match e with
  | .reply data src =>
    match relay.replied[s.relay.replied.length]? with
    | some out =>
      { s with
        relay := relay
        toClient := s.toClient.send out
        yielded := s.yielded ++ [(data, src)] }
    | none => { s with relay := relay }
  | _ => { s with relay := relay }

/-- One step. A relay that does not poll its socket leaves datagrams there. -/
def step (addrs : Addresses) (candidates : Candidates) (s : Relayed) : AssociationEvent → Relayed
  | .appSends data dst =>
    match packDatagram data dst with
    | .ok buf =>
      { s with
        toRelay := s.toRelay.send (buf, s.client.lastAddr)
        appSent := s.appSent ++ [(data, dst)] }
    | _ => s
  | .relayGets i =>
    match s.toRelay.arrive i with
    | some ((buf, dst), wire) =>
      if s.relay.reading ∧ addrs.isRelay dst then
        relayStep candidates { s with toRelay := wire } (.datagram buf addrs.client)
      else s
    | none => s
  | .relaySees e =>
    match e with
    | .datagram _ _ => s
    | e => s.relayStep candidates e
  | .clientGets i src =>
    match s.toClient.arrive i with
    | some ((buf, dst), wire) =>
      if addrs.isRelay src ∧ dst = addrs.client then
        { s with
          toClient := wire
          client := ⟨src, s.client.received ++ [unpackDatagram buf]⟩ }
      else s
    | none => s

end Relayed

/-- What the far end makes of a datagram: the same payload, and the address as the wire has it. -/
def carried (d : Bytes × Address) : Bytes × Address := (d.1, d.2.norm)

/-- What comes out is what went in, by the arrivals. -/
structure Faithful (addrs : Addresses) (s : Relayed) : Prop where
  /-- The upstream was given what arrived at the relay, and all of it while it is served. -/
  uploaded : s.relay.uploaded <+: s.toRelay.pick (s.appSent.map carried)
  served : (∀ result, s.relay.phase ≠ .ended result) →
    s.relay.uploaded = s.toRelay.pick (s.appSent.map carried)
  /-- The application was given what arrived at the client. -/
  received : s.client.received = s.toClient.pick (s.yielded.map fun d ↦ .ok (carried d))
  /-- The relay sends to the client, and the client to the relay. -/
  home : ∀ p ∈ s.toClient.sent, p.2 = addrs.client
  away : ∀ p ∈ s.toRelay.sent, addrs.isRelay p.2 = true

/-! ### What a datagram carries -/

/-- A datagram that was packed is unpacked to what it carries. -/
theorem unpackDatagram_of_pack {data buf : Bytes} {dst : Address}
    (h : packDatagram data dst = .ok buf) : unpackDatagram buf = .ok (carried (data, dst)) := by
  obtain ⟨pkt, hpkt, hbuf⟩ := Outcome.bind_eq_ok_iff.mp h
  cases hbuf
  have hshort : ¬ dst.LongName := by
    intro hlong
    obtain ⟨e, he⟩ := UdpRepr.toPacket_of_long (r := ⟨dst, data, 0⟩) hlong
    rw [hpkt] at he
    cases he
  obtain ⟨p, hp, hc, _, hpayload⟩ := UdpRepr.toPacket_of_short (r := ⟨dst, data, 0⟩) hshort
  rw [hpkt] at hp
  cases hp
  have hback : pkt.payloadBytes = .ok (pkt.buf.drop pkt.dataOffset) := hc.payload_eq
  have hnew : UdpPacket.newChecked pkt.buf = .ok pkt :=
    UdpPacket.newChecked_eq_ok_iff.mpr ⟨rfl, _, _, hc⟩
  rw [unpackDatagram, hnew, Outcome.ok_bind, hback, Outcome.ok_bind, hc.addr_eq, hpayload]
  rfl

/-- What the relay reads of a datagram is what it unpacks to. -/
theorem packet_of_unpack {buf : Bytes} {d : Bytes × Address} (h : unpackDatagram buf = .ok d) :
    ∃ pkt, UdpPacket.newChecked buf = .ok pkt ∧ pkt.payloadBytes = .ok d.1 ∧
      pkt.addr = .ok d.2 := by
  obtain ⟨pkt, hpkt, h⟩ := Outcome.bind_eq_ok_iff.mp h
  obtain ⟨payload, hpayload, h⟩ := Outcome.bind_eq_ok_iff.mp h
  obtain ⟨addr, haddr, h⟩ := Outcome.bind_eq_ok_iff.mp h
  cases h
  exact ⟨pkt, hpkt, hpayload, haddr⟩

/-! ### Every run -/

/-- Beside what comes out: what is on the wires, and where it goes. -/
structure Inv (addrs : Addresses) (s : Relayed) : Prop extends Faithful addrs s where
  up : s.toRelay.sent.map (fun p ↦ unpackDatagram p.1) = s.appSent.map fun d ↦ .ok (carried d)
  down : s.toClient.sent.map (fun p ↦ unpackDatagram p.1) = s.yielded.map fun d ↦ .ok (carried d)
  heard : ∀ dst, s.relay.phase = .serving dst → s.relay.lastAddr = some addrs.client
  connected : addrs.isRelay s.client.lastAddr = true

variable {addrs : Addresses} {candidates : Candidates} {s : Relayed}

theorem inv_start {relayAddr : SocketAddr} (h : addrs.isRelay relayAddr = true) :
    Inv addrs (Relayed.start relayAddr) where
  uploaded := List.nil_prefix
  served _ := rfl
  received := rfl
  home := by simp [Relayed.start, Wire.empty]
  away := by simp [Relayed.start, Wire.empty]
  up := rfl
  down := rfl
  heard := by
    intro dst hd
    cases hd
  connected := h

theorem Inv.length_up (h : Inv addrs s) : s.appSent.length = s.toRelay.sent.length := by
  have hlen := congrArg List.length h.up
  rw [List.length_map, List.length_map] at hlen
  exact hlen.symm

theorem Inv.length_down (h : Inv addrs s) : s.yielded.length = s.toClient.sent.length := by
  have hlen := congrArg List.length h.down
  rw [List.length_map, List.length_map] at hlen
  exact hlen.symm

theorem Inv.appSends (h : Inv addrs s) {data buf : Bytes} {dst : Address}
    (hbuf : packDatagram data dst = .ok buf) :
    Inv addrs { s with
      toRelay := s.toRelay.send (buf, s.client.lastAddr)
      appSent := s.appSent ++ [(data, dst)] } := by
  have hpick : (s.toRelay.send (buf, s.client.lastAddr)).pick
      ((s.appSent ++ [(data, dst)]).map carried) = s.toRelay.pick (s.appSent.map carried) := by
    rw [Wire.pick_send, List.map_append, Wire.pick_append]
    rw [List.length_map, h.length_up]
  constructor
  case toFaithful =>
    constructor
    · rw [hpick]
      exact h.uploaded
    · rw [hpick]
      exact h.served
    · exact h.received
    · exact h.home
    · intro p hp
      rcases List.mem_append.mp hp with hp | hp
      · exact h.away p hp
      · rw [List.mem_singleton] at hp
        rw [hp]
        exact h.connected
  case up => simp [h.up, unpackDatagram_of_pack hbuf]
  case down => exact h.down
  case heard => exact h.heard
  case connected => exact h.connected

/-- Nothing but a reply puts anything on the wire. -/
theorem Relayed.relayStep_eq (e : RelayEvent) (hr : ∀ data src, e ≠ .reply data src) :
    s.relayStep candidates e = { s with relay := s.relay.step candidates e } := by
  cases e with
  | reply data src => exact absurd rfl (hr data src)
  | _ => rfl

/-- Datagrams reach the relay over the network only. -/
theorem Relayed.step_relaySees {e : RelayEvent} (hd : ∀ data src, e ≠ .datagram data src) :
    s.step addrs candidates (.relaySees e) = s.relayStep candidates e := by
  cases e with
  | datagram data src => exact absurd rfl (hd data src)
  | _ => rfl

/-- What arrives at the relay is what the application sent. -/
theorem Inv.arrived_up (h : Inv addrs s) {i : Nat} {p : Bytes × SocketAddr}
    (hi : s.toRelay.sent[i]? = some p) :
    ∃ d, s.appSent[i]? = some d ∧ unpackDatagram p.1 = .ok (carried d) := by
  have hup := congrArg (·[i]?) h.up
  simp only [List.getElem?_map, hi, Option.map_some] at hup
  obtain ⟨d, hd, heq⟩ := Option.map_eq_some_iff.mp hup.symm
  exact ⟨d, hd, heq.symm⟩

/-- What arrives at the client is what the upstream yielded. -/
theorem Inv.arrived_down (h : Inv addrs s) {i : Nat} {p : Bytes × SocketAddr}
    (hi : s.toClient.sent[i]? = some p) :
    ∃ d, s.yielded[i]? = some d ∧ unpackDatagram p.1 = .ok (carried d) := by
  have hdown := congrArg (·[i]?) h.down
  simp only [List.getElem?_map, hi, Option.map_some] at hdown
  obtain ⟨d, hd, heq⟩ := Option.map_eq_some_iff.mp hdown.symm
  exact ⟨d, hd, heq.symm⟩

/-- A datagram of the client at the relay. -/
theorem Inv.relayGets (h : Inv addrs s) {i : Nat} {p : Bytes × SocketAddr}
    {wire : Wire (Bytes × SocketAddr)} (hi : s.toRelay.arrive i = some (p, wire))
    (hreading : s.relay.reading = true) :
    Inv addrs { s with
      toRelay := wire
      relay := s.relay.datagram candidates p.1 addrs.client } := by
  obtain ⟨hsent, hget, hpick⟩ := Wire.pick_arrive hi (s.appSent.map carried)
  obtain ⟨d, hd, hunpack⟩ := h.arrived_up hget
  have hlive := Association.not_ended_of_reading hreading
  have hgrown : wire.pick (s.appSent.map carried) = s.relay.uploaded ++ [carried d] := by
    rw [hpick, h.served hlive, List.getElem?_map, hd]
    rfl
  obtain ⟨pkt, hnew, hpayload, haddr⟩ := packet_of_unpack hunpack
  have hup : wire.sent.map (fun p ↦ unpackDatagram p.1) =
      s.appSent.map fun d ↦ .ok (carried d) := by
    rw [hsent]
    exact h.up
  have haway : ∀ p ∈ wire.sent, addrs.isRelay p.2 = true := by
    rw [hsent]
    exact h.away
  rcases Association.datagram_cases candidates hnew haddr hpayload addrs.client hlive with ⟨dst, heq⟩ | ⟨result, heq⟩
  · rw [heq]
    constructor
    case toFaithful =>
      constructor
      · exact ⟨[], by rw [List.append_nil, hgrown]⟩
      · intro _
        exact hgrown.symm
      · exact h.received
      · exact h.home
      · exact haway
    case up => exact hup
    case down => exact h.down
    case heard => exact fun _ _ ↦ rfl
    case connected => exact h.connected
  · rw [heq]
    constructor
    case toFaithful =>
      constructor
      · rw [hgrown]
        exact List.prefix_append _ _
      · intro hne
        exact absurd rfl (hne result)
      · exact h.received
      · exact h.home
      · exact haway
    case up => exact hup
    case down => exact h.down
    case heard =>
      intro dst hdst
      cases hdst
    case connected => exact h.connected

/-- An event of the relay that touches the phase only. -/
theorem Inv.phase (h : Inv addrs s) {phase : RelayPhase}
    (hnear : Association.Near s.relay.phase phase) :
    Inv addrs { s with relay := { s.relay with phase := phase } } := by
  rcases hnear with rfl | ⟨result, rfl⟩
  · exact h
  · constructor
    case toFaithful =>
      exact ⟨h.uploaded, fun hne ↦ absurd rfl (hne result), h.received, h.home, h.away⟩
    case up => exact h.up
    case down => exact h.down
    case heard =>
      intro dst hdst
      cases hdst
    case connected => exact h.connected

/-- A reply that is packed goes on the wire. -/
theorem Inv.reply (h : Inv addrs s) {data : Bytes} {src : Address} {pkt : UdpPacket}
    (hpkt : (UdpRepr.mk src data 0).toPacket = .ok pkt) :
    Inv addrs { s with
      relay := { s.relay with replied := s.relay.replied ++ [(pkt.buf, addrs.client)] }
      toClient := s.toClient.send (pkt.buf, addrs.client)
      yielded := s.yielded ++ [(data, src)] } := by
  have hunpack : unpackDatagram pkt.buf = .ok (carried (data, src)) := by
    apply unpackDatagram_of_pack
    rw [packDatagram, hpkt]
    rfl
  constructor
  case toFaithful =>
    constructor
    · exact h.uploaded
    · exact h.served
    · rw [Wire.pick_send, List.map_append, Wire.pick_append]
      · exact h.received
      · rw [List.length_map, h.length_down]
    · intro p hp
      rcases List.mem_append.mp hp with hp | hp
      · exact h.home p hp
      · rw [List.mem_singleton] at hp
        rw [hp]
    · exact h.away
  case up => exact h.up
  case down => simp [h.down, hunpack]
  case heard => exact h.heard
  case connected => exact h.connected

/-- Whatever the relay's other ends do. -/
theorem Inv.relaySees (h : Inv addrs s) (e : RelayEvent)
    (hd : ∀ data src, e ≠ .datagram data src) : Inv addrs (s.relayStep candidates e) := by
  by_cases hr : ∃ data src, e = .reply data src
  · obtain ⟨data, src, rfl⟩ := hr
    rcases Association.reply_cases h.heard data src with
      ⟨pkt, phase, hpkt, hnear, heq⟩ | ⟨phase, hnear, heq⟩
    · have hstep : s.relay.step candidates (.reply data src) =
          { s.relay with
            replied := s.relay.replied ++ [(pkt.buf, addrs.client)], phase := phase } := heq
      simp only [Relayed.relayStep, hstep, List.getElem?_concat_length]
      exact (h.reply hpkt).phase hnear
    · have hstep : s.relay.step candidates (.reply data src) =
          { s.relay with phase := phase } := heq
      simp only [Relayed.relayStep, hstep, List.getElem?_eq_none (Nat.le_refl _)]
      exact h.phase hnear
  · have hr' : ∀ data src, e ≠ .reply data src := fun data src heq ↦ hr ⟨data, src, heq⟩
    obtain ⟨phase, hnear, heq⟩ :=
      Association.step_cases candidates (s := s.relay) e hd hr'
    rw [Relayed.relayStep_eq e hr', heq]
    exact h.phase hnear

/-- A datagram of the relay at the client. -/
theorem Inv.clientGets (h : Inv addrs s) {i : Nat} {p : Bytes × SocketAddr} {src : SocketAddr}
    {wire : Wire (Bytes × SocketAddr)} (hi : s.toClient.arrive i = some (p, wire))
    (hsrc : addrs.isRelay src = true) :
    Inv addrs { s with
      toClient := wire
      client := ⟨src, s.client.received ++ [unpackDatagram p.1]⟩ } := by
  obtain ⟨hsent, hget, hpick⟩ := Wire.pick_arrive hi
    (s.yielded.map fun d ↦ (.ok (carried d) : Outcome ErrorChain (Bytes × Address)))
  obtain ⟨d, hd, hunpack⟩ := h.arrived_down hget
  constructor
  case toFaithful =>
    constructor
    · exact h.uploaded
    · exact h.served
    · rw [hpick, h.received, hunpack, List.getElem?_map, hd]
      rfl
    · rw [hsent]
      exact h.home
    · exact h.away
  case up => exact h.up
  case down =>
    rw [hsent]
    exact h.down
  case heard => exact h.heard
  case connected => exact hsrc

theorem Inv.step (e : AssociationEvent) (h : Inv addrs s) :
    Inv addrs (s.step addrs candidates e) := by
  cases e with
  | appSends data dst =>
    rw [Relayed.step]
    split
    · next buf hbuf => exact h.appSends hbuf
    · exact h
  | relayGets i =>
    rw [Relayed.step]
    split
    · next buf dst wire hi =>
      split
      · next hc =>
        rw [Relayed.relayStep_eq _ (by simp), Association.step, if_pos hc.1]
        exact h.relayGets hi hc.1
      · exact h
    · exact h
  | relaySees e =>
    by_cases hd : ∃ data src, e = .datagram data src
    · obtain ⟨data, src, rfl⟩ := hd
      exact h
    · have hd' : ∀ data src, e ≠ .datagram data src := fun data src he ↦ hd ⟨data, src, he⟩
      rw [Relayed.step_relaySees hd']
      exact h.relaySees e hd'
  | clientGets i src =>
    rw [Relayed.step]
    split
    · next buf dst wire hi =>
      split
      · next hc => exact h.clientGets hi hc.1
      · exact h
    · exact h

/-- Every state of a run. -/
theorem inv_run {relayAddr : SocketAddr} (h : addrs.isRelay relayAddr = true)
    (events : List AssociationEvent) :
    Inv addrs (runFrom (Relayed.step addrs candidates) (Relayed.start relayAddr) events) :=
  runFrom_invariant (fun _ e h ↦ h.step e) (inv_start h) events

/-- Over a network that keeps the order, the upstream was given what the application sent first,
and the application what the upstream sent first. -/
theorem association_in_order {relayAddr : SocketAddr} (h : addrs.isRelay relayAddr = true)
    (events : List AssociationEvent) {n m : Nat} :
    let s := runFrom (Relayed.step addrs candidates) (Relayed.start relayAddr) events
    s.toRelay.arrivals = List.range n → s.toClient.arrivals = List.range m →
      s.relay.uploaded <+: (s.appSent.take n).map carried ∧
        s.client.received = (s.yielded.take m).map fun d ↦ .ok (carried d) := by
  intro s hup hdown
  have hinv : Inv addrs s := inv_run h events
  have hu := Wire.pick_range hup (s.appSent.map carried)
    (by rw [List.length_map, hinv.length_up])
  have hd := Wire.pick_range hdown
    (s.yielded.map fun d ↦ (.ok (carried d) : Outcome ErrorChain (Bytes × Address)))
    (by rw [List.length_map, hinv.length_down])
  constructor
  · rw [List.map_take, ← hu]
    exact hinv.uploaded
  · rw [List.map_take, ← hd]
    exact hinv.received

private def resolver : Address := .ip (.v4 (Ipv4Addr.ofNat 134744072) 53)

private def local53 : SocketAddr := .v4 (Ipv4Addr.ofNat 2130706433) 1080

private def query : List AssociationEvent :=
  [.appSends [1, 2] resolver, .relayGets 0, .relayGets 0, .relaySees (.reply [3] resolver),
    .clientGets 0 local53, .clientGets 0 local53]

end Cpxy.Client
