import Cpxy.TcpMan.Channel
import Cpxy.TcpMan.UdpStream

/-!
# Datagrams over a cipher channel

Library `TcpMan`. Source `src/protocol/tcpman/dgram.rs`. A sink with a queue, whose task writes
one packet after the other, and a stream that reads packets until one fails. Both sit on an end
of the cipher channel, which takes what it is given in pieces.
-/

namespace Cpxy.TcpMan

open Cpxy.Base Cpxy.Net Cpxy.Io

/-- An end with its sink and its stream. `offered` remembers what went into the queue, `taken`
the packets that were written or are being written. -/
structure PacketEnd (α : Type) where
  exchange : Exchange α
  queue : List (Bytes × Address)
  writer : PacketWriter
  pending : List Slice
  stopped : Bool
  offered : List (Bytes × Address)
  taken : List (Address × Bytes)

/-- What happens at an end. -/
inductive EndEvent where
  /-- A datagram is handed to the sink. -/
  | send (data : Bytes) (addr : Address)
  /-- The sink's task goes on, with the answer of the writer below. -/
  | write (limit : Option Nat)
  /-- The stream reads. -/
  | read (room : Room) (blocked : Bool)

theorem length_packetHeader {n : Nat} {addr : Option Address} {header : Bytes}
    (h : packetHeader n addr = .ok header) : header.length ≤ 65542 := by
  match addr with
  | none =>
    cases h
    simp
  | some (.ip (.v4 ip port)) =>
    cases h
    simp
  | some (.ip (.v6 ip port _ _)) =>
    cases h
    simp
  | some (.name host port) =>
    rw [packetHeader] at h
    split at h
    · cases h
      simp
      omega
    · cases h

/-- A packet fits a slice. -/
theorem PacketWriter.length_write (w : PacketWriter) (addr : Address) (payload : Bytes) :
    (w.write addr payload).2.2.length ≤ isizeMax := by
  have hmax : 131077 ≤ isizeMax := by decide
  unfold PacketWriter.write
  split
  · next hpayload =>
    dsimp only
    split
    · next header hheader =>
      have := length_packetHeader hheader
      rw [List.length_append]
      omega
    · simp
    · simp
  · simp

namespace PacketEnd

variable {α : Type}

/-- The room of `channel(10)` with one sender; `dgram.rs:34`. -/
def capacity : Nat := 11

def start (e : Endpoint α) : PacketEnd α := ⟨.start e, [], .new, [], false, [], []⟩

/-- The queue takes a datagram while the task runs. -/
def send (t : PacketEnd α) (data : Bytes) (addr : Address) : PacketEnd α :=
  if t.stopped = false ∧ t.queue.length < capacity then
    { t with queue := t.queue ++ [(data, addr)], offered := t.offered ++ [(data, addr)] }
  else t

/-- `write_all` is done with a buffer once nothing is left of it. -/
def unwritten (slices : List Slice) : List Slice := slices.filter fun s ↦ s.val ≠ []

/-- What is left to write of a packet: its header, and then its payload, where there is one;
`udp_stream.rs:201–202`. -/
def pieces (packet : Slice) (payloadLen : Nat) : List Slice :=
  let headerLen := packet.val.length - payloadLen
  unwritten [⟨packet.val.take headerLen, by
      have := packet.property
      rw [List.length_take]
      omega⟩,
    ⟨packet.val.drop headerLen, by
      have := packet.property
      rw [List.length_drop]
      omega⟩]

/-- The task takes the next packet. One that cannot be written ends it; `dgram.rs:37–42`. -/
def take (t : PacketEnd α) : PacketEnd α :=
  match t.stopped, t.queue with
  | false, (data, addr) :: rest =>
    let packet : Slice := ⟨(t.writer.write addr data).2.2, t.writer.length_write addr data⟩
    match (t.writer.write addr data).1 with
    | .ok _ =>
      { t with
        queue := rest
        writer := (t.writer.write addr data).2.1
        pending := pieces packet data.length
        taken := t.taken ++ [(addr, data)] }
    | _ => { t with queue := rest, stopped := true }
  | _, _ => t

/-- One poll of `write_all`, which fails when nothing is taken. -/
def write (t : PacketEnd α) (limit : Option Nat) : PacketEnd α :=
  match t.stopped, t.pending with
  | true, _ => t
  | false, [] => t.take
  | false, piece :: rest =>
    let exchange := t.exchange.step (.write piece limit)
    let n := exchange.accepted.length - t.exchange.accepted.length
    let t := { t with exchange := exchange }
    if limit.isSome ∧ n = 0 then { t with stopped := true }
    else
      let left : Slice := ⟨piece.val.drop n, by
        have := piece.property
        rw [List.length_drop]
        omega⟩
      { t with pending := unwritten (left :: rest) }

/-- One step. -/
def step (t : PacketEnd α) : EndEvent → PacketEnd α
  | .send data addr => t.send data addr
  | .write limit => t.write limit
  | .read room blocked => { t with exchange := t.exchange.step (.read room blocked) }

/-- What the stream has yielded: the packets that were read whole. -/
def yielded (t : PacketEnd α) (initial : Option Address) : List (Bytes × Address) :=
  ((PacketReader.new initial).readAll t.exchange.got).1

end PacketEnd

/-! ### What the packets on the stream say -/

/-- Whatever address a reader starts with, it reads these packets, and goes on in step with the
writer. -/
def Readable (packets : List (Address × Bytes)) (w : PacketWriter) (out : Bytes) : Prop :=
  ∀ initial, ∃ r, Synced w r ∧ ∀ rest, (PacketReader.new initial).readAll (out ++ rest) =
    (packets.map (fun p ↦ (p.2, p.1.canonical)) ++ (r.readAll rest).1, (r.readAll rest).2)

/-- The writer remembers nothing that the format cannot carry. -/
def PacketWriter.Fits (w : PacketWriter) : Prop := ∀ addr, w.lastSent = some addr → HostFits addr

theorem readable_new : Readable [] .new [] := by
  intro initial
  refine ⟨.new initial, ?_, fun rest ↦ rfl⟩
  intro addr h
  cases h

theorem HostFits.of_header {n : Nat} {addr : Address} {header : Bytes}
    (h : packetHeader n (some addr) = .ok header) : HostFits addr := by
  match addr with
  | .ip _ => trivial
  | .name host port =>
    rw [packetHeader] at h
    split at h
    · next hlen => exact hlen
    · cases h

/-- The address that a packet carries: none, when it is the last one. -/
def PacketWriter.carries (w : PacketWriter) (addr : Address) : Option Address :=
  if w.lastSent = some addr then none else some addr

/-- Either way the writer remembers the address. -/
theorem PacketWriter.write_of_header {w : PacketWriter} {addr : Address} {payload header : Bytes}
    (hp : payload.length ≤ 65535)
    (hh : packetHeader payload.length (w.carries addr) = .ok header) :
    w.write addr payload =
      (.ok (header.length + payload.length), ⟨some addr⟩, header ++ payload) := by
  obtain ⟨lastSent⟩ := w
  rw [write, if_pos hp]
  unfold carries at hh
  cases lastSent with
  | none => simp_all
  | some last =>
    by_cases heq : last = addr
    · subst heq
      simp_all
    · simp_all

theorem PacketWriter.header_of_write {w : PacketWriter} {addr : Address} {payload : Bytes} {n : Nat}
    (h : (w.write addr payload).1 = .ok n) :
    payload.length ≤ 65535 ∧ ∃ header, packetHeader payload.length (w.carries addr) = .ok header := by
  by_cases hp : payload.length ≤ 65535
  · refine ⟨hp, ?_⟩
    cases hh : packetHeader payload.length (w.carries addr) with
    | ok header => exact ⟨header, rfl⟩
    | _ =>
      obtain ⟨lastSent⟩ := w
      rw [write, if_pos hp] at h
      unfold carries at hh
      cases lastSent with
      | none => simp_all
      | some last => by_cases heq : last = addr <;> simp_all
  · rw [write, if_neg hp] at h
    cases h

/-- A packet that is written can be carried, and its address is remembered. -/
theorem PacketWriter.Fits.of_write {w : PacketWriter} (hw : w.Fits) {addr : Address}
    {payload : Bytes} {n : Nat} (h : (w.write addr payload).1 = .ok n) :
    Accepted (addr, payload) ∧ HostFits addr ∧ (w.write addr payload).2.1 = ⟨some addr⟩ := by
  obtain ⟨hp, header, hheader⟩ := header_of_write h
  rw [write_of_header hp hheader]
  refine ⟨hp, ?_, rfl⟩
  unfold carries at hheader
  split at hheader
  · next hlast => exact hw addr hlast
  · exact HostFits.of_header hheader

/-- One more packet. -/
theorem Readable.write {packets : List (Address × Bytes)} {w : PacketWriter} {out : Bytes}
    (h : Readable packets w out) {p : Address × Bytes} (ha : Accepted p) (hf : HostFits p.1) :
    Readable (packets ++ [p]) (w.write p.1 p.2).2.1 (out ++ (w.write p.1 p.2).2.2) := by
  intro initial
  obtain ⟨r, hsync, hread⟩ := h initial
  obtain ⟨w', out', hwrite, hsync', hnext⟩ := PacketWriter.write_of_accepted hsync hf ha
  refine ⟨⟨some p.1.canonical⟩, ?_, ?_⟩
  · rw [hwrite]
    exact hsync'
  · intro rest
    rw [hwrite, List.append_assoc, hread, PacketReader.readAll_of_read (hnext rest)]
    simp

/-! ### Every step of an end -/

namespace PacketEnd

variable {α : Type} {t : PacketEnd α}

/-- The sink's side: what was accepted, with what is left of the last packet, is the packets. -/
structure Sinks (t : PacketEnd α) : Prop where
  readable : Readable t.taken t.writer
    (t.exchange.accepted ++ (t.pending.map (·.val)).flatten)
  fits : t.writer.Fits
  running : t.stopped = false → t.taken.map Prod.swap ++ t.queue = t.offered
  order : t.taken.map Prod.swap <+: t.offered

theorem sinks_start (e : Endpoint α) : Sinks (start e) where
  readable := readable_new
  fits := by
    intro addr h
    cases h
  running _ := rfl
  order := List.nil_prefix

theorem Sinks.send (h : Sinks t) (data : Bytes) (addr : Address) : Sinks (t.send data addr) := by
  unfold PacketEnd.send
  split
  · next hroom =>
    constructor
    · exact h.readable
    · exact h.fits
    · intro hrun
      dsimp only
      rw [← List.append_assoc, h.running hrun]
    · exact h.order.trans (List.prefix_append _ _)
  · exact h

/-- Nothing is lost by leaving out what is empty. -/
theorem flatten_unwritten (slices : List Slice) :
    ((unwritten slices).map (·.val)).flatten = (slices.map (·.val)).flatten := by
  unfold unwritten
  induction slices with
  | nil => rfl
  | cons s slices ih =>
    by_cases hs : s.val = []
    · rw [List.filter_cons_of_neg (by simp [hs]), List.map_cons, List.flatten_cons, hs]
      exact ih
    · rw [List.filter_cons_of_pos (by simp [hs]), List.map_cons, List.flatten_cons, ih]
      rfl

theorem flatten_pieces (packet : Slice) (n : Nat) :
    ((pieces packet n).map (·.val)).flatten = packet.val := by
  unfold pieces
  rw [flatten_unwritten]
  simp

theorem Sinks.take (h : Sinks t) (hpending : t.pending = []) : Sinks t.take := by
  unfold PacketEnd.take
  split
  · next data addr rest hrun hqueue =>
    have hoffered := h.running hrun
    rw [hqueue] at hoffered
    split
    · next n hwrite =>
      obtain ⟨ha, hf, hlast⟩ := h.fits.of_write hwrite
      have hreadable := h.readable.write (p := (addr, data)) ha hf
      rw [hpending, List.map_nil, List.flatten_nil, List.append_nil] at hreadable
      constructor
      · dsimp only
        rw [flatten_pieces]
        exact hreadable
      · intro a hlast'
        dsimp only at hlast'
        rw [hlast] at hlast'
        cases hlast'
        exact hf
      · intro _
        dsimp only
        rw [← hoffered]
        simp
      · dsimp only
        rw [← hoffered]
        simp
    · constructor
      · exact h.readable
      · exact h.fits
      · intro hrun'
        cases hrun'
      · exact h.order
  · exact h

/-- What one call of the channel accepts is a front part of its buffer. -/
theorem accepted_step (e : Exchange α) (piece : Slice) (limit : Option Nat) :
    ∃ k, (e.step (.write piece limit)).accepted = e.accepted ++ piece.val.take k := by
  have hstep : (e.step (.write piece limit)).accepted = e.accepted ++ acceptedPrefix piece.val
      (e.endpoint.stream.pollWrite piece.val (.ofLimit limit)).1 := rfl
  rw [hstep]
  unfold acceptedPrefix
  split
  · next n _ => exact ⟨n, rfl⟩
  · exact ⟨0, by simp⟩

theorem Sinks.write (h : Sinks t) (limit : Option Nat) : Sinks (t.write limit) := by
  unfold PacketEnd.write
  split
  · exact h
  · next hpending => exact h.take hpending
  · next piece rest hrun hpending =>
    obtain ⟨k, hk⟩ := accepted_step t.exchange piece limit
    have hreadable := h.readable
    rw [hpending, List.map_cons, List.flatten_cons] at hreadable
    have hlen : (t.exchange.step (.write piece limit)).accepted.length -
        t.exchange.accepted.length = (piece.val.take k).length := by
      rw [hk, List.length_append]
      omega
    have hleft : piece.val.take k ++ piece.val.drop (piece.val.take k).length = piece.val := by
      rw [List.length_take]
      rcases Nat.le_total k piece.val.length with hle | hle
      · rw [Nat.min_eq_left hle, List.take_append_drop]
      · rw [Nat.min_eq_right hle, List.take_of_length_le hle, List.drop_length, List.append_nil]
    dsimp only
    split
    · next hzero =>
      have hnone : piece.val.take k = [] := by
        apply List.eq_nil_of_length_eq_zero
        rw [← hlen]
        exact hzero.2
      constructor
      · dsimp only
        rw [hk, hnone, List.append_nil, hpending, List.map_cons, List.flatten_cons]
        exact hreadable
      · exact h.fits
      · intro hrun'
        cases hrun'
      · exact h.order
    · constructor
      · dsimp only
        rw [flatten_unwritten, List.map_cons, List.flatten_cons]
        dsimp only
        rw [hlen, hk, List.append_assoc, ← List.append_assoc (piece.val.take k), hleft]
        exact hreadable
      · exact h.fits
      · exact h.running
      · exact h.order

theorem Sinks.step (h : Sinks t) (e : EndEvent) : Sinks (t.step e) := by
  cases e with
  | send data addr => exact h.send data addr
  | write limit => exact h.write limit
  | read room blocked => exact ⟨h.readable, h.fits, h.running, h.order⟩

/-- What an end does with its channel are calls. -/
theorem exchange_step (t : PacketEnd α) (e : EndEvent) :
    (t.step e).exchange = t.exchange ∨
      ∃ call, (t.step e).exchange = t.exchange.step call := by
  cases e with
  | send data addr =>
    left
    simp only [step, send]
    split <;> rfl
  | read room blocked => exact .inr ⟨.read room blocked, rfl⟩
  | write limit =>
    simp only [step, write]
    split
    · exact .inl rfl
    · left
      unfold take
      split
      · split <;> rfl
      · rfl
    · next piece rest _ _ =>
      right
      split <;> exact ⟨.write piece limit, rfl⟩

/-- An end in use. -/
structure Inv (send recv : EncryptionStrategy) (ks : Keystream) (wrPos rdPos : Nat)
    (incoming : Bytes) (t : PacketEnd α) : Prop where
  sinks : Sinks t
  channel : Exchange.Invariant send recv ks wrPos rdPos incoming t.exchange

variable {send recv : EncryptionStrategy} {ks : Keystream} {wrPos rdPos : Nat} {incoming : Bytes}

theorem inv_run {e : Endpoint α} (hsend : send.Counts) (hrecv : recv.Counts)
    (hwr : InStep send ks wrPos e.stream.wrCipher) (hrd : InStep recv ks rdPos e.stream.rdCipher)
    (events : List EndEvent) :
    Inv send recv ks wrPos rdPos e.source.unread (runFrom step (start e) events) := by
  apply runFrom_invariant
  · intro t event h
    refine ⟨h.sinks.step event, ?_⟩
    rcases t.exchange_step event with heq | ⟨call, heq⟩
    · rw [heq]
      exact h.channel
    · rw [heq]
      exact h.channel.step hsend hrecv call
  · exact ⟨sinks_start e, Exchange.invariant_start hwr hrd⟩

end PacketEnd

/-- The packets of a sink, as the stream at the other end has them. -/
def carriedPackets (packets : List (Bytes × Address)) : List (Bytes × Address) :=
  packets.map fun p ↦ (p.1, p.2.canonical)

/-- What the one end has yielded are the first of the datagrams that the other was given, and
all that were taken once nothing is left to write or to read. A sink that runs takes them all. -/
structure Crossed {α β : Type} (initial : Option Address) (sender : PacketEnd α)
    (receiver : PacketEnd β) : Prop where
  yielded : receiver.yielded initial <+: carriedPackets (sender.taken.map Prod.swap)
  taken : sender.taken.map Prod.swap <+: sender.offered
  complete : receiver.exchange.endpoint.source.unread = [] → sender.pending = [] →
    receiver.yielded initial = carriedPackets (sender.taken.map Prod.swap)
  drained : sender.stopped = false → sender.queue = [] →
    sender.taken.map Prod.swap = sender.offered

/-- A receiver whose wire is the sender's. -/
theorem crossed_of_inv {α β : Type} {s₁ s₂ s₃ : EncryptionStrategy} {ks : Keystream}
    {pos p q : Nat} {incoming wire : Bytes} {sender : PacketEnd α} {receiver : PacketEnd β}
    (hs : sender.Inv s₁ s₂ ks pos p incoming) (hr : receiver.Inv s₃ s₁ ks q pos wire)
    (hwire : wire = sender.exchange.wire) (initial : Option Address) :
    Crossed initial sender receiver := by
  obtain ⟨hfront, hall⟩ := delivered_of_invariant hs.channel hr.channel hwire
  obtain ⟨r, _, hread⟩ := hs.sinks.readable initial
  have hwhole : ((PacketReader.new initial).readAll (sender.exchange.accepted ++
      (sender.pending.map (·.val)).flatten)).1 =
        carriedPackets (sender.taken.map Prod.swap) := by
    have hnil := hread []
    rw [List.append_nil, PacketReader.readAll_nil] at hnil
    rw [hnil, List.append_nil, carriedPackets, List.map_map]
    rfl
  constructor
  case yielded =>
    obtain ⟨x, hx⟩ := hfront
    rw [← hwhole, ← hx, List.append_assoc]
    exact (PacketReader.new initial).yielded_mono _ _
  case taken => exact hs.sinks.order
  case complete =>
    intro hunread hpending
    rw [← hwhole, hpending, List.map_nil, List.flatten_nil, List.append_nil, ← hall hunread]
    rfl
  case drained =>
    intro hrun hqueue
    have hoffered := hs.sinks.running hrun
    rw [hqueue, List.append_nil] at hoffered
    exact hoffered

end Cpxy.TcpMan
