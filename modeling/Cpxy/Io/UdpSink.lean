import Cpxy.Base.Sink
import Cpxy.Net.SocketAddr

/-!
# The UDP sink

Library `Io`. Source `src/io/udp.rs:75–79` and `118–163`. Packets queue up in the sink, ten of
them at most, until a flush sends them off. Neither a full queue nor the end of the stream makes
anything flush it.
-/

namespace Cpxy.Io

open Cpxy.Base Cpxy.Net

/-- A packet and where it goes. -/
abbrev Packet := Bytes × SocketAddr

/-- What `send_to` of the socket below gives. -/
inductive SendTo where
  | ok
  | wouldBlock
  | failed (e : ErrorChain)

/-- The socket below. -/
structure Socket where
  pollWritable : Ready
  sendTo : Packet → SendTo

/-- A socket that is always writable and takes every packet. -/
def Socket.willing : Socket where
  pollWritable := .ready (.ok ())
  sendTo _ := .ok

/-- `UdpSocketSinkStream`; `udp.rs:75–79`: the queue, whether a waker is kept, and the packets
that the socket below has taken. -/
structure UdpSocketSinkStream where
  buffers : List Packet
  bufferWaker : Bool
  sent : List Packet

/-- `MAX_BUFFER_SIZE`; `udp.rs:118`. -/
def maxBufferSize : Nat := 10

namespace UdpSocketSinkStream

/-- `to_sink_stream`; `udp.rs:67–73`. -/
def new : UdpSocketSinkStream := ⟨[], false, []⟩

/-- `poll_ready`; `udp.rs:123–129`. -/
def pollReady (s : UdpSocketSinkStream) : Ready × UdpSocketSinkStream :=
  if maxBufferSize ≤ s.buffers.length then (.pending, { s with bufferWaker := true })
  else (.ready (.ok ()), s)

/-- `start_send`; `udp.rs:131–134`. -/
def startSend (item : Packet) (s : UdpSocketSinkStream) :
    Outcome ErrorChain Unit × UdpSocketSinkStream :=
  (.ok (), { s with buffers := s.buffers ++ [item] })

/-- The loop of `udp.rs:138–149` over the queue, with the packets taken before it. -/
def flushBuffers (socket : Socket) (sent : List Packet) :
    List Packet → Ready × List Packet × List Packet
  | [] => (.ready (.ok ()), [], sent)
  | packet :: buffers =>
    match socket.sendTo packet with
    | .ok => flushBuffers socket (sent ++ [packet]) buffers
    | .wouldBlock => (.pending, packet :: buffers, sent)
    | .failed e => (.ready (.err e), packet :: buffers, sent)

/-- `poll_flush`; `udp.rs:136–154`. A flush that gets to its end wakes the waker that is kept. -/
def pollFlush (socket : Socket) (s : UdpSocketSinkStream) : Ready × UdpSocketSinkStream :=
  match socket.pollWritable with
  | .ready (.ok ()) =>
    match flushBuffers socket s.sent s.buffers with
    | (.ready (.ok ()), buffers, sent) => (.ready (.ok ()), ⟨buffers, false, sent⟩)
    | (p, buffers, sent) => (p, ⟨buffers, s.bufferWaker, sent⟩)
  | p => (p, s)

/-- `poll_close`; `udp.rs:156–158`. -/
def pollClose (s : UdpSocketSinkStream) : Ready × UdpSocketSinkStream := (.ready (.ok ()), s)

end UdpSocketSinkStream

/-- `Sink for UdpSocketSinkStream`; `udp.rs:120–159`. -/
def udpSink (socket : Socket) : Sink UdpSocketSinkStream Packet where
  pollReady := UdpSocketSinkStream.pollReady
  startSend := UdpSocketSinkStream.startSend
  pollFlush := UdpSocketSinkStream.pollFlush socket
  pollClose := UdpSocketSinkStream.pollClose

/-- A flush, which nothing here makes, would send the queue off. -/
theorem pollFlush_willing (s : UdpSocketSinkStream) :
    s.pollFlush .willing = (.ready (.ok ()), ⟨[], false, s.sent ++ s.buffers⟩) := by
  have hloop (sent buffers : List Packet) :
      UdpSocketSinkStream.flushBuffers .willing sent buffers =
        (.ready (.ok ()), [], sent ++ buffers) := by
    induction buffers generalizing sent with
    | nil => rw [UdpSocketSinkStream.flushBuffers, List.append_nil]
    | cons packet buffers ih =>
      have hsend : Socket.willing.sendTo packet = .ok := rfl
      rw [UdpSocketSinkStream.flushBuffers, hsend]
      dsimp only
      rw [ih, List.append_assoc, List.singleton_append]
  have hwritable : Socket.willing.pollWritable = .ready (.ok ()) := rfl
  rw [UdpSocketSinkStream.pollFlush, hwritable, hloop]

/-- Polling without a flush sends nothing. -/
theorem sent_contract (socket : Socket) (sent : List Packet) :
    Contract (Forward.poll (udpSink socket)) (fun f ↦ none ∉ f.stream ∧ f.sink.sent = sent)
      fun _ f ↦ f.sink.sent = sent := by
  apply Forward.contract (I := fun s : UdpSocketSinkStream ↦ s.sent = sent)
  · intro s hs
    change (UdpSocketSinkStream.pollReady s).2.sent = sent
    rw [UdpSocketSinkStream.pollReady]
    split <;> exact hs
  · intro packet s hs
    exact hs
  · intro s hs
    exact hs

/-- A packet joins the queue if there is room, and otherwise the task keeps it and waits. -/
theorem handOver_packet (socket : Socket) (packet : Packet) (s : UdpSocketSinkStream) :
    Forward.handOver (udpSink socket) (some packet) s =
      if maxBufferSize ≤ s.buffers.length then
        (some .pending, some packet, { s with bufferWaker := true })
      else (none, none, { s with buffers := s.buffers ++ [packet] }) := by
  have hready : (udpSink socket).pollReady = UdpSocketSinkStream.pollReady := rfl
  rw [Forward.handOver, hready, UdpSocketSinkStream.pollReady]
  by_cases hfull : maxBufferSize ≤ s.buffers.length
  · rw [if_pos hfull, if_pos hfull]
  · rw [if_neg hfull, if_neg hfull]
    rfl

/-- What becomes of packets that are all there, on a queue with room: they are queued, and when
they do not fit, the task stops in front of the first that does not. -/
theorem pollFrom_packets (socket : Socket) (packets : List Packet) (next : Option Packet)
    (s : UdpSocketSinkStream) (hroom : s.buffers.length ≤ maxBufferSize) :
    let all := next.toList ++ packets
    let room := maxBufferSize - s.buffers.length
    Forward.pollFrom (udpSink socket) (packets.map some) next s =
      if all.length ≤ room then
        (.ready (.ok ()), ⟨[], none, { s with buffers := s.buffers ++ all }⟩)
      else
        (.pending, ⟨(all.drop (room + 1)).map some, all[room]?,
          { s with buffers := s.buffers ++ all.take room, bufferWaker := true }⟩) := by
  have hclose : (udpSink socket).pollClose = UdpSocketSinkStream.pollClose := rfl
  induction packets generalizing next s with
  | nil =>
    cases next with
    | none => simp [Forward.pollFrom, Forward.handOver, hclose, UdpSocketSinkStream.pollClose]
    | some packet =>
      rw [List.map_nil, Forward.pollFrom, handOver_packet]
      by_cases hfull : maxBufferSize ≤ s.buffers.length
      · have hnone : maxBufferSize - s.buffers.length = 0 := by omega
        simp [hfull, hnone]
      · have hsome : 1 ≤ maxBufferSize - s.buffers.length := by omega
        simp [hfull, hsome, hclose, UdpSocketSinkStream.pollClose]
  | cons p packets ih =>
    have hnext (s : UdpSocketSinkStream) (h : s.buffers.length ≤ maxBufferSize) := ih (some p) s h
    simp only [Option.toList_some, List.singleton_append] at hnext
    cases next with
    | none =>
      rw [List.map_cons, Forward.pollFrom, Forward.handOver]
      exact hnext s hroom
    | some packet =>
      rw [List.map_cons, Forward.pollFrom, handOver_packet]
      by_cases hfull : maxBufferSize ≤ s.buffers.length
      · have hnone : maxBufferSize - s.buffers.length = 0 := by omega
        simp [hfull, hnone]
      · -- one place less in the queue for one packet less
        obtain ⟨room, hsome⟩ : ∃ room, maxBufferSize - s.buffers.length = room + 1 :=
          Nat.exists_eq_add_one.mpr (by omega)
        have hpush := hnext { s with buffers := s.buffers ++ [packet] } (by
          rw [List.length_append, List.length_singleton]
          omega)
        have hless : maxBufferSize - (s.buffers ++ [packet]).length = room := by
          rw [List.length_append, List.length_singleton]
          omega
        rw [if_neg hfull]
        dsimp only at hpush ⊢
        rw [hpush, hless, hsome]
        simp

/-- The task that waits in front of a full queue. -/
def stuck (packets : List Packet) : Forward UdpSocketSinkStream Packet where
  stream := (packets.drop (maxBufferSize + 1)).map some
  buffered := packets[maxBufferSize]?
  sink := ⟨packets.take maxBufferSize, true, []⟩

theorem poll_start (socket : Socket) (packets : List Packet) :
    Forward.poll (udpSink socket) (.start packets .new) () =
      if packets.length ≤ maxBufferSize then (.ready (.ok ()), ⟨[], none, ⟨packets, false, []⟩⟩)
      else (.pending, stuck packets) := by
  rw [Forward.poll, Forward.start, pollFrom_packets _ _ _ _ (Nat.zero_le _)]
  rfl

theorem poll_stuck (socket : Socket) {packets : List Packet} (h : maxBufferSize < packets.length) :
    Forward.poll (udpSink socket) (stuck packets) () = (.pending, stuck packets) := by
  have hlen : (packets.take maxBufferSize).length = maxBufferSize :=
    List.length_take_of_le (Nat.le_of_lt h)
  have hmore : packets.length - maxBufferSize ≠ 0 := by omega
  rw [Forward.poll, stuck, pollFrom_packets _ _ _ _ (Nat.le_of_eq hlen)]
  simp [hlen, h, hmore]

theorem runTask_stuck (socket : Socket) {packets : List Packet}
    (h : maxBufferSize < packets.length) (polls : List Unit) :
    runTask (Forward.poll (udpSink socket)) (stuck packets) polls = (none, stuck packets) := by
  induction polls with
  | nil => rfl
  | cons poll polls ih =>
    rw [runTask, poll_stuck socket h]
    exact ih

/-- What forwarding packets comes to, however often it is polled: those that fit into the queue
are left there, and with more, all of the task is stuck. -/
theorem forward_outcome (socket : Socket) (packets : List Packet) (poll : Unit)
    (polls : List Unit) :
    runTask (Forward.poll (udpSink socket)) (.start packets .new) (poll :: polls) =
      if packets.length ≤ maxBufferSize then (some (.ok ()), ⟨[], none, ⟨packets, false, []⟩⟩)
      else (none, stuck packets) := by
  rw [runTask, poll_start]
  by_cases h : packets.length ≤ maxBufferSize
  · rw [if_pos h, if_pos h]
  · rw [if_neg h, if_neg h]
    exact runTask_stuck socket (Nat.lt_of_not_le h) polls

/-- Forwarding completes with every packet sent, once and in order, exactly when there is none. -/
theorem forward_sends_all_iff (packets : List Packet) :
    (∃ polls f,
      runTask (Forward.poll (udpSink .willing)) (.start packets .new) polls = (some (.ok ()), f) ∧
        f.sink.sent = packets) ↔ packets = [] := by
  constructor
  · rintro ⟨polls, f, hrun, hsent⟩
    have hstart : none ∉ (Forward.start packets UdpSocketSinkStream.new).stream := by
      simp [Forward.start]
    rcases (sent_contract .willing []).run ⟨hstart, rfl⟩ hrun with ⟨hnone, _⟩ | ⟨_, _, hnothing⟩
    · cases hnone
    · exact hsent.symm.trans hnothing
  · rintro rfl
    exact ⟨[()], _, forward_outcome .willing [] () [], rfl⟩

/-- Packets that the task completes with, without having sent them. -/
theorem forward_loses_packet :
    ¬ ∀ packets : List Packet, ∃ polls f,
      runTask (Forward.poll (udpSink .willing)) (.start packets .new) polls = (some (.ok ()), f) ∧
        f.sink.sent = packets := by
  intro h
  obtain ⟨polls, f, hrun, hsent⟩ := h [([1], .v4 ⟨0x7F000001⟩ 53)]
  cases polls with
  | nil => cases hrun
  | cons poll polls =>
    rw [forward_outcome, if_pos (by decide)] at hrun
    cases hrun
    cases hsent

end Cpxy.Io
