import Cpxy.Base.Run
import Cpxy.Net.Address
import Cpxy.UdpMan.Proto

/-!
# The udpman client

Library `UdpMan`. Source `src/protocol/udpman/client.rs:31–175` and `src/io/udp.rs:78–106`. A
session asks the server for a connection and waits for an answer with its uuid. Only then do
datagrams pass, in either direction. The socket is connected to nobody: what the client sends
goes to wherever the latest datagram came from.
-/

namespace Cpxy.UdpMan

open Cpxy.Base Cpxy.Net

/-- What the application is told instead of a datagram; `client.rs:74–119`. The texts of the
last two name the uuids' mismatch and the message. -/
inductive SessionError where
  | timeout
  | closed
  | failed (e : ErrorChain)
  | uuidMismatch
  | invalidFirst (msg : Message)
  deriving DecidableEq, Repr

/-- How far a session is. -/
inductive SessionPhase where
  | waiting
  | established (connId : UInt16)
  | closed
  deriving DecidableEq, Repr

/-- A session: its uuid and destination, the cell of `to_connected`, the channel from the
application and what went into the channel to it. `heard` remembers what was read. -/
structure ClientSession where
  uuid : Bytes
  initialDst : SocketAddr
  lastAddr : SocketAddr
  phase : SessionPhase
  outgoing : List Bytes
  incoming : List (Outcome SessionError (Bytes × Address))
  /-- The application has let go of its stream. -/
  dropped : Bool
  heard : List Bytes

namespace ClientSession

/-- The connect message; `client.rs:48–56`. -/
def connectMessage (uuid initialData : Bytes) (initialDst : SocketAddr) : Message :=
  .connect uuid initialData none initialDst

/-- The session when the connect message is sent. -/
def start (uuid : Bytes) (initialDst upstreamAddr : SocketAddr) : ClientSession :=
  ⟨uuid, initialDst, upstreamAddr, .waiting, [], [], false, []⟩

/-- The room of `channel(2)` with one sender; `client.rs:63`. -/
def capacity : Nat := 3

/-- An item for the application, if it still listens. -/
def push (s : ClientSession) (item : Outcome SessionError (Bytes × Address)) : ClientSession :=
  if s.dropped then s else { s with incoming := s.incoming ++ [item] }

/-- The session ends with an error for the application. -/
def fail (s : ClientSession) (e : SessionError) : ClientSession :=
  { s.push (.err e) with phase := .closed }

/-- The first message; `client.rs:74–129`. -/
def first (s : ClientSession) : Outcome ErrorChain Message → ClientSession
  | .ok (.establish receivedUuid connId initialReply) =>
    if s.uuid ≠ receivedUuid then s.fail .uuidMismatch
    else
      let s :=
        match initialReply with
        | some (data, addr) => s.push (.ok (data, .ip addr))
        | none => s
      { s with phase := if s.dropped then .closed else .established connId }
  | .ok msg => s.fail (.invalidFirst msg)
  | .err e => s.fail (.failed e)
  | .panicked => { s with phase := .closed }

/-- Every further message; `client.rs:144–158`. -/
def next (s : ClientSession) : Outcome ErrorChain Message → ClientSession
  | .ok (.data _ addr payload _) =>
    if s.dropped then { s with phase := .closed }
    else s.push (.ok (payload, .ip (addr.getD s.initialDst)))
  | .ok _ => s
  | _ => { s with phase := .closed }

/-- A datagram is read from the socket; `udp.rs:96–98` and `proto.rs:369`. -/
def receive (s : ClientSession) (buf : Bytes) (src : SocketAddr) : ClientSession :=
  match s.phase with
  | .waiting => { s.first (Message.parse buf) with lastAddr := src, heard := s.heard ++ [buf] }
  | .established _ =>
    { s.next (Message.parse buf) with lastAddr := src, heard := s.heard ++ [buf] }
  | .closed => s

/-- The application gives the session a datagram; its own destination is not looked at. -/
def queue (s : ClientSession) (data : Bytes) : ClientSession :=
  if s.phase ≠ .closed ∧ s.outgoing.length < capacity then
    { s with outgoing := s.outgoing ++ [data] }
  else s

/-- The upload task takes a datagram, and what it sends; `client.rs:131–143`. -/
def upload (s : ClientSession) : Option (ClientSession × UInt16 × Bytes) :=
  match s.phase, s.outgoing with
  | .established connId, data :: rest => some ({ s with outgoing := rest }, connId, data)
  | _, _ => none

/-- The message it sends. -/
def dataMessage (connId : UInt16) (data : Bytes) : Message := .data (some connId) none data none

/-- The wait for the first message ends without one, or reading fails; `client.rs:75–92` and
`145`. After the first message an error goes to the log only. -/
def interrupt (s : ClientSession) (e : SessionError) : ClientSession :=
  match s.phase with
  | .waiting => s.fail e
  | _ => { s with phase := .closed }

/-- The application lets go of its stream. -/
def drop (s : ClientSession) : ClientSession := { s with dropped := true }

/-! ### What the application is given -/

/-- The datagrams among the items. -/
def delivered (s : ClientSession) : List (Bytes × Address) :=
  s.incoming.filterMap fun
    | .ok item => some item
    | _ => none

/-- What a further message holds. -/
def laterItem (initialDst : SocketAddr) (buf : Bytes) : Option (Bytes × Address) :=
  match Message.parse buf with
  | .ok (.data _ addr payload _) => some (payload, .ip (addr.getD initialDst))
  | _ => none

/-- What a session with this uuid makes of the datagrams it reads: nothing, unless the first of
them is the answer to its request. -/
def reads (uuid : Bytes) (initialDst : SocketAddr) : List Bytes → List (Bytes × Address)
  | [] => []
  | buf :: rest =>
    match Message.parse buf with
    | .ok (.establish receivedUuid _ initialReply) =>
      if uuid = receivedUuid then
        (initialReply.map fun r ↦ (r.1, Address.ip r.2)).toList ++
          rest.filterMap (laterItem initialDst)
      else []
    | _ => []

theorem reads_answer {uuid buf : Bytes} {initialDst : SocketAddr} {connId : UInt16}
    {initialReply : Option (Bytes × SocketAddr)}
    (h : Message.parse buf = .ok (.establish uuid connId initialReply)) (rest : List Bytes) :
    reads uuid initialDst (buf :: rest) =
      (initialReply.map fun r ↦ (r.1, Address.ip r.2)).toList ++
        rest.filterMap (laterItem initialDst) := by
  simp [reads, h]

/-- What holds of a session at any time. -/
structure Inv (s : ClientSession) : Prop where
  /-- The application was given what the datagrams hold, and all of it while the session lasts. -/
  given : s.delivered <+: reads s.uuid s.initialDst s.heard
  complete : s.phase ≠ .closed → s.delivered = reads s.uuid s.initialDst s.heard
  silent : s.phase = .waiting → s.heard = []
  answered : ∀ connId, s.phase = .established connId → ∃ buf rest initialReply,
    s.heard = buf :: rest ∧ Message.parse buf = .ok (.establish s.uuid connId initialReply)

theorem inv_start (uuid : Bytes) (initialDst upstreamAddr : SocketAddr) :
    Inv (start uuid initialDst upstreamAddr) where
  given := List.prefix_rfl
  complete _ := rfl
  silent _ := rfl
  answered := by
    intro connId h
    cases h

variable {s s' : ClientSession}

@[simp] theorem delivered_push_ok (s : ClientSession) (item : Bytes × Address) :
    (s.push (.ok item)).delivered = s.delivered ++ if s.dropped then [] else [item] := by
  unfold push
  split <;> simp [delivered]

@[simp] theorem delivered_push_err (s : ClientSession) (e : SessionError) :
    (s.push (.err e)).delivered = s.delivered := by
  unfold push
  split <;> simp [delivered]

/-- A session that ends keeps what it has given. -/
theorem Inv.end_ (h : Inv s) (hphase : s'.phase = .closed) (hdelivered : s'.delivered = s.delivered)
    (hsame : s'.uuid = s.uuid ∧ s'.initialDst = s.initialDst)
    (hheard : reads s.uuid s.initialDst s.heard <+: reads s.uuid s.initialDst s'.heard) :
    Inv s' where
  given := by
    rw [hsame.1, hsame.2, hdelivered]
    exact h.given.trans hheard
  complete hne := absurd hphase hne
  silent := by
    intro hw
    rw [hphase] at hw
    cases hw
  answered := by
    intro connId he
    rw [hphase] at he
    cases he

theorem inv_established {connId : UInt16} (hphase : s.phase = .established connId)
    (hdelivered : s.delivered = reads s.uuid s.initialDst s.heard)
    (hanswered : ∃ buf rest initialReply, s.heard = buf :: rest ∧
      Message.parse buf = .ok (.establish s.uuid connId initialReply)) : Inv s where
  given := ⟨[], by rw [List.append_nil, hdelivered]⟩
  complete _ := hdelivered
  silent := by
    intro hw
    rw [hphase] at hw
    cases hw
  answered := by
    intro connId' he
    rw [hphase] at he
    cases he
    exact hanswered

/-- Before the answer nothing was given. -/
theorem Inv.nothing (h : Inv s) (hw : s.phase = .waiting) : s.delivered = [] := by
  have hc := h.complete (by rw [hw]; decide)
  rw [h.silent hw] at hc
  exact hc

/-- The answer to the request, or what comes in its place. -/
theorem Inv.first (h : Inv s) (hw : s.phase = .waiting) (buf : Bytes) (src : SocketAddr) :
    Inv { s.first (Message.parse buf) with lastAddr := src, heard := s.heard ++ [buf] } := by
  have hheard := h.silent hw
  have hnothing := h.nothing hw
  have hend : reads s.uuid s.initialDst s.heard <+:
      reads s.uuid s.initialDst (s.heard ++ [buf]) := by
    rw [hheard]
    exact List.nil_prefix
  have hfail : ∀ e, Inv { s.fail e with lastAddr := src, heard := s.heard ++ [buf] } := by
    intro e
    refine h.end_ rfl ?_ ?_ hend
    · exact delivered_push_err s e
    · unfold fail push
      split <;> exact ⟨rfl, rfl⟩
  unfold ClientSession.first
  cases hparse : Message.parse buf with
  | err e => exact hfail _
  | panicked => exact h.end_ rfl rfl ⟨rfl, rfl⟩ hend
  | ok msg =>
    cases msg with
    | connect uuid initialData nonce dst => exact hfail _
    | data connId addr payload nonce => exact hfail _
    | establish receivedUuid connId initialReply =>
      dsimp only
      split
      · exact hfail _
      · next huuid =>
        rw [not_not] at huuid
        subst huuid
        have hreads : reads s.uuid s.initialDst (s.heard ++ [buf]) =
            (initialReply.map fun r ↦ (r.1, Address.ip r.2)).toList := by
          rw [hheard, List.nil_append, reads_answer hparse]
          simp
        have hopen : ∀ s' : ClientSession, s'.uuid = s.uuid → s'.initialDst = s.initialDst →
            s'.phase = .established connId → s'.heard = s.heard ++ [buf] →
            s'.delivered = (initialReply.map fun r ↦ (r.1, Address.ip r.2)).toList → Inv s' := by
          intro s' huuid hdst hphase hheard' hdelivered
          apply inv_established hphase
          · rw [huuid, hdst, hheard', hreads, hdelivered]
          · refine ⟨buf, [], initialReply, ?_, ?_⟩
            · rw [hheard', hheard]
              rfl
            · rw [huuid]
              exact hparse
        cases hdropped : s.dropped with
        | false =>
          cases initialReply with
          | none => exact hopen _ rfl rfl (by simp [hdropped]) rfl hnothing
          | some r =>
            refine hopen _ ?_ ?_ ?_ rfl ?_
            · simp [push, hdropped]
            · simp [push, hdropped]
            · simp [push, hdropped]
            · have hpush := delivered_push_ok s (r.1, Address.ip r.2)
              rw [hnothing, hdropped] at hpush
              exact hpush
        | true =>
          cases initialReply with
          | none => exact h.end_ (by simp [hdropped]) rfl ⟨rfl, rfl⟩ hend
          | some r =>
            have hpush : s.push (.ok (r.1, Address.ip r.2)) = s := by simp [push, hdropped]
            simp only [hpush]
            exact h.end_ (by simp [hdropped]) rfl ⟨rfl, rfl⟩ hend

theorem Inv.next (h : Inv s) {connId : UInt16} (he : s.phase = .established connId) (buf : Bytes)
    (src : SocketAddr) :
    Inv { s.next (Message.parse buf) with lastAddr := src, heard := s.heard ++ [buf] } := by
  obtain ⟨answer, rest, initialReply, hheard, hanswer⟩ := h.answered connId he
  have hcomplete := h.complete (by rw [he]; simp)
  have hreads : reads s.uuid s.initialDst (s.heard ++ [buf]) =
      s.delivered ++ (laterItem s.initialDst buf).toList := by
    rw [hcomplete, hheard, List.cons_append, reads_answer hanswer, reads_answer hanswer,
      List.filterMap_append, ← List.append_assoc]
    rw [List.filterMap_cons, List.filterMap_nil]
    cases laterItem s.initialDst buf <;> rfl
  have hend : reads s.uuid s.initialDst s.heard <+:
      reads s.uuid s.initialDst (s.heard ++ [buf]) := by
    rw [hreads, ← hcomplete]
    exact List.prefix_append _ _
  have hgo : ∀ s' : ClientSession, s'.uuid = s.uuid → s'.initialDst = s.initialDst →
      s'.phase = s.phase → s'.heard = s.heard ++ [buf] →
      s'.delivered = s.delivered ++ (laterItem s.initialDst buf).toList → Inv s' := by
    intro s' huuid hdst hphase hheard' hdelivered
    apply inv_established (hphase.trans he)
    · rw [huuid, hdst, hheard', hreads, hdelivered]
    · refine ⟨answer, rest ++ [buf], initialReply, ?_, ?_⟩
      · rw [hheard', hheard]
        rfl
      · rw [huuid]
        exact hanswer
  unfold ClientSession.next
  cases hparse : Message.parse buf with
  | err e => exact h.end_ rfl rfl ⟨rfl, rfl⟩ hend
  | panicked => exact h.end_ rfl rfl ⟨rfl, rfl⟩ hend
  | ok msg =>
    cases msg with
    | connect uuid initialData nonce dst =>
      refine hgo _ rfl rfl rfl rfl ?_
      simp [laterItem, hparse, delivered]
    | establish uuid connId initialReply =>
      refine hgo _ rfl rfl rfl rfl ?_
      simp [laterItem, hparse, delivered]
    | data connId addr payload nonce =>
      dsimp only
      split
      · exact h.end_ rfl rfl ⟨rfl, rfl⟩ hend
      · next hdropped =>
        refine hgo _ ?_ ?_ ?_ rfl ?_
        · simp [push, hdropped]
        · simp [push, hdropped]
        · simp [push, hdropped]
        · have hpush := delivered_push_ok s (payload, Address.ip (addr.getD s.initialDst))
          rw [if_neg hdropped] at hpush
          simp only [laterItem, hparse]
          exact hpush

theorem Inv.receive (h : Inv s) (buf : Bytes) (src : SocketAddr) : Inv (s.receive buf src) := by
  unfold ClientSession.receive
  split
  · next hw => exact h.first hw buf src
  · next connId he => exact h.next he buf src
  · exact h

/-- Whatever leaves alone what the session has read and given. -/
theorem Inv.frame (h : Inv s) (hphase : s'.phase = s.phase) (hdelivered : s'.delivered = s.delivered)
    (hsame : s'.uuid = s.uuid ∧ s'.initialDst = s.initialDst ∧ s'.heard = s.heard) : Inv s' := by
  obtain ⟨huuid, hdst, hheard⟩ := hsame
  constructor
  · rw [huuid, hdst, hheard, hdelivered]
    exact h.given
  · rw [huuid, hdst, hheard, hdelivered, hphase]
    exact h.complete
  · rw [hheard, hphase]
    exact h.silent
  · rw [huuid, hheard, hphase]
    exact h.answered

theorem Inv.queue (h : Inv s) (data : Bytes) : Inv (s.queue data) := by
  unfold ClientSession.queue
  split
  · exact h.frame rfl rfl ⟨rfl, rfl, rfl⟩
  · exact h

theorem upload_eq_some {connId : UInt16} {data : Bytes} (h : s.upload = some (s', connId, data)) :
    s.phase = .established connId ∧ ∃ rest, s.outgoing = data :: rest ∧
      s' = { s with outgoing := rest } := by
  unfold upload at h
  split at h
  · next hphase houtgoing =>
    cases h
    exact ⟨hphase, _, houtgoing, rfl⟩
  · cases h

theorem Inv.upload (h : Inv s) {connId : UInt16} {data : Bytes}
    (hup : s.upload = some (s', connId, data)) : Inv s' := by
  obtain ⟨_, rest, _, rfl⟩ := upload_eq_some hup
  exact h.frame rfl rfl ⟨rfl, rfl, rfl⟩

theorem Inv.interrupt (h : Inv s) (e : SessionError) : Inv (s.interrupt e) := by
  unfold ClientSession.interrupt
  split
  · refine h.end_ rfl (delivered_push_err s e) ?_ ?_
    · unfold fail push
      split <;> exact ⟨rfl, rfl⟩
    · unfold fail push
      split <;> exact List.prefix_rfl
  · exact h.end_ rfl rfl ⟨rfl, rfl⟩ List.prefix_rfl

/-- A push leaves everything but the items alone. -/
theorem push_same (s : ClientSession) (item : Outcome SessionError (Bytes × Address)) :
    (s.push item).uuid = s.uuid ∧ (s.push item).initialDst = s.initialDst ∧
      (s.push item).lastAddr = s.lastAddr ∧ (s.push item).heard = s.heard := by
  unfold push
  split <;> exact ⟨rfl, rfl, rfl, rfl⟩

theorem interrupt_same (s : ClientSession) (e : SessionError) :
    (s.interrupt e).uuid = s.uuid ∧ (s.interrupt e).initialDst = s.initialDst ∧
      (s.interrupt e).lastAddr = s.lastAddr ∧ (s.interrupt e).heard = s.heard := by
  unfold ClientSession.interrupt
  split
  · exact push_same s _
  · exact ⟨rfl, rfl, rfl, rfl⟩

/-- Until it is closed, a session reads every datagram and notes where it came from. -/
theorem receive_of_open (h : s.phase ≠ .closed) (buf : Bytes) (src : SocketAddr) :
    (s.receive buf src).uuid = s.uuid ∧ (s.receive buf src).initialDst = s.initialDst ∧
      (s.receive buf src).lastAddr = src ∧ (s.receive buf src).heard = s.heard ++ [buf] := by
  have hfirst : ∀ m, (s.first m).uuid = s.uuid ∧ (s.first m).initialDst = s.initialDst := by
    intro m
    have hpush := fun item ↦ push_same s item
    unfold ClientSession.first
    split
    · split
      · exact ⟨(hpush _).1, (hpush _).2.1⟩
      · split
        · exact ⟨(hpush _).1, (hpush _).2.1⟩
        · exact ⟨rfl, rfl⟩
    · exact ⟨(hpush _).1, (hpush _).2.1⟩
    · exact ⟨(hpush _).1, (hpush _).2.1⟩
    · exact ⟨rfl, rfl⟩
  have hnext : ∀ m, (s.next m).uuid = s.uuid ∧ (s.next m).initialDst = s.initialDst := by
    intro m
    unfold ClientSession.next
    split
    · split
      · exact ⟨rfl, rfl⟩
      · exact ⟨(push_same s _).1, (push_same s _).2.1⟩
    · exact ⟨rfl, rfl⟩
    · exact ⟨rfl, rfl⟩
  unfold ClientSession.receive
  split
  · exact ⟨(hfirst _).1, (hfirst _).2, rfl, rfl⟩
  · exact ⟨(hnext _).1, (hnext _).2, rfl, rfl⟩
  · next hclosed => exact absurd hclosed h

theorem Inv.drop (h : Inv s) : Inv s.drop := h.frame rfl rfl ⟨rfl, rfl, rfl⟩

end ClientSession
end Cpxy.UdpMan
