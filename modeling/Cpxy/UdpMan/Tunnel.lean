import Cpxy.Base.Network
import Cpxy.UdpMan.Client
import Cpxy.UdpMan.Serving

/-!
# A udpman session between its two ends

Library `UdpMan`. Source `src/protocol/udpman/client.rs` and `src/protocol/udpman/server.rs`. One
session of the client and the server with all its connections, over a network that loses, repeats
and reorders. Other clients send the server whatever they like. A connect message that arrives
twice makes two connections, and both send to the client.
-/

namespace Cpxy.UdpMan

open Cpxy.Base Cpxy.Net

/-- The session, the server, the network between them, and the datagrams the session has sent
after its connect message. -/
structure Tunnel where
  client : ClientSession
  serving : Serving
  toServer : Wire (Bytes × SocketAddr)
  toClient : Wire Output
  uploaded : List (UInt16 × Bytes)

/-- What happens. -/
inductive TunnelEvent where
  /-- The application gives the session a datagram. -/
  | queues (data : Bytes)
  /-- The session sends one on. -/
  | uploads
  /-- A datagram of the server is read by the session, with this source address. -/
  | clientGets (i : Nat) (src : SocketAddr)
  /-- The session's timer fires, or its socket fails. -/
  | interrupted (e : SessionError)
  /-- The application lets go of its stream. -/
  | drops
  /-- A datagram of the session is read by the server. -/
  | serverGets (i : Nat)
  /-- One of another client is, or a task of the server takes a step. -/
  | serverSees (e : ServingEvent)

/-- The addresses of the server, and the address of the session's socket. -/
structure Ends where
  isServer : SocketAddr → Bool
  client : SocketAddr

namespace Tunnel

/-- `new_datagram` up to the session's tasks, at a server without connections; `client.rs:31–71`. -/
def open_ (uuid initialData : Bytes) (initialDst upstreamAddr : SocketAddr) :
    Outcome ErrorChain Tunnel := do
  let buf ← (ClientSession.connectMessage uuid initialData initialDst).toBytes
  .ok {
    client := .start uuid initialDst upstreamAddr
    serving := .start
    toServer := Wire.empty.send (buf, upstreamAddr)
    toClient := .empty
    uploaded := [] }

/-- The server takes a step; what it sends to the session goes on the wire. -/
def serverStep (ends : Ends) (s : Tunnel) (e : ServingEvent) : Tunnel :=
  let serving := s.serving.step e
  let out := (serving.sent.drop s.serving.sent.length).filter fun o ↦ o.dst = ends.client
  { s with serving := serving, toClient := s.toClient.sendAll out }

/-- One step. A session that is closed leaves datagrams unread. -/
def step (ends : Ends) (s : Tunnel) : TunnelEvent → Tunnel
  | .queues data => { s with client := s.client.queue data }
  | .uploads =>
    match s.client.upload with
    | none => s
    | some (client, connId, data) =>
      match (ClientSession.dataMessage connId data).toBytes with
      | .ok buf =>
        { s with
          client := client
          toServer := s.toServer.send (buf, s.client.lastAddr)
          uploaded := s.uploaded ++ [(connId, data)] }
      | _ => { s with client := client.interrupt .closed }
  | .clientGets i src =>
    match s.toClient.arrive i with
    | none => s
    | some (o, wire) =>
      if ends.isServer src ∧ s.client.phase ≠ .closed then
        { s with client := s.client.receive o.buf src, toClient := wire }
      else s
  | .interrupted e => { s with client := s.client.interrupt e }
  | .drops => { s with client := s.client.drop }
  | .serverGets i =>
    match s.toServer.arrive i with
    | none => s
    | some ((buf, dst), wire) =>
      if ends.isServer dst then
        serverStep ends { s with toServer := wire } (.datagram buf ends.client)
      else s
  | .serverSees e =>
    if e.arrival.any fun d ↦ d.2 = ends.client then s else s.serverStep ends e

/-- The datagrams of the session that have arrived with an id. -/
def arrivedWith (s : Tunnel) (id : UInt16) : List Bytes :=
  (s.toServer.pick (none :: s.uploaded.map some)).filterMap fun u ↦
    u.bind fun d ↦ if d.1 = id then some d.2 else none

end Tunnel

/-- What a later datagram from upstream becomes: the destination itself is the one that the
application named. -/
def Content.later? (initialDst : SocketAddr) : Content → Option (Bytes × Address)
  | .opening _ => none
  | .later data addr =>
    some (data, .ip (if addr = initialDst.canonical then initialDst else addr.canonical))

/-- What the application is given of the datagrams that arrive, in the order of arrival. -/
def expected (initialDst : SocketAddr) : List Content → List (Bytes × Address)
  | .opening reply :: rest =>
    (reply.map fun r ↦ (r.1, Address.ip r.2.canonical)).toList ++
      rest.filterMap (Content.later? initialDst)
  | _ => []

/-- What comes out of a session is what went into it. -/
structure Tunnelled (ends : Ends) (uuid initialData : Bytes) (initialDst : SocketAddr)
    (s : Tunnel) : Prop where
  /-- The application was given what arrived, and all of it while the session lasts. -/
  delivered : s.client.delivered <+:
    expected initialDst ((s.toClient.pick s.toClient.sent).map (·.content))
  complete : s.client.phase ≠ .closed → s.client.delivered =
    expected initialDst ((s.toClient.pick s.toClient.sent).map (·.content))
  /-- The connections that send to it are those that it asked for. -/
  asked : ∀ (t : Nat) (conn : ConnState), s.serving.conns[t]? = some conn → conn.src = ends.client →
    conn.uuid = uuid ∧ conn.initialData = initialData ∧ conn.dst = initialDst.canonical
  /-- They send what they receive from upstream, and nobody else does. -/
  relayed : ∀ (t : Nat) (conn : ConnState), s.serving.conns[t]? = some conn →
    (s.toClient.sent.filter (·.conn = t)).map (·.content) =
      if conn.src = ends.client then conn.contents else []
  /-- What any connection accepts from it has arrived with that connection's id. -/
  accepted : ∀ (t : Nat) (conn : ConnState), s.serving.conns[t]? = some conn → ∃ task,
    s.serving.server.tasks[t]? = some task ∧
      ((conn.accepted.filter (·.2 = ends.client)).map (·.1)).Sublist (s.arrivedWith task.id) ∧
      conn.upstreamSent <+: conn.opener ++ conn.accepted.map (·.1)
  /-- And that is the id of a connection that it asked for. -/
  addressed : ∀ u ∈ s.uploaded, ∃ t : Nat, ∃ conn : ConnState, ∃ task : ConnTask,
    s.serving.conns[t]? = some conn ∧
    s.serving.server.tasks[t]? = some task ∧ conn.src = ends.client ∧ task.id = u.1

namespace Tunnel

/-! ### Every step -/

/-- Beside the two ends' own invariants: what is on the wires, and what was read of it. -/
structure Inv (ends : Ends) (uuid initialData : Bytes) (initialDst : SocketAddr)
    (s : Tunnel) : Prop where
  serving : s.serving.Inv
  client : s.client.Inv
  same : s.client.uuid = uuid ∧ s.client.initialDst = initialDst
  down : s.toClient.sent = s.serving.sent.filter (·.dst = ends.client)
  read : s.client.heard = (s.toClient.pick s.toClient.sent).map (·.buf)
  up : s.toServer.sent.map (fun p ↦ Message.parse p.1) =
    .ok (ClientSession.connectMessage uuid initialData initialDst).canonical ::
      s.uploaded.map fun u ↦ .ok (ClientSession.dataMessage u.1 u.2)
  heard : (s.serving.heard.filter (·.2 = ends.client)).map (·.1) =
    (s.toServer.pick s.toServer.sent).map (·.1)
  away : ∀ p ∈ s.toServer.sent, ends.isServer p.2 = true
  connected : ends.isServer s.client.lastAddr = true
  told : ∀ u ∈ s.uploaded, ∃ o ∈ s.toClient.sent, ∃ reply,
    Message.parse o.buf = .ok (.establish uuid u.1 reply)

variable {ends : Ends} {uuid initialData : Bytes} {initialDst : SocketAddr} {s : Tunnel}

theorem inv_open {upstreamAddr : SocketAddr} (h : ends.isServer upstreamAddr = true)
    (hopen : open_ uuid initialData initialDst upstreamAddr = .ok s) :
    Inv ends uuid initialData initialDst s := by
  obtain ⟨buf, hbuf, hs⟩ := Outcome.bind_eq_ok_iff.mp hopen
  cases hs
  have hparse := Message.parse_toBytes _ buf hbuf
  constructor
  case serving => exact Serving.inv_start
  case client => exact ClientSession.inv_start uuid initialDst upstreamAddr
  case same => exact ⟨rfl, rfl⟩
  case down => rfl
  case read => rfl
  case up => simp [Wire.empty, hparse]
  case heard => rfl
  case away => simp [Wire.empty, h]
  case connected => exact h
  case told => simp

/-- The server's steps; the wire may have brought it a datagram. -/
theorem Inv.serverStep (h : Inv ends uuid initialData initialDst s) (e : ServingEvent)
    {wire : Wire (Bytes × SocketAddr)} (hsent : wire.sent = s.toServer.sent)
    (hheard : ((s.serving.step e).heard.filter (·.2 = ends.client)).map (·.1) =
      (wire.pick wire.sent).map (·.1)) :
    Inv ends uuid initialData initialDst ({ s with toServer := wire }.serverStep ends e) := by
  obtain ⟨out, hout⟩ := Serving.sent_step s.serving e
  have hnew : (s.serving.step e).sent.drop s.serving.sent.length = out := by
    rw [← hout, List.drop_left]
  have hpick : (s.toClient.sendAll (out.filter fun o ↦ o.dst = ends.client)).pick
      (s.toClient.sent ++ out.filter fun o ↦ o.dst = ends.client) =
        s.toClient.pick s.toClient.sent := by
    rw [Wire.pick_sendAll, Wire.pick_append rfl]
  unfold Tunnel.serverStep
  dsimp only
  rw [hnew]
  constructor
  case serving => exact h.serving.step e
  case client => exact h.client
  case same => exact h.same
  case down =>
    dsimp only
    rw [Wire.sendAll_sent, h.down, ← hout, List.filter_append]
  case read =>
    dsimp only
    rw [Wire.sendAll_sent, hpick]
    exact h.read
  case up =>
    dsimp only
    rw [hsent]
    exact h.up
  case heard => exact hheard
  case away =>
    dsimp only
    rw [hsent]
    exact h.away
  case connected => exact h.connected
  case told =>
    intro u hu
    obtain ⟨o, ho, hreply⟩ := h.told u hu
    exact ⟨o, List.mem_append_left _ ho, hreply⟩

/-- The session's steps that send nothing and read nothing. -/
theorem Inv.clientStep (h : Inv ends uuid initialData initialDst s) {client : ClientSession}
    (hinv : client.Inv) (hsame : client.uuid = s.client.uuid ∧
      client.initialDst = s.client.initialDst ∧ client.lastAddr = s.client.lastAddr ∧
      client.heard = s.client.heard) :
    Inv ends uuid initialData initialDst { s with client := client } := by
  obtain ⟨huuid, hdst, hlast, hheard⟩ := hsame
  constructor
  case serving => exact h.serving
  case client => exact hinv
  case same => exact ⟨huuid.trans h.same.1, hdst.trans h.same.2⟩
  case down => exact h.down
  case read => exact hheard.trans h.read
  case up => exact h.up
  case heard => exact h.heard
  case away => exact h.away
  case connected =>
    dsimp only
    rw [hlast]
    exact h.connected
  case told => exact h.told

/-- The datagram that a session was answered with was on the wire. -/
theorem Inv.told_of_established (h : Inv ends uuid initialData initialDst s) {connId : UInt16}
    (he : s.client.phase = .established connId) : ∃ o ∈ s.toClient.sent, ∃ reply,
    Message.parse o.buf = .ok (.establish uuid connId reply) := by
  obtain ⟨buf, rest, reply, hheard, hparse⟩ := h.client.answered connId he
  have hmem : buf ∈ (s.toClient.pick s.toClient.sent).map (·.buf) := by
    rw [← h.read, hheard]
    exact List.mem_cons_self
  obtain ⟨o, ho, rfl⟩ := List.mem_map.mp hmem
  rw [h.same.1] at hparse
  exact ⟨o, Wire.mem_of_mem_pick ho, reply, hparse⟩

theorem Inv.uploads (h : Inv ends uuid initialData initialDst s) {client : ClientSession}
    {connId : UInt16} {data buf : Bytes} (hup : s.client.upload = some (client, connId, data))
    (hbuf : (ClientSession.dataMessage connId data).toBytes = .ok buf) :
    Inv ends uuid initialData initialDst { s with
      client := client
      toServer := s.toServer.send (buf, s.client.lastAddr)
      uploaded := s.uploaded ++ [(connId, data)] } := by
  have hinv := h.client.upload hup
  obtain ⟨he, rest, _, rfl⟩ := ClientSession.upload_eq_some hup
  have hparse : Message.parse buf = .ok (ClientSession.dataMessage connId data) :=
    Message.parse_toBytes _ buf hbuf
  constructor
  case serving => exact h.serving
  case client => exact hinv
  case same => exact h.same
  case down => exact h.down
  case read => exact h.read
  case up => simp [h.up, hparse]
  case heard =>
    dsimp only
    rw [Wire.pick_send, Wire.send_sent, Wire.pick_append rfl]
    exact h.heard
  case away =>
    intro p hp
    rcases List.mem_append.mp hp with hp | hp
    · exact h.away p hp
    · rw [List.mem_singleton] at hp
      rw [hp]
      exact h.connected
  case connected => exact h.connected
  case told =>
    intro u hu
    rcases List.mem_append.mp hu with hu | hu
    · exact h.told u hu
    · rw [List.mem_singleton] at hu
      rw [hu]
      exact h.told_of_established he

theorem Inv.clientGets (h : Inv ends uuid initialData initialDst s) {i : Nat} {o : Output}
    {wire : Wire Output} (hi : s.toClient.arrive i = some (o, wire)) {src : SocketAddr}
    (hsrc : ends.isServer src = true) (hopen : s.client.phase ≠ .closed) :
    Inv ends uuid initialData initialDst { s with
      client := s.client.receive o.buf src
      toClient := wire } := by
  obtain ⟨hsent, hget, hpick⟩ := Wire.pick_arrive hi s.toClient.sent
  obtain ⟨huuid, hdst, hlast, hheard⟩ := ClientSession.receive_of_open hopen o.buf src
  constructor
  case serving => exact h.serving
  case client => exact h.client.receive o.buf src
  case same => exact ⟨huuid.trans h.same.1, hdst.trans h.same.2⟩
  case down => exact hsent.trans h.down
  case read =>
    dsimp only
    rw [hheard, hsent, hpick, hget, List.map_append, ← h.read]
    rfl
  case up => exact h.up
  case heard => exact h.heard
  case away => exact h.away
  case connected =>
    dsimp only
    rw [hlast]
    exact hsrc
  case told =>
    dsimp only
    rw [hsent]
    exact h.told

theorem Inv.step (h : Inv ends uuid initialData initialDst s) (e : TunnelEvent) :
    Inv ends uuid initialData initialDst (step ends s e) := by
  cases e with
  | queues data =>
    apply h.clientStep (h.client.queue data)
    unfold ClientSession.queue
    split <;> exact ⟨rfl, rfl, rfl, rfl⟩
  | drops => exact h.clientStep h.client.drop ⟨rfl, rfl, rfl, rfl⟩
  | interrupted e =>
    apply h.clientStep (h.client.interrupt e)
    exact ClientSession.interrupt_same s.client e
  | uploads =>
    rw [Tunnel.step]
    split
    · exact h
    · next client connId data hup =>
      split
      · next buf hbuf => exact h.uploads hup hbuf
      · next hbuf => exact absurd rfl (hbuf _)
  | clientGets i src =>
    rw [Tunnel.step]
    split
    · exact h
    · next o wire hi =>
      split
      · next hc => exact h.clientGets hi hc.1 hc.2
      · exact h
  | serverGets i =>
    rw [Tunnel.step]
    split
    · exact h
    · next buf dst wire hi =>
      split
      · obtain ⟨hsent, hget, hpick⟩ := Wire.pick_arrive hi s.toServer.sent
        apply h.serverStep _ hsent
        rw [Serving.heard_step h.serving.alive, List.filter_append, List.map_append, h.heard, hsent,
          hpick, hget]
        simp [ServingEvent.arrival]
      · exact h
  | serverSees e =>
    rw [Tunnel.step]
    split
    · exact h
    · next hother =>
      apply h.serverStep e rfl
      rw [Serving.heard_step h.serving.alive, List.filter_append, List.map_append, h.heard]
      cases harrival : e.arrival with
      | none => simp
      | some d =>
        rw [harrival] at hother
        have hd : d.2 ≠ ends.client := by simpa using hother
        simp [hd]

/-! ### What the invariant says of the two ends -/

/-- The session's connections were asked for with its connect message. -/
theorem Inv.asked (h : Inv ends uuid initialData initialDst s) {t : Nat} {conn : ConnState}
    (hc : s.serving.conns[t]? = some conn) (hsrc : conn.src = ends.client) :
    conn.uuid = uuid ∧ conn.initialData = initialData ∧ conn.dst = initialDst.canonical := by
  obtain ⟨task, ht⟩ := h.serving.exists_task hc
  obtain ⟨buf, hheard, hparse⟩ := (h.serving.linked t conn task hc ht).born
  have hmem : buf ∈ (s.toServer.pick s.toServer.sent).map (·.1) := by
    rw [← h.heard]
    apply List.mem_map.mpr
    exact ⟨(buf, conn.src), List.mem_filter.mpr ⟨hheard, by simp [hsrc]⟩, rfl⟩
  obtain ⟨p, hp, rfl⟩ := List.mem_map.mp hmem
  have hup : Message.parse p.1 ∈ s.toServer.sent.map fun p ↦ Message.parse p.1 :=
    List.mem_map.mpr ⟨p, Wire.mem_of_mem_pick hp, rfl⟩
  rw [h.up, hparse] at hup
  rcases List.mem_cons.mp hup with heq | hdata
  · injection heq with hmsg
    injection hmsg with huuid hdata _ hdst
    exact ⟨huuid, hdata, hdst⟩
  · obtain ⟨u, _, hu⟩ := List.mem_map.mp hdata
    cases hu

/-- A datagram to the session is of a connection that it asked for. -/
theorem Inv.origin (h : Inv ends uuid initialData initialDst s) {o : Output}
    (ho : o ∈ s.toClient.sent) :
    ∃ conn task, s.serving.conns[o.conn]? = some conn ∧
      s.serving.server.tasks[o.conn]? = some task ∧ conn.src = ends.client ∧
      Message.parse o.buf = .ok (o.content.message conn task.id).canonical := by
  rw [h.down] at ho
  obtain ⟨ho, hdst⟩ := List.mem_filter.mp ho
  have hdst : o.dst = ends.client := by simpa using hdst
  have hc := List.getElem?_eq_getElem (h.serving.known o ho)
  obtain ⟨task, ht⟩ := h.serving.exists_task hc
  obtain ⟨hsrc, hparse⟩ := (h.serving.linked _ _ task hc ht).fits o ho rfl
  exact ⟨_, task, hc, ht, hsrc.symm.trans hdst, hparse⟩

/-- How the session reads a later datagram. -/
theorem Inv.laterItem (h : Inv ends uuid initialData initialDst s) {o : Output}
    (ho : o ∈ s.toClient.sent) :
    ClientSession.laterItem initialDst o.buf = o.content.later? initialDst := by
  obtain ⟨conn, task, hc, ht, hsrc, hparse⟩ := h.origin ho
  obtain ⟨_, _, hdst⟩ := h.asked hc hsrc
  rw [ClientSession.laterItem, hparse]
  cases o.content with
  | opening reply => rfl
  | later data addr =>
    simp only [Content.message, Message.canonical, Content.later?, hdst]
    split <;> rfl

/-- What the session makes of what has arrived. -/
theorem Inv.reads_eq (h : Inv ends uuid initialData initialDst s) :
    ClientSession.reads uuid initialDst s.client.heard =
      expected initialDst ((s.toClient.pick s.toClient.sent).map (·.content)) := by
  rw [h.read]
  have hsent : ∀ o ∈ s.toClient.pick s.toClient.sent, o ∈ s.toClient.sent :=
    fun o ho ↦ Wire.mem_of_mem_pick ho
  cases hpick : s.toClient.pick s.toClient.sent with
  | nil => rfl
  | cons o rest =>
    rw [hpick] at hsent
    obtain ⟨conn, task, hc, ht, hsrc, hparse⟩ := h.origin (hsent o List.mem_cons_self)
    obtain ⟨huuid, _, _⟩ := h.asked hc hsrc
    have hrest : (rest.map (·.buf)).filterMap (ClientSession.laterItem initialDst) =
        (rest.map (·.content)).filterMap (Content.later? initialDst) := by
      rw [List.filterMap_map, List.filterMap_map]
      apply List.filterMap_congr
      intro o' ho'
      exact h.laterItem (hsent o' (List.mem_cons_of_mem _ ho'))
    rw [List.map_cons, List.map_cons]
    cases hcontent : o.content with
    | opening reply =>
      rw [hcontent] at hparse
      simp only [Content.message, Message.canonical, huuid] at hparse
      rw [ClientSession.reads_answer hparse, hrest, expected, Option.map_map]
      rfl
    | later data addr =>
      rw [hcontent] at hparse
      simp only [Content.message, Message.canonical] at hparse
      simp [ClientSession.reads, hparse, expected]

/-- What has arrived for an id, read off the wire. -/
theorem Inv.arrivedWith_eq (h : Inv ends uuid initialData initialDst s) (id : UInt16) :
    ((s.toServer.pick s.toServer.sent).map (·.1)).filterMap
      (fun buf ↦ payloadFor id (Message.parse buf)) = s.arrivedWith id := by
  have hups : s.toServer.sent.map (fun p ↦ Message.parse p.1) =
      (none :: s.uploaded.map some).map fun u ↦ (.ok (u.elim
        (ClientSession.connectMessage uuid initialData initialDst).canonical
        fun d ↦ ClientSession.dataMessage d.1 d.2) : Outcome ErrorChain Message) := by
    rw [h.up]
    simp
  calc ((s.toServer.pick s.toServer.sent).map (·.1)).filterMap
        (fun buf ↦ payloadFor id (Message.parse buf))
      = ((s.toServer.pick s.toServer.sent).map fun p ↦ Message.parse p.1).filterMap
          (payloadFor id) := by
        rw [List.filterMap_map, List.filterMap_map]
        rfl
    _ = (s.toServer.pick (none :: s.uploaded.map some)).filterMap fun u ↦
          payloadFor id (.ok (u.elim
            (ClientSession.connectMessage uuid initialData initialDst).canonical
            fun d ↦ ClientSession.dataMessage d.1 d.2)) := by
        rw [← Wire.pick_map, hups, Wire.pick_map, List.filterMap_map]
        rfl
    _ = s.arrivedWith id := by
        rw [arrivedWith]
        apply List.filterMap_congr
        intro u _
        cases u <;> rfl

/-- Of what a connection accepts, the part that is from one sender. -/
private theorem addressed_filter (id : UInt16) (a : SocketAddr)
    (heard : List (Bytes × SocketAddr)) :
    ((heard.filterMap (addressed id)).filter (·.2 = a)).map (·.1) =
      ((heard.filter (·.2 = a)).map (·.1)).filterMap
        fun buf ↦ payloadFor id (Message.parse buf) := by
  induction heard with
  | nil => rfl
  | cons d heard ih =>
    by_cases hd : d.2 = a
    · cases hp : payloadFor id (Message.parse d.1) <;> simp [addressed, hp, hd, ih]
    · cases hp : payloadFor id (Message.parse d.1) <;> simp [addressed, hp, hd, ih]

theorem Inv.accepted (h : Inv ends uuid initialData initialDst s) {t : Nat} {conn : ConnState}
    {task : ConnTask} (hc : s.serving.conns[t]? = some conn)
    (ht : s.serving.server.tasks[t]? = some task) :
    ((conn.accepted.filter (·.2 = ends.client)).map (·.1)).Sublist (s.arrivedWith task.id) := by
  have hnamed := (h.serving.linked t conn task hc ht).named
  have hsub := (hnamed.filter fun d ↦ d.2 = ends.client).map (·.1)
  rw [addressed_filter, h.heard, h.arrivedWith_eq] at hsub
  exact hsub

theorem Inv.relayed (h : Inv ends uuid initialData initialDst s) {t : Nat} {conn : ConnState}
    (hc : s.serving.conns[t]? = some conn) :
    (s.toClient.sent.filter (·.conn = t)).map (·.content) =
      if conn.src = ends.client then conn.contents else [] := by
  obtain ⟨task, ht⟩ := h.serving.exists_task hc
  have hl := h.serving.linked t conn task hc ht
  rw [h.down, List.filter_filter]
  split
  · next hsrc =>
    rw [← hl.said]
    congr 1
    apply List.filter_congr
    intro o ho
    by_cases hot : o.conn = t
    · have hdst := (hl.fits o ho hot).1
      simp [hot, hdst, hsrc]
    · simp [hot]
  · next hsrc =>
    rw [List.map_eq_nil_iff, List.filter_eq_nil_iff]
    intro o ho
    by_cases hot : o.conn = t
    · have hdst := (hl.fits o ho hot).1
      simp [hot, hdst, hsrc]
    · simp [hot]

theorem Inv.addressed (h : Inv ends uuid initialData initialDst s) {u : UInt16 × Bytes}
    (hu : u ∈ s.uploaded) : ∃ t : Nat, ∃ conn : ConnState, ∃ task : ConnTask,
    s.serving.conns[t]? = some conn ∧ s.serving.server.tasks[t]? = some task ∧
      conn.src = ends.client ∧ task.id = u.1 := by
  obtain ⟨o, ho, reply, hreply⟩ := h.told u hu
  obtain ⟨conn, task, hc, ht, hsrc, hparse⟩ := h.origin ho
  refine ⟨o.conn, conn, task, hc, ht, hsrc, ?_⟩
  rw [hparse] at hreply
  injection hreply with hmsg
  cases hcontent : o.content with
  | opening r =>
    rw [hcontent] at hmsg
    injection hmsg with _ hid _
  | later data addr =>
    rw [hcontent] at hmsg
    cases hmsg

theorem Inv.tunnelled (h : Inv ends uuid initialData initialDst s) :
    Tunnelled ends uuid initialData initialDst s := by
  have hreads := h.reads_eq
  have hgiven := h.client.given
  have hcomplete := h.client.complete
  rw [h.same.1, h.same.2, hreads] at hgiven hcomplete
  constructor
  case delivered => exact hgiven
  case complete => exact hcomplete
  case asked => exact fun t conn hc hsrc ↦ h.asked hc hsrc
  case relayed => exact fun t conn hc ↦ h.relayed hc
  case accepted =>
    intro t conn hc
    obtain ⟨task, ht⟩ := h.serving.exists_task hc
    refine ⟨task, ht, h.accepted hc ht, ?_⟩
    rw [← (h.serving.linked t conn task hc ht).fed]
    exact List.prefix_append _ _
  case addressed => exact fun u hu ↦ h.addressed hu

end Tunnel

/-- A udpman session that was opened, however the network treats its datagrams, whatever other
clients send and however the server's tasks are scheduled: the application is given the datagrams
that arrive of the connections it asked for, which are those that came from upstream, and what a
connection accepts of the application's is what arrived with its id. -/
theorem session_tunnelled (ends : Ends) {uuid initialData : Bytes} {initialDst : SocketAddr}
    (upstreamAddr : SocketAddr) {s : Tunnel} (hserver : ends.isServer upstreamAddr = true)
    (hopen : Tunnel.open_ uuid initialData initialDst upstreamAddr = .ok s)
    (events : List TunnelEvent) :
    Tunnelled ends uuid initialData initialDst (runFrom (Tunnel.step ends) s events) :=
  (runFrom_invariant (fun _ e h ↦ h.step e) (Tunnel.inv_open hserver hopen) events).tunnelled
private def home : SocketAddr := .v4 (Ipv4Addr.ofNat 2130706433) 3000

private def relayHost : SocketAddr := .v4 (Ipv4Addr.ofNat 2130706434) 4000

private def target : SocketAddr := .v4 (Ipv4Addr.ofNat 134744072) 5000

private def opened : Tunnel where
  client := .start [1] target relayHost
  serving := .start
  toServer := Wire.empty.send ([0, 1, 1, 8, 8, 8, 8, 19, 136, 7], relayHost)
  toClient := .empty
  uploaded := []

private def exchange : List TunnelEvent :=
  [.serverGets 0, .serverGets 0, .serverSees (.poll 0), .serverSees (.asks 0),
    .serverSees (.answered 0 none), .clientGets 0 relayHost, .queues [5], .uploads, .serverGets 1,
    .serverSees (.upload 0), .serverSees (.reply 0 [6] target), .clientGets 1 relayHost,
    .clientGets 1 relayHost]

/-- A connect message that arrives twice, no initial reply, a datagram in each direction, and the
one from upstream arrives twice. -/
theorem session_tunnelled_exchange :
    let end_ := runFrom (Tunnel.step ⟨fun a ↦ a = relayHost, home⟩) opened exchange
    Tunnelled ⟨fun a ↦ a = relayHost, home⟩ [1] [7] target end_ ∧
      end_.serving.conns.map (·.upstreamSent) = [[[7], [5]], []] ∧
      end_.client.delivered = [([6], .ip target), ([6], .ip target)] :=
  ⟨session_tunnelled ⟨fun a ↦ a = relayHost, home⟩ relayHost rfl rfl exchange,
    by decide, by decide⟩

end Cpxy.UdpMan
