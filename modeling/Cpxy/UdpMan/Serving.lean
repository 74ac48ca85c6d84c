import Cpxy.Transparent.Session
import Cpxy.UdpMan.Server

/-!
# The connections of the udpman server and their sockets

Library `UdpMan`. Source `src/protocol/udpman/server.rs:27–156` and `212–319`. Beside the map
and the channels: what each connection reads from and writes to its socket upstream, and what
the server sends to its clients. Datagrams come in from anywhere, well-formed or not.
-/

namespace Cpxy.UdpMan

open Cpxy.Base Cpxy.Net Cpxy.Transparent

/-- How far a connection's task is; `server.rs:231–261`. -/
inductive Stage where
  | starting
  | asked
  | serving
  deriving DecidableEq, Repr

/-- A connection: what `Conn::new` was given and what has passed through its socket. `accepted`
remembers what the loop put into its channel, with the sender. -/
structure ConnState where
  uuid : Bytes
  initialData : Bytes
  src : SocketAddr
  dst : SocketAddr
  stage : Stage
  accepted : List (Bytes × SocketAddr)
  upstreamSent : List Bytes
  initialReply : Option (Option (Bytes × SocketAddr))
  received : List (Bytes × SocketAddr)
  deriving DecidableEq, Repr

namespace ConnState

/-- `Conn::new`; `server.rs:213–221`. -/
def new (uuid initialData : Bytes) (src dst : SocketAddr) : ConnState :=
  ⟨uuid, initialData, src, dst, .starting, [], [], none, []⟩

end ConnState

/-- What a datagram to a client is about. -/
inductive Content where
  | opening (reply : Option (Bytes × SocketAddr))
  | later (data : Bytes) (addr : SocketAddr)
  deriving DecidableEq, Repr

/-- The message for it: the address of the destination itself is left out; `server.rs:252–256`
and `290–298`. -/
def Content.message (conn : ConnState) (connId : UInt16) : Content → Message
  | .opening reply => .establish conn.uuid connId reply
  | .later data addr => .data none (if addr = conn.dst then none else some addr) data none

/-- A datagram to a client, and the connection and content it was made of. -/
structure Output where
  conn : Nat
  content : Content
  dst : SocketAddr
  buf : Bytes
  deriving DecidableEq, Repr

/-- The server with the sockets. `heard` remembers the datagrams it has read. -/
structure Serving where
  server : Server
  conns : List ConnState
  heard : List (Bytes × SocketAddr)
  sent : List Output
  stopped : Bool

/-- What happens. -/
inductive ServingEvent where
  /-- A datagram is read. -/
  | datagram (buf : Bytes) (src : SocketAddr)
  /-- A connection binds its socket and sends its initial data. -/
  | asks (t : Nat)
  /-- The wait for an initial reply is over. -/
  | answered (t : Nat) (reply : Option (Bytes × SocketAddr))
  /-- A datagram of a channel is sent upstream. -/
  | upload (t : Nat)
  /-- A datagram is received from upstream. -/
  | reply (t : Nat) (data : Bytes) (addr : SocketAddr)
  /-- The first poll of a task. -/
  | poll (t : Nat)
  /-- The upload half ends. -/
  | closeUpload (t : Nat)
  /-- A task returns: an error, the timer, or the end of one of its halves. -/
  | finish (t : Nat)
  /-- The deferred removal runs. -/
  | runDeferred (t : Nat)

/-- The channel that takes the payload of a message; `server.rs:107–124`. -/
def Server.accepts (s : Server) : Message → Option (Nat × Bytes)
  | .data (some id) _ payload _ =>
    match s.connections.get id with
    | none => none
    | some c =>
      match s.tasks[c.task]? with
      | none => none
      | some task =>
        if task.closed = false ∧ task.incoming.length < ConnTask.capacity then
          some (c.task, payload)
        else none
  | _ => none

namespace Serving

/-- No connections. -/
def start : Serving := ⟨.start, [], [], [], false⟩

/-- A task that runs and stands at a stage. -/
def running (s : Serving) (t : Nat) (stage : Stage) : Option (ConnState × ConnTask) :=
  match s.conns[t]?, s.server.tasks[t]? with
  | some conn, some task =>
    if task.phase = .running ∧ conn.stage = stage then some (conn, task) else none
  | _, _ => none

/-- The loop body for a message and its sender; `server.rs:79–135`. -/
def receive (s : Serving) (msg : Message) (src : SocketAddr) : Serving :=
  let server := s.server.step (.receive msg)
  match msg with
  | .connect uuid initialData none dst =>
    match s.server.connections.findAvailableId with
    | none => s
    | some _ =>
      { s with
        server := server
        conns := s.conns ++ [ConnState.new uuid initialData src dst] }
  | msg =>
    match s.server.accepts msg with
    | none => { s with server := server }
    | some (t, payload) =>
      { s with
        server := server
        conns := s.conns.modify t fun conn ↦
          { conn with accepted := conn.accepted ++ [(payload, src)] } }

/-- The filter before the loop: what is no message is skipped; `server.rs:40–53`. -/
def datagram (s : Serving) (buf : Bytes) (src : SocketAddr) : Serving :=
  let s := { s with heard := s.heard ++ [(buf, src)] }
  match Message.parse buf with
  | .ok msg => s.receive msg src
  | .err _ => s
  | .panicked => { s with stopped := true }

/-- A message of a connection is encoded and sent. A failure to encode ends the sending task,
and the server with it; `server.rs:31–38` and `143–153`. -/
def emit (s : Serving) (t : Nat) (conn : ConnState) (connId : UInt16) (content : Content) :
    Serving :=
  match (content.message conn connId).toBytes with
  | .ok buf => { s with sent := s.sent ++ [⟨t, content, conn.src, buf⟩] }
  | _ => { s with stopped := true }

/-- Change one connection. -/
def update (s : Serving) (t : Nat) (f : ConnState → ConnState) : Serving :=
  { s with conns := s.conns.modify t f }

/-- The task of a connection sends the initial data; `server.rs:231–235`. -/
def asks (s : Serving) (t : Nat) : Serving :=
  match s.running t .starting with
  | none => s
  | some _ => s.update t fun conn ↦
      { conn with stage := .asked, upstreamSent := conn.upstreamSent ++ [conn.initialData] }

/-- The wait is over, with or without a reply. A query that has one answer is done;
`server.rs:237–263`. -/
def answered (s : Serving) (t : Nat) (reply : Option (Bytes × SocketAddr)) : Serving :=
  match s.running t .asked with
  | none => s
  | some (conn, task) =>
    let s := s.update t fun conn ↦ { conn with stage := .serving, initialReply := some reply }
    let s := s.emit t conn task.id (.opening reply)
    if isOneOffQuery (.ip conn.dst) then { s with server := s.server.step (.finish t) } else s

/-- The upload half takes a payload from the channel; `server.rs:270–276`. -/
def upload (s : Serving) (t : Nat) : Serving :=
  match s.running t .serving with
  | none => s
  | some (_, task) =>
    match task.incoming with
    | [] => s
    | payload :: _ =>
      let s := { s with server := s.server.step (.upload t) }
      s.update t fun conn ↦ { conn with upstreamSent := conn.upstreamSent ++ [payload] }

/-- The download half passes a datagram on; `server.rs:283–305`. -/
def reply (s : Serving) (t : Nat) (data : Bytes) (addr : SocketAddr) : Serving :=
  match s.running t .serving with
  | none => s
  | some (conn, task) =>
    let s := s.update t fun conn ↦ { conn with received := conn.received ++ [(data, addr)] }
    s.emit t conn task.id (.later data addr)

/-- One step of a server that has not stopped. -/
def step (s : Serving) (e : ServingEvent) : Serving :=
  if s.stopped then s
  else
    match e with
    | .datagram buf src => s.datagram buf src
    | .asks t => s.asks t
    | .answered t reply => s.answered t reply
    | .upload t => s.upload t
    | .reply t data addr => s.reply t data addr
    | .poll t => { s with server := s.server.step (.poll t) }
    | .closeUpload t => { s with server := s.server.step (.closeUpload t) }
    | .finish t => { s with server := s.server.step (.finish t) }
    | .runDeferred t => { s with server := s.server.step (.runDeferred t) }

end Serving

/-! ### What a connection relays -/

/-- What a message has for the connection with an id. -/
def payloadFor (id : UInt16) : Outcome ErrorChain Message → Option Bytes
  | .ok (.data (some connId) _ payload _) => if connId = id then some payload else none
  | _ => none

/-- What a datagram has for it, and who sent it. -/
def addressed (id : UInt16) (d : Bytes × SocketAddr) : Option (Bytes × SocketAddr) :=
  (payloadFor id (Message.parse d.1)).map fun payload ↦ (payload, d.2)

namespace ConnState

/-- The first datagram upstream. -/
def opener (conn : ConnState) : List Bytes :=
  if conn.stage = .starting then [] else [conn.initialData]

/-- What is due to the client. -/
def contents (conn : ConnState) : List Content :=
  (conn.initialReply.map Content.opening).toList ++
    conn.received.map fun d ↦ .later d.1 d.2

end ConnState

/-- A connection passes on what it is given, to whom it concerns, and nothing else. -/
structure Linked (heard : List (Bytes × SocketAddr)) (sent : List Output) (t : Nat)
    (conn : ConnState) (id : UInt16) (incoming : List Bytes) : Prop where
  /-- It was asked for by a datagram of its client. -/
  born : ∃ buf, (buf, conn.src) ∈ heard ∧
    Message.parse buf = .ok (.connect conn.uuid conn.initialData none conn.dst)
  /-- Upstream goes the initial data, then what was accepted. -/
  fed : conn.upstreamSent ++ incoming = conn.opener ++ conn.accepted.map (·.1)
  /-- What was accepted was read from a datagram with its id, in the order of arrival. -/
  named : conn.accepted.Sublist (heard.filterMap (addressed id))
  /-- Its client was sent what came from upstream. -/
  said : (sent.filter (·.conn = t)).map (·.content) = conn.contents
  fits : ∀ o ∈ sent, o.conn = t → o.dst = conn.src ∧
    Message.parse o.buf = .ok (o.content.message conn id).canonical
  fresh : conn.stage ≠ .serving → conn.initialReply = none ∧ conn.received = []
  unasked : conn.stage = .starting → conn.upstreamSent = []

/-- What the connections rely on of a task. -/
def ConnTask.view (task : ConnTask) : UInt16 × List Bytes := (task.id, task.incoming)

/-- Entries are of tasks with their id. -/
def Server.Owned (s : Server) : Prop :=
  ∀ c ∈ s.connections, ∃ task, s.tasks[c.task]? = some task ∧ task.id = c.id

namespace Serving

/-- A server that has not stopped, all of whose connections pass on what they are given. -/
structure Inv (s : Serving) : Prop where
  alive : s.stopped = false
  parallel : s.conns.length = s.server.tasks.length
  owned : s.server.Owned
  known : ∀ o ∈ s.sent, o.conn < s.conns.length
  linked : ∀ t conn task, s.conns[t]? = some conn → s.server.tasks[t]? = some task →
    Linked s.heard s.sent t conn task.id task.incoming

end Serving

/-! ### The loop and its map -/

private theorem map_modify_same {α β : Type} {f : α → α} {g : α → β} (h : ∀ a, g (f a) = g a)
    (l : List α) (n : Nat) : (l.modify n f).map g = l.map g := by
  apply List.ext_getElem?
  intro i
  rw [List.getElem?_map, List.getElem?_map, List.getElem?_modify]
  cases l[i]? with
  | none => rfl
  | some a =>
    simp only [Option.map_eq_map, Option.map_some]
    split
    · rw [h]
    · rfl

private theorem getElem?_modify_of {α : Type} {f : α → α} {l : List α} {t : Nat} {a : α}
    (h : l[t]? = some a) (u : Nat) : (l.modify t f)[u]? = if u = t then some (f a) else l[u]? := by
  rw [List.getElem?_modify]
  split
  · next heq =>
    subst heq
    rw [h, if_pos rfl]
    rfl
  · next hne =>
    rw [if_neg (Ne.symm hne)]
    cases l[u]? <;> rfl

private theorem getElem?_same_of {α : Type} {l : List α} {t : Nat} {a : α} (h : l[t]? = some a)
    (u : Nat) : l[u]? = if u = t then some a else l[u]? := by
  split
  · next heq => rw [heq, h]
  · rfl

namespace Server

variable {s s' : Server}

/-- The map may lose entries, as long as the tasks keep their ids. -/
theorem Owned.of_ids (h : s.Owned) (hsub : ∀ c ∈ s'.connections, c ∈ s.connections)
    (hids : s'.tasks.map ConnTask.id = s.tasks.map ConnTask.id) : s'.Owned := by
  intro c hc
  obtain ⟨task, htask, hid⟩ := h c (hsub c hc)
  have hget := congrArg (·[c.task]?) hids
  simp only [List.getElem?_map, htask, Option.map_some] at hget
  obtain ⟨task', htask', hv⟩ := Option.map_eq_some_iff.mp hget
  exact ⟨task', htask', hv.trans hid⟩

theorem Owned.modify (h : s.Owned) {f : ConnTask → ConnTask} (hf : ∀ task, (f task).id = task.id)
    (t : Nat) : Owned { s with tasks := s.tasks.modify t f } :=
  h.of_ids (fun _ hc ↦ hc) (map_modify_same hf _ _)

theorem ids_of_view {tasks tasks' : List ConnTask}
    (hview : tasks'.map ConnTask.view = tasks.map ConnTask.view) :
    tasks'.map ConnTask.id = tasks.map ConnTask.id := by
  have hfst := congrArg (List.map Prod.fst) hview
  rw [List.map_map, List.map_map] at hfst
  exact hfst

private theorem view_cancel (t : ConnTask) : t.cancel.view = t.view := by
  cases h : t.phase <;> simp [ConnTask.cancel, h, ConnTask.view]

theorem view_removeConn (s : Server) (id : UInt16) :
    (s.removeConn id).tasks.map ConnTask.view = s.tasks.map ConnTask.view := by
  unfold removeConn
  dsimp only
  split
  · exact map_modify_same view_cancel _ _
  · rfl

/-- Steps of the tasks themselves. -/
def Internal : Event → Prop
  | .poll _ | .closeUpload _ | .finish _ | .runDeferred _ => True
  | _ => False

/-- They leave ids and channels alone, and add no entry. -/
theorem step_internal {e : Event} (he : Internal e) (s : Server) :
    (s.step e).tasks.map ConnTask.view = s.tasks.map ConnTask.view ∧
      ∀ c ∈ (s.step e).connections, c ∈ s.connections := by
  cases e with
  | receive msg => exact he.elim
  | upload t => exact he.elim
  | poll t =>
    refine ⟨map_modify_same ?_ _ _, fun c hc ↦ hc⟩
    intro task
    split <;> rfl
  | closeUpload t =>
    refine ⟨map_modify_same ?_ _ _, fun c hc ↦ hc⟩
    intro task
    rfl
  | finish t =>
    refine ⟨map_modify_same ?_ _ _, fun c hc ↦ hc⟩
    intro task
    split <;> rfl
  | runDeferred t =>
    rw [step]
    split
    · exact ⟨rfl, fun c hc ↦ hc⟩
    · split
      · constructor
        · rw [view_removeConn]
          apply map_modify_same
          intro task
          rfl
        · intro c hc
          exact (mem_removeConn.mp hc).1
      · exact ⟨rfl, fun c hc ↦ hc⟩

/-- A connection that is asked for gets the next task. -/
theorem step_connect {uuid initialData : Bytes} {dst : SocketAddr} {id : UInt16}
    (hid : s.connections.findAvailableId = some id) :
    s.step (.receive (.connect uuid initialData none dst)) =
      ⟨s.connections.insert ⟨id, s.tasks.length⟩, s.tasks ++ [ConnTask.new id]⟩ := by
  rw [step, receive, hid]

theorem Owned.insert (h : s.Owned) (id : UInt16) :
    Owned ⟨s.connections.insert ⟨id, s.tasks.length⟩, s.tasks ++ [ConnTask.new id]⟩ := by
  intro c hc
  rcases ConnMap.mem_insert.mp hc with rfl | ⟨hc, _⟩
  · exact ⟨ConnTask.new id, by simp, rfl⟩
  · obtain ⟨task, htask, hid⟩ := h c hc
    have hlt := (List.getElem?_eq_some_iff.mp htask).1
    exact ⟨task, by rw [List.getElem?_append_left hlt, htask], hid⟩

/-- A payload that is accepted goes into the channel of the connection with the id. -/
theorem accepts_some {msg : Message} {t : Nat} {payload : Bytes}
    (h : s.accepts msg = some (t, payload)) (ho : s.Owned) :
    ∃ id addr nonce task, msg = .data (some id) addr payload nonce ∧ s.tasks[t]? = some task ∧
      task.id = id ∧ s.step (.receive msg) = { s with tasks := s.tasks.modify t fun task ↦
        { task with incoming := task.incoming ++ [payload] } } := by
  unfold accepts at h
  split at h
  · next id addr payload' nonce =>
    split at h
    · cases h
    · next c hc =>
      split at h
      · cases h
      · next task htask =>
        split at h
        · next hroom =>
          cases h
          obtain ⟨hmem, hcid⟩ := ConnMap.get_eq_some_iff.mp hc
          obtain ⟨task', htask', hid⟩ := ho c hmem
          rw [htask] at htask'
          cases htask'
          refine ⟨id, addr, nonce, task, rfl, htask, hid.trans hcid, ?_⟩
          simp only [step, receive, hc, htask]
          rw [if_neg (by simp [hroom.1]), if_pos hroom.2]
        · cases h
  · cases h

/-- A message that neither asks for a connection nor is accepted may cost an entry. -/
theorem step_refused {msg : Message} (h : s.accepts msg = none)
    (hc : ∀ uuid initialData dst, msg ≠ .connect uuid initialData none dst) :
    (s.step (.receive msg)).tasks.map ConnTask.view = s.tasks.map ConnTask.view ∧
      ∀ c ∈ (s.step (.receive msg)).connections, c ∈ s.connections := by
  have hsame : s.tasks.map ConnTask.view = s.tasks.map ConnTask.view ∧
      ∀ c ∈ s.connections, c ∈ s.connections := ⟨rfl, fun c hc ↦ hc⟩
  rw [step]
  unfold receive
  split
  · next uuid initialData dst => exact absurd rfl (hc uuid initialData dst)
  · next id addr payload nonce =>
    split
    · exact hsame
    · next c hget =>
      split
      · exact hsame
      · next task htask =>
        split
        · exact ⟨view_removeConn s id, fun c hc ↦ (mem_removeConn.mp hc).1⟩
        · next hclosed =>
          split
          · next hroom =>
            simp only [accepts, hget, htask] at h
            rw [if_pos ⟨by simpa using hclosed, hroom⟩] at h
            cases h
          · exact hsame
  · exact hsame

end Server

/-! ### Every step -/

namespace Serving

variable {s s' : Serving}

theorem inv_start : Inv start where
  alive := rfl
  parallel := rfl
  owned := by
    intro c hc
    exact absurd hc (ConnMap.not_mem_empty c)
  known := by simp [start]
  linked := by
    intro t conn task hc
    cases hc

theorem Inv.exists_task (h : Inv s) {t : Nat} {conn : ConnState} (hc : s.conns[t]? = some conn) :
    ∃ task, s.server.tasks[t]? = some task := by
  have hlt : t < s.server.tasks.length :=
    h.parallel ▸ (List.getElem?_eq_some_iff.mp hc).1
  exact ⟨_, List.getElem?_eq_getElem hlt⟩

/-- What happens to the map and the tasks apart from ids and channels. -/
theorem Inv.view (h : Inv s) {server : Server}
    (hview : server.tasks.map ConnTask.view = s.server.tasks.map ConnTask.view)
    (hsub : ∀ c ∈ server.connections, c ∈ s.server.connections) :
    Inv { s with server := server } where
  alive := h.alive
  parallel := by
    have hlen := congrArg List.length hview
    rw [List.length_map, List.length_map] at hlen
    exact h.parallel.trans hlen.symm
  owned := h.owned.of_ids hsub (Server.ids_of_view hview)
  known := h.known
  linked := by
    intro t conn task hc ht
    have hget := congrArg (·[t]?) hview
    have ht' : server.tasks[t]? = some task := ht
    simp only [List.getElem?_map, ht', Option.map_some] at hget
    obtain ⟨old, hold, hv⟩ := Option.map_eq_some_iff.mp hget.symm
    have hlinked := h.linked t conn old hc hold
    have hid : old.id = task.id := congrArg Prod.fst hv
    have hincoming : old.incoming = task.incoming := congrArg Prod.snd hv
    rw [hid, hincoming] at hlinked
    exact hlinked

/-- The tasks' own steps. -/
theorem Inv.internal (h : Inv s) (e : Event) (he : Server.Internal e) :
    Inv { s with server := s.server.step e } :=
  h.view (Server.step_internal he s.server).1 (Server.step_internal he s.server).2

/-- Reading a datagram. -/
theorem Inv.hear (h : Inv s) (d : Bytes × SocketAddr) :
    Inv { s with heard := s.heard ++ [d] } where
  alive := h.alive
  parallel := h.parallel
  owned := h.owned
  known := h.known
  linked := by
    intro t conn task hc ht
    have hl := h.linked t conn task hc ht
    constructor
    case born =>
      obtain ⟨buf, hbuf, hparse⟩ := hl.born
      exact ⟨buf, List.mem_append_left _ hbuf, hparse⟩
    case fed => exact hl.fed
    case named =>
      rw [List.filterMap_append]
      exact hl.named.trans (List.sublist_append_left _ _)
    case said => exact hl.said
    case fits => exact hl.fits
    case fresh => exact hl.fresh
    case unasked => exact hl.unasked

/-- A step of one connection: the others are left as they are. -/
theorem Inv.change (h : Inv s) {t : Nat} (conn : ConnState) (task : ConnTask)
    (hheard : s'.heard = s.heard) (halive : s'.stopped = false)
    (hconns : ∀ u, s'.conns[u]? = if u = t then some conn else s.conns[u]?)
    (htasks : ∀ u, s'.server.tasks[u]? = if u = t then some task else s.server.tasks[u]?)
    (hlen : s'.conns.length = s.conns.length ∧
      s'.server.tasks.length = s.server.tasks.length)
    (howned : s'.server.Owned) (out : List Output) (hsent : s'.sent = s.sent ++ out)
    (hout : ∀ o ∈ out, o.conn = t) (ht : t < s.conns.length)
    (hlinked : Linked s'.heard s'.sent t conn task.id task.incoming) : Inv s' where
  alive := halive
  parallel := by rw [hlen.1, hlen.2, h.parallel]
  owned := howned
  known := by
    intro o ho
    rw [hlen.1]
    rw [hsent] at ho
    rcases List.mem_append.mp ho with ho | ho
    · exact h.known o ho
    · rw [hout o ho]
      exact ht
  linked := by
    intro u conn' task' hc' ht'
    rw [hconns] at hc'
    rw [htasks] at ht'
    by_cases hu : u = t
    · subst hu
      rw [if_pos rfl] at hc' ht'
      cases hc'
      cases ht'
      exact hlinked
    · rw [if_neg hu] at hc' ht'
      have hl := h.linked u conn' task' hc' ht'
      have hnone : out.filter (·.conn = u) = [] := by
        apply List.filter_eq_nil_iff.mpr
        intro o ho
        simp only [decide_eq_true_eq]
        rw [hout o ho]
        exact Ne.symm hu
      constructor
      case born =>
        rw [hheard]
        exact hl.born
      case fed => exact hl.fed
      case named =>
        rw [hheard]
        exact hl.named
      case said =>
        rw [hsent, List.filter_append, hnone, List.append_nil]
        exact hl.said
      case fits =>
        intro o ho hou
        rw [hsent] at ho
        rcases List.mem_append.mp ho with ho | ho
        · exact hl.fits o ho hou
        · exact absurd ((hout o ho).symm.trans hou) (Ne.symm hu)
      case fresh => exact hl.fresh
      case unasked => exact hl.unasked

theorem running_eq_some {t : Nat} {stage : Stage} {conn : ConnState} {task : ConnTask}
    (h : s.running t stage = some (conn, task)) :
    s.conns[t]? = some conn ∧ s.server.tasks[t]? = some task ∧ conn.stage = stage := by
  unfold running at h
  split at h
  · next conn' task' hc ht =>
    split at h
    · next hstage =>
      cases h
      exact ⟨hc, ht, hstage.2⟩
    · cases h
  · cases h

/-- Whatever a connection has for its client can be encoded. -/
theorem emit_eq {heard : List (Bytes × SocketAddr)} {sent : List Output} {t : Nat}
    {conn : ConnState} {id : UInt16} {incoming : List Bytes}
    (h : Linked heard sent t conn id incoming) (s : Serving) (content : Content) :
    ∃ buf, s.emit t conn id content =
        { s with sent := s.sent ++ [⟨t, content, conn.src, buf⟩] } ∧
      Message.parse buf = .ok (content.message conn id).canonical := by
  have hfits : ∀ u, (content.message conn id).uuid? = some u → u.length ≤ 255 := by
    intro u hu
    cases content with
    | opening reply =>
      obtain rfl : conn.uuid = u := by simpa [Content.message, Message.uuid?] using hu
      obtain ⟨buf, _, hparse⟩ := h.born
      rcases Message.parse_answers buf with ⟨e, he⟩ | ⟨m, hm, hd⟩
      · rw [hparse] at he
        cases he
      · rw [hparse] at hm
        cases hm
        exact hd.1 _ rfl
    | later data addr => simp [Content.message, Message.uuid?] at hu
  obtain ⟨buf, hbuf⟩ := (Message.toBytes_ok_iff _).mpr hfits
  refine ⟨buf, ?_, Message.parse_toBytes _ buf hbuf⟩
  rw [emit, hbuf]

/-- A connection that is asked for. -/
theorem Inv.connect (h : Inv s) {uuid initialData buf : Bytes} {src dst : SocketAddr} {id : UInt16}
    (hbuf : (buf, src) ∈ s.heard)
    (hparse : Message.parse buf = .ok (.connect uuid initialData none dst)) :
    Inv { s with
      server := ⟨s.server.connections.insert ⟨id, s.server.tasks.length⟩,
        s.server.tasks ++ [ConnTask.new id]⟩
      conns := s.conns ++ [ConnState.new uuid initialData src dst] } where
  alive := h.alive
  parallel := by simp [h.parallel]
  owned := h.owned.insert id
  known := by
    intro o ho
    have := h.known o ho
    rw [List.length_append]
    omega
  linked := by
    intro t conn task hc ht
    by_cases hlt : t < s.conns.length
    · rw [List.getElem?_append_left hlt] at hc
      rw [List.getElem?_append_left (h.parallel ▸ hlt)] at ht
      exact h.linked t conn task hc ht
    · -- the new connection, of which nothing has been heard
      have hnone : s.sent.filter (·.conn = t) = [] := by
        apply List.filter_eq_nil_iff.mpr
        intro o ho
        have := h.known o ho
        simp only [decide_eq_true_eq]
        omega
      have hpar := h.parallel
      rw [List.getElem?_append_right (by omega)] at hc
      rw [List.getElem?_append_right (by omega)] at ht
      obtain rfl := List.mem_singleton.mp (List.mem_of_getElem? hc)
      obtain rfl := List.mem_singleton.mp (List.mem_of_getElem? ht)
      constructor
      case born => exact ⟨buf, hbuf, hparse⟩
      case fed => rfl
      case named => exact List.nil_sublist _
      case said =>
        rw [hnone]
        rfl
      case fits =>
        intro o ho hot
        have := h.known o ho
        omega
      case fresh => exact fun _ ↦ ⟨rfl, rfl⟩
      case unasked => exact fun _ ↦ rfl

/-- A payload that is accepted; its datagram was the last one read. -/
theorem Inv.accept (h : Inv s) {t : Nat} {task : ConnTask} {addr : Option SocketAddr}
    {payload buf : Bytes} {nonce : Option UInt16} {src : SocketAddr}
    (hbuf : Message.parse buf = .ok (.data (some task.id) addr payload nonce))
    (ht : s.server.tasks[t]? = some task) :
    Inv { s with
      server := { s.server with tasks := s.server.tasks.modify t fun task ↦
        { task with incoming := task.incoming ++ [payload] } }
      conns := s.conns.modify t fun conn ↦
        { conn with accepted := conn.accepted ++ [(payload, src)] }
      heard := s.heard ++ [(buf, src)] } := by
  have hlt : t < s.conns.length := h.parallel ▸ (List.getElem?_eq_some_iff.mp ht).1
  obtain ⟨conn, hc⟩ : ∃ conn, s.conns[t]? = some conn := ⟨_, List.getElem?_eq_getElem hlt⟩
  have hl := (h.hear (buf, src)).linked t conn task hc ht
  refine (h.hear (buf, src)).change _ _ rfl h.alive (getElem?_modify_of hc)
    (getElem?_modify_of ht) (by simp) ?_ [] (by simp) (by simp) hlt ?_
  · apply h.owned.modify
    intro task
    rfl
  · constructor
    case born => exact hl.born
    case fed =>
      have hfed := hl.fed
      simp only [List.map_append, List.map_cons, List.map_nil]
      rw [← List.append_assoc, hfed, List.append_assoc]
      rfl
    case named =>
      have haddr : addressed task.id (buf, src) = some (payload, src) := by
        simp [addressed, payloadFor, hbuf]
      rw [List.filterMap_append]
      simp only [List.filterMap_cons, haddr, List.filterMap_nil]
      exact (h.linked t conn task hc ht).named.append (List.Sublist.refl _)
    case said => exact hl.said
    case fits => exact hl.fits
    case fresh => exact hl.fresh
    case unasked => exact hl.unasked

theorem Inv.datagram (h : Inv s) (buf : Bytes) (src : SocketAddr) :
    Inv (s.datagram buf src) := by
  have hheard := h.hear (buf, src)
  unfold Serving.datagram
  rcases Message.parse_answers buf with ⟨e, he⟩ | ⟨msg, hmsg, _⟩
  · rw [he]
    exact hheard
  · rw [hmsg]
    dsimp only
    unfold Serving.receive
    dsimp only
    split
    · next uuid initialData dst =>
      split
      · exact hheard
      · next id hid =>
        rw [Server.step_connect hid]
        exact hheard.connect (List.mem_append_right _ (List.mem_singleton.mpr rfl)) hmsg
    · next hc =>
      split
      · next haccepts =>
        obtain ⟨hview, hsub⟩ := Server.step_refused haccepts hc
        exact hheard.view hview hsub
      · next t payload haccepts =>
        obtain ⟨id, addr, nonce, task, rfl, htask, hid, hstep⟩ :=
          Server.accepts_some haccepts h.owned
        rw [hstep]
        rw [← hid] at hmsg
        exact h.accept hmsg htask

/-- The initial data go upstream. -/
theorem Inv.asks (h : Inv s) (t : Nat) : Inv (s.asks t) := by
  unfold Serving.asks
  split
  · exact h
  · next hrun =>
    obtain ⟨hc, ht, hstage⟩ := running_eq_some hrun
    have hl := h.linked t _ _ hc ht
    have hlt : t < s.conns.length := (List.getElem?_eq_some_iff.mp hc).1
    refine h.change _ _ rfl h.alive (getElem?_modify_of hc) (getElem?_same_of ht)
      (by simp [update]) h.owned [] (by simp [update]) (by simp) hlt ?_
    have hnone := hl.unasked hstage
    constructor
    case born => exact hl.born
    case fed =>
      have hfed := hl.fed
      rw [hnone, ConnState.opener, if_pos hstage, List.nil_append, List.nil_append] at hfed
      dsimp only
      rw [hnone, hfed]
      rfl
    case named => exact hl.named
    case said => exact hl.said
    case fits => exact hl.fits
    case fresh =>
      intro _
      apply hl.fresh
      rw [hstage]
      decide
    case unasked =>
      intro hs
      cases hs

/-- Something is sent to the client of a connection: it stands among its contents then. -/
theorem Inv.say (h : Inv s) {t : Nat} {conn : ConnState} {task : ConnTask}
    (hc : s.conns[t]? = some conn) (ht : s.server.tasks[t]? = some task)
    {f : ConnState → ConnState} (content : Content)
    (hcontents : (f conn).contents = conn.contents ++ [content])
    (hstage : (f conn).stage = .serving) (hopener : (f conn).opener = conn.opener)
    (hsame : f conn = { conn with
      stage := (f conn).stage
      initialReply := (f conn).initialReply
      received := (f conn).received }) :
    Inv ((s.update t f).emit t conn task.id content) := by
  have hl := h.linked t conn task hc ht
  have hlt : t < s.conns.length := (List.getElem?_eq_some_iff.mp hc).1
  obtain ⟨buf, hemit, hparse⟩ := emit_eq hl (s.update t f) content
  rw [hemit]
  refine h.change _ _ rfl h.alive (getElem?_modify_of hc) (getElem?_same_of ht)
    (by simp [update]) h.owned [⟨t, content, conn.src, buf⟩] rfl (by simp) hlt ?_
  constructor
  case born =>
    rw [hsame]
    exact hl.born
  case fed =>
    rw [hopener, hsame]
    exact hl.fed
  case named =>
    rw [hsame]
    exact hl.named
  case said =>
    rw [hcontents, ← hl.said, List.filter_append, List.map_append]
    simp [update]
  case fits =>
    intro o ho hot
    rw [hsame]
    rcases List.mem_append.mp ho with ho | ho
    · exact hl.fits o ho hot
    · rw [List.mem_singleton] at ho
      rw [ho]
      exact ⟨rfl, hparse⟩
  case fresh => exact fun hne ↦ absurd hstage hne
  case unasked =>
    intro hs
    rw [hstage] at hs
    cases hs

theorem Inv.answered (h : Inv s) (t : Nat) (reply : Option (Bytes × SocketAddr)) :
    Inv (s.answered t reply) := by
  unfold Serving.answered
  split
  · exact h
  · next conn task hrun =>
    obtain ⟨hc, ht, hstage⟩ := running_eq_some hrun
    have hfresh := (h.linked t conn task hc ht).fresh (by rw [hstage]; decide)
    have hsaid := h.say hc ht (.opening reply)
      (f := fun conn ↦ { conn with stage := .serving, initialReply := some reply })
      (by simp [ConnState.contents, hfresh]) rfl (by simp [ConnState.opener, hstage]) rfl
    dsimp only
    split
    · exact hsaid.internal (.finish t) trivial
    · exact hsaid

theorem Inv.reply (h : Inv s) (t : Nat) (data : Bytes) (addr : SocketAddr) :
    Inv (s.reply t data addr) := by
  unfold Serving.reply
  split
  · exact h
  · next conn task hrun =>
    obtain ⟨hc, ht, hstage⟩ := running_eq_some hrun
    exact h.say hc ht _ (by simp [ConnState.contents]) hstage rfl rfl

theorem Inv.upload (h : Inv s) (t : Nat) : Inv (s.upload t) := by
  unfold Serving.upload
  split
  · exact h
  · next conn task hrun =>
    obtain ⟨hc, ht, hstage⟩ := running_eq_some hrun
    have hl := h.linked t conn task hc ht
    have hlt : t < s.conns.length := (List.getElem?_eq_some_iff.mp hc).1
    split
    · exact h
    · next payload rest hincoming =>
      refine h.change _ _ rfl h.alive (getElem?_modify_of hc) (getElem?_modify_of ht)
        (by simp [update, Server.step]) ?_ [] (by simp [update]) (by simp) hlt ?_
      · apply h.owned.modify
        intro task
        rfl
      · constructor
        case born => exact hl.born
        case fed =>
          have hfed := hl.fed
          rw [hincoming] at hfed
          rw [hincoming, List.append_assoc]
          exact hfed
        case named => exact hl.named
        case said => exact hl.said
        case fits => exact hl.fits
        case fresh => exact hl.fresh
        case unasked =>
          intro hs
          exact absurd (hstage.symm.trans hs) (by decide)

theorem Inv.step (h : Inv s) (e : ServingEvent) : Inv (s.step e) := by
  unfold Serving.step
  rw [if_neg (by simp [h.alive])]
  cases e with
  | datagram buf src => exact h.datagram buf src
  | asks t => exact h.asks t
  | answered t reply => exact h.answered t reply
  | upload t => exact h.upload t
  | reply t data addr => exact h.reply t data addr
  | poll t => exact h.internal (.poll t) trivial
  | closeUpload t => exact h.internal (.closeUpload t) trivial
  | finish t => exact h.internal (.finish t) trivial
  | runDeferred t => exact h.internal (.runDeferred t) trivial

/-! ### Every run -/

@[simp] theorem update_heard (s : Serving) (t : Nat) (f : ConnState → ConnState) :
    (s.update t f).heard = s.heard := rfl

@[simp] theorem emit_heard (s : Serving) (t : Nat) (conn : ConnState) (id : UInt16)
    (content : Content) : (s.emit t conn id content).heard = s.heard := by
  unfold emit
  split <;> rfl

@[simp] theorem receive_heard (s : Serving) (msg : Message) (src : SocketAddr) :
    (s.receive msg src).heard = s.heard := by
  unfold receive
  dsimp only
  split
  · split <;> rfl
  · split <;> rfl

end Serving

/-- The datagram that an event brings. -/
def ServingEvent.arrival : ServingEvent → Option (Bytes × SocketAddr)
  | .datagram buf src => some (buf, src)
  | _ => none

namespace Serving

variable {s : Serving}

/-- A server that has not stopped reads every datagram. -/
theorem heard_step (h : s.stopped = false) (e : ServingEvent) :
    (s.step e).heard = s.heard ++ e.arrival.toList := by
  unfold step
  rw [if_neg (by simp [h])]
  cases e with
  | datagram buf src =>
    unfold datagram
    dsimp only
    split <;> simp [ServingEvent.arrival]
  | asks t =>
    unfold asks
    dsimp only
    split <;> simp [ServingEvent.arrival]
  | answered t reply =>
    unfold answered
    dsimp only
    split
    · simp [ServingEvent.arrival]
    · split <;> simp [ServingEvent.arrival]
  | upload t =>
    unfold upload
    dsimp only
    split
    · simp [ServingEvent.arrival]
    · split <;> simp [ServingEvent.arrival]
  | reply t data addr =>
    unfold reply
    dsimp only
    split <;> simp [ServingEvent.arrival]
  | poll t => simp [ServingEvent.arrival]
  | closeUpload t => simp [ServingEvent.arrival]
  | finish t => simp [ServingEvent.arrival]
  | runDeferred t => simp [ServingEvent.arrival]

theorem heard_run (h : Inv s) (events : List ServingEvent) :
    (runFrom step s events).heard = s.heard ++ events.filterMap ServingEvent.arrival := by
  induction events generalizing s with
  | nil => simp
  | cons e events ih =>
    rw [runFrom_cons, ih (h.step e), heard_step h.alive, List.append_assoc]
    congr 1
    cases hq : e.arrival <;> simp [hq]

theorem sent_emit (s : Serving) (t : Nat) (f : ConnState → ConnState) (conn : ConnState)
    (id : UInt16) (content : Content) :
    s.sent <+: ((s.update t f).emit t conn id content).sent := by
  unfold emit
  split
  · exact List.prefix_append _ _
  · exact List.prefix_rfl

/-- What was sent stays sent. -/
theorem sent_step (s : Serving) (e : ServingEvent) : s.sent <+: (s.step e).sent := by
  unfold step
  split
  · exact List.prefix_rfl
  · cases e with
    | datagram buf src =>
      unfold datagram receive
      dsimp only
      repeat' split
      all_goals exact List.prefix_rfl
    | asks t =>
      unfold asks
      dsimp only
      split <;> exact List.prefix_rfl
    | answered t reply =>
      unfold answered
      dsimp only
      split
      · exact List.prefix_rfl
      · split <;> exact sent_emit s t _ _ _ _
    | upload t =>
      unfold upload
      dsimp only
      split
      · exact List.prefix_rfl
      · split <;> exact List.prefix_rfl
    | reply t data addr =>
      unfold reply
      dsimp only
      split
      · exact List.prefix_rfl
      · exact sent_emit s t _ _ _ _
    | _ => exact List.prefix_rfl

end Serving

end Cpxy.UdpMan
