import Cpxy.Base.Run
import Cpxy.Net.Address

/-!
# One session of the transparent UDP proxy

Library `Transparent`. Source `src/client/transparent/handler.rs:92–164`,
`src/client/transparent/udp_proxy.rs:17–119` and `src/io/udp.rs:43–48`. The datagram that
created the session is given to the upstream when it is set up, and again through its sink.
Later datagrams wait in a channel; each goes to the address of the latest reply.
-/

namespace Cpxy.Transparent

open Cpxy.Base Cpxy.Net

/-- What happens to a session that is being served. -/
inductive SessionEvent where
  /-- The loop queues a client datagram. -/
  | arrive (data : Bytes)
  /-- The upstream yields a reply. -/
  | reply (from_ : Address)
  /-- The upload task takes a datagram from the channel. -/
  | upload
  /-- The timer fires, or an upstream half ends. -/
  | stop

/-- A session being served: the channel, the cell with the latest reply's address, and what
went into the upstream sink. Beside them, for reference, the datagrams that were queued and
those that were taken, each with the content of the cell at that time. -/
structure Session where
  queue : List Bytes
  lastUpstreamAddr : Option SocketAddr
  stopped : Bool
  sink : List (Bytes × SocketAddr)
  arrived : List Bytes
  taken : List (Bytes × Option SocketAddr)

namespace Session

/-- Before the first event of `serve_udp_on_dgram`'s tasks. -/
def start : Session := ⟨[], none, false, [], [], []⟩

/-- The room of the channel; `handler.rs:101`. -/
def capacity : Nat := 10

/-- Datagram in, reply in, datagram out; `handler.rs:128–134`, `udp_proxy.rs:57–78` and `81–92`.
A reply from a name ends the session. -/
def step (s : Session) : SessionEvent → Session
  | .arrive data =>
    if s.stopped ∨ capacity ≤ s.queue.length then s
    else { s with queue := s.queue ++ [data], arrived := s.arrived ++ [data] }
  | .reply (.ip addr) => if s.stopped then s else { s with lastUpstreamAddr := some addr }
  | .reply (.name _ _) => { s with stopped := true }
  | .upload =>
    match s.stopped, s.queue with
    | false, data :: rest =>
      { s with
        queue := rest
        sink := s.sink ++ (s.lastUpstreamAddr.map fun addr ↦ (data, addr)).toList
        taken := s.taken ++ [(data, s.lastUpstreamAddr)] }
    | _, _ => s
  | .stop => { s with stopped := true }

end Session

/-- `get_one_off_udp_query_timeout(..).is_some()`; `udp.rs:43–48`. -/
def isOneOffQuery (dst : Address) : Bool := dst.getPort == 53

/-- Everything a session gives to the upstream that it settles on. The candidates are tried
from the back, and `attempts` says which `new_datagram` calls succeed; `handler.rs:103–149`,
`udp_proxy.rs:28–31`. -/
def sessionGives (attempts : List Bool) (dst : SocketAddr) (initialData : Bytes)
    (events : List SessionEvent) : List (Bytes × SocketAddr) :=
  if attempts.any id then
    (initialData, dst) :: (initialData, dst) ::
      (if isOneOffQuery (.ip dst) then [] else (runFrom Session.step Session.start events).sink)
  else []

/-- No client datagram finds the channel full. -/
def HasRoom (s : Session) : SessionEvent → Prop
  | .arrive _ => s.queue.length < Session.capacity
  | _ => True

instance (s : Session) : (e : SessionEvent) → Decidable (HasRoom s e)
  | .arrive _ => inferInstanceAs (Decidable (_ < _))
  | .reply _ => isTrue trivial
  | .upload => isTrue trivial
  | .stop => isTrue trivial

/-- Still being served, with every queued datagram taken. -/
def Session.Drained (s : Session) : Prop := s.stopped = false ∧ s.queue = []

instance (s : Session) : Decidable s.Drained := inferInstanceAs (Decidable (_ ∧ _))

/-- What the sink gets of the datagrams that were taken. -/
def sent (taken : List (Bytes × Option SocketAddr)) : List (Bytes × SocketAddr) :=
  taken.filterMap fun p ↦ p.2.map fun addr ↦ (p.1, addr)

/-- The records agree with the channel and the sink, and once a reply has come there is an
address for every later datagram. -/
structure Recorded (s : Session) : Prop where
  sink : s.sink = sent s.taken
  arrived : s.arrived = s.taken.map Prod.fst ++ s.queue
  split : ∃ before after, s.taken = before ++ after ∧ (∀ p ∈ before, p.2 = none) ∧
    (∀ p ∈ after, p.2.isSome = true) ∧ (s.lastUpstreamAddr = none → after = [])

theorem recorded_start : Recorded Session.start where
  sink := rfl
  arrived := rfl
  split := ⟨[], [], rfl, by simp, by simp, fun _ ↦ rfl⟩

theorem sent_append (xs ys : List (Bytes × Option SocketAddr)) :
    sent (xs ++ ys) = sent xs ++ sent ys :=
  List.filterMap_append

private theorem Recorded.upload {s : Session} (h : Recorded s) {data : Bytes} {rest : List Bytes}
    (hq : s.queue = data :: rest) :
    Recorded { s with
      queue := rest
      sink := s.sink ++ (s.lastUpstreamAddr.map fun addr ↦ (data, addr)).toList
      taken := s.taken ++ [(data, s.lastUpstreamAddr)] } where
  sink := by
    have hone : sent [(data, s.lastUpstreamAddr)] =
        (s.lastUpstreamAddr.map fun addr ↦ (data, addr)).toList := by
      cases s.lastUpstreamAddr <;> rfl
    rw [sent_append, hone, h.sink]
  arrived := by
    simp [h.arrived, hq]
  split := by
    obtain ⟨before, after, htaken, hb, ha, hnone⟩ := h.split
    cases hl : s.lastUpstreamAddr with
    | none =>
      refine ⟨before ++ [(data, none)], [], ?_, ?_, by simp, fun _ ↦ rfl⟩
      · simp [htaken, hnone hl]
      · intro p hp
        rcases List.mem_append.mp hp with hp | hp
        · exact hb p hp
        · rw [List.mem_singleton] at hp
          rw [hp]
    | some addr =>
      refine ⟨before, after ++ [(data, some addr)], ?_, hb, ?_, by simp⟩
      · simp [htaken]
      · intro p hp
        rcases List.mem_append.mp hp with hp | hp
        · exact ha p hp
        · rw [List.mem_singleton] at hp
          rw [hp]
          rfl

theorem Recorded.step {s : Session} (e : SessionEvent) (h : Recorded s) : Recorded (s.step e) := by
  match e with
  | .arrive data =>
    rw [Session.step]
    split
    · exact h
    · exact ⟨h.sink, by simp [h.arrived], h.split⟩
  | .reply (.name _ _) => exact ⟨h.sink, h.arrived, h.split⟩
  | .stop => exact ⟨h.sink, h.arrived, h.split⟩
  | .reply (.ip addr) =>
    rw [Session.step]
    split
    · exact h
    · obtain ⟨before, after, htaken, hb, ha, _⟩ := h.split
      exact ⟨h.sink, h.arrived, before, after, htaken, hb, ha, by simp⟩
  | .upload =>
    rw [Session.step]
    split
    · next data rest _ hq => exact h.upload hq
    · exact h

/-- The client's datagrams of a run, the first one apart. -/
def clientDatagrams : List SessionEvent → List Bytes
  | [] => []
  | .arrive data :: events => data :: clientDatagrams events
  | _ :: events => clientDatagrams events

private theorem stopped_of_step {s : Session} (e : SessionEvent) (h : s.stopped = true) :
    (s.step e).stopped = true := by
  match e with
  | .arrive data => simp [Session.step, h]
  | .reply (.ip addr) => simp [Session.step, h]
  | .reply (.name _ _) => rfl
  | .upload => simp [Session.step, h]
  | .stop => rfl

private theorem not_stopped_of_run {s : Session} (events : List SessionEvent)
    (h : (runFrom Session.step s events).stopped = false) : s.stopped = false := by
  induction events generalizing s with
  | nil => exact h
  | cons e events ih =>
    have hs := ih h
    cases hst : s.stopped with
    | false => rfl
    | true =>
      rw [stopped_of_step e hst] at hs
      cases hs

/-- With room in the channel, a session that is still served has queued every datagram. -/
theorem arrived_eq {s : Session} {events : List SessionEvent}
    (hroom : Along Session.step HasRoom s events)
    (hlive : (runFrom Session.step s events).stopped = false) :
    (runFrom Session.step s events).arrived = s.arrived ++ clientDatagrams events := by
  induction events generalizing s with
  | nil => simp [clientDatagrams]
  | cons e events ih =>
    have hs := not_stopped_of_run (e :: events) hlive
    rw [runFrom_cons, ih hroom.2 hlive]
    match e with
    | .arrive data =>
      have hlt : ¬ Session.capacity ≤ s.queue.length := Nat.not_le.mpr hroom.1
      simp [Session.step, hs, hlt, clientDatagrams]
    | .reply (.ip addr) => simp [Session.step, hs, clientDatagrams]
    | .reply (.name _ _) => rfl
    | .stop => rfl
    | .upload =>
      have hskip : clientDatagrams (.upload :: events) = clientDatagrams events := rfl
      rw [Session.step, hskip]
      split <;> rfl

private theorem sent_of_none {xs : List (Bytes × Option SocketAddr)} (h : ∀ p ∈ xs, p.2 = none) :
    sent xs = [] := by
  rw [sent, List.filterMap_eq_nil_iff]
  intro p hp
  rw [h p hp]
  rfl

private theorem length_sent {xs : List (Bytes × Option SocketAddr)}
    (h : ∀ p ∈ xs, p.2.isSome = true) : (sent xs).length = xs.length := by
  induction xs with
  | nil => rfl
  | cons p xs ih =>
    obtain ⟨addr, haddr⟩ := Option.isSome_iff_exists.mp (h p List.mem_cons_self)
    have hxs := ih fun q hq ↦ h q (List.mem_cons_of_mem p hq)
    rw [sent] at hxs ⊢
    rw [List.filterMap_cons_some (by rw [haddr]; rfl), List.length_cons, hxs, List.length_cons]

private theorem sent_eq_iff {xs : List (Bytes × Option SocketAddr)} (dst : SocketAddr)
    (h : ∀ p ∈ xs, p.2.isSome = true) :
    sent xs = (xs.map Prod.fst).map (·, dst) ↔ ∀ p ∈ xs, p.2 = some dst := by
  induction xs with
  | nil => simp [sent]
  | cons p xs ih =>
    obtain ⟨addr, haddr⟩ := Option.isSome_iff_exists.mp (h p List.mem_cons_self)
    have hxs := ih fun q hq ↦ h q (List.mem_cons_of_mem p hq)
    have hcons : sent (p :: xs) = (p.1, addr) :: sent xs := by
      rw [sent, List.filterMap_cons_some (by rw [haddr]; rfl), ← sent]
    rw [hcons, List.map_cons, List.map_cons, List.cons.injEq, hxs, List.forall_mem_cons, haddr]
    simp

/-- The sink and the set-up give the right list exactly when the doubled first datagram
stands in for one that was dropped, and it is the only one. -/
theorem Recorded.gives_iff {s : Session} (h : Recorded s) (d0 : Bytes) (dst : SocketAddr) :
    (d0, dst) :: s.sink = (s.taken.map Prod.fst).map (·, dst) ↔
      ∃ later, s.taken = (d0, none) :: later ∧ ∀ p ∈ later, p.2 = some dst := by
  obtain ⟨before, after, htaken, hb, ha, _⟩ := h.split
  rw [h.sink]
  constructor
  · intro heq
    -- one datagram more was taken than sent, so one was taken before any reply
    have hlen := congrArg List.length heq
    rw [htaken, sent_append, sent_of_none hb] at hlen
    simp only [List.nil_append, List.length_cons, length_sent ha, List.length_map,
      List.length_append] at hlen
    obtain ⟨p, rfl⟩ : ∃ p, before = [p] := List.length_eq_one_iff.mp (by omega)
    rw [htaken, sent_append, sent_of_none hb] at heq
    simp only [List.nil_append, List.singleton_append, List.map_cons, List.cons.injEq,
      Prod.mk.injEq, and_true] at heq
    refine ⟨after, ?_, (sent_eq_iff dst ha).mp heq.2⟩
    rw [htaken, List.singleton_append, heq.1, ← hb p List.mem_cons_self]
  · rintro ⟨later, heq, hdst⟩
    have hsome : ∀ p ∈ later, p.2.isSome = true := by
      intro p hp
      rw [hdst p hp]
      rfl
    have hsent : sent ((d0, none) :: later) = sent later := rfl
    rw [heq, hsent, (sent_eq_iff dst hsome).mpr hdst, List.map_cons, List.map_cons]

/-- A session that has handled all of its client's datagrams has given them once each, in
order and to their destination, exactly when the first of them after the initial one
repeats it and is the only one taken before a reply, and each later one is taken when the
latest reply came from the destination. -/
theorem session_delivers_iff {attempts : List Bool} {dst : SocketAddr}
    {events : List SessionEvent} (d0 : Bytes) (hup : attempts.any id = true)
    (hport : dst.port ≠ 53) (hroom : Along Session.step HasRoom Session.start events)
    (hdone : (runFrom Session.step Session.start events).Drained) :
    sessionGives attempts dst d0 events = (d0 :: clientDatagrams events).map (·, dst) ↔
      ∃ later, (runFrom Session.step Session.start events).taken = (d0, none) :: later ∧
        ∀ p ∈ later, p.2 = some dst := by
  have hrec : Recorded (runFrom Session.step Session.start events) := by
    apply Along.invariant (P := HasRoom) (I := Recorded) _ recorded_start hroom
    intro s e hs _
    exact hs.step e
  have harr := arrived_eq hroom hdone.1
  rw [hrec.arrived, hdone.2, List.append_nil] at harr
  have hone : isOneOffQuery (.ip dst) = false := by
    cases dst <;> simpa [isOneOffQuery, Address.getPort] using hport
  rw [← hrec.gives_iff, harr, sessionGives, if_pos hup, hone]
  simp [Session.start]

private def server : SocketAddr := .v4 (Ipv4Addr.ofNat 134744072) 4000

private def elsewhere : SocketAddr := .v4 (Ipv4Addr.ofNat 134743044) 4000

/-- The first datagram is repeated before the reply, the next one follows it. -/
theorem session_delivers_repeated :
    sessionGives [true] server [7]
        [.arrive [7], .upload, .reply (.ip server), .arrive [8], .upload] =
      [([7], server), ([7], server), ([8], server)] :=
  (session_delivers_iff [7] (by decide) (by decide) (by decide) (by decide)).mpr
    ⟨[([8], some server)], rfl, by decide⟩

/-- The first datagram goes out twice, the second is dropped because no reply has come, the
third follows the reply to another address. -/
theorem session_misdelivers :
    ¬ ∀ (attempts : List Bool) (dst : SocketAddr) (d0 : Bytes) (events : List SessionEvent),
      attempts.any id = true → dst.port ≠ 53 →
      Along Session.step HasRoom Session.start events →
      (runFrom Session.step Session.start events).Drained →
      sessionGives attempts dst d0 events = (d0 :: clientDatagrams events).map (·, dst) := by
  intro h
  have hx := h [true] server [0]
    [.arrive [1], .upload, .reply (.ip elsewhere), .arrive [2], .upload]
    (by decide) (by decide) (by decide) (by decide)
  exact absurd hx (by decide)

end Cpxy.Transparent
