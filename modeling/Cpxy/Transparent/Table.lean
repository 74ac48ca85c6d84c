import Cpxy.Base.Run
import Cpxy.Net.Address
import Mathlib.Data.List.AList

/-!
# The session table of the transparent UDP proxy

Library `Transparent`. Source `src/client/transparent/handler.rs:20–164`. One loop owns the
table of sessions, keyed by source and destination. A session runs as a task of its own; at
its end it queues its key for the loop to remove.
-/

namespace Cpxy.Transparent

open Cpxy.Base Cpxy.Net

/-- `UdpSessionKey`; `handler.rs:25–29`. -/
structure UdpSessionKey where
  src : SocketAddr
  dst : SocketAddr
  deriving DecidableEq, Repr

/-- How far the task of a session has come: serving, about to queue its key
(`handler.rs:151`), behind that, or dropped. -/
inductive SessionPhase where
  | serving
  | ended
  | sent
  | dropped
  deriving DecidableEq, Repr

/-- The task of a session with the channel into it. Dropping the handle marks the task as
cancelled; it may still finish the poll it is in. -/
structure SessionTask where
  key : UdpSessionKey
  phase : SessionPhase
  cancelled : Bool
  queue : List Bytes
  closed : Bool
  deriving DecidableEq, Repr

/-- `UdpSession::new`; `handler.rs:92–164`. -/
def SessionTask.new (key : UdpSessionKey) : SessionTask := ⟨key, .serving, false, [], false⟩

/-- The loop's table, the tasks by number, and the queue of keys to remove. A queued key is
kept with the number of the session that queued it, which the loop does not see. -/
structure Table where
  sessions : AList fun _ : UdpSessionKey ↦ Nat
  tasks : List SessionTask
  cleanup : List (UdpSessionKey × Nat)

/-- What can happen next. -/
inductive Event where
  /-- The loop takes a datagram. -/
  | datagram (src dst : SocketAddr) (buf : Bytes)
  /-- The loop takes a queued key. -/
  | takeCleanup
  /-- A session takes a datagram from its channel. -/
  | receive (t : Nat)
  /-- A session drops its end of the channel. -/
  | closeRx (t : Nat)
  /-- A session stops serving. -/
  | stop (t : Nat)
  /-- A session returns early, without queueing its key; `handler.rs:103–108`. -/
  | fail (t : Nat)
  /-- A session queues its key, when there is room. -/
  | send (t : Nat)
  /-- The executor drops a cancelled task. -/
  | dropTask (t : Nat)
  deriving DecidableEq, Repr

namespace Table

/-- No sessions. -/
def start : Table := ⟨∅, [], []⟩

/-- `sessions.remove`: dropping the session, if there was one, cancels its task. -/
def removeSession (s : Table) (key : UdpSessionKey) : Table :=
  { s with
    sessions := s.sessions.erase key
    tasks :=
      match s.sessions.lookup key with
      | some n => s.tasks.modify n fun task ↦ { task with cancelled := true }
      | none => s.tasks }

/-- `handler.rs:65–87`. The channel holds ten datagrams. -/
def onDatagram (s : Table) (key : UdpSessionKey) (buf : Bytes) : Table :=
  match s.sessions.lookup key with
  | some n =>
    match s.tasks[n]? with
    | none => s
    | some task =>
      if task.closed then s.removeSession key
      else if task.queue.length < 10 then
        { s with tasks := s.tasks.modify n fun task ↦ { task with queue := task.queue ++ [buf] } }
      else s
  | none =>
    { s with
      sessions := s.sessions.insert key s.tasks.length
      tasks := s.tasks ++ [SessionTask.new key] }

/-- One step. -/
def step (s : Table) : Event → Table
  | .datagram src dst buf => s.onDatagram ⟨src, dst⟩ buf
  | .takeCleanup =>
    match s.cleanup with
    | [] => s
    | (key, _) :: rest => removeSession { s with cleanup := rest } key
  | .receive t => { s with tasks := s.tasks.modify t fun task ↦
      { task with queue := task.queue.tail } }
  | .closeRx t => { s with tasks := s.tasks.modify t fun task ↦ { task with closed := true } }
  | .stop t => { s with tasks := s.tasks.modify t fun task ↦
      if task.phase = .serving then { task with phase := .ended } else task }
  | .fail t => { s with tasks := s.tasks.modify t fun task ↦
      if task.phase = .serving then { task with phase := .dropped } else task }
  | .send t =>
    match s.tasks[t]? with
    | none => s
    | some task =>
      if task.phase = .ended ∧ s.cleanup.length < 2 then
        { s with
          tasks := s.tasks.modify t fun task ↦ { task with phase := .sent }
          cleanup := s.cleanup ++ [(task.key, t)] }
      else s
  | .dropTask t => { s with tasks := s.tasks.modify t fun task ↦
      if task.cancelled then { task with phase := .dropped } else task }

end Table

/-! ### Whose session a queued key removes -/

/-- A queued key takes out of the table, and so cancels, only the session that queued it. -/
def RemovesSender (s : Table) : Event → Prop
  | .takeCleanup => ∀ key n, s.sessions.lookup key = some n →
      (s.step .takeCleanup).sessions.lookup key ≠ some n → ∃ k rest, s.cleanup = (k, n) :: rest
  | _ => True

/-- A session is created only while no key of its pair is queued, and a session queues its
key only while no other one of its pair is in the table. -/
def KeySettled (s : Table) : Event → Prop
  | .datagram src dst _ => s.sessions.lookup ⟨src, dst⟩ = none →
      ∀ m ∈ s.cleanup, m.1 ≠ ⟨src, dst⟩
  | .send t => ∀ task ∈ s.tasks[t]?, ∀ n ∈ s.sessions.lookup task.key, n = t
  | _ => True

instance (s : Table) : (e : Event) → Decidable (KeySettled s e)
  | .datagram _ _ _ => inferInstanceAs (Decidable (_ → ∀ m ∈ s.cleanup, _))
  | .takeCleanup => isTrue trivial
  | .receive _ => isTrue trivial
  | .closeRx _ => isTrue trivial
  | .stop _ => isTrue trivial
  | .fail _ => isTrue trivial
  | .send t => inferInstanceAs (Decidable (∀ task ∈ s.tasks[t]?, _))
  | .dropTask _ => isTrue trivial

/-- Every queued key is that of the session in the table, if there is one. -/
def Settled (s : Table) : Prop :=
  ∀ m ∈ s.cleanup, ∀ n, s.sessions.lookup m.1 = some n → n = m.2

variable {s : Table}

theorem lookup_erase_of_some {key k : UdpSessionKey} {n : Nat}
    {m : AList fun _ : UdpSessionKey ↦ Nat} (h : (m.erase key).lookup k = some n) :
    k ≠ key ∧ m.lookup k = some n := by
  by_cases hk : k = key
  · subst hk
    rw [AList.lookup_erase] at h
    cases h
  · rw [AList.lookup_erase_ne hk] at h
    exact ⟨hk, h⟩

/-- Taking sessions and queued keys away leaves the rest settled. -/
theorem Settled.mono {t : Table} (h : Settled s) (hc : ∀ m ∈ t.cleanup, m ∈ s.cleanup)
    (hs : ∀ k n, t.sessions.lookup k = some n → s.sessions.lookup k = some n) : Settled t := by
  intro m hm n hn
  exact h m (hc m hm) n (hs m.1 n hn)

theorem Settled.removeSession (h : Settled s) (key : UdpSessionKey) :
    Settled (s.removeSession key) := by
  apply h.mono
  · intro m hm
    exact hm
  · intro k n hn
    exact (lookup_erase_of_some hn).2

theorem Settled.onDatagram (h : Settled s) {src dst : SocketAddr} {buf : Bytes}
    (hk : KeySettled s (.datagram src dst buf)) : Settled (s.onDatagram ⟨src, dst⟩ buf) := by
  unfold Table.onDatagram
  split
  · split
    · exact h
    · split
      · exact h.removeSession _
      · split
        · exact h
        · exact h
  · next hnone =>
    intro m hm n hn
    have hne := hk hnone m hm
    dsimp only at hn
    rw [AList.lookup_insert_ne hne] at hn
    exact h m hm n hn

/-- A settled step keeps the table settled. -/
theorem Settled.step (e : Event) (h : Settled s) (hk : KeySettled s e) : Settled (s.step e) := by
  cases e with
  | datagram src dst buf => exact h.onDatagram hk
  | takeCleanup =>
    unfold Table.step
    dsimp only
    split
    · exact h
    · next key t rest hc =>
      apply Settled.removeSession
      apply h.mono
      · intro m hm
        rw [hc]
        exact List.mem_cons_of_mem _ hm
      · intro k n hn
        exact hn
  | receive t => exact h
  | closeRx t => exact h
  | stop t => exact h
  | fail t => exact h
  | dropTask t => exact h
  | send t =>
    unfold Table.step
    dsimp only
    split
    · exact h
    · next task ht =>
      split
      · intro m hm n hn
        rcases List.mem_append.mp hm with hm | hm
        · exact h m hm n hn
        · rw [List.mem_singleton] at hm
          subst hm
          exact hk task ht n hn
      · exact h

/-- In a settled table a queued key removes the session that queued it. -/
theorem Settled.removesSender (e : Event) (h : Settled s) : RemovesSender s e := by
  cases e with
  | takeCleanup =>
    intro key n hn hgone
    unfold Table.step at hgone
    dsimp only at hgone
    split at hgone
    · exact absurd hn hgone
    · next k t rest hc =>
      have hkey : key = k := by
        by_contra hne
        apply hgone
        rw [Table.removeSession]
        dsimp only
        rw [AList.lookup_erase_ne hne]
        exact hn
      subst hkey
      obtain rfl := h (key, t) (by rw [hc]; exact List.mem_cons_self) n hn
      exact ⟨key, rest, hc⟩
  | _ => trivial

/-- In every run whose steps are settled, a queued key removes only its sender. -/
theorem table_removes_sender (events : List Event)
    (h : Along Table.step KeySettled Table.start events) :
    Along Table.step RemovesSender Table.start events := by
  apply Along.imp (I := Settled) (P := KeySettled) _ _ _ h
  · intro s e hs hk
    exact hs.step e hk
  · intro s e hs _
    exact hs.removesSender e
  · intro m hm
    cases hm

private def client : SocketAddr := .v4 (Ipv4Addr.ofNat 167772161) 5000

private def remote : SocketAddr := .v4 (Ipv4Addr.ofNat 134744072) 4000

private def datagramOf (b : UInt8) : Event := .datagram client remote [b]

/-- A pair that gets a new session once the key of the old one has been taken. -/
theorem table_removes_sender_reused :
    Along Table.step RemovesSender Table.start
      [datagramOf 0, .closeRx 0, .stop 0, .send 0, .takeCleanup, datagramOf 1, .stop 1, .send 1,
        .takeCleanup] :=
  table_removes_sender _ (by decide)

/-- A session ends and queues its key; a datagram finds its channel closed and removes it;
the next one creates a new session; the queued key then removes that one. -/
theorem table_removes_other :
    ¬ ∀ events, Along Table.step RemovesSender Table.start events := by
  intro h
  have hrun := h [datagramOf 0, .closeRx 0, .stop 0, .send 0, datagramOf 1, datagramOf 2,
    .takeCleanup]
  have hlast := hrun.2.2.2.2.2.2.1
  obtain ⟨k, rest, hc⟩ := hlast ⟨client, remote⟩ 1 (by decide) (by decide)
  cases hc

end Cpxy.Transparent
