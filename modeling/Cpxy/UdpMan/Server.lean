import Cpxy.Base.Run
import Cpxy.UdpMan.ConnMap
import Cpxy.UdpMan.Proto

/-!
# The udpman server

Library `UdpMan`. Source `src/protocol/udpman/server.rs:55–156` and `212–319`. The receive loop
owns the allocation of ids; each connection runs as a task that takes its id out of the map
when it is dropped. Loop and tasks share the map and interleave freely.
-/

namespace Cpxy.UdpMan

open Cpxy.Base

/-- Life of a connection task. The deferred removal of `server.rs:224–229` is armed by the
first poll and runs when the task's future is dropped. -/
inductive Phase where
  | spawned
  | running
  | ended
  | gone
  deriving DecidableEq, Repr

/-- A connection task: its id, its phase, and the channel into it. -/
structure ConnTask where
  id : UInt16
  phase : Phase
  incoming : List Bytes
  closed : Bool
  deriving DecidableEq, Repr

namespace ConnTask

/-- `Conn::new`; `server.rs:212–319`: the task is handed to the executor. -/
def new (id : UInt16) : ConnTask := ⟨id, .spawned, [], false⟩

/-- Dropping the handle of a task: its future is dropped at the next occasion, and without
trace if it never ran. -/
def cancel (t : ConnTask) : ConnTask :=
  match t.phase with
  | .spawned => { t with phase := .gone }
  | .running => { t with phase := .ended }
  | .ended => t
  | .gone => t

/-- The room of `channel(10)` with one sender; `server.rs:222`. -/
def capacity : Nat := 11

end ConnTask

/-- The map and the tasks, a task's number being its place in the list. -/
structure Server where
  connections : ConnMap
  tasks : List ConnTask

/-- What can happen next: a message reaches the loop, or a task takes a step. -/
inductive Event where
  | receive (msg : Message)
  /-- The first poll of a task. -/
  | poll (t : Nat)
  /-- The upload half sends one datagram on. -/
  | upload (t : Nat)
  /-- The upload half ends, and its end of the channel with it. -/
  | closeUpload (t : Nat)
  /-- The task returns. -/
  | finish (t : Nat)
  /-- The deferred removal runs. -/
  | runDeferred (t : Nat)

namespace Server

/-- No connections. -/
def start : Server := ⟨.empty, []⟩

/-- Remove an id; dropping the connection, if there was one, cancels its task. -/
def removeConn (s : Server) (id : UInt16) : Server where
  connections := (s.connections.remove id).2
  tasks :=
    match (s.connections.remove id).1 with
    | some c => s.tasks.modify c.task ConnTask.cancel
    | none => s.tasks

/-- The loop body of `server.rs:70–136`. Only the loop inserts, so between a failed send and
the removal the entry for the id is still the one that the send failed on, or is gone. -/
def receive (s : Server) : Message → Server
  | .connect _ _ none _ =>
    match s.connections.findAvailableId with
    | none => s
    | some id =>
      { connections := s.connections.insert ⟨id, s.tasks.length⟩
        tasks := s.tasks ++ [ConnTask.new id] }
  | .data (some id) _ payload _ =>
    match s.connections.get id with
    | none => s
    | some c =>
      match s.tasks[c.task]? with
      | none => s
      | some task =>
        if task.closed then s.removeConn id
        else if task.incoming.length < ConnTask.capacity then
          { s with tasks := s.tasks.modify c.task fun task ↦
              { task with incoming := task.incoming ++ [payload] } }
        else s
  | _ => s

/-- One step. -/
def step (s : Server) : Event → Server
  | .receive msg => s.receive msg
  | .poll t => { s with tasks := s.tasks.modify t fun task ↦
      if task.phase = .spawned then { task with phase := .running } else task }
  | .upload t => { s with tasks := s.tasks.modify t fun task ↦
      { task with incoming := task.incoming.tail } }
  | .closeUpload t => { s with tasks := s.tasks.modify t fun task ↦ { task with closed := true } }
  | .finish t => { s with tasks := s.tasks.modify t fun task ↦
      if task.phase = .running then { task with phase := .ended } else task }
  | .runDeferred t =>
    match s.tasks[t]? with
    | none => s
    | some task =>
      if task.phase = .ended then
        removeConn { s with tasks := s.tasks.modify t fun task ↦ { task with phase := .gone } }
          task.id
      else s

end Server

/-! ### Who may remove an entry -/

/-- Removals that are the business of the connection stored: its own task's clean-up, or a
send to it that failed because its end of the channel is closed. -/
def Justified (s : Server) (e : Event) (c : Conn) : Prop :=
  e = .runDeferred c.task ∨
    ∃ addr payload nonce, e = .receive (.data (some c.id) addr payload nonce) ∧
      ∃ task, s.tasks[c.task]? = some task ∧ task.closed = true

/-- A step removes an entry only on behalf of the connection stored in it. -/
def RemovesOwn (s : Server) (e : Event) : Prop :=
  ∀ c ∈ s.connections, c ∉ (s.step e).connections → Justified s e c

/-- A new connection does not get the id of a task whose deferred removal is outstanding. -/
def IdSettled (s : Server) : Event → Prop
  | .receive (.connect _ _ none _) =>
    ∀ task ∈ s.tasks, s.connections.findAvailableId = some task.id → task.phase ≠ .ended
  | _ => True

instance (s : Server) : (e : Event) → Decidable (IdSettled s e)
  | .receive (.connect _ _ none _) => inferInstanceAs (Decidable (∀ task ∈ s.tasks, _))
  | .receive (.connect _ _ (some _) _) => isTrue trivial
  | .receive (.establish _ _ _) => isTrue trivial
  | .receive (.data _ _ _ _) => isTrue trivial
  | .poll _ => isTrue trivial
  | .upload _ => isTrue trivial
  | .closeUpload _ => isTrue trivial
  | .finish _ => isTrue trivial
  | .runDeferred _ => isTrue trivial

/-- Order of the phases. -/
def Phase.rank : Phase → Nat
  | .spawned => 0
  | .running => 1
  | .ended => 2
  | .gone => 3

/-- A task keeps its id and never returns to an earlier phase. -/
def Ages (t u : ConnTask) : Prop := u.id = t.id ∧ t.phase.rank ≤ u.phase.rank

/-- Entries belong to tasks with their id, live tasks have an entry, and no entry has the id
of another task that may still remove it. -/
structure Inv (s : Server) : Prop where
  owned : ∀ c ∈ s.connections, ∃ task, s.tasks[c.task]? = some task ∧ task.id = c.id
  live : ∀ t task, s.tasks[t]? = some task → task.phase.rank ≤ 1 → ∃ c ∈ s.connections, c.task = t
  unique : ∀ t task c, s.tasks[t]? = some task → task.phase.rank ≤ 2 → c ∈ s.connections →
    c.id = task.id → c.task = t

theorem inv_start : Inv Server.start where
  owned := by simp [Server.start]
  live := by simp [Server.start]
  unique := by simp [Server.start]

theorem ConnTask.ages_cancel (t : ConnTask) : Ages t t.cancel := by
  cases h : t.phase <;> simp [Ages, ConnTask.cancel, h, Phase.rank]

/-- A live task that is cancelled is not live any more. -/
theorem ConnTask.rank_cancel (t : ConnTask) : 2 ≤ t.cancel.phase.rank := by
  cases h : t.phase <;> simp [ConnTask.cancel, h, Phase.rank]

private theorem getElem?_modify_ages {ts : List ConnTask} {f : ConnTask → ConnTask}
    (hf : ∀ t, Ages t (f t)) {n t : Nat} {task : ConnTask}
    (h : (ts.modify n f)[t]? = some task) : ∃ old, ts[t]? = some old ∧ Ages old task := by
  rw [List.getElem?_modify] at h
  obtain ⟨old, hold, rfl⟩ := Option.map_eq_some_iff.mp h
  refine ⟨old, hold, ?_⟩
  split
  · exact hf old
  · exact ⟨rfl, Nat.le_refl _⟩

variable {s : Server}

/-- Ageing a task keeps the invariant. -/
theorem Inv.modify (h : Inv s) {f : ConnTask → ConnTask} (hf : ∀ t, Ages t (f t)) (n : Nat) :
    Inv { s with tasks := s.tasks.modify n f } where
  owned := by
    intro c hc
    obtain ⟨task, htask, hid⟩ := h.owned c hc
    refine ⟨if n = c.task then f task else task, ?_, ?_⟩
    · rw [List.getElem?_modify, htask]
      split <;> rfl
    · split
      · rw [(hf task).1, hid]
      · exact hid
  live := by
    intro t task ht hr
    obtain ⟨old, hold, _, hrank⟩ := getElem?_modify_ages hf ht
    exact h.live t old hold (by omega)
  unique := by
    intro t task c ht hr hc hid
    obtain ⟨old, hold, hoid, hrank⟩ := getElem?_modify_ages hf ht
    exact h.unique t old c hold (by omega) hc (by rw [hid, hoid])

/-- Removing an id keeps the invariant when no live task has it. -/
theorem Inv.remove (h : Inv s) (id : UInt16)
    (hdead : ∀ (t : Nat) (task : ConnTask), s.tasks[t]? = some task → task.id = id →
      2 ≤ task.phase.rank) :
    Inv { s with connections := (s.connections.remove id).2 } where
  owned := by
    intro c hc
    exact h.owned c (ConnMap.mem_remove.mp hc).1
  live := by
    intro t task ht hr
    obtain ⟨c, hc, rfl⟩ := h.live t task ht hr
    obtain ⟨task', ht', hid⟩ := h.owned c hc
    obtain rfl : task = task' := Option.some.inj (ht.symm.trans ht')
    refine ⟨c, ConnMap.mem_remove.mpr ⟨hc, ?_⟩, rfl⟩
    intro heq
    have := hdead c.task task ht (hid.trans heq)
    omega
  unique := by
    intro t task c ht hr hc hid
    exact h.unique t task c ht hr (ConnMap.mem_remove.mp hc).1 hid

/-- The entry that goes is the one with the id. -/
theorem Server.mem_removeConn {id : UInt16} {c : Conn} :
    c ∈ (s.removeConn id).connections ↔ c ∈ s.connections ∧ c.id ≠ id :=
  ConnMap.mem_remove

/-- Removing an id and cancelling what it named keeps the invariant. -/
theorem Inv.removeConn (h : Inv s) {id : UInt16}
    (hdead : ∀ t task, s.tasks[t]? = some task → task.id = id → task.phase.rank ≤ 1 →
      ∃ c, s.connections.get id = some c ∧ c.task = t) :
    Inv (s.removeConn id) := by
  unfold Server.removeConn
  rw [ConnMap.remove_fst]
  cases hg : s.connections.get id with
  | none =>
    apply h.remove
    intro t task ht hid
    by_contra hr
    obtain ⟨c, hc, _⟩ := hdead t task ht hid (by omega)
    rw [hg] at hc
    cases hc
  | some c =>
    apply Inv.remove (s := { s with tasks := s.tasks.modify c.task ConnTask.cancel })
      (h.modify ConnTask.ages_cancel c.task)
    intro t task ht hid
    by_contra hr
    rw [List.getElem?_modify] at ht
    obtain ⟨old, hold, rfl⟩ := Option.map_eq_some_iff.mp ht
    split at hr
    · have := old.rank_cancel
      omega
    · next hne =>
      rw [if_neg hne] at hid
      obtain ⟨d, hd, hdt⟩ := hdead t old hold hid (by omega)
      rw [hg] at hd
      cases hd
      exact hne hdt

private theorem Inv.insert (h : Inv s) {id : UInt16} (hf : s.connections.findAvailableId = some id)
    (hs : ∀ task ∈ s.tasks, task.id = id → task.phase ≠ .ended) :
    Inv ⟨s.connections.insert ⟨id, s.tasks.length⟩, s.tasks ++ [ConnTask.new id]⟩ := by
  have hfresh {c : Conn} (hc : c ∈ s.connections) : c.id ≠ id :=
    ConnMap.findAvailableId_fresh hf hc
  have hnew {t : Nat} {task : ConnTask} (ht : (s.tasks ++ [ConnTask.new id])[t]? = some task) :
      s.tasks[t]? = some task ∨ t = s.tasks.length ∧ task = ConnTask.new id := by
    by_cases hlt : t < s.tasks.length
    · rw [List.getElem?_append_left hlt] at ht
      exact .inl ht
    · rw [List.getElem?_append_right (by omega)] at ht
      have hz : t - s.tasks.length = 0 := by
        have := (List.getElem?_eq_some_iff.mp ht).1
        simp at this
        omega
      rw [hz] at ht
      exact .inr ⟨by omega, (Option.some.inj ht).symm⟩
  constructor
  · intro c hc
    rcases ConnMap.mem_insert.mp hc with rfl | ⟨hc, _⟩
    · exact ⟨ConnTask.new id, by simp, rfl⟩
    · obtain ⟨task, ht, hid⟩ := h.owned c hc
      have hlt := (List.getElem?_eq_some_iff.mp ht).1
      exact ⟨task, by rw [List.getElem?_append_left hlt, ht], hid⟩
  · intro t task ht hr
    rcases hnew ht with ht | ⟨rfl, rfl⟩
    · obtain ⟨c, hc, hct⟩ := h.live t task ht hr
      exact ⟨c, ConnMap.mem_insert.mpr (.inr ⟨hc, hfresh hc⟩), hct⟩
    · exact ⟨_, ConnMap.mem_insert.mpr (.inl rfl), rfl⟩
  · intro t task c ht hr hc hid
    rcases ConnMap.mem_insert.mp hc with rfl | ⟨hc, hne⟩
    · rcases hnew ht with ht | ⟨rfl, _⟩
      · -- an earlier task with this id: neither live, for the id is free, nor ended
        have hp := hs task (List.mem_of_getElem? ht) hid.symm
        have hr1 : task.phase.rank ≤ 1 := by
          cases hph : task.phase <;> simp_all [Phase.rank]
        obtain ⟨d, hd, rfl⟩ := h.live t task ht hr1
        obtain ⟨task', ht', hid'⟩ := h.owned d hd
        obtain rfl : task = task' := Option.some.inj (ht.symm.trans ht')
        exact absurd (hid'.symm.trans hid.symm) (hfresh hd)
      · rfl
    · rcases hnew ht with ht | ⟨rfl, rfl⟩
      · exact h.unique t task c ht hr hc hid
      · exact absurd hid (hfresh hc)

theorem Inv.receive (h : Inv s) (msg : Message) (hs : IdSettled s (.receive msg)) :
    Inv (s.receive msg) := by
  unfold Server.receive
  split
  · split
    · exact h
    · next id hf =>
      apply h.insert hf
      intro task htask hid
      exact hs task htask (by rw [hid, hf])
  · split
    · exact h
    · next c hg =>
      split
      · exact h
      · next task ht =>
        split
        · apply h.removeConn
          intro t task' ht' hid hr
          obtain ⟨d, hd, rfl⟩ := h.live t task' ht' hr
          obtain ⟨task'', ht'', hid''⟩ := h.owned d hd
          obtain rfl : task' = task'' := Option.some.inj (ht'.symm.trans ht'')
          exact ⟨d, ConnMap.get_eq_some_iff.mpr ⟨hd, hid''.symm.trans hid⟩, rfl⟩
        · split
          · apply h.modify
            intro t
            exact ⟨rfl, Nat.le_refl _⟩
          · exact h
  · exact h

/-- A step that gives no task's id away keeps the invariant. -/
theorem Inv.step (e : Event) (h : Inv s) (hs : IdSettled s e) : Inv (s.step e) := by
  cases e with
  | receive msg => exact h.receive msg hs
  | poll t =>
    apply h.modify
    intro task
    cases hp : task.phase <;> simp [Ages, hp, Phase.rank]
  | upload t =>
    apply h.modify
    intro task
    exact ⟨rfl, Nat.le_refl _⟩
  | closeUpload t =>
    apply h.modify
    intro task
    exact ⟨rfl, Nat.le_refl _⟩
  | finish t =>
    apply h.modify
    intro task
    cases hp : task.phase <;> simp [Ages, hp, Phase.rank]
  | runDeferred t =>
    unfold Server.step
    dsimp only
    split
    · exact h
    · next task ht =>
      split
      · next hp =>
        have hgone : ∀ task : ConnTask, Ages task { task with phase := .gone } := by
          intro task
          cases hph : task.phase <;> simp [Ages, hph, Phase.rank]
        apply (h.modify hgone t).removeConn
        intro t' task' ht' hid hr
        obtain ⟨old, hold, hoid, hrank⟩ := getElem?_modify_ages hgone ht'
        obtain ⟨d, hd, rfl⟩ := h.live t' old hold (by omega)
        obtain ⟨old', hold', hid'⟩ := h.owned d hd
        obtain rfl : old = old' := Option.some.inj (hold.symm.trans hold')
        exact ⟨d, ConnMap.get_eq_some_iff.mpr ⟨hd, by rw [← hid', ← hoid, hid]⟩, rfl⟩
      · exact h

/-- With the invariant, a step removes an entry only on behalf of its own connection. -/
theorem Inv.removesOwn (e : Event) (h : Inv s) : RemovesOwn s e := by
  intro c hc hgone
  cases e with
  | poll t => exact absurd hc hgone
  | upload t => exact absurd hc hgone
  | closeUpload t => exact absurd hc hgone
  | finish t => exact absurd hc hgone
  | runDeferred t =>
    unfold Server.step at hgone
    dsimp only at hgone
    split at hgone
    · exact absurd hc hgone
    · next task ht =>
      split at hgone
      · next hp =>
        have hid : c.id = task.id := by
          by_contra hne
          exact hgone (Server.mem_removeConn.mpr ⟨hc, hne⟩)
        have hct := h.unique t task c ht (by rw [hp]; exact Nat.le_refl 2) hc hid
        exact .inl (by rw [hct])
      · exact absurd hc hgone
  | receive msg =>
    unfold Server.step Server.receive at hgone
    dsimp only at hgone
    split at hgone
    · split at hgone
      · exact absurd hc hgone
      · next id hf =>
        exact absurd (ConnMap.mem_insert.mpr
          (.inr ⟨hc, ConnMap.findAvailableId_fresh hf hc⟩)) hgone
    · next id addr payload nonce =>
      split at hgone
      · exact absurd hc hgone
      · next d hg =>
        obtain ⟨hd, hdid⟩ := ConnMap.get_eq_some_iff.mp hg
        split at hgone
        · exact absurd hc hgone
        · next task ht =>
          split at hgone
          · next hclosed =>
            have hid : c.id = id := by
              by_contra hne
              exact hgone (Server.mem_removeConn.mpr ⟨hc, hne⟩)
            obtain rfl : c = d := ConnMap.eq_of_mem hc hd (hid.trans hdid.symm)
            exact .inr ⟨addr, payload, nonce, by rw [hid], task, ht, hclosed⟩
          · split at hgone
            · exact absurd hc hgone
            · exact absurd hc hgone
    · exact absurd hc hgone

/-- In every run in which no connection gets the id of a task with an outstanding removal,
every entry is removed by its own connection's end or by a failed send to it. -/
theorem server_removes_own (events : List Event)
    (h : Along Server.step IdSettled Server.start events) :
    Along Server.step RemovesOwn Server.start events :=
  Along.imp (I := Inv) (fun _ e hi hs ↦ hi.step e hs) (fun _ e hi _ ↦ hi.removesOwn e) inv_start h

private def dst : Net.SocketAddr := .v4 (Net.Ipv4Addr.ofNat 134744072) 53

private def connectMsg : Event := .receive (.connect [] [1] none dst)

private def dataMsg : Event := .receive (.data (some 1) none [2] none)

/-- An id that is used again after the clean-up of its first owner. -/
theorem server_removes_own_reused :
    Along Server.step RemovesOwn Server.start
      [connectMsg, .poll 0, .closeUpload 0, dataMsg, .runDeferred 0, connectMsg, .poll 1,
        dataMsg] :=
  server_removes_own _ (by decide)

/-- The clean-up of a cancelled connection that comes after its id was used again takes the
new connection out of the map. -/
theorem server_removes_other :
    ¬ ∀ events, Along Server.step RemovesOwn Server.start events := by
  intro h
  have hrun := h [connectMsg, .poll 0, .closeUpload 0, dataMsg, connectMsg, .runDeferred 0]
  have hlast := hrun.2.2.2.2.2.1
  rcases hlast ⟨1, 1⟩ (by decide) (by decide) with hown | ⟨_, _, _, hdata, _⟩
  · cases hown
  · cases hdata

end Cpxy.UdpMan
