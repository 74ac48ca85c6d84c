import Cpxy.Base.Task
import Cpxy.Base.Writer
import Cpxy.Io.ReadLoop

/-!
# Tunnels

Library `Io`. Source `src/utils.rs:14–61` and `124–158`. Two tasks copy the two directions of a
tunnel, and the tunnel ends with the first of them. Each poll of a task is given the answers
to the calls it makes below; when they run out, the next call has to wait.
-/

namespace Cpxy.Io

open Cpxy.Base

/-! ### Copying with a counter -/

/-- `copy_with_stats`, between two calls below; `utils.rs:14–31`. What was read last and is
still to be written is held. -/
structure CopyWithStats where
  r : List Chunk
  held : Bytes
  w : Bytes
  stat : UInt64

namespace CopyWithStats

/-- Before the first read. -/
def start (stat : UInt64) (r : List Chunk) : CopyWithStats := ⟨r, [], [], stat⟩

/-- One read into the buffer of `utils.rs:19`: the task stops, or goes on. -/
def readStep (s : CopyWithStats) : Answer → Option (Poll (Outcome ErrorChain Unit)) × CopyWithStats
  | .pending => (some .pending, s)
  | .failed e => (some (.ready (.err e)), s)
  | .ready _ =>
    let (data, r) := takeChunk 8192 s.r
    if data = [] then (some (.ready (.ok ())), s)
    else (none, { s with r := r, held := data, stat := s.stat + UInt64.ofNat data.length })

/-- One write of `write_all`; `utils.rs:25–27`. -/
def writeStep (s : CopyWithStats) (answer : Answer) :
    Option (Poll (Outcome ErrorChain Unit)) × CopyWithStats :=
  match answer.pollWrite s.held with
  | (.pending, _) => (some .pending, s)
  | (.ready (.err e), _) => (some (.ready (.err ("Writing to" :: e))), s)
  | (.ready .panicked, _) => (some (.ready .panicked), s)
  | (.ready (.ok n), taken) =>
    let s := { s with held := s.held.drop n, w := s.w ++ taken }
    if n = 0 then (some (.ready (.err ["Writing to", "write zero"])), s) else (none, s)

/-- The next call below. -/
def step (s : CopyWithStats) (answer : Answer) :
    Option (Poll (Outcome ErrorChain Unit)) × CopyWithStats :=
  if s.held = [] then s.readStep answer else s.writeStep answer

/-- One poll. -/
def poll (s : CopyWithStats) : List Answer → Poll (Outcome ErrorChain Unit) × CopyWithStats
  | [] => (.pending, s)
  | answer :: answers =>
    match s.step answer with
    | (none, s) => s.poll answers
    | (some p, s) => (p, s)

/-- No byte of the stream is lost, and what was read is counted. -/
structure Copying (stat : UInt64) (r : List Chunk) (s : CopyWithStats) : Prop where
  all : s.w ++ s.held ++ content s.r = content r
  counted : s.stat = stat + UInt64.ofNat (s.w ++ s.held).length

variable {stat : UInt64} {r : List Chunk} {s : CopyWithStats}

theorem copying_start (stat : UInt64) (r : List Chunk) : Copying stat r (start stat r) where
  all := rfl
  counted := by
    rw [start, List.append_nil, List.length_nil]
    exact (UInt64.add_zero stat).symm

theorem Copying.readStep (h : Copying stat r s) (hheld : s.held = []) (answer : Answer) :
    Copying stat r (s.readStep answer).2 ∧
      ((s.readStep answer).1 = some (.ready (.ok ())) → (s.readStep answer).2.w = content r) := by
  have hall := h.all
  have hcounted := h.counted
  rw [hheld, List.append_nil] at hall hcounted
  cases answer with
  | pending => exact ⟨h, nofun⟩
  | failed e => exact ⟨h, nofun⟩
  | ready limit =>
    obtain ⟨hsplit, _⟩ := takeChunk_spec 8192 s.r
    rw [CopyWithStats.readStep]
    dsimp only
    split
    · next hnil =>
      have hend := takeChunk_eq_nil (by decide) hnil
      rw [hend, content_nil, List.append_nil] at hall
      exact ⟨h, fun _ ↦ hall⟩
    · refine ⟨⟨?_, ?_⟩, nofun⟩
      · rw [List.append_assoc, hsplit, hall]
      · dsimp only
        rw [hcounted, List.length_append, UInt64.ofNat_add, UInt64.add_assoc]

theorem Copying.writeStep (h : Copying stat r s) (answer : Answer) :
    Copying stat r (s.writeStep answer).2 ∧ (s.writeStep answer).1 ≠ some (.ready (.ok ())) := by
  rw [CopyWithStats.writeStep]
  cases answer with
  | pending => exact ⟨h, nofun⟩
  | failed e => exact ⟨h, nofun⟩
  | ready limit =>
    have hheld : s.held.take limit ++ s.held.drop (min limit s.held.length) = s.held := by
      rw [List.take_eq_take_min, List.take_append_drop]
    have hkeeps : Copying stat r { s with
        held := s.held.drop (min limit s.held.length), w := s.w ++ s.held.take limit } := by
      constructor
      · rw [List.append_assoc s.w, hheld]
        exact h.all
      · rw [List.append_assoc, hheld]
        exact h.counted
    dsimp only [Answer.pollWrite]
    split
    · exact ⟨hkeeps, nofun⟩
    · exact ⟨hkeeps, nofun⟩

theorem Copying.step (h : Copying stat r s) (answer : Answer) :
    Copying stat r (s.step answer).2 ∧
      ((s.step answer).1 = some (.ready (.ok ())) → (s.step answer).2.w = content r) := by
  rw [CopyWithStats.step]
  split
  · next hheld => exact h.readStep hheld answer
  · obtain ⟨hkeeps, hgoes⟩ := h.writeStep answer
    exact ⟨hkeeps, fun hok ↦ absurd hok hgoes⟩

/-- One poll keeps every byte, and is ready without an error only when all were written. -/
theorem Copying.poll (h : Copying stat r s) (answers : List Answer) :
    Copying stat r (s.poll answers).2 ∧
      ((s.poll answers).1 = .ready (.ok ()) → (s.poll answers).2.w = content r) := by
  induction answers generalizing s with
  | nil => exact ⟨h, nofun⟩
  | cons answer answers ih =>
    have hstep := h.step answer
    rw [CopyWithStats.poll]
    split
    · next s' heq =>
      rw [heq] at hstep
      exact ih hstep.1
    · next p s' heq =>
      rw [heq] at hstep
      exact ⟨hstep.1, fun hok ↦ hstep.2 (congrArg some hok)⟩

/-- The task counts and writes what it reads, and is done when everything is written. -/
theorem contract (stat : UInt64) (r : List Chunk) :
    Contract CopyWithStats.poll (Copying stat r) fun p s ↦
      Copying stat r s ∧ (p = .ok () → s.w = content r) where
  pending s answers s' h hp := by
    have hpoll := h.poll answers
    rw [hp] at hpoll
    exact hpoll.1
  ready s answers p s' h hp := by
    have hpoll := h.poll answers
    rw [hp] at hpoll
    exact ⟨hpoll.1, fun hok ↦ hpoll.2 (congrArg Poll.ready hok)⟩

end CopyWithStats

/-! ### Both directions -/

/-- A task that copies a stream to a writer: how it starts, a poll of it, and what it has
written. -/
structure Copier (τ : Type) where
  start : List Chunk → τ
  poll : τ → List Answer → Poll (Outcome ErrorChain Unit) × τ
  written : τ → Bytes

/-- What is promised of `futures::io::copy`: it writes what it reads, in order, and is done when
everything is written. -/
def Copier.Copies {τ : Type} (copy : Copier τ) : Prop :=
  ∀ r polls p s, runTask copy.poll (copy.start r) polls = (p, s) →
    copy.written s <+: content r ∧ (p = some (.ok ()) → copy.written s = content r)

/-- `copy_with_stats` as such a task. -/
def CopyWithStats.copier (stat : UInt64) : Copier CopyWithStats := ⟨start stat, poll, w⟩

theorem CopyWithStats.Copying.written {stat : UInt64} {r : List Chunk} {s : CopyWithStats}
    (h : Copying stat r s) : s.w <+: content r := by
  rw [← h.all, List.append_assoc]
  exact List.prefix_append _ _

theorem CopyWithStats.copies (stat : UInt64) : (CopyWithStats.copier stat).Copies := by
  intro r polls p s hrun
  rcases (contract stat r).run (copying_start stat r) hrun with ⟨rfl, hs⟩ | ⟨a, rfl, hs, hdone⟩
  · exact ⟨hs.written, nofun⟩
  · exact ⟨hs.written, fun hok ↦ hdone (Option.some.inj hok)⟩

variable {τ : Type}

/-- `task1` and `task2` of `copy_duplex`, with a counter or without one; `utils.rs:42–58`. -/
def direction (copy : Copier τ) (count : Option UInt64) : Copier (CopyWithStats ⊕ τ) where
  start r :=
    match count with
    | some stat => .inl (.start stat r)
    | none => .inr (copy.start r)
  poll
    | .inl s, answers => ((s.poll answers).1, .inl (s.poll answers).2)
    | .inr s, answers => ((copy.poll s answers).1, .inr (copy.poll s answers).2)
  written
    | .inl s => s.w
    | .inr s => copy.written s

theorem direction_copies {copy : Copier τ} (h : copy.Copies) (count : Option UInt64) :
    (direction copy count).Copies := by
  intro r polls p s hrun
  cases count with
  | some stat =>
    have hmap : runTask (direction copy (some stat)).poll (.inl (.start stat r)) polls = _ :=
      runTask_map Sum.inl (fun _ _ ↦ rfl) (CopyWithStats.start stat r) polls
    rw [show (direction copy (some stat)).start r = .inl (.start stat r) from rfl, hmap] at hrun
    cases hrun
    exact CopyWithStats.copies stat r polls _ _ rfl
  | none =>
    have hmap : runTask (direction copy none).poll (.inr (copy.start r)) polls = _ :=
      runTask_map Sum.inr (fun _ _ ↦ rfl) (copy.start r) polls
    rw [show (direction copy none).start r = .inr (copy.start r) from rfl, hmap] at hrun
    cases hrun
    exact h r polls _ _ rfl

/-- A copying task is pending in these states, having started on the stream. -/
def Copier.Pending (copy : Copier τ) (r : List Chunk) (s : τ) : Prop :=
  ∃ polls, runTask copy.poll (copy.start r) polls = (none, s)

theorem Copier.Pending.written {copy : Copier τ} (h : copy.Copies) {r : List Chunk} {s : τ}
    (hs : copy.Pending r s) : copy.written s <+: content r := by
  obtain ⟨polls, hrun⟩ := hs
  exact (h r polls none s hrun).1

/-- The result of a copying task comes with what it has written. -/
theorem Copier.Copies.contract {copy : Copier τ} (h : copy.Copies) (r : List Chunk) :
    Contract copy.poll (copy.Pending r) fun p s ↦
      copy.written s <+: content r ∧ (p = .ok () → copy.written s = content r) := by
  apply Contract.of_runs
  intro polls p s hrun
  obtain ⟨hpre, hdone⟩ := h r polls (some p) s hrun
  exact ⟨hpre, fun hok ↦ hdone (congrArg some hok)⟩

variable {τ' : Type}

/-- Two copying tasks that race write only what they read, and when the race ends well, one of
them is complete. -/
theorem race_copies {copy : Copier τ} {copy' : Copier τ'} (h : copy.Copies) (h' : copy'.Copies)
    {d1 d2 : List Chunk} {polls : List (List Answer × List Answer)}
    {p : Option (Outcome ErrorChain Unit)} {s : τ × τ'}
    (hrun : runTask (race copy.poll copy'.poll) (copy.start d1, copy'.start d2) polls = (p, s)) :
    copy.written s.1 <+: content d1 ∧ copy'.written s.2 <+: content d2 ∧
      (p = some (.ok ()) → copy.written s.1 = content d1 ∨ copy'.written s.2 = content d2) := by
  have hstart : copy.Pending d1 (copy.start d1) ∧ copy'.Pending d2 (copy'.start d2) :=
    ⟨⟨[], rfl⟩, ⟨[], rfl⟩⟩
  rcases ((h.contract d1).race (h'.contract d2)).run hstart hrun with
    ⟨rfl, hleft, hright⟩ | ⟨a, rfl, ⟨⟨hpre, hdone⟩, hright⟩ | ⟨hleft, hpre, hdone⟩⟩
  · exact ⟨hleft.written h, hright.written h', nofun⟩
  · have hpre' : copy'.written s.2 <+: content d2 := by
      rcases hright with hright | ⟨_, hright, _⟩
      · exact hright.written h'
      · exact hright
    exact ⟨hpre, hpre', fun hok ↦ .inl (hdone (Option.some.inj hok))⟩
  · exact ⟨hleft.written h, hpre, fun hok ↦ .inr (hdone (Option.some.inj hok))⟩

/-- `copy_duplex` on streams that deliver `d1` and `d2`, over a number of polls: its result,
when it has one, the bytes written to `d2`, and the bytes written to `d1`; `utils.rs:33–61`. -/
def copyDuplex (copy : Copier τ) (d1 d2 : List Chunk) (d1d2Count d2d1Count : Option UInt64)
    (polls : List (List Answer × List Answer)) :
    Option (Outcome ErrorChain Unit) × Bytes × Bytes :=
  let task1 := direction copy d1d2Count
  let task2 := direction copy d2d1Count
  let (r, s) := runTask (race task1.poll task2.poll) (task1.start d1, task2.start d2) polls
  (r, task1.written s.1, task2.written s.2)

/-- A tunnel writes only what it was given, in order, and when it ends well, one direction is
complete. -/
theorem copyDuplex_completes_one (copy : Copier τ) (hcopy : copy.Copies) (d1 d2 : List Chunk)
    (d1d2Count d2d1Count : Option UInt64) (polls : List (List Answer × List Answer)) :
    let (r, to2, to1) := copyDuplex copy d1 d2 d1d2Count d2d1Count polls
    to2 <+: content d1 ∧ to1 <+: content d2 ∧
      (r = some (.ok ()) → to2 = content d1 ∨ to1 = content d2) :=
  race_copies (direction_copies hcopy d1d2Count) (direction_copies hcopy d2d1Count) rfl

/-- Without counters: `d1` is at its end, which `futures::io::copy` finds with a read and a
flush, while a byte of `d2` is read and not yet written. -/
theorem copyDuplex_completes_one_closed :
    let (r, to2, to1) := copyDuplex (CopyWithStats.copier 0) [] [⟨[65], by decide⟩] none none
      [([.ready 0, .ready 0], [.ready 0])]
    r = some (.ok ()) ∧ to2 = [] ∧ to1 = [] ∧ (to2 = content [] ∨ to1 = [65]) := by
  have h := copyDuplex_completes_one (CopyWithStats.copier 0) (CopyWithStats.copies 0) []
    [⟨[65], by decide⟩] none none [([.ready 0, .ready 0], [.ready 0])]
  exact ⟨by decide, by decide, by decide, h.2.2 (by decide)⟩

/-- The first direction has nothing to copy; the byte of the second one is never written. -/
theorem copyDuplex_loses_second :
    ∃ (copy : Copier CopyWithStats) (d1 d2 : List Chunk) (count1 count2 : Option UInt64)
      (polls : List (List Answer × List Answer)),
      copy.Copies ∧ (copyDuplex copy d1 d2 count1 count2 polls).1 = some (.ok ()) ∧
        ¬ ((copyDuplex copy d1 d2 count1 count2 polls).2.1 = content d1 ∧
          (copyDuplex copy d1 d2 count1 count2 polls).2.2 = content d2) := by
  refine ⟨CopyWithStats.copier 0, [], [⟨[65], by decide⟩], some 0, some 0,
    [([.ready 0], [.ready 0])], CopyWithStats.copies 0, by decide, by decide⟩

end Cpxy.Io
