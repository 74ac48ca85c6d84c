import Cpxy.Base.Task

/-!
# Polled sinks

Library `Base`. A sink takes items when it is ready, and passes them on when it is flushed or
closed. `Forward` is the task that `StreamExt::forward` makes of a stream and a sink: it hands
over each item once the sink is ready, flushes when the stream has to wait, and closes when it
ends.
-/

namespace Cpxy.Base

/-- What a poll of a sink gives. -/
abbrev Ready := Poll (Outcome ErrorChain Unit)

/-- A sink of `α`, by its four operations on its state. -/
structure Sink (σ α : Type) where
  pollReady : σ → Ready × σ
  startSend : α → σ → Outcome ErrorChain Unit × σ
  pollFlush : σ → Ready × σ
  pollClose : σ → Ready × σ

/-- The task: what the stream gives, an item or, as `none`, that it has to wait, until it ends;
the item that is not handed over yet; and the sink. -/
structure Forward (σ α : Type) where
  stream : List (Option α)
  buffered : Option α
  sink : σ

namespace Forward

variable {σ α : Type} (k : Sink σ α)

/-- Hand over the buffered item; the task goes on unless there is a result. -/
def handOver (buffered : Option α) (s : σ) : Option Ready × Option α × σ :=
  match buffered with
  | none => (none, none, s)
  | some item =>
    match k.pollReady s with
    | (.ready (.ok ()), s) =>
      match k.startSend item s with
      | (.ok (), s) => (none, none, s)
      | (result, s) => (some (.ready result), none, s)
    | (p, s) => (some p, some item, s)

/-- The loop of one poll. -/
def pollFrom (stream : List (Option α)) (buffered : Option α) (s : σ) : Ready × Forward σ α :=
  match handOver k buffered s with
  | (some p, buffered, s) => (p, ⟨stream, buffered, s⟩)
  | (none, _, s) =>
    match stream with
    | some item :: stream => pollFrom stream (some item) s
    | none :: stream =>
      match k.pollFlush s with
      | (.ready (.ok ()), s) => (.pending, ⟨stream, none, s⟩)
      | (p, s) => (p, ⟨stream, none, s⟩)
    | [] =>
      let (p, s) := k.pollClose s
      (p, ⟨[], none, s⟩)

/-- One poll of the task. -/
def poll (f : Forward σ α) (_ : Unit) : Ready × Forward σ α :=
  pollFrom k f.stream f.buffered f.sink

/-- The task at first, on items that are all there. -/
def start (items : List α) (s : σ) : Forward σ α := ⟨items.map some, none, s⟩

variable {k} {I : σ → Prop}

theorem handOver_invariant (hready : ∀ s, I s → I (k.pollReady s).2)
    (hsend : ∀ a s, I s → I (k.startSend a s).2) {s : σ} (hs : I s) (buffered : Option α) :
    I (handOver k buffered s).2.2 := by
  unfold handOver
  split
  · exact hs
  · next item =>
    have h₁ := hready s hs
    split
    · next s₁ hp =>
      rw [hp] at h₁
      have h₂ := hsend item s₁ h₁
      split <;> next hp₂ => rwa [hp₂] at h₂
    · next p s₁ _ hp => rwa [hp] at h₁

/-- While the stream does not have to wait, the sink is not flushed: what its other operations
keep is kept by the loop of a poll. -/
theorem pollFrom_invariant (hready : ∀ s, I s → I (k.pollReady s).2)
    (hsend : ∀ a s, I s → I (k.startSend a s).2) (hclose : ∀ s, I s → I (k.pollClose s).2)
    {stream : List (Option α)} (hstream : none ∉ stream) {s : σ} (hs : I s)
    (buffered : Option α) :
    none ∉ (pollFrom k stream buffered s).2.stream ∧ I (pollFrom k stream buffered s).2.sink := by
  induction stream generalizing buffered s with
  | nil =>
    have h₁ := handOver_invariant hready hsend hs buffered
    rw [pollFrom]
    split
    · next hp =>
      rw [hp] at h₁
      exact ⟨hstream, h₁⟩
    · next hp =>
      rw [hp] at h₁
      exact ⟨hstream, hclose _ h₁⟩
  | cons x stream ih =>
    have h₁ := handOver_invariant hready hsend hs buffered
    rw [List.mem_cons, not_or] at hstream
    rw [pollFrom]
    split
    · next hp =>
      rw [hp] at h₁
      exact ⟨by simp [hstream], h₁⟩
    · next hp =>
      rw [hp] at h₁
      cases x with
      | none => exact absurd rfl hstream.1
      | some item => exact ih hstream.2 h₁ (some item)

/-- The same for every poll of the task. -/
theorem contract (hready : ∀ s, I s → I (k.pollReady s).2)
    (hsend : ∀ a s, I s → I (k.startSend a s).2) (hclose : ∀ s, I s → I (k.pollClose s).2) :
    Contract (poll k) (fun f ↦ none ∉ f.stream ∧ I f.sink) fun _ f ↦ I f.sink := by
  constructor
  · rintro f _ f' ⟨hstream, hs⟩ hp
    have h := pollFrom_invariant hready hsend hclose hstream hs f.buffered
    rw [poll] at hp
    rwa [hp] at h
  · rintro f _ r f' ⟨hstream, hs⟩ hp
    have h := pollFrom_invariant hready hsend hclose hstream hs f.buffered
    rw [poll] at hp
    rw [hp] at h
    exact h.2

end Forward
end Cpxy.Base
