import Cpxy.Base.Outcome

/-!
# Polled tasks

Library `Base`. A task is a state that is polled: it has to be polled again later, or is ready
with a result and never polled again. What the world does between and during the polls comes
in as the input of each poll. A contract says what holds while a task is pending and what
its result comes with; two tasks that race have a contract when each of them has one.
-/

namespace Cpxy.Base

variable {σ τ ι κ α : Type}

/-- Poll a task until it is ready: its result, if it came to one, and the state it is in. -/
def runTask (poll : σ → ι → Poll α × σ) (s : σ) : List ι → Option α × σ
  | [] => (none, s)
  | i :: is =>
    match poll s i with
    | (.pending, s) => runTask poll s is
    | (.ready a, s) => (some a, s)

/-- Poll two tasks in turn; the first that is ready gives the result, the left one before the
right one. -/
def race (left : σ → ι → Poll α × σ) (right : τ → κ → Poll α × τ) (s : σ × τ) (i : ι × κ) :
    Poll α × (σ × τ) :=
  match left s.1 i.1, right s.2 i.2 with
  | (.ready a, l), (_, r) => (.ready a, l, r)
  | (.pending, l), (.ready a, r) => (.ready a, l, r)
  | (.pending, l), (.pending, r) => (.pending, l, r)

/-- What holds between the polls of a task, and what its result comes with. -/
structure Contract (poll : σ → ι → Poll α × σ) (I : σ → Prop) (Q : α → σ → Prop) : Prop where
  pending : ∀ s i s', I s → poll s i = (.pending, s') → I s'
  ready : ∀ s i a s', I s → poll s i = (.ready a, s') → Q a s'

variable {poll : σ → ι → Poll α × σ} {I : σ → Prop} {Q : α → σ → Prop}

/-- A contract holds over all polls. -/
theorem Contract.run (h : Contract poll I Q) {s s' : σ} (hs : I s) {is : List ι} {r : Option α}
    (hrun : runTask poll s is = (r, s')) : (r = none ∧ I s') ∨ ∃ a, r = some a ∧ Q a s' := by
  induction is generalizing s with
  | nil =>
    cases hrun
    exact .inl ⟨rfl, hs⟩
  | cons i is ih =>
    rw [runTask] at hrun
    split at hrun
    · next s₁ hp => exact ih (h.pending s i s₁ hs hp) hrun
    · next a s₁ hp =>
      cases hrun
      exact .inr ⟨a, rfl, h.ready s i a s' hs hp⟩

theorem runTask_pending {s s' : σ} {i : ι} (h : poll s i = (.pending, s')) :
    runTask poll s [i] = (none, s') := by
  rw [runTask, h]
  rfl

theorem runTask_ready {s s' : σ} {i : ι} {a : α} (h : poll s i = (.ready a, s')) :
    runTask poll s [i] = (some a, s') := by
  rw [runTask, h]

/-- A task goes on where it was left pending. -/
theorem runTask_append {s s' : σ} {is : List ι} (h : runTask poll s is = (none, s'))
    (js : List ι) : runTask poll s (is ++ js) = runTask poll s' js := by
  induction is generalizing s with
  | nil =>
    cases h
    rfl
  | cons i is ih =>
    rw [runTask] at h
    rw [List.cons_append, runTask]
    split at h
    · next s₁ hp => exact ih h
    · cases h

/-- A task inside another one, in whose states its own are found again. -/
theorem runTask_map {inner : τ → ι → Poll α × τ} (f : τ → σ)
    (h : ∀ s i, poll (f s) i = ((inner s i).1, f (inner s i).2)) (s : τ) (is : List ι) :
    runTask poll (f s) is = ((runTask inner s is).1, f (runTask inner s is).2) := by
  induction is generalizing s with
  | nil => rfl
  | cons i is ih =>
    rw [runTask, runTask, h]
    cases inner s i with
    | mk p s' =>
      cases p with
      | pending => exact ih s'
      | ready a => rfl

/-- What is known of all runs of a task is a contract, between the states it is pending in. -/
theorem Contract.of_runs {s : σ} (h : ∀ is a s', runTask poll s is = (some a, s') → Q a s') :
    Contract poll (fun s' ↦ ∃ is, runTask poll s is = (none, s')) Q where
  pending := by
    rintro s₁ i s₂ ⟨is, his⟩ hp
    refine ⟨is ++ [i], ?_⟩
    rw [runTask_append his, runTask_pending hp]
  ready := by
    rintro s₁ i a s₂ ⟨is, his⟩ hp
    apply h (is ++ [i])
    rw [runTask_append his, runTask_ready hp]

/-- In a race, the result comes with what one of the two promises, and the other is pending or
ready as well. -/
theorem Contract.race {poll' : τ → κ → Poll α × τ} {J : τ → Prop} {R : α → τ → Prop}
    (h : Contract poll I Q) (h' : Contract poll' J R) :
    Contract (race poll poll') (fun s ↦ I s.1 ∧ J s.2) fun a s ↦
      (Q a s.1 ∧ (J s.2 ∨ ∃ b, R b s.2)) ∨ (I s.1 ∧ R a s.2) where
  pending := by
    rintro s i s' ⟨hl, hr⟩ hp
    rw [Base.race] at hp
    split at hp <;> cases hp
    next hl' hr' => exact ⟨h.pending _ _ _ hl hl', h'.pending _ _ _ hr hr'⟩
  ready := by
    rintro s i a s' ⟨hl, hr⟩ hp
    rw [Base.race] at hp
    split at hp <;> cases hp
    · next l answer r hr' hl' =>
      refine .inl ⟨h.ready _ _ _ _ hl hl', ?_⟩
      cases answer with
      | pending => exact .inl (h'.pending _ _ _ hr hr')
      | ready b => exact .inr ⟨b, h'.ready _ _ _ _ hr hr'⟩
    · next hl' hr' => exact .inr ⟨h.pending _ _ _ hl hl', h'.ready _ _ _ _ hr hr'⟩

end Cpxy.Base
