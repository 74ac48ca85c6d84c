import Cpxy.Base.Run
import Mathlib.Data.List.Infix

/-!
# Dialogues

Library `Base`. Two parties write to each other through two pipes that keep the order. A
party is known by what it has written once it has received some input; more input never takes
back what was written. When some schedule of the deliveries ends with both pipes empty, every
schedule stays below that end, can be continued to it, and has empty pipes only there.
-/

namespace Cpxy.Base

/-- A party: all that it has written once it has received its input. -/
structure Party (α β : Type*) where
  writes : List α → List β
  mono : ∀ {x y : List α}, x <+: y → writes x <+: writes y

/-- What each of the two has received so far. -/
@[ext] structure Received (α β : Type*) where
  left : List α
  right : List β

/-- The pipe to one of the two moves at most so many items. -/
inductive Delivery where
  | toLeft (n : Nat)
  | toRight (n : Nat)
  deriving DecidableEq, Repr

namespace Dialogue

variable {α β : Type*} (l : Party α β) (r : Party β α)

/-- Nothing has been received. -/
def start : Received α β := ⟨[], []⟩

/-- What is under way to the left party. -/
def pipeLeft (s : Received α β) : List α := (r.writes s.right).drop s.left.length

/-- What is under way to the right party. -/
def pipeRight (s : Received α β) : List β := (l.writes s.left).drop s.right.length

/-- One delivery. -/
def step (s : Received α β) : Delivery → Received α β
  | .toLeft n => { s with left := s.left ++ (pipeLeft r s).take n }
  | .toRight n => { s with right := s.right ++ (pipeRight l s).take n }

/-- Each has received a beginning of what the other has written. -/
structure Sound (s : Received α β) : Prop where
  left : s.left <+: r.writes s.right
  right : s.right <+: l.writes s.left

/-- Nothing is under way. -/
structure Quiet (s : Received α β) : Prop where
  left : r.writes s.right = s.left
  right : l.writes s.left = s.right

/-- Each has received a beginning of what it has received in `t`. -/
structure Below (s t : Received α β) : Prop where
  left : s.left <+: t.left
  right : s.right <+: t.right

variable {l r} {s t : Received α β}

theorem sound_start : Sound l r (start : Received α β) :=
  ⟨List.nil_prefix, List.nil_prefix⟩

theorem below_start (t : Received α β) : Below start t := ⟨List.nil_prefix, List.nil_prefix⟩

theorem Below.antisymm (h : Below s t) (h' : Below t s) : s = t := by
  apply Received.ext
  · exact h.left.eq_of_length_le h'.left.length_le
  · exact h.right.eq_of_length_le h'.right.length_le

/-- What has been received, with the next items of the pipe, is still a beginning. -/
private theorem append_pipe {γ : Type*} {x y : List γ} (h : x <+: y) (n : Nat) :
    x ++ (y.drop x.length).take n <+: y := by
  obtain ⟨z, rfl⟩ := h
  rw [List.drop_left]
  exact List.prefix_append_right_inj x |>.mpr (List.take_prefix n z)

theorem Sound.step (h : Sound l r s) (e : Delivery) : Sound l r (step l r s e) := by
  cases e with
  | toLeft n =>
    constructor
    · exact append_pipe h.left n
    · exact h.right.trans (l.mono (List.prefix_append _ _))
  | toRight n =>
    constructor
    · exact h.left.trans (r.mono (List.prefix_append _ _))
    · exact append_pipe h.right n

/-- Deliveries do not lead beyond a state in which nothing is under way. -/
theorem Below.step (ht : Quiet l r t) (h : Sound l r s) (hb : Below s t) (e : Delivery) :
    Below (step l r s e) t := by
  cases e with
  | toLeft n =>
    constructor
    · have hw := r.mono hb.right
      rw [ht.left] at hw
      exact (append_pipe h.left n).trans hw
    · exact hb.right
  | toRight n =>
    constructor
    · exact hb.left
    · have hw := l.mono hb.left
      rw [ht.right] at hw
      exact (append_pipe h.right n).trans hw

theorem sound_run (events : List Delivery) : Sound l r (runFrom (step l r) start events) :=
  runFrom_invariant (fun _ e h ↦ h.step e) sound_start events

/-- Every run stays below every end. -/
theorem below_run (ht : Quiet l r t) (events : List Delivery) :
    Below (runFrom (step l r) start events) t :=
  (runFrom_invariant (I := fun s ↦ Sound l r s ∧ Below s t)
    (fun _ e h ↦ ⟨h.1.step e, Below.step ht h.1 h.2 e⟩) ⟨sound_start, below_start t⟩ events).2

theorem runFrom_append {σ ε : Type*} (f : σ → ε → σ) (s : σ) (es es' : List ε) :
    runFrom f s (es ++ es') = runFrom f (runFrom f s es) es' :=
  List.foldl_append

/-- A sound state with something under way has a delivery that moves it. -/
theorem Sound.exists_delivery (h : Sound l r s) (hq : ¬ Quiet l r s) :
    ∃ e, s.left.length + s.right.length <
      (Dialogue.step l r s e).left.length + (Dialogue.step l r s e).right.length := by
  by_cases hl : s.left.length < (r.writes s.right).length
  · refine ⟨.toLeft 1, ?_⟩
    simp only [Dialogue.step, pipeLeft, List.length_append, List.length_take, List.length_drop]
    omega
  · by_cases hr : s.right.length < (l.writes s.left).length
    · refine ⟨.toRight 1, ?_⟩
      simp only [Dialogue.step, pipeRight, List.length_append, List.length_take, List.length_drop]
      omega
    · exfalso
      apply hq
      constructor
      · exact (h.left.eq_of_length_le (Nat.not_lt.mp hl)).symm
      · exact (h.right.eq_of_length_le (Nat.not_lt.mp hr)).symm

/-- Below an end, the deliveries can go on until nothing is under way. -/
theorem Sound.exists_quiet (ht : Quiet l r t) (h : Sound l r s) (hb : Below s t) :
    ∃ more, Quiet l r (runFrom (Dialogue.step l r) s more) := by
  -- on the number of items still to be received
  induction hn : t.left.length + t.right.length - (s.left.length + s.right.length)
    using Nat.strongRecOn generalizing s with
  | ind n ih =>
    by_cases hq : Quiet l r s
    · exact ⟨[], hq⟩
    · obtain ⟨e, he⟩ := h.exists_delivery hq
      have hb' := hb.step ht h e
      have hll := hb'.left.length_le
      have hlr := hb'.right.length_le
      obtain ⟨more, hmore⟩ := ih _ (by omega) (h.step e) hb' rfl
      exact ⟨e :: more, hmore⟩

/-- Some schedule comes to this state. -/
def Reached (l : Party α β) (r : Party β α) (t : Received α β) : Prop :=
  ∃ script, runFrom (step l r) start script = t

theorem reached_start : Reached l r start := ⟨[], rfl⟩

theorem Reached.sound (h : Reached l r s) : Sound l r s := by
  obtain ⟨script, rfl⟩ := h
  exact sound_run script

theorem Reached.step (h : Reached l r s) (e : Delivery) : Reached l r (step l r s e) := by
  obtain ⟨script, rfl⟩ := h
  exact ⟨script ++ [e], runFrom_append _ _ _ _⟩

private theorem append_drop_of_prefix {γ : Type*} {x y : List γ} (h : x <+: y) :
    x ++ (y.drop x.length).take y.length = y := by
  obtain ⟨z, rfl⟩ := h
  rw [List.drop_left, List.take_of_length_le (by simp)]

/-- The pipe to the left is emptied. -/
theorem Reached.allLeft (h : Reached l r s) : Reached l r { s with left := r.writes s.right } := by
  have hs := h.step (.toLeft (r.writes s.right).length)
  rwa [Dialogue.step, pipeLeft, append_drop_of_prefix h.sound.left] at hs

/-- The pipe to the right is emptied. -/
theorem Reached.allRight (h : Reached l r s) :
    Reached l r { s with right := l.writes s.left } := by
  have hs := h.step (.toRight (l.writes s.left).length)
  rwa [Dialogue.step, pipeRight, append_drop_of_prefix h.sound.right] at hs

/-- When one schedule ends with nothing under way, all schedules agree with it: they stay below
its end, nothing is under way just there, and every run can be continued to it. -/
theorem Reached.settles (h : Reached l r t) (ht : Quiet l r t) (events : List Delivery) :
    Below (runFrom (Dialogue.step l r) start events) t ∧
      (Quiet l r (runFrom (Dialogue.step l r) start events) ↔
        runFrom (Dialogue.step l r) start events = t) ∧
      ∃ more, runFrom (Dialogue.step l r) start (events ++ more) = t := by
  obtain ⟨script, hscript⟩ := h
  -- an end that is reached is below every other end
  have hunique : ∀ {es}, Quiet l r (runFrom (Dialogue.step l r) start es) →
      runFrom (Dialogue.step l r) start es = t := by
    intro es hes
    have hback := below_run hes script
    rw [hscript] at hback
    exact (below_run ht es).antisymm hback
  refine ⟨below_run ht events, ⟨hunique, fun h ↦ h ▸ ht⟩, ?_⟩
  obtain ⟨more, hmore⟩ := (sound_run events).exists_quiet ht (below_run ht events)
  refine ⟨more, hunique ?_⟩
  rw [runFrom_append]
  exact hmore

end Dialogue
end Cpxy.Base
