import Mathlib.Init

/-!
# Runs of a step function

Library `Base`. A run folds a step function over a list of events. `Along` says that a
property of state and event holds at every step of a run; the rules below turn a fact
about one step into a fact about all of them.
-/

namespace Cpxy.Base

variable {σ ε : Type*} {step : σ → ε → σ} {I : σ → Prop} {P Q : σ → ε → Prop}

/-- The state after a list of events. -/
def runFrom (step : σ → ε → σ) (s : σ) (events : List ε) : σ := events.foldl step s

/-- Every step of the run satisfies `P`, asked of the state before the step and its event. -/
def Along (step : σ → ε → σ) (P : σ → ε → Prop) : σ → List ε → Prop
  | _, [] => True
  | s, e :: es => P s e ∧ Along step P (step s e) es

instance Along.decidable (step : σ → ε → σ) (P : σ → ε → Prop) [∀ s e, Decidable (P s e)] :
    (s : σ) → (es : List ε) → Decidable (Along step P s es)
  | _, [] => inferInstanceAs (Decidable True)
  | s, e :: es =>
    have := Along.decidable step P (step s e) es
    inferInstanceAs (Decidable (_ ∧ _))

@[simp] theorem along_nil (s : σ) : Along step P s [] := trivial

@[simp] theorem along_cons (s : σ) (e : ε) (es : List ε) :
    Along step P s (e :: es) ↔ P s e ∧ Along step P (step s e) es := Iff.rfl

@[simp] theorem runFrom_nil (s : σ) : runFrom step s [] = s := rfl

@[simp] theorem runFrom_cons (s : σ) (e : ε) (es : List ε) :
    runFrom step s (e :: es) = runFrom step (step s e) es := rfl

/-- An invariant that every step preserves holds after every run. -/
theorem runFrom_invariant (hstep : ∀ s e, I s → I (step s e)) {s : σ} (hs : I s) (es : List ε) :
    I (runFrom step s es) := by
  induction es generalizing s with
  | nil => exact hs
  | cons e es ih => exact ih (hstep s e hs)

/-- An invariant that steps with `P` preserve holds after every run of such steps. -/
theorem Along.invariant (hstep : ∀ s e, I s → P s e → I (step s e)) {s : σ} {es : List ε}
    (hs : I s) (h : Along step P s es) : I (runFrom step s es) := by
  induction es generalizing s with
  | nil => exact hs
  | cons e es ih => exact ih (hstep s e hs h.1) h.2

/-- What an invariant that every step preserves implies at each step, holds along runs. -/
theorem along_of_invariant (hstep : ∀ s e, I s → I (step s e)) (himp : ∀ s e, I s → Q s e)
    {s : σ} (hs : I s) (es : List ε) : Along step Q s es := by
  induction es generalizing s with
  | nil => trivial
  | cons e es ih => exact ⟨himp s e hs, ih (hstep s e hs)⟩

/-- What follows from `P` at each step under an invariant that steps with `P` preserve,
follows along runs. -/
theorem Along.imp (hstep : ∀ s e, I s → P s e → I (step s e))
    (himp : ∀ s e, I s → P s e → Q s e) {s : σ} {es : List ε} (hs : I s)
    (h : Along step P s es) : Along step Q s es := by
  induction es generalizing s with
  | nil => trivial
  | cons e es ih => exact ⟨himp s e hs h.1, ih (hstep s e hs h.1) h.2⟩

/-- Where the invariant makes `P` and `Q` agree at a step and steps with `P` preserve it,
they agree along runs. -/
theorem Along.congr (hstep : ∀ s e, I s → P s e → I (step s e))
    (hiff : ∀ s e, I s → (Q s e ↔ P s e)) {s : σ} {es : List ε} (hs : I s) :
    Along step Q s es ↔ Along step P s es := by
  induction es generalizing s with
  | nil => exact Iff.rfl
  | cons e es ih =>
    rw [along_cons, along_cons, hiff s e hs]
    exact and_congr_right fun h ↦ ih (hstep s e hs h)

end Cpxy.Base
