import Mathlib.Init

/-!
# Outcomes of fallible calls

Library `Base`. A call returns a value, returns an error value, or panics. Keeping the
third case apart lets a theorem say that an assertion, an index or a checked operation
never fails, rather than hide the failure among the errors.
-/

namespace Cpxy.Base

/-- Result of a call that may return an error or panic. -/
inductive Outcome (ε α : Type) where
  | ok (value : α)
  | err (error : ε)
  | panicked
  deriving DecidableEq, Repr

/-- An error with its descriptions, outermost first. -/
abbrev ErrorChain := List String

/-- Result of a call that may have to be made again later. -/
inductive Poll (α : Type) where
  | pending
  | ready (value : α)
  deriving DecidableEq, Repr

namespace Outcome

variable {ε α β : Type}

/-- Sequencing stops at the first error or panic. -/
protected def bind (x : Outcome ε α) (f : α → Outcome ε β) : Outcome ε β :=
  match x with
  | .ok a => f a
  | .err e => .err e
  | .panicked => .panicked

instance : Monad (Outcome ε) where
  pure := .ok
  bind := Outcome.bind

/-- Replace the error of a failed call; the counterpart of `map_err` and `context`. -/
def mapErr {δ : Type} (f : ε → δ) : Outcome ε α → Outcome δ α
  | .ok a => .ok a
  | .err e => .err (f e)
  | .panicked => .panicked

/-- The value of an optional result, or a panic; the counterpart of `unwrap`. -/
def unwrap : Option α → Outcome ε α
  | some a => .ok a
  | none => .panicked

/-- Subtraction of unsigned numbers; panics below zero. -/
def checkedSub (m n : Nat) : Outcome ε Nat := if n ≤ m then .ok (m - n) else .panicked

/-- The value satisfies `p`, if there is one. -/
def All (p : α → Prop) : Outcome ε α → Prop
  | .ok a => p a
  | .err _ => True
  | .panicked => True

instance (p : α → Prop) [DecidablePred p] : (x : Outcome ε α) → Decidable (x.All p)
  | .ok a => inferInstanceAs (Decidable (p a))
  | .err _ => inferInstanceAs (Decidable True)
  | .panicked => inferInstanceAs (Decidable True)

/-- Add an outer description to the error of a failed call. -/
def context (text : String) : Outcome ErrorChain α → Outcome ErrorChain α :=
  mapErr (text :: ·)

@[simp] theorem pure_eq (a : α) : (pure a : Outcome ε α) = .ok a := rfl

@[simp] theorem ok_bind (a : α) (f : α → Outcome ε β) : (Outcome.ok a >>= f) = f a := rfl

@[simp] theorem err_bind (e : ε) (f : α → Outcome ε β) : (Outcome.err e >>= f) = .err e := rfl

@[simp] theorem panicked_bind (f : α → Outcome ε β) :
    ((Outcome.panicked : Outcome ε α) >>= f) = .panicked := rfl

@[simp] theorem context_ok (text : String) (a : α) : context text (.ok a) = .ok a := rfl

@[simp] theorem unwrap_some (a : α) : (unwrap (some a) : Outcome ε α) = .ok a := rfl

@[simp] theorem mapErr_eq_panicked {δ : Type} {f : ε → δ} {x : Outcome ε α} :
    mapErr f x = .panicked ↔ x = .panicked := by
  cases x <;> simp [mapErr]

@[simp] theorem context_eq_ok {text : String} {x : Outcome ErrorChain α} {a : α} :
    context text x = .ok a ↔ x = .ok a := by
  cases x <;> simp [context, mapErr]

/-- A sequence succeeds exactly when both of its parts do. -/
theorem bind_eq_ok_iff {x : Outcome ε α} {f : α → Outcome ε β} {b : β} :
    (x >>= f) = .ok b ↔ ∃ a, x = .ok a ∧ f a = .ok b := by
  cases x with
  | ok a => simp
  | err e => simp
  | panicked => simp

/-- A sequence is free of panics when its first part is and every continuation is. -/
theorem bind_ne_panicked {x : Outcome ε α} {f : α → Outcome ε β}
    (hx : x ≠ .panicked) (hf : ∀ a, x = .ok a → f a ≠ .panicked) :
    (x >>= f) ≠ .panicked := by
  cases x with
  | ok a => exact hf a rfl
  | err e => simp
  | panicked => exact absurd rfl hx

end Outcome
end Cpxy.Base
