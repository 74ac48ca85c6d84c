import Mathlib.Data.List.Basic

/-!
# First in, first out

Library `Base`. A queue is known by what it holds. A call puts items behind it and gets items
off its front; over a history of calls, what was put is what was got and then what is held.
-/

namespace Cpxy.Base

variable {α : Type*}

/-- The items that calls put into a queue and got out of it, in order. -/
structure Passed (α : Type*) where
  put : List α
  got : List α
  deriving DecidableEq, Repr

namespace Passed

/-- No item passed. -/
def none : Passed α := ⟨[], []⟩

/-- One after the other. -/
def append (p q : Passed α) : Passed α := ⟨p.put ++ q.put, p.got ++ q.got⟩

/-- The items take a queue from holding `held` to holding `held'`. -/
def Moves (p : Passed α) (held held' : List α) : Prop := held ++ p.put = p.got ++ held'

variable {p q : Passed α} {held held' held'' : List α}

theorem moves_none (held : List α) : none.Moves held held := List.append_nil held

theorem moves_put (held new : List α) : Moves ⟨new, []⟩ held (held ++ new) := rfl

theorem moves_got (held : List α) (n : Nat) :
    Moves ⟨[], held.take n⟩ held (held.drop n) := by
  rw [Moves, List.append_nil, List.take_append_drop]

/-- Calls in a row move the queue as one. -/
theorem Moves.append (hp : p.Moves held held') (hq : q.Moves held' held'') :
    (p.append q).Moves held held'' := by
  show held ++ (p.put ++ q.put) = (p.got ++ q.got) ++ held''
  calc held ++ (p.put ++ q.put)
      = (held ++ p.put) ++ q.put := (List.append_assoc _ _ _).symm
    _ = (p.got ++ held') ++ q.put := by rw [hp]
    _ = p.got ++ (held' ++ q.put) := List.append_assoc _ _ _
    _ = p.got ++ (q.got ++ held'') := by rw [hq]
    _ = (p.got ++ q.got) ++ held'' := (List.append_assoc _ _ _).symm

/-- From an empty queue on, what was put is what was got and what is held. -/
theorem Moves.put_eq (h : p.Moves [] held) : p.put = p.got ++ held := h

end Passed
end Cpxy.Base
