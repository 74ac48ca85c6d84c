import Cpxy.Base.Outcome
import Mathlib.Data.List.Infix

/-!
# Overflowing channels

Library `Base`. A channel for one receiver that holds a bounded number of values: one that is
sent when it is full pushes out the oldest. So a receiver may miss values, but never the newest.
-/

namespace Cpxy.Base

/-- A channel with room for so many values, known by what it holds. A poll takes the oldest
value, waits where there is none, and ends where there is none and the channel is closed. -/
structure Overflowing (χ α : Type) (cap : Nat) where
  empty : χ
  send : χ → α → χ
  close : χ → χ
  poll : χ → Poll (Option α) × χ
  held : χ → List α
  closed : χ → Bool
  held_empty : held empty = []
  closed_empty : closed empty = false
  held_send : ∀ c a, held (send c a) = (held c ++ [a]).drop ((held c).length + 1 - cap)
  closed_send : ∀ c a, closed (send c a) = closed c
  held_close : ∀ c, held (close c) = held c
  closed_close : ∀ c, closed (close c) = true
  poll_cons : ∀ {c a rest}, held c = a :: rest →
    (poll c).1 = .ready (some a) ∧ held (poll c).2 = rest
  poll_nil : ∀ {c}, held c = [] →
    (poll c).1 = (if closed c then .ready none else .pending) ∧ held (poll c).2 = []
  closed_poll : ∀ c, closed (poll c).2 = closed c

namespace Overflowing

variable {χ α : Type} {cap : Nat} (ch : Overflowing χ α cap)

/-- The newest value is among those that are held. -/
theorem held_send_eq (hcap : 0 < cap) (c : χ) (a : α) :
    ch.held (ch.send c a) = (ch.held c).drop ((ch.held c).length + 1 - cap) ++ [a] := by
  rw [ch.held_send, List.drop_append_of_le_length (by omega)]

/-- The channel as a list of values, and whether it is closed. -/
def queue (α : Type) (cap : Nat) : Overflowing (List α × Bool) α cap where
  empty := ([], false)
  send c a := ((c.1 ++ [a]).drop (c.1.length + 1 - cap), c.2)
  close c := (c.1, true)
  poll c :=
    match c with
    | (a :: rest, closed) => (.ready (some a), rest, closed)
    | ([], true) => (.ready none, [], true)
    | ([], false) => (.pending, [], false)
  held := Prod.fst
  closed := Prod.snd
  held_empty := rfl
  closed_empty := rfl
  held_send _ _ := rfl
  closed_send _ _ := rfl
  held_close _ := rfl
  closed_close _ := rfl
  poll_cons := by
    rintro ⟨held, closed⟩ a rest rfl
    exact ⟨rfl, rfl⟩
  poll_nil := by
    rintro ⟨held, closed⟩ rfl
    cases closed <;> exact ⟨rfl, rfl⟩
  closed_poll := by
    rintro ⟨held, closed⟩
    cases held with
    | nil => cases closed <;> rfl
    | cons a rest => rfl

end Overflowing
end Cpxy.Base
