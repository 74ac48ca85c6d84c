import Mathlib.Data.List.Basic

/-!
# Datagram networks

Library `Base`. One direction of a network that loses, repeats and reorders: it remembers all
that was sent, and any of it may arrive at any time. What has arrived is a list of numbers of
datagrams, so that lists that run parallel to the sent ones can be read through it.
-/

namespace Cpxy.Base

/-- What was sent, and the numbers of the datagrams that arrived, in the order of arrival.
Nothing arrives that was not sent. -/
structure Wire (α : Type) where
  sent : List α
  arrivals : List Nat
  valid : ∀ i ∈ arrivals, i < sent.length

namespace Wire

variable {α β γ : Type}

/-- Nothing was sent. -/
def empty : Wire α := ⟨[], [], by simp⟩

/-- One more datagram is sent. -/
def send (w : Wire α) (x : α) : Wire α where
  sent := w.sent ++ [x]
  arrivals := w.arrivals
  valid i hi := by
    have := w.valid i hi
    rw [List.length_append]
    omega

/-- Several are sent, one after the other. -/
def sendAll (w : Wire α) (xs : List α) : Wire α where
  sent := w.sent ++ xs
  arrivals := w.arrivals
  valid i hi := by
    have := w.valid i hi
    rw [List.length_append]
    omega

/-- One datagram arrives, whether or not it has arrived before. -/
def arrive (w : Wire α) (i : Nat) : Option (α × Wire α) :=
  if h : i < w.sent.length then
    some (w.sent[i], {
      sent := w.sent
      arrivals := w.arrivals ++ [i]
      valid := by
        intro j hj
        rcases List.mem_append.mp hj with hj | hj
        · exact w.valid j hj
        · rw [List.mem_singleton] at hj
          rwa [hj] })
  else none

/-- Of a list that runs parallel to the sent datagrams, the entries of those that arrived. -/
def pick (w : Wire α) (xs : List β) : List β := w.arrivals.filterMap (xs[·]?)

@[simp] theorem send_sent (w : Wire α) (x : α) : (w.send x).sent = w.sent ++ [x] := rfl

/-- Only what was sent is picked. -/
theorem mem_of_mem_pick {w : Wire α} {xs : List β} {y : β} (h : y ∈ w.pick xs) : y ∈ xs := by
  obtain ⟨i, _, hi⟩ := List.mem_filterMap.mp h
  exact List.mem_of_getElem? hi

/-- Sending more does not change what has arrived. -/
theorem pick_append {w : Wire α} {xs : List β} (hlen : xs.length = w.sent.length)
    (ys : List β) : w.pick (xs ++ ys) = w.pick xs := by
  apply List.filterMap_congr
  intro i hi
  have := w.valid i hi
  rw [List.getElem?_append_left (by omega)]

@[simp] theorem pick_send (w : Wire α) (x : α) (xs : List β) :
    (w.send x).pick xs = w.pick xs := rfl

@[simp] theorem sendAll_sent (w : Wire α) (xs : List α) : (w.sendAll xs).sent = w.sent ++ xs := rfl

@[simp] theorem pick_sendAll (w : Wire α) (xs : List α) (ys : List β) :
    (w.sendAll xs).pick ys = w.pick ys := rfl

/-- An arrival picks its entry. -/
theorem pick_arrive {w w' : Wire α} {i : Nat} {x : α} (h : w.arrive i = some (x, w'))
    (xs : List β) :
    w'.sent = w.sent ∧ w.sent[i]? = some x ∧ w'.pick xs = w.pick xs ++ xs[i]?.toList := by
  unfold arrive at h
  split at h <;> cases h
  next hi =>
    refine ⟨rfl, List.getElem?_eq_getElem hi, ?_⟩
    rw [pick, List.filterMap_append]
    cases hx : xs[i]? <;> simp [pick, hx]

/-- Where each datagram arrives once and in order, a beginning has arrived. -/
theorem pick_range {w : Wire α} {n : Nat} (h : w.arrivals = List.range n) (xs : List β)
    (hlen : xs.length = w.sent.length) : w.pick xs = xs.take n := by
  have hn : n ≤ xs.length := by
    rcases Nat.eq_zero_or_pos n with rfl | hpos
    · exact Nat.zero_le _
    · have := w.valid (n - 1) (by rw [h, List.mem_range]; omega)
      omega
  rw [pick, h]
  clear h
  induction n with
  | zero => simp
  | succ n ih =>
    have hlt : n < xs.length := by omega
    rw [List.range_succ, List.filterMap_append, ih (by omega), List.take_add_one]
    simp [List.getElem?_eq_getElem hlt]

theorem pick_map (w : Wire α) (f : β → γ) (xs : List β) : w.pick (xs.map f) = (w.pick xs).map f := by
  rw [pick, pick, List.map_filterMap]
  apply List.filterMap_congr
  intro i _
  rw [List.getElem?_map]

end Wire
end Cpxy.Base
