import Cpxy.Base.Overflowing
import Cpxy.Base.Run

/-!
# Broadcasts with a first value

Library `Client`. Source `src/broadcast.rs:6–42`. The receiver of a channel starts with a value
of its own, which it yields when nothing was sent yet. The channel is the one of
`async_broadcast`, a package outside the repository; it is polled as a stream, so that values
which were pushed out do not show.
-/

namespace Cpxy.Client

open Cpxy.Base

/-- `Receiver`; `broadcast.rs:6–13`. -/
structure Receiver (χ α : Type) where
  init : Option α
  rx : χ

namespace Receiver

variable {χ α : Type} {cap : Nat} (ch : Overflowing χ α cap)

/-- `bounded`: the end that receives; `broadcast.rs:38–42`. -/
def bounded (init : Option α) : Receiver χ α := ⟨init, ch.empty⟩

/-- A value is sent into the channel. -/
def send (r : Receiver χ α) (a : α) : Receiver χ α := { r with rx := ch.send r.rx a }

/-- `poll_next`; `broadcast.rs:18–35`. -/
def pollNext (r : Receiver χ α) : Poll (Option α) × Receiver χ α :=
  match ch.poll r.rx, r.init with
  | (.ready (some item), rx), _ => (.ready (some item), ⟨none, rx⟩)
  | (.pending, rx), some value => (.ready (some value), ⟨none, rx⟩)
  | (v, rx), init => (v, ⟨init, rx⟩)

/-- What is still to be yielded. -/
def left (r : Receiver χ α) : List α :=
  match ch.held r.rx with
  | [] => r.init.toList
  | a :: rest => a :: rest

variable {ch} {r : Receiver χ α}

theorem left_of_nil (h : ch.held r.rx = []) : r.left ch = r.init.toList := by
  rw [left, h]

theorem left_of_ne_nil (h : ch.held r.rx ≠ []) : r.left ch = ch.held r.rx := by
  rw [left]
  cases hheld : ch.held r.rx with
  | nil => exact absurd hheld h
  | cons a rest => rfl

theorem left_of_init (h : r.init = none) : r.left ch = ch.held r.rx := by
  by_cases hheld : ch.held r.rx = []
  · rw [left_of_nil hheld, h, hheld]
    rfl
  · exact left_of_ne_nil hheld

/-- Sending the first value replaces the one to start with, and sending another one may push out
an older one. What is left ends with what was sent. -/
theorem left_send (hcap : 0 < cap) (r : Receiver χ α) (a : α) :
    (r.send ch a).left ch =
      (ch.held r.rx).drop ((ch.held r.rx).length + 1 - cap) ++ [a] := by
  have hheld := ch.held_send_eq hcap r.rx a
  rw [← hheld]
  apply left_of_ne_nil
  rw [send]
  dsimp only
  rw [hheld]
  exact List.append_ne_nil_of_right_ne_nil _ (List.cons_ne_nil a [])

/-- With room for one value, only the newest is left. -/
theorem left_send_one {ch : Overflowing χ α 1} (r : Receiver χ α) (a : α) :
    (r.send ch a).left ch = [a] := by
  rw [left_send Nat.one_pos, Nat.add_sub_cancel, List.drop_length, List.nil_append]

theorem pollNext_item {item : α} {rx : χ} (h : ch.poll r.rx = (.ready (some item), rx)) :
    r.pollNext ch = (.ready (some item), ⟨none, rx⟩) := by
  rw [pollNext, h]

theorem pollNext_init {value : α} {rx : χ} (h : ch.poll r.rx = (.pending, rx))
    (hinit : r.init = some value) : r.pollNext ch = (.ready (some value), ⟨none, rx⟩) := by
  rw [pollNext, h, hinit]

theorem pollNext_pending {rx : χ} (h : ch.poll r.rx = (.pending, rx)) (hinit : r.init = none) :
    r.pollNext ch = (.pending, ⟨none, rx⟩) := by
  rw [pollNext, h, hinit]

/-- An open receiver yields what is left in order, and then has to wait. -/
theorem pollNext_spec (hopen : ch.closed r.rx = false) :
    (r.left ch = [] ∧ (r.pollNext ch).1 = .pending ∧ (r.pollNext ch).2.left ch = []) ∨
      ∃ a rest, r.left ch = a :: rest ∧ (r.pollNext ch).1 = .ready (some a) ∧
        (r.pollNext ch).2.left ch = rest := by
  cases hheld : ch.held r.rx with
  | cons a rest =>
    obtain ⟨hpoll, hrest⟩ := ch.poll_cons hheld
    have hleft : r.left ch = a :: rest := by
      rw [left_of_ne_nil (by rw [hheld]; exact List.cons_ne_nil a rest), hheld]
    have hnext : r.pollNext ch = (.ready (some a), ⟨none, (ch.poll r.rx).2⟩) :=
      pollNext_item (Prod.ext hpoll rfl)
    refine .inr ⟨a, rest, hleft, by rw [hnext], ?_⟩
    rw [hnext, left_of_init rfl, hrest]
  | nil =>
    obtain ⟨hpoll, hrest⟩ := ch.poll_nil hheld
    rw [hopen, if_neg Bool.false_ne_true] at hpoll
    have hwait : ch.poll r.rx = (.pending, (ch.poll r.rx).2) := Prod.ext hpoll rfl
    cases hinit : r.init with
    | some value =>
      have hnext := pollNext_init hwait hinit
      refine .inr ⟨value, [], by rw [left_of_nil hheld, hinit]; rfl, by rw [hnext], ?_⟩
      rw [hnext, left_of_init rfl, hrest]
    | none =>
      have hnext := pollNext_pending hwait hinit
      refine .inl ⟨by rw [left_of_nil hheld, hinit]; rfl, by rw [hnext], ?_⟩
      rw [hnext, left_of_init rfl, hrest]

/-- Polling leaves the channel open or closed. -/
theorem closed_pollNext (r : Receiver χ α) :
    ch.closed (r.pollNext ch).2.rx = ch.closed r.rx := by
  rw [← ch.closed_poll r.rx, pollNext]
  rcases ch.poll r.rx with ⟨_ | v, rx⟩
  · cases r.init <;> rfl
  · cases v <;> rfl

end Receiver
end Cpxy.Client
