import Cpxy.Base.BigEndian
import Cpxy.Base.Outcome
import Mathlib.Data.List.Basic

/-!
# Readers

Library `Io`. A reader is a state that is read from, with room for so many bytes; an empty
read is the end of the stream. What `read_exact` and a copy to the end get from a reader
follows from the bytes that it delivers, however they are cut into reads.
-/

namespace Cpxy.Io

open Cpxy.Base

variable {ε σ : Type}

/-- The result of a poll that waits for the stream below. -/
def awaited {α : Type} : Poll (Outcome ε α) × σ → Outcome ε (α × σ)
  | (.ready (.ok a), s) => .ok (a, s)
  | (.ready (.err e), _) => .err e
  | (.ready .panicked, _) => .panicked
  | (.pending, _) => .panicked

/-- What is read, and a bound on what is still to come that every read with a result lowers. -/
structure Reader (ε σ : Type) where
  read : σ → Nat → Outcome ε (Bytes × σ)
  left : σ → Nat
  shrinks : ∀ {s s' room data}, read s room = .ok (data, s') → data ≠ [] → left s' < left s

namespace Reader

/-- `read_exact` into so many bytes. -/
def readExact (r : Reader ε σ) (eof : ε) (s : σ) (n : Nat) : Outcome ε (Bytes × σ) :=
  if _hn : n = 0 then .ok ([], s)
  else do
    let (data, s) ← r.read s n
    if _hdata : data = [] then .err eof
    else
      let (rest, s) ← r.readExact eof s (n - data.length)
      .ok (data ++ rest, s)
termination_by n
decreasing_by
  have := List.length_pos_iff.mpr _hdata
  omega

/-- Read with the same room up to the end of the stream. -/
def readToEnd (r : Reader ε σ) (room : Nat) (s : σ) : Outcome ε Bytes :=
  match _h : r.read s room with
  | .err e => .err e
  | .panicked => .panicked
  | .ok (data, s') =>
    if _hdata : data = [] then .ok []
    else
      match r.readToEnd room s' with
      | .ok rest => .ok (data ++ rest)
      | .err e => .err e
      | .panicked => .panicked
termination_by r.left s
decreasing_by exact r.shrinks _h _hdata

theorem readToEnd_nil {r : Reader ε σ} {room : Nat} {s s' : σ}
    (h : r.read s room = .ok ([], s')) : r.readToEnd room s = .ok [] := by
  rw [readToEnd]
  split <;> simp_all

theorem readToEnd_cons {r : Reader ε σ} {room : Nat} {s s' : σ} {data rest : Bytes}
    (h : r.read s room = .ok (data, s')) (hdata : data ≠ [])
    (hrest : r.readToEnd room s' = .ok rest) : r.readToEnd room s = .ok (data ++ rest) := by
  rw [readToEnd]
  split <;> simp_all

/-- `read_exact` leaves no more than there was. -/
theorem readExact_left {r : Reader ε σ} {eof : ε} {s s' : σ} {n : Nat} {data : Bytes}
    (h : r.readExact eof s n = .ok (data, s')) : r.left s' ≤ r.left s := by
  induction n using Nat.strongRecOn generalizing s data with
  | ind n ih =>
    rw [readExact] at h
    split at h
    · cases h
      exact Nat.le_refl _
    · next hn =>
      obtain ⟨⟨first, s₁⟩, hread, h⟩ := Outcome.bind_eq_ok_iff.mp h
      dsimp only at h
      split at h
      · cases h
      · next hfirst =>
        obtain ⟨⟨rest, s₂⟩, hrest, h⟩ := Outcome.bind_eq_ok_iff.mp h
        cases h
        have hpos := List.length_pos_iff.mpr hfirst
        exact Nat.le_of_lt (Nat.lt_of_le_of_lt (ih _ (by omega) hrest) (r.shrinks hread hfirst))

/-- A reader delivers these bytes from the states that stand at a position in them: a read gets
the next ones, and nothing only at the end. -/
structure Delivers (r : Reader ε σ) (plain : Bytes) (At : Nat → σ → Prop) : Prop where
  read : ∀ {k s}, At k s → ∀ room, ∃ data s', r.read s room = .ok (data, s') ∧
    data <+: plain.drop k ∧ data.length ≤ room ∧ At (k + data.length) s' ∧
    (0 < room → data = [] → plain.length ≤ k)

namespace Delivers

variable {r : Reader ε σ} {plain : Bytes} {At : Nat → σ → Prop}

/-- What follows a read is the rest. -/
theorem drop_eq {k : Nat} {data : Bytes} (h : data <+: plain.drop k) :
    plain.drop k = data ++ plain.drop (k + data.length) := by
  obtain ⟨rest, hrest⟩ := h
  rw [← List.drop_drop, ← hrest, List.drop_left]

/-- `read_exact` gets the next bytes, when there are so many. -/
theorem readExact (h : r.Delivers plain At) (eof : ε) {k n : Nat} {s : σ} (hs : At k s)
    (hn : k + n ≤ plain.length) :
    ∃ s', r.readExact eof s n = .ok ((plain.drop k).take n, s') ∧ At (k + n) s' := by
  induction n using Nat.strongRecOn generalizing k s with
  | ind n ih =>
    rw [Reader.readExact]
    split
    · next hzero =>
      rw [hzero]
      exact ⟨s, rfl, hs⟩
    · next hpos =>
      obtain ⟨data, s₁, hread, hpre, hroom, hs₁, hend⟩ := h.read hs n
      have hdata : data ≠ [] := by
        intro hnil
        have := hend (by omega) hnil
        omega
      have hdpos := List.length_pos_iff.mpr hdata
      obtain ⟨s₂, hrest, hs₂⟩ := ih (n - data.length) (by omega) hs₁ (by omega)
      have hsum : k + data.length + (n - data.length) = k + n := by omega
      rw [hsum] at hs₂
      refine ⟨s₂, ?_, hs₂⟩
      rw [hread, Outcome.ok_bind]
      dsimp only
      rw [dif_neg hdata, hrest, Outcome.ok_bind, drop_eq hpre, List.take_append,
        List.take_of_length_le hroom]

/-- A copy to the end gets all that is left. -/
theorem readToEnd (h : r.Delivers plain At) {k room : Nat} {s : σ} (hs : At k s)
    (hroom : 0 < room) : r.readToEnd room s = .ok (plain.drop k) := by
  induction hn : r.left s using Nat.strongRecOn generalizing k s with
  | ind n ih =>
    obtain ⟨data, s₁, hread, hpre, _, hs₁, hend⟩ := h.read hs room
    by_cases hdata : data = []
    · subst hdata
      rw [readToEnd_nil hread, List.drop_eq_nil_of_le (hend hroom rfl)]
    · have hlt : r.left s₁ < n := hn ▸ r.shrinks hread hdata
      rw [readToEnd_cons hread hdata (ih _ hlt hs₁ rfl), ← drop_eq hpre]

end Delivers
end Reader
end Cpxy.Io
