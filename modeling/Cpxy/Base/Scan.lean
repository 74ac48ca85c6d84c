import Cpxy.Base.Text

/-!
# Scanning

Library `Base`. A parser that takes an item off the front of its input, and some bytes with it, is
run until an item is a hit, it fails, or nothing is left.
-/

namespace Cpxy.Base

/-- A parser of one item, which never takes nothing. -/
structure ItemParser (α : Type) where
  parse : Bytes → Option (Bytes × α)
  length_lt : ∀ {b rest a}, parse b = some (rest, a) → rest.length < b.length

/-- How a scan ends: at a hit, because the parser fails, or where nothing is left. -/
inductive Scanned (β : Type) where
  | hit (r : β)
  | failed
  | ended
  deriving DecidableEq, Repr

namespace ItemParser

variable {α β : Type} (p : ItemParser α) (f : α → Option β)

/-- Run the parser until an item is a hit. -/
def scan (b : Bytes) : Scanned β :=
  if b = [] then .ended
  else
    match _ : p.parse b with
    | none => .failed
    | some (rest, a) =>
      match f a with
      | some r => .hit r
      | none => scan rest
termination_by b.length
decreasing_by exact p.length_lt ‹_›

/-- The input begins with these items, and goes on with the rest. -/
inductive Reads : Bytes → List α → Bytes → Prop
  | nil (b : Bytes) : Reads b [] b
  | cons {b rest rest' : Bytes} {a : α} {items : List α} (h : p.parse b = some (rest, a))
      (hitems : Reads rest items rest') : Reads b (a :: items) rest'

variable {p f}

theorem ne_nil_of_parse {b rest : Bytes} {a : α} (h : p.parse b = some (rest, a)) : b ≠ [] := by
  rintro rfl
  exact absurd (p.length_lt h) (Nat.not_lt_zero _)

theorem scan_nil : p.scan f [] = .ended := by
  unfold scan
  exact if_pos rfl

theorem scan_of_failed {b : Bytes} (hb : b ≠ []) (h : p.parse b = none) :
    p.scan f b = .failed := by
  unfold scan
  rw [if_neg hb]
  split
  · rfl
  · next heq =>
    rw [h] at heq
    cases heq

theorem scan_of_parse {b rest : Bytes} {a : α} (h : p.parse b = some (rest, a)) :
    p.scan f b = (f a).elim (p.scan f rest) .hit := by
  conv => lhs; unfold scan
  rw [if_neg (ne_nil_of_parse h)]
  split
  · next heq =>
    rw [h] at heq
    cases heq
  · next heq =>
    rw [h] at heq
    cases heq
    cases f a <;> rfl

/-- Induction along the items of an input. -/
theorem induction_on {motive : Bytes → Prop} (b : Bytes) (nil : motive [])
    (failed : ∀ b, b ≠ [] → p.parse b = none → motive b)
    (item : ∀ b rest a, p.parse b = some (rest, a) → motive rest → motive b) : motive b := by
  induction hn : b.length using Nat.strong_induction_on generalizing b with
  | _ n ih =>
    subst hn
    by_cases hb : b = []
    · rwa [hb]
    · cases hparse : p.parse b with
      | none => exact failed b hb hparse
      | some res => exact item b res.1 res.2 hparse (ih _ (p.length_lt hparse) _ rfl)

/-- A hit is at the first item that is one, behind items that are none. -/
theorem scan_eq_hit_iff {b : Bytes} {r : β} :
    p.scan f b = .hit r ↔ ∃ items a rest, p.Reads b (items ++ [a]) rest ∧
      (∀ i ∈ items, f i = none) ∧ f a = some r := by
  constructor
  · induction b using p.induction_on with
    | nil =>
      intro h
      rw [scan_nil] at h
      cases h
    | failed b hb hparse =>
      intro h
      rw [scan_of_failed hb hparse] at h
      cases h
    | item b rest a hparse ih =>
      intro h
      rw [scan_of_parse hparse] at h
      cases ha : f a with
      | some r' =>
        rw [ha] at h
        cases h
        exact ⟨[], a, rest, .cons hparse (.nil rest), fun _ hi ↦ absurd hi List.not_mem_nil, ha⟩
      | none =>
        rw [ha] at h
        obtain ⟨items, a', rest', hreads, hnone, hhit⟩ := ih h
        exact ⟨a :: items, a', rest', .cons hparse hreads,
          List.forall_mem_cons.mpr ⟨ha, hnone⟩, hhit⟩
  · rintro ⟨items, a, rest, hreads, hnone, hhit⟩
    induction items generalizing b with
    | nil =>
      cases hreads with
      | cons h _ => rw [scan_of_parse h, hhit, Option.elim_some]
    | cons i items ih =>
      obtain ⟨hi, hnone⟩ := List.forall_mem_cons.mp hnone
      cases hreads with
      | cons h hitems =>
        rw [scan_of_parse h, hi, Option.elim_none]
        exact ih hitems hnone

/-- More bytes behind an item do not change it. -/
def Stable (p : ItemParser α) : Prop :=
  ∀ {b rest a}, p.parse b = some (rest, a) → ∀ x, p.parse (b ++ x) = some (rest ++ x, a)

theorem Reads.append (hp : p.Stable) {b rest : Bytes} {items : List α}
    (h : p.Reads b items rest) (x : Bytes) : p.Reads (b ++ x) items (rest ++ x) := by
  induction h with
  | nil b => exact .nil (b ++ x)
  | cons h _ ih => exact .cons (hp h x) ih

/-- A hit stays the hit when more bytes follow. -/
theorem scan_append_of_hit (hp : p.Stable) {b : Bytes} {r : β} (h : p.scan f b = .hit r)
    (x : Bytes) : p.scan f (b ++ x) = .hit r := by
  obtain ⟨items, a, rest, hreads, hnone, hhit⟩ := scan_eq_hit_iff.mp h
  exact scan_eq_hit_iff.mpr ⟨items, a, rest ++ x, hreads.append hp x, hnone, hhit⟩

end ItemParser
end Cpxy.Base
