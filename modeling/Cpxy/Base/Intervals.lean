import Cpxy.Base.BinarySearch
import Mathlib.Data.List.Pairwise

/-!
# Search among disjoint intervals

Library `Base`. Each item of a list covers the keys from its first to its last, and no key is
covered twice. In a list in order, only the last item that starts at or before a key can cover
it, so a search for the key among the starts finds the one candidate.
-/

namespace Cpxy.Base

variable {α κ : Type} [LinearOrder κ] (first last : α → κ)

/-- The item covers the key; both ends are included. -/
def Covers (x : α) (k : κ) : Prop := first x ≤ k ∧ k ≤ last x

instance (x : α) (k : κ) : Decidable (Covers first last x k) :=
  inferInstanceAs (Decidable (_ ∧ _))

/-- Intervals in order, none empty and no two with a key in common. -/
structure Intervals (xs : List α) : Prop where
  nonempty : ∀ x ∈ xs, first x ≤ last x
  sorted : xs.Pairwise fun x y ↦ first x ≤ first y
  disjoint : xs.Pairwise fun x y ↦ ∀ k, ¬ (Covers first last x k ∧ Covers first last y k)

variable {first last} {xs before after : List α} {x y : α} {k : κ} {i : Nat}

/-- Each interval ends before the next one starts. -/
theorem Intervals.apart (h : Intervals first last xs) :
    xs.Pairwise fun x y ↦ last x < first y := by
  apply (h.sorted.and h.disjoint).imp_of_mem
  rintro x y - hy ⟨hle, hdisjoint⟩
  by_contra hlt
  exact hdisjoint (first y) ⟨⟨hle, not_lt.mp hlt⟩, le_refl _, h.nonempty y hy⟩

/-- Ranges that each end before the next one starts are such intervals. -/
theorem Intervals.of_apart (hnonempty : ∀ x ∈ xs, first x ≤ last x)
    (hapart : xs.Pairwise fun x y ↦ last x < first y) : Intervals first last xs where
  nonempty := hnonempty
  sorted := by
    apply hapart.imp_of_mem
    intro x y hx _ hlt
    exact le_trans (hnonempty x hx) (le_of_lt hlt)
  disjoint := by
    apply hapart.imp
    rintro x y hlt k ⟨hx, hy⟩
    exact absurd (lt_of_le_of_lt hx.2 hlt) (not_lt.mpr hy.1)

/-- The one candidate is the last interval that does not start behind the key. -/
theorem Intervals.covers_iff (h : Intervals first last (before ++ x :: after)) (hx : first x ≤ k)
    (hafter : ∀ z ∈ after, k < first z) :
    y ∈ before ++ x :: after ∧ Covers first last y k ↔ y = x ∧ k ≤ last x := by
  have hbefore := (List.pairwise_append.mp h.apart).2.2
  constructor
  · rintro ⟨hy, hfirst, hlast⟩
    rcases List.mem_append.mp hy with hy | hy
    · have hlt : last y < first x := hbefore y hy x List.mem_cons_self
      exact absurd (lt_of_lt_of_le hlt (le_trans hx hlast)) (lt_irrefl _)
    · rcases List.mem_cons.mp hy with rfl | hy
      · exact ⟨rfl, hlast⟩
      · exact absurd hfirst (not_le.mpr (hafter y hy))
  · rintro ⟨rfl, hlast⟩
    exact ⟨List.mem_append_right _ List.mem_cons_self, hx, hlast⟩

/-- An interval that starts at the key is the one that covers it. -/
theorem Intervals.search_ok (h : Intervals first last xs)
    (hs : binarySearchByKey first xs k = .ok i) :
    ∃ x, xs[i]? = some x ∧ ∀ y, y ∈ xs ∧ Covers first last y k ↔ y = x := by
  obtain ⟨x, hx, rfl⟩ := binarySearchByKey_ok hs
  have hsplit := eq_take_cons_drop hx
  have hle : first x ≤ last x := h.nonempty x (List.mem_of_getElem? hx)
  have hapart := h.apart
  rw [hsplit] at h hapart
  have hafter : ∀ z ∈ xs.drop (i + 1), first x < first z := by
    intro z hz
    have hlt := (List.pairwise_cons.mp (List.pairwise_append.mp hapart).2.1).1 z hz
    exact lt_of_le_of_lt hle hlt
  refine ⟨x, hx, fun y ↦ ?_⟩
  rw [hsplit, h.covers_iff (le_refl _) hafter]
  exact and_iff_left hle

/-- In front of all intervals no key is covered. -/
theorem Intervals.search_error_zero (h : Intervals first last xs)
    (hs : binarySearchByKey first xs k = .error 0) : ∀ y ∈ xs, ¬ Covers first last y k := by
  obtain ⟨_, _, hhigh⟩ := binarySearchByKey_error h.sorted hs
  intro y hy hcovers
  exact absurd hcovers.1 (not_le.mpr (hhigh y hy))

/-- Elsewhere the interval in front of the insertion index is the candidate. -/
theorem Intervals.search_error_succ (h : Intervals first last xs)
    (hs : binarySearchByKey first xs k = .error (i + 1)) :
    ∃ x, xs[i]? = some x ∧ first x ≤ k ∧
      ∀ y, y ∈ xs ∧ Covers first last y k ↔ y = x ∧ k ≤ last x := by
  obtain ⟨hi, hlow, hhigh⟩ := binarySearchByKey_error h.sorted hs
  obtain ⟨x, hx⟩ : ∃ x, xs[i]? = some x := ⟨xs[i], List.getElem?_eq_getElem hi⟩
  have hsplit := eq_take_cons_drop hx
  have hmem : x ∈ xs.take (i + 1) := by
    rw [List.take_add_one, hx]
    simp
  have hle : first x ≤ k := le_of_lt (hlow x hmem)
  rw [hsplit] at h
  refine ⟨x, hx, hle, fun y ↦ ?_⟩
  rw [hsplit, h.covers_iff hle hhigh]

/-- No key is covered by two items. -/
theorem Intervals.unique (h : Intervals first last xs) (hx : x ∈ xs) (hy : y ∈ xs)
    (hxk : Covers first last x k) (hyk : Covers first last y k) : x = y := by
  have hsymm : Std.Symm fun x y ↦ ∀ k, ¬ (Covers first last x k ∧ Covers first last y k) :=
    ⟨fun x y hxy k hk ↦ hxy k hk.symm⟩
  by_contra hne
  exact h.disjoint.forall hx hy hne k ⟨hxk, hyk⟩

/-- A scan finds the interval that covers a key. -/
theorem Intervals.find?_eq_some_iff (h : Intervals first last xs) :
    xs.find? (fun x ↦ Covers first last x k) = some y ↔ y ∈ xs ∧ Covers first last y k := by
  constructor
  · intro hfind
    exact ⟨List.mem_of_find?_eq_some hfind, by simpa using List.find?_some hfind⟩
  · rintro ⟨hy, hcovers⟩
    cases hfind : xs.find? (fun x ↦ Covers first last x k) with
    | none => exact absurd (by simpa using hcovers) (List.find?_eq_none.mp hfind y hy)
    | some x =>
      have hcovers' : Covers first last x k := by simpa using List.find?_some hfind
      rw [h.unique (List.mem_of_find?_eq_some hfind) hy hcovers' hcovers]

end Cpxy.Base
