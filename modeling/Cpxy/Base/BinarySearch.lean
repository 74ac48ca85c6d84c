import Mathlib.Order.Lattice
import Mathlib.Data.List.Basic

/-!
# Binary search by key

Library `Base`. The search of the Rust standard library over a list sorted by a key: the
index of a match, or else the index at which one would be inserted. A match holds the
key on any list; that an insertion index separates smaller keys from larger ones needs
the list to be sorted.
-/

namespace Cpxy.Base

variable {α κ : Type} [LinearOrder κ] (key : α → κ)

/-- Search between `left` and `right`; each round at least halves the interval, so the
length of the list bounds their number. -/
def searchBetween (xs : List α) (k : κ) : Nat → Nat → Nat → Except Nat Nat
  | 0, left, _ => .error left
  | fuel + 1, left, right =>
    if left < right then
      match xs[left + (right - left) / 2]? with
      | none => .error left
      | some x =>
        if key x < k then searchBetween xs k fuel (left + (right - left) / 2 + 1) right
        else if k < key x then searchBetween xs k fuel left (left + (right - left) / 2)
        else .ok (left + (right - left) / 2)
    else .error left

/-- `binary_search_by_key`: where the key is, or where it belongs. -/
def binarySearchByKey (xs : List α) (k : κ) : Except Nat Nat :=
  searchBetween key xs k xs.length 0 xs.length

variable {key} {xs : List α} {k : κ}

private theorem searchBetween_ok {fuel left right i : Nat}
    (h : searchBetween key xs k fuel left right = .ok i) : ∃ x, xs[i]? = some x ∧ key x = k := by
  induction fuel generalizing left right with
  | zero => cases h
  | succ fuel ih =>
    rw [searchBetween] at h
    split at h
    · split at h
      · cases h
      · next x hx =>
        split at h
        · exact ih h
        · next hlt =>
          split at h
          · exact ih h
          · next hgt =>
            cases h
            exact ⟨x, hx, le_antisymm (not_lt.mp hgt) (not_lt.mp hlt)⟩
    · cases h

/-- A match is at the index that the search returns. -/
theorem binarySearchByKey_ok {i : Nat} (h : binarySearchByKey key xs k = .ok i) :
    ∃ x, xs[i]? = some x ∧ key x = k :=
  searchBetween_ok h

private theorem key_le_of_le {j m : Nat} {x y : α} (hs : xs.Pairwise fun x y ↦ key x ≤ key y)
    (hj : xs[j]? = some x) (hm : xs[m]? = some y) (hjm : j ≤ m) : key x ≤ key y := by
  obtain ⟨hj', rfl⟩ := List.getElem?_eq_some_iff.mp hj
  obtain ⟨hm', rfl⟩ := List.getElem?_eq_some_iff.mp hm
  rcases Nat.eq_or_lt_of_le hjm with rfl | hlt
  · exact le_refl _
  · exact List.pairwise_iff_getElem.mp hs j m hj' hm' hlt

private theorem searchBetween_error {fuel left right i : Nat}
    (hs : xs.Pairwise fun x y ↦ key x ≤ key y) (hlr : left ≤ right) (hr : right ≤ xs.length)
    (hf : right - left ≤ fuel) (hlow : ∀ j x, j < left → xs[j]? = some x → key x < k)
    (hhigh : ∀ j x, right ≤ j → xs[j]? = some x → k < key x)
    (h : searchBetween key xs k fuel left right = .error i) :
    i ≤ xs.length ∧ (∀ j x, j < i → xs[j]? = some x → key x < k) ∧
      ∀ j x, i ≤ j → xs[j]? = some x → k < key x := by
  -- the interval shrinks; everything left of it is smaller, everything right of it larger
  induction fuel generalizing left right with
  | zero =>
    cases h
    obtain rfl : i = right := by omega
    exact ⟨hr, hlow, hhigh⟩
  | succ fuel ih =>
    rw [searchBetween] at h
    split at h
    · next hlt =>
      have hmid : left + (right - left) / 2 < xs.length := by omega
      have hx := List.getElem?_eq_getElem hmid
      generalize xs[left + (right - left) / 2] = x at hx
      rw [hx] at h
      dsimp only at h
      split at h
      · next hsmall =>
        refine ih (by omega) hr (by omega) ?_ hhigh h
        intro j y hj hy
        exact lt_of_le_of_lt (key_le_of_le hs hy hx (by omega)) hsmall
      · split at h
        · next hlarge =>
          refine ih (by omega) (by omega) (by omega) hlow ?_ h
          intro j y hj hy
          exact lt_of_lt_of_le hlarge (key_le_of_le hs hx hy hj)
        · cases h
    · cases h
      obtain rfl : i = right := by omega
      exact ⟨hr, hlow, hhigh⟩

/-- The list around an index. -/
theorem eq_take_cons_drop {i : Nat} {x : α} (hx : xs[i]? = some x) :
    xs = xs.take i ++ x :: xs.drop (i + 1) := by
  obtain ⟨hi, rfl⟩ := List.getElem?_eq_some_iff.mp hx
  rw [← List.drop_eq_getElem_cons hi, List.take_append_drop]

/-- Without a match, the index separates the smaller keys of a sorted list from the larger. -/
theorem binarySearchByKey_error {i : Nat} (hs : xs.Pairwise fun x y ↦ key x ≤ key y)
    (h : binarySearchByKey key xs k = .error i) :
    i ≤ xs.length ∧ (∀ x ∈ xs.take i, key x < k) ∧ ∀ x ∈ xs.drop i, k < key x := by
  obtain ⟨hi, hlow, hhigh⟩ := searchBetween_error hs (Nat.zero_le _) (Nat.le_refl _)
    (Nat.sub_le _ _) (by simp) (by intro j x hj hx; simp [hj] at hx) h
  refine ⟨hi, ?_, ?_⟩
  · intro x hx
    obtain ⟨j, hj⟩ := List.mem_iff_getElem?.mp hx
    rw [List.getElem?_take] at hj
    split at hj
    · next hlt => exact hlow j x hlt hj
    · cases hj
  · intro x hx
    obtain ⟨j, hj⟩ := List.mem_iff_getElem?.mp hx
    rw [List.getElem?_drop] at hj
    exact hhigh (i + j) x (by omega) hj

end Cpxy.Base
