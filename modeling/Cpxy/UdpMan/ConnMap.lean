import Cpxy.Base.BinarySearch
import Cpxy.Base.Run
import Mathlib.Data.Nat.Basic
import Mathlib.Logic.Function.Basic

/-!
# The connection map of the udpman server

Library `UdpMan`. Source `src/protocol/udpman/server.rs:158–210`. A queue of connections
sorted by id, searched by bisection. Ids are handed out above the largest in use, and
from the first gap once that is the last one. Over any history of changes the queue stands
for a map from ids to connections.
-/

namespace Cpxy.UdpMan

open Cpxy.Base

/-- `Conn`; `server.rs:158–162`. The task, and with it the channel into it, is known by a
serial number. -/
structure Conn where
  id : UInt16
  task : Nat
  deriving DecidableEq, Repr

private def idOf (c : Conn) : Nat := c.id.toNat

/-- Strictly increasing ids. -/
def Sorted (cs : List Conn) : Prop := cs.Pairwise fun a b ↦ a.id.toNat < b.id.toNat

/-- `ConnMap`; `server.rs:164–165`. -/
structure ConnMap where
  conns : List Conn
  sorted : Sorted conns

/-- The search of `binary_search_by_key(&id, |c| c.id)`. On distinct sorted keys every way of
searching the two halves of a queue gives this answer. -/
def searchId (cs : List Conn) (id : UInt16) : Except Nat Nat :=
  binarySearchByKey idOf cs id.toNat

private theorem Sorted.le {cs : List Conn} (h : Sorted cs) :
    cs.Pairwise fun a b ↦ idOf a ≤ idOf b :=
  h.imp fun hab ↦ Nat.le_of_lt hab

/-- A found index holds the connection with that id. -/
theorem searchId_ok {cs : List Conn} {id : UInt16} {i : Nat} (h : searchId cs id = .ok i) :
    ∃ c, cs[i]? = some c ∧ c.id = id := by
  obtain ⟨c, hc, hid⟩ := binarySearchByKey_ok h
  exact ⟨c, hc, UInt16.toNat_inj.mp hid⟩

/-- An insertion index separates smaller ids from larger ones. -/
theorem searchId_error {cs : List Conn} {id : UInt16} {i : Nat} (hs : Sorted cs)
    (h : searchId cs id = .error i) :
    i ≤ cs.length ∧ (∀ c ∈ cs.take i, c.id.toNat < id.toNat) ∧
      ∀ c ∈ cs.drop i, id.toNat < c.id.toNat :=
  binarySearchByKey_error hs.le h

theorem searchId_error_not_mem {cs : List Conn} {id : UInt16} {i : Nat} (hs : Sorted cs)
    (h : searchId cs id = .error i) {c : Conn} (hc : c ∈ cs) : c.id ≠ id := by
  obtain ⟨_, hlow, hhigh⟩ := searchId_error hs h
  rw [← List.take_append_drop i cs, List.mem_append] at hc
  intro heq
  subst heq
  rcases hc with hc | hc
  · exact absurd (hlow c hc) (Nat.lt_irrefl _)
  · exact absurd (hhigh c hc) (Nat.lt_irrefl _)

/-- Two connections with one id are the same. -/
theorem Sorted.eq_of_id_eq {cs : List Conn} (hs : Sorted cs) {a b : Conn} (ha : a ∈ cs)
    (hb : b ∈ cs) (h : a.id = b.id) : a = b := by
  obtain ⟨i, hi, rfl⟩ := List.mem_iff_getElem.mp ha
  obtain ⟨j, hj, rfl⟩ := List.mem_iff_getElem.mp hb
  have hlt := List.pairwise_iff_getElem.mp hs
  rcases Nat.lt_trichotomy i j with hij | rfl | hij
  · have := hlt i j hi hj hij
    rw [h] at this
    omega
  · rfl
  · have := hlt j i hj hi hij
    rw [h] at this
    omega

/-- Around a found index no other connection has the id. -/
theorem searchId_ok_split {cs : List Conn} {id : UInt16} {i : Nat} (hs : Sorted cs)
    (h : searchId cs id = .ok i) :
    ∃ c, cs[i]? = some c ∧ c.id = id ∧ cs = cs.take i ++ c :: cs.drop (i + 1) ∧
      ∀ d ∈ cs.take i ++ cs.drop (i + 1), d.id ≠ id := by
  obtain ⟨c, hc, rfl⟩ := searchId_ok h
  have hsplit := eq_take_cons_drop hc
  refine ⟨_, hc, rfl, hsplit, ?_⟩
  have hp := hs
  rw [hsplit, Sorted, List.pairwise_append, List.pairwise_cons] at hp
  obtain ⟨_, ⟨hafter, _⟩, hbefore⟩ := hp
  intro d hd heq
  rcases List.mem_append.mp hd with hd | hd
  · have := hbefore d hd _ List.mem_cons_self
    rw [heq] at this
    omega
  · have := hafter d hd
    rw [heq] at this
    omega

private theorem sorted_set {cs : List Conn} {i : Nat} {c : Conn} (hs : Sorted cs)
    (h : searchId cs c.id = .ok i) : Sorted (cs.set i c) := by
  obtain ⟨d, hd, hid, _, _⟩ := searchId_ok_split hs h
  have hmap : (cs.set i c).map (fun c ↦ c.id.toNat) = cs.map fun c ↦ c.id.toNat := by
    apply List.ext_getElem?
    intro j
    by_cases hij : i = j
    · subst hij
      obtain ⟨hi, rfl⟩ := List.getElem?_eq_some_iff.mp hd
      simp [hi, hid]
    · simp [hij]
  rw [Sorted, ← List.pairwise_map (f := fun c : Conn ↦ c.id.toNat) (R := (· < ·))] at hs ⊢
  rwa [hmap]

private theorem sorted_insert {cs : List Conn} {i : Nat} {c : Conn} (hs : Sorted cs)
    (h : searchId cs c.id = .error i) : Sorted (cs.take i ++ c :: cs.drop i) := by
  obtain ⟨_, hlow, hhigh⟩ := searchId_error hs h
  have hcs : Sorted (cs.take i ++ cs.drop i) := by rwa [List.take_append_drop]
  rw [Sorted, List.pairwise_append] at hcs ⊢
  obtain ⟨hl, hr, hlr⟩ := hcs
  refine ⟨hl, List.pairwise_cons.mpr ⟨hhigh, hr⟩, ?_⟩
  intro a ha b hb
  rcases List.mem_cons.mp hb with rfl | hb
  · exact hlow a ha
  · exact hlr a ha b hb

namespace ConnMap

/-- `ConnMap::default`; `server.rs:164`. -/
def empty : ConnMap := ⟨[], List.Pairwise.nil⟩

/-- `ConnMap::insert`; `server.rs:168–177`. -/
def insert (m : ConnMap) (c : Conn) : ConnMap :=
  match h : searchId m.conns c.id with
  | .ok p => ⟨m.conns.set p c, sorted_set m.sorted h⟩
  | .error index => ⟨m.conns.take index ++ c :: m.conns.drop index, sorted_insert m.sorted h⟩

/-- `ConnMap::get`; `server.rs:179–184`. -/
def get (m : ConnMap) (id : UInt16) : Option Conn :=
  match searchId m.conns id with
  | .ok i => m.conns[i]?
  | .error _ => none

/-- `ConnMap::remove`; `server.rs:186–191`. -/
def remove (m : ConnMap) (id : UInt16) : Option Conn × ConnMap :=
  match searchId m.conns id with
  | .ok i => (m.conns[i]?, ⟨m.conns.eraseIdx i, m.sorted.sublist (List.eraseIdx_sublist _ _)⟩)
  | .error _ => (none, m)

/-- The first id from `expecting` on that the queue skips; `server.rs:201–210`. -/
def firstGap : UInt16 → List Conn → Option UInt16
  | _, [] => none
  | expecting, c :: cs =>
    if expecting ≠ c.id then some expecting
    else if expecting.toNat + 1 < 65536 then firstGap (expecting + 1) cs
    else none

/-- `ConnMap::find_available_id`; `server.rs:193–210`. -/
def findAvailableId (m : ConnMap) : Option UInt16 :=
  let maxKey := (m.conns.getLast?.map Conn.id).getD 0
  if maxKey.toNat + 1 < 65536 then some (maxKey + 1) else firstGap 0 m.conns

instance : Membership Conn ConnMap := ⟨fun m c ↦ c ∈ m.conns⟩

instance (m : ConnMap) (c : Conn) : Decidable (c ∈ m) :=
  inferInstanceAs (Decidable (c ∈ m.conns))

theorem mem_def {m : ConnMap} {c : Conn} : c ∈ m ↔ c ∈ m.conns := Iff.rfl

@[simp] theorem not_mem_empty (c : Conn) : c ∉ empty := by
  simp [mem_def, empty]

/-- The map holds one connection for an id. -/
theorem eq_of_mem {m : ConnMap} {a b : Conn} (ha : a ∈ m) (hb : b ∈ m) (h : a.id = b.id) : a = b :=
  m.sorted.eq_of_id_eq ha hb h

/-- Inserting puts a connection in the place of any other with its id. -/
theorem mem_insert {m : ConnMap} {c d : Conn} :
    d ∈ m.insert c ↔ d = c ∨ (d ∈ m ∧ d.id ≠ c.id) := by
  rw [mem_def, insert]
  split
  · next p h =>
    obtain ⟨e, he, hid, hsplit, hne⟩ := searchId_ok_split m.sorted h
    obtain ⟨hp, _⟩ := List.getElem?_eq_some_iff.mp he
    have hmem : d ∈ m.conns ↔ d = e ∨ d ∈ m.conns.take p ++ m.conns.drop (p + 1) := by
      conv_lhs => rw [hsplit]
      simp only [List.mem_append, List.mem_cons]
      tauto
    have hset : d ∈ m.conns.set p c ↔ d = c ∨ d ∈ m.conns.take p ++ m.conns.drop (p + 1) := by
      rw [List.set_eq_take_append_cons_drop, if_pos hp]
      simp only [List.mem_append, List.mem_cons]
      tauto
    dsimp only
    rw [hset, mem_def, hmem]
    constructor
    · rintro (rfl | hd)
      · exact .inl rfl
      · exact .inr ⟨.inr hd, hne d hd⟩
    · rintro (rfl | ⟨rfl | hd, hdid⟩)
      · exact .inl rfl
      · exact absurd hid hdid
      · exact .inr hd
  · next i h =>
    have hne {d : Conn} (hd : d ∈ m.conns) := searchId_error_not_mem m.sorted h hd
    have hmem : d ∈ m.conns ↔ d ∈ m.conns.take i ∨ d ∈ m.conns.drop i := by
      rw [← List.mem_append, List.take_append_drop]
    simp only [List.mem_append, List.mem_cons, mem_def]
    constructor
    · rintro (hd | rfl | hd)
      · exact .inr ⟨hmem.mpr (.inl hd), hne (hmem.mpr (.inl hd))⟩
      · exact .inl rfl
      · exact .inr ⟨hmem.mpr (.inr hd), hne (hmem.mpr (.inr hd))⟩
    · rintro (rfl | ⟨hd, _⟩)
      · exact .inr (.inl rfl)
      · rcases hmem.mp hd with hd | hd
        · exact .inl hd
        · exact .inr (.inr hd)

/-- A lookup finds the connection with the id, and no other. -/
theorem get_eq_some_iff {m : ConnMap} {id : UInt16} {c : Conn} :
    m.get id = some c ↔ c ∈ m ∧ c.id = id := by
  rw [get]
  split
  · next i h =>
    obtain ⟨d, hd, hid⟩ := searchId_ok h
    rw [hd, Option.some.injEq]
    constructor
    · rintro rfl
      exact ⟨List.mem_of_getElem? hd, hid⟩
    · rintro ⟨hc, hcid⟩
      exact eq_of_mem (m := m) (List.mem_of_getElem? hd) hc (hid.trans hcid.symm)
  · next i h =>
    constructor
    · intro hc
      cases hc
    · rintro ⟨hc, rfl⟩
      exact absurd rfl (searchId_error_not_mem m.sorted h hc)

/-- Removal takes out the connection with the id. -/
theorem remove_fst (m : ConnMap) (id : UInt16) : (m.remove id).1 = m.get id := by
  rw [remove, get]
  split <;> rfl

/-- Removal keeps every connection with another id. -/
theorem mem_remove {m : ConnMap} {id : UInt16} {c : Conn} :
    c ∈ (m.remove id).2 ↔ c ∈ m ∧ c.id ≠ id := by
  rw [remove]
  split
  · next i h =>
    obtain ⟨e, _, hid, hsplit, hne⟩ := searchId_ok_split m.sorted h
    have hmem : c ∈ m.conns ↔ c = e ∨ c ∈ m.conns.take i ++ m.conns.drop (i + 1) := by
      conv_lhs => rw [hsplit]
      simp only [List.mem_append, List.mem_cons]
      tauto
    show c ∈ m.conns.eraseIdx i ↔ _
    rw [List.eraseIdx_eq_take_drop_succ, mem_def, hmem]
    constructor
    · intro hc
      exact ⟨.inr hc, hne c hc⟩
    · rintro ⟨rfl | hc, hcid⟩
      · exact absurd hid hcid
      · exact hc
  · next i h =>
    constructor
    · intro hc
      exact ⟨hc, searchId_error_not_mem m.sorted h hc⟩
    · exact And.left

private theorem firstGap_spec {expecting id : UInt16} {cs : List Conn} (hs : Sorted cs)
    (hge : ∀ c ∈ cs, expecting.toNat ≤ c.id.toNat) (h : firstGap expecting cs = some id) :
    expecting.toNat ≤ id.toNat ∧ ∀ c ∈ cs, c.id ≠ id := by
  induction cs generalizing expecting with
  | nil => cases h
  | cons c cs ih =>
    obtain ⟨hafter, hs'⟩ := List.pairwise_cons.mp hs
    rw [firstGap] at h
    split at h
    · next hne =>
      rw [Option.some.injEq] at h
      subst h
      have hle := hge c List.mem_cons_self
      have hnat : expecting.toNat ≠ c.id.toNat := fun heq ↦ hne (UInt16.toNat_inj.mp heq)
      refine ⟨Nat.le_refl _, ?_⟩
      intro d hd heq
      rcases List.mem_cons.mp hd with rfl | hd
      · rw [heq] at hnat
        omega
      · have := hafter d hd
        rw [heq] at this
        omega
    · next heq =>
      rw [ne_eq, Decidable.not_not] at heq
      subst heq
      split at h
      · next hlt =>
        have hsucc : (c.id + 1).toNat = c.id.toNat + 1 := by
          rw [UInt16.toNat_add]
          exact Nat.mod_eq_of_lt hlt
        have hge' : ∀ d ∈ cs, (c.id + 1).toNat ≤ d.id.toNat := by
          intro d hd
          have := hafter d hd
          omega
        obtain ⟨hid, hrest⟩ := ih hs' hge' h
        refine ⟨by omega, ?_⟩
        intro d hd heq
        rcases List.mem_cons.mp hd with rfl | hd
        · rw [heq] at hsucc hid
          omega
        · exact hrest d hd heq
      · cases h

/-- An available id is not in use. -/
theorem findAvailableId_fresh {m : ConnMap} {id : UInt16} (h : m.findAvailableId = some id)
    {c : Conn} (hc : c ∈ m) : c.id ≠ id := by
  have hcm : c ∈ m.conns := hc
  rw [findAvailableId] at h
  split at h
  · next hlt =>
    obtain ⟨cs, last, hcs⟩ := List.eq_nil_or_concat m.conns |>.resolve_left (by
      rintro hnil
      rw [hnil] at hcm
      cases hcm)
    have hmax : (m.conns.getLast?.map Conn.id).getD 0 = last.id := by simp [hcs]
    rw [hmax] at h hlt
    rw [Option.some.injEq] at h
    subst h
    have hsucc : (last.id + 1).toNat = last.id.toNat + 1 := by
      rw [UInt16.toNat_add]
      exact Nat.mod_eq_of_lt hlt
    have hs := m.sorted
    rw [hcs, List.concat_eq_append, Sorted, List.pairwise_append] at hs
    rw [hcs, List.concat_eq_append, List.mem_append, List.mem_singleton] at hcm
    intro heq
    rw [← heq] at hsucc
    rcases hcm with hcm | rfl
    · have := hs.2.2 c hcm last List.mem_cons_self
      omega
    · omega
  · exact (firstGap_spec m.sorted (by simp) h).2 c hcm

theorem get_eq_none_iff {m : ConnMap} {id : UInt16} : m.get id = none ↔ ∀ c ∈ m, c.id ≠ id := by
  rw [Option.eq_none_iff_forall_ne_some]
  constructor
  · intro h c hc hid
    exact h c (get_eq_some_iff.mpr ⟨hc, hid⟩)
  · intro h c hc
    obtain ⟨hmem, hid⟩ := get_eq_some_iff.mp hc
    exact h c hmem hid

theorem get_insert (m : ConnMap) (c : Conn) :
    (m.insert c).get = Function.update m.get c.id (some c) := by
  funext id
  apply Option.ext
  intro d
  rw [get_eq_some_iff, mem_insert]
  by_cases hid : id = c.id
  · subst hid
    rw [Function.update_self, Option.some.injEq]
    constructor
    · rintro ⟨rfl | ⟨_, hne⟩, heq⟩
      · rfl
      · exact absurd heq hne
    · rintro rfl
      exact ⟨.inl rfl, rfl⟩
  · rw [Function.update_of_ne hid, get_eq_some_iff]
    constructor
    · rintro ⟨rfl | ⟨hd, _⟩, heq⟩
      · exact absurd heq.symm hid
      · exact ⟨hd, heq⟩
    · rintro ⟨hd, rfl⟩
      exact ⟨.inr ⟨hd, hid⟩, rfl⟩

theorem get_remove (m : ConnMap) (id : UInt16) :
    (m.remove id).2.get = Function.update m.get id none := by
  funext id'
  apply Option.ext
  intro d
  rw [get_eq_some_iff, mem_remove]
  by_cases hid : id' = id
  · subst hid
    rw [Function.update_self]
    simp
  · rw [Function.update_of_ne hid, get_eq_some_iff]
    constructor
    · rintro ⟨⟨hd, _⟩, heq⟩
      exact ⟨hd, heq⟩
    · rintro ⟨hd, rfl⟩
      exact ⟨⟨hd, hid⟩, rfl⟩

/-! ### Free ids -/

/-- The largest id in use; `server.rs:194`. -/
def maxKey (m : ConnMap) : UInt16 := (m.conns.getLast?.map Conn.id).getD 0

/-- Unless nothing is in use, the largest id is. -/
theorem exists_maxKey {m : ConnMap} (h : 0 < m.maxKey.toNat) : ∃ c ∈ m, c.id = m.maxKey := by
  rcases hlast : m.conns.getLast? with _ | c
  · rw [maxKey, hlast] at h
    exact absurd h (Nat.lt_irrefl 0)
  · refine ⟨c, List.mem_of_getLast? hlast, ?_⟩
    rw [maxKey, hlast]
    rfl

/-- Below the first gap, and without one below the largest id, every id is in use. -/
private theorem firstGap_filled (expecting : UInt16) {cs : List Conn} {i : Nat}
    (hlow : expecting.toNat ≤ i) (hmax : ∃ c ∈ cs, i ≤ c.id.toNat)
    (h : ∀ id, firstGap expecting cs = some id → i < id.toNat) :
    ∃ c ∈ cs, c.id.toNat = i := by
  induction cs generalizing expecting with
  | nil =>
    obtain ⟨c, hc, _⟩ := hmax
    cases hc
  | cons c cs ih =>
    rw [firstGap] at h
    split at h
    · next hne => exact absurd (h expecting rfl) (Nat.not_lt.mpr hlow)
    · next heq =>
      rw [ne_eq, Decidable.not_not] at heq
      subst heq
      rcases Nat.eq_or_lt_of_le hlow with hi | hi
      · exact ⟨c, List.mem_cons_self, hi⟩
      · -- something above `c` is in the rest, so its id is not the last one
        obtain ⟨d, hd, hid⟩ := hmax
        have hrest : d ∈ cs := by
          rcases List.mem_cons.mp hd with rfl | hd
          · omega
          · exact hd
        have hlast := d.id.toNat_lt
        have hlt : c.id.toNat + 1 < 65536 := by omega
        have hsucc : (c.id + 1).toNat = c.id.toNat + 1 := by
          rw [UInt16.toNat_add]
          exact Nat.mod_eq_of_lt hlt
        rw [if_pos hlt] at h
        obtain ⟨e, he, hei⟩ := ih (c.id + 1) (by omega) ⟨d, hrest, hid⟩ h
        exact ⟨e, List.mem_cons_of_mem _ he, hei⟩

/-- No id is available exactly when all are in use. -/
theorem findAvailableId_eq_none_iff {m : ConnMap} :
    m.findAvailableId = none ↔ ∀ id : UInt16, ∃ c ∈ m, c.id = id := by
  constructor
  · intro h id
    rw [findAvailableId, ← maxKey] at h
    split at h
    · cases h
    · next hmax =>
      obtain ⟨c, hc, hid⟩ := exists_maxKey (m := m) (by omega)
      have hlast : id.toNat ≤ c.id.toNat := by
        rw [hid]
        have := id.toNat_lt
        omega
      obtain ⟨d, hd, heq⟩ := firstGap_filled 0 (Nat.zero_le _) ⟨c, hc, hlast⟩ (by
        intro id' hid'
        rw [h] at hid'
        cases hid')
      exact ⟨d, hd, UInt16.toNat_inj.mp heq⟩
  · intro h
    rw [Option.eq_none_iff_forall_ne_some]
    intro id hid
    obtain ⟨c, hc, heq⟩ := h id
    exact findAvailableId_fresh hid hc heq

/-- The number of an available id is one above all in use, or, with the last id in use, the
least that is not. -/
theorem findAvailableId_toNat {m : ConnMap} {id : UInt16} (h : m.findAvailableId = some id) :
    id.toNat = m.maxKey.toNat + 1 ∨
      m.maxKey.toNat = 65535 ∧ ∀ i < id.toNat, ∃ c ∈ m, c.id.toNat = i := by
  have hlast := m.maxKey.toNat_lt
  rw [findAvailableId, ← maxKey] at h
  split at h
  · next hlt =>
    rw [Option.some.injEq] at h
    subst h
    left
    rw [UInt16.toNat_add]
    exact Nat.mod_eq_of_lt hlt
  · next hmax =>
    refine .inr ⟨by omega, ?_⟩
    intro i hi
    obtain ⟨c, hc, hid⟩ := exists_maxKey (m := m) (by omega)
    have htop : i ≤ c.id.toNat := by
      rw [hid]
      have := id.toNat_lt
      omega
    refine firstGap_filled 0 (Nat.zero_le _) ⟨c, hc, htop⟩ ?_
    intro id' hgap
    rw [h, Option.some.injEq] at hgap
    rwa [← hgap]

/-! ### Histories -/

/-- A call that changes the map. -/
inductive Change where
  | insert (c : Conn)
  | remove (id : UInt16)

/-- One call. -/
def change (m : ConnMap) : Change → ConnMap
  | .insert c => m.insert c
  | .remove id => (m.remove id).2

/-- What stands under each id, as a map of its own: the connection last inserted under it, as
long as it was not removed since. -/
def hold (held : UInt16 → Option Conn) : Change → UInt16 → Option Conn
  | .insert c => Function.update held c.id (some c)
  | .remove id => Function.update held id none

theorem get_change (m : ConnMap) (ch : Change) : (m.change ch).get = hold m.get ch := by
  cases ch with
  | insert c => exact get_insert m c
  | remove id => exact get_remove m id

/-- Over any history, the queue stands for the map. -/
theorem get_runFrom (m : ConnMap) (changes : List Change) :
    (runFrom change m changes).get = runFrom hold m.get changes := by
  induction changes generalizing m with
  | nil => rfl
  | cons ch changes ih => rw [runFrom_cons, runFrom_cons, ih, get_change]

theorem get_empty : empty.get = fun _ ↦ none := by
  funext id
  exact get_eq_none_iff.mpr fun c hc ↦ absurd hc (not_mem_empty c)

/-- After any history of insertions and removals, the ids are strictly increasing, a lookup
gives what was last inserted and not removed since, no id is available exactly when all are in
use, and an available one is not, and was counted up without going round. -/
theorem connMap_correct (changes : List Change) :
    let m := runFrom change empty changes
    Sorted m.conns ∧ m.get = runFrom hold (fun _ ↦ none) changes ∧
      (m.findAvailableId = none ↔ ∀ id : UInt16, ∃ c ∈ m, c.id = id) ∧
      ∀ id, m.findAvailableId = some id → (∀ c ∈ m, c.id ≠ id) ∧
        (id.toNat = m.maxKey.toNat + 1 ∨
          m.maxKey.toNat = 65535 ∧ ∀ i < id.toNat, ∃ c ∈ m, c.id.toNat = i) := by
  intro m
  refine ⟨m.sorted, ?_, findAvailableId_eq_none_iff, ?_⟩
  · rw [← get_empty]
    exact get_runFrom empty changes
  · intro id hid
    exact ⟨fun c hc ↦ findAvailableId_fresh hid hc, findAvailableId_toNat hid⟩

end ConnMap
end Cpxy.UdpMan
