import Cpxy.Base.Intervals
import Cpxy.Rules.Destination

/-!
# Countries of addresses

Library `Rules`. Source `src/geoip/mod.rs:11–45`. A table of address ranges is searched for the
address as the start of a range; a range that starts before it is then the one in front of the
insertion index.
-/

namespace Cpxy.Rules

open Cpxy.Base Cpxy.Net

/-- `Record`; `mod.rs:11–16`. -/
structure Record (n : Nat) where
  start : Vector UInt8 n
  stop : Vector UInt8 n
  c : CountryCode

/-- `u32::from_be_bytes`. -/
def fromBeBytes (octets : Vector UInt8 4) : Nat := ofBE octets.toList

/-- `find_geoip` over a table; `mod.rs:23–45`. -/
def findGeoip (records : List (Record 4)) : IpAddr → Outcome ErrorChain (Option CountryCode)
  | .v4 addr =>
    let needle := ofBE addr.octets
    match binarySearchByKey (fun r ↦ fromBeBytes r.start) records needle with
    | .ok index => do
      let r ← .unwrap records[index]?
      .ok (some r.c)
    | .error index =>
      if 0 < index then do
        let r ← .unwrap records[index - 1]?
        if fromBeBytes r.start ≤ needle ∧ needle ≤ fromBeBytes r.stop then .ok (some r.c)
        else .ok none
      else .ok none
  | .v6 _ => .ok none

/-- The range of the record has the address in it. -/
def Record.Contains (r : Record 4) (addr : Ipv4Addr) : Prop :=
  fromBeBytes r.start ≤ addr.bits.toNat ∧ addr.bits.toNat ≤ fromBeBytes r.stop

instance (r : Record 4) (addr : Ipv4Addr) : Decidable (r.Contains addr) :=
  inferInstanceAs (Decidable (_ ∧ _))

/-- Records in order, with no address in two of them. -/
structure GeoTable where
  records : List (Record 4)
  nonempty : ∀ r ∈ records, fromBeBytes r.start ≤ fromBeBytes r.stop
  sorted : records.Pairwise fun r r' ↦ fromBeBytes r.start ≤ fromBeBytes r'.start
  disjoint : records.Pairwise fun r r' ↦ ∀ addr, ¬ (r.Contains addr ∧ r'.Contains addr)

/-- Ranges of which each ends before the next one starts make a table. -/
def GeoTable.ofApart (records : List (Record 4))
    (nonempty : ∀ r ∈ records, fromBeBytes r.start ≤ fromBeBytes r.stop)
    (apart : records.Pairwise fun r r' ↦ fromBeBytes r.stop < fromBeBytes r'.start) :
    GeoTable where
  records := records
  nonempty := nonempty
  sorted := (Intervals.of_apart nonempty apart).sorted
  disjoint := (Intervals.of_apart nonempty apart).disjoint.imp fun h (addr : Ipv4Addr) ↦
    h addr.bits.toNat

/-- The country of the first record that has the address. -/
def GeoTable.scan (table : GeoTable) (addr : Ipv4Addr) : Option CountryCode :=
  (table.records.find? fun r ↦ r.Contains addr).map Record.c

theorem fromBeBytes_lt (octets : Vector UInt8 4) : fromBeBytes octets < 2 ^ 32 := by
  have hlt := ofBE_lt octets.toList
  rwa [Vector.length_toList] at hlt

theorem ofBE_octets (addr : Ipv4Addr) : ofBE addr.octets = addr.bits.toNat :=
  ofBE_toBE addr.bits.toNat_lt

/-- The ranges of a table are intervals of address numbers. -/
theorem GeoTable.intervals (table : GeoTable) :
    Intervals (fun r : Record 4 ↦ fromBeBytes r.start) (fun r ↦ fromBeBytes r.stop)
      table.records where
  nonempty := table.nonempty
  sorted := table.sorted
  disjoint := by
    apply table.disjoint.imp
    rintro r r' hdisjoint k ⟨hk, hk'⟩
    -- what a range covers is the number of an address
    have hlt : k < 2 ^ 32 := lt_of_le_of_lt hk.2 (fromBeBytes_lt r.stop)
    have hbits : (Ipv4Addr.ofNat k).bits.toNat = k := by
      show (UInt32.ofNat k).toNat = k
      rw [UInt32.toNat_ofNat', Nat.mod_eq_of_lt hlt]
    apply hdisjoint (Ipv4Addr.ofNat k)
    rw [Record.Contains, Record.Contains, hbits]
    exact ⟨hk, hk'⟩

/-- The scan finds the record that has the address. -/
theorem GeoTable.scan_eq_some_iff (table : GeoTable) (addr : Ipv4Addr) (c : CountryCode) :
    table.scan addr = some c ↔ ∃ r ∈ table.records, r.Contains addr ∧ r.c = c := by
  rw [scan, Option.map_eq_some_iff]
  apply exists_congr
  intro r
  have hfind := table.intervals.find?_eq_some_iff (y := r) (k := addr.bits.toNat)
  rw [← and_assoc]
  exact and_congr_left fun _ ↦ hfind

/-- Where one record alone can have the address, a scan gives its country or none. -/
theorem GeoTable.scan_of_candidate (table : GeoTable) {addr : Ipv4Addr} {r : Record 4} {p : Prop}
    [Decidable p] (h : ∀ y, y ∈ table.records ∧ y.Contains addr ↔ y = r ∧ p) :
    table.scan addr = if p then some r.c else none := by
  ext c
  rw [table.scan_eq_some_iff]
  by_cases hp : p
  · rw [if_pos hp]
    constructor
    · rintro ⟨y, hy, hcontains, rfl⟩
      rw [((h y).mp ⟨hy, hcontains⟩).1]
    · intro hc
      obtain ⟨hr, hcontains⟩ := (h r).mpr ⟨rfl, hp⟩
      exact ⟨r, hr, hcontains, Option.some.inj hc⟩
  · rw [if_neg hp]
    constructor
    · rintro ⟨y, hy, hcontains, -⟩
      exact absurd ((h y).mp ⟨hy, hcontains⟩).2 hp
    · intro hc
      cases hc

/-- The search gives, for every address, what a scan of the table gives: the country of the one
record that has the address. -/
theorem findGeoip_eq_scan (table : GeoTable) (addr : Ipv4Addr) :
    findGeoip table.records (.v4 addr) = .ok (table.scan addr) ∧
      ∀ c, table.scan addr = some c ↔ ∃ r ∈ table.records, r.Contains addr ∧ r.c = c := by
  refine ⟨?_, table.scan_eq_some_iff addr⟩
  have hi := table.intervals
  rw [findGeoip, ofBE_octets]
  cases hs : binarySearchByKey (fun r : Record 4 ↦ fromBeBytes r.start) table.records
      addr.bits.toNat with
  | ok index =>
    obtain ⟨r, hr, hcovers⟩ := hi.search_ok hs
    have hcandidate (y : Record 4) : y ∈ table.records ∧ y.Contains addr ↔ y = r ∧ True :=
      (hcovers y).trans (and_true _).symm.to_iff
    have hscan := table.scan_of_candidate hcandidate
    dsimp only
    rw [hr, hscan, if_pos trivial]
    rfl
  | error index =>
    cases index with
    | zero =>
      have hnone := hi.search_error_zero hs
      have hscan : table.scan addr = none := by
        ext c
        rw [table.scan_eq_some_iff]
        constructor
        · rintro ⟨y, hy, hcontains, -⟩
          exact absurd hcontains (hnone y hy)
        · intro hc
          cases hc
      rw [hscan]
      rfl
    | succ index =>
      obtain ⟨r, hr, hstart, hcovers⟩ := hi.search_error_succ hs
      rw [table.scan_of_candidate hcovers]
      simp only [Nat.add_sub_cancel, Nat.succ_pos, if_true, hr, Outcome.unwrap_some,
        Outcome.ok_bind, hstart, true_and]
      split
      · rfl
      · rfl

/-- The first and the last address, each alone in its range, and one range between them. -/
private def threeRanges : GeoTable :=
  .ofApart [⟨#v[0, 0, 0, 0], #v[0, 0, 0, 0], ⟨65, 85, by decide⟩⟩,
      ⟨#v[1, 0, 0, 0], #v[1, 0, 255, 255], ⟨78, 90, by decide⟩⟩,
      ⟨#v[255, 255, 255, 255], #v[255, 255, 255, 255], ⟨85, 83, by decide⟩⟩]
    (by decide) (by decide)

example : [0, 1, 0x00ffffff, 0x01000000, 0x0100ffff, 0x01010000, 0xffffffff].map
      (fun bits ↦ findGeoip threeRanges.records (.v4 ⟨bits⟩)) =
    [some ⟨65, 85, by decide⟩, none, none, some ⟨78, 90, by decide⟩, some ⟨78, 90, by decide⟩,
      none, some ⟨85, 83, by decide⟩].map .ok := by
  decide

end Cpxy.Rules
