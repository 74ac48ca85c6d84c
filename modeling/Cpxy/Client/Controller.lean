import Cpxy.Base.Outcome
import Cpxy.Base.Run
import Mathlib.Data.List.AList

/-!
# The controller

Library `Client`. Source `src/controller.rs:94–201` and `330–354`, `src/client/stats.rs:12–36`
and `src/config.rs:43–84`. The controller owns the configuration and the statistics of its
upstreams, and each of its operations makes new ones of both. Of the operations, the one that
sets a whole configuration leaves the statistics as they are.
-/

namespace Cpxy.Client

open Cpxy.Base

/-- `UpstreamConfig`; `config.rs:43–50`. -/
structure UpstreamConfig (P : Type) where
  protocol : P
  groups : Option (List String)
  enabled : Bool

/-- `UpstreamStatistics`; `stats.rs:12–18`, with the values of its counters. -/
structure UpstreamStatistics where
  tx : Nat
  rx : Nat
  lastActivity : Nat
  lastLatency : Nat

/-- `Default for UpstreamStatistics`. -/
def UpstreamStatistics.default : UpstreamStatistics := ⟨0, 0, 0, 0⟩

/-- `HashMap<String, _>`. -/
abbrev ByName (α : Type) := AList fun _ : String ↦ α

/-- `ClientConfig`; `config.rs:60–84`: the upstreams, and the other settings. -/
structure ClientConfig (P S : Type) where
  upstreams : ByName (UpstreamConfig P)
  settings : S

/-- `ClientStatistics`; `stats.rs:20–23`. -/
structure ClientStatistics where
  upstreams : ByName UpstreamStatistics

variable {P S : Type}

/-- `ClientStatistics::new`; `stats.rs:26–34`. -/
def ClientStatistics.new (c : ClientConfig P S) : ClientStatistics where
  upstreams := c.upstreams.keys.foldl (fun m n ↦ m.insert n UpstreamStatistics.default) ∅

/-- `Controller`, without the broadcast and the name of the file; `controller.rs:94–98`. -/
structure Controller (P S : Type) where
  config : ClientConfig P S
  stats : ClientStatistics

/-- `UpstreamUpdate`; `controller.rs:100–105`. -/
structure UpstreamUpdate (P : Type) where
  oldName : Option String
  name : String
  config : UpstreamConfig P

/-- The operations that change the configuration. -/
inductive Operation (P S : Type) where
  | setConfig (c : ClientConfig P S) (replaceUpstreams : Bool)
  | updateUpstreams (updates : List (UpstreamUpdate P))
  | deleteUpstreams (names : List String)

namespace Controller

/-- The controller that `run_controller` starts with; `controller.rs:347–354`. -/
def start (config : ClientConfig P S) : Controller P S := ⟨config, .new config⟩

/-- `set_current_config`; `controller.rs:118–142`. Nothing changes unless the file was written. -/
def setCurrentConfig (t : Controller P S) (saved : Except ErrorChain Unit) (c : ClientConfig P S)
    (s : ClientStatistics) : Except ErrorChain Unit × Controller P S :=
  match saved with
  | .ok () => (.ok (), ⟨c, s⟩)
  | .error e => (.error e, t)

/-- `set_config`; `controller.rs:144–155`. -/
def setConfig (t : Controller P S) (saved : Except ErrorChain Unit) (c : ClientConfig P S)
    (replaceUpstreams : Bool) : Except ErrorChain Unit × Controller P S :=
  let upstreams := t.config.upstreams
  let newStats := t.stats
  let c := if !replaceUpstreams then { c with upstreams := upstreams } else c
  t.setCurrentConfig saved c newStats

/-- The two maps that an operation edits. -/
abbrev Upstreams (P : Type) := ByName (UpstreamConfig P) × ByName UpstreamStatistics

/-- One round of `update_upstreams`; `controller.rs:162–185`. -/
def updateUpstream [DecidableEq P] (m : Upstreams P) (u : UpstreamUpdate P) : Upstreams P :=
  let (config, stats, reused) :=
    match u.oldName with
    | some oldName =>
      match m.1.lookup oldName with
      | some upstream =>
        if upstream.protocol = u.config.protocol then
          (m.1.erase oldName, m.2.erase oldName, m.2.lookup oldName)
        else (m.1.erase oldName, m.2.erase oldName, none)
      | none => (m.1.erase oldName, m.2, none)
    | none => (m.1, m.2, none)
  (config.insert u.name u.config, stats.insert u.name (reused.getD UpstreamStatistics.default))

/-- `update_upstreams`; `controller.rs:157–188`. -/
def updateUpstreams [DecidableEq P] (t : Controller P S) (saved : Except ErrorChain Unit)
    (updates : List (UpstreamUpdate P)) : Except ErrorChain Unit × Controller P S :=
  let (config, stats) := updates.foldl updateUpstream (t.config.upstreams, t.stats.upstreams)
  t.setCurrentConfig saved { t.config with upstreams := config } ⟨stats⟩

/-- One round of `delete_upstreams`; `controller.rs:195–198`. -/
def deleteUpstream (m : Upstreams P) (n : String) : Upstreams P :=
  (m.1.erase n, m.2.erase n)

/-- `delete_upstreams`; `controller.rs:190–200`. -/
def deleteUpstreams (t : Controller P S) (saved : Except ErrorChain Unit) (names : List String) :
    Except ErrorChain Unit × Controller P S :=
  let (config, stats) := names.foldl deleteUpstream (t.config.upstreams, t.stats.upstreams)
  t.setCurrentConfig saved { t.config with upstreams := config } ⟨stats⟩

/-- One operation, and whether its file could be written. -/
def step [DecidableEq P] (t : Controller P S) (op : Operation P S × Except ErrorChain Unit) :
    Controller P S :=
  match op with
  | (.setConfig c replaceUpstreams, saved) => (t.setConfig saved c replaceUpstreams).2
  | (.updateUpstreams updates, saved) => (t.updateUpstreams saved updates).2
  | (.deleteUpstreams names, saved) => (t.deleteUpstreams saved names).2

end Controller

/-! ### The same names -/

/-- Two maps have the same names. -/
def SameNames {α β : Type} (m : ByName α) (m' : ByName β) : Prop := ∀ n, n ∈ m ↔ n ∈ m'

namespace SameNames

variable {α β : Type} {m : ByName α} {m' : ByName β}

theorem insert (h : SameNames m m') (name : String) (a : α) (b : β) :
    SameNames (m.insert name a) (m'.insert name b) := by
  intro n
  rw [AList.mem_insert, AList.mem_insert, h n]

theorem erase (h : SameNames m m') (name : String) :
    SameNames (m.erase name) (m'.erase name) := by
  intro n
  rw [AList.mem_erase, AList.mem_erase, h n]

/-- Erasing a name that is not there changes no names. -/
theorem erase_left (h : SameNames m m') {name : String} (hn : name ∉ m) :
    SameNames (m.erase name) m' := by
  intro n
  rw [AList.mem_erase, ← h n]
  exact and_iff_right_of_imp fun hm heq ↦ hn (heq ▸ hm)

end SameNames

theorem mem_foldl_insert {α : Type} (a : α) (names : List String) (m : ByName α) (n : String) :
    n ∈ names.foldl (fun m n ↦ m.insert n a) m ↔ n ∈ names ∨ n ∈ m := by
  induction names generalizing m with
  | nil => simp
  | cons name names ih =>
    rw [List.foldl_cons, ih, AList.mem_insert, List.mem_cons]
    tauto

/-- The statistics are those of the upstreams in the configuration. -/
def Controller.Aligned (t : Controller P S) : Prop :=
  SameNames t.config.upstreams t.stats.upstreams

/-- A configuration that replaces the upstreams names those there are. -/
def KeepsNames (t : Controller P S) : Operation P S × Except ErrorChain Unit → Prop
  | (.setConfig c true, .ok ()) => SameNames c.upstreams t.config.upstreams
  | _ => True

namespace Controller

theorem aligned_start (config : ClientConfig P S) : (start config).Aligned := by
  intro n
  rw [start, ClientStatistics.new, mem_foldl_insert, ← AList.mem_keys]
  simp

theorem sameNames_updateUpstream [DecidableEq P] {m : Upstreams P} (h : SameNames m.1 m.2)
    (u : UpstreamUpdate P) : SameNames (updateUpstream m u).1 (updateUpstream m u).2 := by
  unfold updateUpstream
  cases hold : u.oldName with
  | none => exact h.insert u.name _ _
  | some oldName =>
    dsimp only
    cases hup : m.1.lookup oldName with
    | none =>
      have hnot : oldName ∉ m.1 := by
        rw [← AList.lookup_isSome, hup]
        simp
      exact (h.erase_left hnot).insert u.name _ _
    | some upstream =>
      dsimp only
      split
      · exact (h.erase oldName).insert u.name _ _
      · exact (h.erase oldName).insert u.name _ _

theorem sameNames_updates [DecidableEq P] (updates : List (UpstreamUpdate P))
    {m : Upstreams P} (h : SameNames m.1 m.2) :
    SameNames (updates.foldl updateUpstream m).1 (updates.foldl updateUpstream m).2 :=
  runFrom_invariant (I := fun m : Upstreams P ↦ SameNames m.1 m.2)
    (fun _ u hm ↦ sameNames_updateUpstream hm u) h updates

theorem sameNames_deletes (names : List String)
    {m : Upstreams P} (h : SameNames m.1 m.2) :
    SameNames (names.foldl deleteUpstream m).1 (names.foldl deleteUpstream m).2 :=
  runFrom_invariant (I := fun m : Upstreams P ↦ SameNames m.1 m.2) (fun _ n hm ↦ hm.erase n) h names

theorem Aligned.setCurrentConfig {t : Controller P S} (h : t.Aligned)
    (saved : Except ErrorChain Unit) {c : ClientConfig P S} {s : ClientStatistics}
    (hs : SameNames c.upstreams s.upstreams) : (t.setCurrentConfig saved c s).2.Aligned := by
  cases saved with
  | error e => exact h
  | ok u => exact hs

/-- An operation keeps the statistics aligned exactly when it keeps the names, if it is to
replace the upstreams. -/
theorem Aligned.step_iff [DecidableEq P] {t : Controller P S} (h : t.Aligned)
    (op : Operation P S × Except ErrorChain Unit) : (t.step op).Aligned ↔ KeepsNames t op := by
  match op with
  | (.updateUpstreams updates, saved) =>
    exact iff_of_true (h.setCurrentConfig saved (sameNames_updates updates h)) trivial
  | (.deleteUpstreams names, saved) =>
    exact iff_of_true (h.setCurrentConfig saved (sameNames_deletes names h)) trivial
  | (.setConfig c false, saved) => exact iff_of_true (h.setCurrentConfig saved h) trivial
  | (.setConfig c true, .error e) => exact iff_of_true h trivial
  | (.setConfig c true, .ok ()) =>
    constructor
    · intro hc n
      exact (hc n).trans (h n).symm
    · intro hc n
      exact (hc n).trans (h n)

end Controller

/-- Along every run of operations, the statistics stay aligned with the configuration exactly
when every configuration that replaces the upstreams names those there are. -/
theorem statistics_aligned_iff [DecidableEq P] (config : ClientConfig P S)
    (ops : List (Operation P S × Except ErrorChain Unit)) :
    (Controller.start config).Aligned ∧
      (Along Controller.step (fun t op ↦ (t.step op).Aligned) (.start config) ops ↔
        Along Controller.step KeepsNames (.start config) ops) := by
  have hstart := Controller.aligned_start config
  refine ⟨hstart, ?_⟩
  refine Along.congr (I := Controller.Aligned) ?_ ?_ hstart
  · intro t op hal hkeep
    exact (hal.step_iff op).mpr hkeep
  · intro t op hal
    exact hal.step_iff op

/-- A new configuration with an upstream, set with `replace=all` on an empty one. -/
theorem statistics_lack_upstream :
    ¬ ∀ (config : ClientConfig Unit Unit)
      (ops : List (Operation Unit Unit × Except ErrorChain Unit)),
      (runFrom Controller.step (.start config) ops).Aligned := by
  intro h
  have hrun := h ⟨∅, ()⟩
    [(.setConfig ⟨(∅ : ByName (UpstreamConfig Unit)).insert "a" ⟨(), none, true⟩, ()⟩ true, .ok ())]
  have hin := (hrun "a").mp (AList.mem_insert _ |>.mpr (.inl rfl))
  cases hin

end Cpxy.Client
