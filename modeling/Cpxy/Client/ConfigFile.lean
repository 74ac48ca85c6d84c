import Cpxy.Base.Text
import Cpxy.Client.Controller

/-!
# The configuration file

Library `Client`. Source `src/controller.rs:94–142` and `331–354`. An operation saves the new
configuration before the controller takes it up and tells the client about it. Creating the
file empties it, so a save that fails behind that leaves a part of the new text. `serde_yaml`
is a package outside the repository, so what it writes is a parameter.
-/

namespace Cpxy.Client

open Cpxy.Base

variable {P S : Type}

/-- `serde_yaml::to_string`. -/
abbrev ToYaml (P S : Type) := ClientConfig P S → Except ErrorChain String

/-- How the file system answers the steps of one save. With a write or a flush that fails, this
many bytes of the text are in the file. -/
structure FileSystem where
  create : Except ErrorChain Unit
  writeAll : Except (ErrorChain × Nat) Unit
  flush : Except (ErrorChain × Nat) Unit

/-- Write the file; `controller.rs:122–136`. The result comes with what the file holds then,
which is `none` while there is no file. -/
def saveConfig (toYaml : ToYaml P S) (configFile : String) (fs : FileSystem)
    (file : Option Bytes) (c : ClientConfig P S) : Except ErrorChain Unit × Option Bytes :=
  match toYaml c with
  | .error e => (.error (s!"Writing YAML file: {configFile}" :: e), file)
  | .ok configText =>
    match fs.create with
    | .error e => (.error (s!"Creating configuration file: {configFile}" :: e), file)
    | .ok () =>
      match fs.writeAll with
      | .error (e, n) =>
        (.error (s!"Writing configuration file: {configFile}" :: e),
          some ((asBytes configText).take n))
      | .ok () =>
        match fs.flush with
        | .error (e, n) =>
          (.error (s!"Flushing file: {configFile}" :: e), some ((asBytes configText).take n))
        | .ok () => (.ok (), some (asBytes configText))

/-- `Controller`, with the value broadcast last and what the file holds; `controller.rs:94–98`.
The channel holds one value, which the next one pushes out, and its receiver lives as long as
the controller. -/
structure ConfigStore (P S : Type) where
  controller : Controller P S
  broadcast : ClientConfig P S × ClientStatistics
  file : Option Bytes

namespace ConfigStore

/-- The controller that `run_controller` starts with, on a configuration that was loaded;
`controller.rs:347–354`. -/
def start (config : ClientConfig P S) (file : Option Bytes) : ConfigStore P S where
  controller := .start config
  broadcast := (config, .new config)
  file := file

variable (toYaml : ToYaml P S) (configFile : String)

/-- `set_current_config`; `controller.rs:118–142`. -/
def setCurrentConfig (t : ConfigStore P S) (fs : FileSystem) (c : ClientConfig P S)
    (s : ClientStatistics) : Except ErrorChain Unit × ConfigStore P S :=
  let (saved, file) := saveConfig toYaml configFile fs t.file c
  match t.controller.setCurrentConfig saved c s with
  | (.ok (), controller) => (.ok (), ⟨controller, (c, s), file⟩)
  | (.error e, controller) => (.error e, ⟨controller, t.broadcast, file⟩)

/-- Memory and broadcast follow a save that succeeded, and nothing but the file one that did not. -/
theorem setCurrentConfig_eq (t : ConfigStore P S) (fs : FileSystem) (c : ClientConfig P S)
    (s : ClientStatistics) :
    t.setCurrentConfig toYaml configFile fs c s =
      match saveConfig toYaml configFile fs t.file c with
      | (.ok (), file) => (.ok (), ⟨⟨c, s⟩, (c, s), file⟩)
      | (.error e, file) => (.error e, { t with file := file }) := by
  rw [setCurrentConfig]
  rcases saveConfig toYaml configFile fs t.file c with ⟨_ | _, file⟩ <;> rfl

variable [DecidableEq P]

/-- The configuration and the statistics that an operation goes to set. -/
def next (t : ConfigStore P S) (op : Operation P S) : Controller P S :=
  t.controller.step (op, .ok ())

/-- One operation; `controller.rs:144–200`. -/
def operate (t : ConfigStore P S) (call : Operation P S × FileSystem) :
    Except ErrorChain Unit × ConfigStore P S :=
  t.setCurrentConfig toYaml configFile call.2 (t.next call.1).config (t.next call.1).stats

/-- The controller takes the step that it takes by itself, on the result of the save. -/
theorem controller_operate (t : ConfigStore P S) (call : Operation P S × FileSystem) :
    (t.operate toYaml configFile call).2.controller =
      t.controller.step (call.1, (t.operate toYaml configFile call).1) := by
  rw [operate, setCurrentConfig_eq]
  rcases saveConfig toYaml configFile call.2 t.file (t.next call.1).config with ⟨e | _, file⟩
  · obtain ⟨op, fs⟩ := call
    cases op <;> rfl
  · rfl

/-- Whatever is saved and whatever fails, the value broadcast last is the configuration in
memory. -/
theorem broadcast_run (config : ClientConfig P S) (file : Option Bytes)
    (calls : List (Operation P S × FileSystem)) :
    let t := runFrom (fun t call ↦ (operate toYaml configFile t call).2) (start config file) calls
    t.broadcast = (t.controller.config, t.controller.stats) := by
  apply runFrom_invariant (I := fun t : ConfigStore P S ↦
    t.broadcast = (t.controller.config, t.controller.stats))
  · intro t call h
    rw [operate, setCurrentConfig_eq]
    rcases saveConfig toYaml configFile call.2 t.file (t.next call.1).config with ⟨_ | _, file⟩
    · exact h
    · rfl
  · rfl

end ConfigStore

/-- What a save leaves in the file: what there was, until it is created, and from then on a part
of the new text, which is all of it when the save succeeds. -/
theorem saveConfig_file (toYaml : ToYaml P S) (configFile : String) (fs : FileSystem)
    (file : Option Bytes) (c : ClientConfig P S) :
    let r := saveConfig toYaml configFile fs file c
    ((∃ e, toYaml c = .error e) ∨ (∃ e, fs.create = .error e) → r.2 = file) ∧
      (∀ text, toYaml c = .ok text → fs.create = .ok () →
        ∃ n, r.2 = some ((asBytes text).take n)) ∧
      (r.1 = .ok () → ∃ text, toYaml c = .ok text ∧ r.2 = some (asBytes text)) := by
  rw [saveConfig]
  cases toYaml c with
  | error e => exact ⟨fun _ ↦ rfl, nofun, nofun⟩
  | ok text =>
    cases fs.create with
    | error e => exact ⟨fun _ ↦ rfl, nofun, nofun⟩
    | ok u =>
      have hbefore {r : Option Bytes} : (∃ e, (.ok text : Except ErrorChain String) = .error e) ∨
          (∃ e, (.ok u : Except ErrorChain Unit) = .error e) → r = file := by
        rintro (⟨_, h⟩ | ⟨_, h⟩) <;> cases h
      cases fs.writeAll with
      | error e =>
        refine ⟨hbefore, ?_, nofun⟩
        rintro _ ⟨⟩ _
        exact ⟨e.2, rfl⟩
      | ok u' =>
        cases fs.flush with
        | error e =>
          refine ⟨hbefore, ?_, nofun⟩
          rintro _ ⟨⟩ _
          exact ⟨e.2, rfl⟩
        | ok u'' =>
          refine ⟨hbefore, ?_, fun _ ↦ ⟨text, rfl, rfl⟩⟩
          rintro _ ⟨⟩ _
          exact ⟨(asBytes text).length, by rw [List.take_length]⟩

/-- An operation that fails leaves memory and broadcast as they are; one that succeeds has the
new configuration in the file, in memory and broadcast. A file that could not be created is as
it was, and one that was created holds a part of the new text. -/
theorem operate_saves [DecidableEq P] (toYaml : ToYaml P S) (configFile : String)
    (t : ConfigStore P S) (op : Operation P S) (fs : FileSystem) :
    let new := t.next op
    let r := t.operate toYaml configFile (op, fs)
    (∀ e, r.1 = .error e → r.2.controller = t.controller ∧ r.2.broadcast = t.broadcast) ∧
      (r.1 = .ok () → r.2.controller = new ∧ r.2.broadcast = (new.config, new.stats) ∧
        ∃ text, toYaml new.config = .ok text ∧ r.2.file = some (asBytes text)) ∧
      ((∃ e, toYaml new.config = .error e) ∨ (∃ e, fs.create = .error e) → r.2.file = t.file) ∧
      ∀ text, toYaml new.config = .ok text → fs.create = .ok () →
        ∃ n, r.2.file = some ((asBytes text).take n) := by
  have hfile := saveConfig_file toYaml configFile fs t.file (t.next op).config
  rw [ConfigStore.operate, ConfigStore.setCurrentConfig_eq]
  dsimp only at hfile ⊢
  generalize saveConfig toYaml configFile fs t.file (t.next op).config = saved at hfile ⊢
  obtain ⟨hbefore, hpart, hall⟩ := hfile
  obtain ⟨e | u, file⟩ := saved
  · exact ⟨fun _ _ ↦ ⟨rfl, rfl⟩, nofun, hbefore, hpart⟩
  · exact ⟨nofun, fun _ ↦ ⟨rfl, rfl, hall rfl⟩, hbefore, hpart⟩

/-- The text of the configuration that there is without a file. -/
private def defaultYaml : String :=
  "upstreams: \x7b\x7d\nsocks5_address: 127.0.0.1:5000\nsocks5_udp_host: 0.0.0.0\nfwmark: null\n" ++
  "udp_tproxy_address: null\ntraffic_rules: ''\nset_router_rules: false\n"

/-- A write that fails at once leaves an empty file, which is the text of neither configuration. -/
theorem operate_tears_file :
    ¬ ∀ (toYaml : ToYaml Unit Unit) (t : ConfigStore Unit Unit) (op : Operation Unit Unit)
      (fs : FileSystem) (text : String),
      toYaml t.controller.config = .ok text → t.file = some (asBytes text) →
      ∃ c ∈ [t.controller.config, (t.next op).config], ∃ text', toYaml c = .ok text' ∧
        (t.operate toYaml "config.yaml" (op, fs)).2.file = some (asBytes text') := by
  intro h
  obtain ⟨_, _, text, htext, hfile⟩ := h (fun _ ↦ .ok defaultYaml)
    (.start ⟨∅, ()⟩ (some (asBytes defaultYaml))) (.deleteUpstreams [])
    ⟨.ok (), .error (["No space left on device"], 0), .ok ()⟩ defaultYaml rfl rfl
  cases htext
  rw [ConfigStore.operate, ConfigStore.setCurrentConfig_eq] at hfile
  have hempty : fromUtf8 (asBytes defaultYaml) = some "" := by
    rw [← Option.some.inj hfile]
    rfl
  rw [fromUtf8_asBytes, Option.some.injEq] at hempty
  revert hempty
  decide

end Cpxy.Client
