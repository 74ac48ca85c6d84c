import Cpxy.Client.Broadcast
import Cpxy.Client.ConfigFile
import Cpxy.Client.Diverting
import Cpxy.Net.SocketAddr

/-!
# Reloading the configuration

Library `Client`. Source `src/client/handler.rs:27–97` and `src/controller.rs:118–142` and
`331–369`. The controller saves configurations and broadcasts them, the client serves one after
the other: it cancels what it runs, takes the router rules out, and sets up the next
configuration as far as it gets. Both run at their own pace.
-/

namespace Cpxy.Client

open Cpxy.Base Cpxy.Net

/-! ### The client -/

/-- The settings that `run_client` reads. -/
structure Listen where
  socks5Address : SocketAddr
  udpTproxyAddress : Option SocketAddr
  setRouterRules : Bool

/-- A task that the client runs: the listener for connections, or the transparent UDP proxy. -/
inductive Task (α : Type) where
  | proxy (config : α)
  | udpTransparent (config : α)

/-- What a task was started with. -/
def Task.config {α : Type} : Task α → α
  | proxy config => config
  | udpTransparent config => config

/-- What the client finds when it sets up a configuration: whether it can listen, and whether the
transparent UDP proxy starts. -/
structure Surroundings where
  bindTcp : Except ErrorChain Unit
  serveUdp : Except ErrorChain Unit

/-- `run_client` between two configurations: the tasks, the rules of its host, and the
configurations it has taken; `handler.rs:27–33`. -/
structure RunClient (φ α : Type) where
  currentTasks : List (Task α)
  host : φ
  taken : List α
  stopped : Bool

variable {χ φ α P S : Type}

/-- Set up the router rules, or take out what could be set up; `handler.rs:58–68`. -/
def setRouterRules (host : Host φ) (listen : Listen) (s : φ) : φ :=
  if listen.setRouterRules then
    match host.addRules listen.socks5Address.port (listen.udpTproxyAddress.map SocketAddr.port) s
    with
    | (.error _, s) => host.cleanUp s
    | (.ok (), s) => s
  else s

namespace RunClient

/-- Before the first configuration. -/
def start (host : φ) : RunClient φ α := ⟨[], host, [], false⟩

/-- Serve the next configuration; `handler.rs:44–95`. -/
def serve (host : Host φ) (listen : Listen) (env : Surroundings) (config : α)
    (c : RunClient φ α) : RunClient φ α :=
  let cleaned := host.cleanUp c.host
  let taken := c.taken ++ [config]
  match env.bindTcp with
  | .error _ => { c with currentTasks := [], host := cleaned, taken := taken }
  | .ok () =>
    let udp :=
      match listen.udpTproxyAddress, env.serveUdp with
      | some _, .ok () => [Task.udpTransparent config]
      | _, _ => []
    { c with
      currentTasks := Task.proxy config :: udp
      host := setRouterRules host listen cleaned
      taken := taken }

/-- Go on when something was broadcast, and stop at the end of the broadcasts;
`handler.rs:36–42`. -/
def next (host : Host φ) (listen : α → Listen) (env : Surroundings) :
    Poll (Option α) → RunClient φ α → RunClient φ α
  | .pending, c => c
  | .ready none, c => { c with stopped := true }
  | .ready (some config), c => c.serve host (listen config) env config

/-- The rules of the host are its own, or those of the configuration that is served, whose
listener is running; before the first configuration, some may be left from an earlier run. -/
def RulesKept (host : Host φ) (listen : α → Listen) (r : Rules) (c : RunClient φ α) : Prop :=
  (c.taken = [] ∧ Remains r (host.view c.host)) ∨ host.view c.host = r ∨
    ∃ config ∈ c.taken.getLast?, (listen config).setRouterRules = true ∧
      Task.proxy config ∈ c.currentTasks ∧ host.view c.host =
        r.installed (listen config).socks5Address.port
          ((listen config).udpTproxyAddress.map SocketAddr.port)

variable {host : Host φ} {listen : α → Listen} {env : Surroundings} {config : α}
  {c : RunClient φ α} {r : Rules}

theorem taken_serve {l : Listen} : (c.serve host l env config).taken = c.taken ++ [config] := by
  rw [serve]
  cases env.bindTcp <;> rfl

theorem stopped_serve {l : Listen} : (c.serve host l env config).stopped = c.stopped := by
  rw [serve]
  cases env.bindTcp <;> rfl

/-- What ran before is cancelled. -/
theorem config_of_mem_serve {l : Listen} {task : Task α}
    (h : task ∈ (c.serve host l env config).currentTasks) : task.config = config := by
  rw [serve] at h
  cases hbind : env.bindTcp with
  | error e =>
    rw [hbind] at h
    cases h
  | ok u =>
    rw [hbind] at h
    rcases List.mem_cons.mp h with rfl | h
    · rfl
    · split at h
      · cases List.mem_singleton.mp h
        rfl
      · cases h

/-- Nothing but the rules of the proxy is added to those of the host. -/
theorem RulesKept.remains (h : c.RulesKept host listen r) : Remains r (host.view c.host) := by
  rcases h with ⟨_, h⟩ | h | ⟨config, _, _, _, h⟩
  · exact h
  · exact h ▸ Remains.refl r
  · exact h ▸ Remains.installed r _ _

/-- The next configuration finds the rules of the host, and adds all of its own or none. -/
theorem RulesKept.serve (hu : Untouched host.refers r) (hiptables : host.iptables = .ok ())
    (h : c.RulesKept host listen r) :
    (c.serve host (listen config) env config).RulesKept host listen r := by
  have hclean := host.cleanUp_restores hu h.remains hiptables
  have hlast : (c.serve host (listen config) env config).taken.getLast? = some config := by
    rw [taken_serve, List.getLast?_concat]
  cases hbind : env.bindTcp with
  | error e =>
    right; left
    rw [RunClient.serve, hbind]
    exact hclean
  | ok u =>
    have hhost : (c.serve host (listen config) env config).host =
        setRouterRules host (listen config) (host.cleanUp c.host) := by
      rw [RunClient.serve, hbind]
    have hproxy : Task.proxy config ∈ (c.serve host (listen config) env config).currentTasks := by
      rw [RunClient.serve, hbind]
      exact List.mem_cons_self
    rw [setRouterRules] at hhost
    split at hhost
    · next hset =>
      have hstart : Remains r (host.view (host.cleanUp c.host)) := by
        rw [hclean]
        exact Remains.refl r
      have hremains := hstart.addRules (listen config).socks5Address.port
        ((listen config).udpTproxyAddress.map SocketAddr.port)
      split at hhost
      · next s heq =>
        rw [heq] at hremains
        right; left
        rw [hhost]
        exact host.cleanUp_restores hu hremains hiptables
      · next s heq =>
        have hview := host.view_addRules hclean (congrArg Prod.fst heq)
        rw [heq] at hview
        right; right
        exact ⟨config, hlast, hset, hproxy, by rw [hhost, hview]⟩
    · right; left
      rw [hhost, hclean]

end RunClient

/-! ### Controller and client -/

/-- `current`: a configuration with its statistics; `controller.rs:97`. -/
abbrev Current (P S : Type) := ClientConfig P S × ClientStatistics

/-- `current` of the controller. -/
def Controller.current (t : Controller P S) : Current P S := (t.config, t.stats)

/-- The controller with the client that it starts, and the broadcasts between them;
`controller.rs:347–356`. Beside them stand the values of `current` that there were. -/
structure System (χ φ P S : Type) where
  store : ConfigStore P S
  receiver : Receiver χ (Current P S)
  client : RunClient φ (Current P S)
  saved : List (Current P S)

/-- What happens next: a call of the controller's interface, or the client looks at the
broadcasts. -/
inductive Event (P S : Type) where
  | operate (op : Operation P S) (fs : FileSystem)
  | poll (env : Surroundings)

namespace System

variable (ch : Overflowing χ (Current P S) 1) (host : Host φ) (listen : S → Listen)
variable (toYaml : ToYaml P S) (configFile : String)

/-- What the client starts from; `controller.rs:347–356`. -/
def start (config : ClientConfig P S) (file : Option Bytes) (s : φ) : System χ φ P S where
  store := .start config file
  receiver := .bounded ch (some (config, .new config))
  client := .start s
  saved := [(config, .new config)]

/-- A call of the controller's interface; `controller.rs:118–142`. -/
def operate [DecidableEq P] (t : System χ φ P S) (op : Operation P S) (fs : FileSystem) :
    System χ φ P S :=
  let res := t.store.operate toYaml configFile (op, fs)
  match res.1 with
  | .ok () =>
    { t with
      store := res.2
      receiver := t.receiver.send ch res.2.broadcast
      saved := t.saved ++ [res.2.broadcast] }
  | .error _ => { t with store := res.2 }

/-- The client looks at the broadcasts, until it has stopped; `handler.rs:34–42`. -/
def poll (t : System χ φ P S) (env : Surroundings) : System χ φ P S :=
  if t.client.stopped then t
  else
    let res := t.receiver.pollNext ch
    { t with
      receiver := res.2
      client := t.client.next host (fun c ↦ listen c.1.settings) env res.1 }

/-- One event. -/
def step [DecidableEq P] (t : System χ φ P S) : Event P S → System χ φ P S
  | .operate op fs => t.operate ch toYaml configFile op fs
  | .poll env => t.poll ch host listen env

/-- What holds between any two events. -/
structure Synced (r : Rules) (t : System χ φ P S) : Prop where
  runs : t.client.stopped = false
  opened : ch.closed t.receiver.rx = false
  broadcast : t.store.broadcast = t.store.controller.current
  newest : t.saved.getLast? = some t.store.controller.current
  waiting : (t.receiver.left ch = [] ∧ t.client.taken.getLast? = some t.store.controller.current) ∨
    t.receiver.left ch = [t.store.controller.current]
  order : (t.client.taken ++ t.receiver.left ch).Sublist t.saved
  tasks : ∀ task ∈ t.client.currentTasks, t.client.taken.getLast? = some task.config
  rules : t.client.RulesKept host (fun c ↦ listen c.1.settings) r

variable {ch host listen toYaml configFile} {r : Rules} {t : System χ φ P S}

theorem synced_start (config : ClientConfig P S) (file : Option Bytes) {s : φ}
    (h : Remains r (host.view s)) : (start ch config file s).Synced ch host listen r where
  runs := rfl
  opened := ch.closed_empty
  broadcast := rfl
  newest := rfl
  waiting := .inr (Receiver.left_of_nil ch.held_empty)
  order := by
    have hleft : (Receiver.bounded ch (some (config, ClientStatistics.new config))).left ch =
        [(config, .new config)] := Receiver.left_of_nil ch.held_empty
    rw [start, hleft]
    exact List.Sublist.refl _
  tasks := nofun
  rules := .inl ⟨rfl, h⟩

/-- A call that saves a configuration leaves nothing else to take. -/
theorem Synced.operate [DecidableEq P] (h : t.Synced ch host listen r) (op : Operation P S)
    (fs : FileSystem) :
    (t.operate ch toYaml configFile op fs).Synced ch host listen r := by
  rw [System.operate, ConfigStore.operate, ConfigStore.setCurrentConfig_eq]
  rcases saveConfig toYaml configFile fs t.store.file (t.store.next op).config with ⟨e | u, file⟩
  · exact ⟨h.runs, h.opened, h.broadcast, h.newest, h.waiting, h.order, h.tasks, h.rules⟩
  · have hleft (a : Current P S) : (t.receiver.send ch a).left ch = [a] :=
      t.receiver.left_send_one a
    refine ⟨h.runs, (ch.closed_send _ _).trans h.opened, rfl, List.getLast?_concat, .inr (hleft _),
      ?_, h.tasks, h.rules⟩
    rw [hleft]
    exact ((List.sublist_append_left t.client.taken _).trans h.order).append_right _

/-- The client takes what is left, and has the newest configuration then. -/
theorem Synced.poll (hu : Untouched host.refers r) (hiptables : host.iptables = .ok ())
    (h : t.Synced ch host listen r) (env : Surroundings) :
    (t.poll ch host listen env).Synced ch host listen r ∧
      (t.poll ch host listen env).receiver.left ch = [] := by
  have hnotstopped : ¬ t.client.stopped = true := by
    rw [h.runs]
    exact Bool.false_ne_true
  rw [System.poll, if_neg hnotstopped]
  have hopened : ch.closed (t.receiver.pollNext ch).2.rx = false :=
    t.receiver.closed_pollNext.trans h.opened
  rcases Receiver.pollNext_spec h.opened with
    ⟨hnil, hpending, hleft⟩ | ⟨a, rest, hcons, hitem, hleft⟩
  · -- there was nothing to take
    have htaken : t.client.taken.getLast? = some t.store.controller.current := by
      rcases h.waiting with hwait | hwait
      · exact hwait.2
      · rw [hnil] at hwait
        cases hwait
    refine ⟨⟨?_, hopened, h.broadcast, h.newest, .inl ⟨hleft, ?_⟩, ?_, ?_, ?_⟩, hleft⟩
    all_goals dsimp only; rw [hpending]
    · exact h.runs
    · exact htaken
    · rw [hleft, ← hnil]
      exact h.order
    · exact h.tasks
    · exact h.rules
  · obtain ⟨rfl, rfl⟩ : a = t.store.controller.current ∧ rest = [] := by
      rcases h.waiting with hwait | hwait
      · rw [hcons] at hwait
        cases hwait.1
      · rw [hcons] at hwait
        exact List.cons_eq_cons.mp hwait
    refine ⟨⟨?_, hopened, h.broadcast, h.newest, .inl ⟨hleft, ?_⟩, ?_, ?_, ?_⟩, hleft⟩
    all_goals dsimp only; rw [hitem, RunClient.next]
    · exact RunClient.stopped_serve.trans h.runs
    · rw [RunClient.taken_serve, List.getLast?_concat]
    · rw [RunClient.taken_serve, hleft, List.append_nil, ← hcons]
      exact h.order
    · intro task htask
      rw [RunClient.taken_serve, List.getLast?_concat, RunClient.config_of_mem_serve htask]
    · exact h.rules.serve hu hiptables

/-- One event keeps the two in step. -/
theorem Synced.step [DecidableEq P] (hu : Untouched host.refers r)
    (hiptables : host.iptables = .ok ()) (h : t.Synced ch host listen r) (event : Event P S) :
    (t.step ch host listen toYaml configFile event).Synced ch host listen r := by
  cases event with
  | operate op fs => exact h.operate op fs
  | poll env => exact (h.poll hu hiptables env).1

/-- With nothing left to take, looking at the broadcasts changes nothing for the client. -/
theorem Synced.client_poll (h : t.Synced ch host listen r) (hleft : t.receiver.left ch = [])
    (env : Surroundings) : (t.poll ch host listen env).client = t.client := by
  rw [System.poll]
  split
  · rfl
  · rcases Receiver.pollNext_spec h.opened with ⟨_, hpending, _⟩ | ⟨a, rest, hcons, _⟩
    · dsimp only
      rw [hpending]
      rfl
    · rw [hleft] at hcons
      cases hcons

/-- Once the client has looked, it has the configuration of the controller. -/
theorem Synced.taken_poll (hu : Untouched host.refers r) (hiptables : host.iptables = .ok ())
    (h : t.Synced ch host listen r) (env : Surroundings) :
    (t.poll ch host listen env).client.taken.getLast? = some t.store.controller.current := by
  obtain ⟨hpolled, hleft⟩ := h.poll hu hiptables env
  rcases hpolled.waiting with hwait | hwait
  · rw [hwait.2, System.poll]
    split <;> rfl
  · rw [hleft] at hwait
    cases hwait

end System

end Cpxy.Client
