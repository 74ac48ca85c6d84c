import Cpxy.Base.Outcome
import Mathlib.Data.List.Basic

/-!
# Router rules

Library `Client`. Source `src/iptables.rs:1–158`. The rules that divert the traffic of others to
the proxy are added command by command, up to the first that fails, and removed by commands that
may fail. The host is known by what its commands do to the rules: one that fails leaves them as
they are, and one that removes something succeeds when it is there.
-/

namespace Cpxy.Client

open Cpxy.Base

/-! ### Commands and rules -/

/-- What the commands see: the chains of the tables, the routing policies, and the routes. -/
@[ext] structure Rules where
  chain : String → String → Option (List String)
  policies : List (List String)
  routes : String → List (List String)

namespace Rules

def setChain (r : Rules) (table name : String) (rules : Option (List String)) : Rules :=
  { r with chain := fun t c ↦ if t = table ∧ c = name then rules else r.chain t c }

def setRoutes (r : Rules) (table : String) (routes : List (List String)) : Rules :=
  { r with routes := fun t ↦ if t = table then routes else r.routes t }

end Rules

/-- The calls of the `iptables` package, and the programs that are run; `sysctl` and `ip` with
their arguments. -/
inductive Command where
  | newChain (table chain : String)
  | appendUnique (table chain rule : String)
  | delete (table chain rule : String)
  | flushChain (table chain : String)
  | deleteChain (table chain : String)
  | sysctl (args : List String)
  | ipRuleAdd (policy : List String)
  | ipRuleDelete (policy : List String)
  | ipRouteAdd (route : List String) (table : String)
  | ipRouteFlush (table : String)
  deriving DecidableEq, Repr

namespace Command

/-- When a command can succeed. A chain is deleted when it is empty and no rule of its table
refers to it. -/
def Applicable (refers : String → String → Prop) (r : Rules) : Command → Prop
  | newChain table chain => r.chain table chain = none
  | appendUnique table chain rule => ∃ rules, r.chain table chain = some rules ∧ rule ∉ rules
  | delete table chain rule => ∃ rules, r.chain table chain = some rules ∧ rule ∈ rules
  | flushChain table chain => ∃ rules, r.chain table chain = some rules
  | deleteChain table chain => r.chain table chain = some [] ∧
      ∀ name rules, r.chain table name = some rules → ∀ rule ∈ rules, ¬ refers rule chain
  | sysctl _ => True
  | ipRuleAdd policy => policy ∉ r.policies
  | ipRuleDelete policy => policy ∈ r.policies
  | ipRouteAdd route table => route ∉ r.routes table
  | ipRouteFlush table => r.routes table ≠ []

/-- What a command that succeeds does to the rules. -/
def effect (r : Rules) : Command → Rules
  | newChain table chain => r.setChain table chain (some [])
  | appendUnique table chain rule =>
    r.setChain table chain ((r.chain table chain).map (· ++ [rule]))
  | delete table chain rule => r.setChain table chain ((r.chain table chain).map (·.erase rule))
  | flushChain table chain => r.setChain table chain (some [])
  | deleteChain table chain => r.setChain table chain none
  | sysctl _ => r
  | ipRuleAdd policy => { r with policies := policy :: r.policies }
  | ipRuleDelete policy => { r with policies := r.policies.erase policy }
  | ipRouteAdd route table => r.setRoutes table (route :: r.routes table)
  | ipRouteFlush table => r.setRoutes table []

/-- The commands that take something away. -/
def Removes : Command → Prop
  | delete _ _ _ => True
  | flushChain _ _ => True
  | deleteChain _ _ => True
  | ipRuleDelete _ => True
  | ipRouteFlush _ => True
  | _ => False

end Command

/-- A host that runs commands. Whether `iptables::new` finds the program does not change. -/
structure Host (φ : Type) where
  iptables : Except ErrorChain Unit
  exec : Command → φ → Except ErrorChain Unit × φ
  view : φ → Rules
  refers : String → String → Prop
  failed : ∀ {c s e}, (exec c s).1 = .error e → view (exec c s).2 = view s
  done : ∀ {c s}, (exec c s).1 = .ok () →
    c.Applicable refers (view s) ∧ view (exec c s).2 = c.effect (view s)
  removes : ∀ {c s}, c.Removes → c.Applicable refers (view s) → (exec c s).1 = .ok ()

/-! ### The two lists of commands -/

/-- `CHAIN_NAME`; `iptables.rs:6`. -/
def chainName : String := "cpxy"

/-- `TPROXY_MARK`; `iptables.rs:7`. -/
def tproxyMark : Nat := 121

/-- `ROUTING_TABLE_NUMBER`; `iptables.rs:8`. -/
def routingTableNumber : Nat := 99

/-- The jump to the chain. -/
def jump : String := s!"-j {chainName}"

/-- The policy for marked packets. -/
def markPolicy : List String :=
  ["fwmark", toString tproxyMark, "lookup", toString routingTableNumber]

/-- `networks`; `iptables.rs:67–77`. -/
def networks : List String :=
  ["10.0.0.0/8", "100.64.0.0/10", "127.0.0.0/8", "169.254.0.0/16", "172.16.0.0/12",
    "192.0.0.0/24", "192.168.0.0/16", "198.18.0.0/15", "255.255.255.255/32"]

/-- The commands of `clean_up` for one table; `iptables.rs:36–42`. -/
def cleanTable (table : String) : List Command :=
  [.delete table "PREROUTING" jump, .flushChain table chainName, .deleteChain table chainName]

/-- The commands of `clean_up`; `iptables.rs:36–58`. -/
def cleanCommands : List Command :=
  cleanTable "nat" ++ cleanTable "mangle" ++
    [.ipRuleDelete markPolicy, .ipRouteFlush (toString routingTableNumber)]

/-- The rules for local networks, each with what its failure is called. -/
def returnRules (table : String) : List (Command × String) :=
  networks.map fun network ↦ (.appendUnique table chainName s!"-d {network} -j RETURN",
    s!"Creating RETURN rule for local network {network}")

/-- The commands of `add_rules` for TCP; `iptables.rs:79–93`. -/
def tcpCommands (tcpPort : UInt16) : List (Command × String) :=
  [(.newChain "nat" chainName, "Creating new NAT chain")] ++ returnRules "nat" ++
    [(.appendUnique "nat" chainName s!"-p tcp -j DNAT --to-destination 127.0.0.1:{tcpPort}",
        "Creating DNAT rule for TCP"),
      (.appendUnique "nat" "PREROUTING" jump, "Adding proxy rule to nat/PREROUTING")]

/-- The commands of `add_rules` for UDP; `iptables.rs:95–139`. -/
def udpCommands (udpPort : UInt16) : List (Command × String) :=
  [(.newChain "mangle" chainName, "Creating new mangle chain")] ++ returnRules "mangle" ++
    [(.appendUnique "mangle" chainName
        s!"-p udp -j TPROXY --tproxy-mark {tproxyMark} --on-ip 127.0.0.1 --on-port {udpPort}",
        "Creating TPROXY rule for UDP"),
      (.appendUnique "mangle" "PREROUTING" jump, "Creating proxy rule for UDP"),
      (.ipRuleAdd markPolicy, "Adding IP rule for UDP"),
      (.ipRouteAdd ["local", "0.0.0.0/0", "dev", "lo"] (toString routingTableNumber),
        "Adding IP route for UDP")]

/-- The commands of `add_rules` behind the first one. -/
def addCommands (tcpPort : UInt16) (udpPort : Option UInt16) : List (Command × String) :=
  tcpCommands tcpPort ++ (udpPort.map udpCommands).getD []

namespace Host

variable {φ : Type} (host : Host φ)

/-- Run commands, whatever becomes of them. -/
def runAll (cs : List Command) (s : φ) : φ := cs.foldl (fun s c ↦ (host.exec c s).2) s

/-- Run commands up to the first that fails. -/
def runUntil : List (Command × String) → φ → Except ErrorChain Unit × φ
  | [], s => (.ok (), s)
  | (c, text) :: cs, s =>
    match host.exec c s with
    | (.ok (), s) => runUntil cs s
    | (.error e, s) => (.error (text :: e), s)

/-- `clean_up`; `iptables.rs:34–61`. -/
def cleanUp (s : φ) : φ :=
  match host.iptables with
  | .ok () => host.runAll cleanCommands s
  | .error _ => s

/-- `add_rules`; `iptables.rs:63–142`. -/
def addRules (tcpPort : UInt16) (udpPort : Option UInt16) (s : φ) : Except ErrorChain Unit × φ :=
  match host.exec (.sysctl ["-w", "net.ipv4.conf.all.route_localnet=1"]) s with
  | (.error e, s) => (.error e, s)
  | (.ok (), s) =>
    match host.iptables with
    | .error e => (.error ("Create iptable instance" :: e), s)
    | .ok () => host.runUntil (addCommands tcpPort udpPort) s

end Host

/-! ### What is left when adding stops -/

/-- The tables that the rules go into. -/
def OurTable (table : String) : Prop := table = "nat" ∨ table = "mangle"

/-- The rules of a host that knows nothing of the proxy. -/
structure Untouched (refers : String → String → Prop) (r : Rules) : Prop where
  chain : ∀ table, OurTable table → r.chain table chainName = none
  jump : ∀ table rules, OurTable table → r.chain table "PREROUTING" = some rules → jump ∉ rules
  refers : ∀ table name rules, OurTable table → r.chain table name = some rules →
    ∀ rule ∈ rules, ¬ refers rule chainName
  policies : markPolicy ∉ r.policies
  routes : r.routes (toString routingTableNumber) = []

/-- The rules `r`, with something in the places where the proxy adds. -/
structure Remains (r v : Rules) : Prop where
  chain : ∀ table name, (OurTable table → name ≠ chainName ∧ name ≠ "PREROUTING") →
    v.chain table name = r.chain table name
  jump : ∀ table, OurTable table → v.chain table "PREROUTING" = r.chain table "PREROUTING" ∨
    ∃ rules, r.chain table "PREROUTING" = some rules ∧
      v.chain table "PREROUTING" = some (rules ++ [Client.jump])
  policies : v.policies = r.policies ∨ v.policies = markPolicy :: r.policies
  routes : ∀ table, table ≠ toString routingTableNumber → v.routes table = r.routes table

/-- The commands that add in these places. -/
def Command.Adds : Command → Prop
  | newChain table chain => OurTable table ∧ chain = chainName
  | appendUnique table chain rule =>
    OurTable table ∧ (chain = chainName ∨ chain = "PREROUTING" ∧ rule = Client.jump)
  | sysctl _ => True
  | ipRuleAdd policy => policy = markPolicy
  | ipRouteAdd _ table => table = toString routingTableNumber
  | _ => False

theorem prerouting_ne_chainName : "PREROUTING" ≠ chainName := by decide

variable {φ : Type} {host : Host φ} {r v : Rules} {s : φ}

theorem Remains.refl (r : Rules) : Remains r r where
  chain _ _ _ := rfl
  jump _ _ := .inl rfl
  policies := .inl rfl
  routes _ _ := rfl

@[simp] theorem Rules.chain_setChain (r : Rules) (table name : String)
    (rules : Option (List String)) (t c : String) :
    (r.setChain table name rules).chain t c =
      if t = table ∧ c = name then rules else r.chain t c := rfl

/-- The proxy's own chain is not among what is compared. -/
theorem Remains.setChain_own (h : Remains r v) {table : String} (htable : OurTable table)
    (rules : Option (List String)) : Remains r (v.setChain table chainName rules) where
  chain t c hc := by
    rw [Rules.chain_setChain, if_neg]
    · exact h.chain t c hc
    · rintro ⟨rfl, rfl⟩
      exact (hc htable).1 rfl
  jump t ht := by
    rw [Rules.chain_setChain, if_neg fun hand ↦ prerouting_ne_chainName hand.2]
    exact h.jump t ht
  policies := h.policies
  routes := h.routes

theorem Remains.setChain_prerouting (h : Remains r v) {table : String} (htable : OurTable table)
    {rules : Option (List String)} (hrules : rules = r.chain table "PREROUTING" ∨
      ∃ old, r.chain table "PREROUTING" = some old ∧ rules = some (old ++ [Client.jump])) :
    Remains r (v.setChain table "PREROUTING" rules) where
  chain t c hc := by
    rw [Rules.chain_setChain, if_neg]
    · exact h.chain t c hc
    · rintro ⟨rfl, rfl⟩
      exact (hc htable).2 rfl
  jump t ht := by
    rw [Rules.chain_setChain]
    split
    · next hand =>
      rw [hand.1]
      exact hrules
    · exact h.jump t ht
  policies := h.policies
  routes := h.routes

/-- A command that adds, adds in the places of the proxy. -/
theorem Remains.effect {refers : String → String → Prop} (h : Remains r v) {c : Command}
    (hc : c.Adds) (happ : c.Applicable refers v) : Remains r (c.effect v) := by
  cases c with
  | newChain table chain =>
    obtain ⟨htable, rfl⟩ := hc
    exact h.setChain_own htable _
  | appendUnique table chain rule =>
    obtain ⟨htable, rfl | ⟨rfl, rfl⟩⟩ := hc
    · exact h.setChain_own htable _
    · obtain ⟨rules, hrules, hnew⟩ := happ
      apply h.setChain_prerouting htable
      rcases h.jump table htable with hsame | ⟨old, hold, hjump⟩
      · right
        exact ⟨rules, hsame.symm.trans hrules, by rw [hrules]; rfl⟩
      · rw [hrules] at hjump
        cases hjump
        exact absurd (List.mem_append_right old (List.mem_singleton_self _)) hnew
  | sysctl args => exact h
  | ipRuleAdd policy =>
    cases hc
    refine ⟨h.chain, h.jump, .inr ?_, h.routes⟩
    rcases h.policies with hsame | hthere
    · exact congrArg (markPolicy :: ·) hsame
    · rw [Command.Applicable, hthere] at happ
      exact absurd List.mem_cons_self happ
  | ipRouteAdd route table =>
    cases hc
    refine ⟨h.chain, h.jump, h.policies, ?_⟩
    intro t ht
    exact (if_neg ht).trans (h.routes t ht)
  | delete | flushChain | deleteChain | ipRuleDelete | ipRouteFlush => cases hc

theorem Remains.exec (h : Remains r (host.view s)) {c : Command} (hc : c.Adds) :
    Remains r (host.view (host.exec c s).2) := by
  cases hres : (host.exec c s).1 with
  | ok u =>
    obtain ⟨happ, heffect⟩ := host.done hres
    rw [heffect]
    exact h.effect hc happ
  | error e =>
    rw [host.failed hres]
    exact h

/-- However far commands that add are run, they add in the places of the proxy. -/
theorem Remains.runUntil {cs : List (Command × String)} (hcs : ∀ p ∈ cs, p.1.Adds)
    (h : Remains r (host.view s)) : Remains r (host.view (host.runUntil cs s).2) := by
  induction cs generalizing s with
  | nil => exact h
  | cons p cs ih =>
    have hnext := h.exec (hcs p List.mem_cons_self)
    rw [Host.runUntil]
    split
    · next heq =>
      rw [heq] at hnext
      exact ih (fun q hq ↦ hcs q (List.mem_cons_of_mem p hq)) hnext
    · next heq =>
      rw [heq] at hnext
      exact hnext

/-- Commands that all succeed have their effects, one after the other. -/
theorem Host.view_runUntil {cs : List (Command × String)}
    (h : (host.runUntil cs s).1 = .ok ()) :
    host.view (host.runUntil cs s).2 = (cs.map Prod.fst).foldl Command.effect (host.view s) := by
  induction cs generalizing s with
  | nil => rfl
  | cons p cs ih =>
    rw [Host.runUntil] at h ⊢
    split
    · next s' heq =>
      rw [heq] at h
      have hdone := (host.done (c := p.1) (s := s) (by rw [heq])).2
      rw [heq] at hdone
      rw [ih h, hdone]
      rfl
    · next heq =>
      rw [heq] at h
      cases h

theorem adds_returnRules {table : String} (htable : OurTable table) :
    ∀ p ∈ returnRules table, p.1.Adds := by
  intro p hp
  obtain ⟨network, _, rfl⟩ := List.mem_map.mp hp
  exact ⟨htable, .inl rfl⟩

theorem adds_addCommands (tcpPort : UInt16) (udpPort : Option UInt16) :
    ∀ p ∈ addCommands tcpPort udpPort, p.1.Adds := by
  have hnat : OurTable "nat" := .inl rfl
  have hmangle : OurTable "mangle" := .inr rfl
  have htcp : ∀ p ∈ tcpCommands tcpPort, p.1.Adds := by
    intro p hp
    simp only [tcpCommands, List.mem_append, List.mem_cons, List.not_mem_nil, or_false] at hp
    rcases hp with (rfl | hp) | rfl | rfl
    · exact ⟨hnat, rfl⟩
    · exact adds_returnRules hnat p hp
    · exact ⟨hnat, .inl rfl⟩
    · exact ⟨hnat, .inr ⟨rfl, rfl⟩⟩
  intro p hp
  rcases List.mem_append.mp hp with hp | hp
  · exact htcp p hp
  · cases udpPort with
    | none => cases hp
    | some udpPort =>
      simp only [Option.map_some, Option.getD_some, udpCommands, List.mem_append, List.mem_cons,
        List.not_mem_nil, or_false] at hp
      rcases hp with (rfl | hp) | rfl | rfl | rfl | rfl
      · exact ⟨hmangle, rfl⟩
      · exact adds_returnRules hmangle p hp
      · exact ⟨hmangle, .inl rfl⟩
      · exact ⟨hmangle, .inr ⟨rfl, rfl⟩⟩
      · rfl
      · rfl

/-! ### Cleaning up -/

/-- A command that takes something away does so just when it can. -/
theorem Host.view_removes {c : Command} (hc : c.Removes) :
    (c.Applicable host.refers (host.view s) →
      host.view (host.exec c s).2 = c.effect (host.view s)) ∧
    (¬ c.Applicable host.refers (host.view s) → host.view (host.exec c s).2 = host.view s) := by
  constructor
  · intro happ
    exact (host.done (host.removes hc happ)).2
  · intro hnot
    cases hres : (host.exec c s).1 with
    | ok u => exact absurd (host.done hres).1 hnot
    | error e => exact host.failed hres

theorem Rules.setChain_self (r : Rules) (table name : String) :
    r.setChain table name (r.chain table name) = r := by
  apply Rules.ext
  · funext t c
    rw [chain_setChain]
    split
    · next h => rw [h.1, h.2]
    · rfl
  · rfl
  · rfl

theorem Rules.setChain_setChain (r : Rules) (table name : String)
    (rules rules' : Option (List String)) :
    (r.setChain table name rules).setChain table name rules' = r.setChain table name rules' := by
  apply Rules.ext
  · funext t c
    rw [chain_setChain, chain_setChain, chain_setChain]
    split <;> rfl
  · rfl
  · rfl

/-- The jump is taken out of a chain that was the host's own up to it. -/
theorem Host.view_deleteJump (hu : Untouched host.refers r) (h : Remains r (host.view s))
    {table : String} (htable : OurTable table) :
    host.view (host.exec (.delete table "PREROUTING" jump) s).2 =
      (host.view s).setChain table "PREROUTING" (r.chain table "PREROUTING") := by
  obtain ⟨hremoves, hkeeps⟩ := host.view_removes (s := s) (c := .delete table "PREROUTING" jump)
    trivial
  rcases h.jump table htable with hsame | ⟨rules, hrules, hthere⟩
  · rw [hkeeps, ← hsame, Rules.setChain_self]
    rintro ⟨rules, hrules, hmem⟩
    exact hu.jump table rules htable (hsame.symm.trans hrules) hmem
  · have hmem : jump ∈ rules ++ [jump] := List.mem_append_right rules (List.mem_singleton_self _)
    have herase : (rules ++ [jump]).erase jump = rules := by
      rw [List.erase_append_right _ (hu.jump table rules htable hrules)]
      simp
    rw [hremoves ⟨_, hthere, hmem⟩, Command.effect, hthere, Option.map_some, herase, hrules]

/-- The chain is emptied, if it is there. -/
theorem Host.view_flushChain (table : String) :
    host.view (host.exec (.flushChain table chainName) s).2 = (host.view s).setChain table
      chainName (((host.view s).chain table chainName).map fun _ ↦ []) := by
  obtain ⟨hremoves, hkeeps⟩ := host.view_removes (s := s) (c := .flushChain table chainName)
    trivial
  cases hchain : (host.view s).chain table chainName with
  | none =>
    rw [hkeeps, Option.map_none, ← hchain, Rules.setChain_self]
    rintro ⟨rules, hrules⟩
    rw [hchain] at hrules
    cases hrules
  | some rules =>
    rw [hremoves ⟨rules, hchain⟩]
    rfl

/-- The chain is deleted, when it is empty and nothing jumps to it. -/
theorem Host.view_deleteChain {table : String}
    (hempty : ∀ rules, (host.view s).chain table chainName = some rules → rules = [])
    (hrefers : ∀ name rules, (host.view s).chain table name = some rules →
      ∀ rule ∈ rules, ¬ host.refers rule chainName) :
    host.view (host.exec (.deleteChain table chainName) s).2 =
      (host.view s).setChain table chainName none := by
  obtain ⟨hremoves, hkeeps⟩ := host.view_removes (s := s) (c := .deleteChain table chainName)
    trivial
  cases hchain : (host.view s).chain table chainName with
  | none =>
    rw [hkeeps, ← hchain, Rules.setChain_self]
    rintro ⟨hnil, _⟩
    rw [hchain] at hnil
    cases hnil
  | some rules =>
    cases hempty rules hchain
    rw [hremoves ⟨hchain, hrefers⟩]
    rfl

/-- Of a table, the host's own rules are left. -/
theorem Host.view_cleanTable (hu : Untouched host.refers r) (h : Remains r (host.view s))
    {table : String} (htable : OurTable table) :
    host.view (host.runAll (cleanTable table) s) =
      ((host.view s).setChain table "PREROUTING" (r.chain table "PREROUTING")).setChain table
        chainName none := by
  have hdelete := host.view_deleteJump hu h htable
  have hflush := host.view_flushChain (s := (host.exec (.delete table "PREROUTING" jump) s).2) table
  have hdrop : host.view (host.runAll (cleanTable table) s) =
      (host.view (host.exec (.flushChain table chainName)
        (host.exec (.delete table "PREROUTING" jump) s).2).2).setChain table chainName none := by
    apply host.view_deleteChain
    · intro rules hrules
      rw [hflush, Rules.chain_setChain, if_pos ⟨rfl, rfl⟩] at hrules
      obtain ⟨_, _, rfl⟩ := Option.map_eq_some_iff.mp hrules
      rfl
    · intro name rules hrules
      rw [hflush, Rules.chain_setChain] at hrules
      split at hrules
      · obtain ⟨_, _, rfl⟩ := Option.map_eq_some_iff.mp hrules
        exact nofun
      · next hname =>
        have hown : r.chain table name = some rules := by
          rw [hdelete, Rules.chain_setChain] at hrules
          split at hrules
          · next hpre => rwa [hpre.2]
          · next hpre =>
            rwa [← h.chain table name]
            exact fun _ ↦ ⟨fun hn ↦ hname ⟨rfl, hn⟩, fun hn ↦ hpre ⟨rfl, hn⟩⟩
        exact hu.refers table name rules htable hown
  rw [hdrop, hflush, hdelete, Rules.setChain_setChain]

theorem Host.runAll_append (cs cs' : List Command) (s : φ) :
    host.runAll (cs ++ cs') s = host.runAll cs' (host.runAll cs s) := List.foldl_append

/-- Cleaning one table leaves what remains in the other. -/
theorem Remains.cleanTable (hu : Untouched host.refers r) (h : Remains r (host.view s))
    {table : String} (htable : OurTable table) :
    Remains r (host.view (host.runAll (cleanTable table) s)) := by
  rw [host.view_cleanTable hu h htable]
  exact (h.setChain_prerouting htable (.inl rfl)).setChain_own htable none

/-- The policy for marked packets is taken out of the host's own ones. -/
theorem Host.view_deletePolicy (hu : Untouched host.refers r) (h : Remains r (host.view s)) :
    host.view (host.exec (.ipRuleDelete markPolicy) s).2 =
      { host.view s with policies := r.policies } := by
  obtain ⟨hremoves, hkeeps⟩ := host.view_removes (s := s) (c := .ipRuleDelete markPolicy) trivial
  rcases h.policies with hsame | hthere
  · rw [← hsame, hkeeps]
    rw [Command.Applicable, hsame]
    exact hu.policies
  · have hmem : markPolicy ∈ (host.view s).policies := by
      rw [hthere]
      exact List.mem_cons_self
    rw [hremoves hmem, Command.effect, hthere, List.erase_cons_head]

/-- The routing table of the proxy is emptied. -/
theorem Host.view_flushRoutes :
    host.view (host.exec (.ipRouteFlush (toString routingTableNumber)) s).2 =
      (host.view s).setRoutes (toString routingTableNumber) [] := by
  obtain ⟨hremoves, hkeeps⟩ := host.view_removes (s := s)
    (c := .ipRouteFlush (toString routingTableNumber)) trivial
  by_cases hroutes : (host.view s).routes (toString routingTableNumber) = []
  · rw [hkeeps (not_not.mpr hroutes)]
    apply Rules.ext
    · rfl
    · rfl
    · funext t
      rw [Rules.setRoutes]
      dsimp only
      split
      · next ht => rw [ht, hroutes]
      · rfl
  · exact hremoves hroutes

/-- Whatever the proxy has left behind, cleaning up leaves the rules that the host had. -/
theorem Host.cleanUp_restores (hu : Untouched host.refers r) (h : Remains r (host.view s))
    (hiptables : host.iptables = .ok ()) : host.view (host.cleanUp s) = r := by
  have hnat : OurTable "nat" := .inl rfl
  have hmangle : OurTable "mangle" := .inr rfl
  have hfirst := h.cleanTable hu hnat
  have hsecond := hfirst.cleanTable hu hmangle
  have hview := host.view_cleanTable hu hfirst hmangle
  rw [host.view_cleanTable hu h hnat] at hview
  generalize hs : host.runAll (Client.cleanTable "mangle")
    (host.runAll (Client.cleanTable "nat") s) = s' at hsecond hview
  -- the places in the two tables are as they were, and so is what the commands left alone
  have hchain : ∀ t c, (host.view s').chain t c = r.chain t c := by
    intro t c
    by_cases hours : OurTable t → c ≠ chainName ∧ c ≠ "PREROUTING"
    · exact hsecond.chain t c hours
    · obtain ⟨ht, hc⟩ := Classical.not_imp.mp hours
      have hc' : c = chainName ∨ c = "PREROUTING" := by
        by_cases hname : c = chainName
        · exact .inl hname
        · exact .inr (not_not.mp fun hpre ↦ hc ⟨hname, hpre⟩)
      have hpre := prerouting_ne_chainName
      rw [hview]
      rcases hc' with rfl | rfl
      · rcases ht with rfl | rfl <;> simp [hu.chain _ (.inl rfl), hu.chain _ (.inr rfl)]
      · rcases ht with rfl | rfl <;> simp [hpre]
  have hrun : host.cleanUp s = (host.exec (.ipRouteFlush (toString routingTableNumber))
      (host.exec (.ipRuleDelete markPolicy) s').2).2 := by
    rw [Host.cleanUp, hiptables, ← hs]
    dsimp only
    rw [cleanCommands, Host.runAll_append, Host.runAll_append]
    rfl
  rw [hrun, host.view_flushRoutes, host.view_deletePolicy hu hsecond]
  apply Rules.ext
  · funext t c
    exact hchain t c
  · rfl
  · funext t
    rw [Rules.setRoutes]
    dsimp only
    split
    · next ht => rw [ht, hu.routes]
    · next ht => exact hsecond.routes t ht

end Cpxy.Client
