import Cpxy.Base.Run
import Cpxy.Client.Firewall

/-!
# Diverting traffic

Library `Client`. Source `src/iptables.rs:34–142`. What the two lists of commands come to: with
all of them done, the traffic of others goes to the ports of the proxy, and the host's own rules
are below. Whatever calls were made and however far they came, cleaning up finds these again.
-/

namespace Cpxy.Client

open Cpxy.Base

variable {φ : Type} {host : Host φ} {r v : Rules} {s : φ}

/-! ### Everything is there -/

/-- The rules with a chain of the proxy in a table, and the jump to it. -/
def Rules.divert (r : Rules) (table : String) (rules : List String) : Rules :=
  (r.setChain table chainName (some rules)).setChain table "PREROUTING"
    ((r.chain table "PREROUTING").map (· ++ [jump]))

/-- The rules that keep local networks out. -/
def returns : List String := networks.map fun network ↦ s!"-d {network} -j RETURN"

/-- The rules with the TCP connections of others diverted to a port. -/
def Rules.divertTcp (r : Rules) (tcpPort : UInt16) : Rules :=
  r.divert "nat" (returns ++ [s!"-p tcp -j DNAT --to-destination 127.0.0.1:{tcpPort}"])

/-- The rules with the UDP packets of others diverted to a port. -/
def Rules.divertUdp (r : Rules) (udpPort : UInt16) : Rules :=
  let tproxy :=
    s!"-p udp -j TPROXY --tproxy-mark {tproxyMark} --on-ip 127.0.0.1 --on-port {udpPort}"
  ({ r.divert "mangle" (returns ++ [tproxy]) with policies := markPolicy :: r.policies }).setRoutes
    (toString routingTableNumber)
    (["local", "0.0.0.0/0", "dev", "lo"] :: r.routes (toString routingTableNumber))

/-- The rules with all that `add_rules` adds. -/
def Rules.installed (r : Rules) (tcpPort : UInt16) (udpPort : Option UInt16) : Rules :=
  (udpPort.map (r.divertTcp tcpPort).divertUdp).getD (r.divertTcp tcpPort)

theorem foldl_appendUnique (r : Rules) (table chain : String) (rules : List String) :
    (rules.map (Command.appendUnique table chain)).foldl Command.effect r =
      r.setChain table chain ((r.chain table chain).map (· ++ rules)) := by
  induction rules generalizing r with
  | nil => simp [Rules.setChain_self]
  | cons rule rules ih =>
    rw [List.map_cons, List.foldl_cons, ih, Command.effect, Rules.setChain_setChain,
      Rules.chain_setChain, if_pos ⟨rfl, rfl⟩, Option.map_map]
    simp [Function.comp_def]

/-- A new chain with its rules, and the jump to it. -/
theorem foldl_divert (r : Rules) (table : String) (rules : List String) :
    (Command.newChain table chainName :: (rules.map (Command.appendUnique table chainName) ++
      [.appendUnique table "PREROUTING" jump])).foldl Command.effect r = r.divert table rules := by
  rw [List.foldl_cons, List.foldl_append, foldl_appendUnique, List.foldl_cons, List.foldl_nil,
    Command.effect, Command.effect, Rules.setChain_setChain, Rules.chain_setChain,
    Rules.chain_setChain, if_pos ⟨rfl, rfl⟩, if_neg fun h ↦ prerouting_ne_chainName h.2,
    Option.map_some, List.nil_append, Rules.divert]

/-- The commands, one after the other, add all there is to add. -/
theorem foldl_addCommands (r : Rules) (tcpPort : UInt16) (udpPort : Option UInt16) :
    ((addCommands tcpPort udpPort).map Prod.fst).foldl Command.effect r =
      r.installed tcpPort udpPort := by
  have hreturns (table : String) : (returnRules table).map Prod.fst =
      returns.map (Command.appendUnique table chainName) := by
    simp [returnRules, returns, Function.comp_def]
  have htcp : ((tcpCommands tcpPort).map Prod.fst).foldl Command.effect r =
      r.divertTcp tcpPort := by
    rw [Rules.divertTcp, ← foldl_divert, tcpCommands]
    simp [hreturns]
  rw [addCommands, List.map_append, List.foldl_append, htcp, Rules.installed]
  cases udpPort with
  | none => rfl
  | some udpPort =>
    have hmangle := foldl_divert (r.divertTcp tcpPort) "mangle" (returns ++
      [s!"-p udp -j TPROXY --tproxy-mark {tproxyMark} --on-ip 127.0.0.1 --on-port {udpPort}"])
    rw [Option.map_some, Option.map_some, Option.getD_some, Option.getD_some, Rules.divertUdp]
    dsimp only
    rw [← hmangle, udpCommands]
    simp [hreturns]
    rfl

theorem Remains.divert (h : Remains r v) {table : String} (htable : OurTable table)
    (rules : List String) (hown : v.chain table "PREROUTING" = r.chain table "PREROUTING") :
    Remains r (v.divert table rules) := by
  apply (h.setChain_own htable (some rules)).setChain_prerouting htable
  rw [hown]
  cases hchain : r.chain table "PREROUTING" with
  | none => exact .inl rfl
  | some old => exact .inr ⟨old, rfl, rfl⟩

/-- With everything there, the host's own rules are still below it. -/
theorem Remains.installed (r : Rules) (tcpPort : UInt16) (udpPort : Option UInt16) :
    Remains r (r.installed tcpPort udpPort) := by
  have htcp : Remains r (r.divertTcp tcpPort) := (Remains.refl r).divert (.inl rfl) _ rfl
  cases udpPort with
  | none => exact htcp
  | some udpPort =>
    have hmangle : (r.divertTcp tcpPort).chain "mangle" "PREROUTING" =
        r.chain "mangle" "PREROUTING" := by
      have hne : "mangle" ≠ "nat" := by decide
      rw [Rules.divertTcp, Rules.divert, Rules.chain_setChain, if_neg fun h ↦ hne h.1,
        Rules.chain_setChain, if_neg fun h ↦ hne h.1]
    have hudp := htcp.divert (.inr rfl) (returns ++
      [s!"-p udp -j TPROXY --tproxy-mark {tproxyMark} --on-ip 127.0.0.1 --on-port {udpPort}"])
      hmangle
    refine ⟨hudp.chain, hudp.jump, .inr rfl, ?_⟩
    intro t ht
    exact (if_neg ht).trans (hudp.routes t ht)

/-- However far it comes, adding stays within the places of the proxy. -/
theorem Remains.addRules (h : Remains r (host.view s)) (tcpPort : UInt16)
    (udpPort : Option UInt16) : Remains r (host.view (host.addRules tcpPort udpPort s).2) := by
  have hsysctl := h.exec (c := .sysctl ["-w", "net.ipv4.conf.all.route_localnet=1"]) trivial
  rw [Host.addRules]
  split
  · next heq =>
    rw [heq] at hsysctl
    exact hsysctl
  · next heq =>
    rw [heq] at hsysctl
    split
    · exact hsysctl
    · exact hsysctl.runUntil (adds_addCommands tcpPort udpPort)

/-- When adding to the rules of the host succeeds, everything is there. -/
theorem Host.view_addRules {tcpPort : UInt16} {udpPort : Option UInt16} (h : host.view s = r)
    (hok : (host.addRules tcpPort udpPort s).1 = .ok ()) :
    host.view (host.addRules tcpPort udpPort s).2 = r.installed tcpPort udpPort := by
  rw [Host.addRules] at hok ⊢
  split at hok
  · cases hok
  · next s' heq =>
    have hdone := (host.done (c := .sysctl ["-w", "net.ipv4.conf.all.route_localnet=1"]) (s := s)
      (by rw [heq])).2
    rw [heq] at hdone
    have hview : host.view s' = r := hdone.trans h
    split at hok
    · cases hok
    · rw [host.view_runUntil hok, hview, foldl_addCommands]

/-! ### Any number of calls -/

/-- The calls of the two functions. -/
inductive RulesCall where
  | addRules (tcpPort : UInt16) (udpPort : Option UInt16)
  | cleanUp

/-- What a call leaves, whatever it returns. -/
def Host.call (host : Host φ) (s : φ) : RulesCall → φ
  | .addRules tcpPort udpPort => (host.addRules tcpPort udpPort s).2
  | .cleanUp => host.cleanUp s

theorem Remains.call (hu : Untouched host.refers r) (hiptables : host.iptables = .ok ())
    (h : Remains r (host.view s)) (call : RulesCall) :
    Remains r (host.view (host.call s call)) := by
  cases call with
  | addRules tcpPort udpPort => exact h.addRules tcpPort udpPort
  | cleanUp =>
    rw [Host.call, host.cleanUp_restores hu h hiptables]
    exact Remains.refl r

/-- A host on which every command succeeds that can. -/
noncomputable def Host.ideal (refers : String → String → Prop) : Host Rules where
  iptables := .ok ()
  exec c r := by
    classical exact if c.Applicable refers r then (.ok (), c.effect r)
      else (.error ["Resource busy"], r)
  view := id
  refers := refers
  failed := by
    intro c s e h
    split at h
    · cases h
    · next hnot => rw [if_neg hnot]
  done := by
    intro c s h
    split at h
    · next happ => exact ⟨happ, by rw [if_pos happ]; rfl⟩
    · cases h
  removes := by
    intro c s _ happ
    exact congrArg Prod.fst (if_pos happ)

/-- Two chains for what comes in, with a rule for another one. -/
def routerRules : Rules where
  chain table name :=
    if table = "nat" ∧ name = "PREROUTING" then some ["-i eth0 -j DOCKER"]
    else if table = "mangle" ∧ name = "PREROUTING" then some []
    else none
  policies := [["lookup", "main"]]
  routes _ := []

theorem untouched_routerRules :
    Untouched (fun rule chain ↦ rule = s!"-j {chain}") routerRules where
  chain := by
    rintro _ (rfl | rfl) <;> decide
  jump := by
    rintro _ rules (rfl | rfl) h
    · cases h
      decide
    · cases h
      exact nofun
  refers := by
    rintro _ name rules (rfl | rfl) h rule hrule
    · rw [routerRules] at h
      dsimp only at h
      split at h
      · cases h
        cases List.mem_singleton.mp hrule
        decide
      · split at h
        · cases h
          cases hrule
        · cases h
    · rw [routerRules] at h
      dsimp only at h
      split at h
      · next hand => exact absurd hand.1 (by decide)
      · split at h
        · cases h
          cases hrule
        · cases h
  policies := by decide
  routes := rfl

end Cpxy.Client
