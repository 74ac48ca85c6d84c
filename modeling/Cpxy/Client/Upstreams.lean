import Cpxy.Client.Controller
import Cpxy.Rules.DnsCache
import Cpxy.Rules.Engine

/-!
# Choosing an upstream

Library `Client`. Source `src/config.rs:18–41` and `99–201`, with the `supports` of each
protocol. The rules decide on a packet, and the decision is turned into a list of upstreams,
those used least recently last. Of a protocol, the fields that `supports` reads are kept.
-/

namespace Cpxy.Client

open Cpxy.Base Cpxy.Net Cpxy.Rules

/-- `TrafficType`; `protocol/mod.rs`. -/
inductive TrafficType where
  | stream
  | datagram
  deriving DecidableEq, Repr

/-- `UpstreamProtocol`; `config.rs:18–41`. -/
inductive UpstreamProtocol where
  | udpMan
  | tcpMan (allowsUdp : Bool)
  | socks5 (supportsUdp : Bool)
  | direct
  | fireTcp
  | http
  deriving DecidableEq, Repr

/-- `supports`; `config.rs:190–201`, and of the protocols `udpman/client.rs:28–30`,
`tcpman/mod.rs:77–82`, `direct/mod.rs:20–22`, `socks5/mod.rs:64–69`, `firetcp/proto.rs:52–54`
and `http/mod.rs:27–29`. -/
def UpstreamProtocol.supports : UpstreamProtocol → TrafficType → Bool
  | .udpMan, t => t = .datagram
  | .tcpMan allowsUdp, t =>
    match t, allowsUdp with
    | .datagram, false => false
    | _, _ => true
  | .direct, _ => true
  | .socks5 supportsUdp, t =>
    match t, supportsUdp with
    | .stream, _ => true
    | .datagram, v => v
  | .fireTcp, t => t = .stream
  | .http, t => t = .stream

/-- Of the other settings of a configuration, the rules; `config.rs:79–80`. -/
structure Settings where
  trafficRules : RuleString

/-- The configuration that upstreams are chosen by. -/
abbrev Config := ClientConfig UpstreamProtocol Settings

/-- An upstream with its name. -/
abbrev Named := String × UpstreamConfig UpstreamProtocol

/-- `u16::MAX`. -/
def u16Max : Nat := 65535

/-- `calc_last_visit_score`, with the seconds since the epoch; `config.rs:99–111`. -/
def calcLastVisitScore (stats : ClientStatistics) (now : Nat) (upstreamName : String) : Nat :=
  match stats.upstreams.lookup upstreamName with
  | some stat =>
    let elapsed := if stat.lastActivity ≤ now then now - stat.lastActivity else 0
    if elapsed ≤ u16Max then elapsed else u16Max
  | none => u16Max

variable (config : Config) (t : TrafficType) (stats : ClientStatistics) (now : Nat)

/-- The destination that the rules are asked about; `config.rs:121–133`. -/
def packetDestination (findGeoip : IpAddr → Option CountryCode) (dns : DnsCache) :
    Address → PacketDestination
  | .ip addr => .ip addr (findGeoip addr.ip) (dns.get addr.ip).toList
  | .name host port => .domain host port []

/-- `config.rs:137–140`. -/
def TrafficType.ruleProtocol : TrafficType → RuleProtocol
  | .datagram => .udp
  | .stream => .tcp

/-- The upstreams to keep, with their scores; `iter`, `filter_map` and `collect` of
`config.rs:145–155` and `164–182`. -/
def collect (keep : UpstreamConfig UpstreamProtocol → Bool) : List (Named × Nat) :=
  config.upstreams.entries.filterMap fun ⟨n, c⟩ ↦
    if keep c then some ((n, c), calcLastVisitScore stats now n) else none

/-- The upstreams for a decision of the rules; `config.rs:144–184`. -/
def candidates : Option RuleExecutionResult → List (Named × Nat)
  | none => collect config stats now fun c ↦ !(!c.protocol.supports t || !c.enabled)
  | some (.proxy name) =>
    ((config.upstreams.lookup name).toList.filter fun c ↦ c.enabled).map fun c ↦ ((name, c), 0)
  | some (.proxyGroup name) => collect config stats now fun c ↦
      if !c.protocol.supports t || !c.enabled then false
      else
        match c.groups with
        | some groups => groups.contains name
        | none => true
  | some .reject => []

/-- `find_best_upstream`; `config.rs:114–188`. -/
def findBestUpstream (env : Env) (findGeoip : IpAddr → Option CountryCode) (dns : DnsCache)
    (target : Address) (initialData : Option Bytes) : Outcome ErrorChain (List Named) := do
  let action ← config.settings.trafficRules.executeRules env
    ⟨packetDestination findGeoip dns target, t.ruleProtocol, initialData⟩
  let upstreams := (candidates config t stats now action).mergeSort fun a b ↦ a.2 ≤ b.2
  .ok (upstreams.map Prod.fst)

/-! ### What the decision permits -/

/-- The upstream may carry the traffic, and the decision is for it. -/
def Permitted (decision : Option RuleExecutionResult) (n : String)
    (c : UpstreamConfig UpstreamProtocol) : Prop :=
  c.enabled = true ∧ c.protocol.supports t = true ∧
    match decision with
    | none => True
    | some (.proxy name) => n = name
    | some (.proxyGroup name) => ∀ groups, c.groups = some groups → name ∈ groups
    | some .reject => False

/-- The list has the permitted upstreams, each once, in the order of their scores. -/
structure Exact (decision : Option RuleExecutionResult) (list : List Named) : Prop where
  nodup : (list.map Prod.fst).Nodup
  sorted : list.Pairwise fun a b ↦
    calcLastVisitScore stats now a.1 ≤ calcLastVisitScore stats now b.1
  mem_iff : ∀ n c, (n, c) ∈ list ↔ config.upstreams.lookup n = some c ∧ Permitted t decision n c

/-- The decision is for one upstream, which is enabled but does not carry the traffic. -/
def NamesUnsupported (decision : Option RuleExecutionResult) : Prop :=
  ∃ n c, decision = some (.proxy n) ∧ config.upstreams.lookup n = some c ∧
    c.enabled = true ∧ c.protocol.supports t = false

variable {config t stats now}

theorem mem_collect {keep : UpstreamConfig UpstreamProtocol → Bool} {n : String}
    {c : UpstreamConfig UpstreamProtocol} {score : Nat} :
    ((n, c), score) ∈ collect config stats now keep ↔
      config.upstreams.lookup n = some c ∧ keep c = true ∧
        calcLastVisitScore stats now n = score := by
  rw [collect, List.mem_filterMap, ← Option.mem_def, AList.mem_lookup_iff]
  constructor
  · rintro ⟨⟨m, d⟩, hmem, heq⟩
    dsimp only at heq
    split at heq
    · next hk =>
      simp only [Option.some.injEq, Prod.mk.injEq] at heq
      obtain ⟨⟨rfl, rfl⟩, rfl⟩ := heq
      exact ⟨hmem, hk, rfl⟩
    · cases heq
  · rintro ⟨hmem, hk, rfl⟩
    exact ⟨⟨n, c⟩, hmem, if_pos hk⟩

theorem nodup_collect (keep : UpstreamConfig UpstreamProtocol → Bool) :
    ((collect config stats now keep).map fun u ↦ u.1.1).Nodup := by
  have hsub : ((collect config stats now keep).map fun u ↦ u.1.1).Sublist
      config.upstreams.keys := by
    rw [collect, AList.keys, List.keys]
    induction config.upstreams.entries with
    | nil => exact List.Sublist.slnil
    | cons e es ih =>
      rw [List.filterMap_cons]
      cases hk : keep e.2 with
      | true => simpa [hk] using ih
      | false => simpa [hk] using ih.cons e.1
  exact hsub.nodup config.upstreams.nodupKeys

theorem nodup_candidates (decision : Option RuleExecutionResult) :
    ((candidates config t stats now decision).map fun u ↦ u.1.1).Nodup := by
  match decision with
  | none =>
    rw [candidates]
    exact nodup_collect _
  | some (.proxyGroup name) =>
    rw [candidates]
    exact nodup_collect _
  | some .reject => exact List.nodup_nil
  | some (.proxy name) =>
    rw [candidates]
    cases config.upstreams.lookup name with
    | none => exact List.nodup_nil
    | some c => cases hc : c.enabled <;> simp [hc]

/-- The candidates are the permitted upstreams, and the one that is named. -/
theorem mem_candidates {decision : Option RuleExecutionResult} {n : String}
    {c : UpstreamConfig UpstreamProtocol} :
    (∃ score, ((n, c), score) ∈ candidates config t stats now decision) ↔
      config.upstreams.lookup n = some c ∧ (Permitted t decision n c ∨
        decision = some (.proxy n) ∧ c.enabled = true ∧ c.protocol.supports t = false) := by
  match decision with
  | none =>
    simp only [candidates, mem_collect, Permitted]
    cases c.enabled <;> cases c.protocol.supports t <;> simp
  | some (.proxyGroup name) =>
    simp only [candidates, mem_collect, Permitted]
    cases c.enabled <;> cases c.protocol.supports t <;> cases c.groups <;> simp
  | some .reject => simp [candidates, Permitted]
  | some (.proxy name) =>
    have hmem : (∃ score, ((n, c), score) ∈ candidates config t stats now (some (.proxy name))) ↔
        config.upstreams.lookup name = some c ∧ c.enabled = true ∧ n = name := by
      simp only [candidates, List.mem_map, List.mem_filter, Option.mem_toList, Prod.mk.injEq]
      constructor
      · rintro ⟨_, d, ⟨hd, he⟩, ⟨rfl, rfl⟩, _⟩
        exact ⟨hd, he, rfl⟩
      · rintro ⟨hd, he, rfl⟩
        exact ⟨0, c, ⟨hd, he⟩, ⟨rfl, rfl⟩, rfl⟩
    rw [hmem, Permitted]
    constructor
    · rintro ⟨hd, he, rfl⟩
      cases hs : c.protocol.supports t with
      | true => exact ⟨hd, .inl ⟨he, rfl, rfl⟩⟩
      | false => exact ⟨hd, .inr ⟨rfl, he, rfl⟩⟩
    · rintro ⟨hd, ⟨he, _, rfl⟩ | ⟨heq, he, _⟩⟩
      · exact ⟨hd, he, rfl⟩
      · cases heq
        exact ⟨hd, he, rfl⟩

/-- The sort puts the rows in the order of their scores. -/
theorem pairwise_sorted (rows : List (Named × Nat)) :
    (rows.mergeSort fun a b ↦ a.2 ≤ b.2).Pairwise fun a b ↦ a.2 ≤ b.2 := by
  have h : (rows.mergeSort fun a b ↦ a.2 ≤ b.2).Pairwise fun a b ↦ decide (a.2 ≤ b.2) = true := by
    apply List.pairwise_mergeSort
    · intro a b c hab hbc
      simp only [decide_eq_true_eq] at hab hbc ⊢
      exact Nat.le_trans hab hbc
    · intro a b
      simpa using Nat.le_total a.2 b.2
  exact h.imp of_decide_eq_true

/-- Sorting by the scores in the rows is sorting by the scores of the upstreams. -/
theorem sorted_of_scored {rows : List (Named × Nat)}
    (h : ∀ u ∈ rows, calcLastVisitScore stats now u.1.1 = u.2) :
    ((rows.mergeSort fun a b ↦ a.2 ≤ b.2).map Prod.fst).Pairwise fun a b ↦
      calcLastVisitScore stats now a.1 ≤ calcLastVisitScore stats now b.1 := by
  rw [List.pairwise_map]
  apply (pairwise_sorted rows).imp_of_mem
  intro a b ha hb hab
  rwa [h a (List.mem_mergeSort.mp ha), h b (List.mem_mergeSort.mp hb)]

theorem sorted_candidates (decision : Option RuleExecutionResult) :
    (((candidates config t stats now decision).mergeSort fun a b ↦ a.2 ≤ b.2).map
      Prod.fst).Pairwise fun a b ↦
        calcLastVisitScore stats now a.1 ≤ calcLastVisitScore stats now b.1 := by
  match decision with
  | none =>
    apply sorted_of_scored
    intro u hu
    rw [candidates] at hu
    exact (mem_collect.mp hu).2.2
  | some (.proxyGroup name) =>
    apply sorted_of_scored
    intro u hu
    rw [candidates] at hu
    exact (mem_collect.mp hu).2.2
  | some .reject => simp [candidates]
  | some (.proxy name) =>
    -- of the one upstream there is the order does not show
    rw [candidates]
    cases config.upstreams.lookup name with
    | none => simp
    | some c => cases hc : c.enabled <;> simp [hc]

/-- The choice is exact for a decision, unless it names an upstream that does not carry the
traffic. -/
theorem exact_candidates_iff (decision : Option RuleExecutionResult) :
    Exact config t stats now decision
        (((candidates config t stats now decision).mergeSort fun a b ↦ a.2 ≤ b.2).map Prod.fst) ↔
      ¬ NamesUnsupported config t decision := by
  have hmem (n : String) (c : UpstreamConfig UpstreamProtocol) :
      (n, c) ∈ ((candidates config t stats now decision).mergeSort fun a b ↦ a.2 ≤ b.2).map
          Prod.fst ↔ ∃ score, ((n, c), score) ∈ candidates config t stats now decision := by
    simp
  constructor
  · rintro hexact ⟨n, c, hd, hl, he, hs⟩
    have hin := (hmem n c).mpr (mem_candidates.mpr ⟨hl, .inr ⟨hd, he, hs⟩⟩)
    obtain ⟨_, _, hsup, _⟩ := (hexact.mem_iff n c).mp hin
    rw [hs] at hsup
    cases hsup
  · intro hnot
    constructor
    · rw [List.map_map]
      have hperm := List.mergeSort_perm (candidates config t stats now decision)
        fun a b ↦ decide (a.2 ≤ b.2)
      exact (hperm.map _).nodup_iff.mpr (nodup_candidates decision)
    · exact sorted_candidates decision
    · intro n c
      rw [hmem, mem_candidates]
      refine and_congr_right fun hl ↦ or_iff_left ?_
      rintro ⟨hd, he, hs⟩
      exact hnot ⟨n, c, hd, hl, he, hs⟩

/-- The list has the upstreams that the rules permit, in the order of their scores, exactly
when the rules do not name an enabled upstream that does not carry the traffic. -/
theorem findBestUpstream_exact_iff (config : Config) (t : TrafficType) (stats : ClientStatistics)
    (now : Nat) (env : Env) (findGeoip : IpAddr → Option CountryCode) (dns : DnsCache)
    (target : Address) (initialData : Option Bytes) :
    ∃ decision list,
      config.settings.trafficRules.executeRules env
        ⟨packetDestination findGeoip dns target, t.ruleProtocol, initialData⟩ = .ok decision ∧
      findBestUpstream config t stats now env findGeoip dns target initialData = .ok list ∧
      (Exact config t stats now decision list ↔ ¬ NamesUnsupported config t decision) := by
  refine ⟨_, _, RuleString.executeRules_eq _ _, ?_, exact_candidates_iff _⟩
  rw [findBestUpstream, RuleString.executeRules_eq]
  rfl

/-- One upstream for streams, and a rule that names it. -/
private def streamsOnly : Config where
  upstreams := AList.singleton "u" ⟨.http, none, true⟩
  settings := ⟨⟨AList.singleton "main" [⟨[], none, .proxy "u"⟩]⟩⟩

/-- Datagrams are sent to an upstream that carries streams only. -/
theorem findBestUpstream_sends_unsupported :
    ¬ ∀ (config : Config) (t : TrafficType) (stats : ClientStatistics) (now : Nat) (env : Env)
      (findGeoip : IpAddr → Option CountryCode) (dns : DnsCache) (target : Address)
      (initialData : Option Bytes) (decision : Option RuleExecutionResult) (list : List Named),
      config.settings.trafficRules.executeRules env
        ⟨packetDestination findGeoip dns target, t.ruleProtocol, initialData⟩ = .ok decision →
      findBestUpstream config t stats now env findGeoip dns target initialData = .ok list →
      Exact config t stats now decision list := by
  intro h
  let env : Env := ⟨fun _ _ ↦ false, fun _ _ ↦ false, fun _ _ ↦ false, fun _ ↦ none, fun _ ↦ none⟩
  have hrules (p : Packet) : streamsOnly.settings.trafficRules.executeRules env p =
      .ok (some (.proxy "u")) := by
    rw [RuleString.executeRules_eq, RuleString.executeTable_of_lookup (by omega) rfl,
      RuleString.executeRulesOf_of_decision _ _ rfl rfl]
    rfl
  have hlookup : streamsOnly.upstreams.lookup "u" = some ⟨.http, none, true⟩ := rfl
  have hexact := h streamsOnly .datagram ⟨∅⟩ 0 env (fun _ ↦ none) DnsCache.new (.name "a" 53) none
    _ [("u", ⟨.http, none, true⟩)] (hrules _) (by
      rw [findBestUpstream, hrules, Outcome.ok_bind]
      simp [candidates, hlookup])
  obtain ⟨_, _, hsup, _⟩ := (hexact.mem_iff _ _).mp List.mem_cons_self
  cases hsup

end Cpxy.Client
