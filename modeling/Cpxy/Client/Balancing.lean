import Cpxy.Client.Serve
import Cpxy.Client.Upstreams

/-!
# Balancing the upstreams

Library `Client`. Source `src/client/common.rs:13–56` and `src/client/stats.rs:35–42`.
Connections look for their upstreams at the same time. Each asks for a list once, tries it from
its end, and leaves the time with the upstream that it gets through. So what has not been used
for longest goes first, as far back as sixteen bits of seconds can tell.
-/

namespace Cpxy.Client

open Cpxy.Base Cpxy.Net Cpxy.Rules

/-- `update_upstream`, with the seconds since the epoch and the milliseconds that it took;
`stats.rs:35–42`. -/
def ClientStatistics.updateUpstream (stats : ClientStatistics) (name : String)
    (now latency : Nat) : ClientStatistics :=
  match stats.upstreams.lookup name with
  | some s => ⟨stats.upstreams.insert name { s with lastActivity := now, lastLatency := latency }⟩
  | none => stats

/-- What a connection asks for its list with; `common.rs:19–20`. -/
structure Asked where
  now : Nat
  env : Env
  findGeoip : IpAddr → Option CountryCode
  dns : DnsCache
  target : Address
  initialData : Option Bytes

/-- The packet that the rules are asked about. -/
def Asked.packet (a : Asked) : Packet :=
  ⟨packetDestination a.findGeoip a.dns a.target, .tcp, a.initialData⟩

/-- How far the loop is: it waits for an upstream, with the others that are left, or is done. -/
inductive Trying where
  | connecting (u : Named) (upstreams : List Named)
  | done (result : Outcome ErrorChain String)

/-- The head of the loop, and what follows it; `common.rs:24` and `55`. -/
def Trying.pop (upstreams : List Named) (lastError : Option ErrorChain) : Trying :=
  match upstreams.getLast? with
  | some u => .connecting u upstreams.dropLast
  | none => .done (.err (lastError.getD ["No upstream available"]))

/-- What an upstream answers: that there is a stream, or an error, which gets a context;
`common.rs:37–53`. -/
def Trying.answer : Trying → Except ErrorChain Unit → Trying
  | .connecting u _, .ok () => .done (.ok u.1)
  | .connecting u upstreams, .error e =>
    .pop upstreams (some (s!"Requesting new streaming connection from {u.1}" :: e))
  | .done result, _ => .done result

/-- From the list to the loop; `common.rs:19–24`. -/
def Trying.begin (config : Config) (stats : ClientStatistics) (a : Asked) : Trying :=
  match findBestUpstream config .stream stats a.now a.env a.findGeoip a.dns a.target
      a.initialData with
  | .ok upstreams => .pop upstreams none
  | .err e => .done (.err e)
  | .panicked => .done .panicked

/-- A connection in `find_and_connect_stream`. Beside it stand the uses of upstreams before it
asked, and the upstreams that failed it. -/
structure Connecting where
  asked : Asked
  before : List (String × Nat)
  trying : Trying
  tried : List String

/-- The statistics and the connections that share them. Beside them stand the uses of upstreams,
with their times. -/
structure Balancer where
  stats : ClientStatistics
  connections : List Connecting
  uses : List (String × Nat)

namespace Balancer

/-- A connection asks, or the upstream that one waits for answers: with the time and the latency
when there is a stream. -/
inductive Event where
  | ask (a : Asked)
  | answer (i : Nat) (r : Except ErrorChain (Nat × Nat))

def start (stats : ClientStatistics) : Balancer := ⟨stats, [], []⟩

/-- A connection asks for its list; `common.rs:19–24`. -/
def ask (config : Config) (s : Balancer) (a : Asked) : Balancer :=
  { s with connections := s.connections ++ [⟨a, s.uses, .begin config s.stats a, []⟩] }

/-- An upstream answers a connection that waits for it; `common.rs:37–53`. -/
def answer (s : Balancer) (i : Nat) (c : Connecting) (n : String) :
    Except ErrorChain (Nat × Nat) → Balancer
  | .ok (now, latency) =>
    { stats := s.stats.updateUpstream n now latency
      connections := s.connections.set i { c with trying := c.trying.answer (.ok ()) }
      uses := s.uses ++ [(n, now)] }
  | .error e =>
    let c := { c with trying := c.trying.answer (.error e), tried := n :: c.tried }
    { s with connections := s.connections.set i c }

/-- One step of some connection. -/
def step (config : Config) (s : Balancer) : Event → Balancer
  | .ask a => s.ask config a
  | .answer i r =>
    match s.connections[i]? with
    | some c =>
      match c.trying with
      | .connecting u _ => s.answer i c u.1 r
      | .done _ => s
    | none => s

end Balancer

/-! ### What is used next -/

/-- The time of the last use among these, or the one that the statistics had. -/
def lastUsed (stats : ClientStatistics) (uses : List (String × Nat)) (n : String) : Option Nat :=
  (stats.upstreams.lookup n).map fun s ↦
    ((uses.filter fun u ↦ u.1 = n).getLast?.map Prod.snd).getD s.lastActivity

/-- For how long an upstream has not been used, as far as sixteen bits tell. One without
statistics has not been used for longest. -/
def unusedFor (stats : ClientStatistics) (uses : List (String × Nat)) (now : Nat) (n : String) :
    Nat :=
  match lastUsed stats uses n with
  | some t => min (now - t) u16Max
  | none => u16Max

/-- An upstream is on the list for a decision: it is permitted, or named although it carries no
streams. -/
def OfferedAs (config : Config) (decision : Option RuleExecutionResult) (u : Named) : Prop :=
  config.upstreams.lookup u.1 = some u.2 ∧ (Permitted .stream decision u.1 u.2 ∨
    decision = some (.proxy u.1) ∧ u.2.enabled = true ∧ u.2.protocol.supports .stream = false)

def Offered (config : Config) (decision : Option RuleExecutionResult) (n : String) : Prop :=
  ∃ c, OfferedAs config decision (n, c)

/-- The names of a list are those that are left, the one that is tried, and those that failed. -/
def Trying.Splits (names tried : List String) : Trying → Prop
  | .connecting u upstreams => names = upstreams.map Prod.fst ++ u.1 :: tried
  | .done (.ok n) => ∃ left, names = left ++ n :: tried
  | .done (.err _) => names = tried
  | .done .panicked => False

/-- A connection goes through the upstreams that are offered for the decision of the rules, in
the order in which they had been used when it asked. -/
structure Connecting.InOrder (config : Config) (stats : ClientStatistics)
    (uses : List (String × Nat)) (c : Connecting) (decision : Option RuleExecutionResult)
    (names : List String) : Prop where
  decided : config.settings.trafficRules.executeRules c.asked.env c.asked.packet = .ok decision
  mem_iff : ∀ n, n ∈ names ↔ Offered config decision n
  sorted : names.Pairwise fun m n ↦
    unusedFor stats c.before c.asked.now m ≤ unusedFor stats c.before c.asked.now n
  before : c.before <+: uses
  splits : c.trying.Splits names c.tried

/-- The upstream that a connection got through. -/
def Connecting.chosen (c : Connecting) : Option String :=
  match c.trying with
  | .done (.ok n) => some n
  | _ => none

/-- The statistics have the last uses, each of them by a connection, and every connection goes in
order. -/
structure Balancer.Inv (config : Config) (stats : ClientStatistics) (s : Balancer) : Prop where
  chosen : (s.connections.filterMap Connecting.chosen).Perm (s.uses.map Prod.fst)
  used : ∀ n, (s.stats.upstreams.lookup n).map UpstreamStatistics.lastActivity =
    lastUsed stats s.uses n
  inOrder : ∀ c ∈ s.connections, ∃ decision names, c.InOrder config stats s.uses decision names

variable {config : Config} {stats : ClientStatistics} {s : Balancer}

theorem lookup_updateUpstream (name n : String) (now latency : Nat) :
    ((stats.updateUpstream name now latency).upstreams.lookup n).map
        UpstreamStatistics.lastActivity =
      if n = name then (stats.upstreams.lookup n).map fun _ ↦ now
      else (stats.upstreams.lookup n).map UpstreamStatistics.lastActivity := by
  rw [ClientStatistics.updateUpstream]
  by_cases hn : n = name
  · subst hn
    rw [if_pos rfl]
    cases h : stats.upstreams.lookup n with
    | none => simp [h]
    | some st => simp
  · rw [if_neg hn]
    cases h : stats.upstreams.lookup name with
    | none => rfl
    | some st => simp [AList.lookup_insert_ne hn]

theorem lastUsed_append (stats : ClientStatistics) (uses : List (String × Nat)) (name n : String)
    (now : Nat) :
    lastUsed stats (uses ++ [(name, now)]) n =
      if n = name then (stats.upstreams.lookup n).map fun _ ↦ now else lastUsed stats uses n := by
  rw [lastUsed, lastUsed, List.filter_append]
  by_cases hn : n = name
  · subst hn
    simp
  · have hne : name ≠ n := fun h ↦ hn h.symm
    simp [hn, hne]

/-- The score of an upstream is how long it has not been used. -/
theorem calcLastVisitScore_eq (stats' : ClientStatistics) (uses : List (String × Nat))
    (h : ∀ n, (stats'.upstreams.lookup n).map UpstreamStatistics.lastActivity =
      lastUsed stats uses n) (now : Nat) (n : String) :
    calcLastVisitScore stats' now n = unusedFor stats uses now n := by
  rw [calcLastVisitScore, unusedFor, ← h n]
  cases stats'.upstreams.lookup n with
  | none => rfl
  | some st =>
    dsimp only [Option.map_some]
    split <;> split <;> omega

theorem Trying.splits_pop {names tried : List String} {upstreams : List Named}
    (h : names = upstreams.map Prod.fst ++ tried) (lastError : Option ErrorChain) :
    (Trying.pop upstreams lastError).Splits names tried := by
  rw [Trying.pop]
  cases hlast : upstreams.getLast? with
  | none =>
    rw [List.getLast?_eq_none_iff] at hlast
    subst hlast
    exact h
  | some u =>
    obtain ⟨front, rfl⟩ := List.getLast?_eq_some_iff.mp hlast
    dsimp only [Trying.Splits]
    rw [h, List.dropLast_concat, List.map_append, List.append_assoc]
    rfl

theorem Trying.foldl_done (result : Outcome ErrorChain String)
    (rs : List (Except ErrorChain Unit)) :
    rs.foldl Trying.answer (.done result) = .done result := by
  induction rs with
  | nil => rfl
  | cons r rs ih => exact ih

/-- When every upstream of a list has its answer, the loop comes to what `connectFirst` finds for
these answers, from the end of the list on. -/
theorem Trying.foldl_answer (initialData : Option Bytes)
    (answers : Named → Except ErrorChain Unit) (upstreams : List Named)
    (lastError : Option ErrorChain) :
    ∃ result, (upstreams.reverse.map answers).foldl Trying.answer (.pop upstreams lastError) =
        .done result ∧
      (result >>= fun _ ↦ .ok ⟨initialData, []⟩) =
        connectFirst initialData (upstreams.reverse.map fun u ↦
          (answers u).mapError (s!"Requesting new streaming connection from {u.1}" :: ·))
          lastError := by
  obtain ⟨order, rfl⟩ : ∃ order, upstreams = order.reverse :=
    ⟨upstreams.reverse, upstreams.reverse_reverse.symm⟩
  rw [List.reverse_reverse]
  -- the induction is on the order in which the upstreams are tried
  induction order generalizing lastError with
  | nil => exact ⟨_, rfl, rfl⟩
  | cons u order ih =>
    have hpop : Trying.pop (u :: order).reverse lastError = .connecting u order.reverse := by
      rw [List.reverse_cons, Trying.pop, List.getLast?_concat]
      dsimp only
      rw [List.dropLast_concat]
    rw [List.map_cons, List.map_cons, List.foldl_cons, hpop]
    cases answers u with
    | ok _ => exact ⟨_, Trying.foldl_done _ _, rfl⟩
    | error e => exact ih _

/-- The list that a connection gets has the upstreams that are offered, the one that has not been
used for longest at its end. -/
theorem findBestUpstream_offered (config : Config) (stats : ClientStatistics) (a : Asked) :
    ∃ decision list, config.settings.trafficRules.executeRules a.env a.packet = .ok decision ∧
      findBestUpstream config .stream stats a.now a.env a.findGeoip a.dns a.target
        a.initialData = .ok list ∧
      (∀ u, u ∈ list ↔ OfferedAs config decision u) ∧
      (list.map Prod.fst).Pairwise fun m n ↦
        calcLastVisitScore stats a.now m ≤ calcLastVisitScore stats a.now n := by
  obtain ⟨decision, hrules⟩ : ∃ decision,
      config.settings.trafficRules.executeRules a.env a.packet = .ok decision :=
    ⟨_, RuleString.executeRules_eq config.settings.trafficRules a.packet⟩
  have hsorted := @sorted_candidates config .stream stats a.now decision
  refine ⟨decision, _, hrules, ?_, ?_, List.pairwise_map.mpr hsorted⟩
  · rw [findBestUpstream]
    rw [Asked.packet] at hrules
    rw [TrafficType.ruleProtocol, hrules]
    rfl
  · intro u
    simp only [List.mem_map, List.mem_mergeSort, OfferedAs]
    constructor
    · rintro ⟨row, hrow, rfl⟩
      exact mem_candidates.mp ⟨row.2, hrow⟩
    · intro hu
      obtain ⟨score, hmem⟩ := mem_candidates.mpr hu
      exact ⟨((u.1, u.2), score), hmem, rfl⟩

theorem Connecting.InOrder.append {uses : List (String × Nat)} {c : Connecting}
    {decision : Option RuleExecutionResult} {names : List String}
    (h : c.InOrder config stats uses decision names) (more : List (String × Nat)) :
    c.InOrder config stats (uses ++ more) decision names :=
  { h with before := h.before.trans (List.prefix_append uses more) }

theorem Connecting.chosen_pop (c : Connecting) (upstreams : List Named)
    (lastError : Option ErrorChain) (tried : List String) :
    Connecting.chosen { c with trying := .pop upstreams lastError, tried := tried } = none := by
  rw [Connecting.chosen, Trying.pop]
  cases upstreams.getLast? <;> rfl

/-- An element in its list, and the list with another in its place. -/
theorem eq_append_of_getElem? {α : Type} {l : List α} {i : Nat} {a : α} (h : l[i]? = some a) :
    ∃ front back, l = front ++ a :: back ∧ ∀ b, l.set i b = front ++ b :: back := by
  obtain ⟨hi, rfl⟩ := List.getElem?_eq_some_iff.mp h
  refine ⟨l.take i, l.drop (i + 1), ?_, fun b ↦ ?_⟩
  · rw [List.getElem_cons_drop hi, List.take_append_drop]
  · rw [List.set_eq_take_append_cons_drop, if_pos hi]

namespace Balancer

theorem inv_start (config : Config) (stats : ClientStatistics) :
    Inv config stats (start stats) where
  chosen := .refl []
  used n := by
    rw [lastUsed]
    cases h : stats.upstreams.lookup n <;> simp [start, h]
  inOrder c hc := absurd hc List.not_mem_nil

theorem Inv.ask (h : Inv config stats s) (a : Asked) : Inv config stats (s.ask config a) := by
  obtain ⟨decision, list, hrules, hlist, hmem, hsorted⟩ :=
    findBestUpstream_offered config s.stats a
  have hbegin : Trying.begin config s.stats a = .pop list none := by rw [Trying.begin, hlist]
  constructor
  · have hnone : Connecting.chosen ⟨a, s.uses, Trying.begin config s.stats a, []⟩ = none := by
      rw [hbegin]
      exact Connecting.chosen_pop ⟨a, s.uses, .done .panicked, []⟩ list none []
    simp only [Balancer.ask, List.filterMap_append, List.filterMap_cons, hnone,
      List.filterMap_nil, List.append_nil]
    exact h.chosen
  · exact h.used
  · intro c hc
    rcases List.mem_append.mp hc with hc | hc
    · exact h.inOrder c hc
    · rw [List.mem_singleton.mp hc]
      refine ⟨decision, list.map Prod.fst, hrules, fun n ↦ ?_, ?_, List.prefix_refl _, ?_⟩
      · simp only [List.mem_map, hmem, Offered]
        constructor
        · rintro ⟨u, hu, rfl⟩
          exact ⟨u.2, hu⟩
        · rintro ⟨c, hc⟩
          exact ⟨(n, c), hc, rfl⟩
      · exact hsorted.imp fun hle ↦ by
          rwa [calcLastVisitScore_eq s.stats s.uses h.used,
            calcLastVisitScore_eq s.stats s.uses h.used] at hle
      · dsimp only
        rw [hbegin]
        exact Trying.splits_pop (List.append_nil _).symm none

/-- What an answer leaves of the connections. -/
theorem Inv.set (h : Inv config stats s) {i : Nat} {c : Connecting} (c' : Connecting)
    (hi : s.connections[i]? = some c) (hc : c.chosen = none) (uses : List (String × Nat))
    (hchosen : c'.chosen.toList = uses.map Prod.fst)
    (hc' : ∀ decision names, c.InOrder config stats s.uses decision names →
      c'.InOrder config stats (s.uses ++ uses) decision names) :
    ((s.connections.set i c').filterMap Connecting.chosen).Perm
        ((s.uses ++ uses).map Prod.fst) ∧
      ∀ d ∈ s.connections.set i c', ∃ decision names,
        d.InOrder config stats (s.uses ++ uses) decision names := by
  obtain ⟨front, back, hconns, hset⟩ := eq_append_of_getElem? hi
  rw [hset]
  constructor
  · have hperm := h.chosen
    rw [hconns, List.filterMap_append, List.filterMap_cons_none hc] at hperm
    have hcons : (c' :: back).filterMap Connecting.chosen =
        c'.chosen.toList ++ back.filterMap Connecting.chosen := by
      rw [List.filterMap_cons]
      cases c'.chosen <;> rfl
    rw [List.filterMap_append, hcons, hchosen, List.map_append, ← List.append_assoc]
    apply List.Perm.trans _ (hperm.append_right _)
    rw [List.append_assoc, List.append_assoc]
    exact List.perm_append_comm.append_left _
  · intro d hd
    have hmem : d = c' ∨ d ∈ s.connections := by
      rw [hconns]
      rcases List.mem_append.mp hd with hd | hd
      · exact .inr (List.mem_append_left _ hd)
      · rcases List.mem_cons.mp hd with rfl | hd
        · exact .inl rfl
        · exact .inr (List.mem_append_right _ (List.mem_cons_of_mem _ hd))
    rcases hmem with rfl | hd
    · obtain ⟨decision, names, horder⟩ := h.inOrder c (List.mem_of_getElem? hi)
      exact ⟨decision, names, hc' decision names horder⟩
    · obtain ⟨decision, names, horder⟩ := h.inOrder d hd
      exact ⟨decision, names, horder.append uses⟩

theorem Inv.answer (h : Inv config stats s) {i : Nat} {c : Connecting} {u : Named}
    {upstreams : List Named} (hi : s.connections[i]? = some c)
    (hc : c.trying = .connecting u upstreams) (r : Except ErrorChain (Nat × Nat)) :
    Inv config stats (s.answer i c u.1 r) := by
  have hnone : c.chosen = none := by rw [Connecting.chosen, hc]
  match r with
  | .ok (now, latency) =>
    have hok : c.trying.answer (.ok ()) = .done (.ok u.1) := by rw [hc, Trying.answer]
    obtain ⟨hperm, horder⟩ := h.set { c with trying := c.trying.answer (.ok ()) } hi hnone
      [(u.1, now)] (by rw [Connecting.chosen, hok]; rfl) fun decision names hd ↦ by
        have hsplits := hd.splits
        rw [hc] at hsplits
        refine { hd.append [(u.1, now)] with splits := ?_ }
        dsimp only
        rw [hok]
        exact ⟨_, hsplits⟩
    refine ⟨hperm, fun n ↦ ?_, horder⟩
    dsimp only [Balancer.answer]
    rw [lookup_updateUpstream, lastUsed_append, ← h.used n]
    split
    · have hused := h.used n
      rw [lastUsed] at hused
      cases hs : s.stats.upstreams.lookup n <;> cases hstats : stats.upstreams.lookup n <;>
        simp [hs, hstats] at hused ⊢
    · rfl
  | .error e =>
    have herr : c.trying.answer (.error e) =
        .pop upstreams (some (s!"Requesting new streaming connection from {u.1}" :: e)) := by
      rw [hc, Trying.answer]
    obtain ⟨hperm, horder⟩ := h.set
      { c with trying := c.trying.answer (.error e), tried := u.1 :: c.tried } hi hnone []
      (by rw [herr, Connecting.chosen_pop]; rfl) fun decision names hd ↦ by
        have hsplits := hd.splits
        rw [hc] at hsplits
        refine { hd.append [] with splits := ?_ }
        dsimp only
        rw [herr]
        exact Trying.splits_pop hsplits _
    rw [List.append_nil] at hperm horder
    exact ⟨hperm, h.used, horder⟩

theorem Inv.step (h : Inv config stats s) (e : Event) : Inv config stats (s.step config e) := by
  cases e with
  | ask a => exact h.ask a
  | answer i r =>
    rw [Balancer.step]
    cases hi : s.connections[i]? with
    | none => exact h
    | some c =>
      dsimp only
      cases hc : c.trying with
      | done result => exact h
      | connecting u upstreams => exact h.answer hi hc r

end Balancer

/-- The upstreams in front of one that was got through had been used less long ago. -/
theorem Connecting.InOrder.chosen {uses : List (String × Nat)} {c : Connecting}
    {decision : Option RuleExecutionResult} {names : List String} {n : String}
    (h : c.InOrder config stats uses decision names) (hc : c.trying = .done (.ok n)) :
    Offered config decision n ∧ ∀ m, Offered config decision m → m ∈ c.tried ∨
      unusedFor stats c.before c.asked.now m ≤ unusedFor stats c.before c.asked.now n := by
  have hsplits := h.splits
  rw [hc] at hsplits
  obtain ⟨left, rfl⟩ := hsplits
  refine ⟨(h.mem_iff n).mp (List.mem_append_right _ List.mem_cons_self), fun m hm ↦ ?_⟩
  rcases List.mem_append.mp ((h.mem_iff m).mpr hm) with hleft | hrest
  · exact .inr ((List.pairwise_append.mp h.sorted).2.2 m hleft n List.mem_cons_self)
  · rcases List.mem_cons.mp hrest with rfl | htried
    · exact .inr (Nat.le_refl _)
    · exact .inl htried

/-- An upstream is not used again, within the time that sixteen bits tell, before every other that
is offered and answers has been used since. -/
theorem Connecting.InOrder.rotates {uses : List (String × Nat)} {c : Connecting}
    {decision : Option RuleExecutionResult} {names : List String} {n m : String} {u : Nat}
    (h : c.InOrder config stats uses decision names) (hc : c.trying = .done (.ok n))
    (hu : lastUsed stats c.before n = some u) (hnow : u ≤ c.asked.now)
    (hrecent : c.asked.now - u < u16Max) (hm : Offered config decision m) (htried : m ∉ c.tried) :
    ∃ v, lastUsed stats c.before m = some v ∧ u ≤ v := by
  have hle := ((h.chosen hc).2 m hm).resolve_left htried
  rw [unusedFor, unusedFor, hu] at hle
  cases hv : lastUsed stats c.before m with
  | none =>
    rw [hv] at hle
    dsimp only at hle
    omega
  | some v =>
    rw [hv] at hle
    dsimp only at hle
    exact ⟨v, rfl, by omega⟩

/-- However the connections interleave, the statistics have the last uses of the upstreams, and
there is one for each connection that got through. Such a connection has its stream from an
upstream that the rules offer, and each of these that had not been used for longer when it asked
has failed it. One that fails was failed by all of them. -/
theorem connections_balanced (config : Config) (stats : ClientStatistics)
    (events : List Balancer.Event) :
    let s := runFrom (Balancer.step config) (.start stats) events
    (∀ n, (s.stats.upstreams.lookup n).map UpstreamStatistics.lastActivity =
        lastUsed stats s.uses n) ∧
      (s.connections.filterMap Connecting.chosen).Perm (s.uses.map Prod.fst) ∧
      ∀ c ∈ s.connections, c.before <+: s.uses ∧ ∃ decision,
        config.settings.trafficRules.executeRules c.asked.env c.asked.packet = .ok decision ∧
        (∀ n, c.trying = .done (.ok n) → Offered config decision n ∧
          ∀ m, Offered config decision m → m ∈ c.tried ∨
            unusedFor stats c.before c.asked.now m ≤ unusedFor stats c.before c.asked.now n) ∧
        (∀ e, c.trying = .done (.err e) → ∀ m, Offered config decision m ↔ m ∈ c.tried) ∧
        c.trying ≠ .done .panicked := by
  intro s
  have hinv : Balancer.Inv config stats s :=
    runFrom_invariant (fun _ e h ↦ h.step e) (Balancer.inv_start config stats) events
  refine ⟨hinv.used, hinv.chosen, fun c hc ↦ ?_⟩
  obtain ⟨decision, names, horder⟩ := hinv.inOrder c hc
  have hsplits := horder.splits
  refine ⟨horder.before, decision, horder.decided, fun n hn ↦ horder.chosen hn, fun e he m ↦ ?_,
    fun hpanic ↦ ?_⟩
  · rw [he] at hsplits
    rw [← horder.mem_iff, hsplits]
  · rw [hpanic] at hsplits
    exact hsplits

end Cpxy.Client
