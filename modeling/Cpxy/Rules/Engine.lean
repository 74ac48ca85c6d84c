import Cpxy.Rules.Destination
import Mathlib.Data.List.AList
import Mathlib.Data.Nat.PSub

/-!
# The rule engine

Library `Rules`. Source `src/rule.rs:39–70` and `199–289`. Tables of rules are walked in order;
a matching rule decides, returns to the table that jumped here, or jumps. The engine
counts the nesting of jumps and gives up beyond ten.
-/

namespace Cpxy.Rules

open Cpxy.Base Cpxy.Net

/-- `RuleProtocol`; `rule.rs:39–43`. -/
inductive RuleProtocol where
  | tcp
  | udp
  deriving DecidableEq, Repr

/-- `RuleAction`; `rule.rs:45–52`. -/
inductive RuleAction where
  | proxy (name : String)
  | proxyGroup (name : String)
  | reject
  | jump (tableName : String)
  | return
  deriving DecidableEq, Repr

/-- `TableExecuteResult`; `rule.rs:54–59`. -/
inductive TableExecuteResult where
  | proxy (name : String)
  | proxyGroup (name : String)
  | reject
  | return
  deriving DecidableEq, Repr

/-- `Rule`; `rule.rs:61–69`. -/
structure Rule where
  dest : List RuleDestination
  proto : Option RuleProtocol
  action : RuleAction
  deriving DecidableEq

/-- `RuleString` without its text; `rule.rs:169–173`. -/
structure RuleString where
  rules : AList fun _ : String ↦ List Rule

/-- `RuleExecutionResult`; `rule.rs:175–180`. -/
inductive RuleExecutionResult where
  | proxy (name : String)
  | proxyGroup (name : String)
  | reject
  deriving DecidableEq, Repr

/-- The packet that rules are asked about: where it goes, how, and its first bytes. -/
structure Packet where
  target : PacketDestination
  proto : RuleProtocol
  initialData : Option Bytes

variable (env : Env)

/-- The checks of `rule.rs:222–240`: every destination, and the protocol where one is named. -/
def Rule.applies (rule : Rule) (p : Packet) : Bool :=
  (rule.dest.all fun dest ↦ dest.matches env p.target p.initialData) &&
    (match rule.proto with
      | some proto => proto == p.proto
      | none => true)

namespace RuleString

/-- The loop of `rule.rs:221–271`, with the recursive call as `jump`. -/
def executeRulesOf (p : Packet) (jump : String → Option TableExecuteResult) :
    List Rule → Option TableExecuteResult
  | [] => none
  | rule :: rules =>
    if rule.applies env p then
      match rule.action with
      | .jump tableName =>
        match jump tableName with
        | some .return => executeRulesOf p jump rules
        | v => v
      | .proxy name => some (.proxy name)
      | .proxyGroup name => some (.proxyGroup name)
      | .reject => some .reject
      | .return => some .return
    else executeRulesOf p jump rules

/-- `execute_table`; `rule.rs:199–273`. -/
def executeTable (rs : RuleString) (p : Packet) (level : Nat) (tableName : String) :
    Option TableExecuteResult :=
  if _h : level > 10 then none
  else
    match rs.rules.lookup tableName with
    | none => none
    | some rules =>
      executeRulesOf env p (fun tableName ↦ executeTable rs p (level + 1) tableName) rules
termination_by 11 - level

/-- `execute_rules`; `rule.rs:275–289`. -/
def executeRules (rs : RuleString) (p : Packet) :
    Outcome ErrorChain (Option RuleExecutionResult) :=
  match rs.executeTable env p 0 "main" with
  | some (.proxy name) => .ok (some (.proxy name))
  | some (.proxyGroup name) => .ok (some (.proxyGroup name))
  | some .reject => .ok (some .reject)
  | none => .ok none
  | some .return => .ok none

end RuleString

/-! ### Reference semantics -/

/-- What an action decides by itself; a jump decides nothing. -/
def RuleAction.decision : RuleAction → Option TableExecuteResult
  | .proxy name => some (.proxy name)
  | .proxyGroup name => some (.proxyGroup name)
  | .reject => some .reject
  | .return => some .return
  | .jump _ => none

/-- What is evaluated: a table by name, or the rest of one. -/
inductive Subject where
  | table (name : String)
  | rules (rules : List Rule)

/-- Evaluation to an outcome, `none` being no decision. A budget `b` for nested jumps is
used up where `next b` is `none`. -/
inductive Evaluates {β : Type} (next : β → Option β) (rs : RuleString) (p : Packet) :
    β → Subject → Option TableExecuteResult → Prop
  | missing {b t} (hm : rs.rules.lookup t = none) : Evaluates next rs p b (.table t) none
  | table {b t rules o} (hl : rs.rules.lookup t = some rules)
      (he : Evaluates next rs p b (.rules rules) o) : Evaluates next rs p b (.table t) o
  | done {b} : Evaluates next rs p b (.rules []) none
  | skip {b rule rules o} (ha : rule.applies env p = false)
      (he : Evaluates next rs p b (.rules rules) o) :
      Evaluates next rs p b (.rules (rule :: rules)) o
  | decide {b rule rules r} (ha : rule.applies env p = true)
      (hd : rule.action.decision = some r) :
      Evaluates next rs p b (.rules (rule :: rules)) (some r)
  | resume {b b' rule rules t o} (ha : rule.applies env p = true) (hj : rule.action = .jump t)
      (hb : next b = some b') (ht : Evaluates next rs p b' (.table t) (some .return))
      (he : Evaluates next rs p b (.rules rules) o) :
      Evaluates next rs p b (.rules (rule :: rules)) o
  | jump {b b' rule rules t o} (ha : rule.applies env p = true) (hj : rule.action = .jump t)
      (hb : next b = some b') (ht : Evaluates next rs p b' (.table t) o)
      (ho : o ≠ some .return) : Evaluates next rs p b (.rules (rule :: rules)) o
  | exceeded {b rule rules t} (ha : rule.applies env p = true) (hj : rule.action = .jump t)
      (hb : next b = none) : Evaluates next rs p b (.rules (rule :: rules)) none

/-- Evaluation with at most `k` nested jumps. -/
abbrev EvaluatesWithin (rs : RuleString) (p : Packet) (k : Nat) :=
  Evaluates env Nat.ppred rs p k

/-- Evaluation without a limit. -/
abbrev EvaluatesFreely (rs : RuleString) (p : Packet) :=
  Evaluates env (some : Unit → Option Unit) rs p ()

/-- A rule of the one table jumps to the other. -/
def JumpsTo (rs : RuleString) (t u : String) : Prop :=
  ∃ rules, rs.rules.lookup t = some rules ∧ ∃ rule ∈ rules, rule.action = .jump u

/-- A chain of `n` jumps between tables. -/
inductive JumpChain (rs : RuleString) : String → Nat → String → Prop
  | nil (t) : JumpChain rs t 0 t
  | cons {t u v n} (hj : JumpsTo rs t u) (hc : JumpChain rs u n v) : JumpChain rs t (n + 1) v

/-! ### The engine meets the semantics -/

variable {env} {rs : RuleString} {p : Packet}

namespace RuleString

theorem executeTable_of_lookup_none {level : Nat} {t : String} (h : rs.rules.lookup t = none) :
    rs.executeTable env p level t = none := by
  rw [executeTable]
  split
  · rfl
  · rw [h]

theorem executeTable_of_lookup {level : Nat} {t : String} {rules : List Rule} (hle : level ≤ 10)
    (h : rs.rules.lookup t = some rules) :
    rs.executeTable env p level t =
      executeRulesOf env p (rs.executeTable env p (level + 1)) rules := by
  rw [executeTable, dif_neg (by omega), h]

theorem executeTable_of_gt {level : Nat} (t : String) (h : 10 < level) :
    rs.executeTable env p level t = none := by
  rw [executeTable, dif_pos h]

theorem executeRulesOf_of_not_applies {rule : Rule} (jump : String → Option TableExecuteResult)
    (rules : List Rule) (h : rule.applies env p = false) :
    executeRulesOf env p jump (rule :: rules) = executeRulesOf env p jump rules := by
  simp [executeRulesOf, h]

theorem executeRulesOf_of_decision {rule : Rule} {r : TableExecuteResult}
    (jump : String → Option TableExecuteResult) (rules : List Rule)
    (h : rule.applies env p = true) (hd : rule.action.decision = some r) :
    executeRulesOf env p jump (rule :: rules) = some r := by
  cases ha : rule.action with
  | jump t => simp [ha, RuleAction.decision] at hd
  | _ => simpa [executeRulesOf, h, ha, RuleAction.decision] using hd

theorem executeRulesOf_of_return {rule : Rule} {t : String}
    {jump : String → Option TableExecuteResult} (rules : List Rule)
    (h : rule.applies env p = true) (hj : rule.action = .jump t) (ht : jump t = some .return) :
    executeRulesOf env p jump (rule :: rules) = executeRulesOf env p jump rules := by
  simp [executeRulesOf, h, hj, ht]

theorem executeRulesOf_of_jump {rule : Rule} {t : String}
    {jump : String → Option TableExecuteResult} (rules : List Rule)
    (h : rule.applies env p = true) (hj : rule.action = .jump t) (ht : jump t ≠ some .return) :
    executeRulesOf env p jump (rule :: rules) = jump t := by
  rw [executeRulesOf, if_pos h, hj]
  dsimp only
  split
  · next hr => exact absurd hr ht
  · rfl

end RuleString

/-- Every derivation within the budget is what the engine computes. -/
theorem Evaluates.executes {k level : Nat} {s : Subject} {o : Option TableExecuteResult}
    (h : EvaluatesWithin env rs p k s o) (hk : level + k = 10) :
    match s with
    | .table t => rs.executeTable env p level t = o
    | .rules rules =>
      RuleString.executeRulesOf env p (rs.executeTable env p (level + 1)) rules = o := by
  induction h generalizing level with
  | missing hm => exact RuleString.executeTable_of_lookup_none hm
  | table hl _ ih =>
    dsimp only at ih ⊢
    rw [RuleString.executeTable_of_lookup (by omega) hl]
    exact ih hk
  | done => rfl
  | skip ha _ ih =>
    dsimp only at ih ⊢
    rw [RuleString.executeRulesOf_of_not_applies _ _ ha]
    exact ih hk
  | decide ha hd => exact RuleString.executeRulesOf_of_decision _ _ ha hd
  | resume ha hj hb _ _ iht ih =>
    have hb' := Nat.ppred_eq_some.mp hb
    dsimp only at iht ih ⊢
    rw [RuleString.executeRulesOf_of_return _ ha hj (iht (by omega))]
    exact ih hk
  | @jump b b' rule rules t o ha hj hb _ ho iht =>
    have hb' := Nat.ppred_eq_some.mp hb
    dsimp only at iht ⊢
    have ht : rs.executeTable env p (level + 1) t = o := iht (by omega)
    rw [RuleString.executeRulesOf_of_jump _ ha hj (by rwa [ht]), ht]
  | @exceeded b rule rules t ha hj hb =>
    have hb' := Nat.ppred_eq_none.mp hb
    have ht : rs.executeTable env p (level + 1) t = none :=
      RuleString.executeTable_of_gt t (by omega)
    dsimp only
    rw [RuleString.executeRulesOf_of_jump _ ha hj (by rw [ht]; simp), ht]

/-- What the loop computes is derivable when what its jumps compute is. -/
theorem evaluates_rules {β : Type} {next : β → Option β} {b : β}
    {jump : String → Option TableExecuteResult} (rules : List Rule)
    (hnone : next b = none → ∀ t, jump t = none)
    (hsome : ∀ b', next b = some b' → ∀ rule ∈ rules, ∀ t, rule.action = .jump t →
      Evaluates env next rs p b' (.table t) (jump t)) :
    Evaluates env next rs p b (.rules rules) (RuleString.executeRulesOf env p jump rules) := by
  induction rules with
  | nil => exact .done
  | cons rule rules ih =>
    have hrest := ih fun b' hb rule' hm ↦ hsome b' hb rule' (List.mem_cons_of_mem rule hm)
    by_cases ha : rule.applies env p = true
    · cases hd : rule.action.decision with
      | some r =>
        rw [RuleString.executeRulesOf_of_decision _ _ ha hd]
        exact .decide ha hd
      | none =>
        obtain ⟨t, hj⟩ : ∃ t, rule.action = .jump t := by
          cases hact : rule.action with
          | jump t => exact ⟨t, rfl⟩
          | _ => simp [hact, RuleAction.decision] at hd
        cases hb : next b with
        | none =>
          have ht := hnone hb t
          rw [RuleString.executeRulesOf_of_jump _ ha hj (by rw [ht]; simp), ht]
          exact .exceeded ha hj hb
        | some b' =>
          have ht := hsome b' hb rule (List.mem_cons_self) t hj
          by_cases hr : jump t = some .return
          · rw [RuleString.executeRulesOf_of_return _ ha hj hr]
            rw [hr] at ht
            exact .resume ha hj hb ht hrest
          · rw [RuleString.executeRulesOf_of_jump _ ha hj hr]
            exact .jump ha hj hb ht hr
    · rw [Bool.not_eq_true] at ha
      rw [RuleString.executeRulesOf_of_not_applies _ _ ha]
      exact .skip ha hrest

/-- What the engine makes of a table is derivable when what it makes of its jumps is. -/
private theorem evaluates_table {k level : Nat} (t : String) (hle : level ≤ 10)
    (hnone : k.ppred = none → ∀ u, rs.executeTable env p (level + 1) u = none)
    (hsome : ∀ k', k.ppred = some k' → ∀ u,
      EvaluatesWithin env rs p k' (.table u) (rs.executeTable env p (level + 1) u)) :
    EvaluatesWithin env rs p k (.table t) (rs.executeTable env p level t) := by
  cases hl : rs.rules.lookup t with
  | none =>
    rw [RuleString.executeTable_of_lookup_none hl]
    exact .missing hl
  | some rules =>
    rw [RuleString.executeTable_of_lookup hle hl]
    apply Evaluates.table hl
    apply evaluates_rules rules hnone
    intro k' hk' rule _ u _
    exact hsome k' hk' u

/-- The engine's result at a level is derivable with the jumps that are left. -/
theorem evaluates_executeTable {k level : Nat} (t : String) (hk : level + k = 10) :
    EvaluatesWithin env rs p k (.table t) (rs.executeTable env p level t) := by
  -- on the jumps left, with the loop handled by `evaluates_rules`
  induction k generalizing level t with
  | zero =>
    apply evaluates_table t (by omega)
    · intro _ u
      exact RuleString.executeTable_of_gt u (by omega)
    · intro k' hk'
      simp at hk'
  | succ k ih =>
    apply evaluates_table t (by omega)
    · intro hnone
      simp at hnone
    · intro k' hk' u
      obtain rfl : k = k' := by simpa using hk'
      exact ih u (by omega)

/-- The engine computes the one outcome that is derivable within the limit. -/
theorem evaluatesWithin_iff {k level : Nat} (t : String) (o : Option TableExecuteResult)
    (hk : level + k = 10) :
    EvaluatesWithin env rs p k (.table t) o ↔ rs.executeTable env p level t = o := by
  constructor
  · intro h
    exact h.executes hk
  · intro h
    rw [← h]
    exact evaluates_executeTable t hk

/-! ### The limit does not show on short chains -/

/-- Evaluation carries over to another budget that allows the same jumps. -/
theorem Evaluates.transfer {β γ : Type} {next : β → Option β} {next' : γ → Option γ}
    {R : β → γ → Subject → Prop}
    (htable : ∀ b c t rules, R b c (.table t) → rs.rules.lookup t = some rules →
      R b c (.rules rules))
    (htail : ∀ b c rule rules, R b c (.rules (rule :: rules)) → R b c (.rules rules))
    (hjump : ∀ b c rule rules t b', R b c (.rules (rule :: rules)) → rule.action = .jump t →
      next b = some b' → ∃ c', next' c = some c' ∧ R b' c' (.table t))
    (hstop : ∀ b c rule rules t, R b c (.rules (rule :: rules)) → rule.action = .jump t →
      next b = none → next' c = none)
    {b : β} {c : γ} {s : Subject} {o : Option TableExecuteResult}
    (h : Evaluates env next rs p b s o) (hR : R b c s) : Evaluates env next' rs p c s o := by
  induction h generalizing c with
  | missing hm => exact .missing hm
  | table hl _ ih => exact .table hl (ih (htable _ _ _ _ hR hl))
  | done => exact .done
  | skip ha _ ih => exact .skip ha (ih (htail _ _ _ _ hR))
  | decide ha hd => exact .decide ha hd
  | resume ha hj hb _ _ iht ih =>
    obtain ⟨c', hc, hR'⟩ := hjump _ _ _ _ _ _ hR hj hb
    exact .resume ha hj hc (iht hR') (ih (htail _ _ _ _ hR))
  | jump ha hj hb _ ho iht =>
    obtain ⟨c', hc, hR'⟩ := hjump _ _ _ _ _ _ hR hj hb
    exact .jump ha hj hc (iht hR') ho
  | exceeded ha hj hb => exact .exceeded ha hj (hstop _ _ _ _ _ hR hj hb)

/-- Every chain of jumps that starts in the subject has at most `k` of them. -/
def Bounded (rs : RuleString) (k : Nat) : Subject → Prop
  | .table t => ∀ n u, JumpChain rs t n u → n ≤ k
  | .rules rules => ∀ rule ∈ rules, ∀ t, rule.action = .jump t →
      ∀ n u, JumpChain rs t n u → n + 1 ≤ k

theorem Bounded.rules {k : Nat} {t : String} {rules : List Rule}
    (h : Bounded rs k (.table t)) (hl : rs.rules.lookup t = some rules) :
    Bounded rs k (.rules rules) := by
  intro rule hm u hj n v hc
  exact h (n + 1) v (.cons ⟨rules, hl, rule, hm, hj⟩ hc)

theorem Bounded.tail {k : Nat} {rule : Rule} {rules : List Rule}
    (h : Bounded rs k (.rules (rule :: rules))) : Bounded rs k (.rules rules) := by
  intro rule' hm
  exact h rule' (List.mem_cons_of_mem rule hm)

theorem Bounded.target {k : Nat} {rule : Rule} {rules : List Rule} {t : String}
    (h : Bounded rs k (.rules (rule :: rules))) (hj : rule.action = .jump t) :
    ∃ k', k = k' + 1 ∧ Bounded rs k' (.table t) := by
  have hpos := h rule List.mem_cons_self t hj 0 t (.nil t)
  refine ⟨k - 1, by omega, ?_⟩
  intro n u hc
  have := h rule List.mem_cons_self t hj n u hc
  omega

/-- On chains of at most `k` jumps a limit of `k` changes no outcome. -/
theorem evaluatesFreely_iff {k : Nat} {t : String} (hc : ∀ n u, JumpChain rs t n u → n ≤ k)
    (o : Option TableExecuteResult) :
    EvaluatesFreely env rs p (.table t) o ↔ EvaluatesWithin env rs p k (.table t) o := by
  constructor
  · intro h
    apply Evaluates.transfer (R := fun _ k s ↦ Bounded rs k s) _ _ _ _ h hc
    · intro _ k t rules hb hl
      exact hb.rules hl
    · intro _ k rule rules hb
      exact hb.tail
    · intro _ k rule rules t _ hb hj _
      obtain ⟨k', rfl, hb'⟩ := hb.target hj
      exact ⟨k', Nat.ppred_succ, hb'⟩
    · intro _ k rule rules t _ _ hn
      cases hn
  · intro h
    apply Evaluates.transfer (R := fun k _ s ↦ Bounded rs k s) _ _ _ _ h hc
    · intro k _ t rules hb hl
      exact hb.rules hl
    · intro k _ rule rules hb
      exact hb.tail
    · intro k _ rule rules t k' hb hj hk
      obtain ⟨k'', rfl, hb'⟩ := hb.target hj
      obtain rfl : k'' = k' := by simpa using hk
      exact ⟨(), rfl, hb'⟩
    · intro k _ rule rules t hb hj hk
      obtain ⟨k', rfl, _⟩ := hb.target hj
      simp at hk

/-- The decision that an outcome of the main table stands for. -/
def RuleExecutionResult.ofOutcome : Option TableExecuteResult → Option RuleExecutionResult
  | some (.proxy name) => some (.proxy name)
  | some (.proxyGroup name) => some (.proxyGroup name)
  | some .reject => some .reject
  | some .return => none
  | none => none

/-- The outcome of the main table that gives a decision. -/
def RuleExecutionResult.outcome : RuleExecutionResult → TableExecuteResult
  | .proxy name => .proxy name
  | .proxyGroup name => .proxyGroup name
  | .reject => .reject

theorem RuleExecutionResult.ofOutcome_eq_some (o : Option TableExecuteResult)
    (r : RuleExecutionResult) : ofOutcome o = some r ↔ o = some r.outcome := by
  rcases o with _ | (_ | _ | _ | _) <;> cases r <;> simp [ofOutcome, outcome]

theorem RuleString.executeRules_eq (rs : RuleString) (p : Packet) :
    rs.executeRules env p =
      .ok (RuleExecutionResult.ofOutcome (rs.executeTable env p 0 "main")) := by
  rw [RuleString.executeRules]
  rcases rs.executeTable env p 0 "main" with _ | (_ | _ | _ | _) <;> rfl

/-- The engine decides what the semantics with at most ten nested jumps derives. That
semantics gives every map one outcome, and where no chain of jumps from the main table is
longer than ten, it is the outcome without a limit. -/
theorem executeRules_meets_semantics (env : Env) (rs : RuleString) (p : Packet) :
    (∀ r, rs.executeRules env p = .ok (some r) ↔
      EvaluatesWithin env rs p 10 (.table "main") (some r.outcome)) ∧
    (∃! o, EvaluatesWithin env rs p 10 (.table "main") o) ∧
    ((∀ n u, JumpChain rs "main" n u → n ≤ 10) →
      ∃ o, (∀ o', EvaluatesFreely env rs p (.table "main") o' ↔ o' = o) ∧
        rs.executeRules env p = .ok (RuleExecutionResult.ofOutcome o)) := by
  have hiff (o : Option TableExecuteResult) :
      EvaluatesWithin env rs p 10 (.table "main") o ↔ rs.executeTable env p 0 "main" = o :=
    evaluatesWithin_iff "main" o rfl
  refine ⟨?_, ?_, ?_⟩
  · intro r
    rw [hiff, RuleString.executeRules_eq, Outcome.ok.injEq,
      RuleExecutionResult.ofOutcome_eq_some]
  · refine ⟨_, (hiff _).mpr rfl, ?_⟩
    intro o ho
    exact ((hiff o).mp ho).symm
  · intro hc
    refine ⟨_, ?_, RuleString.executeRules_eq rs p⟩
    intro o'
    rw [evaluatesFreely_iff hc, hiff]
    exact eq_comm

end Cpxy.Rules
