import Cpxy.Rules.Engine

/-!
# Rules that do not matter

Library `Rules`. Source `src/rule.rs:199–289`. The engine sees the rules that match the packet,
in the tables that jumps lead to. Two maps with the same of these decide alike, whatever other
rules and tables they have.
-/

namespace Cpxy.Rules

open Cpxy.Base

variable {env : Env} {rs rs' : RuleString} {p : Packet}

/-- A rule does not match when a destination does not, or when it is for the other protocol. -/
theorem Rule.applies_eq_false_iff {rule : Rule} :
    rule.applies env p = false ↔
      (∃ dest ∈ rule.dest, dest.matches env p.target p.initialData = false) ∨
        ∃ proto, rule.proto = some proto ∧ proto ≠ p.proto := by
  rw [Rule.applies, Bool.and_eq_false_iff, List.all_eq_false]
  simp only [Bool.not_eq_true]
  apply or_congr_right
  cases rule.proto with
  | none => simp
  | some proto => simp

/-- The matching rules of a table; those of a missing one are none. -/
def matchingRules (env : Env) (rs : RuleString) (p : Packet) (t : String) : List Rule :=
  ((rs.rules.lookup t).getD []).filter (·.applies env p)

namespace RuleString

/-- The loop sees the rules that match. -/
theorem executeRulesOf_filter (jump : String → Option TableExecuteResult) (rules : List Rule) :
    executeRulesOf env p jump (rules.filter (·.applies env p)) =
      executeRulesOf env p jump rules := by
  induction rules with
  | nil => rfl
  | cons rule rules ih =>
    by_cases ha : rule.applies env p = true
    · rw [List.filter_cons, if_pos ha, executeRulesOf, executeRulesOf, ih]
    · rw [List.filter_cons, if_neg ha, ih,
        executeRulesOf_of_not_applies jump rules (Bool.not_eq_true _ ▸ ha)]

/-- The loop asks for the tables that its rules jump to. -/
theorem executeRulesOf_congr {jump jump' : String → Option TableExecuteResult}
    {rules : List Rule}
    (h : ∀ rule ∈ rules, ∀ t, rule.action = .jump t → jump t = jump' t) :
    executeRulesOf env p jump rules = executeRulesOf env p jump' rules := by
  induction rules with
  | nil => rfl
  | cons rule rules ih =>
    have hrest := ih fun rule' hm ↦ h rule' (List.mem_cons_of_mem rule hm)
    rw [executeRulesOf, executeRulesOf, hrest]
    cases hact : rule.action with
    | jump t =>
      dsimp only
      rw [h rule List.mem_cons_self t hact]
    | _ => rfl

/-- A table, missing or not, is the loop over its matching rules. -/
theorem executeTable_eq {level : Nat} (t : String) (hle : level ≤ 10) :
    rs.executeTable env p level t =
      executeRulesOf env p (rs.executeTable env p (level + 1)) (matchingRules env rs p t) := by
  rw [matchingRules, executeRulesOf_filter]
  cases hl : rs.rules.lookup t with
  | none => rw [executeTable_of_lookup_none hl, Option.getD_none, executeRulesOf]
  | some rules => rw [executeTable_of_lookup hle hl, Option.getD_some]

/-- Matching rules that jump somewhere lead there. -/
theorem jumpsTo_of_matching {t u : String} {rule : Rule} (hm : rule ∈ matchingRules env rs p t)
    (hj : rule.action = .jump u) : JumpsTo rs t u := by
  have hmem : rule ∈ (rs.rules.lookup t).getD [] := (List.mem_filter.mp hm).1
  cases hl : rs.rules.lookup t with
  | none =>
    rw [hl] at hmem
    cases hmem
  | some rules =>
    rw [hl] at hmem
    exact ⟨rules, hl, rule, hmem, hj⟩

/-- Maps with the same matching rules in every table within reach give a table the same
outcome. -/
theorem executeTable_congr {level : Nat} {t : String}
    (h : ∀ n u, JumpChain rs t n u → matchingRules env rs' p u = matchingRules env rs p u) :
    rs'.executeTable env p level t = rs.executeTable env p level t := by
  -- on the levels that are left
  induction hk : 11 - level generalizing level t with
  | zero => rw [executeTable_of_gt t (by omega), executeTable_of_gt t (by omega)]
  | succ k ih =>
    rw [executeTable_eq t (by omega), executeTable_eq t (by omega), h 0 t (.nil t)]
    apply executeRulesOf_congr
    intro rule hm u hj
    apply ih
    · intro n v hc
      exact h (n + 1) v (.cons (jumpsTo_of_matching hm hj) hc)
    · omega

theorem executeRules_congr
    (h : ∀ n u, JumpChain rs "main" n u → matchingRules env rs' p u = matchingRules env rs p u) :
    rs'.executeRules env p = rs.executeRules env p := by
  rw [executeRules_eq, executeRules_eq, executeTable_congr h]

/-- The map with a rule more, at the position of the table, which is created when missing. -/
def insertRule (rs : RuleString) (t : String) (i : Nat) (rule : Rule) : RuleString where
  rules := rs.rules.insert t (((rs.rules.lookup t).getD []).insertIdx i rule)

theorem filter_insertIdx {rule : Rule} (ha : rule.applies env p = false) (rules : List Rule)
    (i : Nat) :
    (rules.insertIdx i rule).filter (·.applies env p) = rules.filter (·.applies env p) := by
  induction rules generalizing i with
  | nil => cases i <;> simp [ha]
  | cons head rules ih =>
    cases i with
    | zero => simp [ha]
    | succ i => rw [List.insertIdx_succ_cons, List.filter_cons, List.filter_cons, ih]

theorem matchingRules_insertRule {rule : Rule} (ha : rule.applies env p = false) (t : String)
    (i : Nat) (u : String) :
    matchingRules env (rs.insertRule t i rule) p u = matchingRules env rs p u := by
  rw [matchingRules, matchingRules, insertRule]
  by_cases hu : u = t
  · subst hu
    rw [AList.lookup_insert, Option.getD_some, filter_insertIdx ha]
  · rw [AList.lookup_insert_ne hu]

end RuleString

/-- A rule that does not match the packet changes no decision, wherever it is inserted, and
neither does anything in a table that no jumps lead to from the main one. -/
theorem inert_rules (env : Env) (rs : RuleString) (p : Packet) :
    (∀ t i (rule : Rule),
      (∃ dest ∈ rule.dest, dest.matches env p.target p.initialData = false) ∨
        (∃ proto, rule.proto = some proto ∧ proto ≠ p.proto) →
      (rs.insertRule t i rule).executeRules env p = rs.executeRules env p) ∧
    ∀ rs' : RuleString,
      (∀ t, (∃ n, JumpChain rs "main" n t) → rs'.rules.lookup t = rs.rules.lookup t) →
      rs'.executeRules env p = rs.executeRules env p := by
  constructor
  · intro t i rule hrule
    have ha := Rule.applies_eq_false_iff.mpr hrule
    apply RuleString.executeRules_congr
    intro _ u _
    exact RuleString.matchingRules_insertRule ha t i u
  · intro rs' h
    apply RuleString.executeRules_congr
    intro n u hc
    rw [matchingRules, matchingRules, h u ⟨n, hc⟩]

end Cpxy.Rules
