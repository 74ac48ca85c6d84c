import Cpxy.Rules.Engine

/-!
# Rules as text

Library `Rules`. Source `src/rule.rs:129–170`. A text has a rule a line, below a line with the
name of its table. Lines are trimmed, and empty ones and comments are skipped. The words of a
rule are read by `clap`, a package outside the repository, so its reader is a parameter.
-/

namespace Cpxy.Rules

open Cpxy.Base

/-- `Rule::try_parse_from`, of the words of a line. -/
abbrev TryParseFrom := List String → Outcome ErrorChain Rule

/-- `HashMap<String, Vec<Rule>>`. -/
abbrev RuleMap := AList fun _ : String ↦ List Rule

/-- The variables of the loop; `rule.rs:131–132`. -/
structure Parsing where
  rulemap : RuleMap
  lastName : Option String

/-- The characters that `split_ascii_whitespace` splits at. -/
def isAsciiWhitespace (c : Char) : Bool :=
  c = ' ' || c = '\t' || c = '\n' || c = Char.ofNat 12 || c = '\r'

/-- `split_ascii_whitespace`. -/
def splitAsciiWhitespace (s : String) : List String :=
  let blanked := s.toList.map fun c ↦ if isAsciiWhitespace c then ' ' else c
  ((splitAll ' ' blanked).filter (· ≠ [])).map String.ofList

/-- `s.split('\n')`. -/
def splitLines (s : String) : List String := (splitAll '\n' s.toList).map String.ofList

/-- Get or insert; `rule.rs:160–165`. -/
def pushRule (m : RuleMap) (name : String) (rule : Rule) : RuleMap :=
  match m.lookup name with
  | some rules => m.insert name (rules ++ [rule])
  | none => m.insert name [rule]

variable (tryParseFrom : TryParseFrom)

/-- A line that is not skipped; `rule.rs:144–165`. -/
def parseLine (st : Parsing) (line : String) : Outcome ErrorChain Parsing :=
  if line.toList.getLast? = some ':' then
    let name := String.ofList line.toList.dropLast
    if name = "" then .err ["Name line must not be empty"]
    else .ok { st with lastName := some name }
  else
    match st.lastName with
    | none => .err ["Expecting a table name before rules"]
    | some name => do
      let rule ← Outcome.context s!"Parsing rule \"{line}\""
        (tryParseFrom (splitAsciiWhitespace line))
      .ok { st with rulemap := pushRule st.rulemap name rule }

/-- The loop; `rule.rs:134–166`. -/
def parseLines (st : Parsing) : List String → Outcome ErrorChain Parsing
  | [] => .ok st
  | line :: lines =>
    let line := trim line
    if line = "" then parseLines st lines
    else if line.toList.head? = some '#' then parseLines st lines
    else do
      let st ← parseLine tryParseFrom st line
      parseLines st lines

/-- `parse_rules`; `rule.rs:130–169`. -/
def parseRules (s : String) : Outcome ErrorChain RuleMap := do
  let st ← parseLines tryParseFrom ⟨∅, none⟩ (splitLines s)
  .ok st.rulemap

/-! ### The lines that count -/

/-- A trimmed line without content, or a comment. -/
def isSkipped (line : String) : Bool := line = "" || line.toList.head? = some '#'

/-- The trimmed lines that are not skipped. -/
def contentLines (s : String) : List String :=
  ((splitLines s).map trim).filter fun line ↦ !isSkipped line

/-- The lines that count, in order. -/
def parseContent (st : Parsing) : List String → Outcome ErrorChain Parsing
  | [] => .ok st
  | line :: lines => do
    let st ← parseLine tryParseFrom st line
    parseContent st lines

variable {tryParseFrom}

theorem parseLines_eq (st : Parsing) (lines : List String) :
    parseLines tryParseFrom st lines =
      parseContent tryParseFrom st ((lines.map trim).filter fun line ↦ !isSkipped line) := by
  induction lines generalizing st with
  | nil => rfl
  | cons line lines ih =>
    rw [parseLines, List.map_cons, List.filter_cons, isSkipped]
    by_cases hempty : trim line = ""
    · simp [hempty, ih]
    · by_cases hcomment : (trim line).toList.head? = some '#'
      · simp [hempty, hcomment, ih]
      · simp [hempty, hcomment, ih, parseContent]

/-- What a text is parsed to depends on its lines that count. -/
theorem parseRules_eq (s : String) :
    parseRules tryParseFrom s = (do
      let st ← parseContent tryParseFrom ⟨∅, none⟩ (contentLines s)
      .ok st.rulemap) := by
  rw [parseRules, parseLines_eq, contentLines]

theorem contentLines_append (x y : String) :
    contentLines (x ++ "\n" ++ y) = contentLines x ++ contentLines y := by
  have hsplit : splitLines (x ++ "\n" ++ y) = splitLines x ++ splitLines y := by
    have hlist : (x ++ "\n" ++ y).toList = x.toList ++ '\n' :: y.toList := by simp
    rw [splitLines, hlist, splitAll_append_cons, List.map_append]
    rfl
  rw [contentLines, hsplit, List.map_append, List.filter_append]
  rfl

theorem contentLines_of_skipped {line : String} (hline : '\n' ∉ line.toList)
    (h : isSkipped (trim line) = true) : contentLines line = [] := by
  rw [contentLines, splitLines, splitAll_of_not_mem hline]
  simp [h]

/-! ### Line ends -/

/-- The text with `\r\n` for every line end. -/
def crlf (s : String) : String :=
  String.ofList (s.toList.flatMap fun c ↦ if c = '\n' then ['\r', '\n'] else [c])

/-- A line may have got a carriage return at its end. -/
theorem splitAll_crlf (s : List Char) :
    List.Forall₂ (fun line' line ↦ line' = line ∨ line' = line ++ ['\r'])
      (splitAll '\n' (s.flatMap fun c ↦ if c = '\n' then ['\r', '\n'] else [c]))
      (splitAll '\n' s) := by
  induction s with
  | nil => exact .cons (.inl rfl) .nil
  | cons c s ih =>
    rw [List.flatMap_cons]
    by_cases hc : c = '\n'
    · rw [if_pos hc, splitAll, if_pos hc]
      exact .cons (.inr rfl) ih
    · rw [if_neg hc, List.singleton_append, splitAll, splitAll, if_neg hc, if_neg hc]
      generalize splitAll '\n' s = lines at ih ⊢
      generalize splitAll '\n' (s.flatMap _) = lines' at ih ⊢
      cases ih with
      | nil => exact .cons (.inl rfl) .nil
      | cons hline hlines =>
        refine .cons ?_ hlines
        rcases hline with rfl | rfl
        · exact .inl rfl
        · exact .inr rfl

theorem contentLines_crlf (s : String) : contentLines (crlf s) = contentLines s := by
  have htrim : (splitLines (crlf s)).map trim = (splitLines s).map trim := by
    have hends := splitAll_crlf s.toList
    rw [splitLines, splitLines, crlf, String.toList_ofList]
    generalize splitAll '\n' s.toList = lines at hends ⊢
    generalize splitAll '\n' (s.toList.flatMap _) = lines' at hends ⊢
    induction hends with
    | nil => rfl
    | cons hline _ ih =>
      rw [List.map_cons, List.map_cons, List.map_cons, List.map_cons, ih]
      apply congrArg (· :: _)
      rcases hline with rfl | rfl
      · rfl
      · exact trim_append_singleton (by decide) _
  rw [contentLines, contentLines, htrim]

/-! ### Texts one after the other -/

/-- The rules of a table, those of the first map before those of the second. -/
def bothRules (m m' : RuleMap) (t : String) : Option (List Rule) :=
  Option.merge (· ++ ·) (m.lookup t) (m'.lookup t)

/-- A parse that started with rules of its own, beside one that started with none. -/
structure Beside (m : RuleMap) (st₀ st : Parsing) : Prop where
  lastName : st.lastName = st₀.lastName
  lookup : ∀ t, st.rulemap.lookup t = bothRules m st₀.rulemap t

theorem bothRules_pushRule {m m₀ m' : RuleMap} (h : ∀ t, m'.lookup t = bothRules m m₀ t)
    (name : String) (rule : Rule) (t : String) :
    (pushRule m' name rule).lookup t = bothRules m (pushRule m₀ name rule) t := by
  have hpush (r : RuleMap) (u : String) : (pushRule r name rule).lookup u =
      if u = name then some ((r.lookup name).getD [] ++ [rule]) else r.lookup u := by
    rw [pushRule]
    by_cases hu : u = name
    · subst hu
      cases hl : r.lookup u <;> simp [AList.lookup_insert]
    · cases hl : r.lookup name <;> simp [AList.lookup_insert_ne hu, hu]
  rw [bothRules, hpush, hpush]
  by_cases ht : t = name
  · subst ht
    rw [if_pos rfl, if_pos rfl, h, bothRules]
    cases m.lookup t <;> cases m₀.lookup t <;> simp
  · rw [if_neg ht, if_neg ht, h, bothRules]

/-- Two results that stay beside each other: both states, or the same failure. -/
inductive Alongside (m : RuleMap) : Outcome ErrorChain Parsing → Outcome ErrorChain Parsing → Prop
  | ok {st₀ st} (h : Beside m st₀ st) : Alongside m (.ok st₀) (.ok st)
  | err (e) : Alongside m (.err e) (.err e)
  | panicked : Alongside m .panicked .panicked

theorem Beside.parseLine (tryParseFrom : TryParseFrom) {m : RuleMap} {st₀ st : Parsing}
    (h : Beside m st₀ st) (line : String) :
    Alongside m (parseLine tryParseFrom st₀ line) (parseLine tryParseFrom st line) := by
  rw [Rules.parseLine, Rules.parseLine]
  split
  · dsimp only
    split
    · exact .err _
    · exact .ok ⟨rfl, h.lookup⟩
  · rw [h.lastName]
    cases hname : st₀.lastName with
    | none => exact .err _
    | some name =>
      dsimp only
      cases Outcome.context _ (tryParseFrom (splitAsciiWhitespace line)) with
      | ok rule => exact .ok ⟨rfl, bothRules_pushRule h.lookup name rule⟩
      | err e => exact .err e
      | panicked => exact .panicked

theorem Beside.parseContent (tryParseFrom : TryParseFrom) {m : RuleMap} {st₀ st : Parsing}
    (h : Beside m st₀ st) (lines : List String) :
    Alongside m (parseContent tryParseFrom st₀ lines) (parseContent tryParseFrom st lines) := by
  induction lines generalizing st₀ st with
  | nil => exact .ok h
  | cons line lines ih =>
    have hline := h.parseLine tryParseFrom line
    rw [Rules.parseContent, Rules.parseContent]
    generalize Rules.parseLine tryParseFrom st₀ line = x₀ at hline ⊢
    generalize Rules.parseLine tryParseFrom st line = x at hline ⊢
    cases hline with
    | ok hst => exact ih hst
    | err e => exact .err e
    | panicked => exact .panicked

theorem parseContent_append (st : Parsing) (xs ys : List String) :
    parseContent tryParseFrom st (xs ++ ys) = (do
      let st ← parseContent tryParseFrom st xs
      parseContent tryParseFrom st ys) := by
  induction xs generalizing st with
  | nil => rfl
  | cons line xs ih =>
    rw [List.cons_append, parseContent, parseContent]
    cases parseLine tryParseFrom st line with
    | ok st' => exact ih st'
    | err e => rfl
    | panicked => rfl

/-- A line that names a table opens it, whatever was open before. -/
theorem parseLine_header (st : Parsing) {name : String} (h : name ≠ "") :
    parseLine tryParseFrom st (name ++ ":") = .ok { st with lastName := some name } := by
  have hlist : (name ++ ":").toList = name.toList ++ [':'] := by simp
  rw [parseLine, hlist, List.getLast?_concat, if_pos rfl, List.dropLast_concat,
    String.ofList_toList]
  dsimp only
  rw [if_neg h]

/-- A text that opens a table first is parsed behind another as it is by itself. -/
theorem parseRules_append (a : String) {b name : String} (hname : name ≠ "")
    (hb : (contentLines b).head? = some (name ++ ":")) :
    (∃ ma mb m, parseRules tryParseFrom a = .ok ma ∧ parseRules tryParseFrom b = .ok mb ∧
      parseRules tryParseFrom (a ++ "\n" ++ b) = .ok m ∧ ∀ t, m.lookup t = bothRules ma mb t) ∨
    (∀ m, parseRules tryParseFrom (a ++ "\n" ++ b) ≠ .ok m) ∧
      ((∀ m, parseRules tryParseFrom a ≠ .ok m) ∨ ∀ m, parseRules tryParseFrom b ≠ .ok m) := by
  obtain ⟨lines, hlines⟩ := List.head?_eq_some_iff.mp hb
  have hopen (st : Parsing) : parseContent tryParseFrom st (contentLines b) =
      parseContent tryParseFrom { st with lastName := some name } lines := by
    rw [hlines, parseContent, parseLine_header st hname, Outcome.ok_bind]
  rw [parseRules_eq, parseRules_eq, parseRules_eq, contentLines_append, parseContent_append, hopen]
  cases parseContent tryParseFrom ⟨∅, none⟩ (contentLines a) with
  | err e => exact .inr ⟨nofun, .inl nofun⟩
  | panicked => exact .inr ⟨nofun, .inl nofun⟩
  | ok st =>
    have hstart : Beside st.rulemap ⟨∅, some name⟩ { st with lastName := some name } := by
      refine ⟨rfl, fun t ↦ ?_⟩
      rw [bothRules, AList.lookup_empty, Option.merge_none_right]
    have hrun := hstart.parseContent tryParseFrom lines
    simp only [Outcome.ok_bind, hopen]
    generalize parseContent tryParseFrom ⟨∅, some name⟩ lines = x₀ at hrun ⊢
    generalize parseContent tryParseFrom { st with lastName := some name } lines = x at hrun ⊢
    cases hrun with
    | ok hst => exact .inl ⟨_, _, _, rfl, rfl, rfl, hst.lookup⟩
    | err e => exact .inr ⟨nofun, .inr nofun⟩
    | panicked => exact .inr ⟨nofun, .inr nofun⟩

/-- Rule texts compose: whatever reads the rules, a text behind one that opens a table first adds
its rules to the tables, and neither lines that are skipped nor line ends make a difference. -/
theorem ruleText_composes (tryParseFrom : TryParseFrom) :
    (∀ a b name : String, name ≠ "" → (contentLines b).head? = some (name ++ ":") →
      ((∃ m, parseRules tryParseFrom (a ++ "\n" ++ b) = .ok m) ↔
        (∃ m, parseRules tryParseFrom a = .ok m) ∧ ∃ m, parseRules tryParseFrom b = .ok m) ∧
      ∀ ma mb m, parseRules tryParseFrom a = .ok ma → parseRules tryParseFrom b = .ok mb →
        parseRules tryParseFrom (a ++ "\n" ++ b) = .ok m → ∀ t, m.lookup t = bothRules ma mb t) ∧
    (∀ line : String, '\n' ∉ line.toList → isSkipped (trim line) = true → ∀ x y : String,
      parseRules tryParseFrom (line ++ "\n" ++ y) = parseRules tryParseFrom y ∧
      parseRules tryParseFrom (x ++ "\n" ++ line) = parseRules tryParseFrom x ∧
      parseRules tryParseFrom (x ++ "\n" ++ line ++ "\n" ++ y) =
        parseRules tryParseFrom (x ++ "\n" ++ y)) ∧
    ∀ s, parseRules tryParseFrom (crlf s) = parseRules tryParseFrom s := by
  refine ⟨?_, ?_, ?_⟩
  · intro a b name hname hb
    rcases parseRules_append a hname hb with
      ⟨ma, mb, m, ha, hb, hab, hlookup⟩ | ⟨hab, hnot⟩
    · rw [ha, hb, hab]
      refine ⟨by simp, ?_⟩
      intro ma' mb' m' ha' hb' hab'
      cases ha'
      cases hb'
      cases hab'
      exact hlookup
    · refine ⟨iff_of_false (fun ⟨m, hm⟩ ↦ hab m hm) ?_, fun _ _ m _ _ hm ↦ absurd hm (hab m)⟩
      rintro ⟨⟨ma, ha⟩, mb, hb⟩
      rcases hnot with hnot | hnot
      · exact hnot ma ha
      · exact hnot mb hb
  · intro line hline hskip x y
    have hnone := contentLines_of_skipped hline hskip
    simp only [parseRules_eq, contentLines_append, hnone, List.nil_append, List.append_nil,
      and_self]
  · intro s
    rw [parseRules_eq, parseRules_eq, contentLines_crlf]

end Cpxy.Rules
