import Cpxy.Rules.Engine
import Mathlib.Data.List.TakeWhile

/-!
# The arguments of rules

Library `Rules`. Source `src/rule.rs:71–127` and `430–448`, `src/pattern.rs:14–21` and
`src/geoip/country_code.rs:47–58`. Actions and destinations are texts of a name and an argument,
with a colon between. Regular expressions and networks are read by packages outside the
repository, whose readers are parameters.
-/

namespace Cpxy.Rules

open Cpxy.Base

/-- The readers of the packages. -/
structure Readers where
  /-- `regex::Regex::new`: the error of a text that is not a regular expression. -/
  regexError : String → Option ErrorChain
  /-- `IpNetwork::from_str`. -/
  ipNetwork : String → Outcome ErrorChain IpNetwork

/-- `split(':')`. -/
def splitColon (s : String) : List String := (splitAll ':' s.toList).map String.ofList

/-- `NonZeroU8::try_from`. -/
def nonZeroByte (b : UInt8) : Outcome ErrorChain { b : UInt8 // b ≠ 0 } :=
  if h : b ≠ 0 then .ok ⟨b, h⟩ else .err ["out of range integral type conversion attempted"]

/-- `FromStr for CountryCode`; `country_code.rs:47–58`. -/
def CountryCode.fromStr (s : String) : Outcome ErrorChain CountryCode :=
  match asBytes s with
  | [a, b] => do
    let a ← nonZeroByte a
    let b ← nonZeroByte b
    .ok ⟨a.val, b.val, a.property, b.property⟩
  | _ => .err ["Must be 2 bytes"]

/-- `FromStr for RuleAction`; `rule.rs:107–127`. -/
def RuleAction.fromStr (s : String) : Outcome ErrorChain RuleAction :=
  match (splitColon s)[0]?, (splitColon s)[1]? with
  | some n, some v =>
    if eqIgnoreAsciiCase n "proxy" then .ok (.proxy v)
    else if eqIgnoreAsciiCase n "proxygroup" then .ok (.proxyGroup v)
    else if eqIgnoreAsciiCase n "jump" then .ok (.jump v)
    else .err [s!"Unknown rule action {s}"]
  | some n, none =>
    if eqIgnoreAsciiCase n "reject" then .ok .reject
    else if eqIgnoreAsciiCase n "return" then .ok .return
    else .err [s!"Unknown rule action {s}"]
  | none, _ => .err [s!"Unknown rule action {s}"]

variable (readers : Readers)

/-- `FromStr for Pattern`; `pattern.rs:14–21`. -/
def patternFromStr (s : String) : Outcome ErrorChain HostMatch :=
  match readers.regexError s with
  | none => .ok (.pattern s)
  | some e => .err e

/-- `FromStr for HostMatch`; `rule.rs:434–448`. -/
def HostMatch.fromStr (s : String) : Outcome ErrorChain HostMatch :=
  match (splitColon s)[0]?, (splitColon s)[1]? with
  | some name, some p =>
    if name = "list" ∧ p = "gfw" then .ok (.hostList .gfw)
    else if name = "list" ∧ p = "adblock" then .ok (.hostList .adblock)
    else if name = "matches" then patternFromStr readers p
    else .err [invalid s]
  | _, _ => .err [invalid s]
where
  invalid (s : String) : String :=
    s!"Invalid host match string: {s}. Expect: list:gfw, list:adblock or matches:pattern"

/-- `u16::from_str`. -/
def portFromStr (s : String) : Outcome ErrorChain UInt16 :=
  match parseUnsigned 65536 s.toList with
  | .ok p => .ok (UInt16.ofNat p)
  | .error e => .err [e]

/-- `FromStr for RuleDestination`; `rule.rs:71–105`. -/
def RuleDestination.fromStr (s : String) : Outcome ErrorChain RuleDestination :=
  let (name, args) :=
    match splitOnce ':' s.toList with
    | some (name, args) => (String.ofList name, String.ofList args)
    | none => (s, "")
  if name = "geoip" then do
    let code ← (CountryCode.fromStr args).context s!"Parsing args into country code: {args}"
    .ok (.geoIP code)
  else if name = "network" then do
    let net ← (readers.ipNetwork args).context s!"Parsing args into network: {args}"
    .ok (.network net)
  else if name = "port" then do
    let port ← (portFromStr args).context s!"Parsing args into port: {args}"
    .ok (.port port)
  else if name = "domain" then do
    let host ← (HostMatch.fromStr readers args).context s!"Parsing args into domain: {args}"
    .ok (.domain host)
  else if name = "dnshost" then do
    let host ← (HostMatch.fromStr readers args).context s!"Parsing args into dnshost: {args}"
    .ok (.dnsHost host)
  else .err [s!"Unknown rule: {s}"]

/-! ### What is taken of an argument -/

/-- The text up to its first colon. -/
def upToColon (p : String) : String := String.ofList (p.toList.takeWhile (· ≠ ':'))

theorem upToColon_eq_iff {p : String} : upToColon p = p ↔ ':' ∉ p.toList := by
  have htake : p.toList.takeWhile (· ≠ ':') = p.toList ↔ ':' ∉ p.toList := by
    rw [List.takeWhile_eq_self_iff]
    constructor
    · intro h hmem
      simpa using h ':' hmem
    · intro h c hc
      have hne : c ≠ ':' := fun heq ↦ h (heq ▸ hc)
      exact decide_eq_true hne
  rw [upToColon, ← htake, ← String.toList_inj, String.toList_ofList]

/-- Behind a name, the first two parts are the name and the argument up to its first colon. -/
theorem splitColon_name (name : String) (h : ':' ∉ name.toList) (p : String) :
    (splitColon (name ++ ":" ++ p))[0]? = some name ∧
      (splitColon (name ++ ":" ++ p))[1]? = some (upToColon p) := by
  have hlist : (name ++ ":" ++ p).toList = name.toList ++ ':' :: p.toList := by simp
  have hsplit : splitColon (name ++ ":" ++ p) = name :: splitColon p := by
    rw [splitColon, hlist, splitAll_append h, List.map_cons, String.ofList_toList]
    rfl
  have hhead : (splitColon p)[0]? = some (upToColon p) := by
    rw [splitColon, ← List.head?_eq_getElem?, List.head?_map, head?_splitAll]
    rfl
  rw [hsplit]
  exact ⟨rfl, hhead⟩

theorem action_fromStr (p : String) :
    RuleAction.fromStr ("proxy:" ++ p) = .ok (.proxy (upToColon p)) ∧
      RuleAction.fromStr ("proxygroup:" ++ p) = .ok (.proxyGroup (upToColon p)) ∧
      RuleAction.fromStr ("jump:" ++ p) = .ok (.jump (upToColon p)) := by
  have hproxy := splitColon_name "proxy" (by decide) p
  have hgroup := splitColon_name "proxygroup" (by decide) p
  have hjump := splitColon_name "jump" (by decide) p
  refine ⟨?_, ?_, ?_⟩
  · change RuleAction.fromStr ("proxy" ++ ":" ++ p) = _
    rw [RuleAction.fromStr, hproxy.1, hproxy.2]
    rfl
  · change RuleAction.fromStr ("proxygroup" ++ ":" ++ p) = _
    rw [RuleAction.fromStr, hgroup.1, hgroup.2]
    rfl
  · change RuleAction.fromStr ("jump" ++ ":" ++ p) = _
    rw [RuleAction.fromStr, hjump.1, hjump.2]
    rfl

theorem hostMatch_fromStr (p : String) :
    HostMatch.fromStr readers ("matches:" ++ p) = patternFromStr readers (upToColon p) := by
  have hmatches := splitColon_name "matches" (by decide) p
  change HostMatch.fromStr readers ("matches" ++ ":" ++ p) = _
  rw [HostMatch.fromStr, hmatches.1, hmatches.2]
  dsimp only
  rw [if_neg (by simp), if_neg (by simp), if_pos rfl]

/-- A destination for hosts has the pattern that its argument is read to. -/
theorem destination_fromStr (p : String) :
    RuleDestination.fromStr readers ("domain:matches:" ++ p) =
        (do
          let host ← (patternFromStr readers (upToColon p)).context
            ("Parsing args into domain: " ++ ("matches:" ++ p))
          .ok (.domain host)) ∧
      RuleDestination.fromStr readers ("dnshost:matches:" ++ p) =
        (do
          let host ← (patternFromStr readers (upToColon p)).context
            ("Parsing args into dnshost: " ++ ("matches:" ++ p))
          .ok (.dnsHost host)) := by
  have hsplit (name : String) (h : ':' ∉ name.toList) :
      splitOnce ':' (name ++ ":" ++ ("matches:" ++ p)).toList =
        some (name.toList, ("matches:" ++ p).toList) := by
    have hlist : (name ++ ":" ++ ("matches:" ++ p)).toList =
        name.toList ++ ':' :: ("matches:" ++ p).toList := by simp
    rw [hlist, splitOnce_append h]
  constructor
  · have htext : "domain:matches:" ++ p = "domain" ++ ":" ++ ("matches:" ++ p) := by
      rw [← String.append_assoc]
      rfl
    rw [RuleDestination.fromStr, htext, hsplit "domain" (by decide)]
    dsimp only
    rw [String.ofList_toList, String.ofList_toList, if_neg (by decide), if_neg (by decide),
      if_neg (by decide), if_pos rfl, hostMatch_fromStr]
    rfl
  · have htext : "dnshost:matches:" ++ p = "dnshost" ++ ":" ++ ("matches:" ++ p) := by
      rw [← String.append_assoc]
      rfl
    rw [RuleDestination.fromStr, htext, hsplit "dnshost" (by decide)]
    dsimp only
    rw [String.ofList_toList, String.ofList_toList, if_neg (by decide), if_neg (by decide),
      if_neg (by decide), if_neg (by decide), if_pos rfl, hostMatch_fromStr]
    rfl

/-- A destination is read to have the pattern, when that is a regular expression, and is
otherwise refused. -/
def TakesPattern (readers : Readers) (p : String) (make : HostMatch → RuleDestination)
    (result : Outcome ErrorChain RuleDestination) : Prop :=
  match readers.regexError p with
  | none => result = .ok (make (.pattern p))
  | some _ => ∃ e, result = .err e

theorem takesPattern_of_read (readers : Readers) (p text : String)
    (make : HostMatch → RuleDestination) :
    TakesPattern readers p make (do
      let host ← (patternFromStr readers p).context text
      .ok (make host)) := by
  rw [TakesPattern, patternFromStr]
  cases readers.regexError p with
  | none => rfl
  | some e => exact ⟨_, rfl⟩

/-- Actions and destinations take their argument whole. -/
structure TakenWhole (readers : Readers) (p : String) : Prop where
  proxy : RuleAction.fromStr ("proxy:" ++ p) = .ok (.proxy p)
  proxyGroup : RuleAction.fromStr ("proxygroup:" ++ p) = .ok (.proxyGroup p)
  jump : RuleAction.fromStr ("jump:" ++ p) = .ok (.jump p)
  domain : TakesPattern readers p .domain
    (RuleDestination.fromStr readers ("domain:matches:" ++ p))
  dnsHost : TakesPattern readers p .dnsHost
    (RuleDestination.fromStr readers ("dnshost:matches:" ++ p))

/-- An argument is taken whole exactly when it has no colon. -/
theorem takenWhole_iff (readers : Readers) (p : String) :
    TakenWhole readers p ↔ ':' ∉ p.toList := by
  constructor
  · intro h
    have hproxy := h.proxy
    rw [(action_fromStr p).1, Outcome.ok.injEq, RuleAction.proxy.injEq] at hproxy
    exact upToColon_eq_iff.mp hproxy
  · intro h
    have hwhole := upToColon_eq_iff.mpr h
    obtain ⟨hproxy, hgroup, hjump⟩ := action_fromStr p
    obtain ⟨hdomain, hdns⟩ := destination_fromStr readers p
    rw [hwhole] at hproxy hgroup hjump hdomain hdns
    refine ⟨hproxy, hgroup, hjump, ?_, ?_⟩
    · rw [hdomain]
      apply takesPattern_of_read
    · rw [hdns]
      apply takesPattern_of_read

/-- The name of an upstream with a port is cut at its colon. -/
theorem takenWhole_cuts :
    ¬ ∀ (readers : Readers) (p : String), p ≠ "" → (∀ c ∈ p.toList, isWhitespace c = false) →
      TakenWhole readers p := by
  intro h
  have hspace : ∀ c ∈ "a:8".toList, isWhitespace c = false := by simp [isWhitespace]
  have hwhole := h ⟨fun _ ↦ none, fun _ ↦ .err []⟩ "a:8" (by decide) hspace
  have hcut : RuleAction.fromStr ("proxy:" ++ "a:8") = .ok (.proxy "a") := by decide
  rw [hwhole.proxy] at hcut
  revert hcut
  decide

end Cpxy.Rules
