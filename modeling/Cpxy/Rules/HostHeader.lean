import Cpxy.Rules.Destination

/-!
# The `Host` header of a request

Library `Rules`. Source `src/sni.rs:6–56`. The scan looks for `host:` wherever an attempt can
begin, not only where a line does, and ends at two line feeds in a row, which the head of a
request does not have. It finds the header when it meets no other `host:` before.
-/

namespace Cpxy.Rules

open Cpxy.Base

/-! ### One byte of the scan -/

/-- `host:`, in small letters. -/
def hostWord : Bytes := [104, 111, 115, 116, 58]

def lowerBytes (b : Bytes) : Bytes := b.map lowerByte

namespace ParseState

/-- How many letters have matched. -/
def letters : ParseState → Nat
  | idle => 0
  | matched n => n
  | firstNewLine => 0

/-- The states that the scan is ever in. -/
def Reached : ParseState → Prop
  | idle => True
  | matched n => 1 ≤ n ∧ n ≤ 4
  | firstNewLine => True

/-- The state behind a byte that does not match. -/
def behind (c : UInt8) : ParseState := if c = newLine then firstNewLine else idle

theorem Reached.letters_le {state : ParseState} (h : state.Reached) : state.letters ≤ 4 := by
  cases state with
  | idle => exact Nat.zero_le 4
  | matched n => exact h.2
  | firstNewLine => exact Nat.zero_le 4

end ParseState

theorem lowerByte_eq_colon {c : UInt8} : lowerByte c = 58 ↔ c = 58 := by
  rw [lowerByte]
  split
  · next h =>
    have h65 : 65 ≤ c.toNat := h.1
    have h90 : c.toNat ≤ 90 := h.2
    have hlower : c + 32 ≠ 58 := by
      intro heq
      have hval := congrArg UInt8.toNat heq
      rw [UInt8.toNat_add] at hval
      simp at hval
      omega
    have hcolon : c ≠ 58 := by
      rintro rfl
      simp at h65
    exact iff_of_false hlower hcolon
  · exact Iff.rfl

theorem sameLetter_iff (c : UInt8) {k : Nat} {l : Char}
    (hl : hostWord[k]? = some (lowerByte (UInt8.ofNat l.toNat))) :
    sameLetter c l = true ↔ hostWord[k]? = some (lowerByte c) := by
  rw [sameLetter, hl, beq_iff_eq, Option.some_inj, eq_comm]

/-- Away from the start of a line, nothing ends the scan. -/
theorem scan_other (state : ParseState) (hstate : state ≠ .firstNewLine) (c : UInt8) (data : Bytes) :
    hostValueStart.other c (fun state ↦ (hostValueStart state data).map (· + 1)) =
      if state = .firstNewLine ∧ c = newLine then none
      else (hostValueStart (.behind c) data).map (· + 1) := by
  rw [if_neg fun h ↦ hstate h.1, hostValueStart.other, ParseState.behind]
  split <;> rfl

/-- The scan of one byte: a letter of the word matches, or nothing does. -/
theorem hostValueStart_cons {state : ParseState} (h : state.Reached) (c : UInt8) (data : Bytes) :
    hostValueStart state (c :: data) =
      if hostWord[state.letters]? = some (lowerByte c) then
        if state.letters = 4 then some 1
        else (hostValueStart (.matched (state.letters + 1)) data).map (· + 1)
      else if state = .firstNewLine ∧ c = newLine then none
      else (hostValueStart (.behind c) data).map (· + 1) := by
  match state, h with
  | .idle, _ =>
    rw [hostValueStart]
    exact if_congr (sameLetter_iff c rfl) rfl (scan_other .idle nofun c data)
  | .firstNewLine, _ =>
    rw [hostValueStart]
    refine if_congr (sameLetter_iff c rfl) rfl ?_
    by_cases hc : c = newLine
    · rw [if_pos hc, if_pos ⟨rfl, hc⟩]
    · rw [if_neg hc, if_neg fun h ↦ hc h.2, ParseState.behind, if_neg hc]
  | .matched 1, _ =>
    rw [hostValueStart]
    exact if_congr (sameLetter_iff c rfl) rfl (scan_other (.matched 1) nofun c data)
  | .matched 2, _ =>
    rw [hostValueStart]
    exact if_congr (sameLetter_iff c rfl) rfl (scan_other (.matched 2) nofun c data)
  | .matched 3, _ =>
    rw [hostValueStart]
    exact if_congr (sameLetter_iff c rfl) rfl (scan_other (.matched 3) nofun c data)
  | .matched 4, _ =>
    have hcolon : c = 58 ↔ hostWord[4]? = some (lowerByte c) := by
      rw [← lowerByte_eq_colon]
      exact eq_comm.trans Option.some_inj.symm
    rw [hostValueStart]
    exact if_congr hcolon rfl (scan_other (.matched 4) nofun c data)
/-! ### Attempts -/

theorem cons_prefix_drop {l t : Bytes} {c : UInt8} {k : Nat} :
    c :: t <+: l.drop k ↔ l[k]? = some c ∧ t <+: l.drop (k + 1) := by
  by_cases hk : k < l.length
  · rw [List.drop_eq_getElem_cons hk, List.cons_prefix_cons, List.getElem?_eq_getElem hk,
      Option.some_inj, eq_comm]
  · rw [List.drop_eq_nil_of_le (by omega), List.getElem?_eq_none (by omega), List.prefix_nil]
    exact iff_of_false nofun fun h ↦ nomatch h.1

theorem snoc_prefix {l t : Bytes} {c : UInt8} :
    t ++ [c] <+: l ↔ t <+: l ∧ l[t.length]? = some c := by
  constructor
  · rintro ⟨r, rfl⟩
    refine ⟨⟨[c] ++ r, (List.append_assoc _ _ _).symm⟩, ?_⟩
    rw [List.append_assoc, List.getElem?_append_right (Nat.le_refl _), Nat.sub_self]
    rfl
  · rintro ⟨⟨r, rfl⟩, hc⟩
    rw [List.getElem?_append_right (Nat.le_refl _), Nat.sub_self] at hc
    cases r with
    | nil => cases hc
    | cons d r =>
      cases hc
      exact ⟨r, by rw [List.append_assoc]; rfl⟩

theorem lowerBytes_snoc (w : Bytes) (b : UInt8) :
    lowerBytes (w ++ [b]) = lowerBytes w ++ [lowerByte b] := List.map_append

/-- Letters of the word move the scan on, up to the colon. -/
theorem scan_letters {state : ParseState} (h : state.Reached) {w : Bytes}
    (hw : lowerBytes w <+: hostWord.drop state.letters) (hshort : state.letters + w.length < 5)
    (x : Bytes) : ∃ state' : ParseState, state'.Reached ∧
      state'.letters = state.letters + w.length ∧ (w = [] → state' = state) ∧
      hostValueStart state (w ++ x) = (hostValueStart state' x).map (· + w.length) := by
  induction w generalizing state with
  | nil =>
    exact ⟨state, h, rfl, fun _ ↦ rfl, (congrFun Option.map_id _).symm⟩
  | cons c w ih =>
    rw [lowerBytes, List.map_cons, ← lowerBytes] at hw
    rw [List.length_cons] at hshort
    obtain ⟨hletter, hrest⟩ := cons_prefix_drop.mp hw
    have hreached : (ParseState.matched (state.letters + 1)).Reached := ⟨by omega, by omega⟩
    have hlen : state.letters + 1 + w.length < 5 := by omega
    obtain ⟨state', hr', hl', _, hscan⟩ := ih hreached hrest hlen
    refine ⟨state', hr', ?_, nofun, ?_⟩
    · rw [hl', ParseState.letters, List.length_cons]
      omega
    · rw [List.cons_append, hostValueStart_cons h, if_pos hletter, if_neg (by omega), hscan,
        Option.map_map]
      rfl

/-- The scan at the start of an attempt, behind a line feed or not. -/
def startState (nl : Bool) : ParseState := if nl then .firstNewLine else .idle

/-- Attempts that fail, one behind the other: each matches some letters of `host:` and then a
byte that is not the next one. Two line feeds in a row are not passed. -/
inductive Skipped : Bool → Bytes → Prop
  | nil {nl : Bool} : Skipped nl []
  | attempt {nl : Bool} {w a : Bytes} {b : UInt8} (hw : lowerBytes w <+: hostWord)
      (hshort : w.length < 5) (hb : ¬ lowerBytes (w ++ [b]) <+: hostWord)
      (hnl : nl = true → w = [] → b ≠ newLine) (ha : Skipped (b == newLine) a) :
      Skipped nl (w ++ b :: a)

theorem reached_startState (nl : Bool) : (startState nl).Reached := by
  cases nl <;> trivial

theorem letters_startState (nl : Bool) : (startState nl).letters = 0 := by
  cases nl <;> rfl

theorem behind_eq (c : UInt8) : ParseState.behind c = startState (c == newLine) := by
  rw [ParseState.behind, startState]
  simp only [beq_iff_eq]

/-- The scan passes what is skipped. -/
theorem Skipped.scan {nl : Bool} {a : Bytes} (h : Skipped nl a) (x : Bytes) :
    ∃ nl', hostValueStart (startState nl) (a ++ x) =
      (hostValueStart (startState nl') x).map (· + a.length) := by
  induction h with
  | nil => exact ⟨_, (congrFun Option.map_id _).symm⟩
  | @attempt nl w a b hw hshort hb hnl ha ih =>
    obtain ⟨nl', hrest⟩ := ih
    have hw₀ : lowerBytes w <+: hostWord.drop (startState nl).letters := by
      rw [letters_startState]
      exact hw
    have hlen : (startState nl).letters + w.length < 5 := by
      rw [letters_startState]
      omega
    obtain ⟨state, hreached, hletters, hsame, hscan⟩ :=
      scan_letters (reached_startState nl) hw₀ hlen (b :: a ++ x)
    rw [letters_startState, Nat.zero_add] at hletters
    have hfails : ¬ hostWord[state.letters]? = some (lowerByte b) := by
      intro hletter
      apply hb
      rw [lowerBytes_snoc]
      refine snoc_prefix.mpr ⟨hw, ?_⟩
      rw [lowerBytes, List.length_map, ← hletters]
      exact hletter
    have hgoes : ¬ (state = .firstNewLine ∧ b = newLine) := by
      rintro ⟨rfl, hnewLine⟩
      have hnil : w = [] := List.eq_nil_of_length_eq_zero hletters.symm
      have hstart := hsame hnil
      cases nl with
      | true => exact hnl rfl hnil hnewLine
      | false => cases hstart
    refine ⟨nl', ?_⟩
    rw [List.append_assoc, hscan, List.cons_append, hostValueStart_cons hreached, if_neg hfails,
      if_neg hgoes, behind_eq, hrest, Option.map_map, Option.map_map]
    congr 1
    funext i
    simp only [Function.comp_apply, List.length_append, List.length_cons]
    omega

/-- The word is found where an attempt begins. -/
theorem scan_word (nl : Bool) {u : Bytes} (hu : lowerBytes u = hostWord) (x : Bytes) :
    hostValueStart (startState nl) (u ++ x) = some u.length := by
  obtain ⟨w, c, rfl⟩ : ∃ w c, u = w ++ [c] := by
    refine ⟨u.dropLast, u.getLast (by rintro rfl; cases hu), ?_⟩
    exact (List.dropLast_append_getLast _).symm
  have hlen := congrArg List.length hu
  rw [lowerBytes, List.length_map, List.length_append, List.length_singleton] at hlen
  have hlen' : w.length = 4 := Nat.succ.inj hlen
  rw [lowerBytes_snoc] at hu
  obtain ⟨hw, hc⟩ := snoc_prefix.mp (⟨[], by rw [List.append_nil, hu]⟩ :
    lowerBytes w ++ [lowerByte c] <+: hostWord)
  have hw₀ : lowerBytes w <+: hostWord.drop (startState nl).letters := by
    rw [letters_startState]
    exact hw
  obtain ⟨state, hreached, hletters, _, hscan⟩ :=
    scan_letters (reached_startState nl) hw₀ (by rw [letters_startState]; omega) (c :: x)
  rw [letters_startState, Nat.zero_add, hlen'] at hletters
  rw [lowerBytes, List.length_map, hlen'] at hc
  rw [List.append_assoc, List.singleton_append, hscan, hostValueStart_cons hreached, hletters,
    if_pos hc, if_pos rfl, List.length_append, hlen']
  rfl

/-- The word is found behind what is skipped. -/
theorem Skipped.found {nl : Bool} {a u : Bytes} (h : Skipped nl a) (hu : lowerBytes u = hostWord)
    (x : Bytes) : hostValueStart (startState nl) (a ++ (u ++ x)) = some (a.length + u.length) := by
  obtain ⟨nl', hscan⟩ := h.scan (u ++ x)
  rw [hscan, scan_word nl' hu, Option.map_some, Nat.add_comm]

/-- What the scan finds is the word, behind attempts that fail. -/
theorem skipped_of_scan (nl : Bool) {state : ParseState} (h : state.Reached) {w data : Bytes}
    {i : Nat} (hw : lowerBytes w <+: hostWord) (hletters : state.letters = w.length)
    (hnl : w = [] → state = startState nl) (hscan : hostValueStart state data = some i) :
    ∃ a u x, w ++ data = a ++ (u ++ x) ∧ Skipped nl a ∧ lowerBytes u = hostWord ∧
      w.length + i = a.length + u.length := by
  induction data generalizing state nl w i with
  | nil =>
    rw [hostValueStart] at hscan
    cases hscan
  | cons c data ih =>
    rw [hostValueStart_cons h] at hscan
    have hsnoc : lowerBytes (w ++ [c]) <+: hostWord ↔
        hostWord[state.letters]? = some (lowerByte c) := by
      rw [lowerBytes_snoc, snoc_prefix, lowerBytes, List.length_map, hletters]
      exact and_iff_right hw
    by_cases hletter : hostWord[state.letters]? = some (lowerByte c)
    case pos =>
      have hpre := hsnoc.mpr hletter
      rw [if_pos hletter] at hscan
      split at hscan
      · next hcolon =>
        cases hscan
        refine ⟨[], w ++ [c], data, (List.append_assoc w [c] data).symm, .nil, ?_, ?_⟩
        · apply hpre.eq_of_length
          rw [lowerBytes, List.length_map, List.length_append, ← hletters, hcolon]
          rfl
        · rw [List.length_append, List.length_nil, Nat.zero_add]
          rfl
      · next hcolon =>
        obtain ⟨j, hj, rfl⟩ := Option.map_eq_some_iff.mp hscan
        have hlen : (ParseState.matched (state.letters + 1)).letters = (w ++ [c]).length := by
          rw [ParseState.letters, hletters, List.length_append]
          rfl
        have hreached : (ParseState.matched (state.letters + 1)).Reached :=
          ⟨Nat.le_add_left 1 _, Nat.lt_of_le_of_ne h.letters_le hcolon⟩
        obtain ⟨a, u, x, hdata, ha, hu, hi⟩ :=
          ih nl hreached hpre hlen (fun hnil ↦ absurd hnil (List.concat_ne_nil c w)) hj
        rw [List.append_assoc] at hdata
        rw [List.length_append, List.length_singleton] at hi
        exact ⟨a, u, x, hdata, ha, hu, by omega⟩
    case neg =>
      rw [if_neg hletter] at hscan
      split at hscan
      · cases hscan
      · next hgoes =>
        obtain ⟨j, hj, rfl⟩ := Option.map_eq_some_iff.mp hscan
        rw [behind_eq] at hj
        obtain ⟨a, u, x, hdata, ha, hu, hi⟩ :=
          ih _ (reached_startState _) (show lowerBytes [] <+: hostWord from List.nil_prefix)
            (letters_startState _) (fun _ ↦ rfl) hj
        have hshort : w.length < 5 := Nat.lt_succ_of_le (hletters ▸ h.letters_le)
        have hline : nl = true → w = [] → c ≠ newLine := by
          rintro rfl hnil hnewLine
          exact hgoes ⟨hnl hnil, hnewLine⟩
        refine ⟨w ++ c :: a, u, x, ?_, .attempt hw hshort (hsnoc.not.mpr hletter) hline ha, hu, ?_⟩
        · rw [List.append_assoc, List.cons_append, ← hdata]
          rfl
        · rw [List.length_nil] at hi
          rw [List.length_append, List.length_cons]
          omega

/-- The bytes hold `host:`, in any letters, where the scan begins an attempt, and `v` from there
to the end of the line. -/
def HoldsHost (data v : Bytes) : Prop :=
  ∃ a u x, data = a ++ (u ++ (v ++ newLine :: x)) ∧ Skipped false a ∧ lowerBytes u = hostWord ∧
    newLine ∉ v

/-- What is behind the word, to the end of the line, is the value. -/
theorem extract_of_start {d a u v x : Bytes} (hd : d = a ++ (u ++ (v ++ newLine :: x)))
    (hstart : hostValueStart .idle d = some (a.length + u.length)) (hv : newLine ∉ v) :
    extractHttpHostHeader d = (fromUtf8 v).map trim := by
  have hdrop : d.drop (a.length + u.length) = v ++ newLine :: x := by
    rw [hd, ← List.append_assoc, ← List.length_append, List.drop_left]
  have hfind : (v ++ newLine :: x).findIdx? (· == newLine) = some v.length := by
    have hnone : v.findIdx? (· == newLine) = none := by
      rw [List.findIdx?_eq_none_iff]
      intro b hb
      rw [beq_eq_false_iff_ne]
      rintro rfl
      exact hv hb
    rw [List.findIdx?_append, hnone, List.findIdx?_cons]
    simp
  rw [extractHttpHostHeader, hstart]
  dsimp only [Option.bind_eq_bind, Option.bind_some]
  rw [hdrop, hfind, Option.bind_some, List.take_left]
  cases fromUtf8 v <;> rfl

/-- A `host:` that is met decides, whatever follows its line. -/
theorem HoldsHost.extract {data v : Bytes} (h : HoldsHost data v) (x : Bytes) :
    extractHttpHostHeader (data ++ x) = (fromUtf8 v).map trim := by
  obtain ⟨a, u, y, hdata, ha, hu, hv⟩ := h
  have hd : data ++ x = a ++ (u ++ (v ++ newLine :: (y ++ x))) := by
    rw [hdata]
    simp only [List.append_assoc, List.cons_append]
  apply extract_of_start hd _ hv
  rw [hd]
  exact ha.found hu _

/-- The scan finds something only where the bytes hold the word, or in a line without end. -/
theorem holdsHost_of_scan {data : Bytes} {i : Nat} (hscan : hostValueStart .idle data = some i) :
    (∃ v, HoldsHost data v) ∨ ∃ b y, data = b ++ y ∧ y ≠ [] ∧ newLine ∉ y ∧ b.length ≤ i := by
  have hw : lowerBytes [] <+: hostWord := List.nil_prefix
  obtain ⟨a, u, x, hdata, ha, hu, hi⟩ :=
    skipped_of_scan false (reached_startState false) hw rfl (fun _ ↦ rfl) hscan
  rw [List.nil_append] at hdata
  rw [List.length_nil, Nat.zero_add] at hi
  by_cases hx : newLine ∈ x
  · obtain ⟨v, y, rfl, hv⟩ := List.eq_append_cons_of_mem hx
    exact .inl ⟨v, a, u, y, hdata, ha, hu, hv⟩
  · refine .inr ⟨a, u ++ x, hdata, ?_, ?_, by omega⟩
    · rintro hnil
      rw [(List.append_eq_nil_iff.mp hnil).1] at hu
      cases hu
    · rw [List.mem_append]
      rintro (hmem | hmem)
      · have hlower : lowerByte newLine ∈ lowerBytes u := List.mem_map_of_mem hmem
        rw [hu] at hlower
        exact absurd hlower (by decide)
      · exact hx hmem

/-- Bytes that do not hold the word have no `Host` header. -/
theorem extract_eq_none {data : Bytes} (h : ∀ v, ¬ HoldsHost data v) :
    extractHttpHostHeader data = none := by
  rw [extractHttpHostHeader]
  cases hscan : hostValueStart .idle data with
  | none => rfl
  | some i =>
    rcases holdsHost_of_scan hscan with ⟨v, hv⟩ | ⟨b, y, rfl, _, hy, hb⟩
    · exact absurd hv (h v)
    · have hrest : newLine ∉ (b ++ y).drop i := by
        rw [List.drop_append, List.drop_eq_nil_of_le hb, List.nil_append]
        exact fun hmem ↦ hy (List.mem_of_mem_drop hmem)
      have hfind : ((b ++ y).drop i).findIdx? (· == newLine) = none := by
        rw [List.findIdx?_eq_none_iff]
        intro c hc
        rw [beq_eq_false_iff_ne]
        rintro rfl
        exact hrest hc
      dsimp only [Option.bind_eq_bind, Option.bind_some]
      rw [hfind, Option.bind_none]

/-! ### Lines -/

/-- Lines, each with its line feed. -/
def joinLines (ls : List Bytes) : Bytes := ls.flatMap (· ++ [newLine])

@[simp] theorem joinLines_nil : joinLines [] = [] := rfl

@[simp] theorem joinLines_cons (l : Bytes) (ls : List Bytes) :
    joinLines (l :: ls) = l ++ newLine :: joinLines ls := by
  rw [joinLines, List.flatMap_cons, List.append_assoc]
  rfl

theorem joinLines_append (ls ls' : List Bytes) :
    joinLines (ls ++ ls') = joinLines ls ++ joinLines ls' := List.flatMap_append

theorem getLast?_joinLines (l : Bytes) (ls : List Bytes) :
    (joinLines (l :: ls)).getLast? = some newLine := by
  induction ls generalizing l with
  | nil => rw [joinLines_cons, joinLines_nil, List.getLast?_concat]
  | cons l' ls ih =>
    rw [joinLines_cons, List.getLast?_append_of_ne_nil _ (List.cons_ne_nil _ _),
      List.getLast?_cons, ih]
    rfl

theorem newLine_ne_letter (k : Nat) : ¬ hostWord[k]? = some (lowerByte newLine) := by
  intro h
  have hmem := List.mem_of_getElem? h
  revert hmem
  decide

/-- Behind a line that is not empty, the scan has found something or stands at the start of a
line. -/
theorem scan_line {state : ParseState} (h : state.Reached) {l : Bytes} (hl : newLine ∉ l)
    (hstart : state = .firstNewLine → l ≠ []) (x : Bytes) :
    hostValueStart state (l ++ newLine :: x) =
      (hostValueStart state l).or
        ((hostValueStart .firstNewLine x).map (· + (l.length + 1))) := by
  induction l generalizing state with
  | nil =>
    have hline : state ≠ .firstNewLine := fun heq ↦ hstart heq rfl
    rw [List.nil_append, hostValueStart_cons h, if_neg (newLine_ne_letter _),
      if_neg fun hstop ↦ hline hstop.1, ParseState.behind, if_pos rfl, hostValueStart]
    rfl
  | cons c l ih =>
    have hc : c ≠ newLine := (List.ne_of_not_mem_cons hl).symm
    have hl' : newLine ∉ l := List.not_mem_of_not_mem_cons hl
    have hlater : ∀ state : ParseState, state.Reached → state ≠ .firstNewLine →
        (hostValueStart state (l ++ newLine :: x)).map (· + 1) =
          ((hostValueStart state l).map (· + 1)).or
            ((hostValueStart .firstNewLine x).map (· + ((c :: l).length + 1))) := by
      intro state hstate hline
      rw [ih hstate hl' (fun heq ↦ absurd heq hline), Option.map_or, Option.map_map]
      rfl
    have hgoes : ¬ (state = .firstNewLine ∧ c = newLine) := fun hstop ↦ hc hstop.2
    rw [List.cons_append, hostValueStart_cons h, hostValueStart_cons h, if_neg hgoes]
    split
    · split
      · rfl
      · next hletters =>
        exact hlater _ ⟨Nat.le_add_left 1 _, Nat.lt_of_le_of_ne h.letters_le hletters⟩ nofun
    · rw [ParseState.behind, if_neg hc]
      exact hlater _ trivial nofun

/-- Lines in which the scan finds nothing are passed. -/
theorem scan_lines {ls : List Bytes} (hls : ∀ l ∈ ls, l ≠ [] ∧ newLine ∉ l) {nl : Bool}
    (hnl : nl = true ∨ ls ≠ []) (hnone : hostValueStart (startState nl) (joinLines ls) = none)
    (x : Bytes) : hostValueStart (startState nl) (joinLines ls ++ x) =
      (hostValueStart .firstNewLine x).map (· + (joinLines ls).length) := by
  induction ls generalizing nl with
  | nil =>
    have hstart : startState nl = .firstNewLine := by
      rw [hnl.resolve_right (not_not_intro rfl)]
      rfl
    rw [hstart]
    exact (congrFun Option.map_id _).symm
  | cons l ls ih =>
    obtain ⟨⟨hne, hl⟩, hls⟩ := List.forall_mem_cons.mp hls
    have hline := scan_line (reached_startState nl) hl fun _ ↦ hne
    rw [joinLines_cons, hline] at hnone
    obtain ⟨hfirst, hrest⟩ := Option.or_eq_none_iff.mp hnone
    have hlater : hostValueStart .firstNewLine (joinLines ls ++ x) =
        (hostValueStart .firstNewLine x).map (· + (joinLines ls).length) :=
      ih hls (.inl rfl) (Option.map_eq_none_iff.mp hrest)
    rw [joinLines_cons, List.append_assoc, List.cons_append, hline, hfirst, Option.none_or, hlater,
      Option.map_map]
    congr 1
    funext i
    simp only [Function.comp_apply, List.length_append, List.length_cons]
    omega

/-! ### Requests -/

/-- A header line `name: value`, its value valid UTF-8. -/
structure HeaderLine where
  name : Bytes
  value : String
  name_ok : 58 ∉ name ∧ newLine ∉ name
  value_ok : newLine ∉ asBytes value

/-- The line without its line feed. -/
def HeaderLine.line (h : HeaderLine) : Bytes := h.name ++ [58, 32] ++ asBytes h.value ++ [13]

theorem HeaderLine.line_ok (h : HeaderLine) : h.line ≠ [] ∧ newLine ∉ h.line := by
  have hcolon : newLine ∉ ([58, 32] : Bytes) := by decide
  have hcr : newLine ∉ ([13] : Bytes) := by decide
  refine ⟨List.concat_ne_nil _ _, ?_⟩
  simp only [line, List.mem_append, not_or]
  exact ⟨⟨⟨h.name_ok.2, hcolon⟩, h.value_ok⟩, hcr⟩

/-- The whole name is `host`, ignoring ASCII case. -/
def HeaderLine.isHost (h : HeaderLine) : Bool := lowerBytes h.name == [104, 111, 115, 116]

/-- A request: a request line, header lines, an empty line, and a body. -/
structure Message where
  requestLine : Bytes
  headers : List HeaderLine
  body : Bytes
  requestLine_ok : newLine ∉ requestLine

namespace Message

/-- The request line and so many header lines, with their line ends. -/
def head (m : Message) (headers : List HeaderLine) : Bytes :=
  joinLines ((m.requestLine ++ [13]) :: headers.map HeaderLine.line)

def render (m : Message) : Bytes := m.head m.headers ++ ([13, newLine] ++ m.body)

/-- The trimmed value of the first `Host` header. -/
def host (m : Message) : Option String := (m.headers.find? HeaderLine.isHost).map (trim ·.value)

/-- What stands before the first `Host` header, or the whole request. -/
def beforeHost (m : Message) : Bytes :=
  if m.headers.any HeaderLine.isHost then m.head (m.headers.takeWhile (!·.isHost))
  else m.render

/-- All lines of a head are lines. -/
theorem lines_ok (m : Message) (headers : List HeaderLine) :
    ∀ l ∈ (m.requestLine ++ [13]) :: headers.map HeaderLine.line, l ≠ [] ∧ newLine ∉ l := by
  rw [List.forall_mem_cons]
  constructor
  · refine ⟨List.concat_ne_nil _ _, ?_⟩
    rw [List.mem_append, not_or]
    exact ⟨m.requestLine_ok, by decide⟩
  · intro l hl
    obtain ⟨h, _, rfl⟩ := List.mem_map.mp hl
    exact h.line_ok

/-- A head that does not hold the word is passed, up to the start of a line. -/
theorem scan_head {m : Message} {headers : List HeaderLine}
    (hnone : ∀ v, ¬ HoldsHost (m.head headers) v) (x : Bytes) :
    hostValueStart .idle (m.head headers ++ x) =
      (hostValueStart .firstNewLine x).map (· + (m.head headers).length) := by
  have hscan : hostValueStart (startState false) (m.head headers) = none := by
    cases hscan : hostValueStart .idle (m.head headers) with
    | none => exact hscan
    | some i =>
      rcases holdsHost_of_scan hscan with ⟨v, hv⟩ | ⟨b, y, hdata, hne, hy, _⟩
      · exact absurd hv (hnone v)
      · -- the head ends with a line feed
        have hlast : (b ++ y).getLast? = some newLine := hdata ▸ getLast?_joinLines _ _
        rw [List.getLast?_append_of_ne_nil b hne] at hlast
        exact absurd (List.mem_of_getLast? hlast) hy
  exact scan_lines (m.lines_ok headers) (.inr nofun) hscan x

/-- The first `Host` header stands behind what is before it; without one, that is everything. -/
theorem host_cases (m : Message) :
    (∃ hs h hs', m.headers = hs ++ h :: hs' ∧ h.isHost = true ∧ m.beforeHost = m.head hs ∧
      m.host = some (trim h.value)) ∨ (m.beforeHost = m.render ∧ m.host = none) := by
  rw [host, beforeHost]
  cases hfind : m.headers.find? HeaderLine.isHost with
  | none =>
    have hany : ¬ m.headers.any HeaderLine.isHost = true := by
      rw [List.any_eq_true]
      rintro ⟨h, hmem, hhost⟩
      exact List.find?_eq_none.mp hfind h hmem hhost
    exact .inr ⟨if_neg hany, rfl⟩
  | some h =>
    obtain ⟨hhost, hs, hs', hheaders, hall⟩ := List.find?_eq_some_iff_append.mp hfind
    have hany : m.headers.any HeaderLine.isHost = true :=
      List.any_eq_true.mpr ⟨h, List.mem_of_find?_eq_some hfind, hhost⟩
    have htake : m.headers.takeWhile (!·.isHost) = hs := by
      rw [hheaders, List.takeWhile_append_of_pos hall,
        List.takeWhile_cons_of_neg (by rw [hhost]; exact Bool.false_ne_true), List.append_nil]
    refine .inl ⟨hs, h, hs', hheaders, hhost, ?_, rfl⟩
    rw [if_pos hany, htake]

/-- The header's line follows the head before it. -/
theorem render_eq {m : Message} {hs hs' : List HeaderLine} {h : HeaderLine}
    (hheaders : m.headers = hs ++ h :: hs') :
    ∃ x, m.render = m.head hs ++ (h.line ++ newLine :: x) := by
  refine ⟨joinLines (hs'.map HeaderLine.line) ++ ([13, newLine] ++ m.body), ?_⟩
  rw [render, head, head, hheaders, List.map_append, List.map_cons, ← List.cons_append,
    joinLines_append, joinLines_cons _ (hs'.map _)]
  simp only [List.append_assoc, List.cons_append]

/-- The header's value is found behind a head that does not hold the word. -/
theorem extract_host {m : Message} {hs hs' : List HeaderLine} {h : HeaderLine}
    (hheaders : m.headers = hs ++ h :: hs') (hhost : h.isHost = true)
    (hnone : ∀ v, ¬ HoldsHost (m.head hs) v) :
    extractHttpHostHeader m.render = some (trim h.value) := by
  obtain ⟨x, hrender⟩ := render_eq hheaders
  have hu : lowerBytes (h.name ++ [58]) = hostWord := by
    rw [lowerBytes_snoc, beq_iff_eq.mp hhost]
    decide
  have hd : m.render = m.head hs ++ ((h.name ++ [58]) ++
      (32 :: (asBytes h.value ++ [13]) ++ newLine :: x)) := by
    rw [hrender, HeaderLine.line]
    simp only [List.append_assoc, List.cons_append, List.nil_append]
  have hstart : hostValueStart .idle m.render =
      some ((m.head hs).length + (h.name ++ [58]).length) := by
    have hword : hostValueStart .firstNewLine ((h.name ++ [58]) ++
        (32 :: (asBytes h.value ++ [13]) ++ newLine :: x)) = some (h.name ++ [58]).length :=
      scan_word true hu _
    rw [hd, scan_head hnone, hword, Option.map_some, Nat.add_comm]
  have hvalue : newLine ∉ 32 :: (asBytes h.value ++ [13]) := by
    intro hmem
    apply h.line_ok.2
    rw [HeaderLine.line]
    simp only [List.append_assoc, List.cons_append, List.nil_append]
    exact List.mem_append_right _ (List.mem_cons_of_mem 58 hmem)
  have htext : 32 :: (asBytes h.value ++ [13]) =
      asBytes (String.ofList (' ' :: (h.value.toList ++ ['\r']))) := by
    rw [asBytes_ofList, List.flatMap_cons, List.flatMap_append, ← asBytes_eq]
    rfl
  rw [extract_of_start hd hstart hvalue, htext, fromUtf8_asBytes, Option.map_some,
    trim_around (by decide) (by decide)]

/-- The scan finds the `Host` header of a request exactly when the bytes before it, or all of
them when there is none, do not hold the word, or what they hold comes to the same. -/
theorem extract_eq_host_iff (m : Message) :
    extractHttpHostHeader m.render = m.host ↔
      ∀ v, HoldsHost m.beforeHost v → (fromUtf8 v).map trim = m.host := by
  have hbefore : ∃ x, m.render = m.beforeHost ++ x := by
    rcases m.host_cases with ⟨hs, h, hs', hheaders, _, hhead, _⟩ | ⟨hall, _⟩
    · obtain ⟨x, hx⟩ := render_eq hheaders
      exact ⟨_, hhead ▸ hx⟩
    · exact ⟨[], by rw [hall, List.append_nil]⟩
  obtain ⟨x, hx⟩ := hbefore
  constructor
  · intro heq v hv
    rw [← hv.extract x, ← hx]
    exact heq
  · intro hsame
    by_cases hheld : ∃ v, HoldsHost m.beforeHost v
    · obtain ⟨v, hv⟩ := hheld
      rw [hx, hv.extract x]
      exact hsame v hv
    · have hnone : ∀ v, ¬ HoldsHost m.beforeHost v := not_exists.mp hheld
      rcases m.host_cases with ⟨hs, h, hs', hheaders, hhost, hhead, hvalue⟩ | ⟨hall, hmissing⟩
      · rw [hhead] at hnone
        rw [hvalue, extract_host hheaders hhost hnone]
      · rw [hall] at hnone
        rw [hmissing, extract_eq_none hnone]

private def ascii (text : String) : Bytes := text.toList.map fun c ↦ c.val.toUInt8

/-- A request for `a` whose target holds `host:`. -/
theorem extract_finds_target :
    let m : Message := ⟨ascii "GET /host:b HTTP/1.1",
      [⟨ascii "Host", "a", by decide, by decide⟩], [], by decide⟩
    m.host = some "a" ∧ extractHttpHostHeader m.render = some "b HTTP/1.1" := by
  decide

end Message
end Cpxy.Rules
