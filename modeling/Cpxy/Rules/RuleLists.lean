import Cpxy.Base.Run
import Cpxy.Http.Fetch
import Cpxy.Http.Response

/-!
# Lists of rules

Library `Rules`. Source `src/abp/mod.rs:30–33` and `96–254`. A list of rules is downloaded
through the proxy, when it is newer than the one there is, and its rules replace those in use.
The `adblock` package, the decoder of Base64, the text of a time and the file of the cache are
outside, and parameters.
-/

namespace Cpxy.Rules

open Cpxy.Base Cpxy.Http Cpxy.Io Cpxy.Net

/-- `FilterSet` and `Engine` of the `adblock` package. -/
structure Adblock (F E : Type) where
  newSet : F
  addFilter : F → String → Except String Unit × F
  fromFilterSet : F → E
  serializeCompressed : E → Option Bytes
  matched : E → String → Bool

/-- `EngineState`; `abp/mod.rs:30–33`. -/
structure EngineState (E T : Type) where
  engine : Option (E × T)
  cacheFilePath : Option String

/-- `ABPEngine` without its state; `abp/mod.rs:209–213`. -/
structure ABPEngine where
  ruleUrl : String
  isBase64 : Bool

/-- `adblock_list_engine`; `abp/mod.rs:234–243`. -/
def adblockListEngine : ABPEngine := ⟨"https://easylist.to/easylist/easylist.txt", false⟩

/-- `gfw_list_engine`; `abp/mod.rs:245–254`. -/
def gfwListEngine : ABPEngine :=
  ⟨"https://raw.githubusercontent.com/gfwlist/gfwlist/master/gfwlist.txt", true⟩

/-- What an update uses that is the same for all. -/
structure Tools (F E T : Type) where
  adblock : Adblock F E
  httparse : HttparseResponse
  parseChunkSize : ParseChunkSize
  base64Decode : Bytes → Except ErrorChain Bytes
  format : T → String

/-- What one update meets with: uninitialised buffers, what comes back from the proxy, the time,
and whether the file of the cache can be written. -/
structure Download (T : Type) where
  mem : Bytes
  mem8 : Bytes
  cs : List Chunk
  now : T
  writeCache : String → Bytes → Except ErrorChain Unit
  length_mem : mem.length = 512
  length_mem8 : mem8.length = 8

variable {F E T : Type}

/-- The rule in a line, if it is no comment and not empty; `abp/mod.rs:146–150`. -/
def ruleOfLine (line : Bytes) : Option String :=
  let line := trim (fromUtf8Lossy line)
  if line.toList.head? = some '#' ∨ line.toList.head? = some '!' ∨ line = "" then none
  else some line

/-- Add a rule, and count it unless it is refused; `abp/mod.rs:152–156`. -/
def addRule (adblock : Adblock F E) (acc : F × Nat) (rule : String) : F × Nat :=
  match adblock.addFilter acc.1 rule with
  | (.ok (), filterSet) => (filterSet, acc.2 + 1)
  | (.error _, filterSet) => (filterSet, acc.2)

/-- One round of the loop; `abp/mod.rs:145–157`. -/
def addLine (adblock : Adblock F E) (acc : F × Nat) (line : Bytes) : F × Nat :=
  match ruleOfLine line with
  | none => acc
  | some rule => addRule adblock acc rule

/-- The text of a list, whose Base64 is decoded without its line breaks;
`abp/mod.rs:136–140`. -/
def listText (tools : Tools F E T) (isBase64 : Bool) (body : Bytes) : Except ErrorChain Bytes :=
  if isBase64 then tools.base64Decode (body.filter fun x ↦ x ≠ 13 && x ≠ 10) else .ok body

/-- The rules of a list and their number; `abp/mod.rs:136–157`. -/
def readList (tools : Tools F E T) (isBase64 : Bool) (body : Bytes) :
    Except ErrorChain (F × Nat) :=
  match listText tools isBase64 body with
  | .ok body => .ok ((body.splitOn 10).foldl (addLine tools.adblock) (tools.adblock.newSet, 0))
  | .error e => .error e

/-- The time of the last update, in the header of the request; `abp/mod.rs:104–127`. -/
def ifModifiedSince (tools : Tools F E T) (state : EngineState E T) : List (String × Bytes) :=
  match state.engine with
  | some (_, t) => [("If-Modified-Since", asBytes (tools.format t))]
  | none => []

/-- The request for a list, on a stream that is connected to the proxy. -/
def fetchList (tools : Tools F E T) (list : ABPEngine) (state : EngineState E T)
    (d : Download T) : Replied (AsyncHttpStream HttpResponse) :=
  fetchHttpWithProxy tools.httparse d.mem list.ruleUrl "GET" (ifModifiedSince tools state) none d.cs

/-- `update_engine`, but for what is written to the proxy; `abp/mod.rs:129–185`. -/
def updateEngine (tools : Tools F E T) (list : ABPEngine) (state : EngineState E T)
    (d : Download T) : Outcome ErrorChain Nat × EngineState E T :=
  match (fetchList tools list state d).outcome with
  | .err e => (.err e, state)
  | .panicked => (.panicked, state)
  | .ok r =>
    if r.init.statusCode = 200 then
      match body tools.parseChunkSize d.mem8 r with
      | .err e => (.err e, state)
      | .panicked => (.panicked, state)
      | .ok (body, _) =>
        match readList tools list.isBase64 body with
        | .error e => (.err e, state)
        | .ok (filterSet, lineCount) =>
          let newEngine := tools.adblock.fromFilterSet filterSet
          let contents := state.cacheFilePath.bind fun _ ↦
            tools.adblock.serializeCompressed newEngine
          let state := { state with engine := some (newEngine, d.now) }
          match state.cacheFilePath, contents with
          | some p, some buf =>
            match d.writeCache p buf with
            | .ok () => (.ok lineCount, state)
            | .error e => (.err e, state)
          | _, _ => (.ok lineCount, state)
    else if r.init.statusCode = 304 then (.ok 0, state)
    else (.err [s!"Invalid http response: {r.init.statusCode}"], state)

/-- `matches_abp`; `abp/mod.rs:188–207`. -/
def matchesAbp (adblock : Adblock F E) (state : EngineState E T) (addr : Address) : Bool :=
  match state.engine with
  | some (engine, _) =>
    let url :=
      if addr.getPort = 443 then s!"https://{addr.getHost}" else s!"http://{addr.getHost}"
    adblock.matched engine url
  | none => false

/-! ### Which list is in use -/

/-- The engine that a download comes to, if it brings a list. -/
def taken (tools : Tools F E T) (list : ABPEngine) (d : Download T) : Option (E × T) :=
  match (fetchList tools list ⟨none, none⟩ d).outcome with
  | .ok r =>
    if r.init.statusCode = 200 then
      match body tools.parseChunkSize d.mem8 r with
      | .ok (body, _) =>
        (readList tools list.isBase64 body).toOption.map fun p ↦
          (tools.adblock.fromFilterSet p.1, d.now)
      | _ => none
    else none
  | _ => none

variable {tools : Tools F E T} {list : ABPEngine} {d : Download T}

/-- What comes back is read in the same way, whatever was asked. -/
theorem outcome_fetchList (state state' : EngineState E T) :
    (fetchList tools list state d).outcome = (fetchList tools list state' d).outcome := by
  rw [fetchList, fetchList, fetchHttpWithProxy, fetchHttpWithProxy]
  cases HttpUrl.tryFrom list.ruleUrl <;> rfl

/-- An update that brings no list changes nothing; one that does replaces the engine, even if the
file of the cache cannot be written. -/
theorem state_updateEngine (state : EngineState E T) :
    (updateEngine tools list state d).2 =
      { state with engine := (taken tools list d).or state.engine } := by
  rw [updateEngine, taken, outcome_fetchList state ⟨none, none⟩]
  cases (fetchList tools list (⟨none, none⟩ : EngineState E T) d).outcome with
  | err e => rfl
  | panicked => rfl
  | ok r =>
    dsimp only
    split
    · cases body tools.parseChunkSize d.mem8 r with
      | err e => rfl
      | panicked => rfl
      | ok res =>
        dsimp only
        cases readList tools list.isBase64 res.1 with
        | error e => rfl
        | ok p =>
          dsimp only
          split
          · split <;> rfl
          · rfl
    · split <;> rfl

/-- After any number of updates, the list that was brought last is in use. -/
theorem engine_run (ds : List (Download T)) (state : EngineState E T) :
    (runFrom (fun state d ↦ (updateEngine tools list state d).2) state ds).engine =
      (ds.filterMap (taken tools list)).getLast?.or state.engine := by
  induction ds generalizing state with
  | nil => rfl
  | cons d ds ih =>
    rw [runFrom_cons, ih, state_updateEngine, List.filterMap_cons]
    cases taken tools list d with
    | none => rfl
    | some engine =>
      dsimp only
      rw [List.getLast?_cons, Option.some_or]
      cases (ds.filterMap (taken tools list)).getLast? <;> rfl

/-! ### From the response to the rules -/

/-- The rules of a list with these lines, and how many were not refused. -/
def rulesOf (adblock : Adblock F E) (lines : List Bytes) : F × Nat :=
  (lines.filterMap ruleOfLine).foldl (addRule adblock) (adblock.newSet, 0)

/-- A download brings a list of these lines in its response, as it is or in Base64. -/
structure Brings (tools : Tools F E T) (list : ABPEngine) (d : Download T) (lines : List Bytes) :
    Prop where
  url : ∃ u, HttpUrl.tryFrom list.ruleUrl = .ok u
  response : ∃ head headers data later,
    tools.httparse head = .ok (some (head.length, ⟨some 200, headers⟩)) ∧ head ≠ [] ∧
      Framed headers data ∧ content d.cs = head ++ (data ++ later) ∧
      listText tools list.isBase64 data = .ok (List.intercalate [10] lines)
  ne_nil : lines ≠ []
  whole : ∀ line ∈ lines, 10 ∉ line

theorem foldl_addLine (adblock : Adblock F E) (lines : List Bytes) (acc : F × Nat) :
    lines.foldl (addLine adblock) acc =
      (lines.filterMap ruleOfLine).foldl (addRule adblock) acc := by
  induction lines generalizing acc with
  | nil => rfl
  | cons line lines ih =>
    rw [List.foldl_cons, ih, List.filterMap_cons, addLine]
    cases ruleOfLine line <;> rfl

theorem readList_lines {lines : List Bytes} {data : Bytes} (hne : lines ≠ [])
    (hwhole : ∀ line ∈ lines, 10 ∉ line)
    (h : listText tools list.isBase64 data = .ok (List.intercalate [10] lines)) :
    readList tools list.isBase64 data = .ok (rulesOf tools.adblock lines) := by
  rw [readList, h]
  dsimp only
  rw [List.splitOn_intercalate 10 hwhole hne, foldl_addLine, rulesOf]

/-- The response of a download that brings a list is found, however it arrives. -/
theorem Brings.fetched {lines : List Bytes} (h : Brings tools list d lines)
    (hp : Stable tools.httparse) (state : EngineState E T) :
    ∃ r data s', (fetchList tools list state d).outcome = .ok r ∧ r.init.statusCode = 200 ∧
      body tools.parseChunkSize d.mem8 r = .ok (data, s') ∧
      readList tools list.isBase64 data = .ok (rulesOf tools.adblock lines) := by
  obtain ⟨u, hurl⟩ := h.url
  obtain ⟨head, headers, data, later, hhead, hne, hframed, hcs, htext⟩ := h.response
  have hmem := d.length_mem
  obtain ⟨r, hparse, hinit, hunread, hkept⟩ :=
    parseHead_spec ["Unexpected EOF while parsing HTTP response"]
      (responseHead_readsWord (hp.readsWord hhead) rfl) hne
      (b := RWBuffer.new d.mem) (RWBuffer.readBuf_new d.mem) (hmem ▸ (by decide : 2 ≤ 512)) hcs
  have hheaders : Framed (WithHeaders.headers r.init) data := by
    rw [hinit]
    exact hframed
  obtain ⟨s', hbody, _⟩ := hheaders.body_eq hkept hunread tools.parseChunkSize d.mem8
  refine ⟨r, data, s', ?_, by rw [hinit], hbody, readList_lines h.ne_nil h.whole htext⟩
  rw [fetchList, fetchHttpWithProxy, hurl]
  exact hparse

private def listHead : Bytes := asBytes "HTTP/1.1 200 OK\r\nContent-Length: 14\r\n\r\n"

private def listLines : List Bytes := [asBytes "||a.nz", asBytes "!c"]

-- The two lines in Base64, with a line break of its own.
private def listData : Bytes := asBytes "fHxhLm56\r\nCiFj"

private def listHeaders : List (String × Bytes) := [("Content-Length", asBytes "14")]

private def listParser : HttparseResponse :=
  onlyWord listHead "invalid token" ⟨some 200, listHeaders⟩

private def listTools : Tools (List String) (List String) Nat where
  adblock :=
    { newSet := []
      addFilter := fun f rule ↦ (.ok (), f ++ [rule])
      fromFilterSet := id
      serializeCompressed := fun e ↦ some (e.flatMap asBytes)
      matched := fun e url ↦ url = "http://a.nz" ∧ "||a.nz" ∈ e }
  httparse := listParser
  parseChunkSize _ := .err "invalid chunk size"
  base64Decode b :=
    if b = asBytes "fHxhLm56CiFj" then .ok (List.intercalate [10] listLines)
    else .error ["Invalid byte"]
  format _ := "Thu, 01 Jan 1970 00:00:00 GMT"

private theorem listHead_ne_nil : listHead ≠ [] := by decide +kernel

private theorem listParser_head :
    listParser listHead = .ok (some (listHead.length, ⟨some 200, listHeaders⟩)) := by
  rw [listParser]
  exact onlyWord_self _ _ _

private theorem stable_listParser : Stable listTools.httparse := onlyWord_stable _ _ _

private def listDownload : Download Nat where
  mem := List.replicate 512 1
  mem8 := List.replicate 8 1
  cs := [⟨listHead ++ listData, List.append_ne_nil_of_left_ne_nil listHead_ne_nil _⟩]
  now := 60
  writeCache _ _ := .ok ()
  length_mem := List.length_replicate
  length_mem8 := List.length_replicate

private def noList : EngineState (List String) Nat := ⟨none, some "gfwlist.abp"⟩

private theorem brings_list : Brings listTools gfwListEngine listDownload listLines where
  url := ⟨⟨true, .name "raw.githubusercontent.com" 443, "/gfwlist/gfwlist/master/gfwlist.txt"⟩,
    by decide +kernel⟩
  response := by
    refine ⟨listHead, listHeaders, listData, [], listParser_head, listHead_ne_nil, ?_, ?_, ?_⟩
    · exact ⟨by decide +kernel, by decide +kernel, fun h ↦ absurd h (by decide +kernel)⟩
    · rw [listDownload, content_cons, content_nil, List.append_assoc]
    · decide +kernel
  ne_nil := by decide
  whole := by decide +kernel

end Cpxy.Rules
