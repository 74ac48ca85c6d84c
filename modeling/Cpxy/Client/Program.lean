import Cpxy.Client.Api
import Cpxy.Client.Reload
import Mathlib.Data.List.Forall2

/-!
# The client's program

Library `Client`. Source `src/controller.rs:293–369` and `src/client/handler.rs:27–97`. The
controller serves its connections one after the other while the client follows it. From the
bytes of a request to what the client runs, an operation goes through the parser, the file, and
the broadcast.
-/

namespace Cpxy.Client

open Cpxy.Base Cpxy.Http Cpxy.Io

variable {χ φ P S D : Type}

/-- Controller and client as the interface uses them. -/
def System.backend [DecidableEq P] (ch : Overflowing χ (Current P S) 1) (toYaml : ToYaml P S)
    (configFile : String) : Backend (System χ φ P S) P S where
  current t := t.store.controller
  operate op fs t :=
    ((t.store.operate toYaml configFile (op, fs)).1, t.operate ch toYaml configFile op fs)

/-- What happens next: a client of the interface connects, or the proxy's client looks at the
broadcasts. -/
inductive Occurrence (D : Type) where
  | connect (m : Meeting D) (cs : List Chunk)
  | poll (env : Surroundings)

/-- `run_controller`, with what was written on the connections so far; `controller.rs:331–369`. -/
structure Program (χ φ P S : Type) where
  system : System χ φ P S
  answers : List (Outcome ErrorChain Bytes)

namespace Program

variable [DecidableEq P] (ch : Overflowing χ (Current P S) 1) (host : Host φ)
  (listen : S → Listen) (toYaml : ToYaml P S) (configFile : String) (outside : Outside P S D)

/-- A panic in the controller ends the program. -/
def crashed (p : Program χ φ P S) : Bool :=
  match p.answers.getLast? with
  | some .panicked => true
  | _ => false

/-- One round of the loop, or a look of the client; `controller.rs:358–368`. -/
def step (p : Program χ φ P S) (o : Occurrence D) : Program χ φ P S :=
  if p.crashed then p
  else
    match o with
    | .connect m cs =>
      let res := handleClient outside (System.backend ch toYaml configFile) m p.system cs
      ⟨res.2, p.answers ++ [res.1]⟩
    | .poll env => { p with system := p.system.poll ch host listen env }

/-- Where `run_controller` starts, on a configuration that was loaded. -/
def start (config : ClientConfig P S) (file : Option Bytes) (s : φ) : Program χ φ P S :=
  ⟨.start ch config file s, []⟩

variable {ch host listen toYaml configFile outside} {p : Program χ φ P S}

theorem step_of_crashed (h : p.crashed = true) (o : Occurrence D) :
    p.step ch host listen toYaml configFile outside o = p := by
  rw [step.eq_def, if_pos h]

theorem step_connect (h : p.crashed = false) (m : Meeting D) (cs : List Chunk) :
    p.step ch host listen toYaml configFile outside (.connect m cs) =
      let res := handleClient outside (System.backend ch toYaml configFile) m p.system cs
      ⟨res.2, p.answers ++ [res.1]⟩ := by
  rw [step, if_neg (by rw [h]; exact Bool.false_ne_true)]

theorem step_poll (h : p.crashed = false) (env : Surroundings) :
    p.step ch host listen toYaml configFile outside (.poll env) =
      { p with system := p.system.poll ch host listen env } := by
  rw [step, if_neg (by rw [h]; exact Bool.false_ne_true)]

/-! ### The program does what the system does -/

/-- What an occurrence comes to: an operation at most for a connection. -/
def Amounts : Occurrence D → List (Event P S) → Prop
  | .connect m _, events => events = [] ∨ ∃ op, events = [.operate op m.fs]
  | .poll env, events => events = [] ∨ events = [.poll env]

theorem system_step (p : Program χ φ P S) (o : Occurrence D) :
    ∃ events, Amounts o events ∧ (p.step ch host listen toYaml configFile outside o).system =
      runFrom (System.step ch host listen toYaml configFile) p.system events := by
  cases hcrashed : p.crashed with
  | true =>
    refine ⟨[], ?_, by rw [step_of_crashed hcrashed]; rfl⟩
    cases o <;> exact .inl rfl
  | false =>
    cases o with
    | connect m cs =>
      rw [step_connect hcrashed]
      rcases operated_handleClient outside (System.backend ch toYaml configFile) m p.system cs with hsame | ⟨op, hop⟩
      · exact ⟨[], .inl rfl, hsame⟩
      · exact ⟨[.operate op m.fs], .inr ⟨op, rfl⟩, hop⟩
    | poll env =>
      rw [step_poll hcrashed]
      exact ⟨[.poll env], .inr rfl, rfl⟩

theorem system_run (os : List (Occurrence D)) (p : Program χ φ P S) :
    ∃ events, List.Forall₂ Amounts os events ∧
      (runFrom (step ch host listen toYaml configFile outside) p os).system =
        runFrom (System.step ch host listen toYaml configFile) p.system events.flatten := by
  induction os generalizing p with
  | nil => exact ⟨[], .nil, rfl⟩
  | cons o os ih =>
    obtain ⟨first, hfirst, hstep⟩ : ∃ events, Amounts o events ∧
        (p.step ch host listen toYaml configFile outside o).system =
          runFrom (System.step ch host listen toYaml configFile) p.system events := system_step p o
    obtain ⟨rest, hrest, hrun⟩ := ih (p.step ch host listen toYaml configFile outside o)
    refine ⟨first :: rest, .cons hfirst hrest, ?_⟩
    rw [runFrom_cons, hrun, hstep, List.flatten_cons, runFrom, runFrom, runFrom, List.foldl_append]

/-! ### What is answered -/

/-- An answer is one response, or the controller panicked. -/
def Answered : Outcome ErrorChain Bytes → Prop
  | .panicked => True
  | answer => ∃ code ∈ [200, 201, 400, 404, 500], ∃ statusMsg contentType body,
    answer = .ok (writeHttpResponse code statusMsg contentType body)

/-- Whether an occurrence is a connection. -/
def isConnect : Occurrence D → Bool
  | .connect _ _ => true
  | .poll _ => false

theorem answered_step (h : ∀ a ∈ p.answers, Answered a) (o : Occurrence D) :
    ∀ a ∈ (p.step ch host listen toYaml configFile outside o).answers, Answered a := by
  cases hcrashed : p.crashed with
  | true => rwa [step_of_crashed hcrashed]
  | false =>
    cases o with
    | connect m cs =>
      rw [step_connect hcrashed]
      intro a ha
      rcases List.mem_append.mp ha with ha | ha
      · exact h a ha
      · cases List.mem_singleton.mp ha
        rcases handleClient_answers outside (System.backend ch toYaml configFile) m p.system cs with hres | hres
        · rw [hres]
          trivial
        · obtain ⟨code, hcode, statusMsg, contentType, body, hres⟩ := hres
          rw [hres]
          exact ⟨code, hcode, statusMsg, contentType, body, rfl⟩
    | poll env =>
      rw [step_poll hcrashed]
      exact h

theorem crashed_run (h : p.crashed = true) (os : List (Occurrence D)) :
    runFrom (step ch host listen toYaml configFile outside) p os = p := by
  induction os with
  | nil => rfl
  | cons o os ih => rw [runFrom_cons, step_of_crashed h, ih]

/-- While the program runs, there is an answer for every connection. -/
theorem length_answers_run (os : List (Occurrence D)) (p : Program χ φ P S)
    (h : (runFrom (step ch host listen toYaml configFile outside) p os).crashed = false) :
    (runFrom (step ch host listen toYaml configFile outside) p os).answers.length =
      p.answers.length + os.countP isConnect := by
  induction os generalizing p with
  | nil => rfl
  | cons o os ih =>
    cases hcrashed : p.crashed with
    | true =>
      rw [crashed_run hcrashed, hcrashed] at h
      cases h
    | false =>
      rw [runFrom_cons, ih _ h]
      cases o with
      | connect m cs =>
        rw [step_connect hcrashed]
        simp only [isConnect, List.countP_cons, List.length_append, List.length_singleton,
          if_true]
        omega
      | poll env =>
        rw [step_poll hcrashed]
        simp [isConnect]

end Program

/-- The bytes of a head and a body in which an operation is asked for. -/
structure Asks (outside : Outside P S D) (head data : Bytes) (req : HttpRequest)
    (op : Operation P S) : Prop where
  reads : outside.httparse head =
    .ok (some (head.length, ⟨some req.method, some req.path, req.headers⟩))
  ne_nil : head ≠ []
  framed : Framed req.headers data
  asks : ∃ path, HttpPath.fromStr outside.decode req.path = .ok path ∧
    asked outside req path data = some op

section Served

variable [DecidableEq P] {ch : Overflowing χ (Current P S) 1} {host : Host φ}
  {listen : S → Listen} {toYaml : ToYaml P S} {configFile : String} {outside : Outside P S D}
  {head data later : Bytes} {req : HttpRequest} {op : Operation P S} {m : Meeting D}
  {p : Program χ φ P S}

theorem Asks.step (h : Asks outside head data req op) (hp : Stable outside.httparse)
    (hruns : p.crashed = false) {cs : List Chunk} (hcs : content cs = head ++ (data ++ later)) :
    p.step ch host listen toYaml configFile outside (.connect m cs) =
      let res := change outside (System.backend ch toYaml configFile) m.fs (responseType req)
        p.system (.ok op)
      ⟨res.2, p.answers ++ [written outside res.1]⟩ := by
  obtain ⟨path, hpath, hasked⟩ := h.asks
  rw [Program.step_connect hruns, handleClient_eq hp h.reads h.ne_nil h.framed hcs]
  dsimp only
  rw [Option.getD_some, Option.getD_some, route_of_asked hpath hasked]

theorem System.store_operate (t : System χ φ P S) (op : Operation P S) (fs : FileSystem) :
    (t.operate ch toYaml configFile op fs).store =
      (t.store.operate toYaml configFile (op, fs)).2 := by
  rw [System.operate]
  split <;> rfl

theorem ConfigStore.operate_saved {t : ConfigStore P S} {call : Operation P S × FileSystem}
    (h : (t.operate toYaml configFile call).1 = .ok ()) :
    (t.operate toYaml configFile call).2.controller = t.next call.1 ∧
      ∃ text, toYaml (t.next call.1).config = .ok text ∧
        (t.operate toYaml configFile call).2.file = some (asBytes text) := by
  obtain ⟨_, _, hall⟩ := saveConfig_file toYaml configFile call.2 t.file (t.next call.1).config
  rw [ConfigStore.operate, ConfigStore.setCurrentConfig_eq] at h ⊢
  rcases hsaved : saveConfig toYaml configFile call.2 t.file (t.next call.1).config with
    ⟨e | u, file⟩
  · rw [hsaved] at h
    cases h
  · rw [hsaved] at hall
    exact ⟨rfl, hall rfl⟩

theorem ConfigStore.operate_failed {t : ConfigStore P S} {call : Operation P S × FileSystem}
    {e : ErrorChain} (h : (t.operate toYaml configFile call).1 = .error e) :
    (t.operate toYaml configFile call).2.controller = t.controller := by
  rw [ConfigStore.operate, ConfigStore.setCurrentConfig_eq] at h ⊢
  rcases hsaved : saveConfig toYaml configFile call.2 t.file (t.next call.1).config with
    ⟨e' | u, file⟩
  · rfl
  · rw [hsaved] at h
    cases h

end Served

private def deleteRequest : HttpRequest :=
  ⟨[("Content-Type", asBytes "application/json"), ("Content-Length", asBytes "5")], "DELETE",
    "/api/upstream"⟩

private def deleteHead : Bytes := deleteRequest.toBuilder.finalise

private def deleteBody : Bytes := asBytes "[\"a\"]"

private def deleteParser : Httparse := onlyWord deleteHead "invalid token"
  ⟨some deleteRequest.method, some deleteRequest.path, deleteRequest.headers⟩

-- The formats, on the texts of this request and its response.
private def deleteSerde : Serde Unit Unit Unit where
  write _ payload :=
    match payload with
    | .unit => .ok (asBytes "null")
    | _ => .error ["unsupported"]
  config _ _ := .error ["expected a map"]
  updates _ _ := .error ["expected a map"]
  names _ b := if b = deleteBody then .ok ["a"] else .error ["expected a sequence"]

private def deleteOutside : Outside Unit Unit Unit where
  httparse := deleteParser
  parseChunkSize _ := .err "invalid chunk size"
  decode := .ok
  serde := deleteSerde
  asset _ := none
  mimeGuess _ := none
  socks5Address _ := .v4 ⟨0x7F000001⟩ 5000
  debug _ := "None"

private def deleteMeeting : Meeting Unit where
  mem := List.replicate 512 0
  mem8 := List.replicate 8 0
  fs := ⟨.ok (), .ok (), .ok ()⟩
  lastUpdated _ := .ok none
  update _ _ := .ok 0
  thenUpdated _ := .ok none
  length_mem := List.length_replicate
  length_mem8 := List.length_replicate

private theorem deleteHead_ne_nil : deleteHead ≠ [] := by
  rw [deleteHead, HttpRequestBuilder.finalise]
  intro h
  exact absurd (List.append_eq_nil_iff.mp h).2 (by decide)

private theorem asks_delete :
    Asks deleteOutside deleteHead deleteBody deleteRequest (.deleteUpstreams ["a"]) where
  reads := by
    have hparse : deleteOutside.httparse = deleteParser := rfl
    rw [hparse, deleteParser]
    exact onlyWord_self _ _ _
  ne_nil := deleteHead_ne_nil
  framed := ⟨by decide +kernel, by decide +kernel, fun h ↦ absurd h (by decide +kernel)⟩
  asks := ⟨⟨"/api/upstream", []⟩, by decide +kernel, by rfl⟩

private def deletePieces : List Chunk :=
  [⟨deleteHead ++ deleteBody, List.append_ne_nil_of_left_ne_nil deleteHead_ne_nil _⟩]

private theorem content_deletePieces :
    content deletePieces = deleteHead ++ (deleteBody ++ []) := by
  rw [deletePieces, content_cons, content_nil, List.append_assoc]

private theorem operate_written (t : ConfigStore Unit Unit) :
    (t.operate (fun _ ↦ .ok "") "config.yaml" (.deleteUpstreams ["a"], deleteMeeting.fs)).1 =
      .ok () := by
  rw [ConfigStore.operate, ConfigStore.setCurrentConfig_eq]
  rfl

private def oneValue : Overflowing (List (Current Unit Unit) × Bool) (Current Unit Unit) 1 :=
  .queue (Current Unit Unit) 1

private noncomputable def router : Host Rules := .ideal fun rule chain ↦ rule = s!"-j {chain}"

private def local5000 : Unit → Listen := fun _ ↦ ⟨.v4 ⟨0x7F000001⟩ 5000, none, true⟩

end Cpxy.Client
