import Cpxy.Net.Address

/-!
# URLs

Library `Http`. Source `src/url.rs:7–90`. A URL is cut at the first `://`, then at the
first slash, then at the last colon of what stands before it.
-/

namespace Cpxy.Http

open Cpxy.Base Cpxy.Net

/-- `Url`; `url.rs:7–12`. -/
structure Url where
  scheme : String
  host : String
  port : Option UInt16
  path : String
  deriving DecidableEq, Repr

/-- `HttpUrl`; `url.rs:14–19`. -/
structure HttpUrl where
  isHttps : Bool
  address : Address
  path : String
  deriving DecidableEq, Repr

/-- Host and port around the last colon, neither of which may be empty; `url.rs:74–81`. -/
def splitPort (hostAndPort : List Char) : Outcome ErrorChain (String × Option UInt16) :=
  match rsplitOnce ':' hostAndPort with
  | some (host, port) =>
    if host ≠ [] ∧ port ≠ [] then
      match parseUnsigned 65536 port with
      | .ok p => .ok (String.ofList host, some (UInt16.ofNat p))
      | .error e => .err [e]
    else .err [s!"Invalid host or port: {String.ofList hostAndPort}"]
  | none => .ok (String.ofList hostAndPort, none)

/-- `TryFrom<&str> for Url`; `url.rs:63–89`. The path keeps its slash. -/
def Url.tryFrom (url : String) : Outcome ErrorChain Url := do
  let (scheme, rest) :=
    match splitOnText "://".toList url.toList with
    | some (scheme, rest) => (scheme, rest)
    | none => ([], url.toList)
  let (host, port) ← splitPort (rest.takeWhile (· ≠ '/'))
  .ok ⟨String.ofList scheme, host, port, String.ofList (rest.dropWhile (· ≠ '/'))⟩

/-- `TryFrom<&str> for HttpUrl`; `url.rs:34–57`. -/
def HttpUrl.tryFrom (url : String) : Outcome ErrorChain HttpUrl := do
  let u ← Url.tryFrom url
  let (isHttps, defaultPort) ←
    if eqIgnoreAsciiCase u.scheme "http" then .ok (false, (80 : UInt16))
    else if eqIgnoreAsciiCase u.scheme "https" then .ok (true, 443)
    else .err [s!"Unknown http scheme {u.scheme}"]
  let path := if u.path = "" then "/" else u.path
  .ok ⟨isHttps, Address.fromHost u.host (u.port.getD defaultPort), path⟩

theorem splitPort_total (s : List Char) : splitPort s ≠ .panicked := by
  unfold splitPort
  split
  · split
    · split <;> simp
    · simp
  · simp

theorem HttpUrl.tryFrom_total (url : String) : HttpUrl.tryFrom url ≠ .panicked := by
  unfold HttpUrl.tryFrom
  apply Outcome.bind_ne_panicked
  · unfold Url.tryFrom
    apply Outcome.bind_ne_panicked
    · exact splitPort_total _
    · simp
  · intro u _
    dsimp only
    split
    · simp
    · split <;> simp

end Cpxy.Http
