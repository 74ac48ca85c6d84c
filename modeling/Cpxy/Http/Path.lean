import Cpxy.Base.Outcome
import Cpxy.Base.Text

/-!
# Paths with queries

Library `Http`. Source `src/http_path.rs:6–64`. A path ends at the first question mark, and the
queries behind it are names with values. `urlencoding` is a package outside the repository, so
its decoder is a parameter.
-/

namespace Cpxy.Http

open Cpxy.Base

/-- `urlencoding::decode`. -/
abbrev UrlDecode := String → Except ErrorChain String

/-- `HttpPath`; `http_path.rs:6–9`. -/
structure HttpPath where
  path : String
  queries : List (String × String)
  deriving DecidableEq, Repr

namespace HttpPath

/-- `get_query`; `http_path.rs:12–17`. -/
def getQuery (p : HttpPath) (name : String) : Option String :=
  (p.queries.find? fun q ↦ q.1 = name).map Prod.snd

/-- Decode a name or a value; `http_path.rs:40–42`. -/
def decodeParameter (decode : UrlDecode) (text : List Char) : Except ErrorChain String :=
  match decode (String.ofList text) with
  | .ok s => .ok s
  | .error e => .error (s!"Parsing query parameter: {String.ofList text}" :: e)

/-- One round of the loop; `http_path.rs:37–56`. -/
def parseQuery (decode : UrlDecode) (query : List Char) : Except ErrorChain (String × String) :=
  match splitOnce '=' query with
  | some (name, value) => do
    let name ← decodeParameter decode name
    let value ← decodeParameter decode value
    .ok (name, value)
  | none => do
    let name ← decodeParameter decode query
    .ok (name, "")

/-- `from_str`; `http_path.rs:23–63`. -/
def fromStr (decode : UrlDecode) (value : String) : Except ErrorChain HttpPath :=
  match splitOnce '?' value.toList with
  | none => .ok ⟨value, []⟩
  | some (path, queriesStr) => do
    let queries ← (splitAll '&' queriesStr).mapM (parseQuery decode)
    .ok ⟨String.ofList path, queries⟩

end HttpPath
end Cpxy.Http
