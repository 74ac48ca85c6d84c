import Cpxy.Base.Incremental
import Cpxy.Base.Text

/-!
# HTTP requests

Library `Http`. Source `src/http.rs:15–158`. A request head, the bytes that a builder
makes of it, and its parser. The grammar is that of the `httparse` crate, which stays a
parameter: from the bytes so far it wants more, fails, or reads a head.
-/

namespace Cpxy.Http

open Cpxy.Base

/-- `HttpRequest`; `http.rs:75–80`. -/
structure HttpRequest where
  headers : List (String × Bytes)
  method : String
  path : String
  deriving DecidableEq, Repr

/-- What `httparse::Request` holds when its parser is done. -/
structure ParsedHead where
  method : Option String
  path : Option String
  headers : List (String × Bytes)
  deriving DecidableEq, Repr

/-- `httparse::Request::parse`, with the text of its error. -/
abbrev Httparse := Incremental String ParsedHead

/-- `HttpRequest::parse`; `http.rs:117–141`. -/
def HttpRequest.parse (httparse : Httparse) (buf : Bytes) :
    Outcome ErrorChain (Option (Nat × HttpRequest)) := do
  match ← (httparse buf).mapErr (fun e ↦ ["Pasring HTTP request", e]) with
  | some (offset, req) =>
    match req.method, req.path with
    | none, _ => .err ["No method"]
    | some _, none => .err ["No path"]
    | some method, some path => .ok (some (offset, ⟨req.headers, method, path⟩))
  | none => .ok none

/-! ### Building a request -/

/-- `HttpRequestBuilder`; `http.rs:41–43`. -/
structure HttpRequestBuilder where
  buf : Bytes
  deriving DecidableEq, Repr

namespace HttpRequestBuilder

/-- `HttpRequestBuilder::new`; `http.rs:46–50`. -/
def new (method path : String) : HttpRequestBuilder :=
  ⟨asBytes s!"{method} {path} HTTP/1.1\r\n"⟩

/-- `put_header_text`; `http.rs:52–59`. -/
def putHeaderText (b : HttpRequestBuilder) (name value : String) : HttpRequestBuilder :=
  ⟨b.buf ++ asBytes s!"{name}: {value}\r\n"⟩

/-- `put_header`; `http.rs:61–66`. -/
def putHeader (b : HttpRequestBuilder) (name : String) (value : Bytes) : HttpRequestBuilder :=
  ⟨b.buf ++ asBytes s!"{name}: " ++ value ++ asBytes "\r\n"⟩

/-- `finalise`; `http.rs:68–72`. -/
def finalise (b : HttpRequestBuilder) : Bytes := b.buf ++ asBytes "\r\n"

end HttpRequestBuilder

/-- `to_builder`; `http.rs:143–149`. -/
def HttpRequest.toBuilder (r : HttpRequest) : HttpRequestBuilder :=
  r.headers.foldl (fun b h ↦ b.putHeader h.1 h.2) (HttpRequestBuilder.new r.method r.path)

end Cpxy.Http
