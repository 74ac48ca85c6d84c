import Cpxy.Http.Body

/-!
# Writing a response

Library `Http`. Source `src/http.rs:403–430`. A response names the length of its body, so that
who parses its head finds the end of the body, whatever follows on the stream.
-/

namespace Cpxy.Http

open Cpxy.Base Cpxy.Io

/-- The head that is written; `http.rs:411–423`. -/
def writtenHead (code : UInt16) (statusMsg contentType : Option String) (length : Nat) : Bytes :=
  let status := (statusMsg.map (" " ++ ·)).getD ""
  let contentType := contentType.getD "application/octet-stream"
  asBytes (s!"HTTP/1.1 {code}{status}\r\nContent-Type: {contentType}\r\n" ++
      s!"Content-Length: {length}\r\n") ++
    asBytes ("Access-Control-Allow-Headers: *\r\nAccess-Control-Allow-Origin: *\r\n" ++
      "Access-Control-Allow-Methods: *\r\n\r\n")

/-- `write_http_response`; `http.rs:403–430`. -/
def writeHttpResponse (code : UInt16) (statusMsg contentType : Option String) (body : Bytes) :
    Bytes :=
  writtenHead code statusMsg contentType body.length ++ body

/-- The headers in the head that is written. -/
def writtenHeaders (contentType : Option String) (length : Nat) : List (String × Bytes) :=
  [("Content-Type", asBytes (contentType.getD "application/octet-stream")),
    ("Content-Length", asBytes (toString length)), ("Access-Control-Allow-Headers", asBytes "*"),
    ("Access-Control-Allow-Origin", asBytes "*"), ("Access-Control-Allow-Methods", asBytes "*")]

theorem writtenHead_ne_nil (code : UInt16) (statusMsg contentType : Option String)
    (length : Nat) : writtenHead code statusMsg contentType length ≠ [] := by
  rw [writtenHead]
  intro h
  exact absurd (List.append_eq_nil_iff.mp h).2 (by decide)

/-- The length in a head is the one that it was written with. -/
theorem getContentLength_written (contentType : Option String) {length : Nat}
    (h : length < 2 ^ 64) :
    getContentLength (writtenHeaders contentType length) = some length := by
  have htype : eqIgnoreAsciiCase "Content-Type" "content-length" = false := by decide
  have hname : eqIgnoreAsciiCase "Content-Length" "content-length" = true := by decide
  have hget : getHeader (writtenHeaders contentType length) "content-length" =
      some (asBytes (toString length)) := by
    simp [getHeader, writtenHeaders, htype, hname]
  rw [getContentLength, getHeaderText, hget, Option.bind_some, fromUtf8_asBytes, Option.bind_some,
    parseUnsigned_toString h]
  rfl

/-- No encoding is named. -/
theorem getHeader_written (contentType : Option String) (length : Nat) :
    getHeader (writtenHeaders contentType length) "transfer-encoding" = none := by
  have hnames : ∀ name ∈ ["Content-Type", "Content-Length", "Access-Control-Allow-Headers",
      "Access-Control-Allow-Origin", "Access-Control-Allow-Methods"],
      eqIgnoreAsciiCase name "transfer-encoding" = false := by decide
  rw [getHeader, Option.map_eq_none_iff, List.find?_eq_none]
  intro h hh
  have hname : h.1 ∈ (writtenHeaders contentType length).map Prod.fst := List.mem_map_of_mem hh
  rw [hnames h.1 hname]
  exact Bool.false_ne_true

/-- The headers name the length of a body, and no encoding for an empty one. -/
structure Framed (headers : List (String × Bytes)) (body : Bytes) : Prop where
  length : (getContentLength headers).getD 0 = body.length
  max : body.length ≤ isizeMax
  encoding : body = [] → getHeaderText headers "transfer-encoding" = none

theorem framed_written (contentType : Option String) {body : Bytes}
    (hmax : body.length ≤ isizeMax) : Framed (writtenHeaders contentType body.length) body where
  length := by
    rw [getContentLength_written]
    · rfl
    · rw [isizeMax] at hmax
      omega
  max := hmax
  encoding _ := congrArg (Option.bind · fromUtf8) (getHeader_written contentType body.length)

/-- A body is read by the length that its head names, and nothing of what follows. -/
theorem Framed.body_eq {α : Type} [WithHeaders α] {s : AsyncHttpStream α} {data later : Bytes}
    (h : Framed (WithHeaders.headers s.init) data) (hkept : s.Kept)
    (hunread : s.unread = data ++ later) (parseChunkSize : ParseChunkSize) (mem : Bytes) :
    ∃ s', body parseChunkSize mem s = .ok (data, s') ∧ s'.unread = later := by
  have hmax := h.max
  rw [body, h.length, if_neg (by omega)]
  by_cases hdata : data = []
  · rw [if_neg (by rw [hdata]; exact Nat.lt_irrefl 0), h.encoding hdata, hdata]
    refine ⟨s, rfl, ?_⟩
    rw [hunread, hdata, List.nil_append]
  · rw [if_pos (List.length_pos_iff.mpr hdata)]
    obtain ⟨s', hread, hrest, _⟩ := hkept.readExact_eq (n := data.length)
      (by rw [hunread, List.length_append]; omega)
    rw [hunread, List.take_left] at hread
    rw [hunread, List.drop_left] at hrest
    exact ⟨s', hread, hrest⟩

private def twoBytes : Bytes := [104, 105]

private def twoBytesHead : Bytes := writtenHead 200 (some "OK") (some "text/plain") twoBytes.length

private def twoBytesHeaders : List (String × Bytes) :=
  writtenHeaders (some "text/plain") twoBytes.length

private def twoBytesParser : HttparseResponse :=
  onlyWord twoBytesHead "invalid token" ⟨some 200, twoBytesHeaders⟩

private def twoBytesPieces : List Chunk :=
  [⟨twoBytesHead ++ [104], List.append_ne_nil_of_right_ne_nil _ (by decide)⟩, ⟨[105, 72], by decide⟩]

private theorem content_twoBytesPieces : content twoBytesPieces =
    writeHttpResponse 200 (some "OK") (some "text/plain") twoBytes ++ [72] := by
  rw [twoBytesPieces, content_cons, content_cons, content_nil, writeHttpResponse, List.append_assoc,
    List.append_assoc]
  rfl

end Cpxy.Http
