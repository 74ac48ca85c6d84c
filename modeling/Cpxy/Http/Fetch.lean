import Cpxy.Http.Proxy
import Cpxy.Http.ProxyUrl
import Mathlib.Data.List.TakeWhile

/-!
# Fetching through a proxy

Library `Http`. Source `src/fetch.rs:15–32` and `135–186`. A request that is fetched names its
server in its path. The proxy of `src/protocol/http/server.rs` takes the server out again and
sends the request on as its client would have sent it there.
-/

namespace Cpxy.Http

open Cpxy.Base Cpxy.Net Cpxy.Io

/-- What `send_http_with_proxy` writes; `fetch.rs:25–30`. -/
def proxiedRequest (https : Bool) (address : Address) (req : HttpRequest) : Bytes :=
  { req with path := proxyPath https address req.path }.toBuilder.finalise

/-- The request of `fetch_http_with_proxy`; `fetch.rs:144–177`. -/
def fetchRequest (url : HttpUrl) (method : String) (headers : List (String × Bytes))
    (body : Option (String × Bytes)) : HttpRequest :=
  let headers :=
    match body with
    | some (contentType, body) => headers ++ [("Content-Type", asBytes contentType),
        ("Content-Length", asBytes (toString body.length))]
    | none => headers
  let host := ("Host", asBytes url.address.display)
  ⟨if (getHeader headers "host").isNone then headers ++ [host] else headers, method, url.path⟩

/-- The bytes of a body, when there is one. -/
def bodyBytes (body : Option (String × Bytes)) : Bytes := (body.map Prod.snd).getD []

/-- `fetch_http_with_proxy` on a stream that is connected to the proxy; `fetch.rs:144–186`. -/
def fetchHttpWithProxy (httparse : HttparseResponse) (mem : Bytes) (url method : String)
    (headers : List (String × Bytes)) (body : Option (String × Bytes)) (cs : List Chunk) :
    Replied (AsyncHttpStream HttpResponse) :=
  match HttpUrl.tryFrom url with
  | .err e => ⟨[], .err e⟩
  | .panicked => ⟨[], .panicked⟩
  | .ok u =>
    ⟨proxiedRequest u.isHttps u.address (fetchRequest u method headers body) ++ bodyBytes body,
      parseResponse httparse (.new mem) cs⟩

/-! ### What a URL is read as -/

theorem splitPort_mem {l : List Char} {host : String} {port : Option UInt16}
    (h : splitPort l = .ok (host, port)) : ∀ c ∈ host.toList, c ∈ l := by
  rw [splitPort] at h
  split at h
  · next hostChars portChars hsplit =>
    split at h
    · split at h
      · cases h
        intro c hc
        rw [String.toList_ofList] at hc
        rw [rsplitOnce_eq_some hsplit]
        exact List.mem_append_left _ hc
      · cases h
    · cases h
  · cases h
    intro c hc
    rwa [String.toList_ofList] at hc

/-- What comes of a text when it is cut at the first slash. -/
theorem Url.tryFrom_spec {url : String} {u : Url} (h : Url.tryFrom url = .ok u) :
    '/' ∉ u.host.toList ∧ (u.path = "" ∨ u.path.toList.head? = some '/') := by
  have hcut : ∀ rest : List Char, ∀ host port,
      splitPort (rest.takeWhile (· ≠ '/')) = .ok (host, port) →
        '/' ∉ host.toList ∧ (String.ofList (rest.dropWhile (· ≠ '/')) = "" ∨
          (String.ofList (rest.dropWhile (· ≠ '/'))).toList.head? = some '/') := by
    intro rest host port hsplit
    constructor
    · intro hslash
      have hmem := List.mem_takeWhile_imp (splitPort_mem hsplit '/' hslash)
      exact absurd hmem (by decide)
    · rw [String.toList_ofList]
      cases hdrop : rest.dropWhile (· ≠ '/') with
      | nil => exact .inl rfl
      | cons c l =>
        right
        have hhead := List.head?_dropWhile_not (· ≠ '/') rest
        rw [hdrop] at hhead
        simpa using hhead
  rw [Url.tryFrom] at h
  obtain ⟨⟨host, port⟩, hsplit, hu⟩ := Outcome.bind_eq_ok_iff.mp h
  cases hu
  exact hcut _ host port hsplit

/-- The path of a URL begins with a slash, of which the host has none, and a host that reads as
an address is not kept as a name. -/
theorem HttpUrl.tryFrom_spec {url : String} {u : HttpUrl} (h : HttpUrl.tryFrom url = .ok u) :
    u.path.toList.head? = some '/' ∧
      ∀ host port, u.address = .name host port →
        '/' ∉ host.toList ∧ IpAddr.fromStr host = none := by
  rw [HttpUrl.tryFrom] at h
  obtain ⟨url', hurl, h⟩ := Outcome.bind_eq_ok_iff.mp h
  have hu : u.path = (if url'.path = "" then "/" else url'.path) ∧
      ∃ port, u.address = Address.fromHost url'.host port := by
    dsimp only at h
    split at h
    · cases h
      exact ⟨rfl, _, rfl⟩
    · split at h
      · cases h
        exact ⟨rfl, _, rfl⟩
      · cases h
  obtain ⟨hupath, port', huaddress⟩ := hu
  obtain ⟨hslash, hpath⟩ := Url.tryFrom_spec hurl
  constructor
  · rw [hupath]
    split
    · rfl
    · next hne => exact hpath.resolve_left hne
  · intro host port haddress
    rw [huaddress, Address.fromHost] at haddress
    split at haddress
    · cases haddress
    · next hnone =>
      cases haddress
      exact ⟨hslash, hnone⟩

/-- The server comes back from the path, unless it is an IPv6 address or has no name. -/
theorem tryFrom_proxyPath {url : String} {u : HttpUrl} (h : HttpUrl.tryFrom url = .ok u)
    (hv6 : ∀ addr, u.address = .ip addr → addr.isV6 = false)
    (hname : ∀ port, u.address ≠ .name "" port) :
    HttpUrl.tryFrom (proxyPath u.isHttps u.address u.path) = .ok u := by
  obtain ⟨hpath, haddress⟩ := HttpUrl.tryFrom_spec h
  obtain ⟨isHttps, address, path⟩ := u
  cases address with
  | ip addr =>
    cases addr with
    | v4 ip port => exact tryFrom_proxyPath_v4 ip port isHttps hpath
    | v6 ip port flowinfo scopeId => cases hv6 _ rfl
  | name host port =>
    obtain ⟨hslash, hnone⟩ := haddress host port rfl
    have hne : host ≠ "" := by
      rintro rfl
      exact hname port rfl
    exact tryFrom_proxyPath_name hne hslash hnone port isHttps hpath

/-! ### A fetch between the two ends -/

theorem toBuilder_finalise_ne_nil (req : HttpRequest) : req.toBuilder.finalise ≠ [] := by
  rw [HttpRequestBuilder.finalise]
  intro h
  exact absurd (List.append_eq_nil_iff.mp h).2 (by decide)

/-- The proxy makes of a fetched request the one that its server is to see. -/
theorem proxyRoute_fetched {url : String} {u : HttpUrl} (h : HttpUrl.tryFrom url = .ok u)
    (hv6 : ∀ addr, u.address = .ip addr → addr.isV6 = false)
    (hname : ∀ port, u.address ≠ .name "" port) {method : String} (hmethod : method ≠ "CONNECT")
    (headers : List (String × Bytes)) :
    proxyRoute ⟨headers, method, proxyPath u.isHttps u.address u.path⟩ =
      .ok (false, u.address, some (HttpRequest.mk headers method u.path).toBuilder.finalise) := by
  rw [proxyRoute, if_neg hmethod]
  dsimp only
  rw [tryFrom_proxyPath h hv6 hname, Outcome.context_ok]
  rfl

variable {τ : Type}

private def postUrl : String := "https://a.nz:8443/x"

private def postRead : HttpUrl := ⟨true, .name "a.nz" 8443, "/x"⟩

private def postBody : Option (String × Bytes) := some ("text/plain", [104, 105])

private def postRequest : HttpRequest := fetchRequest postRead "POST" [] postBody

private def postHead : Bytes := proxiedRequest true (.name "a.nz" 8443) postRequest

private def postParser : Httparse :=
  onlyWord postHead "invalid token"
    ⟨some "POST", some (proxyPath true (.name "a.nz" 8443) "/x"), postRequest.headers⟩

private def doneHead : Bytes := asBytes "HTTP/1.1 204 Done\r\n\r\n"

private def doneParser : HttparseResponse := onlyWord doneHead "invalid token" ⟨some 204, []⟩

private theorem postUrl_read : HttpUrl.tryFrom postUrl = .ok postRead := by decide +kernel

private theorem postUrl_named (port : UInt16) : postRead.address ≠ .name "" port := by
  intro h
  exact absurd (Address.name.inj h).1 (by decide)

private theorem postUrl_written (cs : List Chunk) :
    content [(⟨postHead ++ [104, 105], List.append_ne_nil_of_right_ne_nil _ (by decide)⟩ : Chunk)] =
      (fetchHttpWithProxy doneParser (List.replicate 512 0) postUrl "POST" [] postBody
        cs).written := by
  rw [fetchHttpWithProxy, postUrl_read, content_cons, content_nil]
  rfl

end Cpxy.Http
