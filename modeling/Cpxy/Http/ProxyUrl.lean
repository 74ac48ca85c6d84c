import Cpxy.Http.Url

/-!
# URLs for proxies

Library `Http`. Source `src/fetch.rs:15–32`. A request that goes through an HTTP proxy names its
server in its path, and the proxy's own front end reads it back from there.
-/

namespace Cpxy.Http

open Cpxy.Base Cpxy.Net

/-- The path that `send_http_with_proxy` gives a request; `fetch.rs:25–26`. -/
def proxyPath (https : Bool) (address : Address) (path : String) : String :=
  let scheme := if https then "https://" else "http://"
  scheme ++ address.display ++ path

/-- The server and the path, as they follow the scheme. -/
def proxyTarget (address : Address) (path : String) : List Char :=
  address.display.toList ++ path.toList

/-- The URL is cut at the scheme's own `://`, and at the first slash behind it. -/
theorem Url.tryFrom_proxyPath (https : Bool) (address : Address) (path : String) :
    Url.tryFrom (proxyPath https address path) = (do
      let (host, port) ← splitPort ((proxyTarget address path).takeWhile (· ≠ '/'))
      .ok ⟨if https then "https" else "http", host, port,
        String.ofList ((proxyTarget address path).dropWhile (· ≠ '/'))⟩) := by
  have hsplit : splitOnText "://".toList (proxyPath https address path).toList =
      some ((if https then "https" else "http").toList, proxyTarget address path) := by
    have hlist : (proxyPath https address path).toList =
        (if https then "https" else "http").toList ++
          ("://".toList ++ proxyTarget address path) := by
      rw [proxyPath, proxyTarget]
      cases https <;> simp
    have hcolon : ':' ∉ (if https then "https" else "http").toList := by
      cases https <;> decide
    rw [hlist]
    exact splitOnText_append hcolon ['/', '/'] (proxyTarget address path)
  rw [Url.tryFrom, hsplit]
  dsimp only
  rw [String.ofList_toList]

theorem HttpUrl.tryFrom_proxyPath (https : Bool) (address : Address) (path : String) :
    ∃ defaultPort, HttpUrl.tryFrom (proxyPath https address path) = (do
      let (host, port) ← splitPort ((proxyTarget address path).takeWhile (· ≠ '/'))
      let rest := String.ofList ((proxyTarget address path).dropWhile (· ≠ '/'))
      .ok ⟨https, Address.fromHost host (port.getD defaultPort),
        if rest = "" then "/" else rest⟩) := by
  refine ⟨if https then 443 else 80, ?_⟩
  rw [HttpUrl.tryFrom, Url.tryFrom_proxyPath]
  cases splitPort ((proxyTarget address path).takeWhile (· ≠ '/')) with
  | ok hostPort =>
    have hhttp : eqIgnoreAsciiCase "http" "http" = true := by decide
    have hnot : eqIgnoreAsciiCase "https" "http" = false := by decide
    have hhttps : eqIgnoreAsciiCase "https" "https" = true := by decide
    cases https <;> simp [hhttp, hnot, hhttps]
  | err e => rfl
  | panicked => rfl

/-- A digit is neither a colon nor a slash. -/
theorem not_mem_toString {c : Char} (h : digitVal 10 c = none) (n : Nat) :
    c ∉ (toString n).toList := fun hc ↦ digitVal_of_mem_toString c hc h

theorem splitPort_append {host : List Char} (h : host ≠ []) (port : UInt16) :
    splitPort (host ++ ':' :: (toString port.toNat).toList) =
      .ok (String.ofList host, some port) := by
  have hport : (toString port.toNat).toList ≠ [] := by
    rw [toList_toString]
    exact Nat.toDigits_ne_nil
  rw [splitPort, rsplitOnce_append (not_mem_toString rfl _)]
  dsimp only
  rw [if_pos ⟨h, hport⟩, parseUnsigned_toString port.toNat_lt]
  dsimp only
  rw [UInt16.ofNat_toNat]

/-- A server without slashes that is displayed with its port is read back. -/
theorem tryFrom_proxyPath_of_display {address : Address} {host : List Char} {port : UInt16}
    (hdisplay : address.display.toList = host ++ ':' :: (toString port.toNat).toList)
    (hhost : host ≠ []) (hslash : '/' ∉ host) (https : Bool) {path : String}
    (hpath : path.toList.head? = some '/') :
    HttpUrl.tryFrom (proxyPath https address path) =
      .ok ⟨https, Address.fromHost (String.ofList host) port, path⟩ := by
  obtain ⟨p, hp⟩ := List.head?_eq_some_iff.mp hpath
  have hnone : ∀ c ∈ address.display.toList, decide (c ≠ '/') = true := by
    intro c hc
    rw [hdisplay, List.mem_append, List.mem_cons] at hc
    apply decide_eq_true
    rintro rfl
    rcases hc with hc | hc | hc
    · exact hslash hc
    · cases hc
    · exact not_mem_toString rfl _ hc
  obtain ⟨defaultPort, htry⟩ := HttpUrl.tryFrom_proxyPath https address path
  have htake : (proxyTarget address path).takeWhile (· ≠ '/') = address.display.toList := by
    rw [proxyTarget, List.takeWhile_append_of_pos hnone, hp]
    simp
  have hdrop : (proxyTarget address path).dropWhile (· ≠ '/') = path.toList := by
    rw [proxyTarget, List.dropWhile_append_of_pos hnone, hp]
    simp
  have hne : path ≠ "" := by
    rintro rfl
    cases hp
  rw [htry, htake, hdisplay, splitPort_append hhost, Outcome.ok_bind, hdrop, String.ofList_toList]
  dsimp only
  rw [if_neg hne, Option.getD_some]

/-- Where a text starts with a bracket, so does the host in it. -/
theorem splitPort_bracket {l : List Char} {host : String} {port : Option UInt16}
    (h : splitPort ('[' :: l) = .ok (host, port)) : ∃ l', host = String.ofList ('[' :: l') := by
  rw [splitPort] at h
  split at h
  · next hostChars portChars hsplit =>
    split at h
    · next hne =>
      split at h
      · next p hp =>
        cases h
        have htext := rsplitOnce_eq_some hsplit
        cases hostChars with
        | nil => exact absurd rfl hne.1
        | cons c l' =>
          cases htext
          exact ⟨l', rfl⟩
      · cases h
    · cases h
  · cases h
    exact ⟨l, rfl⟩

/-- An IPv6 address is displayed in brackets, which make it a name. -/
theorem tryFrom_proxyPath_v6 {addr : SocketAddr} (h : addr.isV6 = true) (https : Bool)
    (path : String) {u : HttpUrl}
    (hu : HttpUrl.tryFrom (proxyPath https (.ip addr) path) = .ok u) :
    u.address ≠ .ip addr := by
  cases addr with
  | v4 ip port => cases h
  | v6 ip port flowinfo scopeId =>
    obtain ⟨l, hl⟩ : ∃ l, (SocketAddr.v6 ip port flowinfo scopeId).display.toList = '[' :: l := by
      rw [SocketAddr.display]
      simp
    have hhost : ∃ l', (proxyTarget (.ip (.v6 ip port flowinfo scopeId)) path).takeWhile
        (· ≠ '/') = '[' :: l' := by
      rw [proxyTarget, Address.display, hl, List.cons_append,
        List.takeWhile_cons_of_pos (by decide)]
      exact ⟨_, rfl⟩
    obtain ⟨l', hl'⟩ := hhost
    obtain ⟨defaultPort, htry⟩ :=
      HttpUrl.tryFrom_proxyPath https (.ip (.v6 ip port flowinfo scopeId)) path
    rw [htry, hl'] at hu
    obtain ⟨⟨host, port'⟩, hport, hu⟩ := Outcome.bind_eq_ok_iff.mp hu
    obtain ⟨_, rfl⟩ := splitPort_bracket hport
    cases hu
    rw [Address.fromHost, IpAddr.fromStr_bracket]
    nofun

/-- A name that is not read as an address comes back. -/
theorem tryFrom_proxyPath_name {host : String} (hne : host ≠ "") (hslash : '/' ∉ host.toList)
    (hname : IpAddr.fromStr host = none) (port : UInt16) (https : Bool) {path : String}
    (hpath : path.toList.head? = some '/') :
    HttpUrl.tryFrom (proxyPath https (.name host port) path) =
      .ok ⟨https, .name host port, path⟩ := by
  have hdisplay : (Address.name host port).display.toList =
      host.toList ++ ':' :: (toString port.toNat).toList := by
    rw [Address.display]
    simp
  have hchars : host.toList ≠ [] := fun hnil ↦ hne (String.toList_eq_nil_iff.mp hnil)
  rw [tryFrom_proxyPath_of_display hdisplay hchars hslash https hpath, String.ofList_toList,
    Address.fromHost, hname]

/-- An IPv4 address comes back. -/
theorem tryFrom_proxyPath_v4 (ip : Ipv4Addr) (port : UInt16) (https : Bool) {path : String}
    (hpath : path.toList.head? = some '/') :
    HttpUrl.tryFrom (proxyPath https (.ip (.v4 ip port)) path) =
      .ok ⟨https, .ip (.v4 ip port), path⟩ := by
  have hdisplay : (Address.ip (.v4 ip port)).display.toList =
      ip.display.toList ++ ':' :: (toString port.toNat).toList := by
    rw [Address.display, SocketAddr.display]
    simp
  have hchars : ip.display.toList ≠ [] := by
    intro hnil
    have hread := IpAddr.fromStr_display_v4 ip
    rw [String.toList_eq_nil_iff.mp hnil] at hread
    cases hread
  have hslash : '/' ∉ ip.display.toList := by
    intro hc
    rcases Ipv4Addr.mem_display hc with hdot | hdigit
    · cases hdot
    · exact hdigit rfl
  rw [tryFrom_proxyPath_of_display hdisplay hchars hslash https hpath, String.ofList_toList,
    Address.fromHost, IpAddr.fromStr_display_v4]
  rfl

/-- The addresses that a request can be for: a socket address, or a name that is not mistaken for
one and holds neither colons nor slashes. -/
def Nameable : Address → Prop
  | .ip _ => True
  | .name host _ =>
    host ≠ "" ∧ ':' ∉ host.toList ∧ '/' ∉ host.toList ∧ IpAddr.fromStr host = none

/-- The proxy reads its client's URL back exactly when the server is not an IPv6 address. -/
theorem proxyPath_roundTrips_iff (https : Bool) {address : Address} (haddress : Nameable address)
    {path : String} (hpath : path.toList.head? = some '/') :
    HttpUrl.tryFrom (proxyPath https address path) = .ok ⟨https, address, path⟩ ↔
      ∀ addr, address = .ip addr → addr.isV6 = false := by
  constructor
  · rintro htry addr rfl
    apply Bool.eq_false_of_not_eq_true
    intro hv6
    exact tryFrom_proxyPath_v6 hv6 https path htry rfl
  · intro h
    match address with
    | .name host port =>
      obtain ⟨hne, _, hslash, hname⟩ := haddress
      exact tryFrom_proxyPath_name hne hslash hname port https hpath
    | .ip (.v6 ip port flowinfo scopeId) => cases h _ rfl
    | .ip (.v4 ip port) => exact tryFrom_proxyPath_v4 ip port https hpath

/-- A name with a port of its own, and a path that looks like a URL. -/
theorem proxyPath_roundTrips_name :
    HttpUrl.tryFrom (proxyPath true (.name "a.nz" 8443) "/to?u=http://b:80/") =
        .ok ⟨true, .name "a.nz" 8443, "/to?u=http://b:80/"⟩ ↔
      ∀ addr, Address.name "a.nz" 8443 = .ip addr → addr.isV6 = false := by
  have hname : Nameable (.name "a.nz" 8443) := ⟨by decide, by decide, by decide, by decide⟩
  exact proxyPath_roundTrips_iff true hname (by decide)

/-- The loopback address of IPv6 comes back as a name in brackets. -/
theorem proxyPath_breaks_v6 :
    ¬ ∀ (https : Bool) (address : Address) (path : String), Nameable address →
      path.toList.head? = some '/' →
      HttpUrl.tryFrom (proxyPath https address path) = .ok ⟨https, address, path⟩ := by
  intro h
  have hback := h false (.ip (.v6 ⟨1⟩ 80 0 0)) "/" trivial (by decide)
  have hname : HttpUrl.tryFrom (proxyPath false (.ip (.v6 ⟨1⟩ 80 0 0)) "/") =
      .ok ⟨false, .name "[::1]" 80, "/"⟩ := by decide +kernel
  rw [hname] at hback
  cases hback

end Cpxy.Http
