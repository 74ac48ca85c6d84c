import Cpxy.Net.Address

/-!
# Packet destinations and what they match

Library `Rules`. Source `src/rule.rs:24–38`, `182–198`, `289–436`,
`src/geoip/country_code.rs:9–45` and `src/sni.rs:6–56`. The regular expressions, the ad-block
engines, the IP networks, the DNS packets and the TLS records are decided by packages
outside the repository; `Env` stands for their answers.
-/

namespace Cpxy.Rules

open Cpxy.Base Cpxy.Net

/-- `CountryCode`; `country_code.rs:10`: two letters, neither of them zero. -/
structure CountryCode where
  first : UInt8
  second : UInt8
  nonzero : first ≠ 0 ∧ second ≠ 0
  deriving DecidableEq

def lowerByte (b : UInt8) : UInt8 := if 65 ≤ b ∧ b ≤ 90 then b + 32 else b

/-- `PartialEq for CountryCode`; `country_code.rs:41–45`. -/
def CountryCode.same (a b : CountryCode) : Bool :=
  lowerByte a.first == lowerByte b.first && lowerByte a.second == lowerByte b.second

/-- The two block lists; `abp/mod.rs:234–254`. -/
inductive HostList where
  | gfw
  | adblock
  deriving DecidableEq, Repr

/-- `HostMatch`; `rule.rs:24–28`. A pattern is known by the text it was compiled from. -/
inductive HostMatch where
  | pattern (text : String)
  | hostList (list : HostList)
  deriving DecidableEq, Repr

/-- `IpNetwork`: an address and the length of its network part. -/
structure IpNetwork where
  addr : IpAddr
  prefixLen : UInt8
  deriving DecidableEq, Repr

/-- `RuleDestination`; `rule.rs:30–37`. -/
inductive RuleDestination where
  | geoIP (code : CountryCode)
  | network (net : IpNetwork)
  | port (port : UInt16)
  | domain (host : HostMatch)
  | dnsHost (host : HostMatch)
  deriving DecidableEq

/-- `PacketDestination`; `rule.rs:184–196`. -/
inductive PacketDestination where
  | ip (addr : SocketAddr) (countryCode : Option CountryCode) (resolvedHost : List String)
  | domain (hostname : String) (port : UInt16) (resolvedIps : List (Option CountryCode × IpAddr))

/-- The answers of the packages the rules rely on. -/
structure Env where
  /-- `regex::Regex::is_match` of the pattern with this text. -/
  isMatch : String → String → Bool
  /-- `ABPEngine::matches` of a list, in its present state. -/
  abpMatches : HostList → Address → Bool
  /-- `IpNetwork::contains`. -/
  contains : IpNetwork → IpAddr → Bool
  /-- `dns_get_host_names`, over `dns_parser`. -/
  dnsGetHostNames : Bytes → Option (List String)
  /-- `extract_ssl_sni_host`, over `tls_parser`. -/
  extractSslSniHost : Bytes → Option String

/-! ### The `Host` header of a request that may be incomplete -/

/-- `ParseState`; `sni.rs:8–12`. -/
inductive ParseState where
  | idle
  | matched (n : Nat)
  | firstNewLine
  deriving DecidableEq, Repr

def sameLetter (b : UInt8) (c : Char) : Bool :=
  lowerByte b == lowerByte (UInt8.ofNat c.toNat)

def newLine : UInt8 := 10

/-- The scan of `sni.rs:16–49`: where the value starts, relative to the bytes given. -/
def hostValueStart : ParseState → Bytes → Option Nat
  | _, [] => none
  | state, c :: data =>
    let next (state : ParseState) := (hostValueStart state data).map (· + 1)
    match state with
    | .matched 1 => if sameLetter c 'o' then next (.matched 2) else other c next
    | .matched 2 => if sameLetter c 's' then next (.matched 3) else other c next
    | .matched 3 => if sameLetter c 't' then next (.matched 4) else other c next
    | .matched 4 => if c = 58 then some 1 else other c next
    | .matched _ => other c next
    | .firstNewLine =>
      if sameLetter c 'H' then next (.matched 1)
      else if c = newLine then none
      else next .idle
    | .idle => if sameLetter c 'H' then next (.matched 1) else other c next
where
  other (c : UInt8) (next : ParseState → Option Nat) : Option Nat :=
    if c = newLine then next .firstNewLine else next .idle

/-- `extract_http_host_header`; `sni.rs:6–56`. -/
def extractHttpHostHeader (data : Bytes) : Option String := do
  let start ← hostValueStart .idle data
  let length ← (data.drop start).findIdx? (· == newLine)
  let host ← fromUtf8 ((data.drop start).take length)
  pure (trim host)

example : extractHttpHostHeader (asBytes "GET / HTTP/1.1\r\nhOST: a.nz\r\n\r\n") = some "a.nz" := by
  decide

/-! ### Matching -/

namespace PacketDestination

/-- `PacketDestination::port`; `rule.rs:411–416`. -/
def port : PacketDestination → UInt16
  | .domain _ port _ => port
  | .ip addr _ _ => addr.port

end PacketDestination

variable (env : Env)

/-- `HostMatch::matches`; `rule.rs:420–428`. -/
def HostMatch.matches : HostMatch → String → Bool
  | .pattern text, s => env.isMatch text s
  | .hostList list, s => env.abpMatches list (.name s 80)

/-- `domain_matches`; `rule.rs:358–407`: the name asked for, else the one in the data, else
the ones that resolved to the address. -/
def RuleDestination.domainMatches (host : HostMatch) (target : PacketDestination)
    (initialData : Option Bytes) : Bool :=
  match target with
  | .domain hostname _ _ => host.matches env hostname
  | .ip _ _ resolvedHost =>
    match initialData.bind extractHttpHostHeader with
    | some found => host.matches env found
    | none =>
      match initialData.bind env.extractSslSniHost with
      | some found => host.matches env found
      | none => resolvedHost.any (host.matches env)

/-- `RuleDestination::matches`; `rule.rs:289–356`. -/
def RuleDestination.matches : RuleDestination → PacketDestination → Option Bytes → Bool
  | .geoIP code, .ip _ countryCode _, _ => countryCode.any (·.same code)
  | .geoIP code, .domain _ _ resolvedIps, _ => resolvedIps.any fun r ↦ r.1.any (·.same code)
  | .network net, .ip addr _ _, _ => env.contains net addr.ip
  | .network net, .domain _ _ resolvedIps, _ => resolvedIps.any fun r ↦ env.contains net r.2
  | .domain host, target, initialData => domainMatches env host target initialData
  | .port number, target, _ => number == target.port
  | .dnsHost host, target, initialData =>
    target.port == 53 &&
      ((initialData.bind env.dnsGetHostNames).any fun names ↦ names.any (host.matches env))

end Cpxy.Rules
