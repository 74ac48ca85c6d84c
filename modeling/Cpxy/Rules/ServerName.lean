import Cpxy.Base.Scan
import Cpxy.Rules.Destination

/-!
# The server name of a TLS client

Library `Rules`. Source `src/sni.rs:60–98`. The data of a client are read record by record, and
the extensions of a client hello one by one, up to the first host name. Records and extensions
are read by `tls_parser`, a package outside the repository, so its readers are parameters; what
they take is never nothing.
-/

namespace Cpxy.Rules

open Cpxy.Base Cpxy.Net

/-- `TlsMessage`, as far as it is looked at: a client hello with its extensions, or another. -/
inductive TlsMessage where
  | clientHello (ext : Option Bytes)
  | other
  deriving DecidableEq, Repr

/-- `TlsExtension`, as far as it is looked at: names with their types, or another. -/
inductive TlsExtension where
  | sni (names : List (UInt8 × Bytes))
  | other
  deriving DecidableEq, Repr

/-- `parse_tls_plaintext` and `parse_tls_extension`. -/
structure TlsParser where
  plaintext : ItemParser (List TlsMessage)
  extension : ItemParser TlsExtension

/-- `SNIType::HostName`. -/
def sniHostName : UInt8 := 0

/-- The bytes of a host name that comes first in its extension; `sni.rs:82–86`. -/
def hostName : TlsExtension → Option Bytes
  | .sni ((type, name) :: _) => if type = sniHostName then some name else none
  | _ => none

/-- The extensions of the first client hello of a record; `sni.rs:65–79`. -/
def helloExtensions : List TlsMessage → Option Bytes
  | [] => none
  | .clientHello ext :: _ => some (ext.getD [])
  | .other :: messages => helloExtensions messages

/-- What a record comes to: the loop over the extensions returns, or goes on to the next record;
`sni.rs:77–94`. -/
def recordName (p : TlsParser) (messages : List TlsMessage) : Option (Option String) :=
  match helloExtensions messages with
  | none => none
  | some ext =>
    match p.extension.scan hostName ext with
    | .hit name => some (fromUtf8 name)
    | .failed => some none
    | .ended => none

/-- `extract_ssl_sni_host`; `sni.rs:60–98`. -/
def extractSslSniHost (p : TlsParser) (data : Bytes) : Option String :=
  match p.plaintext.scan (recordName p) data with
  | .hit host => host
  | _ => none

/-- The packages outside, with this reader for what a client sends over TLS. -/
def Env.overTls (env : Env) (p : TlsParser) : Env :=
  { env with extractSslSniHost := Rules.extractSslSniHost p }

/-- The host is the first host name among the extensions of the first client hello of its record,
and the loop goes on behind every record in front. What comes behind the name may be anything. -/
def FirstServerName (p : TlsParser) (data : Bytes) (host : String) : Prop :=
  ∃ front messages behind, p.plaintext.Reads data (front ++ [messages]) behind ∧
    (∀ record ∈ front, recordName p record = none) ∧
    ∃ ext others e rest name, helloExtensions messages = some ext ∧
      p.extension.Reads ext (others ++ [e]) rest ∧ (∀ o ∈ others, hostName o = none) ∧
      hostName e = some name ∧ fromUtf8 name = some host

variable {p : TlsParser}

theorem recordName_eq_some_iff {messages : List TlsMessage} {host : String} :
    recordName p messages = some (some host) ↔ ∃ ext name,
      helloExtensions messages = some ext ∧ p.extension.scan hostName ext = .hit name ∧
        fromUtf8 name = some host := by
  rw [recordName]
  cases helloExtensions messages with
  | none => simp
  | some ext =>
    dsimp only
    cases hscan : p.extension.scan hostName ext <;> simp [hscan]

theorem extractSslSniHost_eq_hit_iff {data : Bytes} {host : String} :
    extractSslSniHost p data = some host ↔
      p.plaintext.scan (recordName p) data = .hit (some host) := by
  rw [extractSslSniHost]
  cases p.plaintext.scan (recordName p) data <;> simp

theorem extractSslSniHost_eq_some_iff {data : Bytes} {host : String} :
    extractSslSniHost p data = some host ↔ FirstServerName p data host := by
  rw [extractSslSniHost_eq_hit_iff, ItemParser.scan_eq_hit_iff, FirstServerName]
  refine exists_congr fun front ↦ exists_congr fun messages ↦ exists_congr fun behind ↦
    and_congr_right fun _ ↦ and_congr_right fun _ ↦ ?_
  rw [recordName_eq_some_iff]
  simp only [ItemParser.scan_eq_hit_iff]
  constructor
  · rintro ⟨ext, name, hext, ⟨others, e, rest, hreads, hnone, he⟩, hhost⟩
    exact ⟨ext, others, e, rest, name, hext, hreads, hnone, he, hhost⟩
  · rintro ⟨ext, others, e, rest, name, hext, hreads, hnone, he, hhost⟩
    exact ⟨ext, name, hext, ⟨others, e, rest, hreads, hnone, he⟩, hhost⟩

/-- A server name that is found in the data so far is found in all that begins with them. -/
theorem extractSslSniHost_append (hp : p.plaintext.Stable) {data : Bytes} {host : String}
    (h : extractSslSniHost p data = some host) (more : Bytes) :
    extractSslSniHost p (data ++ more) = some host := by
  rw [extractSslSniHost_eq_hit_iff] at h ⊢
  exact ItemParser.scan_append_of_hit hp h more

end Cpxy.Rules
