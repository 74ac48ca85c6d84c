import Cpxy.Base.Outcome
import Cpxy.Net.SocketAddr
import Mathlib.Data.List.AList

/-!
# The DNS cache

Library `Rules`. Source `src/dns.rs:15–95`. The names that addresses were resolved from, taken
from the DNS responses that pass through. `dns_parser` is a package outside the repository, so
the function that reads a packet is a parameter; the time at which an entry was made is used by
the expiry alone, and left to it.
-/

namespace Cpxy.Rules

open Cpxy.Base Cpxy.Net

/-- `dns_parser::RData`, as far as the cache looks at it. -/
inductive RData where
  | a (addr : Ipv4Addr)
  | aaaa (addr : Ipv6Addr)
  | other
  deriving DecidableEq, Repr

/-- The match of `dns.rs:74–78`. -/
def RData.address : RData → Option IpAddr
  | .a addr => some (.v4 addr)
  | .aaaa addr => some (.v6 addr)
  | .other => none

/-- `dns_parser::ResourceRecord`: the text of its name, and its data. -/
structure ResourceRecord where
  name : String
  data : RData
  deriving DecidableEq, Repr

/-- `dns_parser::Packet::parse`: the answers of a packet, in wire order. -/
abbrev ParsePacket := Bytes → Except ErrorChain (List ResourceRecord)

/-- `DnsCache`; `dns.rs:15–23`. -/
structure DnsCache where
  addressMap : AList fun _ : IpAddr ↦ String

namespace DnsCache

/-- `DnsCache::new`; `dns.rs:27–31`. -/
def new : DnsCache := ⟨∅⟩

/-- `get`; `dns.rs:93–95`. -/
def get (c : DnsCache) (ip : IpAddr) : Option String := c.addressMap.lookup ip

/-- The write of `dns.rs:86`. -/
def insert (c : DnsCache) (addr : IpAddr) (host : String) : DnsCache :=
  ⟨c.addressMap.insert addr host⟩

/-- The loop of `dns.rs:73–88`. -/
def cacheAnswers (c : DnsCache) : List ResourceRecord → DnsCache
  | [] => c
  | answer :: answers =>
    match answer.data.address with
    | some addr => cacheAnswers (c.insert addr answer.name) answers
    | none => c

/-- `cache`; `dns.rs:70–91`. -/
def cache (parse : ParsePacket) (c : DnsCache) (dnsResponse : Bytes) :
    Except ErrorChain Unit × DnsCache :=
  match parse dnsResponse with
  | .ok answers => (.ok (), c.cacheAnswers answers)
  | .error e => (.error ("Error parsing DNS packet" :: e), c)

theorem get_insert (c : DnsCache) (addr ip : IpAddr) (host : String) :
    (c.insert addr host).get ip = if ip = addr then some host else c.get ip := by
  rw [get, insert]
  split
  · next h =>
    subst h
    exact AList.lookup_insert _
  · next h => exact AList.lookup_insert_ne h

end DnsCache

/-! ### What a response says -/

def ResourceRecord.isAddress (r : ResourceRecord) : Bool := r.data.address.isSome

/-- The name of the last address answer with the address. -/
def lastName (answers : List ResourceRecord) (ip : IpAddr) : Option String :=
  (answers.reverse.find? fun r ↦ r.data.address = some ip).map (·.name)

theorem lastName_append (xs ys : List ResourceRecord) (ip : IpAddr) :
    lastName (xs ++ ys) ip = (lastName ys ip).or (lastName xs ip) := by
  rw [lastName, List.reverse_append, List.find?_append, Option.map_or]
  rfl

theorem lastName_singleton (r : ResourceRecord) (ip : IpAddr) :
    lastName [r] ip = if r.data.address = some ip then some r.name else none := by
  by_cases h : r.data.address = some ip <;> simp [lastName, h]

namespace DnsCache

/-- The cache has the last name of every address answer, and otherwise what it had. -/
def Records (c c' : DnsCache) (answers : List ResourceRecord) : Prop :=
  ∀ ip, c'.get ip = (lastName answers ip).or (c.get ip)

/-- The loop takes the address answers in front of the first other one. -/
theorem records_cacheAnswers (c : DnsCache) (answers : List ResourceRecord) :
    c.Records (c.cacheAnswers answers) (answers.takeWhile (·.isAddress)) := by
  intro ip
  induction answers generalizing c with
  | nil => rfl
  | cons r answers ih =>
    rw [cacheAnswers, List.takeWhile_cons, ResourceRecord.isAddress]
    cases ha : r.data.address with
    | none => rfl
    | some addr =>
      rw [Option.isSome_some, if_pos rfl]
      dsimp only
      rw [ih, get_insert, ← List.singleton_append, lastName_append, lastName_singleton, ha,
        Option.or_assoc]
      congr 1
      by_cases hip : ip = addr
      · simp [hip]
      · simp [hip, Ne.symm hip]

/-- The address answers behind the first other answer say nothing that the cache does not have
without them. -/
def NothingNewBehind (c : DnsCache) (answers : List ResourceRecord) : Prop :=
  ∀ ip name, lastName (answers.dropWhile (·.isAddress)) ip = some name →
    (lastName (answers.takeWhile (·.isAddress)) ip).or (c.get ip) = some name

/-- An accepted response is recorded exactly when no address answer with something new stands
behind an answer of another type. -/
theorem cache_records_iff (parse : ParsePacket) (c : DnsCache) (response : Bytes)
    (answers : List ResourceRecord) (h : parse response = .ok answers) :
    (c.cache parse response).1 = .ok () ∧
      (c.Records (c.cache parse response).2 answers ↔ c.NothingNewBehind answers) := by
  rw [cache, h]
  refine ⟨rfl, forall_congr' fun ip ↦ ?_⟩
  have hsplit : lastName answers ip = (lastName (answers.dropWhile (·.isAddress)) ip).or
      (lastName (answers.takeWhile (·.isAddress)) ip) := by
    rw [← lastName_append, List.takeWhile_append_dropWhile]
  rw [records_cacheAnswers c answers ip, hsplit, Option.or_assoc]
  cases lastName (answers.dropWhile (·.isAddress)) ip with
  | none => simp
  | some name =>
    rw [Option.some_or]
    constructor
    · intro heq name' hname
      rwa [← hname]
    · intro hnew
      exact hnew name rfl

/-- A response about `a.nz`, which is another name of `w.nz`. -/
private def aliasResponse : Bytes :=
  [0, 1, 0x81, 0x80, 0, 1, 0, 2, 0, 0, 0, 0] ++
  [1, 97, 2, 110, 122, 0, 0, 1, 0, 1] ++
  [0xC0, 12, 0, 5, 0, 1, 0, 0, 0, 60, 0, 6, 1, 119, 2, 110, 122, 0] ++
  [0xC0, 34, 0, 1, 0, 1, 0, 0, 0, 60, 0, 4, 1, 2, 3, 4]

private def aliasAnswers : List ResourceRecord :=
  [⟨"a.nz", .other⟩, ⟨"w.nz", .a ⟨0x01020304⟩⟩]

private def parseAlias : ParsePacket := fun response ↦
  if response = aliasResponse then .ok aliasAnswers else .error ["UnexpectedEOF"]

private theorem parseAlias_aliasResponse : parseAlias aliasResponse = .ok aliasAnswers := if_pos rfl

/-- The response to an alias, whose address stands behind the alias. -/
theorem cache_records_alias :
    (DnsCache.new.cache parseAlias aliasResponse).1 = .ok () ∧
      (DnsCache.new.Records (DnsCache.new.cache parseAlias aliasResponse).2 aliasAnswers ↔
        DnsCache.new.NothingNewBehind aliasAnswers) :=
  cache_records_iff _ _ _ _ parseAlias_aliasResponse

/-- The address behind the alias is not recorded. -/
theorem cache_loses_alias :
    ¬ ∀ (parse : ParsePacket) (c : DnsCache) (response : Bytes) (answers : List ResourceRecord),
      parse response = .ok answers → c.Records (c.cache parse response).2 answers := by
  intro h
  have hget := h parseAlias DnsCache.new aliasResponse aliasAnswers parseAlias_aliasResponse
    (.v4 ⟨0x01020304⟩)
  rw [cache, parseAlias_aliasResponse] at hget
  cases hget

end DnsCache
end Cpxy.Rules
