import Cpxy.Base.Run
import Cpxy.Rules.DnsCache

/-!
# The expiry of DNS entries

Library `Rules`. Source `src/dns.rs:15–95`. The cache with the times of its entries, while
responses pass through and the clean-up comes round. What it has for an address is what the last
response said about it, until a clean-up finds that too old.
-/

namespace Cpxy.Rules

open Cpxy.Base Cpxy.Net

/-- `Entry`, with its time in nanoseconds; `dns.rs:15–19`. -/
structure Entry where
  host : String
  created : Nat

/-- `ENTRY_TIMEOUT`; `dns.rs:25`. -/
def entryTimeout : Nat := 120 * 10 ^ 9

/-- `DnsCache`, with its entries; `dns.rs:21–23`. -/
structure TimedCache where
  addressMap : AList fun _ : IpAddr ↦ Entry

namespace TimedCache

def new : TimedCache := ⟨∅⟩

/-- `get`; `dns.rs:93–95`. -/
def get (c : TimedCache) (ip : IpAddr) : Option String := (c.addressMap.lookup ip).map Entry.host

/-- `clean_up`; `dns.rs:57–68`. -/
def cleanUp (c : TimedCache) (now : Nat) : TimedCache where
  addressMap :=
    { entries := c.addressMap.entries.filter fun e ↦ !(now - e.2.created > entryTimeout)
      nodupKeys := c.addressMap.nodupKeys.sublist List.filter_sublist }

/-- The loop of `dns.rs:73–88`, in one moment. -/
def cacheAnswers (now : Nat) (c : TimedCache) : List ResourceRecord → TimedCache
  | [] => c
  | answer :: answers =>
    match answer.data.address with
    | some addr => cacheAnswers now ⟨c.addressMap.insert addr ⟨answer.name, now⟩⟩ answers
    | none => c

/-- `cache`; `dns.rs:70–91`. -/
def cache (parse : ParsePacket) (now : Nat) (c : TimedCache) (dnsResponse : Bytes) :
    Except ErrorChain Unit × TimedCache :=
  match parse dnsResponse with
  | .ok answers => (.ok (), c.cacheAnswers now answers)
  | .error e => (.error ("Error parsing DNS packet" :: e), c)

/-- A response passes through, or the clean-up comes round. -/
inductive Event where
  | response (now : Nat) (dnsResponse : Bytes)
  | cleanUp (now : Nat)

def step (parse : ParsePacket) (c : TimedCache) : Event → TimedCache
  | .response now dnsResponse => (c.cache parse now dnsResponse).2
  | .cleanUp now => c.cleanUp now

end TimedCache

/-! ### What is remembered -/

/-- The name for an address that the cache takes from a response. -/
def saidName (parse : ParsePacket) (response : Bytes) (ip : IpAddr) : Option String :=
  match parse response with
  | .ok answers => lastName (answers.takeWhile (·.isAddress)) ip
  | .error _ => none

/-- What happens leaves the entry for an address that was made at this time. -/
def Leaves (parse : ParsePacket) (ip : IpAddr) (created : Nat) : TimedCache.Event → Prop
  | .response _ response => saidName parse response ip = none
  | .cleanUp now => now - created ≤ entryTimeout

/-- The entry was made along the way, and left from there on. -/
def Made (parse : ParsePacket) (ip : IpAddr) (e : Entry) (events : List TimedCache.Event) : Prop :=
  ∃ front response back, events = front ++ .response e.created response :: back ∧
    saidName parse response ip = some e.host ∧ ∀ x ∈ back, Leaves parse ip e.created x

namespace TimedCache

variable {parse : ParsePacket} {ip : IpAddr} {e : Entry}

theorem lookup_cleanUp (c : TimedCache) (now : Nat) (ip : IpAddr) (e : Entry) :
    (c.cleanUp now).addressMap.lookup ip = some e ↔
      c.addressMap.lookup ip = some e ∧ now - e.created ≤ entryTimeout := by
  simp only [← Option.mem_def, AList.mem_lookup_iff, cleanUp, List.mem_filter]
  simp

theorem lookup_cacheAnswers (now : Nat) (c : TimedCache) (answers : List ResourceRecord)
    (ip : IpAddr) :
    (c.cacheAnswers now answers).addressMap.lookup ip =
      ((lastName (answers.takeWhile (·.isAddress)) ip).map fun host ↦ ⟨host, now⟩).or
        (c.addressMap.lookup ip) := by
  induction answers generalizing c with
  | nil => rfl
  | cons r answers ih =>
    rw [cacheAnswers, List.takeWhile_cons, ResourceRecord.isAddress]
    cases ha : r.data.address with
    | none => rfl
    | some addr =>
      rw [Option.isSome_some, if_pos rfl]
      dsimp only
      rw [ih, ← List.singleton_append, lastName_append, lastName_singleton, ha, Option.map_or,
        Option.or_assoc]
      congr 1
      by_cases hip : ip = addr
      · subst hip
        simp
      · simp [AList.lookup_insert_ne hip, Ne.symm hip]

theorem lookup_cache (now : Nat) (c : TimedCache) (response : Bytes) (ip : IpAddr) :
    (c.cache parse now response).2.addressMap.lookup ip =
      ((saidName parse response ip).map fun host ↦ ⟨host, now⟩).or
        (c.addressMap.lookup ip) := by
  rw [cache, saidName]
  cases parse response with
  | error e => rfl
  | ok answers => exact lookup_cacheAnswers now c answers ip

/-- Without its times, the cache does what `DnsCache` does. -/
theorem cache_simulates {c : TimedCache} {d : DnsCache} (h : ∀ ip, c.get ip = d.get ip) (now : Nat)
    (response : Bytes) :
    (c.cache parse now response).1 = (d.cache parse response).1 ∧
      ∀ ip, (c.cache parse now response).2.get ip = (d.cache parse response).2.get ip := by
  rw [cache, DnsCache.cache]
  cases parse response with
  | error e => exact ⟨rfl, h⟩
  | ok answers =>
    refine ⟨rfl, fun ip ↦ ?_⟩
    rw [DnsCache.records_cacheAnswers d answers ip, ← h ip, get, lookup_cacheAnswers, Option.map_or,
      Option.map_map]
    congr 1
    exact Option.map_id'

/-- One step makes the entry, or leaves it. -/
theorem lookup_step (c : TimedCache) (x : Event) :
    (c.step parse x).addressMap.lookup ip = some e ↔
      (∃ response, x = .response e.created response ∧ saidName parse response ip = some e.host) ∨
        c.addressMap.lookup ip = some e ∧ Leaves parse ip e.created x := by
  cases x with
  | cleanUp now => simp [step, lookup_cleanUp, Leaves]
  | response now response =>
    rw [step, lookup_cache, Leaves]
    cases hsaid : saidName parse response ip with
    | none =>
      have hnot : ¬ ∃ response', Event.response now response = .response e.created response' ∧
          saidName parse response' ip = some e.host := by
        rintro ⟨_, heq, hhost⟩
        cases heq
        rw [hsaid] at hhost
        cases hhost
      rw [or_iff_right hnot, Option.map_none, Option.none_or]
      exact (and_iff_left rfl).symm
    | some host =>
      rw [Option.map_some, Option.some_or, Option.some.injEq]
      constructor
      · rintro rfl
        exact .inl ⟨response, rfl, hsaid⟩
      · rintro (⟨_, heq, hhost⟩ | ⟨_, hnone⟩)
        · cases heq
          rw [hsaid] at hhost
          cases hhost
          rfl
        · cases hnone

theorem made_cons (x : Event) (events : List Event) :
    Made parse ip e (x :: events) ↔
      ((∃ response, x = .response e.created response ∧ saidName parse response ip = some e.host) ∧
          ∀ y ∈ events, Leaves parse ip e.created y) ∨
        Made parse ip e events := by
  constructor
  · rintro ⟨front, response, back, heq, hsaid, hleaves⟩
    cases front with
    | nil =>
      cases heq
      exact .inl ⟨⟨response, rfl, hsaid⟩, hleaves⟩
    | cons y front =>
      cases heq
      exact .inr ⟨front, response, back, rfl, hsaid, hleaves⟩
  · rintro (⟨⟨response, rfl, hsaid⟩, hleaves⟩ | ⟨front, response, back, rfl, hsaid, hleaves⟩)
    · exact ⟨[], response, events, rfl, hsaid, hleaves⟩
    · exact ⟨x :: front, response, back, rfl, hsaid, hleaves⟩

theorem lookup_run (c : TimedCache) (events : List Event) :
    (runFrom (step parse) c events).addressMap.lookup ip = some e ↔
      Made parse ip e events ∨
        c.addressMap.lookup ip = some e ∧ ∀ x ∈ events, Leaves parse ip e.created x := by
  induction events generalizing c with
  | nil => simp [Made]
  | cons x events ih =>
    rw [runFrom_cons, ih, lookup_step, made_cons, List.forall_mem_cons, or_and_right, and_assoc,
      ← or_assoc, @or_comm (Made parse ip e events)]

end TimedCache

end Cpxy.Rules
