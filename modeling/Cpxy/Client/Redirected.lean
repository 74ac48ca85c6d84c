import Cpxy.Client.Balancing

/-!
# Redirected connections

Library `Client`. Source `src/client/tcp.rs:40–77`. A connection that the router rules redirected
here brings no handshake. Where its port promises a name in the first data, these are waited for
a while; they go to the rules, and ahead to the upstream.
-/

namespace Cpxy.Client

open Cpxy.Base Cpxy.Io Cpxy.Net

/-- The read ahead, with how it ends: `none` when the time is over first; `tcp.rs:48–65`. -/
def readAhead (dst : Address) (first : Option (Except ErrorChain Unit)) (cs : List Chunk) :
    Except ErrorChain (Option Bytes × List Chunk) :=
  if dst.getPort = 80 ∨ dst.getPort = 443 then
    match first with
    | some (.ok ()) => .ok (some (takeChunk 4096 cs).1, (takeChunk 4096 cs).2)
    | some (.error e) => .error e
    | none => .ok (none, cs)
  else .ok (none, cs)

/-- `serve_tcp_tproxy_conn`, in the world that the first data meet with; `tcp.rs:42–77`. -/
def serveTcpTproxyConn (net : Option Bytes → Network) (dst : Address)
    (first : Option (Except ErrorChain Unit)) (cs : List Chunk) : Served :=
  match readAhead dst first cs with
  | .error e => ⟨[], none, .err (.chain e)⟩
  | .ok (initialData, cs) =>
    match (findAndConnectStream (net initialData) initialData).context
        s!"Finding proxy for tcp://{dst.display}" with
    | .ok upstream => ⟨[], some (copyToUpstream upstream cs), .ok ()⟩
    | .err e => ⟨[], none, .err (.chain e)⟩
    | .panicked => ⟨[], none, .panicked⟩

/-- The upstreams of a configuration, tried from the end of the list, with their answers. -/
def networkOf (config : Config) (stats : ClientStatistics)
    (answers : Named → Except ErrorChain Unit) (a : Asked) : Network where
  upstreams := do
    let upstreams ← findBestUpstream config .stream stats a.now a.env a.findGeoip a.dns a.target
      a.initialData
    .ok (upstreams.reverse.map fun u ↦
      (answers u).mapError (s!"Requesting new streaming connection from {u.1}" :: ·))
  tls := .ok ()
  udp := ⟨[], none, .ok ()⟩

/-- What is read ahead and what is left are the stream. -/
theorem readAhead_eq {dst : Address} {first : Option (Except ErrorChain Unit)}
    {cs rest : List Chunk} {initialData : Option Bytes}
    (h : readAhead dst first cs = .ok (initialData, rest)) :
    initialData.getD [] ++ content rest = content cs := by
  unfold readAhead at h
  split at h
  · match first with
    | some (.ok ()) =>
      cases h
      exact (takeChunk_spec 4096 cs).1
    | some (.error e) => cases h
    | none =>
      cases h
      rfl
  · cases h
    rfl

theorem connectFirst_isOk (initialData : Option Bytes) (us : List (Except ErrorChain Unit))
    (lastError : Option ErrorChain) :
    (∃ u, connectFirst initialData us lastError = .ok u) ↔ .ok () ∈ us := by
  induction us generalizing lastError with
  | nil => simp [connectFirst]
  | cons r us ih =>
    cases r with
    | ok _ => simp [connectFirst]
    | error e => simp [connectFirst, ih]

/-- There is a stream exactly when an upstream that is offered answers. -/
theorem findAndConnectStream_isOk (config : Config) (stats : ClientStatistics)
    (answers : Named → Except ErrorChain Unit) (a : Asked) (initialData : Option Bytes) :
    (∃ u, findAndConnectStream (networkOf config stats answers a) initialData = .ok u) ↔
      ∃ decision n, config.settings.trafficRules.executeRules a.env a.packet = .ok decision ∧
        OfferedAs config decision n ∧ answers n = .ok () := by
  obtain ⟨decision, list, hrules, hlist, hmem, _⟩ := findBestUpstream_offered config stats a
  have hok (u : Named) : (answers u).mapError
      (s!"Requesting new streaming connection from {u.1}" :: ·) = .ok () ↔ answers u = .ok () := by
    cases answers u <;> simp [Except.mapError]
  rw [findAndConnectStream, networkOf, hlist]
  simp only [Outcome.ok_bind, connectFirst_isOk, List.mem_map, List.mem_reverse, hmem]
  constructor
  · rintro ⟨n, hn, hanswer⟩
    exact ⟨decision, n, hrules, hn, (hok n).mp hanswer⟩
  · rintro ⟨decision', n, hrules', hn, hanswer⟩
    rw [hrules] at hrules'
    cases hrules'
    exact ⟨n, hn, (hok n).mpr hanswer⟩

end Cpxy.Client
