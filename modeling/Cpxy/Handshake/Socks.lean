import Cpxy.Net.Address

/-!
# SOCKS requests

Library `Handshake`. Source `src/socks4.rs:10–90`, `src/socks5/greeting.rs:6–59` and
`src/socks5/req.rs:8–96`. The three things a SOCKS client may open with, as incremental
parsers: none of them changes its mind when more bytes follow.
-/

namespace Cpxy.Handshake

open Cpxy.Base Cpxy.Net

/-! ### SOCKS5 greeting -/

/-- `ClientGreeting`, and the `SocksState` made of it; `greeting.rs:11–14`, `handshake.rs:18–20`. -/
structure SocksState where
  auths : Bytes
  deriving DecidableEq, Repr

/-- `AUTH_NO_PASSWORD`; `greeting.rs:8`. -/
def authNoPassword : UInt8 := 0x0

/-- `AUTH_NOT_ACCEPTED`; `greeting.rs:9`. -/
def authNotAccepted : UInt8 := 0xFF

/-- `ClientGreeting::parse`; `greeting.rs:17–39`. -/
def parseSocks5Greeting (buf : Bytes) : Outcome ParseError (Option (Nat × SocksState)) :=
  if buf.length < 2 then .ok none
  else do
    let (v, buf) ← Cursor.getU8 buf
    if v ≠ 0x5 then .err ⟨"protocol", v, "0x5"⟩
    else do
      let (len, buf) ← Cursor.getU8 buf
      if buf.length < len.toNat then .ok none
      else .ok (some (1 + (len.toNat + 1), ⟨buf.take len.toNat⟩))

/-- `ClientGreeting::respond`; `greeting.rs:53–59`. -/
def greetingReply (auth : UInt8) : Bytes := [0x5, auth]

theorem parseSocks5Greeting_cons (v len : UInt8) (buf : Bytes) :
    parseSocks5Greeting (v :: len :: buf) =
      if v ≠ 0x5 then .err ⟨"protocol", v, "0x5"⟩
      else if buf.length < len.toNat then .ok none
      else .ok (some (len.toNat + 2, ⟨buf.take len.toNat⟩)) := by
  have hn : 1 + (len.toNat + 1) = len.toNat + 2 := by omega
  rw [parseSocks5Greeting, if_neg (by simp)]
  simp only [Cursor.getU8_cons, Outcome.ok_bind]
  rw [hn]

private theorem socks5Greeting_decided (b x : Bytes) (h : parseSocks5Greeting b ≠ .ok none) :
    parseSocks5Greeting (b ++ x) = parseSocks5Greeting b := by
  match b with
  | [] => exact absurd rfl h
  | [v] => exact absurd rfl h
  | v :: len :: buf =>
    rw [List.cons_append, List.cons_append, parseSocks5Greeting_cons, parseSocks5Greeting_cons]
    rw [parseSocks5Greeting_cons] at h
    split at h
    · next hv => rw [if_pos hv, if_pos hv]
    · next hv =>
      rw [if_neg hv, if_neg hv]
      split at h
      · exact absurd rfl h
      · next hl =>
        have hx : ¬ (buf ++ x).length < len.toNat := by
          rw [List.length_append]
          omega
        rw [if_neg hl, if_neg hx, List.take_append_of_le_length (by omega)]

private theorem socks5Greeting_answered (b : Bytes) : Answered parseSocks5Greeting b := by
  match b with
  | [] => exact .inl rfl
  | [v] => exact .inl rfl
  | v :: len :: buf =>
    rw [Answered, parseSocks5Greeting_cons]
    split
    · exact .inr (.inl ⟨_, rfl⟩)
    · split
      · exact .inl rfl
      · refine .inr (.inr ⟨_, _, rfl, ?_⟩)
        rw [List.length_cons, List.length_cons]
        omega

theorem parseSocks5Greeting_stable : Stable parseSocks5Greeting :=
  Stable.of_decided socks5Greeting_answered socks5Greeting_decided

theorem parseSocks5Greeting_exact : Exact parseSocks5Greeting := by
  intro b n a h
  match b with
  | [] => cases h
  | [_] => cases h
  | v :: len :: buf =>
    rw [parseSocks5Greeting_cons] at h
    split at h
    · cases h
    · next hv =>
      split at h <;> cases h
      next hl =>
        have hlen : ¬ (buf.take len.toNat).length < len.toNat := by
          rw [List.length_take]
          omega
        rw [List.take_succ_cons, List.take_succ_cons, parseSocks5Greeting_cons, if_neg hv,
          if_neg hlen, List.take_take, Nat.min_self]

/-- Two bytes decide: a greeting starts with the version byte of SOCKS5, and nothing else does. -/
private theorem socks5Greeting_cases (b : Bytes) :
    (b.length < 2 ∧ parseSocks5Greeting b = .ok none) ∨
      (∃ v, b.head? = some v ∧ v ≠ 0x5 ∧
        parseSocks5Greeting b = .err ⟨"protocol", v, "0x5"⟩) ∨
      b.head? = some 0x5 ∧ ∃ r, parseSocks5Greeting b = .ok r := by
  match b with
  | [] => exact .inl ⟨by simp, rfl⟩
  | [_] => exact .inl ⟨by simp, rfl⟩
  | v :: len :: buf =>
    rw [parseSocks5Greeting_cons]
    by_cases hv : v ≠ 0x5
    · rw [if_pos hv]
      exact .inr (.inl ⟨v, rfl, hv, rfl⟩)
    · rw [if_neg hv, List.head?_cons, Decidable.not_not.mp hv]
      refine .inr (.inr ⟨rfl, ?_⟩)
      split
      · exact ⟨_, rfl⟩
      · exact ⟨_, rfl⟩

/-- Only the version byte of SOCKS5 starts a greeting. -/
theorem head_of_socks5Greeting {b : Bytes} {r : Nat × SocksState}
    (h : parseSocks5Greeting b = .ok (some r)) : b.head? = some 0x5 := by
  rcases socks5Greeting_cases b with ⟨_, hmore⟩ | ⟨_, _, _, herr⟩ | ⟨hhead, _⟩
  · simp [hmore] at h
  · simp [herr] at h
  · exact hhead

theorem head_of_socks5Greeting_err {b : Bytes} {e : ParseError}
    (h : parseSocks5Greeting b = .err e) : ∃ v, b.head? = some v ∧ v ≠ 0x5 := by
  rcases socks5Greeting_cases b with ⟨_, hmore⟩ | ⟨v, hhead, hv, _⟩ | ⟨_, r, hr⟩
  · simp [hmore] at h
  · exact ⟨v, hhead, hv⟩
  · simp [hr] at h

theorem head_of_socks5Greeting_more {b : Bytes} (hb : 2 ≤ b.length)
    (h : parseSocks5Greeting b = .ok none) : b.head? = some 0x5 := by
  rcases socks5Greeting_cases b with ⟨hlen, _⟩ | ⟨_, _, _, herr⟩ | ⟨hhead, _⟩
  · omega
  · simp [herr] at h
  · exact hhead

/-! ### SOCKS5 request -/

/-- `ClientConnRequest`; `req.rs:33–37`. -/
structure ClientConnRequest where
  cmd : UInt8
  address : Address
  deriving DecidableEq, Repr

/-- `Command::CONNECT_TCP`; `req.rs:29`. -/
def connectTcp : UInt8 := 1

/-- `Command::BIND_UDP`; `req.rs:30`. -/
def bindUdp : UInt8 := 3

/-- `ConnStatusCode::GRANTED`; `req.rs:12`. -/
def connGranted : UInt8 := 0x0

/-- `ConnStatusCode::FAILED`; `req.rs:13`. -/
def connFailed : UInt8 := 0x1

/-- `ConnStatusCode::UNSUPPORTED_COMMAND`; `req.rs:14`. -/
def unsupportedCommand : UInt8 := 0x7

/-- `ClientConnRequest::parse`; `req.rs:40–69`. -/
def parseConnRequest (buf : Bytes) : Outcome ParseError (Option (Nat × ClientConnRequest)) :=
  if buf.length < 3 then .ok none
  else do
    let (v, buf) ← Cursor.getU8 buf
    if v ≠ 0x5 then .err ⟨"protocol", v, "0x5"⟩
    else do
      let (cmd, buf) ← Cursor.getU8 buf
      let (rsv, buf) ← Cursor.getU8 buf
      if rsv ≠ 0 then .err ⟨"rsv", rsv, "0x00"⟩
      else do
        match ← Address.parse buf with
        | none => .ok none
        | some (offset, address) => .ok (some (3 + offset, ⟨cmd, address⟩))

/-- `ClientConnRequest::respond`; `req.rs:88–96`. -/
def connReply (code : UInt8) (boundAddr : Address) : Outcome ErrorChain Bytes := do
  let addr ← boundAddr.writeTo
  .ok ([0x5, code, 0x00] ++ addr)

theorem parseConnRequest_cons (v cmd rsv : UInt8) (buf : Bytes) :
    parseConnRequest (v :: cmd :: rsv :: buf) =
      if v ≠ 0x5 then .err ⟨"protocol", v, "0x5"⟩
      else if rsv ≠ 0 then .err ⟨"rsv", rsv, "0x00"⟩
      else Address.parse buf >>= fun r ↦
        .ok (r.map fun a ↦ (3 + a.1, ⟨cmd, a.2⟩)) := by
  rw [parseConnRequest, if_neg (by simp)]
  simp only [Cursor.getU8_cons, Outcome.ok_bind]
  split
  · rfl
  · split
    · rfl
    · congr 1
      funext r
      cases r <;> rfl

/-- A connect request for a name is complete with its port. -/
theorem parseConnRequest_name (cmd len : UInt8) {buf : Bytes} (h : len.toNat + 2 ≤ buf.length) :
    parseConnRequest (5 :: cmd :: 0 :: 3 :: len :: buf) =
      .ok (some (3 + (len.toNat + 4), ⟨cmd, Address.fromHost
        (fromUtf8Lossy (buf.take len.toNat))
        (UInt16.ofNat (ofBE ((buf.drop len.toNat).take 2)))⟩)) := by
  have hlen : ¬ buf.length < len.toNat + 2 := Nat.not_lt.mpr h
  rw [parseConnRequest_cons, if_neg (by decide), if_neg (by decide), Address.parse_cons,
    if_neg (by decide), if_pos rfl]
  simp only [if_neg hlen, Outcome.ok_bind, Option.map_some]

private theorem connRequest_decided (b x : Bytes) (h : parseConnRequest b ≠ .ok none) :
    parseConnRequest (b ++ x) = parseConnRequest b := by
  match b with
  | [] => exact absurd rfl h
  | [_] => exact absurd rfl h
  | [_, _] => exact absurd rfl h
  | v :: cmd :: rsv :: buf =>
    simp only [List.cons_append]
    rw [parseConnRequest_cons, parseConnRequest_cons]
    rw [parseConnRequest_cons] at h
    split at h
    · next hv => rw [if_pos hv, if_pos hv]
    · next hv =>
      rw [if_neg hv, if_neg hv]
      split at h
      · next hr => rw [if_pos hr, if_pos hr]
      · next hr =>
        rw [if_neg hr, if_neg hr]
        have ha : Address.parse buf ≠ .ok none := by
          intro hn
          rw [hn] at h
          exact h rfl
        rw [Address.parse_decided buf x ha]

private theorem connRequest_answered (b : Bytes) : Answered parseConnRequest b := by
  match b with
  | [] => exact .inl rfl
  | [_] => exact .inl rfl
  | [_, _] => exact .inl rfl
  | v :: cmd :: rsv :: buf =>
    rw [Answered, parseConnRequest_cons]
    split
    · exact .inr (.inl ⟨_, rfl⟩)
    · split
      · exact .inr (.inl ⟨_, rfl⟩)
      · rcases Address.parse_answered buf with ha | ⟨e, ha⟩ | ⟨n, a, ha, hn⟩
        · rw [ha]
          exact .inl rfl
        · rw [ha]
          exact .inr (.inl ⟨e, rfl⟩)
        · rw [ha]
          refine .inr (.inr ⟨_, _, rfl, ?_⟩)
          simp only [List.length_cons]
          omega

theorem parseConnRequest_stable : Stable parseConnRequest :=
  Stable.of_decided connRequest_answered connRequest_decided

theorem parseConnRequest_exact : Exact parseConnRequest := by
  intro b n a h
  match b with
  | [] => cases h
  | [_] => cases h
  | [_, _] => cases h
  | v :: cmd :: rsv :: buf =>
    rw [parseConnRequest_cons] at h
    split at h
    · cases h
    · next hv =>
      split at h
      · cases h
      · next hr =>
        obtain ⟨r, hr', ha⟩ := Outcome.bind_eq_ok_iff.mp h
        cases r with
        | none => cases ha
        | some r =>
          cases ha
          have hn : 3 + r.1 = r.1 + 1 + 1 + 1 := by omega
          rw [hn, List.take_succ_cons, List.take_succ_cons, List.take_succ_cons,
            parseConnRequest_cons, if_neg hv, if_neg hr, Address.parse_exact buf r.1 r.2 hr', ← hn]
          rfl

/-! ### SOCKS4 request -/

/-- `socks4::Request`; `socks4.rs:11–14`. -/
structure Socks4Request where
  cmd : UInt8
  addr : Address
  deriving DecidableEq, Repr

/-- `SOCKS4_REQUEST_TCP`; `socks4.rs:9`. -/
def socks4RequestTcp : UInt8 := 1

/-- Behind the fixed part of a request: the user id, and the name where the address asks for
one; `socks4.rs:41–68`. -/
def parseSocks4Tail (cmd : UInt8) (port : UInt16) (ip buf : Bytes) :
    Outcome ErrorChain (Option (Nat × Socks4Request)) :=
  match buf.findIdx? (· == 0) with
  | none => .ok none
  | some v =>
    let offset := 8 + (v + 1)
    let buf := buf.drop (v + 1)
    if ip.take 3 = [0, 0, 0] ∧ ip.drop 3 ≠ [0] then
      if buf.length = 0 then .ok none
      else
        match buf.findIdx? (· == 0) with
        | some v =>
          .ok (some (offset + (v + 1), ⟨cmd, .name (fromUtf8Lossy (buf.take v)) port⟩))
        | none => .ok none
    else .ok (some (offset, ⟨cmd, .ip (.v4 (Ipv4Addr.ofNat (ofBE ip)) port)⟩))

/-- `parse_socks4_request`; `socks4.rs:16–69`. -/
def parseSocks4Request (buf : Bytes) : Outcome ErrorChain (Option (Nat × Socks4Request)) :=
  if buf.length < 9 then .ok none
  else do
    let (v, buf) ← Cursor.getU8 buf
    if v = 0x4 then do
      let (cmd, buf) ← Cursor.getU8 buf
      let (port, buf) ← Cursor.getU16 buf
      let (ip, buf) ← Cursor.splitTo 4 buf
      parseSocks4Tail cmd port ip buf
    else .err [s!"Invalid protocol: {v}"]

theorem parseSocks4Request_of_ge {v cmd : UInt8} {buf : Bytes} (h : 7 ≤ buf.length) :
    parseSocks4Request (v :: cmd :: buf) =
      if v = 0x4 then
        parseSocks4Tail cmd (UInt16.ofNat (ofBE (buf.take 2))) ((buf.drop 2).take 4) (buf.drop 6)
      else .err [s!"Invalid protocol: {v}"] := by
  have h2 : 2 ≤ buf.length := by omega
  have h4 : 4 ≤ (buf.drop 2).length := by
    rw [List.length_drop]
    omega
  rw [parseSocks4Request, if_neg (by simp only [List.length_cons]; omega)]
  simp only [Cursor.getU8_cons, Outcome.ok_bind, Cursor.getU16_of_le h2, Cursor.splitTo_of_le h4,
    List.drop_drop]

private theorem findIdx?_front {b : Bytes} {v : Nat} (h : b.findIdx? (· == 0) = some v)
    (x : Bytes) : (b ++ x).findIdx? (· == 0) = some v ∧ v + 1 ≤ b.length := by
  constructor
  · rw [List.findIdx?_append, h]
    rfl
  · exact (List.findIdx?_eq_some_iff_findIdx_eq.mp h).1

theorem parseSocks4Tail_decided (cmd : UInt8) (port : UInt16) (ip b x : Bytes)
    (h : parseSocks4Tail cmd port ip b ≠ .ok none) :
    parseSocks4Tail cmd port ip (b ++ x) = parseSocks4Tail cmd port ip b := by
  rw [parseSocks4Tail] at h
  cases hu : b.findIdx? (· == 0) with
  | none =>
    rw [hu] at h
    exact absurd rfl h
  | some u =>
    obtain ⟨hx, hle⟩ := findIdx?_front hu x
    rw [hu] at h
    rw [parseSocks4Tail, parseSocks4Tail, hu, hx]
    dsimp only at h ⊢
    rw [List.drop_append_of_le_length hle]
    by_cases hip : ip.take 3 = [0, 0, 0] ∧ ip.drop 3 ≠ [0]
    · rw [if_pos hip] at h
      rw [if_pos hip, if_pos hip]
      cases hv : (b.drop (u + 1)).findIdx? (· == 0) with
      | none =>
        rw [hv] at h
        split at h <;> exact absurd rfl h
      | some v =>
        obtain ⟨hvx, hvle⟩ := findIdx?_front hv x
        rw [hvx, if_neg (by rw [List.length_append]; omega), if_neg (by omega)]
        dsimp only
        rw [List.take_append_of_le_length (by omega)]
    · rw [if_neg hip, if_neg hip]

theorem parseSocks4Tail_answered (cmd : UInt8) (port : UInt16) (ip b : Bytes) :
    parseSocks4Tail cmd port ip b = .ok none ∨
      ∃ n r, parseSocks4Tail cmd port ip b = .ok (some (n, r)) ∧ n ≤ 8 + b.length := by
  rw [parseSocks4Tail]
  cases hu : b.findIdx? (· == 0) with
  | none => exact .inl rfl
  | some u =>
    have hle := (findIdx?_front hu []).2
    dsimp only
    split
    · split
      · exact .inl rfl
      · cases hv : (b.drop (u + 1)).findIdx? (· == 0) with
        | none => exact .inl rfl
        | some v =>
          have hvle := (findIdx?_front hv []).2
          rw [List.length_drop] at hvle
          exact .inr ⟨_, _, rfl, by omega⟩
    · exact .inr ⟨_, _, rfl, by omega⟩

private theorem socks4Request_decided (b x : Bytes) (h : parseSocks4Request b ≠ .ok none) :
    parseSocks4Request (b ++ x) = parseSocks4Request b := by
  by_cases hb : b.length < 9
  · rw [parseSocks4Request, if_pos hb] at h
    exact absurd rfl h
  · match b with
    | [] => simp at hb
    | [_] => simp at hb
    | v :: cmd :: b =>
      have hlen : 7 ≤ b.length := by
        simp only [List.length_cons] at hb
        omega
      have hlenx : 7 ≤ (b ++ x).length := by
        rw [List.length_append]
        omega
      rw [parseSocks4Request_of_ge hlen] at h
      simp only [List.cons_append]
      rw [parseSocks4Request_of_ge hlen, parseSocks4Request_of_ge hlenx]
      split at h
      · next hv =>
        rw [if_pos hv, if_pos hv, List.take_append_of_le_length (by omega),
          List.drop_append_of_le_length (by omega), List.drop_append_of_le_length (by omega),
          List.take_append_of_le_length (by rw [List.length_drop]; omega)]
        exact parseSocks4Tail_decided _ _ _ _ x h
      · next hv => rw [if_neg hv, if_neg hv]

private theorem socks4Request_answered (b : Bytes) : Answered parseSocks4Request b := by
  by_cases hb : b.length < 9
  · exact .inl (by rw [parseSocks4Request, if_pos hb])
  · match b with
    | [] => simp at hb
    | [_] => simp at hb
    | v :: cmd :: b =>
      have hlen : 7 ≤ b.length := by
        simp only [List.length_cons] at hb
        omega
      rw [Answered, parseSocks4Request_of_ge hlen]
      split
      · rcases parseSocks4Tail_answered cmd _ _ (b.drop 6) with hm | ⟨n, r, hr, hn⟩
        · exact .inl hm
        · refine .inr (.inr ⟨n, r, hr, ?_⟩)
          simp only [List.length_drop, List.length_cons] at hn ⊢
          omega
      · exact .inr (.inl ⟨_, rfl⟩)

theorem parseSocks4Request_stable : Stable parseSocks4Request :=
  Stable.of_decided socks4Request_answered socks4Request_decided

private theorem findIdx?_take {b : Bytes} {v m : Nat} (h : b.findIdx? (· == 0) = some v)
    (hm : v < m) : (b.take m).findIdx? (· == 0) = some v := by
  by_cases hb : b.length ≤ m
  · rw [List.take_of_length_le hb, h]
  · rw [← List.take_append_drop m b, List.findIdx?_append] at h
    cases ht : (b.take m).findIdx? (· == 0) with
    | some w =>
      rw [ht] at h
      exact h
    | none =>
      rw [ht] at h
      obtain ⟨w, _, hw⟩ := Option.map_eq_some_iff.mp h
      rw [List.length_take] at hw
      omega

theorem parseSocks4Tail_exact {cmd : UInt8} {port : UInt16} {ip b : Bytes} {n : Nat}
    {r : Socks4Request} (h : parseSocks4Tail cmd port ip b = .ok (some (n, r))) :
    8 < n ∧ parseSocks4Tail cmd port ip (b.take (n - 8)) = .ok (some (n, r)) := by
  rw [parseSocks4Tail] at h
  cases hu : b.findIdx? (· == 0) with
  | none =>
    rw [hu] at h
    cases h
  | some u =>
    rw [hu] at h
    dsimp only at h
    split at h
    · next hip =>
      split at h
      · cases h
      · next hlen =>
        cases hv : (b.drop (u + 1)).findIdx? (· == 0) with
        | none =>
          rw [hv] at h
          cases h
        | some v =>
          rw [hv] at h
          cases h
          have hn : 8 + (u + 1) + (v + 1) - 8 = u + 1 + (v + 1) := by omega
          have hlen' : ¬ ((b.drop (u + 1)).take (v + 1)).length = 0 := by
            rw [List.length_take]
            omega
          refine ⟨by omega, ?_⟩
          rw [parseSocks4Tail, hn, findIdx?_take hu (by omega)]
          dsimp only
          rw [if_pos hip, List.drop_take, Nat.add_sub_cancel_left, if_neg hlen',
            findIdx?_take hv (by omega)]
          dsimp only
          rw [List.take_take, Nat.min_eq_left (by omega)]
    · next hip =>
      cases h
      have hn : 8 + (u + 1) - 8 = u + 1 := by omega
      refine ⟨by omega, ?_⟩
      rw [parseSocks4Tail, hn, findIdx?_take hu (by omega)]
      dsimp only
      rw [if_neg hip]

theorem parseSocks4Request_exact : Exact parseSocks4Request := by
  intro b n a h
  match b with
  | [] => cases h
  | [_] => cases h
  | v :: cmd :: buf =>
    by_cases hlen : 7 ≤ buf.length
    · rw [parseSocks4Request_of_ge hlen] at h
      split at h
      · next hv =>
        obtain ⟨hn, hx⟩ := parseSocks4Tail_exact h
        obtain ⟨m, rfl⟩ : ∃ m, n = m + 1 + 1 := ⟨n - 2, by omega⟩
        have hm : 7 ≤ (buf.take m).length := by
          rw [List.length_take]
          omega
        rw [List.take_succ_cons, List.take_succ_cons, parseSocks4Request_of_ge hm, if_pos hv,
          List.take_take, Nat.min_eq_left (by omega), List.drop_take, List.take_take,
          Nat.min_eq_left (by omega), List.drop_take]
        have hm8 : m + 1 + 1 - 8 = m - 6 := by omega
        rw [hm8] at hx
        exact hx
      · cases h
    · rw [parseSocks4Request, if_pos (by simp only [List.length_cons]; omega)] at h
      cases h

/-- Only the version byte of SOCKS4 starts a request. -/
theorem head_of_socks4Request {b : Bytes} {r : Nat × Socks4Request}
    (h : parseSocks4Request b = .ok (some r)) : b.head? = some 0x4 := by
  rw [parseSocks4Request] at h
  split at h
  · cases h
  · cases b with
    | nil => cases h
    | cons v b =>
      rw [Cursor.getU8_cons, Outcome.ok_bind] at h
      dsimp only at h
      split at h
      · next hv => rw [List.head?_cons, hv]
      · cases h

theorem head_of_socks4Request_err {b : Bytes} {e : ErrorChain}
    (h : parseSocks4Request b = .err e) :
    9 ≤ b.length ∧ ∃ v, b.head? = some v ∧ v ≠ 0x4 := by
  match b with
  | [] => cases h
  | [_] => cases h
  | v :: cmd :: buf =>
    by_cases hlen : 7 ≤ buf.length
    · constructor
      · simp only [List.length_cons]
        omega
      · refine ⟨v, rfl, ?_⟩
        rintro rfl
        rw [parseSocks4Request_of_ge hlen, if_pos rfl] at h
        rcases parseSocks4Tail_answered cmd _ _ (buf.drop 6) with hm | ⟨n, r, hr, _⟩
        · rw [hm] at h
          cases h
        · rw [hr] at h
          cases h
    · rw [parseSocks4Request, if_pos (by simp only [List.length_cons]; omega)] at h
      cases h

/-- The parsers of the handshake can be asked again with more bytes, at every cut. -/
theorem handshake_parsers_prefixExact :
    PrefixExact Address.parse ∧ PrefixExact parseSocks5Greeting ∧ PrefixExact parseConnRequest ∧
      PrefixExact parseSocks4Request := by
  refine ⟨?_, ?_, ?_, ?_⟩
  · exact Address.parse_stable.prefixExact Address.parse_exact
  · exact parseSocks5Greeting_stable.prefixExact parseSocks5Greeting_exact
  · exact parseConnRequest_stable.prefixExact parseConnRequest_exact
  · exact parseSocks4Request_stable.prefixExact parseSocks4Request_exact

/-! ### Replies -/

/-- `SOCKS4_REPLY_GRANTED`; `socks4.rs:71`. -/
def socks4ReplyGranted : UInt8 := 0x5A

/-- `SOCKS4_REPLY_FAILED`; `socks4.rs:72`. -/
def socks4ReplyFailed : UInt8 := 0x5B

/-- `respond_socks4`; `socks4.rs:74–84`. -/
def socks4Reply (ip : Ipv4Addr) (port : UInt16) (reply : UInt8) : Bytes :=
  [0, reply] ++ toBE 2 port.toNat ++ ip.octets

end Cpxy.Handshake
