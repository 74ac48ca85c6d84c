import Cpxy.Base.Text

/-!
# Socket addresses

Library `Net`. The address types of the Rust standard library (`std::net`) with their
text parser. The wire formats carry an address as its octets and a port; the flow info
and scope id of an IPv6 socket address travel on none of them.
-/

namespace Cpxy.Net

open Cpxy.Base

/-- An IPv4 address, as its 32-bit number. -/
structure Ipv4Addr where
  bits : UInt32
  deriving DecidableEq, Repr

/-- An IPv6 address, as its 128-bit number. -/
structure Ipv6Addr where
  bits : BitVec 128
  deriving DecidableEq, Repr

/-- An address of either family. -/
inductive IpAddr where
  | v4 (ip : Ipv4Addr)
  | v6 (ip : Ipv6Addr)
  deriving DecidableEq, Repr

/-- An address with a port. -/
inductive SocketAddr where
  | v4 (ip : Ipv4Addr) (port : UInt16)
  | v6 (ip : Ipv6Addr) (port : UInt16) (flowinfo scopeId : UInt32)
  deriving DecidableEq, Repr

/-- The four octets, network order. -/
def Ipv4Addr.octets (a : Ipv4Addr) : Bytes := toBE 4 a.bits.toNat

/-- The sixteen octets, network order. -/
def Ipv6Addr.octets (a : Ipv6Addr) : Bytes := toBE 16 a.bits.toNat

/-- The address with the given big-endian number. -/
def Ipv4Addr.ofNat (n : Nat) : Ipv4Addr := ⟨UInt32.ofNat n⟩

/-- The address with the given big-endian number. -/
def Ipv6Addr.ofNat (n : Nat) : Ipv6Addr := ⟨BitVec.ofNat 128 n⟩

@[simp] theorem Ipv4Addr.ofNat_toNat (a : Ipv4Addr) : Ipv4Addr.ofNat a.bits.toNat = a := by
  simp [Ipv4Addr.ofNat]

@[simp] theorem Ipv6Addr.ofNat_toNat (a : Ipv6Addr) : Ipv6Addr.ofNat a.bits.toNat = a := by
  simp [Ipv6Addr.ofNat]

namespace SocketAddr

/-- `SocketAddr::new`: IPv6 addresses get no flow info and no scope id. -/
def new : IpAddr → UInt16 → SocketAddr
  | .v4 ip, port => .v4 ip port
  | .v6 ip, port => .v6 ip port 0 0

/-- The address without its port. -/
def ip : SocketAddr → IpAddr
  | .v4 ip _ => .v4 ip
  | .v6 ip _ _ _ => .v6 ip

/-- The port. -/
def port : SocketAddr → UInt16
  | .v4 _ port => port
  | .v6 _ port _ _ => port

/-- Whether the address is an IPv6 one. -/
def isV6 : SocketAddr → Bool
  | .v4 _ _ => false
  | .v6 _ _ _ _ => true

/-- The part of an address that the wire formats carry. -/
def canonical (a : SocketAddr) : SocketAddr := new a.ip a.port

/-- `IpAddr::is_unspecified` of the address. -/
def isUnspecified : SocketAddr → Bool
  | .v4 ip _ => ip.bits == 0
  | .v6 ip _ _ _ => ip.bits == 0

@[simp] theorem canonical_new (a : IpAddr) (p : UInt16) : (new a p).canonical = new a p := by
  cases a <;> rfl

end SocketAddr

@[simp] theorem Ipv4Addr.length_octets (a : Ipv4Addr) : a.octets.length = 4 := length_toBE _ _

@[simp] theorem Ipv6Addr.length_octets (a : Ipv6Addr) : a.octets.length = 16 := length_toBE _ _

/-- The number read from the octets is the address. -/
@[simp] theorem Ipv4Addr.ofNat_octets (a : Ipv4Addr) : Ipv4Addr.ofNat (ofBE a.octets) = a := by
  have ha : a.bits.toNat < 256 ^ 4 := a.bits.toNat_lt
  rw [octets, ofBE_toBE ha, Ipv4Addr.ofNat, UInt32.ofNat_toNat]

/-- The number read from the octets is the address. -/
@[simp] theorem Ipv6Addr.ofNat_octets (a : Ipv6Addr) : Ipv6Addr.ofNat (ofBE a.octets) = a := by
  have ha : a.bits.toNat < 256 ^ 16 := a.bits.isLt
  rw [octets, ofBE_toBE ha, Ipv6Addr.ofNat, BitVec.ofNat_toNat, BitVec.setWidth_eq]

/-! ### Text form

The recursive-descent parser of `core::net`: a number is a maximal run of digits, and a
reader that fails leaves the position where it was. -/

private abbrev Reader (α : Type) := List Char → Option (α × List Char)

private def readChar (c : Char) : Reader Unit
  | x :: xs => if x = c then some ((), xs) else none
  | [] => none

private def spanDigits (radix : Nat) : List Char → List Nat × List Char
  | [] => ([], [])
  | c :: cs =>
    match digitVal radix c with
    | some d => let p := spanDigits radix cs; (d :: p.1, p.2)
    | none => ([], c :: cs)

private def readNumber (radix : Nat) (maxDigits : Option Nat) (allowZeroPrefix : Bool)
    (bound : Nat) : Reader Nat := fun s ↦
  let p := spanDigits radix s
  let value := p.1.foldl (fun acc d ↦ acc * radix + d) 0
  if p.1 = [] ∨ maxDigits.any (· < p.1.length) ∨
      (!allowZeroPrefix && p.1.head? == some 0 && 1 < p.1.length) ∨ bound ≤ value then none
  else some (value, p.2)

private def readSeparated {α : Type} (sep : Char) (i : Nat) (inner : Reader α) : Reader α :=
  fun s ↦ if i = 0 then inner s else (readChar sep s).bind fun p ↦ inner p.2

private def readV4 : Reader Ipv4Addr := fun s ↦ do
  let octet := readNumber 10 (some 3) false 256
  let (a, s) ← readSeparated '.' 0 octet s
  let (b, s) ← readSeparated '.' 1 octet s
  let (c, s) ← readSeparated '.' 2 octet s
  let (d, s) ← readSeparated '.' 3 octet s
  pure (Ipv4Addr.ofNat (((a * 256 + b) * 256 + c) * 256 + d), s)

-- Up to `limit` groups from group `i` on; the flag tells that an embedded IPv4 address ended them.
private def readGroups (limit : Nat) : Nat → Nat → List Char → List Nat × Bool × List Char
  | 0, _, s => ([], false, s)
  | left + 1, i, s =>
    let v4 := if i < limit - 1 then readSeparated ':' i readV4 s else none
    match v4 with
    | some (a, s') => ([a.bits.toNat / 65536, a.bits.toNat % 65536], true, s')
    | none =>
      match readSeparated ':' i (readNumber 16 (some 4) true 65536) s with
      | some (g, s') =>
        let r := readGroups limit left (i + 1) s'
        (g :: r.1, r.2)
      | none => ([], false, s)

private def ofGroups (groups : List Nat) : Ipv6Addr :=
  Ipv6Addr.ofNat (groups.foldl (fun acc g ↦ acc * 65536 + g) 0)

private def readV6 : Reader Ipv6Addr := fun s ↦
  let (head, embedded, s) := readGroups 8 8 0 s
  if head.length = 8 then some (ofGroups head, s)
  else if embedded then none
  else do
    let (_, s) ← readChar ':' s
    let (_, s) ← readChar ':' s
    let limit := 8 - (head.length + 1)
    let (tail, _, s) := readGroups limit limit 0 s
    let zeros := List.replicate (8 - head.length - tail.length) 0
    pure (ofGroups (head ++ zeros ++ tail), s)

private def readPort : Reader UInt16 := fun s ↦ do
  let (_, s) ← readChar ':' s
  let (p, s) ← readNumber 10 none true 65536 s
  pure (UInt16.ofNat p, s)

private def readScopeId : Reader UInt32 := fun s ↦ do
  let (_, s) ← readChar '%' s
  let (n, s) ← readNumber 10 none true 4294967296 s
  pure (UInt32.ofNat n, s)

private def readSocketAddrV6 : Reader SocketAddr := fun s ↦ do
  let (_, s) ← readChar '[' s
  let (ip, s) ← readV6 s
  let (scope, s) := (readScopeId s).getD (0, s)
  let (_, s) ← readChar ']' s
  let (port, s) ← readPort s
  pure (.v6 ip port 0 scope, s)

private def complete {α : Type} : Option (α × List Char) → Option α
  | some (a, []) => some a
  | _ => none

/-- `IpAddr::from_str`. -/
def IpAddr.fromStr (s : String) : Option IpAddr :=
  complete (((readV4 s.toList).map fun p ↦ (IpAddr.v4 p.1, p.2)).orElse fun _ ↦
    (readV6 s.toList).map fun p ↦ (IpAddr.v6 p.1, p.2))

/-- `SocketAddr::from_str`. -/
def SocketAddr.fromStr (s : String) : Option SocketAddr :=
  let v4 := do
    let (ip, rest) ← readV4 s.toList
    let (port, rest) ← readPort rest
    pure (SocketAddr.v4 ip port, rest)
  complete (v4.orElse fun _ ↦ readSocketAddrV6 s.toList)

/-! ### Display -/

private def hexText (n : Nat) : String := String.ofList (Nat.toDigits 16 n)

/-- `Display for Ipv4Addr`. -/
def Ipv4Addr.display (a : Ipv4Addr) : String :=
  ".".intercalate (a.octets.map fun b ↦ toString b.toNat)

/-- The eight 16-bit groups, most significant first. -/
def Ipv6Addr.segments (a : Ipv6Addr) : List Nat :=
  (List.range 8).map fun i ↦ a.bits.toNat / 65536 ^ (7 - i) % 65536

-- Start and length of the first longest run of zero groups.
private def longestZeros : Nat → Nat × Nat → Nat × Nat → List Nat → Nat × Nat
  | _, _, longest, [] => longest
  | i, current, longest, g :: gs =>
    if g = 0 then
      let current := (if current.2 = 0 then i else current.1, current.2 + 1)
      longestZeros (i + 1) current (if longest.2 < current.2 then current else longest) gs
    else longestZeros (i + 1) (0, 0) longest gs

/-- `Display for Ipv6Addr`: the longest run of at least two zero groups is elided, and a
mapped IPv4 address keeps its dotted form. -/
def Ipv6Addr.display (a : Ipv6Addr) : String :=
  if a.bits.toNat / 2 ^ 32 = 0xFFFF then
    "::ffff:" ++ (Ipv4Addr.ofNat a.bits.toNat).display
  else
    let groups (gs : List Nat) := ":".intercalate (gs.map hexText)
    let z := longestZeros 0 (0, 0) (0, 0) a.segments
    if 1 < z.2 then
      groups (a.segments.take z.1) ++ "::" ++ groups (a.segments.drop (z.1 + z.2))
    else groups a.segments

/-- `Display for IpAddr`. -/
def IpAddr.display : IpAddr → String
  | .v4 a => a.display
  | .v6 a => a.display

/-- `Display for SocketAddr`: the scope id is shown where there is one. -/
def SocketAddr.display : SocketAddr → String
  | .v4 ip port => ip.display ++ ":" ++ toString port.toNat
  | .v6 ip port _ scopeId =>
    let scope := if scopeId = 0 then "" else "%" ++ toString scopeId.toNat
    "[" ++ ip.display ++ scope ++ "]:" ++ toString port.toNat

example : IpAddr.fromStr "127.0.0.1" = some (.v4 ⟨0x7F000001⟩) := by decide

example : SocketAddr.fromStr "[::1]:80" = some (.v6 ⟨1⟩ 80 0 0) := by decide

example : IpAddr.fromStr "127.0.0.01" = none := by decide

/-! ### Reading what is displayed -/

/-- Nothing that a number could go on with. -/
private def NoDigitHead (radix : Nat) (rest : List Char) : Prop :=
  ∀ c, rest.head? = some c → digitVal radix c = none

private theorem spanDigits_append {radix : Nat} {s rest : List Char}
    (hs : ∀ c ∈ s, digitVal radix c ≠ none) (hrest : NoDigitHead radix rest) :
    spanDigits radix (s ++ rest) = (s.filterMap (digitVal radix), rest) := by
  induction s with
  | nil =>
    cases rest with
    | nil => rfl
    | cons c rest => rw [List.nil_append, spanDigits, hrest c rfl, List.filterMap_nil]
  | cons c s ih =>
    obtain ⟨d, hd⟩ := Option.ne_none_iff_exists'.mp (hs c List.mem_cons_self)
    rw [List.cons_append, spanDigits, hd, ih fun x hx ↦ hs x (List.mem_cons_of_mem c hx),
      List.filterMap_cons_some hd]

/-- The digits of an octet, as its reader asks for them. -/
private theorem octetDigits {n : Nat} (h : n < 256) :
    let ds := (Nat.toDigits 10 n).filterMap (digitVal 10)
    ds ≠ [] ∧ ds.length ≤ 3 ∧ (ds.head? = some 0 → ds.length ≤ 1) ∧
      ds.foldl (fun acc d ↦ acc * 10 + d) 0 = n := by
  revert n
  decide +kernel

private theorem readOctet_display {n : Nat} (h : n < 256) {rest : List Char}
    (hrest : NoDigitHead 10 rest) :
    readNumber 10 (some 3) false 256 ((toString n).toList ++ rest) = some (n, rest) := by
  obtain ⟨hne, hlen, hzero, hvalue⟩ := octetDigits h
  rw [readNumber, spanDigits_append digitVal_of_mem_toString hrest, toList_toString]
  dsimp only
  rw [hvalue, if_neg]
  rintro (hnil | hlong | hlead | hbig)
  · exact hne hnil
  · have := of_decide_eq_true hlong
    omega
  · simp only [Bool.not_false, Bool.true_and, Bool.and_eq_true, beq_iff_eq,
      decide_eq_true_eq] at hlead
    have := hzero hlead.1
    omega
  · omega

private theorem noDigitHead_dot (rest : List Char) : NoDigitHead 10 ('.' :: rest) := by
  rintro c ⟨⟩
  rfl

/-- The text of an IPv4 address, by its octets. -/
private theorem toList_display (a : Ipv4Addr) : ∃ b₁ b₂ b₃ b₄ : UInt8, a.octets = [b₁, b₂, b₃, b₄] ∧
    a.display.toList = (toString b₁.toNat).toList ++ '.' :: ((toString b₂.toNat).toList ++ '.' ::
      ((toString b₃.toNat).toList ++ '.' :: ((toString b₄.toNat).toList ++ []))) := by
  obtain ⟨b₁, b₂, b₃, b₄, hoctets⟩ : ∃ b₁ b₂ b₃ b₄, a.octets = [b₁, b₂, b₃, b₄] := by
    have hlen := a.length_octets
    generalize a.octets = octets at hlen ⊢
    match octets, hlen with
    | [b₁, b₂, b₃, b₄], _ => exact ⟨b₁, b₂, b₃, b₄, rfl⟩
  refine ⟨b₁, b₂, b₃, b₄, hoctets, ?_⟩
  rw [Ipv4Addr.display, hoctets, String.toList_intercalate]
  simp [List.intercalate]

private theorem readV4_append (a : Ipv4Addr) {rest : List Char} (hrest : NoDigitHead 10 rest) :
    readV4 (a.display.toList ++ rest) = some (a, rest) := by
  obtain ⟨b₁, b₂, b₃, b₄, hoctets, htext⟩ := toList_display a
  have hvalue : ((b₁.toNat * 256 + b₂.toNat) * 256 + b₃.toNat) * 256 + b₄.toNat =
      ofBE a.octets := by
    rw [hoctets]
    simp only [ofBE, List.length_cons, List.length_nil]
    omega
  rw [htext, readV4]
  simp only [List.append_assoc, List.cons_append, List.nil_append, readSeparated, readChar,
    if_true, Nat.succ_ne_zero, if_false, Option.bind_some, Option.bind_eq_bind, OfNat.ofNat_ne_zero,
    readOctet_display b₁.toNat_lt (noDigitHead_dot _),
    readOctet_display b₂.toNat_lt (noDigitHead_dot _),
    readOctet_display b₃.toNat_lt (noDigitHead_dot _), readOctet_display b₄.toNat_lt hrest]
  rw [hvalue, Ipv4Addr.ofNat_octets]
  rfl

private theorem readV4_display (a : Ipv4Addr) : readV4 a.display.toList = some (a, []) := by
  have hread : readV4 (a.display.toList ++ []) = some (a, []) := readV4_append a nofun
  rwa [List.append_nil] at hread

/-- A displayed IPv4 address is read back. -/
theorem IpAddr.fromStr_display_v4 (a : Ipv4Addr) : fromStr a.display = some (.v4 a) := by
  rw [fromStr, readV4_display]
  rfl

/-- No address is written in brackets. -/
theorem IpAddr.fromStr_bracket (l : List Char) : fromStr (String.ofList ('[' :: l)) = none := by
  rw [fromStr, String.toList_ofList]
  rfl

/-- The text of an IPv4 address has digits and dots. -/
theorem Ipv4Addr.mem_display {a : Ipv4Addr} {c : Char} (h : c ∈ a.display.toList) :
    c = '.' ∨ digitVal 10 c ≠ none := by
  obtain ⟨b₁, b₂, b₃, b₄, _, htext⟩ := toList_display a
  rw [htext] at h
  simp only [List.mem_append, List.mem_cons, List.append_nil] at h
  rcases h with h | h | h | h | h | h | h
  · exact .inr (digitVal_of_mem_toString c h)
  · exact .inl h
  · exact .inr (digitVal_of_mem_toString c h)
  · exact .inl h
  · exact .inr (digitVal_of_mem_toString c h)
  · exact .inl h
  · exact .inr (digitVal_of_mem_toString c h)

/-! ### Reading what is displayed, in IPv6 -/

private theorem spanDigits_rest (radix : Nat) (s : List Char) :
    (spanDigits radix s).2 = s.dropWhile fun c ↦ (digitVal radix c).isSome := by
  induction s with
  | nil => rfl
  | cons c s ih =>
    rw [spanDigits, List.dropWhile_cons]
    cases digitVal radix c with
    | none => rfl
    | some d => exact ih

/-- A number that fits is read back, in digits of any radix, and nothing behind it. -/
private theorem readNumber_toDigits {radix : Nat} (hone : 1 < radix) (hradix : radix ≤ 16)
    {maxDigits : Option Nat} {bound n : Nat} (hn : n < bound)
    (hmax : ∀ m, maxDigits = some m → 0 < m ∧ n < radix ^ m) {rest : List Char}
    (hrest : NoDigitHead radix rest) :
    readNumber radix maxDigits true bound (Nat.toDigits radix n ++ rest) = some (n, rest) := by
  have hdigits := digitVal_of_mem_toDigits hone hradix (n := n)
  have hlength : ((Nat.toDigits radix n).filterMap (digitVal radix)).length =
      (Nat.toDigits radix n).length := by
    rw [List.length_filterMap_eq_countP, List.countP_eq_length]
    intro c hc
    exact Option.isSome_iff_ne_none.mpr (hdigits c hc)
  rw [readNumber, spanDigits_append hdigits hrest]
  dsimp only
  rw [foldl_digitVal_toDigits hone hradix, if_neg]
  rintro (hnil | hlong | hlead | hbig)
  · rw [hnil] at hlength
    exact Nat.toDigits_ne_nil (List.eq_nil_of_length_eq_zero hlength.symm)
  · cases maxDigits with
    | none => cases hlong
    | some m =>
      obtain ⟨hpos, hlt⟩ := hmax m rfl
      have hle := (Nat.length_toDigits_le_iff hone hpos).mpr hlt
      have := of_decide_eq_true hlong
      omega
  · cases hlead
  · omega

private theorem readNumber_eq_none {radix : Nat} {s : List Char} (h : NoDigitHead radix s)
    (maxDigits : Option Nat) (allowZeroPrefix : Bool) (bound : Nat) :
    readNumber radix maxDigits allowZeroPrefix bound s = none := by
  have hspan := spanDigits_append (s := []) nofun h
  rw [List.nil_append] at hspan
  rw [readNumber, hspan]
  exact if_pos (.inl rfl)

/-- A dotted address needs a dot behind its first digits. -/
private theorem readV4_eq_none {s : List Char}
    (h : (s.dropWhile fun c ↦ (digitVal 10 c).isSome).head? ≠ some '.') : readV4 s = none := by
  have hdot : ∀ p, readNumber 10 (some 3) false 256 s = some p → readChar '.' p.2 = none := by
    intro p hread
    rw [readNumber] at hread
    split at hread
    · cases hread
    · cases hread
      rw [← spanDigits_rest] at h
      cases hs : (spanDigits 10 s).2 with
      | nil => rfl
      | cons c cs =>
        rw [hs] at h
        exact if_neg fun hc ↦ h (congrArg some hc)
  rw [readV4]
  dsimp only
  rw [readSeparated, if_pos rfl]
  cases hread : readNumber 10 (some 3) false 256 s with
  | none => rfl
  | some p => simp [readSeparated, hdot p hread]

/-- What follows a group: neither a digit of its own nor a dot. -/
private def EndsGroup (rest : List Char) : Prop :=
  NoDigitHead 16 rest ∧ rest.head? ≠ some '.'

private theorem noDigitHead_of_hex {rest : List Char} (h : NoDigitHead 16 rest) :
    NoDigitHead 10 rest := by
  intro c hc
  have hnone := h c hc
  unfold digitVal at hnone ⊢
  grind

/-- Digits are dropped up to what follows them, unless there is another character first. -/
private theorem head?_dropWhile_digits {s rest : List Char} (hrest : NoDigitHead 10 rest) :
    (∃ c ∈ s, ((s ++ rest).dropWhile fun c ↦ (digitVal 10 c).isSome).head? = some c) ∨
      (s ++ rest).dropWhile (fun c ↦ (digitVal 10 c).isSome) = rest := by
  induction s with
  | nil =>
    right
    cases rest with
    | nil => rfl
    | cons c rest =>
      have hnone := hrest c rfl
      rw [List.nil_append, List.dropWhile_cons_of_neg]
      rw [hnone]
      exact Bool.false_ne_true
  | cons x s ih =>
    rw [List.cons_append, List.dropWhile_cons]
    split
    · rcases ih with ⟨c, hc, heq⟩ | heq
      · exact .inl ⟨c, List.mem_cons_of_mem x hc, heq⟩
      · exact .inr heq
    · exact .inl ⟨x, List.mem_cons_self, rfl⟩

/-- A group in hexadecimal digits is not the beginning of a dotted address. -/
private theorem readV4_group {g : Nat} {rest : List Char} (hrest : EndsGroup rest) :
    readV4 (Nat.toDigits 16 g ++ rest) = none := by
  apply readV4_eq_none
  rcases head?_dropWhile_digits (s := Nat.toDigits 16 g) (noDigitHead_of_hex hrest.1) with
    ⟨c, hc, heq⟩ | heq
  · rw [heq]
    rintro ⟨⟩
    exact digitVal_of_mem_toDigits (by decide) (by decide) '.' hc rfl
  · rw [heq]
    exact hrest.2

/-- A group comes behind a colon unless it is the first. -/
private def colonAt (i : Nat) : List Char := if i = 0 then [] else [':']

private theorem readSeparated_colonAt {α : Type} (i : Nat) (inner : Reader α) (s : List Char) :
    readSeparated ':' i inner (colonAt i ++ s) = inner s := by
  rw [readSeparated, colonAt]
  split <;> rfl

/-- The text of groups, of which the first is the group `i`. -/
private def groupsText : Nat → List Nat → List Char
  | _, [] => []
  | i, g :: gs => colonAt i ++ (Nat.toDigits 16 g ++ groupsText 1 gs)

private theorem groupsText_succ (i : Nat) (gs : List Nat) :
    groupsText (i + 1) gs = groupsText 1 gs := by
  cases gs <;> rfl

private theorem endsGroup_groupsText {rest : List Char} (hrest : EndsGroup rest) (gs : List Nat) :
    EndsGroup (groupsText 1 gs ++ rest) := by
  cases gs with
  | nil => exact hrest
  | cons g gs =>
    constructor
    · rintro c ⟨⟩
      rfl
    · rintro ⟨⟩

/-- The reader of groups stops here. -/
private def NoGroup (i : Nat) (rest : List Char) : Prop :=
  readSeparated ':' i readV4 rest = none ∧
    readSeparated ':' i (readNumber 16 (some 4) true 65536) rest = none

/-- Groups are read back, up to where they are enough or no other follows. -/
private theorem readGroups_groupsText {rest : List Char} (hrest : EndsGroup rest) {gs : List Nat}
    (hgs : ∀ g ∈ gs, g < 65536) (limit : Nat) {left i : Nat} (hleft : gs.length ≤ left)
    (hend : gs.length = left ∨ NoGroup (i + gs.length) rest) :
    readGroups limit left i (groupsText i gs ++ rest) = (gs, false, rest) := by
  induction gs generalizing left i with
  | nil =>
    cases left with
    | zero => rfl
    | succ left =>
      obtain ⟨hv4, hgroup⟩ := hend.resolve_left (Nat.succ_ne_zero left).symm
      rw [groupsText, List.nil_append, readGroups, ← Nat.add_zero i]
      simp only [List.length_nil] at hv4 hgroup
      rw [hv4, hgroup, ite_self]
  | cons g gs ih =>
    obtain ⟨left, rfl⟩ : ∃ l, left = l + 1 := ⟨left - 1, by simp at hleft; omega⟩
    have hends := endsGroup_groupsText hrest gs
    have hg : g < 65536 := hgs g List.mem_cons_self
    have hnumber : readNumber 16 (some 4) true 65536
        (Nat.toDigits 16 g ++ (groupsText 1 gs ++ rest)) = some (g, groupsText 1 gs ++ rest) := by
      apply readNumber_toDigits (by decide) (by decide) hg _ hends.1
      rintro m ⟨⟩
      exact ⟨by decide, hg⟩
    have hend' : gs.length = left ∨ NoGroup (i + 1 + gs.length) rest := by
      rw [List.length_cons, Nat.add_comm gs.length, ← Nat.add_assoc] at hend
      exact hend.imp_left fun h ↦ by omega
    have hrec := ih (fun x hx ↦ hgs x (List.mem_cons_of_mem g hx)) (Nat.le_of_succ_le_succ hleft)
      hend'
    rw [groupsText_succ] at hrec
    rw [groupsText, List.append_assoc, List.append_assoc, readGroups, readSeparated_colonAt,
      readSeparated_colonAt, readV4_group hends, hnumber, ite_self]
    dsimp only
    rw [hrec]

/-- What follows an address: nothing that it could go on with. -/
private def EndsAddress (rest : List Char) : Prop :=
  EndsGroup rest ∧ rest.head? ≠ some ':'

private theorem noGroup_of_ends {rest : List Char} (h : EndsAddress rest) (i : Nat) :
    NoGroup i rest := by
  have hnumber := readNumber_eq_none h.1.1 (some 4) true 65536
  have hv4 : readV4 rest = none := by
    rw [readV4]
    dsimp only
    rw [readSeparated, if_pos rfl, readNumber_eq_none (noDigitHead_of_hex h.1.1)]
    rfl
  have hcolon : readChar ':' rest = none := by
    cases rest with
    | nil => rfl
    | cons c rest => exact if_neg fun hc ↦ h.2 (congrArg some hc)
  rw [NoGroup, readSeparated, readSeparated, hcolon, hv4, hnumber]
  split <;> exact ⟨rfl, rfl⟩

/-- Two colons stop the reader of groups. -/
private theorem noGroup_colons (i : Nat) (rest : List Char) : NoGroup i (':' :: ':' :: rest) := by
  cases i <;> exact ⟨rfl, rfl⟩

private theorem endsGroup_colon (rest : List Char) : EndsGroup (':' :: rest) := by
  constructor
  · rintro c ⟨⟩
    rfl
  · rintro ⟨⟩

/-! The eight groups of an address are its number to the base 65536. -/

/-- The last `k` groups of a number. -/
private theorem foldl_groups (k n : Nat) :
    ((List.range k).map fun i ↦ n / 65536 ^ (k - 1 - i) % 65536).foldl
      (fun acc g ↦ acc * 65536 + g) 0 = n % 65536 ^ k := by
  induction k generalizing n with
  | zero => simp [Nat.mod_one]
  | succ k ih =>
    have hfront : ((List.range k).map fun i ↦ n / 65536 ^ (k - i) % 65536) =
        (List.range k).map fun i ↦ n / 65536 / 65536 ^ (k - 1 - i) % 65536 := by
      apply List.map_congr_left
      intro i hi
      have hik := List.mem_range.mp hi
      have hexp : k - i = 1 + (k - 1 - i) := by omega
      rw [Nat.div_div_eq_div_mul, hexp, Nat.pow_add, Nat.pow_one]
    rw [List.range_succ, List.map_append, List.foldl_append, Nat.add_sub_cancel, hfront, ih]
    simp only [List.map_cons, List.map_nil, Nat.sub_self, Nat.pow_zero, Nat.div_one,
      List.foldl_cons, List.foldl_nil]
    rw [Nat.pow_succ, Nat.mul_comm (65536 ^ k), Nat.mod_mul, Nat.add_comm, Nat.mul_comm]

private theorem ofGroups_segments (a : Ipv6Addr) : ofGroups a.segments = a := by
  have hlt : a.bits.toNat < 65536 ^ 8 := a.bits.isLt
  rw [ofGroups, Ipv6Addr.segments, foldl_groups 8, Nat.mod_eq_of_lt hlt, Ipv6Addr.ofNat_toNat]

private theorem length_segments (a : Ipv6Addr) : a.segments.length = 8 := by
  rw [Ipv6Addr.segments, List.length_map, List.length_range]

private theorem segments_lt {a : Ipv6Addr} : ∀ g ∈ a.segments, g < 65536 := by
  intro g hg
  obtain ⟨i, _, rfl⟩ := List.mem_map.mp hg
  exact Nat.mod_lt _ (by decide)

/-- Zeros stand in this interval of the list. -/
private def ZeroRun (all : List Nat) (run : Nat × Nat) : Prop :=
  (all.drop run.1).take run.2 = List.replicate run.2 0

private theorem ZeroRun.le_length {all : List Nat} {run : Nat × Nat} (h : ZeroRun all run) :
    run.2 = 0 ∨ run.1 + run.2 ≤ all.length := by
  have hlen := congrArg List.length h
  rw [List.length_take, List.length_drop, List.length_replicate] at hlen
  omega

/-- The interval that is elided holds zeros. -/
private theorem zeroRun_longestZeros {all gs : List Nat} {i : Nat} {current longest : Nat × Nat}
    (hgs : all.drop i = gs) (hcurrent : ZeroRun all current) (hi : 0 < current.2 →
      current.1 + current.2 = i) (hlongest : ZeroRun all longest) :
    ZeroRun all (longestZeros i current longest gs) := by
  induction gs generalizing i current longest with
  | nil => exact hlongest
  | cons g gs ih =>
    have hnext : all.drop (i + 1) = gs := by
      rw [← List.drop_drop, hgs]
      rfl
    rw [longestZeros]
    by_cases hg : g = 0
    · rw [if_pos hg]
      have hrun : ZeroRun all (if current.2 = 0 then i else current.1, current.2 + 1) := by
        rw [ZeroRun]
        dsimp only
        by_cases hzero : current.2 = 0
        · rw [if_pos hzero, hzero, hgs, hg]
          rfl
        · have hat : (all.drop current.1).drop current.2 = g :: gs := by
            rw [List.drop_drop, hi (Nat.pos_of_ne_zero hzero), hgs]
          rw [if_neg hzero, List.take_add, hcurrent, hat, List.replicate_succ', hg]
          rfl
      dsimp only
      apply ih hnext hrun
      · intro _
        dsimp only
        split
        · next hzero => rw [hzero]
        · next hzero => rw [← Nat.add_assoc, hi (Nat.pos_of_ne_zero hzero)]
      · split
        · exact hrun
        · exact hlongest
    · rw [if_neg hg]
      exact ih hnext rfl (fun h ↦ absurd h (Nat.lt_irrefl 0)) hlongest

/-- The text of an IPv6 address: a mapped address, two runs of groups around zeros that are
elided, or all its groups. -/
private theorem toList_display_v6 (a : Ipv6Addr) :
    (a.bits.toNat / 2 ^ 32 = 0xFFFF ∧ a.display.toList = ':' :: ':' ::
      (groupsText 0 [0xFFFF] ++ ':' :: (Ipv4Addr.ofNat a.bits.toNat).display.toList)) ∨
    (∃ k n, 1 < n ∧ k + n ≤ 8 ∧ ZeroRun a.segments (k, n) ∧ a.display.toList =
      groupsText 0 (a.segments.take k) ++ ':' :: ':' ::
        groupsText 0 (a.segments.drop (k + n))) ∨
    a.display.toList = groupsText 0 a.segments := by
  have hgroups : ∀ gs : List Nat, (":".intercalate (gs.map hexText)).toList = groupsText 0 gs := by
    intro gs
    rw [String.toList_intercalate, List.map_map]
    induction gs with
    | nil => rfl
    | cons g gs ih =>
      cases gs with
      | nil => simp [groupsText, colonAt, hexText, List.intercalate]
      | cons g' gs =>
        simp only [List.map_cons, Function.comp_apply, groupsText, colonAt] at ih ⊢
        rw [List.intercalate_cons_cons, ih]
        simp [hexText]
  rw [Ipv6Addr.display]
  split
  · next hmapped =>
    refine .inl ⟨hmapped, ?_⟩
    rw [String.toList_append]
    rfl
  · dsimp only
    split
    · next hrun =>
      have hzeros : ZeroRun a.segments (longestZeros 0 (0, 0) (0, 0) a.segments) :=
        zeroRun_longestZeros rfl rfl (fun h ↦ absurd h (Nat.lt_irrefl 0)) rfl
      generalize longestZeros 0 (0, 0) (0, 0) a.segments = z at hrun hzeros ⊢
      have hle := hzeros.le_length
      rw [length_segments] at hle
      refine .inr (.inl ⟨_, _, hrun, by omega, hzeros, ?_⟩)
      rw [String.toList_append, String.toList_append, hgroups, hgroups, List.append_assoc]
      rfl
    · exact .inr (.inr (hgroups _))

/-- The groups around an elided run are all groups. -/
private theorem ZeroRun.around {all : List Nat} {k n : Nat} (h : ZeroRun all (k, n)) :
    all.take k ++ (List.replicate n 0 ++ all.drop (k + n)) = all := by
  rw [← h, ← List.drop_drop, List.take_append_drop, List.take_append_drop]

/-- Of a mapped address, the groups of its number. -/
private theorem ofGroups_mapped {a : Ipv6Addr} (h : a.bits.toNat / 2 ^ 32 = 0xFFFF) :
    ofGroups ([0, 0, 0, 0, 0] ++ [0xFFFF, (Ipv4Addr.ofNat a.bits.toNat).bits.toNat / 65536,
      (Ipv4Addr.ofNat a.bits.toNat).bits.toNat % 65536]) = a := by
  have hlow : (Ipv4Addr.ofNat a.bits.toNat).bits.toNat = a.bits.toNat % 2 ^ 32 :=
    UInt32.toNat_ofNat'
  have hvalue : (0xFFFF * 65536 + a.bits.toNat % 2 ^ 32 / 65536) * 65536 +
      a.bits.toNat % 2 ^ 32 % 65536 = a.bits.toNat := by omega
  rw [hlow, ofGroups]
  simp only [List.cons_append, List.nil_append, List.foldl_cons, List.foldl_nil, Nat.zero_mul,
    Nat.add_zero, Nat.zero_add]
  rw [hvalue, Ipv6Addr.ofNat_toNat]

/-- The reader of groups ends with an embedded IPv4 address. -/
private theorem readGroups_embedded {g : Nat} (hg : g < 65536) (ip : Ipv4Addr) {rest : List Char}
    (hrest : NoDigitHead 10 rest) :
    readGroups 7 7 0 (groupsText 0 [g] ++ ':' :: (ip.display.toList ++ rest)) =
      ([g, ip.bits.toNat / 65536, ip.bits.toNat % 65536], true, rest) := by
  have hends := endsGroup_colon (ip.display.toList ++ rest)
  have hnumber : readNumber 16 (some 4) true 65536
      (Nat.toDigits 16 g ++ ':' :: (ip.display.toList ++ rest)) =
        some (g, ':' :: (ip.display.toList ++ rest)) := by
    apply readNumber_toDigits (by decide) (by decide) hg _ hends.1
    rintro m ⟨⟩
    exact ⟨by decide, hg⟩
  have hfirst : groupsText 0 [g] = colonAt 0 ++ Nat.toDigits 16 g := by
    rw [groupsText, groupsText, List.append_nil]
  have hsecond : readGroups 7 6 1 (':' :: (ip.display.toList ++ rest)) =
      ([ip.bits.toNat / 65536, ip.bits.toNat % 65536], true, rest) := by
    have hv4 : readSeparated ':' 1 readV4 (':' :: (ip.display.toList ++ rest)) =
        some (ip, rest) := by
      rw [readSeparated, if_neg Nat.one_ne_zero, readChar, if_pos rfl, Option.bind_some]
      exact readV4_append ip hrest
    rw [readGroups, if_pos (by decide), hv4]
  rw [hfirst, List.append_assoc, readGroups, readSeparated_colonAt, readSeparated_colonAt,
    readV4_group hends, hnumber, ite_self]
  dsimp only
  rw [hsecond]

/-- Groups are read up to the two colons that stand for zeros. -/
private theorem readGroups_elided {gs : List Nat} (hgs : ∀ g ∈ gs, g < 65536)
    (hlength : gs.length ≤ 8) (rest : List Char) :
    readGroups 8 8 0 (groupsText 0 gs ++ ':' :: ':' :: rest) = (gs, false, ':' :: ':' :: rest) :=
  readGroups_groupsText (endsGroup_colon _) hgs 8 hlength (.inr (noGroup_colons _ _))

/-- Groups are read up to the end of the address. -/
private theorem readGroups_last {gs : List Nat} (hgs : ∀ g ∈ gs, g < 65536) {limit : Nat}
    (hlength : gs.length ≤ limit) {rest : List Char} (hrest : EndsAddress rest) :
    readGroups limit limit 0 (groupsText 0 gs ++ rest) = (gs, false, rest) :=
  readGroups_groupsText hrest.1 hgs limit hlength (.inr (noGroup_of_ends hrest _))

/-- An IPv6 address is read back, and nothing behind it. -/
private theorem readV6_display (a : Ipv6Addr) {rest : List Char} (hrest : EndsAddress rest) :
    readV6 (a.display.toList ++ rest) = some (a, rest) := by
  have hlt := segments_lt (a := a)
  have hlength := length_segments a
  rcases toList_display_v6 a with ⟨hmapped, htext⟩ | ⟨k, n, hn, hkn, hrun, htext⟩ | htext
  · have hhead := @readGroups_elided [] nofun (Nat.zero_le 8) (groupsText 0 [0xFFFF] ++
      ':' :: ((Ipv4Addr.ofNat a.bits.toNat).display.toList ++ rest))
    have htail := readGroups_embedded (g := 0xFFFF) (by decide) (Ipv4Addr.ofNat a.bits.toNat)
      (noDigitHead_of_hex hrest.1.1)
    rw [groupsText, List.nil_append] at hhead
    rw [htext, List.cons_append, List.cons_append, List.append_assoc, List.cons_append, readV6,
      hhead]
    dsimp only
    rw [if_neg (by decide), if_neg Bool.false_ne_true]
    simp only [readChar, if_true, Option.bind_eq_bind, Option.bind_some, List.length_nil,
      Nat.zero_add, Nat.reduceSub, htail, List.length_cons, Nat.reduceAdd, List.nil_append]
    rw [show List.replicate 5 0 = [0, 0, 0, 0, 0] from rfl, ofGroups_mapped hmapped]
    rfl
  · have htake : (a.segments.take k).length = k := by
      rw [List.length_take]
      omega
    have hdrop : (a.segments.drop (k + n)).length = 8 - (k + n) := by
      rw [List.length_drop, hlength]
    have hhead := readGroups_elided (fun g hg ↦ hlt g (List.mem_of_mem_take hg))
      (by omega : (a.segments.take k).length ≤ 8)
      (groupsText 0 (a.segments.drop (k + n)) ++ rest)
    have htail := readGroups_last (fun g hg ↦ hlt g (List.mem_of_mem_drop hg))
      (by omega : (a.segments.drop (k + n)).length ≤ 8 - (k + 1)) hrest
    have hmissing : 8 - k - (a.segments.drop (k + n)).length = n := by omega
    rw [htext, List.append_assoc, List.cons_append, List.cons_append, readV6, hhead]
    dsimp only
    rw [htake, if_neg (by omega), if_neg Bool.false_ne_true]
    simp only [readChar, if_true, Option.bind_eq_bind, Option.bind_some, htail, hmissing]
    rw [List.append_assoc, hrun.around, ofGroups_segments]
    rfl
  · have hhead := readGroups_last hlt (by omega : a.segments.length ≤ 8) hrest
    rw [htext, readV6, hhead]
    dsimp only
    rw [if_pos hlength, ofGroups_segments]

private theorem readV4_display_v6 (a : Ipv6Addr) (rest : List Char)
    (hrest : EndsAddress rest) : readV4 (a.display.toList ++ rest) = none := by
  have hcolon : ∀ t, readV4 (':' :: t) = none := fun t ↦ readV4_eq_none nofun
  have hgroup : ∀ g gs t, EndsGroup t → readV4 (groupsText 0 (g :: gs) ++ t) = none := by
    intro g gs t ht
    rw [groupsText, colonAt, if_pos rfl, List.nil_append, List.append_assoc]
    exact readV4_group (endsGroup_groupsText ht gs)
  rcases toList_display_v6 a with ⟨_, htext⟩ | ⟨k, n, _, _, _, htext⟩ | htext
  · rw [htext, List.cons_append]
    exact hcolon _
  · rw [htext, List.append_assoc]
    cases a.segments.take k with
    | nil => exact hcolon _
    | cons g gs => exact hgroup g gs _ (endsGroup_colon _)
  · rw [htext]
    obtain ⟨g, gs, hsegments⟩ : ∃ g gs, a.segments = g :: gs := ⟨_, _, rfl⟩
    rw [hsegments]
    exact hgroup g gs rest hrest.1

private theorem endsAddress_nil : EndsAddress [] := ⟨⟨nofun, nofun⟩, nofun⟩

/-- A displayed address is read back. -/
theorem IpAddr.fromStr_display (a : IpAddr) : fromStr a.display = some a := by
  cases a with
  | v4 ip => exact fromStr_display_v4 ip
  | v6 ip =>
    have hv4 := readV4_display_v6 ip [] endsAddress_nil
    have hv6 := readV6_display ip endsAddress_nil
    rw [List.append_nil] at hv4 hv6
    rw [fromStr, display, hv4, hv6]
    rfl

private theorem readNumber_decimal {bound n : Nat} (hn : n < bound) {rest : List Char}
    (hrest : NoDigitHead 10 rest) :
    readNumber 10 none true bound (Nat.toDigits 10 n ++ rest) = some (n, rest) := by
  apply readNumber_toDigits (by decide) (by decide) hn _ hrest
  rintro m ⟨⟩

private theorem readPort_toString (port : UInt16) :
    readPort (':' :: (toString port.toNat).toList) = some (port, []) := by
  have hnumber : readNumber 10 none true 65536 (Nat.toDigits 10 port.toNat ++ []) =
      some (port.toNat, []) := readNumber_decimal port.toNat_lt nofun
  rw [List.append_nil] at hnumber
  rw [readPort, readChar, if_pos rfl, toList_toString]
  simp [hnumber]

/-- The scope id is shown where there is one, and nothing else is read as one. -/
private theorem readScopeId_display (scopeId : UInt32) (rest : List Char) :
    let scope := if scopeId = 0 then "" else "%" ++ toString scopeId.toNat
    (readScopeId (scope.toList ++ ']' :: rest)).getD (0, scope.toList ++ ']' :: rest) =
      (scopeId, ']' :: rest) := by
  intro scope
  by_cases hzero : scopeId = 0
  · have hscope : scope = "" := if_pos hzero
    rw [hscope, hzero]
    rfl
  · have hscope : scope = "%" ++ toString scopeId.toNat := if_neg hzero
    have hends : NoDigitHead 10 (']' :: rest) := by
      rintro c ⟨⟩
      rfl
    have hnumber : readNumber 10 none true 4294967296
        (Nat.toDigits 10 scopeId.toNat ++ ']' :: rest) = some (scopeId.toNat, ']' :: rest) :=
      readNumber_decimal scopeId.toNat_lt hends
    have htext : scope.toList ++ ']' :: rest =
        '%' :: (Nat.toDigits 10 scopeId.toNat ++ ']' :: rest) := by
      rw [hscope, String.toList_append, toList_toString]
      rfl
    rw [htext, readScopeId, readChar, if_pos rfl]
    simp [hnumber]

/-- The address as its text has it: without flow info. -/
def SocketAddr.textual : SocketAddr → SocketAddr
  | .v4 ip port => .v4 ip port
  | .v6 ip port _ scopeId => .v6 ip port 0 scopeId

/-- A displayed socket address is read back, but for its flow info. -/
theorem SocketAddr.fromStr_display (a : SocketAddr) : fromStr a.display = some a.textual := by
  cases a with
  | v4 ip port =>
    have hends : NoDigitHead 10 (':' :: (toString port.toNat).toList) := by
      rintro c ⟨⟩
      rfl
    have hdisplay : (SocketAddr.v4 ip port).display =
        ip.display ++ ":" ++ toString port.toNat := rfl
    have htext : (SocketAddr.v4 ip port).display.toList =
        ip.display.toList ++ ':' :: (toString port.toNat).toList := by
      rw [hdisplay]
      simp
    rw [fromStr, htext, readV4_append ip hends]
    simp only [Option.bind_eq_bind, Option.bind_some, readPort_toString]
    rfl
  | v6 ip port flowinfo scopeId =>
    have hscope := readScopeId_display scopeId (':' :: (toString port.toNat).toList)
    generalize hs : (if scopeId = 0 then "" else "%" ++ toString scopeId.toNat) = scope at hscope
    have hends : EndsAddress (scope.toList ++ ']' :: ':' :: (toString port.toNat).toList) := by
      by_cases hzero : scopeId = 0
      · rw [← hs, if_pos hzero]
        exact ⟨⟨by rintro c ⟨⟩; rfl, nofun⟩, nofun⟩
      · rw [← hs, if_neg hzero]
        rw [String.toList_append]
        exact ⟨⟨by rintro c ⟨⟩; rfl, nofun⟩, nofun⟩
    have hdisplay : (SocketAddr.v6 ip port flowinfo scopeId).display =
        "[" ++ ip.display ++ (if scopeId = 0 then "" else "%" ++ toString scopeId.toNat) ++ "]:" ++
          toString port.toNat := rfl
    have htext : (SocketAddr.v6 ip port flowinfo scopeId).display.toList = '[' ::
        (ip.display.toList ++ (scope.toList ++ ']' :: ':' :: (toString port.toNat).toList)) := by
      rw [hdisplay, hs]
      simp
    have hv4 : readV4 ('[' :: (ip.display.toList ++ (scope.toList ++ ']' :: ':' ::
        (toString port.toNat).toList))) = none := readV4_eq_none nofun
    rw [fromStr, htext, hv4, readSocketAddrV6]
    simp only [Option.bind_eq_bind, Option.bind_none, Option.orElse_none, readChar, if_true,
      Option.bind_some, readV6_display ip hends, hscope, readPort_toString]
    rfl

private theorem textual_of_readSocketAddrV6 {s rest : List Char} {a : SocketAddr}
    (h : readSocketAddrV6 s = some (a, rest)) : a.textual = a := by
  rw [readSocketAddrV6] at h
  simp only [Option.bind_eq_bind, Option.bind_eq_some_iff] at h
  obtain ⟨_, _, _, _, _, _, _, _, h⟩ := h
  cases h
  rfl

private theorem complete_eq_some {α : Type} {r : Option (α × List Char)} {a : α}
    (h : complete r = some a) : r = some (a, []) := by
  unfold complete at h
  split at h
  · cases h
    rfl
  · cases h

/-- What text is read as has no flow info. -/
theorem SocketAddr.textual_of_fromStr {s : String} {a : SocketAddr} (h : fromStr s = some a) :
    a.textual = a := by
  have hread := complete_eq_some h
  rw [Option.orElse_eq_or, Option.or_eq_some_iff] at hread
  rcases hread with hv4 | ⟨_, hv6⟩
  · simp only [Option.bind_eq_bind, Option.bind_eq_some_iff] at hv4
    obtain ⟨_, _, _, _, hv4⟩ := hv4
    obtain ⟨rfl, _⟩ := Prod.ext_iff.mp (Option.some.inj hv4)
    rfl
  · exact textual_of_readSocketAddrV6 hv6

end Cpxy.Net
