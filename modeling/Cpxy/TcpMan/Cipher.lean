import Cpxy.Base.Keystream
import Cpxy.Base.Text

/-!
# Ciphers and encryption strategies

Library `TcpMan`. Source `src/protocol/tcpman/cipher/suite.rs:5–57`,
`src/protocol/tcpman/cipher/partial.rs:6–47` and
`src/protocol/tcpman/cipher/strategy.rs:8–108`. A strategy says how much of a stream is
encrypted: nothing, all, or the first bytes. Its cipher counts down, also below zero when
the budget runs out inside a buffer, and counts up again when it is rewound. Whatever the
strategy, what it does to a stream is to add a keystream.
-/

namespace Cpxy.TcpMan

open Cpxy.Base

/-! ### Signed machine words -/

/-- `usize` to `isize`, unwrapped. -/
def toIsize {ε : Type} (n : Nat) : Outcome ε Int := if n ≤ isizeMax then .ok n else .panicked

/-- The result of a checked `isize` operation, unwrapped. -/
def checkedIsize {ε : Type} (v : Int) : Outcome ε Int :=
  if -(2 ^ 63) ≤ v ∧ v ≤ isizeMax then .ok v else .panicked

theorem toIsize_of_le {ε : Type} {n : Nat} (h : n ≤ isizeMax) :
    (toIsize n : Outcome ε Int) = .ok n := by
  rw [toIsize, if_pos h]

theorem checkedIsize_of_range {ε : Type} {v : Int} (h : -(2 ^ 63) ≤ v) (h' : v ≤ isizeMax) :
    (checkedIsize v : Outcome ε Int) = .ok v := by
  rw [checkedIsize, if_pos ⟨h, h'⟩]

/-! ### Partial ciphers -/

/-- `PartialStreamCipher`; `partial.rs:6–9`. -/
structure PartialStreamCipher where
  inner : Cipher
  n : Int

namespace PartialStreamCipher

/-- `PartialStreamCipher::new`; `partial.rs:26–31`. -/
def new {ε : Type} (n : Nat) (inner : Cipher) : Outcome ε PartialStreamCipher := do
  let n ← toIsize n
  .ok ⟨inner, n⟩

/-- `will_modify_data`; `partial.rs:12–14`. -/
def willModifyData (c : PartialStreamCipher) : Bool := 0 < c.n

/-- `try_apply_keystream_inout`; `partial.rs:35–46`. -/
def apply {ε : Type} (c : PartialStreamCipher) (buf : Bytes) :
    Outcome ε (Bytes × PartialStreamCipher) :=
  if 0 < c.n then do
    let len := min c.n.toNat buf.length
    let (out, inner) := c.inner.apply (buf.take len)
    let bufLen ← toIsize buf.length
    let n ← checkedIsize (c.n - bufLen)
    .ok (out ++ buf.drop len, ⟨inner, n⟩)
  else .ok (buf, c)

/-- `rewind`; `partial.rs:16–22`. -/
def rewind {ε : Type} (c : PartialStreamCipher) (cnt : Nat) : Outcome ε PartialStreamCipher := do
  let cnt ← toIsize cnt
  let n ← checkedIsize (c.n + cnt)
  if 0 < n then do
    let inner ← c.inner.rewind (n - max c.n 0).toNat
    .ok ⟨inner, n⟩
  else .ok ⟨c.inner, n⟩

end PartialStreamCipher

/-! ### Strategies -/

/-- `NonZeroUsize`. -/
abbrev NonZeroUsize := { n : Nat // 0 < n ∧ n < 2 ^ 64 }

/-- `EncryptionStrategy`; `strategy.rs:9–13`. -/
inductive EncryptionStrategy where
  | firstN (n : NonZeroUsize)
  | always
  | never
  deriving DecidableEq

/-- `StrategyCipher`; `strategy.rs:73–77`. -/
inductive StrategyCipher where
  | firstN (c : PartialStreamCipher)
  | always (c : Cipher)
  | never

namespace StrategyCipher

/-- `will_modify_data`; `strategy.rs:93–99`. -/
def willModifyData : StrategyCipher → Bool
  | .firstN c => c.willModifyData
  | .always _ => true
  | .never => false

/-- `try_apply_keystream_inout`; `strategy.rs:80–89`. -/
def apply {ε : Type} (c : StrategyCipher) (buf : Bytes) : Outcome ε (Bytes × StrategyCipher) :=
  match c with
  | .firstN c => do
    let (out, c) ← c.apply buf
    .ok (out, .firstN c)
  | .always c => .ok ((c.apply buf).1, .always (c.apply buf).2)
  | .never => .ok (buf, .never)

/-- `rewind`; `strategy.rs:101–107`. -/
def rewind {ε : Type} (c : StrategyCipher) (cnt : Nat) : Outcome ε StrategyCipher :=
  match c with
  | .firstN c => do
    let c ← c.rewind cnt
    .ok (.firstN c)
  | .always c => do
    let c ← c.rewind cnt
    .ok (.always c)
  | .never => .ok .never

end StrategyCipher

namespace EncryptionStrategy

/-- `wrap_cipher`; `strategy.rs:41–52`. -/
def wrapCipher {ε : Type} (s : EncryptionStrategy) (c : Cipher) : Outcome ε StrategyCipher :=
  match s with
  | .firstN n => do
    let c ← PartialStreamCipher.new n.val c
    .ok (.firstN c)
  | .always => .ok (.always c)
  | .never => .ok .never

/-- The keystream that a strategy adds to a stream, given that of its cipher. -/
def keys (s : EncryptionStrategy) (ks : Keystream) : Keystream :=
  match s with
  | .firstN n => fun i ↦ if i < n.val then ks i else 0
  | .always => ks
  | .never => zeroKeys

/-- The strategy still encrypts at the position. -/
def reaches (s : EncryptionStrategy) (pos : Nat) : Bool :=
  match s with
  | .firstN n => pos < n.val
  | .always => true
  | .never => false

/-- The counter of the strategy's cipher can hold its budget. -/
def Counts : EncryptionStrategy → Prop
  | .firstN n => n.val ≤ isizeMax
  | .always => True
  | .never => True

end EncryptionStrategy

namespace StrategyCipher

/-- The cipher of a strategy stands at a position of the stream. Once the budget is used up,
its counter is not positive, and not exact any more. -/
def At (s : EncryptionStrategy) (ks : Keystream) (pos : Nat) (c : StrategyCipher) : Prop :=
  match s, c with
  | .firstN n, .firstN c => c.inner = ⟨ks, min pos n.val⟩ ∧ (pos < n.val → c.n = n.val - pos) ∧
      (n.val ≤ pos → c.n ≤ 0)
  | .always, .always c => c = ⟨ks, pos⟩
  | .never, .never => True
  | _, _ => False

variable {s : EncryptionStrategy} {ks : Keystream} {pos : Nat} {c : StrategyCipher}

theorem at_wrapCipher {ε : Type} (ks : Keystream) (hs : s.Counts) :
    ∃ c, (s.wrapCipher (Cipher.new ks) : Outcome ε StrategyCipher) = .ok c ∧ At s ks 0 c := by
  cases s with
  | firstN n =>
    refine ⟨.firstN ⟨Cipher.new ks, n.val⟩, ?_, ?_⟩
    · rw [EncryptionStrategy.wrapCipher, PartialStreamCipher.new, toIsize_of_le hs]
      rfl
    · refine ⟨?_, ?_, ?_⟩
      · rw [Nat.zero_min]
        rfl
      · intro _
        simp
      · intro h
        have := n.property.1
        omega
  | always => exact ⟨_, rfl, rfl⟩
  | never => exact ⟨_, rfl, trivial⟩

/-- The cipher works as long as its strategy reaches. -/
theorem At.willModifyData_eq (h : At s ks pos c) : c.willModifyData = s.reaches pos := by
  match s, c, h with
  | .firstN n, .firstN c, ⟨_, hleft, hdone⟩ =>
    apply decide_eq_decide.mpr
    constructor
    · intro hpos
      by_contra hge
      have := hdone (by omega)
      omega
    · intro hpos
      have := hleft hpos
      omega
  | .always, .always c, _ => rfl
  | .never, .never, _ => rfl

/-- A cipher that modifies nothing stays as it is. -/
theorem At.idle (h : At s ks pos c) (hm : c.willModifyData = false) (k : Nat) :
    At s ks (pos + k) c := by
  have hreach : s.reaches pos = false := h.willModifyData_eq.symm.trans hm
  match s, c, h with
  | .firstN n, .firstN c, ⟨hinner, _, hdone⟩ =>
    have hpos : n.val ≤ pos := Nat.le_of_not_lt (of_decide_eq_false hreach)
    refine ⟨?_, ?_, ?_⟩
    · rw [hinner, Nat.min_eq_right hpos, Nat.min_eq_right (by omega)]
    · intro hlt
      omega
    · intro _
      exact hdone hpos
  | .always, .always c, _ => cases hreach
  | .never, .never, _ => trivial

/-- A cipher that modifies nothing adds nothing from here on. -/
theorem At.keys_eq_zero (h : At s ks pos c) (hm : c.willModifyData = false) :
    ∀ i, pos ≤ i → s.keys ks i = 0 := by
  intro i hi
  match s, c, h with
  | .firstN n, .firstN c, ⟨_, hn, _⟩ =>
    have hpos : n.val ≤ pos := by
      by_contra hlt
      have hc := hn (by omega)
      have hnot : ¬ 0 < c.n := of_decide_eq_false hm
      omega
    exact if_neg (by omega)
  | .always, .always c, _ => cases hm
  | .never, .never, _ => rfl

/-- The keys of a budget reach as far as the budget does. -/
theorem xorAt_keys_firstN {n : NonZeroUsize} {ks : Keystream} {pos : Nat} (buf : Bytes)
    (hpos : pos ≤ n.val) :
    xorAt (EncryptionStrategy.keys (.firstN n) ks) pos buf =
      xorAt ks pos (buf.take (n.val - pos)) ++ buf.drop (n.val - pos) := by
  have hsplit := List.take_append_drop (n.val - pos) buf
  have hfront : xorAt (EncryptionStrategy.keys (.firstN n) ks) pos (buf.take (n.val - pos)) =
      xorAt ks pos (buf.take (n.val - pos)) := by
    apply xorAt_congr
    intro i hi
    rw [List.length_take] at hi
    exact if_pos (by omega)
  have hback : xorAt (EncryptionStrategy.keys (.firstN n) ks)
      (pos + (buf.take (n.val - pos)).length) (buf.drop (n.val - pos)) =
      buf.drop (n.val - pos) := by
    by_cases hb : n.val - pos ≤ buf.length
    · rw [List.length_take_of_le hb, Nat.add_sub_cancel' hpos]
      apply xorAt_of_zero
      intro i hi
      exact if_neg (by omega)
    · rw [List.drop_eq_nil_of_le (by omega)]
      rfl
  calc xorAt (EncryptionStrategy.keys (.firstN n) ks) pos buf
      = xorAt (EncryptionStrategy.keys (.firstN n) ks) pos
          (buf.take (n.val - pos) ++ buf.drop (n.val - pos)) := by rw [hsplit]
    _ = _ := by rw [xorAt_append, hfront, hback]

/-- Within the budget, the first bytes get their keys and the counter goes down by all. -/
theorem partial_apply {ε : Type} {n : NonZeroUsize} {ks : Keystream} {pos : Nat} {buf : Bytes}
    (hn : n.val ≤ isizeMax) (hpos : pos < n.val) (hb : buf.length ≤ isizeMax) :
    (PartialStreamCipher.apply ⟨⟨ks, pos⟩, n.val - pos⟩ buf : Outcome ε _) =
      .ok (xorAt (EncryptionStrategy.keys (.firstN n) ks) pos buf,
        ⟨⟨ks, min (pos + buf.length) n.val⟩, n.val - pos - buf.length⟩) := by
  have hlen : min ((n.val : Int) - pos).toNat buf.length = min (n.val - pos) buf.length := by omega
  have hrange : -(2 ^ 63) ≤ (n.val : Int) - pos - buf.length := by
    rw [isizeMax] at hb
    omega
  rw [PartialStreamCipher.apply, if_pos (by dsimp only; omega)]
  dsimp only
  rw [hlen, toIsize_of_le hb, Outcome.ok_bind, checkedIsize_of_range hrange (by omega),
    Outcome.ok_bind, xorAt_keys_firstN buf (by omega), Cipher.apply]
  by_cases hfit : n.val - pos ≤ buf.length
  · have hend : pos + (n.val - pos) = min (pos + buf.length) n.val := by omega
    rw [Nat.min_eq_left hfit, List.length_take_of_le hfit, hend]
  · have hend : pos + buf.length = min (pos + buf.length) n.val := by omega
    rw [Nat.min_eq_right (by omega), List.take_length, List.take_of_length_le (by omega),
      List.drop_length, List.drop_eq_nil_of_le (by omega), ← hend]

/-- Rewinding what was applied in excess leaves the cipher behind the rest. -/
theorem partial_rewind {ε : Type} {n len k pos : Nat} {ks : Keystream} (hn : n ≤ isizeMax)
    (hpos : pos < n) (hlen : len ≤ isizeMax) (hk : k ≤ len) :
    (PartialStreamCipher.rewind ⟨⟨ks, min (pos + len) n⟩, n - pos - len⟩ (len - k) :
      Outcome ε _) = .ok ⟨⟨ks, min (pos + k) n⟩, n - pos - k⟩ := by
  have hcount : (n : Int) - pos - len + (len - k : Nat) = n - pos - k := by omega
  have hrange : -(2 ^ 63) ≤ (n : Int) - pos - k := by
    rw [isizeMax] at hlen
    omega
  rw [PartialStreamCipher.rewind, toIsize_of_le (by omega), Outcome.ok_bind, hcount,
    checkedIsize_of_range hrange (by omega), Outcome.ok_bind]
  split
  · next hleft =>
    -- the inner cipher has gone no further than the budget
    have hcnt : ((n : Int) - pos - k - max ((n : Int) - pos - len) 0).toNat =
        min (pos + len) n - (pos + k) := by omega
    have hback : min (pos + len) n - (min (pos + len) n - (pos + k)) = min (pos + k) n := by omega
    dsimp only
    rw [hcnt, Cipher.rewind, if_pos (Nat.sub_le _ _), Outcome.ok_bind, hback]
  · next hdone =>
    have hsame : min (pos + len) n = min (pos + k) n := by omega
    rw [hsame]

theorem at_firstN (n : NonZeroUsize) (ks : Keystream) (pos k : Nat) :
    At (.firstN n) ks (pos + k) (.firstN ⟨⟨ks, min (pos + k) n.val⟩, n.val - pos - k⟩) := by
  refine ⟨rfl, ?_, ?_⟩
  · intro _
    dsimp only
    omega
  · intro hle
    dsimp only
    omega

/-- Applying adds the keystream of the strategy. -/
theorem At.apply {ε : Type} (h : At s ks pos c) (hs : s.Counts) {buf : Bytes}
    (hb : buf.length ≤ isizeMax) :
    ∃ c', (c.apply buf : Outcome ε _) = .ok (xorAt (s.keys ks) pos buf, c') ∧
      At s ks (pos + buf.length) c' ∧
      (c.willModifyData = true → ∀ k, k ≤ buf.length →
        ∃ c'', (c'.rewind (buf.length - k) : Outcome ε _) = .ok c'' ∧ At s ks (pos + k) c'') := by
  match s, c, h with
  | .firstN n, .firstN c, ⟨hinner, hleft, hdone⟩ =>
    obtain ⟨inner, count⟩ := c
    cases hinner
    by_cases hpos : pos < n.val
    · obtain rfl : count = n.val - pos := hleft hpos
      rw [Nat.min_eq_left (Nat.le_of_lt hpos)]
      refine ⟨.firstN ⟨⟨ks, min (pos + buf.length) n.val⟩, n.val - pos - buf.length⟩, ?_, ?_, ?_⟩
      · rw [StrategyCipher.apply, partial_apply hs hpos hb]
        rfl
      · exact at_firstN n ks pos buf.length
      · intro _ k hk
        refine ⟨.firstN ⟨⟨ks, min (pos + k) n.val⟩, n.val - pos - k⟩, ?_, at_firstN n ks pos k⟩
        rw [StrategyCipher.rewind, partial_rewind hs hpos hb hk]
        rfl
    · have hcount : count ≤ 0 := hdone (by omega)
      refine ⟨.firstN ⟨⟨ks, min pos n.val⟩, count⟩, ?_, ?_, ?_⟩
      · rw [StrategyCipher.apply, PartialStreamCipher.apply, if_neg (by dsimp only; omega),
          xorAt_of_zero]
        · rfl
        · intro i hi
          exact if_neg (by omega)
      · refine ⟨?_, ?_, fun _ ↦ hcount⟩
        · rw [Nat.min_eq_right (by omega), Nat.min_eq_right (by omega)]
        · intro hlt
          omega
      · intro hm
        have hpositive : 0 < count := of_decide_eq_true hm
        omega
  | .always, .always c, h =>
    obtain rfl : c = ⟨ks, pos⟩ := h
    refine ⟨_, rfl, rfl, ?_⟩
    intro _ k hk
    refine ⟨.always ⟨ks, pos + k⟩, ?_, rfl⟩
    rw [StrategyCipher.rewind, Cipher.rewind_apply _ _ hk]
    rfl
  | .never, .never, _ =>
    refine ⟨.never, ?_, trivial, ?_⟩
    · rw [StrategyCipher.apply, EncryptionStrategy.keys, xorAt_zeroKeys]
    · intro hm
      cases hm

end StrategyCipher

/-! ### Cipher suite -/

/-- ChaCha20: the keystream of a key and an initialisation vector. -/
abbrev Chacha20 := Bytes → Bytes → Keystream

/-- `create_cipher`; `suite.rs:25–35`. -/
def createCipher (chacha20 : Chacha20) (cipherType : UInt8) (key iv : Bytes) :
    Outcome ErrorChain Cipher :=
  if cipherType = 1 then
    if key.length = 32 ∧ iv.length = 12 then .ok (Cipher.new (chacha20 key iv))
    else .err ["Invalid key/iv lengths for Chacha20 cipher"]
  else .err [s!"Unknown cipher_type {cipherType}"]

end Cpxy.TcpMan
