import Cpxy.Base.Text

/-!
# Base64

Library `Base`. The URL-safe alphabet without padding (RFC 4648 §5): three bytes make four
digits, and what is left over makes two or three, whose unused bits must be zero. Digits are
ASCII, so that an encoding is a text, and none of them is a slash.
-/

namespace Cpxy.Base.Base64

/-- The character code of a digit. -/
def digitCode (d : Nat) : UInt8 :=
  if d < 26 then UInt8.ofNat (65 + d)
  else if d < 52 then UInt8.ofNat (71 + d)
  else if d < 62 then UInt8.ofNat (d - 4)
  else if d = 62 then 45
  else 95

/-- The digit with the character code, if it has one. -/
def digit (c : UInt8) : Option Nat :=
  if 65 ≤ c ∧ c ≤ 90 then some (c.toNat - 65)
  else if 97 ≤ c ∧ c ≤ 122 then some (c.toNat - 71)
  else if 48 ≤ c ∧ c ≤ 57 then some (c.toNat + 4)
  else if c = 45 then some 62
  else if c = 95 then some 63
  else none

/-- The digits of the bytes, as character codes. -/
def encode : Bytes → Bytes
  | [] => []
  | [a] => [digitCode (a.toNat / 4), digitCode (a.toNat % 4 * 16)]
  | [a, b] =>
    [digitCode (a.toNat / 4), digitCode (a.toNat % 4 * 16 + b.toNat / 16),
      digitCode (b.toNat % 16 * 4)]
  | a :: b :: c :: rest =>
    digitCode (a.toNat / 4) :: digitCode (a.toNat % 4 * 16 + b.toNat / 16) ::
      digitCode (b.toNat % 16 * 4 + c.toNat / 64) :: digitCode (c.toNat % 64) :: encode rest

/-- The bytes whose digits these are. -/
def decode : Bytes → Option Bytes
  | [] => some []
  | [_] => none
  | [x, y] => do
    let x ← digit x
    let y ← digit y
    if y % 16 = 0 then some [UInt8.ofNat (x * 4 + y / 16)] else none
  | [x, y, z] => do
    let x ← digit x
    let y ← digit y
    let z ← digit z
    if z % 4 = 0 then
      some [UInt8.ofNat (x * 4 + y / 16), UInt8.ofNat (y % 16 * 16 + z / 4)]
    else none
  | x :: y :: z :: w :: rest => do
    let x ← digit x
    let y ← digit y
    let z ← digit z
    let w ← digit w
    let tail ← decode rest
    some (UInt8.ofNat (x * 4 + y / 16) :: UInt8.ofNat (y % 16 * 16 + z / 4) ::
      UInt8.ofNat (z % 4 * 64 + w) :: tail)

theorem digit_digitCode {d : Nat} (h : d < 64) : digit (digitCode d) = some d := by
  revert d
  decide

/-- Digits are ASCII, and no digit is a slash. -/
theorem digitCode_ascii (d : Nat) : digitCode d < 128 ∧ digitCode d ≠ 47 := by
  by_cases h : d < 64
  · revert d
    decide
  · rw [digitCode, if_neg (by omega), if_neg (by omega), if_neg (by omega), if_neg (by omega)]
    decide

theorem ascii_of_mem_encode (b : Bytes) : ∀ c ∈ encode b, c < 128 ∧ c ≠ 47 := by
  induction b using encode.induct with
  | case1 =>
    intro c hc
    cases hc
  | case2 a =>
    intro c hc
    rw [encode] at hc
    simp only [List.mem_cons, List.not_mem_nil, or_false] at hc
    rcases hc with rfl | rfl <;> exact digitCode_ascii _
  | case3 a b =>
    intro c hc
    rw [encode] at hc
    simp only [List.mem_cons, List.not_mem_nil, or_false] at hc
    rcases hc with rfl | rfl | rfl <;> exact digitCode_ascii _
  | case4 a b d rest ih =>
    intro c hc
    rw [encode] at hc
    simp only [List.mem_cons] at hc
    rcases hc with rfl | rfl | rfl | rfl | hc
    · exact digitCode_ascii _
    · exact digitCode_ascii _
    · exact digitCode_ascii _
    · exact digitCode_ascii _
    · exact ih c hc

private theorem ofNat_eq {n : Nat} {a : UInt8} (h : n = a.toNat) : UInt8.ofNat n = a := by
  rw [h, UInt8.ofNat_toNat]

/-- Decoding an encoding returns the bytes. -/
theorem decode_encode (b : Bytes) : decode (encode b) = some b := by
  induction b using encode.induct with
  | case1 => rfl
  | case2 a =>
    have ha : a.toNat < 256 := a.toNat_lt
    rw [encode, decode, digit_digitCode (by omega), digit_digitCode (by omega)]
    simp only [Option.bind_eq_bind, Option.bind_some]
    rw [if_pos (by omega), ofNat_eq (a := a) (by omega)]
  | case3 a b =>
    have ha : a.toNat < 256 := a.toNat_lt
    have hb : b.toNat < 256 := b.toNat_lt
    rw [encode, decode, digit_digitCode (by omega), digit_digitCode (by omega),
      digit_digitCode (by omega)]
    simp only [Option.bind_eq_bind, Option.bind_some]
    rw [if_pos (by omega), ofNat_eq (a := a) (by omega), ofNat_eq (a := b) (by omega)]
  | case4 a b c rest ih =>
    have ha : a.toNat < 256 := a.toNat_lt
    have hb : b.toNat < 256 := b.toNat_lt
    have hc : c.toNat < 256 := c.toNat_lt
    rw [encode, decode, digit_digitCode (by omega), digit_digitCode (by omega),
      digit_digitCode (by omega), digit_digitCode (by omega), ih]
    simp only [Option.bind_eq_bind, Option.bind_some]
    rw [ofNat_eq (a := a) (by omega), ofNat_eq (a := b) (by omega), ofNat_eq (a := c) (by omega)]

/-- The encoding as a text. -/
def encodeText (b : Bytes) : String := ofAscii (encode b)

/-- The character code of a URL-safe digit in the standard alphabet. -/
def standardCode (c : UInt8) : UInt8 :=
  if c = 45 then 43
  else if c = 95 then 47
  else c

/-- The encoding in the standard alphabet, padded to groups of four; RFC 4648 §4. -/
def standardText (b : Bytes) : String :=
  let digits := (encode b).map standardCode
  ofAscii (digits ++ List.replicate ((4 - digits.length % 4) % 4) 61)

/-- Decoding the bytes of an encoding's text returns the bytes. -/
theorem decode_encodeText (b : Bytes) : decode (asBytes (encodeText b)) = some b := by
  rw [encodeText, asBytes_ofAscii fun c hc ↦ (ascii_of_mem_encode b c hc).1, decode_encode]

theorem slash_not_mem_encodeText (b : Bytes) : '/' ∉ (encodeText b).toList := by
  have hslash : ∀ n < 128, Char.ofNat n = '/' → n = 47 := by decide
  rw [encodeText, ofAscii, String.toList_ofList]
  intro h
  obtain ⟨c, hc, heq⟩ := List.mem_map.mp h
  obtain ⟨hlt, hne⟩ := ascii_of_mem_encode b c hc
  apply hne
  apply UInt8.toNat_inj.mp
  exact hslash c.toNat hlt heq

end Cpxy.Base.Base64
