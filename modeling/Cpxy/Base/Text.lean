import Cpxy.Base.BigEndian
import Mathlib.Data.Nat.Digits.Defs

/-!
# Text as bytes and characters

Library `Base`. Strings hold valid UTF-8, so their bytes decode back to them. The lossy
decoder replaces every maximal ill-formed part by U+FFFD. Splitting and number parsing
work on character lists and never index into the middle of a character.
-/

namespace Cpxy.Base

/-- The UTF-8 bytes of a string. -/
def asBytes (s : String) : Bytes := s.toByteArray.data.toList

/-- Strict UTF-8 decoding. -/
def fromUtf8 (b : Bytes) : Option String := String.fromUTF8? ⟨b.toArray⟩

/-- Decoding the bytes of a string returns the string. -/
@[simp] theorem fromUtf8_asBytes (s : String) : fromUtf8 (asBytes s) = some s := by
  have hb : (⟨(asBytes s).toArray⟩ : ByteArray) = s.toByteArray := by
    simp [asBytes]
  rw [fromUtf8, hb, String.fromUTF8?]
  simp [s.isValidUTF8, String.fromUTF8]

/-- The text with these ASCII codes. -/
def ofAscii (b : Bytes) : String := String.ofList (b.map fun c ↦ Char.ofNat c.toNat)

theorem utf8EncodeChar_ascii {c : UInt8} (h : c < 128) :
    String.utf8EncodeChar (Char.ofNat c.toNat) = [c] := by
  have hall : ∀ n < 128, String.utf8EncodeChar (Char.ofNat n) = [UInt8.ofNat n] := by decide
  rw [hall c.toNat h, UInt8.ofNat_toNat]

theorem asBytes_ofList (l : List Char) :
    asBytes (String.ofList l) = l.flatMap String.utf8EncodeChar := by
  rw [asBytes, String.toByteArray_ofList, List.utf8Encode]
  simp

theorem asBytes_eq (s : String) : asBytes s = s.toList.flatMap String.utf8EncodeChar := by
  rw [← asBytes_ofList, String.ofList_toList]

/-- The bytes of an ASCII text are its codes. -/
theorem asBytes_ofAscii {b : Bytes} (h : ∀ c ∈ b, c < 128) : asBytes (ofAscii b) = b := by
  rw [ofAscii, asBytes_ofList]
  induction b with
  | nil => rfl
  | cons c b ih =>
    rw [List.map_cons, List.flatMap_cons, utf8EncodeChar_ascii (h c List.mem_cons_self),
      ih fun x hx ↦ h x (List.mem_cons_of_mem c hx)]
    rfl

private def isCont (b : UInt8) : Bool := 0x80 ≤ b && b ≤ 0xBF

-- Number of bytes after an ill-formed lead byte that belong to the same maximal part.
private def illFormedTail (b0 : UInt8) : Bytes → Nat
  | [] => 0
  | b1 :: bs =>
    let second :=
      (b0 == 0xE0 && 0xA0 ≤ b1 && b1 ≤ 0xBF) || (0xE1 ≤ b0 && b0 ≤ 0xEC && isCont b1) ||
      (b0 == 0xED && 0x80 ≤ b1 && b1 ≤ 0x9F) || (0xEE ≤ b0 && b0 ≤ 0xEF && isCont b1) ||
      (b0 == 0xF0 && 0x90 ≤ b1 && b1 ≤ 0xBF) || (0xF1 ≤ b0 && b0 ≤ 0xF3 && isCont b1) ||
      (b0 == 0xF4 && 0x80 ≤ b1 && b1 ≤ 0x8F)
    if second then
      match bs with
      | b2 :: _ => if 0xF0 ≤ b0 && isCont b2 then 2 else 1
      | [] => 1
    else 0

private def lossyChars : Nat → Bytes → List Char
  | fuel + 1, b0 :: bs =>
    match ByteArray.utf8DecodeChar? ⟨(b0 :: bs).toArray⟩ 0 with
    | some c => c :: lossyChars fuel (bs.drop (c.utf8Size - 1))
    | none => Char.ofNat 0xFFFD :: lossyChars fuel (bs.drop (illFormedTail b0 bs))
  | _, _ => []

/-- Lossy UTF-8 decoding: one replacement character per maximal ill-formed part.
Every round consumes a byte, so the length bounds the number of rounds. -/
def fromUtf8Lossy (b : Bytes) : String := String.ofList (lossyChars b.length b)

/-- Only its own bytes decode to a string. -/
theorem asBytes_of_fromUtf8 {b : Bytes} {s : String} (h : fromUtf8 b = some s) : asBytes s = b := by
  unfold fromUtf8 String.fromUTF8? at h
  split at h
  · cases h
    rw [asBytes, String.fromUTF8]
  · cases h

theorem utf8DecodeChar?_encode (c : Char) (rest : Bytes) :
    ByteArray.utf8DecodeChar? ⟨(String.utf8EncodeChar c ++ rest).toArray⟩ 0 = some c := by
  have hsplit : (⟨(String.utf8EncodeChar c ++ rest).toArray⟩ : ByteArray) =
      (String.utf8EncodeChar c).toByteArray ++ rest.toByteArray := by
    apply ByteArray.ext
    simp
  rw [hsplit, ByteArray.utf8DecodeChar?_utf8EncodeChar_append]

private theorem lossyChars_encode (l : List Char) {fuel : Nat}
    (h : (l.flatMap String.utf8EncodeChar).length ≤ fuel) :
    lossyChars fuel (l.flatMap String.utf8EncodeChar) = l := by
  induction l generalizing fuel with
  | nil => cases fuel <;> rfl
  | cons c l ih =>
    have hdecode := utf8DecodeChar?_encode c (l.flatMap String.utf8EncodeChar)
    have hsize := String.length_utf8EncodeChar c
    rw [List.flatMap_cons] at h ⊢
    cases henc : String.utf8EncodeChar c with
    | nil =>
      have := c.utf8Size_pos
      rw [henc] at hsize
      simp at hsize
      omega
    | cons b bs =>
      rw [henc] at h hdecode hsize
      rw [List.length_cons] at hsize
      cases fuel with
      | zero => simp at h
      | succ fuel =>
        rw [List.cons_append] at hdecode h ⊢
        rw [List.length_cons, List.length_append] at h
        have hdrop : (bs ++ l.flatMap String.utf8EncodeChar).drop (c.utf8Size - 1) =
            l.flatMap String.utf8EncodeChar := List.drop_left' (by omega)
        rw [lossyChars, hdecode]
        dsimp only
        rw [hdrop, ih (by omega)]

/-- The lossy decoder loses nothing of a string. -/
theorem fromUtf8Lossy_asBytes (s : String) : fromUtf8Lossy (asBytes s) = s := by
  have hbytes := asBytes_eq s
  rw [fromUtf8Lossy, hbytes, lossyChars_encode s.toList (Nat.le_refl _), String.ofList_toList]

/-- Split at the first occurrence of a character, which neither part keeps. -/
def splitOnce (c : Char) : List Char → Option (List Char × List Char)
  | [] => none
  | x :: xs =>
    if x = c then some ([], xs)
    else (splitOnce c xs).map fun p ↦ (x :: p.1, p.2)

/-- Split at the last occurrence of a character, which neither part keeps. -/
def rsplitOnce (c : Char) (s : List Char) : Option (List Char × List Char) :=
  (splitOnce c s.reverse).map fun p ↦ (p.2.reverse, p.1.reverse)

/-- All parts between the occurrences of a character. -/
def splitAll (c : Char) : List Char → List (List Char)
  | [] => [[]]
  | x :: xs =>
    if x = c then [] :: splitAll c xs
    else
      match splitAll c xs with
      | [] => [[x]]
      | part :: parts => (x :: part) :: parts

theorem splitAll_of_not_mem {c : Char} {s : List Char} (h : c ∉ s) : splitAll c s = [s] := by
  induction s with
  | nil => rfl
  | cons x xs ih =>
    rw [List.mem_cons, not_or] at h
    rw [splitAll, if_neg (Ne.symm h.1), ih h.2]

theorem splitAll_ne_nil (c : Char) (s : List Char) : splitAll c s ≠ [] := by
  cases s with
  | nil => exact List.cons_ne_nil _ _
  | cons x xs =>
    rw [splitAll]
    split
    · exact List.cons_ne_nil _ _
    · split <;> exact List.cons_ne_nil _ _

/-- The parts around an occurrence of the character are the parts of either side. -/
theorem splitAll_append_cons (c : Char) (s t : List Char) :
    splitAll c (s ++ c :: t) = splitAll c s ++ splitAll c t := by
  induction s with
  | nil => simp [splitAll]
  | cons x xs ih =>
    rw [List.cons_append, splitAll, splitAll]
    by_cases hx : x = c
    · rw [if_pos hx, if_pos hx, ih, List.cons_append]
    · obtain ⟨part, parts, hparts⟩ := List.exists_cons_of_ne_nil (splitAll_ne_nil c xs)
      rw [if_neg hx, if_neg hx, ih, hparts]
      rfl

/-- A part that does not hold the character ends at its next occurrence. -/
theorem splitAll_append {c : Char} {s : List Char} (h : c ∉ s) (rest : List Char) :
    splitAll c (s ++ c :: rest) = s :: splitAll c rest := by
  rw [splitAll_append_cons, splitAll_of_not_mem h, List.singleton_append]

/-- The first part reaches up to the first occurrence of the character. -/
theorem head?_splitAll (c : Char) (s : List Char) :
    (splitAll c s).head? = some (s.takeWhile (· ≠ c)) := by
  induction s with
  | nil => rfl
  | cons x xs ih =>
    rw [splitAll]
    by_cases hx : x = c
    · simp [hx]
    · obtain ⟨part, parts, hparts⟩ := List.exists_cons_of_ne_nil (splitAll_ne_nil c xs)
      rw [hparts] at ih ⊢
      simpa [hx] using ih

theorem splitOnce_append {c : Char} {s : List Char} (h : c ∉ s) (t : List Char) :
    splitOnce c (s ++ c :: t) = some (s, t) := by
  induction s with
  | nil => rw [List.nil_append, splitOnce, if_pos rfl]
  | cons x xs ih =>
    rw [List.mem_cons, not_or] at h
    rw [List.cons_append, splitOnce, if_neg (Ne.symm h.1), ih h.2]
    rfl

theorem splitOnce_eq_some {c : Char} {s a b : List Char} (h : splitOnce c s = some (a, b)) :
    s = a ++ c :: b := by
  induction s generalizing a with
  | nil => cases h
  | cons x xs ih =>
    rw [splitOnce] at h
    split at h
    · next hx =>
      cases h
      rw [hx, List.nil_append]
    · obtain ⟨⟨a', b'⟩, hrest, heq⟩ := Option.map_eq_some_iff.mp h
      cases heq
      rw [ih hrest, List.cons_append]

theorem rsplitOnce_append {c : Char} {t : List Char} (h : c ∉ t) (s : List Char) :
    rsplitOnce c (s ++ c :: t) = some (s, t) := by
  have hreverse : (s ++ c :: t).reverse = t.reverse ++ c :: s.reverse := by simp
  rw [rsplitOnce, hreverse, splitOnce_append (mt List.mem_reverse.mp h), Option.map_some,
    List.reverse_reverse, List.reverse_reverse]

theorem rsplitOnce_eq_some {c : Char} {s a b : List Char} (h : rsplitOnce c s = some (a, b)) :
    s = a ++ c :: b := by
  obtain ⟨⟨b', a'⟩, hsplit, heq⟩ := Option.map_eq_some_iff.mp h
  cases heq
  rw [← List.reverse_inj, splitOnce_eq_some hsplit]
  simp

/-- Split at the first occurrence of a text, which neither part keeps. -/
def splitOnText (pat : List Char) : List Char → Option (List Char × List Char)
  | [] => if pat = [] then some ([], []) else none
  | x :: xs =>
    if pat <+: x :: xs then some ([], (x :: xs).drop pat.length)
    else (splitOnText pat xs).map fun p ↦ (x :: p.1, p.2)

/-- A part without the first character of the text ends at its next occurrence. -/
theorem splitOnText_append {c : Char} {s : List Char} (h : c ∉ s) (pat rest : List Char) :
    splitOnText (c :: pat) (s ++ (c :: pat ++ rest)) = some (s, rest) := by
  induction s with
  | nil =>
    rw [List.nil_append, List.cons_append, splitOnText, if_pos (by simp)]
    simp
  | cons x xs ih =>
    rw [List.mem_cons, not_or] at h
    rw [List.cons_append, splitOnText, if_neg, ih h.2]
    · rfl
    · rw [List.cons_prefix_cons]
      exact fun hprefix ↦ h.1 hprefix.1

/-- Lower-case an ASCII letter and leave every other character alone. -/
def asciiLower (c : Char) : Char :=
  if 'A' ≤ c ∧ c ≤ 'Z' then Char.ofNat (c.toNat + 32) else c

/-- Equality of texts up to the case of ASCII letters. -/
def eqIgnoreAsciiCase (a b : String) : Bool :=
  a.toList.map asciiLower == b.toList.map asciiLower

/-- The characters with the Unicode property `White_Space`. -/
def isWhitespace (c : Char) : Bool :=
  let n := c.toNat
  (9 ≤ n && n ≤ 13) || n == 0x20 || n == 0x85 || n == 0xA0 || n == 0x1680 ||
    (0x2000 ≤ n && n ≤ 0x200A) || n == 0x2028 || n == 0x2029 || n == 0x202F || n == 0x205F ||
    n == 0x3000

/-- The text without white space at either end. -/
def trim (s : String) : String :=
  let front := s.toList.dropWhile isWhitespace
  String.ofList (front.reverse.dropWhile isWhitespace).reverse

theorem trim_cons {c : Char} (hc : isWhitespace c = true) (l : List Char) :
    trim (String.ofList (c :: l)) = trim (String.ofList l) := by
  rw [trim, trim, String.toList_ofList, String.toList_ofList, List.dropWhile_cons_of_pos hc]

theorem trim_append_singleton {d : Char} (hd : isWhitespace d = true) (l : List Char) :
    trim (String.ofList (l ++ [d])) = trim (String.ofList l) := by
  rw [trim, trim, String.toList_ofList, String.toList_ofList, List.dropWhile_append]
  cases hfront : l.dropWhile isWhitespace with
  | nil =>
    rw [if_pos List.isEmpty_nil, List.dropWhile_cons_of_pos hd]
    rfl
  | cons b front =>
    have hne : ¬ (b :: front).isEmpty = true := Bool.false_ne_true
    rw [if_neg hne, List.reverse_append, List.reverse_singleton, List.singleton_append,
      List.dropWhile_cons_of_pos hd]

/-- White space around a text is trimmed off with the text's own. -/
theorem trim_around {c d : Char} (hc : isWhitespace c = true) (hd : isWhitespace d = true)
    (s : String) : trim (String.ofList (c :: (s.toList ++ [d]))) = trim s := by
  rw [trim_cons hc, trim_append_singleton hd, String.ofList_toList]

/-- The value of a digit in a radix up to sixteen. -/
def digitVal (radix : Nat) (c : Char) : Option Nat :=
  let d :=
    if '0' ≤ c ∧ c ≤ '9' then c.toNat - 48
    else if 'a' ≤ c ∧ c ≤ 'f' then c.toNat - 87
    else if 'A' ≤ c ∧ c ≤ 'F' then c.toNat - 55
    else radix
  if d < radix then some d else none

private def decimalFrom (bound : Nat) : Nat → List Char → Except String Nat
  | acc, [] => .ok acc
  | acc, c :: cs =>
    match digitVal 10 c with
    | none => .error "invalid digit found in string"
    | some d =>
      if acc * 10 + d < bound then decimalFrom bound (acc * 10 + d) cs
      else .error "number too large to fit in target type"

/-- Parse an unsigned decimal number below `bound`: digits with an optional plus sign,
at least one digit, nothing else. The errors are the texts of `ParseIntError`. -/
def parseUnsigned (bound : Nat) (s : List Char) : Except String Nat :=
  let digits := if s.head? = some '+' then s.tail else s
  if s = [] then .error "cannot parse integer from empty string"
  else if digits = [] then .error "invalid digit found in string"
  else decimalFrom bound 0 digits

private theorem decimalFrom_append {bound acc m : Nat} {s t : List Char}
    (h : decimalFrom bound acc s = .ok m) :
    decimalFrom bound acc (s ++ t) = decimalFrom bound m t := by
  induction s generalizing acc with
  | nil =>
    cases h
    rfl
  | cons c s ih =>
    rw [decimalFrom] at h
    rw [List.cons_append, decimalFrom]
    split at h
    · cases h
    · next d hd =>
      split at h
      · next hlt =>
        rw [if_pos hlt]
        exact ih h
      · cases h

theorem digitVal_digitChar {d : Nat} (h : d < 10) : digitVal 10 d.digitChar = some d := by
  revert d
  decide

private theorem decimalFrom_digitChar {bound acc d : Nat} (hd : d < 10)
    (h : acc * 10 + d < bound) : decimalFrom bound acc [d.digitChar] = .ok (acc * 10 + d) := by
  rw [decimalFrom, digitVal_digitChar hd]
  dsimp only
  rw [if_pos h]
  rfl

private theorem decimalFrom_toDigits {bound n : Nat} (h : n < bound) :
    decimalFrom bound 0 (Nat.toDigits 10 n) = .ok n := by
  induction n using Nat.strongRecOn with
  | ind n ih =>
    by_cases hn : n < 10
    · have hd : decimalFrom bound 0 [n.digitChar] = .ok (0 * 10 + n) :=
        decimalFrom_digitChar hn (by omega)
      rw [Nat.toDigits_of_lt_base hn, hd, Nat.zero_mul, Nat.zero_add]
    · rw [Nat.toDigits_of_base_le (by decide) (by omega),
        decimalFrom_append (ih (n / 10) (by omega) (by omega)),
        decimalFrom_digitChar (by omega) (by omega)]
      congr 1
      omega

private theorem digitVal_of_mem {bound acc m : Nat} {s : List Char}
    (h : decimalFrom bound acc s = .ok m) : ∀ c ∈ s, digitVal 10 c ≠ none := by
  induction s generalizing acc with
  | nil =>
    intro c hc
    cases hc
  | cons x s ih =>
    rw [decimalFrom] at h
    split at h
    · cases h
    · next d hd =>
      split at h
      · intro c hc
        rcases List.mem_cons.mp hc with rfl | hc
        · rw [hd]
          exact Option.some_ne_none d
        · exact ih h c hc
      · cases h

theorem toList_toString (n : Nat) : (toString n).toList = Nat.toDigits 10 n := by
  rw [Nat.toString_eq_repr, Nat.repr_eq_ofList_toDigits, String.toList_ofList]

/-- A printed number consists of digits. -/
theorem digitVal_of_mem_toString {n : Nat} : ∀ c ∈ (toString n).toList, digitVal 10 c ≠ none := by
  rw [toList_toString]
  exact digitVal_of_mem (decimalFrom_toDigits (Nat.lt_succ_self n))

/-- A printed number is read back. -/
theorem parseUnsigned_toString {bound n : Nat} (h : n < bound) :
    parseUnsigned bound (toString n).toList = .ok n := by
  have hplus : (Nat.toDigits 10 n).head? ≠ some '+' := by
    intro hp
    have hmem := List.mem_of_head? hp
    exact digitVal_of_mem (decimalFrom_toDigits h) _ hmem rfl
  rw [toList_toString, parseUnsigned, if_neg hplus, if_neg Nat.toDigits_ne_nil,
    if_neg Nat.toDigits_ne_nil, decimalFrom_toDigits h]

/-! ### Numbers in any radix -/

theorem digitVal_of_digitChar {radix d : Nat} (hradix : radix ≤ 16) (h : d < radix) :
    digitVal radix d.digitChar = some d := by
  have hall : ∀ radix ≤ 16, ∀ d < radix, digitVal radix d.digitChar = some d := by decide
  exact hall radix hradix d h

/-- Numbers are written in digits of their radix. -/
theorem digitVal_of_mem_toDigits {radix : Nat} (hone : 1 < radix) (hradix : radix ≤ 16) {n : Nat} :
    ∀ c ∈ Nat.toDigits radix n, digitVal radix c ≠ none := by
  induction n using Nat.strongRecOn with
  | ind n ih =>
    intro c hc
    by_cases hn : n < radix
    · rw [Nat.toDigits_of_lt_base hn, List.mem_singleton] at hc
      rw [hc, digitVal_of_digitChar hradix hn]
      exact Option.some_ne_none n
    · have hpos : 0 < n := by omega
      rw [Nat.toDigits_of_base_le hone (by omega), List.mem_append, List.mem_singleton] at hc
      rcases hc with hc | rfl
      · exact ih (n / radix) (Nat.div_lt_self hpos hone) c hc
      · rw [digitVal_of_digitChar hradix (Nat.mod_lt n (by omega))]
        exact Option.some_ne_none _

/-- The digits of a number add up to it. -/
theorem foldl_digitVal_toDigits {radix : Nat} (hone : 1 < radix) (hradix : radix ≤ 16) (n : Nat) :
    ((Nat.toDigits radix n).filterMap (digitVal radix)).foldl (fun acc d ↦ acc * radix + d) 0 =
      n := by
  induction n using Nat.strongRecOn with
  | ind n ih =>
    by_cases hn : n < radix
    · rw [Nat.toDigits_of_lt_base hn]
      simp [digitVal_of_digitChar hradix hn]
    · have hpos : 0 < n := by omega
      have hdigit := digitVal_of_digitChar hradix (Nat.mod_lt n (by omega : 0 < radix))
      rw [Nat.toDigits_of_base_le hone (by omega), List.filterMap_append, List.foldl_append,
        ih (n / radix) (Nat.div_lt_self hpos hone)]
      simp only [List.filterMap_cons, hdigit, List.filterMap_nil, List.foldl_cons, List.foldl_nil]
      exact Nat.div_add_mod' n radix

end Cpxy.Base
