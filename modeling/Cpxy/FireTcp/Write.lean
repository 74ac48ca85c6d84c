import Cpxy.Base.Keystream
import Cpxy.Base.Run
import Cpxy.Base.Writer

/-!
# The writing half of the firetcp cipher

Library `FireTcp`. Source `src/protocol/firetcp/cipher/write.rs:11–132`. The first bytes are
encrypted with an initial cipher, the rest with the established one or not at all. A call
encrypts before it knows how much the writer below takes, and rewinds the cipher over
what was not taken.
-/

namespace Cpxy.FireTcp

open Cpxy.Base

/-- `WriteState`; `write.rs:13–16`. -/
inductive WriteState where
  | init (bytesLeft : Nat) (cipher : Cipher)
  | established (cipher : Option Cipher)

/-- `CipherWrite` without the writer below; `write.rs:18–26`. Of the scratch buffer only the
length is kept: each call overwrites what it then offers. -/
structure CipherWrite where
  bufLen : Nat
  establishCipher : Option Cipher
  state : WriteState

/-- The common part of `write.rs:72–81` and `97–105`: encrypt `len` bytes into the scratch
buffer, offer them, and rewind over what was not taken. A `Pending` answer or an error of
the writer returns before the rewind. -/
def encryptAndWrite (bufLen : Nat) (cipher : Cipher) (len : Nat) (buf : Bytes) (a : Answer) :
    Poll (Outcome ErrorChain Nat) × Cipher × Bytes :=
  if bufLen < len then (.ready .panicked, cipher, [])
  else
    let (output, applied) := cipher.apply (buf.take len)
    match a.pollWrite output with
    | (.ready (.ok written), out) =>
      if written < len then
        match applied.rewind (len - written) with
        | .ok rewound => (.ready (.ok written), rewound, out)
        | .err e => (.ready (.err e), applied, out)
        | .panicked => (.ready .panicked, applied, out)
      else (.ready (.ok written), applied, out)
    | (result, out) => (result, applied, out)

namespace CipherWrite

/-- `CipherWrite::new`; `write.rs:33–43`. -/
def new (initialSize : Nat) (initialCipher : Cipher) : CipherWrite where
  bufLen := max initialSize 512
  establishCipher := none
  state := .init initialSize initialCipher

/-- `set_establish_cipher`; `write.rs:45–54`. -/
def setEstablishCipher (w : CipherWrite) (cipher : Option Cipher) :
    Outcome ErrorChain Unit × CipherWrite :=
  match w.state with
  | .established _ => (.err ["Connection already established, too late for cipher change"], w)
  | .init _ _ => (.ok (), { w with establishCipher := cipher })

/-- `poll_write`; `write.rs:60–111`: the result, the writer afterwards and the bytes that
reached the wire. -/
def pollWrite (w : CipherWrite) (buf : Bytes) (a : Answer) :
    Poll (Outcome ErrorChain Nat) × CipherWrite × Bytes :=
  if buf.length = 0 then (.ready (.ok 0), w, [])
  else
    match w.state with
    | .init bytesLeft cipher =>
      match encryptAndWrite w.bufLen cipher (min buf.length bytesLeft) buf a with
      | (.ready (.ok written), cipher, out) =>
        if bytesLeft - written = 0 then
          (.ready (.ok written),
            { w with establishCipher := none, state := .established w.establishCipher }, out)
        else
          (.ready (.ok written), { w with state := .init (bytesLeft - written) cipher }, out)
      | (result, cipher, out) => (result, { w with state := .init bytesLeft cipher }, out)
    | .established (some cipher) =>
      let (result, cipher, out) :=
        encryptAndWrite w.bufLen cipher (min buf.length w.bufLen) buf a
      (result, { w with state := .established (some cipher) }, out)
    | .established none =>
      let (result, out) := a.pollWrite buf
      (result, w, out)

end CipherWrite

/-! ### Schedules -/

/-- One call on the writer: a write that the writer below answers with `Pending` or takes a
bounded prefix of, or the choice of an established cipher. -/
inductive Event where
  | poll (buf : Bytes) (limit : Option Nat)
  | setEstablish (keys : Option Keystream)

/-- The writer with what has been accepted from its callers, what reached the wire, and the
keys of the established cipher that was last set. -/
structure Run where
  writer : CipherWrite
  accepted : Bytes
  wire : Bytes
  established : Option Keystream

namespace Run

/-- A new writer, nothing written. -/
def start (n : Nat) (keys : Keystream) : Run where
  writer := .new n (.new keys)
  accepted := []
  wire := []
  established := none

/-- One call. -/
def step (r : Run) : Event → Run
  | .poll buf limit =>
    let (result, writer, out) := r.writer.pollWrite buf (.ofLimit limit)
    { r with
      writer := writer
      accepted := r.accepted ++ acceptedPrefix buf result
      wire := r.wire ++ out }
  | .setEstablish keys =>
    match r.writer.setEstablishCipher (keys.map Cipher.new) with
    | (.ok _, writer) => { r with writer := writer, established := keys }
    | (_, writer) => { r with writer := writer }

end Run

/-- The wire image of the accepted plaintext: `n` bytes under the initial keys, the rest
under the established ones, each from its position 0. -/
def expectedWire (n : Nat) (initial : Keystream) (established : Option Keystream)
    (plain : Bytes) : Bytes :=
  xorAt initial 0 (plain.take n) ++
    (match established with
      | some keys => xorAt keys 0 (plain.drop n)
      | none => plain.drop n)

/-- The key byte added at each position of the accepted plaintext. -/
def wireKeys (n : Nat) (initial : Keystream) (established : Option Keystream) : Keystream :=
  fun pos ↦
    if pos < n then initial pos
    else match established with
      | some keys => keys (pos - n)
      | none => 0

theorem xorAt_wireKeys_of_le {n pos : Nat} (initial : Keystream) (established : Option Keystream)
    {bs : Bytes} (h : pos + bs.length ≤ n) :
    xorAt (wireKeys n initial established) pos bs = xorAt initial pos bs := by
  apply xorAt_congr
  intro i hi
  have hlt : pos + i < n := by omega
  simp only [wireKeys, if_pos hlt]

theorem xorAt_wireKeys_of_ge {n pos : Nat} (initial : Keystream) (established : Option Keystream)
    (bs : Bytes) (h : n ≤ pos) :
    xorAt (wireKeys n initial established) pos bs =
      match established with
      | some keys => xorAt keys (pos - n) bs
      | none => bs := by
  have hge (i : Nat) : ¬ pos + i < n := by omega
  cases established with
  | none =>
    have hz : xorAt (wireKeys n initial none) pos bs = xorAt zeroKeys pos bs := by
      apply xorAt_congr
      intro i _
      simp only [wireKeys, if_neg (hge i), zeroKeys]
    rw [hz, xorAt_zeroKeys]
  | some keys =>
    apply xorAt_congr
    intro i _
    have hsub : pos + i - n = pos - n + i := by omega
    simp only [wireKeys, if_neg (hge i), hsub]

theorem expectedWire_eq (n : Nat) (initial : Keystream) (established : Option Keystream)
    (plain : Bytes) :
    expectedWire n initial established plain =
      xorAt (wireKeys n initial established) 0 plain := by
  by_cases h : plain.length ≤ n
  · have hnil : plain.drop n = [] := List.drop_eq_nil_of_le h
    rw [xorAt_wireKeys_of_le _ _ (by omega)]
    cases established <;> simp [expectedWire, hnil, List.take_of_length_le h]
  · have hn : (plain.take n).length = n := List.length_take_of_le (by omega)
    conv_rhs => rw [← List.take_append_drop n plain, xorAt_append]
    rw [xorAt_wireKeys_of_le _ _ (by omega), xorAt_wireKeys_of_ge _ _ _ (by omega), hn,
      Nat.zero_add, Nat.sub_self]
    rfl

/-! ### One call -/

theorem encryptAndWrite_ready {bufLen len : Nat} (c : Cipher) (buf : Bytes) (limit : Nat)
    (hl : len ≤ bufLen) (hb : len ≤ buf.length) :
    encryptAndWrite bufLen c len buf (.ready limit) =
      (.ready (.ok (min limit len)), ⟨c.ks, c.pos + min limit len⟩,
        xorAt c.ks c.pos (buf.take (min limit len))) := by
  have htake : (buf.take len).length = len := List.length_take_of_le hb
  have hout : (xorAt c.ks c.pos (buf.take len)).length = len := by rw [length_xorAt, htake]
  rw [encryptAndWrite, if_neg (by omega)]
  simp only [Answer.pollWrite, Cipher.apply, hout, take_xorAt, List.take_take]
  split
  · next hlt =>
    have hr := Cipher.rewind_apply (ε := ErrorChain) c (buf.take len) (n := min limit len)
      (by omega)
    rw [htake] at hr
    simp only [Cipher.apply, htake] at hr ⊢
    rw [hr]
  · next hge =>
    have hmin : min limit len = len := by omega
    rw [hmin, htake]

theorem encryptAndWrite_pending {bufLen len : Nat} (c : Cipher) (buf : Bytes)
    (hl : len ≤ bufLen) (hb : len ≤ buf.length) :
    encryptAndWrite bufLen c len buf .pending = (.pending, ⟨c.ks, c.pos + len⟩, []) := by
  have htake : (buf.take len).length = len := List.length_take_of_le hb
  rw [encryptAndWrite, if_neg (by omega)]
  simp only [Answer.pollWrite, Cipher.apply, htake]

private theorem encryptAndWrite_ne_pending (bufLen : Nat) (c : Cipher) (len : Nat) (buf : Bytes)
    (limit : Nat) : (encryptAndWrite bufLen c len buf (.ready limit)).1 ≠ .pending := by
  rw [encryptAndWrite]
  split
  · simp
  · simp only [Answer.pollWrite]
    split
    · cases (c.apply (buf.take len)).2.rewind (ε := ErrorChain) (len - _) <;> simp
    · simp

/-- A write returns `Pending` only if the writer below does. -/
theorem CipherWrite.pollWrite_ready_ne_pending (w : CipherWrite) (buf : Bytes) (limit : Nat) :
    (w.pollWrite buf (.ready limit)).1 ≠ .pending := by
  rw [CipherWrite.pollWrite]
  split
  · simp
  cases w.state with
  | init left cipher =>
    have hne := encryptAndWrite_ne_pending w.bufLen cipher (min buf.length left) buf limit
    dsimp only
    split
    · split <;> simp
    · next heq =>
      rw [heq] at hne
      exact hne
  | established cipher =>
    cases cipher with
    | none => simp [Answer.pollWrite]
    | some cipher => exact encryptAndWrite_ne_pending _ _ _ _ _

/-! ### Whole schedules -/

/-- The positions of the cipher in use and of the one waiting to be established. -/
def CipherWrite.positions (w : CipherWrite) : Option Nat × Option Nat :=
  (match w.state with
    | .init _ cipher => some cipher.pos
    | .established cipher => cipher.map Cipher.pos,
    w.establishCipher.map Cipher.pos)

/-- What a call owes: the wire carries the accepted plaintext under the right keys, and a
call that returns `Pending` moves no cipher. -/
structure Exact (n : Nat) (initial : Keystream) (r : Run) (e : Event) : Prop where
  wire : (r.step e).wire =
    expectedWire n initial (r.step e).established (r.step e).accepted
  noTrace : ∀ buf limit, e = .poll buf limit →
    (r.writer.pollWrite buf (.ofLimit limit)).1 = .pending →
    (r.step e).writer.positions = r.writer.positions

/-- Whether a write goes through a cipher: initially, and later if one was established. -/
def CipherWrite.encrypts (w : CipherWrite) : Prop :=
  match w.state with
  | .init _ _ => True
  | .established cipher => cipher.isSome = true

/-- No data is refused while a cipher is in use. -/
def Unblocked (r : Run) : Event → Prop
  | .poll buf limit => buf ≠ [] → limit = none → ¬ r.writer.encrypts
  | .setEstablish _ => True

/-- The cipher in use is at the position of the next byte to be accepted. -/
structure InStep (n : Nat) (initial : Keystream) (r : Run) : Prop where
  wire : r.wire = xorAt (wireKeys n initial r.established) 0 r.accepted
  bufLen : r.writer.bufLen = max n 512
  state : match r.writer.state with
    | .init left cipher => 0 < left ∧ r.accepted.length + left = n ∧
        cipher = ⟨initial, r.accepted.length⟩ ∧
        r.writer.establishCipher = r.established.map Cipher.new
    | .established cipher => n ≤ r.accepted.length ∧ r.writer.establishCipher = none ∧
        cipher = r.established.map fun keys ↦ ⟨keys, r.accepted.length - n⟩

section Schedules

variable {n : Nat} {initial : Keystream} {r : Run}

theorem inStep_start (hn : 0 < n) (initial : Keystream) :
    InStep n initial (Run.start n initial) where
  wire := rfl
  bufLen := rfl
  state := ⟨hn, Nat.zero_add n, rfl, rfl⟩

private theorem InStep.wire_append (h : InStep n initial r) (x : Bytes) :
    xorAt (wireKeys n initial r.established) 0 (r.accepted ++ x) =
      r.wire ++ xorAt (wireKeys n initial r.established) r.accepted.length x := by
  rw [xorAt_append, Nat.zero_add, ← h.wire]

private theorem InStep.poll_init {left limit : Nat} {cipher : Cipher} {buf : Bytes}
    (h : InStep n initial r) (hb : ¬ buf.length = 0) (hs : r.writer.state = .init left cipher) :
    InStep n initial (r.step (.poll buf (some limit))) := by
  have hst := h.state
  rw [hs] at hst
  obtain ⟨hleft, hacc, rfl, hest⟩ := hst
  have hbuf := h.bufLen
  have hroom : min buf.length left ≤ r.writer.bufLen := by omega
  have hw := encryptAndWrite_ready ⟨initial, r.accepted.length⟩ buf limit hroom
    (Nat.min_le_left _ _)
  generalize hk : min limit (min buf.length left) = k at hw
  have hlen : (buf.take k).length = k := List.length_take_of_le (by omega)
  have hfits : r.accepted.length + (buf.take k).length ≤ n := by omega
  have hkeys := xorAt_wireKeys_of_le initial r.established hfits
  by_cases hz : left - k = 0
  · -- the budget is used up: the established cipher takes over, at its position 0
    have hstep : r.step (.poll buf (some limit)) =
        { r with
          writer := { r.writer with
            establishCipher := none, state := .established r.writer.establishCipher }
          accepted := r.accepted ++ buf.take k
          wire := r.wire ++ xorAt initial r.accepted.length (buf.take k) } := by
      simp [Run.step, CipherWrite.pollWrite, hb, hs, Answer.ofLimit, hw, hz, acceptedPrefix]
    have hpos : r.accepted.length + k - n = 0 := by omega
    rw [hstep]
    constructor
    · rw [h.wire_append, hkeys]
    · exact hbuf
    · simp only [hest, List.length_append, hlen, hpos]
      exact ⟨by omega, trivial, rfl⟩
  · have hstep : r.step (.poll buf (some limit)) =
        { r with
          writer := { r.writer with
            state := .init (left - k) ⟨initial, r.accepted.length + k⟩ }
          accepted := r.accepted ++ buf.take k
          wire := r.wire ++ xorAt initial r.accepted.length (buf.take k) } := by
      simp [Run.step, CipherWrite.pollWrite, hb, hs, Answer.ofLimit, hw, hz, acceptedPrefix]
    rw [hstep]
    constructor
    · rw [h.wire_append, hkeys]
    · exact hbuf
    · simp only [List.length_append, hlen]
      exact ⟨by omega, by omega, trivial, hest⟩

private theorem InStep.poll_plain {limit : Nat} {buf : Bytes} (h : InStep n initial r)
    (hb : ¬ buf.length = 0) (hs : r.writer.state = .established none) :
    InStep n initial (r.step (.poll buf (some limit))) := by
  have hst := h.state
  rw [hs] at hst
  obtain ⟨hacc, hnone, hcipher⟩ := hst
  have hest : r.established = none := by simpa using hcipher
  have hkeys := xorAt_wireKeys_of_ge (n := n) initial none (buf.take limit) hacc
  have hstep : r.step (.poll buf (some limit)) =
      { r with
        accepted := r.accepted ++ buf.take limit, wire := r.wire ++ buf.take limit } := by
    simp [Run.step, CipherWrite.pollWrite, hb, hs, Answer.ofLimit, Answer.pollWrite,
      acceptedPrefix]
  have happ := h.wire_append (buf.take limit)
  rw [hest, hkeys] at happ
  rw [hstep]
  constructor
  · rw [hest, happ]
  · exact h.bufLen
  · rw [hs, hest]
    simp only [List.length_append]
    exact ⟨by omega, hnone, rfl⟩

private theorem InStep.poll_established {limit : Nat} {cipher : Cipher} {buf : Bytes}
    (h : InStep n initial r) (hb : ¬ buf.length = 0)
    (hs : r.writer.state = .established (some cipher)) :
    InStep n initial (r.step (.poll buf (some limit))) := by
  have hst := h.state
  rw [hs] at hst
  obtain ⟨hacc, hnone, hcipher⟩ := hst
  obtain ⟨keys, hest, rfl⟩ := Option.map_eq_some_iff.mp hcipher.symm
  have hw := encryptAndWrite_ready ⟨keys, r.accepted.length - n⟩ buf limit
    (Nat.min_le_right buf.length r.writer.bufLen) (Nat.min_le_left _ _)
  generalize hk : min limit (min buf.length r.writer.bufLen) = k at hw
  have hlen : (buf.take k).length = k := List.length_take_of_le (by omega)
  have hkeys := xorAt_wireKeys_of_ge (n := n) initial (some keys) (buf.take k) hacc
  have hstep : r.step (.poll buf (some limit)) =
      { r with
        writer := { r.writer with
          state := .established (some ⟨keys, r.accepted.length - n + k⟩) }
        accepted := r.accepted ++ buf.take k
        wire := r.wire ++ xorAt keys (r.accepted.length - n) (buf.take k) } := by
    simp [Run.step, CipherWrite.pollWrite, hb, hs, Answer.ofLimit, hw, acceptedPrefix]
  have happ := h.wire_append (buf.take k)
  rw [hest, hkeys] at happ
  have hpos : r.accepted.length + k - n = r.accepted.length - n + k := by omega
  rw [hstep]
  constructor
  · rw [hest, happ]
  · exact h.bufLen
  · simp only [hest, List.length_append, hlen, Option.map_some, hpos]
    exact ⟨by omega, hnone, trivial⟩

private theorem Run.step_poll_nil {buf : Bytes} (limit : Option Nat) (hb : buf.length = 0) :
    r.step (.poll buf limit) = r := by
  simp [Run.step, CipherWrite.pollWrite, hb, acceptedPrefix]

/-- A write that the writer below answers keeps the cipher in step. -/
theorem InStep.poll_ready (h : InStep n initial r) (buf : Bytes) (limit : Nat) :
    InStep n initial (r.step (.poll buf (some limit))) := by
  by_cases hb : buf.length = 0
  · rwa [Run.step_poll_nil _ hb]
  cases hs : r.writer.state with
  | init left cipher => exact h.poll_init hb hs
  | established cipher =>
    cases cipher with
    | none => exact h.poll_plain hb hs
    | some cipher => exact h.poll_established hb hs

/-- Of data that is offered to a writer below that takes some, some is accepted. -/
theorem InStep.pollWrite_ready (h : InStep n initial r) {buf : Bytes} {limit : Nat}
    (hb : buf ≠ []) (hlimit : 0 < limit) :
    ∃ m, 0 < m ∧ (r.writer.pollWrite buf (.ready limit)).1 = .ready (.ok m) := by
  have hpos := List.length_pos_iff.mpr hb
  have hst := h.state
  have hbuf := h.bufLen
  rw [CipherWrite.pollWrite, if_neg (by omega)]
  cases hs : r.writer.state with
  | init left cipher =>
    rw [hs] at hst
    have hleft := hst.1
    have hw := encryptAndWrite_ready cipher buf limit
      (by omega : min buf.length left ≤ r.writer.bufLen) (Nat.min_le_left _ _)
    refine ⟨min limit (min buf.length left), by omega, ?_⟩
    dsimp only
    rw [hw]
    dsimp only
    split <;> rfl
  | established cipher =>
    cases cipher with
    | none => exact ⟨min limit buf.length, by omega, rfl⟩
    | some cipher =>
      have hw := encryptAndWrite_ready cipher buf limit
        (Nat.min_le_right buf.length r.writer.bufLen) (Nat.min_le_left _ _)
      refine ⟨min limit (min buf.length r.writer.bufLen), by omega, ?_⟩
      dsimp only
      rw [hw]

/-- Choosing an established cipher touches no other cipher, and none once established. -/
theorem InStep.setEstablish (h : InStep n initial r) (keys : Option Keystream) :
    InStep n initial (r.step (.setEstablish keys)) := by
  cases hs : r.writer.state with
  | established cipher =>
    have hstep : r.step (.setEstablish keys) = r := by
      simp [Run.step, CipherWrite.setEstablishCipher, hs]
    rwa [hstep]
  | init left cipher =>
    have hst := h.state
    rw [hs] at hst
    obtain ⟨hleft, hacc, hcipher, _⟩ := hst
    have hstep : r.step (.setEstablish keys) =
        { r with
          writer := { r.writer with establishCipher := keys.map Cipher.new }
          established := keys } := by
      simp [Run.step, CipherWrite.setEstablishCipher, hs]
    have hwire := h.wire
    rw [xorAt_wireKeys_of_le _ _ (by omega)] at hwire
    rw [hstep]
    constructor
    · rw [hwire, xorAt_wireKeys_of_le _ _ (by simp only; omega)]
    · exact h.bufLen
    · rw [hs]
      exact ⟨hleft, hacc, hcipher, rfl⟩

/-- A refused write of data moves the cipher in use, and nothing else. -/
theorem InStep.positions_pending (h : InStep n initial r) {buf : Bytes} (hb : buf ≠ [])
    (he : r.writer.encrypts) :
    (r.writer.pollWrite buf (.ofLimit none)).1 = .pending ∧
      (r.step (.poll buf none)).writer.positions ≠ r.writer.positions := by
  have hbuf := h.bufLen
  have hpos : 0 < buf.length := List.length_pos_iff.mpr hb
  have hst := h.state
  cases hs : r.writer.state with
  | init left cipher =>
    rw [hs] at hst
    have hleft := hst.1
    have hroom : min buf.length left ≤ r.writer.bufLen := by omega
    have hw := encryptAndWrite_pending cipher buf hroom (Nat.min_le_left _ _)
    simp [Run.step, CipherWrite.pollWrite, CipherWrite.positions, hs, hb, Answer.ofLimit, hw]
    omega
  | established cipher =>
    cases cipher with
    | none => simp [CipherWrite.encrypts, hs] at he
    | some cipher =>
      have hw := encryptAndWrite_pending cipher buf
        (Nat.min_le_right buf.length r.writer.bufLen) (Nat.min_le_left _ _)
      simp [Run.step, CipherWrite.pollWrite, CipherWrite.positions, hs, hb, Answer.ofLimit, hw]
      omega

private theorem Run.step_poll_none {buf : Bytes} (he : ¬ r.writer.encrypts) :
    r.step (.poll buf none) = r := by
  cases hs : r.writer.state with
  | init left cipher => simp [CipherWrite.encrypts, hs] at he
  | established cipher =>
    cases cipher with
    | some cipher => simp [CipherWrite.encrypts, hs] at he
    | none =>
      by_cases hb : buf.length = 0
      · exact Run.step_poll_nil _ hb
      · simp [Run.step, CipherWrite.pollWrite, hs, hb, Answer.ofLimit, Answer.pollWrite,
          acceptedPrefix]

/-- An unblocked call keeps the cipher in step. -/
theorem InStep.step (e : Event) (h : InStep n initial r) (hu : Unblocked r e) :
    InStep n initial (r.step e) := by
  match e with
  | .setEstablish keys => exact h.setEstablish keys
  | .poll buf (some limit) => exact h.poll_ready buf limit
  | .poll buf none =>
    by_cases hb : buf = []
    · rwa [Run.step_poll_nil _ (by simp [hb])]
    · rwa [Run.step_poll_none (hu hb rfl)]

/-- In step, a call does what it owes exactly when it is unblocked. -/
theorem InStep.exact_iff (e : Event) (h : InStep n initial r) :
    Exact n initial r e ↔ Unblocked r e := by
  constructor
  · intro hx
    match e with
    | .setEstablish _ => trivial
    | .poll buf limit =>
      rintro hb rfl he
      obtain ⟨hp, hne⟩ := h.positions_pending hb he
      exact hne (hx.noTrace buf none rfl hp)
  · intro hu
    constructor
    · rw [expectedWire_eq]
      exact (h.step e hu).wire
    · rintro buf limit rfl hp
      match limit with
      | none =>
        by_cases hb : buf = []
        · rw [Run.step_poll_nil _ (by simp [hb])]
        · rw [Run.step_poll_none (hu hb rfl)]
      | some limit => exact absurd hp (r.writer.pollWrite_ready_ne_pending buf limit)

/-- Over every schedule, the writer does what it owes at each call exactly when no call
with data is refused while a cipher is in use. -/
theorem cipherWrite_exact_iff (hn : 0 < n) (initial : Keystream) (events : List Event) :
    Along Run.step (Exact n initial) (Run.start n initial) events ↔
      Along Run.step Unblocked (Run.start n initial) events :=
  Along.congr (I := InStep n initial) (fun _ e hi hu ↦ hi.step e hu) (fun _ e hi ↦ hi.exact_iff e)
    (inStep_start hn initial)

end Schedules

/-- Three unrefused calls across the switch to an established cipher. -/
theorem cipherWrite_exact_switch :
    let events : List Event :=
      [.setEstablish (some fun i ↦ .ofNat (i + 100)), .poll [1, 2, 3] (some 1),
        .poll [2, 3] (some 2), .poll [3] (some 1)]
    Along Run.step (Exact 2 fun i ↦ .ofNat (i + 1)) (.start 2 fun i ↦ .ofNat (i + 1)) events := by
  intro events
  apply (cipherWrite_exact_iff (by decide) _ events).mpr
  simp [events, Unblocked]

/-- One byte refused once and then taken: it goes out under the second key byte. -/
theorem cipherWrite_pending_breaks :
    ¬ ∀ (n : Nat), 0 < n → ∀ (initial : Keystream) (events : List Event),
      Along Run.step (Exact n initial) (Run.start n initial) events := by
  intro h
  have hx := h 2 (by decide) (fun i ↦ .ofNat i) [.poll [7] none, .poll [7] (some 1)]
  have hwire := hx.2.1.wire
  exact absurd hwire (by decide)

end Cpxy.FireTcp
