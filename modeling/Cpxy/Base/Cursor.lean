import Cpxy.Base.BigEndian
import Cpxy.Base.Outcome

/-!
# Byte cursors

Library `Base`. A cursor computation consumes a byte string from the front. The `get`
family takes bytes without a bound check and panics past the end, as buffer accessors
do; `readExact` reports a short input as an error, as stream readers do. `slice` takes a part
out of the middle.
-/

namespace Cpxy.Base

/-- The part of a buffer between two offsets; panics out of range. -/
def slice {ε : Type} (buf : Bytes) (start stop : Nat) : Outcome ε Bytes :=
  if start ≤ stop ∧ stop ≤ buf.length then .ok ((buf.take stop).drop start) else .panicked

theorem slice_of_le {ε : Type} {buf : Bytes} {start stop : Nat} (h : start ≤ stop)
    (hstop : stop ≤ buf.length) :
    (slice buf start stop : Outcome ε Bytes) = .ok ((buf.take stop).drop start) :=
  if_pos ⟨h, hstop⟩

/-- A computation that consumes bytes from the front of its input. -/
def Cursor (ε α : Type) := Bytes → Outcome ε (α × Bytes)

namespace Cursor

variable {ε α β : Type}

instance : Monad (Cursor ε) where
  pure a := fun b ↦ .ok (a, b)
  bind p f := fun b ↦ p b >>= fun r ↦ f r.1 r.2

/-- Bytes left to consume. -/
def remaining : Cursor ε Nat := fun b ↦ .ok (b.length, b)

/-- Stop with an error value. -/
def throw (e : ε) : Cursor ε α := fun _ ↦ .err e

/-- Take `n` bytes; panics when fewer are left. -/
def splitTo (n : Nat) : Cursor ε Bytes := fun b ↦
  if n ≤ b.length then .ok (b.take n, b.drop n) else .panicked

/-- Everything left. -/
def rest : Cursor ε Bytes := fun b ↦ .ok (b, [])

/-- Take one byte; panics at the end. -/
def getU8 : Cursor ε UInt8 := fun b ↦
  match b with
  | [] => .panicked
  | x :: bs => .ok (x, bs)

/-- Take a big-endian number of `k` bytes; panics when fewer are left. -/
def getBE (k : Nat) : Cursor ε Nat := do
  let b ← splitTo k
  pure (ofBE b)

/-- Take a big-endian 16-bit word. -/
def getU16 : Cursor ε UInt16 := do
  let n ← getBE 2
  pure (UInt16.ofNat n)

/-- Read exactly `n` bytes of a stream, failing with `eof` when it ends early. -/
def readExact (eof : ε) (n : Nat) : Cursor ε Bytes := fun b ↦
  if n ≤ b.length then .ok (b.take n, b.drop n) else .err eof

/-- Run a computation on another byte string and keep this one. -/
def onBytes (x : Bytes) (p : Cursor ε α) : Cursor ε α := fun b ↦ do
  let r ← p x
  .ok (r.1, b)

/-- Fail unless `n` bytes are left; the error may name the number that is. -/
def ensure (n : Nat) (e : Nat → ε) : Cursor ε Unit := do
  let left ← remaining
  if left < n then throw (e left) else pure ()

/-- Read a field only where it is announced. -/
def optional (present : Bool) (p : Cursor ε α) : Cursor ε (Option α) :=
  if present then do
    let a ← p
    pure (some a)
  else pure none

@[simp] theorem pure_apply (a : α) (b : Bytes) : (pure a : Cursor ε α) b = .ok (a, b) := rfl

theorem bind_apply (p : Cursor ε α) (f : α → Cursor ε β) (b : Bytes) :
    (p >>= f) b = p b >>= fun r ↦ f r.1 r.2 := rfl

@[simp] theorem remaining_apply (b : Bytes) : (remaining : Cursor ε Nat) b = .ok (b.length, b) :=
  rfl

@[simp] theorem throw_apply (e : ε) (b : Bytes) : (throw e : Cursor ε α) b = .err e := rfl

@[simp] theorem rest_apply (b : Bytes) : (rest : Cursor ε Bytes) b = .ok (b, []) := rfl

@[simp] theorem getU8_cons (x : UInt8) (bs : Bytes) :
    (getU8 : Cursor ε UInt8) (x :: bs) = .ok (x, bs) := rfl

/-- Within the input, taking bytes splits it. -/
theorem splitTo_of_le {n : Nat} {b : Bytes} (h : n ≤ b.length) :
    (splitTo n : Cursor ε Bytes) b = .ok (b.take n, b.drop n) := by
  simp [splitTo, h]

/-- Taking back a known prefix leaves what follows it. -/
@[simp] theorem splitTo_append (x bs : Bytes) :
    (splitTo x.length : Cursor ε Bytes) (x ++ bs) = .ok (x, bs) := by
  simp [splitTo]

/-- Reading back a known prefix leaves what follows it. -/
theorem readExact_append (eof : ε) {n : Nat} {x : Bytes} (bs : Bytes) (h : x.length = n) :
    readExact eof n (x ++ bs) = .ok (x, bs) := by
  subst h
  simp [readExact]

/-- Within the input, a word is read from its first bytes. -/
theorem getBE_of_le {k : Nat} {b : Bytes} (h : k ≤ b.length) :
    (getBE k : Cursor ε Nat) b = .ok (ofBE (b.take k), b.drop k) := by
  simp [getBE, bind_apply, splitTo_of_le h]

/-- A big-endian word is read back. -/
theorem getBE_append {k n : Nat} (bs : Bytes) (h : n < 256 ^ k) :
    (getBE k : Cursor ε Nat) (toBE k n ++ bs) = .ok (n, bs) := by
  have hs := splitTo_append (ε := ε) (toBE k n) bs
  rw [length_toBE] at hs
  simp [getBE, bind_apply, hs, ofBE_toBE h]

/-- A big-endian 16-bit word is read back. -/
@[simp] theorem getU16_append (n : UInt16) (bs : Bytes) :
    (getU16 : Cursor ε UInt16) (toBE 2 n.toNat ++ bs) = .ok (n, bs) := by
  have hn : n.toNat < 256 ^ 2 := n.toNat_lt
  simp [getU16, bind_apply, getBE_append bs hn]

/-- Two bytes suffice for a 16-bit word. -/
theorem getU16_of_le {b : Bytes} (h : 2 ≤ b.length) :
    (getU16 : Cursor ε UInt16) b = .ok (UInt16.ofNat (ofBE (b.take 2)), b.drop 2) := by
  simp [getU16, bind_apply, getBE_of_le h]

/-- The check passes when enough bytes are left, and consumes none. -/
theorem ensure_of_le {n : Nat} {b : Bytes} (e : Nat → ε) (h : n ≤ b.length) :
    ensure n e b = .ok ((), b) := by
  simp [ensure, bind_apply, Nat.not_lt.mpr h]

/-- The check fails when too few bytes are left. -/
theorem ensure_of_lt {n : Nat} {b : Bytes} (e : Nat → ε) (h : b.length < n) :
    ensure n e b = .err (e b.length) := by
  simp [ensure, bind_apply, h]

/-- A checked computation runs as it would alone on an input that is long enough. -/
theorem ensure_bind_of_le {n : Nat} {b : Bytes} (e : Nat → ε) (p : Cursor ε α)
    (h : n ≤ b.length) : (ensure n e >>= fun _ ↦ p) b = p b := by
  rw [bind_apply, ensure_of_le e h]
  rfl

/-- An announced field is the field, an absent one consumes nothing. -/
theorem optional_of_field {a : Option α} {p : Cursor ε α} {b r : Bytes}
    (hn : a = none → b = r) (hs : ∀ x, a = some x → p b = .ok (x, r)) :
    optional a.isSome p b = .ok (a, r) := by
  cases a with
  | none => simp [optional, hn rfl]
  | some x => simp [optional, bind_apply, hs x rfl]

/-! ### Consumption -/

/-- The computation leaves no more bytes than it was given. -/
def Shrinks (p : Cursor ε α) : Prop :=
  ∀ b a r, p b = .ok (a, r) → r.length ≤ b.length

theorem Shrinks.pure (a : α) : Shrinks (Pure.pure a : Cursor ε α) := by
  intro b a' r h
  cases h
  exact Nat.le_refl _

theorem Shrinks.throw (e : ε) : Shrinks (Cursor.throw e : Cursor ε α) := by
  intro b a r h
  cases h

theorem Shrinks.onBytes (x : Bytes) (p : Cursor ε α) : Shrinks (Cursor.onBytes x p) := by
  intro b a r h
  obtain ⟨_, _, hr⟩ := Outcome.bind_eq_ok_iff.mp h
  cases hr
  exact Nat.le_refl _

/-- Reading takes exactly the requested number of bytes. -/
theorem readExact_length {eof : ε} {n : Nat} {b a r : Bytes}
    (h : readExact eof n b = .ok (a, r)) : r.length + n = b.length := by
  unfold readExact at h
  split at h
  · cases h
    rw [List.length_drop]
    omega
  · cases h

theorem Shrinks.readExact (eof : ε) (n : Nat) : Shrinks (Cursor.readExact eof n) := by
  intro b a r h
  have := readExact_length h
  omega

theorem Shrinks.bind {p : Cursor ε α} {f : α → Cursor ε β} (hp : Shrinks p)
    (hf : ∀ a, Shrinks (f a)) : Shrinks (p >>= f) := by
  intro b c r h
  obtain ⟨⟨a, b'⟩, ha, hr⟩ := Outcome.bind_eq_ok_iff.mp h
  exact Nat.le_trans (hf a b' c r hr) (hp b a b' ha)

/-! ### More bytes -/

/-- What the computation reads it reads also when more bytes follow, and leaves those. -/
def Persists (p : Cursor ε α) : Prop :=
  ∀ b a r, p b = .ok (a, r) → ∀ x, p (b ++ x) = .ok (a, r ++ x)

theorem Persists.pure (a : α) : Persists (Pure.pure a : Cursor ε α) := by
  intro b a' r h x
  cases h
  rfl

theorem Persists.throw (e : ε) : Persists (Cursor.throw e : Cursor ε α) := by
  intro b a r h
  cases h

theorem Persists.onBytes (x : Bytes) (p : Cursor ε α) : Persists (Cursor.onBytes x p) := by
  intro b a r h y
  obtain ⟨⟨a', r'⟩, ha, hr⟩ := Outcome.bind_eq_ok_iff.mp h
  cases hr
  rw [Cursor.onBytes, ha]
  rfl

theorem Persists.readExact (eof : ε) (n : Nat) : Persists (Cursor.readExact eof n) := by
  intro b a r h x
  unfold Cursor.readExact at h ⊢
  split at h
  · next hn =>
    cases h
    rw [if_pos (by rw [List.length_append]; omega), List.take_append_of_le_length hn,
      List.drop_append_of_le_length hn]
  · cases h

theorem Persists.bind {p : Cursor ε α} {f : α → Cursor ε β} (hp : Persists p)
    (hf : ∀ a, Persists (f a)) : Persists (p >>= f) := by
  intro b c r h x
  obtain ⟨⟨a, b'⟩, ha, hr⟩ := Outcome.bind_eq_ok_iff.mp h
  rw [bind_apply, hp b a b' ha x]
  exact hf a b' c r hr x

/-! ### Answering every input

`Answers n p P` says that `p`, given at least `n` bytes, returns an error or a value with
`P`, and so never panics. The rules follow the way decoders are written: a length check
discharges the bound of what it guards. -/

/-- On every input of at least `n` bytes: an error, or a value with `P`. -/
def Answers (n : Nat) (p : Cursor ε α) (P : α → Prop) : Prop :=
  ∀ b : Bytes, n ≤ b.length →
    (∃ e, p b = .err e) ∨ ∃ a r, p b = .ok (a, r) ∧ P a

variable {n : Nat} {p : Cursor ε α} {P : α → Prop} {Q : β → Prop}

theorem Answers.pure {a : α} (h : P a) : Answers n (Pure.pure a : Cursor ε α) P :=
  fun b _ ↦ .inr ⟨a, b, rfl, h⟩

theorem Answers.throw (e : ε) : Answers n (Cursor.throw e : Cursor ε α) P :=
  fun _ _ ↦ .inl ⟨e, rfl⟩

theorem Answers.rest : Answers n (Cursor.rest : Cursor ε Bytes) fun _ ↦ True :=
  fun b _ ↦ .inr ⟨b, [], rfl, trivial⟩

theorem Answers.splitTo : Answers n (Cursor.splitTo n : Cursor ε Bytes) fun x ↦ x.length = n := by
  intro b hb
  exact .inr ⟨_, _, splitTo_of_le hb, List.length_take_of_le hb⟩

theorem Answers.getBE : Answers n (Cursor.getBE n : Cursor ε Nat) fun _ ↦ True :=
  fun _ hb ↦ .inr ⟨_, _, getBE_of_le hb, trivial⟩

theorem Answers.getU16 : Answers 2 (Cursor.getU16 : Cursor ε UInt16) fun _ ↦ True :=
  fun _ hb ↦ .inr ⟨_, _, getU16_of_le hb, trivial⟩

theorem Answers.getU8 : Answers 1 (Cursor.getU8 : Cursor ε UInt8) fun _ ↦ True := by
  intro b hb
  cases b with
  | nil => simp at hb
  | cons x bs => exact .inr ⟨x, bs, rfl, trivial⟩

/-- Sequencing: what follows may rely on what the first value satisfies. -/
theorem Answers.bind {f : α → Cursor ε β} (hp : Answers n p P)
    (hf : ∀ a, P a → Answers 0 (f a) Q) : Answers n (p >>= f) Q := by
  intro b hb
  rcases hp b hb with ⟨e, he⟩ | ⟨a, r, ha, hP⟩
  · exact .inl ⟨e, by rw [bind_apply, he]; rfl⟩
  · have hr := hf a hP r (Nat.zero_le _)
    rw [bind_apply, ha]
    exact hr

/-- A length check makes an unconditional decoder of a conditional one. -/
theorem Answers.ensure (e : Nat → ε) (hp : Answers n p P) :
    Answers 0 (Cursor.ensure n e >>= fun _ ↦ p) P := by
  intro b _
  by_cases hb : n ≤ b.length
  · rw [ensure_bind_of_le e p hb]
    exact hp b hb
  · exact .inl ⟨_, by rw [bind_apply, ensure_of_lt e (Nat.not_le.mp hb)]; rfl⟩

theorem Answers.optional {present : Bool} (hp : Answers 0 p P) :
    Answers 0 (Cursor.optional present p) fun x ↦ ∀ a, x = some a → P a := by
  cases present with
  | false => exact Answers.pure (by simp)
  | true =>
    refine Answers.bind hp fun a ha ↦ Answers.pure ?_
    intro x hx
    exact Option.some.inj hx ▸ ha

end Cursor
end Cpxy.Base
