import Cpxy.Base.Cursor
import Cpxy.Base.Dialogue

/-!
# Programs that talk

Library `Base`. A program that reads from a stream and writes to it in turn, run on the bytes
that have arrived so far: a read that wants more fails. What the program has written up to
there is what it writes while it waits, and more bytes only add to it. So a program is a
party of a dialogue.
-/

namespace Cpxy.Base

/-- What is written, and the value with the bytes that were not read. -/
def Talk (ε α : Type) := Bytes → Bytes × Outcome ε (α × Bytes)

namespace Talk

variable {ε α β : Type}

/-- The next program goes on with the bytes that were left. -/
protected def bind (t : Talk ε α) (f : α → Talk ε β) : Talk ε β := fun b ↦
  match t b with
  | (w, .ok (a, rest)) => (w ++ (f a rest).1, (f a rest).2)
  | (w, .err e) => (w, .err e)
  | (w, .panicked) => (w, .panicked)

instance : Monad (Talk ε) where
  pure a := fun b ↦ ([], .ok (a, b))
  bind := Talk.bind

/-- Only read. -/
def read (p : Cursor ε α) : Talk ε α := fun b ↦ ([], p b)

/-- `write_all` to a writer that takes all it is given. -/
def write (bytes : Bytes) : Talk ε Unit := fun b ↦ (bytes, .ok ((), b))

/-- The value of a call that neither reads nor writes. -/
def attempt (o : Outcome ε α) : Talk ε α := fun b ↦
  ([], do
    let a ← o
    .ok (a, b))

/-- Fail. -/
def throw (e : ε) : Talk ε α := fun _ ↦ ([], .err e)

/-- Add an outer description to an error. -/
def context (text : String) (t : Talk ErrorChain α) : Talk ErrorChain α := fun b ↦
  ((t b).1, (t b).2.context text)

theorem bind_apply (t : Talk ε α) (f : α → Talk ε β) (b : Bytes) :
    (t >>= f) b =
      match t b with
      | (w, .ok (a, rest)) => (w ++ (f a rest).1, (f a rest).2)
      | (w, .err e) => (w, .err e)
      | (w, .panicked) => (w, .panicked) := rfl

theorem bind_of_ok {t : Talk ε α} {f : α → Talk ε β} {b w rest : Bytes} {a : α}
    (h : t b = (w, .ok (a, rest))) : (t >>= f) b = (w ++ (f a rest).1, (f a rest).2) := by
  rw [bind_apply, h]

theorem bind_of_err {t : Talk ε α} {f : α → Talk ε β} {b w : Bytes} {e : ε}
    (h : t b = (w, .err e)) : (t >>= f) b = (w, .err e) := by
  rw [bind_apply, h]

@[simp] theorem pure_apply (a : α) (b : Bytes) : (pure a : Talk ε α) b = ([], .ok (a, b)) := rfl

@[simp] theorem read_apply (p : Cursor ε α) (b : Bytes) : read p b = ([], p b) := rfl

@[simp] theorem write_apply (bytes b : Bytes) :
    (write bytes : Talk ε Unit) b = (bytes, .ok ((), b)) := rfl

@[simp] theorem throw_apply (e : ε) (b : Bytes) : (throw e : Talk ε α) b = ([], .err e) := rfl

@[simp] theorem attempt_ok (a : α) (b : Bytes) :
    (attempt (.ok a) : Talk ε α) b = ([], .ok (a, b)) := rfl

@[simp] theorem context_apply (text : String) (t : Talk ErrorChain α) (b : Bytes) :
    context text t b = ((t b).1, (t b).2.context text) := rfl

/-- A value stays when more bytes follow, which are left, and what was written stays written. -/
structure Causal (t : Talk ε α) : Prop where
  done : ∀ {b a rest}, (t b).2 = .ok (a, rest) → ∀ x, t (b ++ x) = ((t b).1, .ok (a, rest ++ x))
  grows : ∀ b x, (t b).1 <+: (t (b ++ x)).1

namespace Causal

theorem pure (a : α) : Causal (Pure.pure a : Talk ε α) where
  done h x := by
    cases h
    rfl
  grows _ _ := List.prefix_rfl

theorem write (bytes : Bytes) : Causal (Talk.write bytes : Talk ε Unit) where
  done h x := by
    cases h
    rfl
  grows _ _ := List.prefix_rfl

theorem throw (e : ε) : Causal (Talk.throw e : Talk ε α) where
  done h := by cases h
  grows _ _ := List.prefix_rfl

theorem attempt (o : Outcome ε α) : Causal (Talk.attempt o) where
  done h x := by
    obtain ⟨a, ha, hr⟩ := Outcome.bind_eq_ok_iff.mp h
    cases hr
    rw [ha]
    rfl
  grows _ _ := List.prefix_rfl

theorem read {p : Cursor ε α} (h : p.Persists) : Causal (Talk.read p) where
  done hb x := by
    rw [read_apply, read_apply, h _ _ _ hb x]
  grows _ _ := List.prefix_rfl

theorem context {t : Talk ErrorChain α} (h : Causal t) (text : String) :
    Causal (t.context text) where
  done hb x := by
    rw [context_apply, Outcome.context_eq_ok] at hb
    rw [context_apply, context_apply, h.done hb x]
    rfl
  grows b x := h.grows b x

/-- Whatever comes behind a program, what it has written comes first. -/
private theorem fst_prefix_bind (t : Talk ε α) (f : α → Talk ε β) (b : Bytes) :
    (t b).1 <+: ((t >>= f) b).1 := by
  rw [bind_apply]
  split
  · next w a rest heq =>
    rw [heq]
    exact List.prefix_append _ _
  · next heq => rw [heq]
  · next heq => rw [heq]

theorem bind {t : Talk ε α} {f : α → Talk ε β} (ht : Causal t) (hf : ∀ a, Causal (f a)) :
    Causal (t >>= f) where
  done := by
    intro b c rest h x
    rw [bind_apply] at h
    split at h
    · next w a mid heq =>
      have hb : (t b).2 = .ok (a, mid) := by rw [heq]
      have hx := ht.done hb x
      rw [heq] at hx
      rw [bind_of_ok hx, bind_of_ok heq, (hf a).done h x]
    · cases h
    · cases h
  grows := by
    intro b x
    cases hb : (t b).2 with
    | ok r =>
      obtain ⟨a, mid⟩ := r
      rw [bind_of_ok (ht.done hb x), bind_of_ok (Prod.ext rfl hb)]
      exact (List.prefix_append_right_inj _).mpr ((hf a).grows mid x)
    | err e =>
      rw [bind_of_err (Prod.ext rfl hb)]
      exact (ht.grows b x).trans (fst_prefix_bind t f _)
    | panicked =>
      have hp : (t >>= f) b = ((t b).1, .panicked) := by
        have ht : t b = ((t b).1, .panicked) := Prod.ext rfl hb
        rw [bind_apply, ht]
      rw [hp]
      exact (ht.grows b x).trans (fst_prefix_bind t f _)

/-- The program as a party: what it has written once these bytes have arrived. -/
def party {t : Talk ε α} (h : Causal t) : Party UInt8 UInt8 where
  writes b := (t b).1
  mono := by
    rintro b _ ⟨x, rfl⟩
    exact h.grows b x

end Causal
end Talk
end Cpxy.Base
