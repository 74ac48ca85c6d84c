import Cpxy.Base.BigEndian
import Cpxy.Base.Outcome

/-!
# Incremental parsers

Library `Base`. A parser that is handed all bytes so far and answers that it wants more,
that it takes a number of them, or that they are wrong. It is stable when more bytes change
no answer but the first.
-/

namespace Cpxy.Base

variable {ε α : Type}

/-- Given the bytes so far: more are wanted, or a value was read from so many of them. -/
abbrev Incremental (ε α : Type) := Bytes → Outcome ε (Option (Nat × α))

/-- Values and errors persist when bytes follow, and a value lies within its input. -/
structure Stable (p : Incremental ε α) : Prop where
  complete : ∀ b n a, p b = .ok (some (n, a)) → n ≤ b.length ∧ ∀ x, p (b ++ x) = .ok (some (n, a))
  error : ∀ b e, p b = .err e → ∀ x, ∃ e', p (b ++ x) = .err e'
  total : ∀ b, p b ≠ .panicked

/-- The parser answers: more, an error, or a value that lies within its input. -/
def Answered (p : Incremental ε α) (b : Bytes) : Prop :=
  p b = .ok none ∨ (∃ e, p b = .err e) ∨ ∃ n a, p b = .ok (some (n, a)) ∧ n ≤ b.length

/-- A parser that always answers is stable when bytes after a decided input change nothing. -/
theorem Stable.of_decided {p : Incremental ε α} (ha : ∀ b, Answered p b)
    (hd : ∀ b x, p b ≠ .ok none → p (b ++ x) = p b) : Stable p where
  complete b n a h := by
    constructor
    · rcases ha b with hm | ⟨e, he⟩ | ⟨n', a', hv, hn⟩
      · simp [h] at hm
      · simp [h] at he
      · rw [h] at hv
        cases hv
        exact hn
    · intro x
      rw [hd b x (by simp [h]), h]
  error b e h x := by
    refine ⟨e, ?_⟩
    rw [hd b x (by simp [h]), h]
  total b h := by
    rcases ha b with hm | ⟨e, he⟩ | ⟨n', a', hv, _⟩
    · simp [h] at hm
    · simp [h] at he
    · simp [h] at hv

/-- The number that comes with a value says which bytes the value was read from. -/
def Exact (p : Incremental ε α) : Prop :=
  ∀ b n a, p b = .ok (some (n, a)) → p (b.take n) = .ok (some (n, a))

/-- What the parser reads from the bytes, if it reads anything. -/
def reads (p : Incremental ε α) (b : Bytes) : Option (Nat × α) :=
  match p b with
  | .ok r => r
  | .err _ => none
  | .panicked => none

variable {p : Incremental ε α} {b : Bytes}

theorem Stable.reads_of_complete (hp : Stable p) {n : Nat} {a : α}
    (h : p b = .ok (some (n, a))) (x : Bytes) : reads p (b ++ x) = some (n, a) := by
  simp only [reads, (hp.complete b n a h).2 x]

theorem Stable.reads_of_error (hp : Stable p) {e : ε} (h : p b = .err e) (x : Bytes) :
    reads p (b ++ x) = none := by
  obtain ⟨e', he⟩ := hp.error b e h x
  simp only [reads, he]

theorem reads_eq_none (h : ∀ n a, p b ≠ .ok (some (n, a))) : reads p b = none := by
  unfold reads
  split
  · next r heq =>
    cases r with
    | none => rfl
    | some r => exact absurd heq (h r.1 r.2)
  · rfl
  · rfl

/-- What is read persists, and lies within the input. -/
theorem Stable.of_reads (hp : Stable p) {n : Nat} {a : α} (h : reads p b = some (n, a)) :
    p b = .ok (some (n, a)) ∧ n ≤ b.length := by
  unfold reads at h
  split at h
  · next heq =>
    rw [h] at heq
    exact ⟨heq, (hp.complete b n a heq).1⟩
  · cases h
  · cases h

theorem reads_of_more (h : p b = .ok none) : reads p b = none := by
  simp only [reads, h]

/-- With the bytes of a value, all of it is there. -/
theorem Stable.reads_take (hp : Stable p) (he : Exact p) {n m : Nat} {a : α}
    (h : reads p b = some (n, a)) (hm : n ≤ m) : reads p (b.take m) = some (n, a) := by
  have hb := (hp.of_reads h).1
  have htake : b.take m = b.take n ++ (b.drop n).take (m - n) := by
    rw [← List.take_add, Nat.add_sub_cancel' hm]
  rw [htake]
  exact hp.reads_of_complete (he b n a hb) _

/-- What a loop that asks again with more bytes needs of a parser: it always answers, its
values stay and are not to be had from fewer bytes, and its errors stay errors. -/
structure PrefixExact (p : Incremental ε α) : Prop where
  total : ∀ b, p b ≠ .panicked
  complete : ∀ b n a, p b = .ok (some (n, a)) → n ≤ b.length ∧
    (∀ x, p (b ++ x) = .ok (some (n, a))) ∧ ∀ c, c <+: b.take n → c ≠ b.take n → p c = .ok none
  error : ∀ b e, p b = .err e → ∀ x, ∃ e', p (b ++ x) = .err e'

/-- While bytes of a value are missing, more are wanted. -/
theorem Stable.more_of_strict_prefix (hp : Stable p) {c : Bytes} {n : Nat} {a : α}
    (hb : p b = .ok (some (n, a))) (hn : c.length < n) (hc : c <+: b) : p c = .ok none := by
  obtain ⟨x, rfl⟩ := hc
  cases hpc : p c with
  | panicked => exact absurd hpc (hp.total c)
  | err e =>
    obtain ⟨e', he⟩ := hp.error c e hpc x
    rw [hb] at he
    cases he
  | ok r =>
    cases r with
    | none => rfl
    | some r =>
      obtain ⟨hle, hext⟩ := hp.complete c r.1 r.2 hpc
      rw [hext x] at hb
      cases hb
      omega

theorem Stable.prefixExact (hp : Stable p) (he : Exact p) : PrefixExact p where
  total := hp.total
  complete b n a h := by
    obtain ⟨hn, hx⟩ := hp.complete b n a h
    refine ⟨hn, hx, ?_⟩
    intro c hc hne
    have hlen : (b.take n).length = n := List.length_take_of_le hn
    have hlt : c.length < n := by
      rw [← hlen]
      exact Nat.lt_of_le_of_ne hc.length_le fun heq ↦ hne (hc.eq_of_length heq)
    exact hp.more_of_strict_prefix (he b n a h) hlt hc
  error := hp.error

/-! ### Parsers for a single word -/

/-- A parser that knows one word, and rejects what cannot become it. -/
def onlyWord (word : Bytes) (e : ε) (a : α) : Incremental ε α := fun b ↦
  if word <+: b then .ok (some (word.length, a))
  else if b <+: word then .ok none
  else .err e

theorem onlyWord_self (word : Bytes) (e : ε) (a : α) :
    onlyWord word e a word = .ok (some (word.length, a)) :=
  if_pos (List.prefix_refl word)

theorem onlyWord_stable (word : Bytes) (e : ε) (a : α) : Stable (onlyWord word e a) := by
  apply Stable.of_decided
  · intro b
    unfold Answered onlyWord
    split
    · next h => exact .inr (.inr ⟨_, _, rfl, h.length_le⟩)
    · split
      · exact .inl rfl
      · exact .inr (.inl ⟨_, rfl⟩)
  · intro b x h
    unfold onlyWord at h ⊢
    by_cases hb : word <+: b
    · rw [if_pos hb, if_pos (hb.trans (List.prefix_append b x))]
    · rw [if_neg hb] at h
      by_cases hb' : b <+: word
      · rw [if_pos hb'] at h
        exact absurd rfl h
      · have hx : ¬ word <+: b ++ x := by
          intro hpre
          exact (List.prefix_or_prefix_of_prefix hpre (List.prefix_append b x)).elim hb hb'
        have hx' : ¬ b ++ x <+: word := fun hpre ↦ hb' ((List.prefix_append b x).trans hpre)
        rw [if_neg hb, if_neg hb', if_neg hx, if_neg hx']

/-- The parser wants more while it has seen a part of the word only, and reads the value from
the word whatever follows. -/
structure ReadsWord (p : Incremental ε α) (word : Bytes) (a : α) : Prop where
  more : ∀ c, c <+: word → c ≠ word → p c = .ok none
  complete : ∀ x, p (word ++ x) = .ok (some (word.length, a))

/-- On streams that begin with the word, nothing else about the parser shows. -/
theorem ReadsWord.eq_onlyWord {word : Bytes} {a : α} (h : ReadsWord p word a) (e : ε) {x : Bytes}
    (hb : b <+: word ++ x) : p b = onlyWord word e a b := by
  rw [onlyWord]
  by_cases hword : word <+: b
  · rw [if_pos hword]
    obtain ⟨y, rfl⟩ := hword
    exact h.complete y
  · have hshort : b <+: word :=
      (List.prefix_or_prefix_of_prefix hb (List.prefix_append word x)).resolve_right hword
    rw [if_neg hword, if_pos hshort]
    apply h.more b hshort
    rintro rfl
    exact hword (List.prefix_refl b)

theorem Stable.readsWord (hp : Stable p) {word : Bytes} {a : α}
    (h : p word = .ok (some (word.length, a))) : ReadsWord p word a where
  more c hc hne := by
    have hlt : c.length < word.length :=
      Nat.lt_of_le_of_ne hc.length_le fun heq ↦ hne (hc.eq_of_length heq)
    exact hp.more_of_strict_prefix h hlt hc
  complete := (hp.complete word _ a h).2

theorem onlyWord_readsWord (word : Bytes) (e : ε) (a : α) :
    ReadsWord (onlyWord word e a) word a :=
  (onlyWord_stable word e a).readsWord (onlyWord_self word e a)

theorem onlyWord_exact (word : Bytes) (e : ε) (a : α) : Exact (onlyWord word e a) := by
  intro b n a' h
  unfold onlyWord at h ⊢
  split at h
  · next hpre =>
    cases h
    rw [← List.prefix_iff_eq_take.mp hpre, if_pos (List.prefix_refl _)]
  · split at h <;> cases h

end Cpxy.Base
