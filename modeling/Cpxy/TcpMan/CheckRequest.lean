import Cpxy.TcpMan.Channel

/-!
# Requests that the server checks

Library `TcpMan`. Source `src/protocol/tcpman/cipher/server.rs:15–47`, with what it calls in
`strategy.rs`, `partial.rs` and `suite.rs` beside it. The path of a request is chosen by the
client. Bad texts, keys and cipher types are answered with an error. A budget is read as a
`usize` and then unwrapped as an `isize`.
-/

namespace Cpxy.TcpMan

open Cpxy.Base

/-- A budget that no `isize` holds is the one thing that cannot be wrapped. -/
theorem wrapCipher_cases {ε : Type} (s : EncryptionStrategy) (c : Cipher) :
    (∃ w, (s.wrapCipher c : Outcome ε StrategyCipher) = .ok w) ∧ s.Counts ∨
      (s.wrapCipher c : Outcome ε StrategyCipher) = .panicked ∧ ¬ s.Counts := by
  cases s with
  | firstN n =>
    rw [EncryptionStrategy.wrapCipher, PartialStreamCipher.new, toIsize, EncryptionStrategy.Counts]
    by_cases h : n.val ≤ isizeMax
    · rw [if_pos h]
      exact .inl ⟨⟨_, rfl⟩, h⟩
    · rw [if_neg h]
      exact .inr ⟨rfl, h⟩
  | always => exact .inl ⟨⟨_, rfl⟩, trivial⟩
  | never => exact .inl ⟨⟨_, rfl⟩, trivial⟩

/-- There is one cipher type, with keys and initialisation vectors of one length. -/
theorem createCipher_cases (chacha20 : Chacha20) (cipherType : UInt8) (key iv : Bytes) :
    createCipher chacha20 cipherType key iv = .ok (Cipher.new (chacha20 key iv)) ∧
        cipherType = 1 ∧ key.length = 32 ∧ iv.length = 12 ∨
      (∃ e, createCipher chacha20 cipherType key iv = .err e) ∧
        ¬ (cipherType = 1 ∧ key.length = 32 ∧ iv.length = 12) := by
  rw [createCipher]
  by_cases htype : cipherType = 1
  · rw [if_pos htype]
    by_cases hlen : key.length = 32 ∧ iv.length = 12
    · rw [if_pos hlen]
      exact .inl ⟨rfl, htype, hlen⟩
    · rw [if_neg hlen]
      exact .inr ⟨⟨_, rfl⟩, fun h ↦ hlen h.2⟩
  · rw [if_neg htype]
    exact .inr ⟨⟨_, rfl⟩, fun h ↦ htype h.1⟩

/-- The parameters name a cipher that there is, and a budget that its counter cannot hold. -/
structure CipherParams.Overdrawn (p : CipherParams) : Prop where
  cipherType : p.cipherType = 1
  key : p.key.length = 32
  iv : p.iv.length = 12
  budget : ¬ p.sendStrategy.Counts ∨ ¬ p.recvStrategy.Counts

/-- The server checks a request without a panic unless its path names such a budget. -/
theorem checkRequest_returns_iff (chacha20 : Chacha20) (path : String) :
    checkRequest chacha20 path ≠ .panicked ↔
      ∀ p, CipherParams.fromStr path = .ok p → ¬ p.Overdrawn := by
  rw [checkRequest]
  cases hpath : CipherParams.fromStr path with
  | panicked => exact absurd hpath (CipherParams.fromStr_total path)
  | err e => simp
  | ok p =>
    simp only [Outcome.ok.injEq, forall_eq']
    rcases createCipher_cases chacha20 p.cipherType p.key p.iv with
      ⟨hcreate, htype, hkey, hiv⟩ | ⟨⟨e, hcreate⟩, hnot⟩
    · have hiff : p.Overdrawn ↔ ¬ p.sendStrategy.Counts ∨ ¬ p.recvStrategy.Counts :=
        ⟨CipherParams.Overdrawn.budget, fun h ↦ ⟨htype, hkey, hiv, h⟩⟩
      rw [hcreate, hiff]
      dsimp only
      rcases wrapCipher_cases (ε := String × String) p.sendStrategy
        (Cipher.new (chacha20 p.key p.iv)) with ⟨⟨rc, hsend⟩, hcounts⟩ | ⟨hsend, hnot⟩
      · rcases wrapCipher_cases (ε := String × String) p.recvStrategy
          (Cipher.new (chacha20 p.key p.iv)) with ⟨⟨wc, hrecv⟩, hcounts'⟩ | ⟨hrecv, hnot⟩
        · simp [hsend, hrecv, hcounts, hcounts']
        · simp [hsend, hrecv, hnot]
      · simp [hsend, hnot]
    · rw [hcreate]
      simp only [ne_eq, reduceCtorEq, not_false_eq_true, true_iff]
      intro h
      exact hnot ⟨h.cipherType, h.key, h.iv⟩

/-- A key of zeros, and a budget of 2^63 bytes to send. -/
private def overdrawnParams : CipherParams where
  key := List.replicate 32 0
  iv := List.replicate 12 0
  sendStrategy := .firstN ⟨2 ^ 63, by decide⟩
  recvStrategy := .never
  cipherType := 1

private def overdrawnPath : String :=
  "/AAAAAAAAAAAAAAAAAAAAAAAAAAAAAAAAAAAAAAAAAAA/AAAAAAAAAAAAAAAA/9223372036854775808/n/1"

/-- One request line makes the server panic. -/
theorem checkRequest_panics :
    ¬ ∀ (chacha20 : Chacha20) (path : String), checkRequest chacha20 path ≠ .panicked := by
  intro h
  have hparams : CipherParams.fromStr overdrawnPath = .ok overdrawnParams := by decide +kernel
  apply h (fun _ _ ↦ zeroKeys) overdrawnPath
  rw [checkRequest, hparams]
  rfl

end Cpxy.TcpMan
