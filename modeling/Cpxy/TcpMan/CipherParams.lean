import Cpxy.Base.Base64
import Cpxy.TcpMan.Cipher

/-!
# Cipher parameters in a path

Library `TcpMan`. Source `src/protocol/tcpman/cipher/client.rs:18–56` and
`src/protocol/tcpman/cipher/strategy.rs:15–23,55–71`. The client names key, initialisation
vector, strategies and cipher in the path of its request, and the server reads them back.
-/

namespace Cpxy.TcpMan

open Cpxy.Base

namespace EncryptionStrategy

/-- `Display for EncryptionStrategy`; `strategy.rs:15–23`. -/
def display : EncryptionStrategy → String
  | .firstN n => toString n.val
  | .always => "a"
  | .never => "n"

/-- `FromStr for EncryptionStrategy`; `strategy.rs:55–71`. -/
def fromStr (v : String) : Outcome ErrorChain EncryptionStrategy :=
  match parseUnsigned (2 ^ 64) v.toList with
  | .ok n =>
    if h : 0 < n ∧ n < 2 ^ 64 then .ok (.firstN ⟨n, h⟩)
    else .err [s!"Invalid enc strategy {v}"]
  | .error _ =>
    if v = "n" then .ok .never
    else if v = "a" then .ok .always
    else .err [s!"Invalid enc strategy {v}"]

theorem fromStr_total (v : String) : fromStr v ≠ .panicked := by
  rw [fromStr]
  split
  · split <;> simp
  · split
    · simp
    · split <;> simp

/-- A printed strategy is read back. -/
theorem fromStr_display (s : EncryptionStrategy) : fromStr s.display = .ok s := by
  cases s with
  | firstN n =>
    rw [fromStr, display, parseUnsigned_toString n.property.2]
    exact dif_pos n.property
  | always => decide
  | never => decide

theorem slash_not_mem_display (s : EncryptionStrategy) : '/' ∉ s.display.toList := by
  cases s with
  | firstN n =>
    intro h
    exact digitVal_of_mem_toString '/' h (by decide)
  | always => decide
  | never => decide

end EncryptionStrategy

/-- `CipherParams`; `client.rs:18–24`. -/
structure CipherParams where
  key : Bytes
  iv : Bytes
  sendStrategy : EncryptionStrategy
  recvStrategy : EncryptionStrategy
  cipherType : UInt8
  deriving DecidableEq

namespace CipherParams

/-- `Display for CipherParams`; `client.rs:26–37`. -/
def display (p : CipherParams) : String :=
  "/" ++ Base64.encodeText p.key ++ "/" ++ Base64.encodeText p.iv ++ "/" ++
    p.sendStrategy.display ++ "/" ++ p.recvStrategy.display ++ "/" ++ toString p.cipherType.toNat

/-- `decode_engine`, unless the text is no encoding; the crate's own error text is left out. -/
def decodeEngine (text : Bytes) : Outcome ErrorChain Bytes :=
  match Base64.decode text with
  | some b => .ok b
  | none => .err []

/-- `FromStr for CipherParams`; `client.rs:39–56`. What stands before the first slash, and
behind the fifth part, does not matter. -/
def fromStr (s : String) : Outcome ErrorChain CipherParams :=
  match (splitAll '/' s.toList).tail with
  | k :: iv :: ss :: rs :: t :: _ => do
    let key ← (decodeEngine (asBytes (String.ofList k))).context "Decoding key"
    let iv ← (decodeEngine (asBytes (String.ofList iv))).context "Decoding iv"
    let sendStrategy ←
      (EncryptionStrategy.fromStr (String.ofList ss)).context "parse send_strategy"
    let recvStrategy ←
      (EncryptionStrategy.fromStr (String.ofList rs)).context "parse recv_strategy"
    match parseUnsigned 256 t with
    | .ok t => .ok ⟨key, iv, sendStrategy, recvStrategy, UInt8.ofNat t⟩
    | .error e => .err ["parse cipher_type", e]
  | _ => .err [s!"Invalid URL {s}"]

theorem decodeEngine_encodeText (b : Bytes) :
    decodeEngine (asBytes (Base64.encodeText b)) = .ok b := by
  rw [decodeEngine, Base64.decode_encodeText]

/-- The parts of a printed path. -/
theorem splitAll_display (p : CipherParams) :
    splitAll '/' p.display.toList =
      [[], (Base64.encodeText p.key).toList, (Base64.encodeText p.iv).toList,
        p.sendStrategy.display.toList, p.recvStrategy.display.toList,
        (toString p.cipherType.toNat).toList] := by
  have hnum : '/' ∉ (toString p.cipherType.toNat).toList := fun h ↦
    digitVal_of_mem_toString '/' h (by decide)
  have hlist : p.display.toList =
      [] ++ '/' :: ((Base64.encodeText p.key).toList ++ '/' :: ((Base64.encodeText p.iv).toList ++
        '/' :: (p.sendStrategy.display.toList ++ '/' :: (p.recvStrategy.display.toList ++
          '/' :: (toString p.cipherType.toNat).toList)))) := by
    simp [display]
  rw [hlist, splitAll_append List.not_mem_nil, splitAll_append (Base64.slash_not_mem_encodeText _),
    splitAll_append (Base64.slash_not_mem_encodeText _),
    splitAll_append (EncryptionStrategy.slash_not_mem_display _),
    splitAll_append (EncryptionStrategy.slash_not_mem_display _), splitAll_of_not_mem hnum]

/-- Printed parameters are read back. -/
theorem fromStr_display (p : CipherParams) : fromStr p.display = .ok p := by
  rw [fromStr, splitAll_display]
  simp only [List.tail_cons, String.ofList_toList, decodeEngine_encodeText, Outcome.context_ok,
    Outcome.ok_bind, EncryptionStrategy.fromStr_display]
  rw [parseUnsigned_toString p.cipherType.toNat_lt]
  dsimp only
  rw [UInt8.ofNat_toNat]

/-- Whatever the client picks, the server reads it off the path: no two parameters share a path,
and from each path the parameters come back, with every field as it was. -/
theorem params_survive_path :
    (∀ (key iv : Bytes) (sendStrategy recvStrategy : EncryptionStrategy) (cipherType : UInt8),
      fromStr (display ⟨key, iv, sendStrategy, recvStrategy, cipherType⟩) =
        .ok ⟨key, iv, sendStrategy, recvStrategy, cipherType⟩) ∧
      Function.Injective display := by
  constructor
  · intro key iv sendStrategy recvStrategy cipherType
    exact fromStr_display ⟨key, iv, sendStrategy, recvStrategy, cipherType⟩
  · intro p q hpath
    have hp := fromStr_display p
    rw [hpath, fromStr_display q] at hp
    exact (Outcome.ok.inj hp).symm

/-- Nothing in the path makes the server panic before it has the parameters. -/
theorem fromStr_total (s : String) : fromStr s ≠ .panicked := by
  have hengine (b : Bytes) : decodeEngine b ≠ .panicked := by
    rw [decodeEngine]
    cases Base64.decode b <;> simp
  have hcontext {α : Type} {text : String} {x : Outcome ErrorChain α} (h : x ≠ .panicked) :
      x.context text ≠ .panicked :=
    fun hx ↦ h (Outcome.mapErr_eq_panicked.mp hx)
  rw [fromStr]
  split
  · apply Outcome.bind_ne_panicked (hcontext (hengine _))
    intro key _
    apply Outcome.bind_ne_panicked (hcontext (hengine _))
    intro iv _
    apply Outcome.bind_ne_panicked (hcontext (EncryptionStrategy.fromStr_total _))
    intro sendStrategy _
    apply Outcome.bind_ne_panicked (hcontext (EncryptionStrategy.fromStr_total _))
    intro recvStrategy _
    split <;> simp
  · simp

end CipherParams
end Cpxy.TcpMan
