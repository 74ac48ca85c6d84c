import Cpxy.Base.BigEndian
import Cpxy.Base.Outcome

/-!
# Polled byte sinks

Library `Base`. A polled writer answers an offered slice with `pending`, with the number of
bytes it took from the front of it, or with an error. A schedule of answers stands for
every behaviour of the writer underneath.
-/

namespace Cpxy.Base

/-- How the writer answers one call: not now, up to so many bytes, or an error. -/
inductive Answer where
  | pending
  | ready (limit : Nat)
  | failed (e : ErrorChain)
  deriving DecidableEq, Repr

namespace Answer

/-- `poll_write` of a writer that answers so: its result and the bytes it took. -/
def pollWrite (a : Answer) (offered : Bytes) : Poll (Outcome ErrorChain Nat) × Bytes :=
  match a with
  | .pending => (.pending, [])
  | .ready limit => (.ready (.ok (min limit offered.length)), offered.take limit)
  | .failed e => (.ready (.err e), [])

/-- `poll_write_vectored` of a writer that answers so: it takes from the front of what the
slices hold together. -/
def pollWriteVectored (a : Answer) (bufs : List Bytes) :
    Poll (Outcome ErrorChain Nat) × Bytes :=
  a.pollWrite bufs.flatten

/-- The answers of a writer that does not fail. -/
def ofLimit : Option Nat → Answer
  | none => .pending
  | some limit => .ready limit

/-- The answer to the next call of a writer that does not fail. -/
theorem headD_ofLimit (answers : List (Option Nat)) :
    (answers.map ofLimit).headD .pending = .ofLimit (answers.headD none) := by
  cases answers <;> rfl

end Answer

/-- What a write accepted: the prefix of the buffer that its result reports. -/
def acceptedPrefix (buf : Bytes) : Poll (Outcome ErrorChain Nat) → Bytes
  | .ready (.ok n) => buf.take n
  | _ => []

end Cpxy.Base
