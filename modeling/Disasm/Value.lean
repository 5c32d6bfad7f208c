import Disasm.Bytes.Scalar

/-!
# Answers of steps

What a step of a reading program answers.
-/

namespace Disasm

/-- The answer of a step that succeeds. -/
inductive Value
  /-- Nothing but the success. -/
  | unit
  /-- A scalar, as its bit pattern. -/
  | scalar (kind : Scalar) (bits : Nat)
  /-- Scalars of one kind. -/
  | scalars (kind : Scalar) (bits : List Nat)
  /-- A number that was stored in the bytes. -/
  | number (n : Nat)
  /-- A position or an amount. -/
  | count (n : Nat)
  /-- A bound, if there is one. -/
  | bound (n : Option Nat)
  /-- Raw bytes. -/
  | bytes (bs : Bytes)
  /-- A text. -/
  | text (s : String)
  /-- A truth value. -/
  | flag (b : Bool)
  /-- A byte order. -/
  | order (o : ByteOrder)
  /-- A byte list with its byte order. -/
  | data (bs : Bytes) (o : ByteOrder)
deriving DecidableEq

end Disasm
