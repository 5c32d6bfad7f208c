import Disasm.Bytes.Order
import Disasm.Decimal.Binary

/-!
# Scalars

The primitive values that byte streams hold: integers with and without sign
and binary floating-point numbers.  A value is kept as its bit pattern, a
natural number below `256 ^ size`.
-/

namespace Disasm

/-- A primitive type. -/
inductive Scalar
  | u8 | i8 | u16 | i16 | u32 | i32 | u64 | i64 | f32 | f64
deriving DecidableEq

namespace Scalar

/-- The number of bytes a value takes. -/
def size : Scalar → Nat
  | u8 | i8 => 1
  | u16 | i16 => 2
  | u32 | i32 | f32 => 4
  | u64 | i64 | f64 => 8

/-- The bit patterns of a width. -/
def modulus (k : Scalar) : Nat := 256 ^ k.size

/-- A bit pattern read in two's complement. -/
def signed (k : Scalar) (bits : Nat) : Int :=
  if 2 * bits < k.modulus then bits else bits - k.modulus

/-- The bit pattern of an integer in two's complement. -/
def pattern (k : Scalar) (n : Int) : Nat := (n % k.modulus).toNat

/-- The text of a value. -/
def text (k : Scalar) (bits : Nat) : String :=
  match k with
  | u8 | u16 | u32 | u64 => toString bits
  | i8 | i16 | i32 | i64 => toString (k.signed bits)
  | f32 => Decimal.Binary.single.text bits
  | f64 => Decimal.Binary.double.text bits

end Scalar

end Disasm
