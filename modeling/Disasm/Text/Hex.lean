/-!
# Hexadecimal numbers as text

Numbers in base sixteen appear in two shapes: bare digits in capitals, for
opcodes and labels, and small digits behind the mark `0x`, for addresses, tags
and values.  Both may be filled with zeros up to a least number of digits.
-/

namespace Disasm.Text.Hex

/-- The digits of `n` in base sixteen, filled with zeros up to `width`. -/
def digits (width n : Nat) : List Char :=
  List.replicate (width - (Nat.toDigits 16 n).length) '0' ++ Nat.toDigits 16 n

/-- Bare digits in capitals. -/
def upper (width n : Nat) : String :=
  String.ofList ((digits width n).map Char.toUpper)

/-- Small digits behind the mark `0x`. -/
def marked (width n : Nat) : String :=
  "0x" ++ String.ofList (digits width n)

/-- Two capital digits. -/
def byte (b : UInt8) : String := upper 2 b.toNat

/-- The bytes in capitals, one space apart. -/
def bytes (bs : List UInt8) : String := " ".intercalate (bs.map byte)

/-- The value of a digit of either case. -/
def value? (c : Char) : Option Nat :=
  if '0' ≤ c ∧ c ≤ '9' then some (c.toNat - '0'.toNat)
  else if 'a' ≤ c ∧ c ≤ 'f' then some (c.toNat - 'a'.toNat + 10)
  else if 'A' ≤ c ∧ c ≤ 'F' then some (c.toNat - 'A'.toNat + 10)
  else none

/-- A byte written with two characters: two digits, or a plus sign and one
digit. -/
def pair? : List Char → Option UInt8
  | ['+', low] => (value? low).map UInt8.ofNat
  | [high, low] => do
    let h ← value? high
    let l ← value? low
    some (UInt8.ofNat (16 * h + l))
  | _ => none

end Disasm.Text.Hex
