import Disasm.Decimal.Shortest

/-!
# Binary floating-point numbers as text

A number is given by its bits: sign, exponent and fraction.  Its text is the
shortest decimal that names it, without an exponent and without a point where
no digit follows.
-/

namespace Disasm.Decimal

/-- A binary interchange format. -/
structure Binary where
  /-- Bits of the fraction. -/
  fractionBits : Nat
  /-- Bits of the exponent. -/
  exponentBits : Nat
  /-- The place of the highest decimal grid that a number can hit. -/
  topPlace : Nat
  /-- How many grids below it can be needed. -/
  grids : Nat

namespace Binary

/-- Four bytes. -/
def single : Binary := ⟨23, 8, 39, 100⟩

/-- Eight bytes. -/
def double : Binary := ⟨52, 11, 309, 660⟩

/-- The exponent of the number one. -/
def bias (b : Binary) : Nat := 2 ^ (b.exponentBits - 1) - 1

/-- The fraction of a bit pattern. -/
def fraction (b : Binary) (bits : Nat) : Nat := bits % 2 ^ b.fractionBits

/-- The stored exponent of a bit pattern. -/
def storedExponent (b : Binary) (bits : Nat) : Nat :=
  bits / 2 ^ b.fractionBits % 2 ^ b.exponentBits

/-- Whether the sign bit is set. -/
def negative (b : Binary) (bits : Nat) : Bool :=
  bits / 2 ^ (b.fractionBits + b.exponentBits) % 2 = 1

/-- The magnitude of a finite number that is not zero. -/
def rounded (b : Binary) (bits : Nat) : Rounded :=
  let f := b.fraction bits
  let e := b.storedExponent bits
  { mantissa := if e = 0 then f else 2 ^ b.fractionBits + f
    exponent := (if e = 0 then 1 else e : Nat) - (b.bias + b.fractionBits + 2 : Nat)
    narrowBelow := f = 0 ∧ 1 < e }

/-- The text of a magnitude. -/
def magnitude (b : Binary) (bits : Nat) : String :=
  if b.fraction bits = 0 ∧ b.storedExponent bits = 0 then "0"
  else
    match (b.rounded bits).search b.grids b.topPlace with
    | some d => d.positional
    | none => "0"

/-- The text of a bit pattern. -/
def text (b : Binary) (bits : Nat) : String :=
  let sign := if b.negative bits then "-" else ""
  if b.storedExponent bits = 2 ^ b.exponentBits - 1 then
    if b.fraction bits = 0 then sign ++ "inf" else "NaN"
  else sign ++ b.magnitude bits

end Binary

end Disasm.Decimal
