/-!
# The shortest decimal that names a binary number

A binary floating-point number stands for all reals that round to it.  Of the
decimals in that interval the shortest is the one whose last digit has the
highest place; of two such the nearer to the number itself, and of two equally
near the greater.  All arithmetic is exact.
-/

namespace Disasm.Decimal

/-- A positive number `4 * mantissa * 2 ^ exponent` with the interval of reals
that round to it, in quarters of a unit of the mantissa: it reaches two
quarters up, and two quarters down or only one where the numbers below lie
closer. -/
structure Rounded where
  /-- The number in units of `2 ^ (exponent + 2)`. -/
  mantissa : Nat
  /-- The binary exponent of a quarter of a unit. -/
  exponent : Int
  /-- Whether the next number below is only half as far as the next above. -/
  narrowBelow : Bool
deriving DecidableEq

/-- A decimal `digits * 10 ^ place`. -/
structure Numeral where
  digits : Nat
  place : Int
deriving DecidableEq

namespace Rounded

/-- `10 ^ place` and the number's quarter unit as `den` and `num` over one
common divisor. -/
def scale (r : Rounded) (place : Int) : Nat × Nat :=
  (2 ^ r.exponent.toNat * 10 ^ (-place).toNat,
    2 ^ (-r.exponent).toNat * 10 ^ place.toNat)

/-- The decimal with its last digit at `place` that lies in the interval, if
there is one: one of the two neighbours of the number on that grid. -/
def atPlace (r : Rounded) (place : Int) : Option Numeral :=
  let (num, den) := r.scale place
  let value := 4 * r.mantissa * num
  let low := (4 * r.mantissa - (if r.narrowBelow then 1 else 2)) * num
  let high := (4 * r.mantissa + 2) * num
  let even := r.mantissa % 2 = 0
  let below := value / den
  let down : Bool := low < below * den ∨ (even ∧ low = below * den)
  let up : Bool := (below + 1) * den < high ∨ (even ∧ (below + 1) * den = high)
  let nearerDown : Bool := 2 * (value - below * den) < den
  if down && (nearerDown || !up) then some ⟨below, place⟩
  else if up then some ⟨below + 1, place⟩
  else none

/-- The first hit on `count` grids, from the one at `place` downwards. -/
def search (r : Rounded) : Nat → Int → Option Numeral
  | 0, _ => none
  | count + 1, place => (r.atPlace place).or (r.search count (place - 1))

end Rounded

/-- The digits of `n`, in base ten. -/
def digitText (n : Nat) : List Char := Nat.toDigits 10 n

/-- A decimal without an exponent: zeros fill the places up to the point. -/
def Numeral.positional (d : Numeral) : String :=
  let cs := digitText d.digits
  let places := (-d.place).toNat
  if places = 0 then String.ofList (cs ++ List.replicate d.place.toNat '0')
  else
    let filled := List.replicate (places + 1 - cs.length) '0' ++ cs
    String.ofList (filled.take (filled.length - places))
      ++ "." ++ String.ofList (filled.drop (filled.length - places))

end Disasm.Decimal
