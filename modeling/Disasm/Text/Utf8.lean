/-!
# UTF-8

A character is written as a lead byte and up to three continuation bytes.  The
lead byte fixes the range of each byte after it, so that every character has
one form and no form denotes a surrogate.  Reading stops at the first place
where no character can be read and says where that is and how many bytes could
have begun one.
-/

namespace Disasm.Text.Utf8

/-- The bytes of a character. -/
def encodeChar (c : Char) : List UInt8 :=
  let n := c.toNat
  let rest (k : Nat) : UInt8 := UInt8.ofNat (0x80 + n / 64 ^ k % 64)
  if n < 0x80 then [UInt8.ofNat n]
  else if n < 0x800 then [UInt8.ofNat (0xC0 + n / 64), rest 0]
  else if n < 0x10000 then [UInt8.ofNat (0xE0 + n / 64 ^ (2 : Nat)), rest 1, rest 0]
  else [UInt8.ofNat (0xF0 + n / 64 ^ (3 : Nat)), rest 2, rest 1, rest 0]

/-- The bytes of a text. -/
def encode (s : String) : List UInt8 := s.toList.flatMap encodeChar

/-- Why a byte list is no text. -/
inductive Fault
  /-- The `length` bytes at `start` begin a character and the next byte does
  not go on with it. -/
  | invalid (start length : Nat)
  /-- The bytes end inside the character that begins at `start`. -/
  | incomplete (start : Nat)
deriving DecidableEq

/-- The wording of a fault. -/
def Fault.message : Fault → String
  | .invalid start length =>
    s!"invalid utf-8 sequence of {length} bytes from index {start}"
  | .incomplete start => s!"incomplete utf-8 byte sequence from index {start}"

/-- An inclusive range of byte values. -/
abbrev Range := Nat × Nat

/-- The range of a continuation byte that nothing narrows. -/
def anyTail : Range := (0x80, 0xBF)

/-- What a lead byte announces: the bits it gives itself and the ranges of the
bytes that follow it. -/
def lead? (b : Nat) : Option (Nat × List Range) :=
  if b < 0x80 then some (b, [])
  else if 0xC2 ≤ b ∧ b ≤ 0xDF then some (b - 0xC0, [anyTail])
  else if b = 0xE0 then some (0, [(0xA0, 0xBF), anyTail])
  else if b = 0xED then some (0xD, [(0x80, 0x9F), anyTail])
  else if 0xE1 ≤ b ∧ b ≤ 0xEF then some (b - 0xE0, [anyTail, anyTail])
  else if b = 0xF0 then some (0, [(0x90, 0xBF), anyTail, anyTail])
  else if 0xF1 ≤ b ∧ b ≤ 0xF3 then some (b - 0xF0, [anyTail, anyTail, anyTail])
  else if b = 0xF4 then some (4, [(0x80, 0x8F), anyTail, anyTail])
  else none

/-- Reads on from byte `index`.  `bits` and `wanted` are the value and the open
ranges of a character that began `taken` bytes before; no open range means that
none has begun. -/
def decodeFrom (index taken bits : Nat) :
    List Range → List UInt8 → Except Fault (List Char)
  | [], [] => .ok []
  | _ :: _, [] => .error (.incomplete (index - taken))
  | [], b :: bs =>
    match lead? b.toNat with
    | none => .error (.invalid index 1)
    | some (n, []) => (decodeFrom (index + 1) 0 0 [] bs).map (Char.ofNat n :: ·)
    | some (n, wanted) => decodeFrom (index + 1) 1 n wanted bs
  | (low, high) :: wanted, b :: bs =>
    if low ≤ b.toNat ∧ b.toNat ≤ high then
      let n := bits * 64 + (b.toNat - 0x80)
      match wanted with
      | [] => (decodeFrom (index + 1) 0 0 [] bs).map (Char.ofNat n :: ·)
      | _ => decodeFrom (index + 1) (taken + 1) n wanted bs
    else .error (.invalid (index - taken) taken)

/-- The text that the bytes spell. -/
def decode (bs : List UInt8) : Except Fault String :=
  (decodeFrom 0 0 0 [] bs).map String.ofList

end Disasm.Text.Utf8
