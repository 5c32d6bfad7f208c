import Disasm.Error

/-!
# Numbers in groups of seven bits and texts that announce their length

A number below `2 ^ 32` is written in groups of seven bits, lowest group first;
the high bit of a byte says that another group follows.  A text is written as
the number of its bytes and the bytes.
-/

namespace Disasm.Bytes

/-- The groups of a number, at most `count + 1` of them. -/
def ofGroups : (count value : Nat) → Bytes
  | 0, value => [UInt8.ofNat value]
  | count + 1, value =>
    if value < 128 then [UInt8.ofNat value]
    else UInt8.ofNat (128 + value % 128) :: ofGroups count (value / 128)

/-- A number below `2 ^ 32` in groups of seven bits. -/
def int7 (value : Nat) : Bytes := ofGroups 4 value

/-- A text behind the number of its bytes. -/
def sizedText (s : String) : Except Error Bytes :=
  let bs := Text.Utf8.encode s
  if 2 ^ (32 : Nat) ≤ bs.length then .error (.stringLength bs.length)
  else .ok (int7 bs.length ++ bs)

end Disasm.Bytes
