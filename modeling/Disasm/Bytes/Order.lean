/-!
# Byte order

A number of a fixed width is a list of bytes, lowest byte first or highest
byte first.
-/

namespace Disasm

-- Powers of numbers are the core ones, also where a library brings its own.  A numeral
-- that is an exponent is written with its type for this.
attribute [scoped instance (high)] instPowNat

/-- Raw bytes. -/
abbrev Bytes := List UInt8

/-- The number whose bytes, lowest first, are given. -/
def Bytes.value : Bytes → Nat
  | [] => 0
  | b :: bs => b.toNat + 256 * Bytes.value bs

/-- The lowest `width` bytes of a number, lowest first. -/
def Bytes.ofNat : (width value : Nat) → Bytes
  | 0, _ => []
  | width + 1, value => UInt8.ofNat value :: Bytes.ofNat width (value / 256)

@[simp] theorem Bytes.length_ofNat (width n : Nat) : (Bytes.ofNat width n).length = width := by
  induction width generalizing n with
  | zero => rfl
  | succ width ih => simp [Bytes.ofNat, ih]

theorem Bytes.value_lt (bs : Bytes) : bs.value < 256 ^ bs.length := by
  induction bs with
  | nil => simp [Bytes.value]
  | cons b bs ih =>
    have := b.toNat_lt
    rw [Bytes.value, List.length_cons, Nat.pow_succ]
    omega

/-- Bytes above the width are cut off. -/
@[simp] theorem Bytes.value_ofNat (width n : Nat) :
    (Bytes.ofNat width n).value = n % 256 ^ width := by
  induction width generalizing n with
  | zero => simp [Bytes.ofNat, Bytes.value, Nat.mod_one]
  | succ width ih =>
    rw [Bytes.ofNat, Bytes.value, ih, Nat.pow_succ', Nat.mod_mul, UInt8.toNat_ofNat']

@[simp] theorem Bytes.ofNat_value (bs : Bytes) : Bytes.ofNat bs.length bs.value = bs := by
  induction bs with
  | nil => rfl
  | cons b bs ih =>
    have := b.toNat_lt
    have hd : UInt8.ofNat (b.toNat + 256 * Bytes.value bs) = b := by
      apply UInt8.toNat_inj.1
      rw [UInt8.toNat_ofNat']
      omega
    have tl : (b.toNat + 256 * Bytes.value bs) / 256 = Bytes.value bs := by omega
    rw [List.length_cons, Bytes.value, Bytes.ofNat, hd, tl, ih]

/-- The two ways to write a number. -/
inductive ByteOrder
  /-- Lowest byte first. -/
  | little
  /-- Highest byte first. -/
  | big
deriving DecidableEq, Inhabited

namespace ByteOrder

/-- The bytes in the order that begins with the lowest. -/
def fromLowest : ByteOrder → Bytes → Bytes
  | little, bs => bs
  | big, bs => bs.reverse

/-- The number that the bytes spell. -/
def value (order : ByteOrder) (bs : Bytes) : Nat := (order.fromLowest bs).value

/-- The lowest `width` bytes of a number. -/
def bytes (order : ByteOrder) (width n : Nat) : Bytes :=
  order.fromLowest (Bytes.ofNat width n)

@[simp] theorem length_fromLowest (order : ByteOrder) (bs : Bytes) :
    (order.fromLowest bs).length = bs.length := by
  cases order <;> simp [fromLowest]

@[simp] theorem fromLowest_fromLowest (order : ByteOrder) (bs : Bytes) :
    order.fromLowest (order.fromLowest bs) = bs := by
  cases order <;> simp [fromLowest]

@[simp] theorem length_bytes (order : ByteOrder) (width n : Nat) :
    (order.bytes width n).length = width := by
  simp [bytes]

@[simp] theorem value_bytes (order : ByteOrder) (width n : Nat) :
    order.value (order.bytes width n) = n % 256 ^ width := by
  simp [value, bytes]

@[simp] theorem bytes_value (order : ByteOrder) (bs : Bytes) :
    order.bytes bs.length (order.value bs) = bs := by
  rw [bytes, value, ← order.length_fromLowest bs, Bytes.ofNat_value, fromLowest_fromLowest]

/-- The name of a byte order in messages. -/
def name : ByteOrder → String
  | little => "LittleEndian"
  | big => "BigEndian"

end ByteOrder

/-- Offsets and lengths are below this bound. -/
def addressBound : Nat := 2 ^ (64 : Nat)

/-- A sum of addresses, held at the greatest address. -/
def saturatingAdd (a b : Nat) : Nat := min (a + b) (addressBound - 1)

/-- The `count` bytes at `offset`, if all of them are there. -/
def Bytes.slice? (data : Bytes) (offset count : Nat) : Option Bytes :=
  if offset + count < addressBound ∧ offset + count ≤ data.length then
    some ((data.drop offset).take count)
  else none

theorem Bytes.slice?_eq_some_iff {data bs : Bytes} {offset count : Nat} :
    data.slice? offset count = some bs ↔
      offset + count < addressBound ∧ offset + count ≤ data.length ∧
        (data.drop offset).take count = bs := by
  rw [Bytes.slice?]
  split <;> rename_i h <;> simp <;> grind

theorem Bytes.length_of_slice? {data bs : Bytes} {offset count : Nat}
    (h : data.slice? offset count = some bs) : bs.length = count := by
  obtain ⟨-, fits, rfl⟩ := Bytes.slice?_eq_some_iff.1 h
  rw [List.length_take, List.length_drop]
  omega

end Disasm
