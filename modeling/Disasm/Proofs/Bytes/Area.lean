import Disasm.Bytes.Area
import Disasm.Proofs.Action

/-!
# Fields come back and touch nothing else

A field is written where all of its bytes are there, and only these bytes change.  It is read
back as it was written, and a field that is written as it was read changes nothing.  Words are
accessed as the numbers that they hold: shifting bytes together loses nothing of eight of them,
and a shift by the bits of a field leaves what the field cannot hold.
-/

namespace Disasm

namespace Bytes

/-! ## Words -/

theorem isFieldWidth_iff {width : Nat} : isFieldWidth width = true ↔ 1 ≤ width ∧ width ≤ 8 := by
  simp [isFieldWidth]

/-- Eight bytes are shifted into a word without loss. -/
theorem toNat_word {bs : Bytes} (short : bs.length ≤ 8) : bs.word.toNat = bs.value := by
  induction bs with
  | nil => rfl
  | cons b bs ih =>
    rw [List.length_cons] at short
    have rest : (word bs).toNat = value bs := ih (Nat.le_of_succ_le short)
    -- Seven bytes leave room for another, so that the shift loses no bit.
    have seven : value bs < 256 ^ 7 := Nat.lt_of_lt_of_le (value_lt bs)
      (Nat.pow_le_pow_right (by decide) (Nat.le_of_succ_le_succ short))
    have room : value bs <<< 8 < 2 ^ 64 := by
      rw [Nat.shiftLeft_eq]
      omega
    calc (word (b :: bs)).toNat
        = (word bs).toNat <<< 8 % 2 ^ 64 ||| b.toNat := by
          change (word bs <<< 8 ||| b.toUInt64).toNat = _
          rw [UInt64.toNat_or, UInt64.toNat_shiftLeft, UInt8.toNat_toUInt64]
          rfl
      _ = value bs <<< 8 ||| b.toNat := by rw [rest, Nat.mod_eq_of_lt room]
      _ = value bs <<< 8 + b.toNat := (Nat.shiftLeft_add_eq_or_of_lt b.toNat_lt (value bs)).symm
      _ = value (b :: bs) := by
          rw [Nat.shiftLeft_eq, value]
          omega

/-- A shift by the bits of a field shows whether the field holds a word. -/
theorem exceeds_iff {value : UInt64} {width : Nat} (most : width ≤ 8) :
    exceeds value width = true ↔ 256 ^ width ≤ value.toNat := by
  have bits : 256 ^ width = 2 ^ (8 * width) := (Nat.pow_mul 2 8 width).symm
  rw [bits, exceeds, Bool.and_eq_true, decide_eq_true_iff]
  obtain less | rfl : width < 8 ∨ width = 8 := by omega
  · have above : (value >>> UInt64.ofNat (8 * width)).toNat = value.toNat / 2 ^ (8 * width) := by
      rw [UInt64.toNat_shiftRight, UInt64.toNat_ofNat', Nat.mod_mod_of_dvd _ (by decide),
        Nat.mod_eq_of_lt (by omega), Nat.shiftRight_eq_div_pow]
    rw [and_iff_right less, bne_iff_ne, ne_eq, ← UInt64.toNat_inj, above, UInt64.toNat_zero,
      Nat.div_eq_zero_iff_lt (Nat.two_pow_pos _), Nat.not_lt]
  · -- Nothing is shifted: eight bytes hold every word.
    have := value.toNat_lt
    omega

/-- The lowest bytes of a number are the first ones. -/
theorem take_ofNat {few many : Nat} (le : few ≤ many) (n : Nat) :
    (ofNat many n).take few = ofNat few n := by
  induction few generalizing many n with
  | zero => rfl
  | succ few ih =>
    cases many with
    | zero => omega
    | succ many => rw [ofNat, ofNat, List.take_succ_cons, ih (Nat.le_of_succ_le_succ le)]

/-- A field is read as a word as it is read as a number. -/
theorem map_toNat_readWord (data : Bytes) (offset width : Nat) :
    (data.readWord offset width).map UInt64.toNat = data.readUInt offset width := by
  rw [readWord, readUInt]
  by_cases valid : isFieldWidth width = true
  · rw [valid]
    cases there : data.slice? offset width with
    | none => rfl
    | some bs =>
      have short : bs.length ≤ 8 := length_of_slice? there ▸ (isFieldWidth_iff.1 valid).2
      exact congrArg Except.ok (toNat_word short)
  · rw [Bool.eq_false_of_not_eq_true valid]
    rfl

theorem readWord_eq_ok_iff {data : Bytes} {offset width : Nat} {value : UInt64} :
    data.readWord offset width = .ok value ↔ data.readUInt offset width = .ok value.toNat := by
  rw [← map_toNat_readWord]
  cases data.readWord offset width with
  | error e => exact iff_of_false nofun nofun
  | ok found => simp [Except.map, UInt64.toNat_inj]

/-- A field is written from a word as it is written from the number that it holds. -/
theorem writeWord_eq (data : Bytes) (offset width : Nat) (value : UInt64) :
    data.writeWord offset width value = data.writeUInt offset width value.toNat := by
  rw [writeWord, writeUInt]
  by_cases valid : isFieldWidth width = true
  · have most := (isFieldWidth_iff.1 valid).2
    rw [valid, take_ofNat most]
    simp only [exceeds_iff most]
  · rw [Bool.eq_false_of_not_eq_true valid]
    rfl

/-! ## Bytes that are overwritten -/

/-- The `count` bytes at `offset` are there, and where they end is an address. -/
def Fits (data : Bytes) (offset count : Nat) : Prop :=
  offset + count < addressBound ∧ offset + count ≤ data.length

section Overwrite

variable {data bs : Bytes} {offset count : Nat}

/-- What is made of bytes that must be there. -/
theorem slice?_elim_eq_ok_iff {α : Type} {make : Bytes → α} {x : α} :
    (match data.slice? offset count with
      | none => .error .outOfBounds
      | some bs => .ok (make bs) : Except Error α) = .ok x ↔
      data.Fits offset count ∧ make ((data.drop offset).take count) = x := by
  by_cases fits : data.Fits offset count
  · have there : data.slice? offset count = some ((data.drop offset).take count) := if_pos fits
    rw [there, and_iff_right fits]
    exact ⟨Except.ok.inj, congrArg Except.ok⟩
  · have missing : data.slice? offset count = none := if_neg fits
    rw [missing]
    exact iff_of_false nofun fun both ↦ fits both.1

/-- Bytes outside of those that are overwritten stay. -/
theorem getElem?_overwrite (fits : offset + bs.length ≤ data.length) {i : Nat}
    (outside : i < offset ∨ offset + bs.length ≤ i) :
    (data.overwrite offset bs)[i]? = data[i]? := by
  have front : (data.take offset).length = offset := List.length_take_of_le (by omega)
  have size : (data.take offset ++ bs).length = offset + bs.length := by
    rw [List.length_append, front]
  rw [overwrite]
  rcases outside with before | behind
  · rw [List.append_assoc, List.getElem?_append_left (front.symm ▸ before),
      List.getElem?_take_of_lt before]
  · rw [List.getElem?_append_right (size.symm ▸ behind), size, List.getElem?_drop,
      Nat.add_sub_cancel' behind]

/-- Bytes that are overwritten by themselves stay. -/
theorem overwrite_self (fits : offset + count ≤ data.length) :
    data.overwrite offset ((data.drop offset).take count) = data := by
  have size : ((data.drop offset).take count).length = count :=
    List.length_take_of_le (by rw [List.length_drop]; omega)
  rw [overwrite, size, List.append_assoc, ← List.drop_drop, List.take_append_drop,
    List.take_append_drop]

end Overwrite

end Bytes

namespace Area

variable {a a' : Area} {order : ByteOrder} {k : Scalar} {bits size width : Nat} {bs : Bytes}

/-! ## What an access leaves -/

/-- The `size` bytes at the offset are there, and where they end is an address. -/
def Fits (a : Area) (size : Nat) : Prop := a.data.Fits a.offset size

/-- The `size` bytes at the offset. -/
def field (a : Area) (size : Nat) : Bytes := (a.data.drop a.offset).take size

/-- The area with the offset behind `size` bytes. -/
def moved (a : Area) (size : Nat) : Area := { a with offset := a.offset + size }

/-- The area with other bytes at the offset, which is behind them. -/
def put (a : Area) (bs : Bytes) : Area :=
  { data := a.data.overwrite a.offset bs, offset := a.offset + bs.length }

/-- The same bytes with the offset of `a`. -/
def rewound (a' a : Area) : Area := { a' with offset := a.offset }

/-- The area with the `size` bytes at the offset in the opposite order. -/
def mirrored (a : Area) (size : Nat) : Area := (a.put (a.field size).reverse).rewound a

/-- What a write of `size` bytes leaves: the offset is behind them, and no other byte has
changed. -/
structure Rewritten (a : Area) (size : Nat) (a' : Area) : Prop where
  offset : a'.offset = a.offset + size
  length : a'.data.length = a.data.length
  outside : ∀ i, i < a.offset ∨ a.offset + size ≤ i → a'.data[i]? = a.data[i]?

theorem length_field (fits : a.Fits size) : (a.field size).length = size :=
  List.length_take_of_le (by rw [List.length_drop]; exact Nat.le_sub_of_add_le' fits.2)

theorem moved_rewound_put (length : bs.length = size) :
    ((a.put bs).rewound a).moved size = a.put bs := by
  subst length
  rfl

theorem rewritten_put (length : bs.length = size) (fits : a.Fits size) :
    a.Rewritten size (a.put bs) := by
  subst length
  exact ⟨rfl, Bytes.length_overwrite fits.2, fun _ ↦ Bytes.getElem?_overwrite fits.2⟩

theorem fits_rewound_put (length : bs.length = size) (fits : a.Fits size) :
    ((a.put bs).rewound a).Fits size := by
  subst length
  exact ⟨fits.1, (Bytes.length_overwrite fits.2).symm ▸ fits.2⟩

theorem field_rewound_put (length : bs.length = size) (fits : a.Fits size) :
    ((a.put bs).rewound a).field size = bs := by
  subst length
  exact (Bytes.slice?_eq_some_iff.1 (Bytes.slice?_overwrite fits.2 fits.1)).2.2

/-- A field that is written as it is changes nothing. -/
theorem put_field (fits : a.Fits size) : a.put (a.field size) = a.moved size := by
  rw [put, length_field fits, field, Bytes.overwrite_self fits.2]
  rfl

theorem length_mirrored (a : Area) (size : Nat) :
    (a.mirrored size).data.length = a.data.length := by
  change (a.data.overwrite a.offset (a.field size).reverse).length = _
  rw [Bytes.overwrite, List.length_append, List.length_append, List.length_take,
    List.length_drop, List.length_reverse, field, List.length_take, List.length_drop]
  omega

theorem fits_mirrored_iff : (a.mirrored size).Fits size ↔ a.Fits size := by
  rw [Fits, Bytes.Fits, length_mirrored]
  exact Iff.rfl

theorem field_mirrored (fits : a.Fits size) :
    (a.mirrored size).field size = (a.field size).reverse :=
  field_rewound_put (List.length_reverse.trans (length_field fits)) fits

/-! ## When an access succeeds -/

theorem read_eq_ok_iff {α : Type} {field : Bytes → Nat → Except Error α} {x : α} :
    read size field a = .ok x a' ↔ field a.data a.offset = .ok x ∧ a' = a.moved size := by
  rw [read]
  cases field a.data a.offset with
  | error e => simp
  | ok y => simp [moved, eq_comm]

/-- A write succeeds as that of its bytes does. -/
theorem write_eq_ok_iff {field : Bytes → Nat → Except Error Bytes} {p : Prop}
    (length : bs.length = size)
    (puts : ∀ data, field a.data a.offset = .ok data ↔ p ∧ data = (a.put bs).data) :
    write size field a = .ok () a' ↔ p ∧ a' = a.put bs := by
  subst length
  rw [write]
  cases result : field a.data a.offset with
  | error e =>
    refine iff_of_false nofun fun both ↦ ?_
    cases result.symm.trans ((puts _).2 ⟨both.1, rfl⟩)
  | ok data =>
    obtain ⟨holds, rfl⟩ := (puts data).1 result
    simp [holds, put, eq_comm]

theorem atomic_read {α : Type} (size : Nat) (field : Bytes → Nat → Except Error α) :
    Action.Atomic (read size field) := by
  intro a e a' failed
  rw [read] at failed
  split at failed
  · cases failed
    rfl
  · cases failed

theorem atomic_write (size : Nat) (field : Bytes → Nat → Except Error Bytes) :
    Action.Atomic (write size field) := by
  intro a e a' failed
  rw [write] at failed
  split at failed
  · cases failed
    rfl
  · cases failed

theorem writeAt_eq_ok_iff {data : Bytes} (length : bs.length = size) :
    a.data.writeAt a.offset bs = .ok data ↔ a.Fits size ∧ data = (a.put bs).data := by
  subst length
  exact Bytes.slice?_elim_eq_ok_iff.trans (and_congr_right' eq_comm)

theorem readUInt_eq_ok_iff {n : Nat} :
    a.data.readUInt a.offset width = .ok n ↔
      ((1 ≤ width ∧ width ≤ 8) ∧ a.Fits width) ∧ (a.field width).value = n := by
  rw [Bytes.readUInt, ← Bytes.isFieldWidth_iff]
  by_cases valid : Bytes.isFieldWidth width = true
  · simp only [valid, true_and]
    exact Bytes.slice?_elim_eq_ok_iff
  · rw [if_pos (by simp [valid])]
    exact iff_of_false nofun fun all ↦ valid all.1.1

theorem writeUInt_eq_ok_iff {n : Nat} {data : Bytes} :
    a.data.writeUInt a.offset width n = .ok data ↔
      ((1 ≤ width ∧ width ≤ 8) ∧ n < 256 ^ width ∧ a.Fits width) ∧
        data = (a.put (Bytes.ofNat width n)).data := by
  rw [Bytes.writeUInt, ← Bytes.isFieldWidth_iff]
  by_cases valid : Bytes.isFieldWidth width = true
  · by_cases small : n < 256 ^ width
    · simp only [valid, small, Nat.not_le_of_lt small, true_and]
      exact writeAt_eq_ok_iff (Bytes.length_ofNat width n)
    · rw [if_neg (by simp [valid]), if_pos (Nat.le_of_not_lt small)]
      exact iff_of_false nofun fun all ↦ small all.1.2.1
  · rw [if_pos (by simp [valid])]
    exact iff_of_false nofun fun all ↦ valid all.1.1

/-! ## Scalars and unsigned fields -/

theorem readScalar_eq_ok_iff :
    readScalar order k a = .ok bits a' ↔
      (a.Fits k.size ∧ order.value (a.field k.size) = bits) ∧ a' = a.moved k.size := by
  rw [readScalar, read_eq_ok_iff]
  exact and_congr_left' Bytes.slice?_elim_eq_ok_iff

theorem writeScalar_eq_ok_iff :
    writeScalar order k bits a = .ok () a' ↔
      a.Fits k.size ∧ a' = a.put (order.bytes k.size bits) :=
  write_eq_ok_iff (order.length_bytes k.size bits) fun _ ↦
    writeAt_eq_ok_iff (order.length_bytes k.size bits)

theorem readWord_eq_ok_iff {value : UInt64} :
    readWord width a = .ok value a' ↔
      (((1 ≤ width ∧ width ≤ 8) ∧ a.Fits width) ∧ (a.field width).value = value.toNat) ∧
        a' = a.moved width := by
  rw [readWord, read_eq_ok_iff, Bytes.readWord_eq_ok_iff, readUInt_eq_ok_iff]

theorem writeWord_eq_ok_iff {value : UInt64} :
    writeWord width value a = .ok () a' ↔
      ((1 ≤ width ∧ width ≤ 8) ∧ value.toNat < 256 ^ width ∧ a.Fits width) ∧
        a' = a.put (Bytes.ofNat width value.toNat) := by
  refine write_eq_ok_iff (Bytes.length_ofNat width value.toNat) fun data ↦ ?_
  rw [Bytes.writeWord_eq, writeUInt_eq_ok_iff]

theorem exists_readScalar_iff :
    (∃ bits a', readScalar order k a = .ok bits a') ↔ a.Fits k.size := by
  constructor
  · rintro ⟨bits, a', found⟩
    exact (readScalar_eq_ok_iff.1 found).1.1
  · intro fits
    exact ⟨_, _, readScalar_eq_ok_iff.2 ⟨⟨fits, rfl⟩, rfl⟩⟩

theorem exists_readWord_iff :
    (∃ value a', readWord width a = .ok value a') ↔ (1 ≤ width ∧ width ≤ 8) ∧ a.Fits width := by
  constructor
  · rintro ⟨value, a', found⟩
    exact (readWord_eq_ok_iff.1 found).1.1
  · rintro ⟨valid, fits⟩
    have spelled := Bytes.toNat_word ((length_field fits).symm ▸ valid.2)
    exact ⟨_, _, readWord_eq_ok_iff.2 ⟨⟨⟨valid, fits⟩, spelled.symm⟩, rfl⟩⟩

/-- A scalar that was written is read back. -/
theorem readScalar_written (small : bits < k.modulus)
    (written : writeScalar order k bits a = .ok () a') :
    a.Rewritten k.size a' ∧ readScalar order k (a'.rewound a) = .ok bits a' := by
  obtain ⟨fits, rfl⟩ := writeScalar_eq_ok_iff.1 written
  have length := order.length_bytes k.size bits
  refine ⟨rewritten_put length fits,
    readScalar_eq_ok_iff.2 ⟨⟨fits_rewound_put length fits, ?_⟩, ?_⟩⟩
  · rw [field_rewound_put length fits, order.value_bytes]
    exact Nat.mod_eq_of_lt small
  · exact (moved_rewound_put length).symm

/-- A word that was written is read back. -/
theorem readWord_written {value : UInt64} (written : writeWord width value a = .ok () a') :
    a.Rewritten width a' ∧ readWord width (a'.rewound a) = .ok value a' := by
  obtain ⟨⟨valid, small, fits⟩, rfl⟩ := writeWord_eq_ok_iff.1 written
  have length := Bytes.length_ofNat width value.toNat
  refine ⟨rewritten_put length fits,
    readWord_eq_ok_iff.2 ⟨⟨⟨valid, fits_rewound_put length fits⟩, ?_⟩, ?_⟩⟩
  · rw [field_rewound_put length fits, Bytes.value_ofNat, Nat.mod_eq_of_lt small]
  · exact (moved_rewound_put length).symm

/-- A word that was read may be written in its place. -/
theorem writeWord_read {value : UInt64} (found : readWord width a = .ok value a') :
    writeWord width value a = .ok () a' ∧ a'.data = a.data := by
  obtain ⟨⟨⟨valid, fits⟩, spelled⟩, rfl⟩ := readWord_eq_ok_iff.1 found
  have small := Bytes.value_lt (a.field width)
  have same := Bytes.ofNat_value (a.field width)
  rw [length_field fits, spelled] at small same
  refine ⟨writeWord_eq_ok_iff.2 ⟨⟨valid, small, fits⟩, ?_⟩, rfl⟩
  rw [same, put_field fits]

/-- The highest byte first is the lowest byte first in the opposite order. -/
theorem readScalar_big_iff :
    (∃ a', readScalar .big k a = .ok bits a') ↔
      ∃ a', readScalar .little k (a.mirrored k.size) = .ok bits a' := by
  simp only [readScalar_eq_ok_iff, exists_and_left, exists_eq, and_true, fits_mirrored_iff]
  refine and_congr_right fun fits ↦ ?_
  rw [field_mirrored fits]
  exact Iff.rfl

/-- Fields come back and touch nothing else.  A scalar is read, and as its bit pattern written,
if its bytes are there and end at an address; after a write the offset is behind them, no other
byte has changed, and the same bits are read back.  The highest byte first reads as the lowest
byte first of the bytes in the opposite order.  An unsigned field has one to eight bytes and is
read under the same condition; a word that it holds is written with the same effect and read
back, and to write what was read changes no byte.  An access that fails changes neither the
bytes nor the offset. -/
theorem fields_round_trip (a : Area) :
    (∀ (order : ByteOrder) (k : Scalar),
      ((∃ bits a', readScalar order k a = .ok bits a') ↔ a.Fits k.size) ∧
      ∀ bits < k.modulus,
        ((∃ a', writeScalar order k bits a = .ok () a') ↔ a.Fits k.size) ∧
        ∀ a', writeScalar order k bits a = .ok () a' →
          a.Rewritten k.size a' ∧ readScalar order k (a'.rewound a) = .ok bits a') ∧
    (∀ (k : Scalar) (bits : Nat),
      (∃ a', readScalar .big k a = .ok bits a') ↔
        ∃ a', readScalar .little k (a.mirrored k.size) = .ok bits a') ∧
    (∀ width : Nat,
      ((∃ value a', readWord width a = .ok value a') ↔
        (1 ≤ width ∧ width ≤ 8) ∧ a.Fits width) ∧
      ∀ value : UInt64,
        ((∃ a', writeWord width value a = .ok () a') ↔
          (1 ≤ width ∧ width ≤ 8) ∧ value.toNat < 256 ^ width ∧ a.Fits width) ∧
        (∀ a', writeWord width value a = .ok () a' →
          a.Rewritten width a' ∧ readWord width (a'.rewound a) = .ok value a') ∧
        ∀ a', readWord width a = .ok value a' →
          writeWord width value a = .ok () a' ∧ a'.data = a.data) ∧
    (∀ order k, Action.Atomic (readScalar order k)) ∧
    (∀ order k bits, Action.Atomic (writeScalar order k bits)) ∧
    (∀ width, Action.Atomic (readWord width)) ∧
    ∀ width value, Action.Atomic (writeWord width value) := by
  refine ⟨fun order k ↦ ⟨exists_readScalar_iff, fun bits small ↦
      ⟨?_, fun _ ↦ readScalar_written small⟩⟩,
    fun _ _ ↦ readScalar_big_iff,
    fun width ↦ ⟨exists_readWord_iff, fun value ↦
      ⟨?_, fun _ ↦ readWord_written, fun _ ↦ writeWord_read⟩⟩,
    fun _ _ ↦ atomic_read _ _, fun _ _ _ ↦ atomic_write _ _, fun _ ↦ atomic_read _ _,
    fun _ _ ↦ atomic_write _ _⟩
  · simp only [writeScalar_eq_ok_iff, exists_and_left, exists_eq, and_true]
  · simp only [writeWord_eq_ok_iff, exists_and_left, exists_eq, and_true]

/-- A negative number at the end of nine bytes, and behind the first of them the greatest word. -/
theorem fields_round_trip_of_nine :
    let a : Area := ⟨[1, 2, 3, 4, 5, 6, 7, 8, 9], 7⟩
    let a' : Area := ⟨[1, 2, 3, 4, 5, 6, 7, 0xFF, 0xFE], 9⟩
    let b : Area := { a with offset := 1 }
    (Scalar.i16.pattern (-2) < Scalar.i16.modulus ∧
      writeScalar .big .i16 (Scalar.i16.pattern (-2)) a = .ok () a' ∧ a.Rewritten 2 a' ∧
      readScalar .big .i16 { a' with offset := 7 } = .ok (Scalar.i16.pattern (-2)) a') ∧
    ∃ b', writeWord 8 0xFFFFFFFFFFFFFFFF b = .ok () b' ∧ b.Rewritten 8 b' ∧
      readWord 8 { b' with offset := 1 } = .ok 0xFFFFFFFFFFFFFFFF b' := by
  intro a a' b
  have small : Scalar.i16.pattern (-2) < Scalar.i16.modulus := by decide
  have written : writeScalar .big .i16 (Scalar.i16.pattern (-2)) a = .ok () a' := by cbv
  have fits : b.Fits 8 := ⟨by decide, by decide⟩
  obtain ⟨-, words⟩ := (fields_round_trip b).2.2.1 8
  obtain ⟨writes, back, -⟩ := words 0xFFFFFFFFFFFFFFFF
  obtain ⟨b', word⟩ := writes.2 ⟨by decide, by decide, fits⟩
  obtain ⟨-, scalars⟩ := (fields_round_trip a).1 .big .i16
  exact ⟨⟨small, written, (scalars _ small).2 a' written⟩, b', word, back b' word⟩

end Area

end Disasm
