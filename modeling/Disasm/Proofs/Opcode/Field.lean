import Disasm.Proofs.Index.RoundTrip
import Disasm.Proofs.Opcode.Order

/-!
# Fields keep the order of opcodes

A field begins with the length of its opcode, so that fields of one width compare byte by byte
as their opcodes do: different lengths are told by the first byte, and equal ones by the bytes
behind it, for then the zeros are equally many.  A field may be used again for another opcode:
nothing of what it held before is left, and nothing is written where the opcode does not fit.
-/

namespace Disasm

namespace Bytes

/-! ## The order of byte lists -/

theorem shortlex_of_length_lt {a b : Bytes} (shorter : a.length < b.length) :
    a.shortlex b = .lt := by
  rw [shortlex, Nat.compare_eq_lt.2 shorter]
  rfl

theorem isLE_shortlex_total (a b : Bytes) : (a.shortlex b).isLE ∨ (b.shortlex a).isLE := by
  have swapped : b.shortlex a = (a.shortlex b).swap := Std.OrientedCmp.eq_swap
  rw [swapped]
  cases a.shortlex b with
  | lt => exact .inl rfl
  | eq => exact .inl rfl
  | gt => exact .inr rfl

/-- Shorter lists first, equally long ones byte by byte: this is a linear order. -/
theorem isLinearOrder_shortlex : IsLinearOrder Bytes fun a b ↦ (a.shortlex b).isLE where
  refl _ := Std.ReflCmp.isLE_rfl
  trans _ _ _ := Std.TransCmp.isLE_trans
  antisymm _ _ le ge := Std.LawfulEqCmp.eq_of_compare (Std.OrientedCmp.isLE_antisymm le ge)
  total := isLE_shortlex_total

theorem shortlex_eq_iff {a b : Bytes} : a.shortlex b = .eq ↔ a = b := by
  constructor
  · exact Std.LawfulEqCmp.eq_of_compare
  · rintro rfl
    exact Std.ReflCmp.compare_self

/-! ## Bytes in front of others -/

theorem lexicographic_self (a : Bytes) : a.lexicographic a = .eq := by
  rw [lexicographic_eq_compareLex]
  exact Std.ReflCmp.compare_self

/-- Lists whose fronts are equally long are compared by these first. -/
theorem lexicographic_append {a b : Bytes} (same : a.length = b.length) (c d : Bytes) :
    (a ++ c).lexicographic (b ++ d) = (a.lexicographic b).then (c.lexicographic d) := by
  induction a generalizing b with
  | nil =>
    cases b with
    | nil => rfl
    | cons y b => cases same
  | cons x a ih =>
    cases b with
    | nil => cases same
    | cons y b =>
      rw [List.cons_append, List.cons_append, lexicographic, lexicographic,
        ih (Nat.succ.inj same), Ordering.then_assoc]

/-- What is written behind a front of the list leaves it as it is. -/
theorem overwrite_append {front : Bytes} {offset : Nat} (size : front.length = offset)
    (rest bs : Bytes) :
    (front ++ rest).overwrite offset bs = front ++ bs ++ rest.drop bs.length := by
  rw [overwrite, List.take_left' size, ← List.drop_drop, List.drop_left' size]

end Bytes

namespace Opcode

/-! ## The order of fields -/

/-- The first byte of a field tells the length. -/
theorem compare_ofNat_length (a b : Opcode) :
    compare (UInt8.ofNat a.length) (UInt8.ofNat b.length) = compare a.length b.length := by
  have small (o : Opcode) : (UInt8.ofNat o.length).toNat = o.length := by
    have below : o.length < 2 ^ 8 := Nat.lt_succ_of_le o.length_le
    rw [UInt8.toNat_ofNat', Nat.mod_eq_of_lt below]
  rw [UInt8.compare_eq_toNat_compare_toNat, small, small]

theorem lexicographic_field (a b : Opcode) (width : Nat) :
    (a.field width).lexicographic (b.field width) = a.bytes.shortlex b.bytes := by
  rw [field, field, List.cons_append, List.cons_append, Bytes.lexicographic,
    compare_ofNat_length, Bytes.shortlex]
  change (compare a.length b.length).then _ = (compare a.length b.length).then _
  by_cases same : a.length = b.length
  · rw [Bytes.lexicographic_append same, same, Bytes.lexicographic_self, Ordering.then_eq]
  · cases different : compare a.length b.length with
    | lt => rfl
    | eq => exact absurd (Nat.compare_eq_eq.1 different) same
    | gt => rfl

/-! ## Fields that are used again -/

/-- Writes the opcode over a field: its length into the first byte, its bytes behind that, and
zeros over all that follows. -/
def put (o : Opcode) : EStateM Error Bytes Unit := do
  let width := (← get).length
  if width ≤ o.length then throw (.opcodeWidth o.length width)
  modify (Bytes.overwrite · 0 [UInt8.ofNat o.length])
  modify (Bytes.overwrite · 1 o.bytes)
  modify (Bytes.overwrite · (o.length + 1) (List.replicate (width - (o.length + 1)) 0))

theorem put_of_lt {o : Opcode} {field : Bytes} (fits : o.length < field.length) :
    o.put field = .ok () (o.field field.length) := by
  have size : (UInt8.ofNat o.length :: o.bytes).length = o.length + 1 := rfl
  have first : Bytes.overwrite field 0 [UInt8.ofNat o.length] =
      [UInt8.ofNat o.length] ++ field.drop 1 := Bytes.overwrite_append List.length_nil field _
  have second : Bytes.overwrite ([UInt8.ofNat o.length] ++ field.drop 1) 1 o.bytes =
      UInt8.ofNat o.length :: o.bytes ++ field.drop (o.length + 1) := by
    rw [Bytes.overwrite_append List.length_singleton, List.drop_drop, Nat.add_comm 1]
    rfl
  have third : Bytes.overwrite (UInt8.ofNat o.length :: o.bytes ++ field.drop (o.length + 1))
      (o.length + 1) (List.replicate (field.length - (o.length + 1)) 0) =
        o.field field.length := by
    rw [Bytes.overwrite_append size, List.length_replicate, List.drop_eq_nil_of_le,
      List.append_nil]
    · rfl
    · rw [List.length_drop]
  refine (Action.bind_of_ok rfl).trans ?_
  rw [if_neg (Nat.not_le_of_lt fits)]
  change EStateM.Result.ok () (Bytes.overwrite (Bytes.overwrite (Bytes.overwrite field 0 _) 1 _)
    (o.length + 1) _) = _
  rw [first, second, third]

theorem put_of_le {o : Opcode} {field : Bytes} (narrow : field.length ≤ o.length) :
    o.put field = .error (.opcodeWidth o.length field.length) field := by
  refine (Action.bind_of_ok rfl).trans ?_
  rw [if_pos narrow]
  rfl

theorem encodeInto_of_le {o : Opcode} {field : Bytes} (narrow : field.length ≤ o.length) :
    o.encodeInto field = .error (.opcodeWidth o.length field.length) := if_pos narrow

theorem encode_of_le {o : Opcode} {width : Nat} (narrow : width ≤ o.length) :
    o.encode width = .error (.opcodeWidth o.length width) := by
  have blank : (List.replicate width (0 : UInt8)).length = width := List.length_replicate
  rw [encode, encodeInto_of_le (blank.symm ▸ narrow), blank]

/-- The order of byte lists is a linear one in which shorter lists come first, and fields of
one width compare byte by byte as their opcodes do.  An opcode that fits into a field is
written as if the field had been blank and is read back from it; one that does not fit is
refused by its width, and the field stays as it was. -/
theorem fields_keep_order :
    (IsLinearOrder Bytes fun a b ↦ (a.shortlex b).isLE) ∧
    (∀ a b : Bytes, (a.shortlex b = .eq ↔ a = b) ∧ a.shortlex b = (b.shortlex a).swap ∧
      (a.length < b.length → a.shortlex b = .lt)) ∧
    (∀ (a b : Opcode) (width : Nat), a.length < width → b.length < width →
      ∃ left right, a.encode width = .ok left ∧ b.encode width = .ok right ∧
        left.lexicographic right = a.bytes.shortlex b.bytes) ∧
    ∀ (o : Opcode) (field : Bytes),
      (o.length < field.length → ∃ bs, o.encode field.length = .ok bs ∧
        o.encodeInto field = .ok bs ∧ o.put field = .ok () bs ∧ decode bs = .ok o) ∧
      (field.length ≤ o.length →
        o.encode field.length = .error (.opcodeWidth o.length field.length) ∧
        o.encodeInto field = .error (.opcodeWidth o.length field.length) ∧
        o.put field = .error (.opcodeWidth o.length field.length) field) := by
  refine ⟨Bytes.isLinearOrder_shortlex, fun a b ↦ ?_, fun a b width left right ↦ ?_,
    fun o field ↦ ⟨fun fits ↦ ?_, fun narrow ↦ ?_⟩⟩
  · exact ⟨Bytes.shortlex_eq_iff, Std.OrientedCmp.eq_swap, Bytes.shortlex_of_length_lt⟩
  · exact ⟨_, _, encode_eq left, encode_eq right, lexicographic_field a b width⟩
  · exact ⟨_, encode_eq fits, encodeInto_eq fits, put_of_lt fits, decode_field o _⟩
  · exact ⟨encode_of_le narrow, encodeInto_of_le narrow, put_of_le narrow⟩

/-- A long opcode of small bytes stands behind a short one of great bytes, in a field that has
held another; the field of two bytes is too narrow for it. -/
theorem fields_keep_order_of_two :
    let short : Opcode := ⟨[0xFF], by decide⟩
    let long : Opcode := ⟨[0, 1], by decide⟩
    (short.length < 4 ∧ long.length < 4) ∧
      (∃ left right, short.encode 4 = .ok left ∧ long.encode 4 = .ok right ∧
        left.lexicographic right = .lt) ∧
      (∃ bs, long.encodeInto [9, 9, 9, 9] = .ok bs ∧ decode bs = .ok long) ∧
      long.put [9, 9] = .error (.opcodeWidth 2 2) [9, 9] := by
  intro short long
  obtain ⟨-, -, ordered, written⟩ := fields_keep_order
  obtain ⟨bs, -, into, -, read⟩ := (written long [9, 9, 9, 9]).1 (by decide)
  exact ⟨by decide, ordered short long 4 (by decide) (by decide), ⟨bs, into, read⟩,
    ((written long [9, 9]).2 (by decide)).2.2⟩

end Opcode

end Disasm
