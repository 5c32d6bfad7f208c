import Mathlib.Order.Bounds.Defs
import Disasm.Proofs.Image.Saving

/-!
# The account of a builder

A builder does not ask its descriptors again for their sizes: it keeps one sum, from
which it takes the size of an entry that is replaced, and it tells the width of the
positions from that sum and from its last entry alone.  The account is right after
every sequence of additions, and both widths are enough for all entries, so that
nothing but the writer can keep an image from being written.

An empty descriptor at the end of the payload is where the two parts of the width of
the positions differ: its position is the size of the payload, and a payload of
`2 ^ 16` bytes asks for no more than two bytes.
-/

namespace Disasm.Image.Builder

variable {δ : Type} {b : Builder δ}

/-! ## The width of the positions -/

/-- A width of position fields that is allowed, not less than the payload asks for, and
enough for a position. -/
structure Wide (payloadSize position width : Nat) : Prop where
  allowed : width = 2 ∨ width = 4 ∨ width = 8
  asked : positionFieldWidth payloadSize ≤ width
  holds : position < 256 ^ width

theorem positionValueWidth_le {position width : Nat} (allowed : width = 2 ∨ width = 4 ∨ width = 8)
    (holds : position < 256 ^ width) : positionValueWidth position ≤ width := by
  rw [positionValueWidth]
  rcases allowed with rfl | rfl | rfl
  · exact Nat.le_of_eq (if_pos holds)
  · rw [if_pos (show position < 2 ^ (32 : Nat) from holds)]
    split <;> decide
  · split
    · decide
    · split <;> decide

theorem isLeast_positionWidth (small : b.totalSize < addressBound) :
    IsLeast {width | Wide b.payloadSize b.lastPosition width} b.positionWidth := by
  constructor
  · exact ⟨b.positionWidth_cases, Nat.le_max_left _ _, lastPosition_lt small⟩
  · intro width wide
    exact Nat.max_le.2 ⟨wide.asked, positionValueWidth_le wide.allowed wide.holds⟩

/-! ## The account -/

/-- The last opcode, which is looked at alone, has the greatest length. -/
theorem Ascending.max?_length (h : Ascending b.entries) :
    ((b.entries.map (·.opcode.length)).max?).getD 0 = b.maxOpcodeLength := by
  cases ends : b.entries.getLast? with
  | none =>
    rw [maxOpcodeLength, List.getLast?_eq_none_iff.1 ends]
    rfl
  | some last =>
    have listed : last.opcode.length ∈ b.entries.map (·.opcode.length) :=
      List.mem_map_of_mem (List.mem_of_getLast? ends)
    have greatest : ∀ n ∈ b.entries.map (·.opcode.length), n ≤ last.opcode.length := by
      intro n member
      obtain ⟨e, there, rfl⟩ := List.mem_map.1 member
      exact h.length_le ends there
    rw [List.max?_eq_some_iff.2 ⟨listed, greatest⟩, maxOpcodeLength, ends]
    rfl

theorem Ascending.size_le_sizes {es : List (Entry δ)} (h : Ascending es) {e : Entry δ}
    (member : e ∈ es) : e.size ≤ sizes es := by
  have found : sizeOf e.opcode es = e.size := by
    rw [sizeOf, h.find?_eq member]
    rfl
  exact found ▸ sizeOf_le_sizes e.opcode es

variable [Descriptor δ]

/-- The numbers that a builder tells are those of its entries. -/
structure Accounted (b : Builder δ) : Prop where
  saved : ∀ e ∈ b.entries, (Descriptor.save e.descriptor).1 = .ok (storedBytes e)
  payloadSize_eq : b.payloadSize = (b.entries.map fun e ↦ (storedBytes e).length).sum
  /-- A size can be taken from the sum, be it that of an entry to replace or of the last. -/
  size_le : ∀ e ∈ b.entries, e.size ≤ b.payloadSize
  maxOpcodeLength_eq : b.maxOpcodeLength = ((b.entries.map (·.opcode.length)).max?).getD 0

theorem Valid.accounted (h : b.Valid) : Accounted b where
  saved e member := (h.stored_storedBytes member).saved
  payloadSize_eq := by
    have announced : ∀ e ∈ b.entries, e.size = (storedBytes e).length :=
      fun e member ↦ (h.stored_storedBytes member).size_eq
    rw [h.payloadSize_eq, sizes, List.map_congr_left announced]
  size_le e member := h.payloadSize_eq ▸ h.ascending.size_le_sizes member
  maxOpcodeLength_eq := h.ascending.max?_length.symm

/-! ## The fields of the table -/

/-- The fields take every opcode and every position, whatever they held before. -/
structure Roomy (b : Builder δ) : Prop where
  opcode : ∀ e ∈ b.entries, ∀ field : Bytes, field.length = b.opcodeWidth →
    e.opcode.encodeInto field = .ok (e.opcode.field b.opcodeWidth)
  position : ∀ front e rest, b.entries = front ++ e :: rest →
    ∀ field : Bytes, field.length = b.positionWidth →
      Bytes.writeUInt field 0 b.positionWidth (payload front).length =
        .ok (Bytes.ofNat b.positionWidth (payload front).length)

theorem Valid.length_payload_of_sublist (h : b.Valid) {es : List (Entry δ)}
    (part : es.Sublist b.entries) : (payload es).length = sizes es :=
  length_payload fun e member ↦ h.stored e (part.subset member)

/-- An entry stands in the table with the bytes before its descriptor as position. -/
theorem Valid.mem_placed (h : b.Valid) {front rest : List (Entry δ)} {e : Entry δ}
    (eq : b.entries = front ++ e :: rest) :
    ⟨e.opcode, (payload front).length⟩ ∈ placed 0 b.entries := by
  have part : front.Sublist b.entries := eq ▸ List.sublist_append_left ..
  rw [h.length_payload_of_sublist part, eq, placed_append, Nat.zero_add]
  exact List.mem_append_right _ (List.mem_cons_self ..)

theorem Valid.roomy (h : b.Valid) (small : b.totalSize < addressBound) : Roomy b where
  opcode e member field width := by
    obtain ⟨front, rest, eq⟩ := List.append_of_mem member
    have fits : e.opcode.length < b.opcodeWidth := (h.fits small (h.mem_placed eq)).opcode
    rw [← width] at fits ⊢
    exact Opcode.encodeInto_eq fits
  position front e rest eq field width := by
    have fits : (payload front).length < 256 ^ b.positionWidth :=
      (h.fits small (h.mem_placed eq)).position
    have valid := b.isFieldWidth_positionWidth
    rw [← width] at fits valid ⊢
    exact Bytes.writeUInt_whole valid fits

/-- A writer that takes all bytes is given as many as the builder told. -/
theorem Valid.save_of_unbounded (h : b.Valid) (small : b.totalSize < addressBound)
    (few : b.size < 2 ^ 32) {w : Writer} (unbounded : w.capacity = none)
    (flushes : w.flushFails = false) :
    (b.save w).outcome = .ok b.totalSize ∧
      (b.save w).writer = { w with contents := w.contents ++ b.contents } := by
  have written := Writer.write_of_unbounded unbounded b.contents
  obtain ⟨outcome, writer⟩ := save_of_write h few (fun _ ↦ h.fits small) written flushes
  refine ⟨?_, writer⟩
  rw [outcome, List.length_append, Nat.add_sub_cancel_left, h.length_contents small]

/-! ## Every sequence of additions -/

theorem addAll_concat_of_error {adds : List (Opcode × δ)} {o : Opcode} {d : δ} {e : Error}
    (failed : (addAll adds b).2.add o d = .error e) :
    addAll (adds ++ [(o, d)]) b = addAll adds b := by
  have last : addAll [(o, d)] (addAll adds b).2 = ([], (addAll adds b).2) := by
    rw [addAll, failed]
    rfl
  rw [addAll_append, last, List.append_nil]

/-- The account of a builder is right and its widths are enough.  This is after any
sequence of additions to a new builder, some of which may fail, of descriptors that have
the same stored form when they are saved again, and as long as the image is not too large.
The builder has the descriptor that was added last for each opcode; an addition that
fails changes nothing; the width of the positions is the least that will do; and
a writer that takes all bytes is given as many as the builder told. -/
theorem addAll_accounted (adds : List (Opcode × δ))
    (steady : ∀ a ∈ (addAll adds {}).1, Steady a.2)
    (small : (addAll adds {}).2.totalSize < addressBound) :
    let b := (addAll adds {}).2
    (∀ o, b.get? o = ((addAll adds {}).1.reverse.lookup o).map fun d ↦ (Descriptor.save d).2) ∧
    (∀ o d e, b.add o d = .error e →
      (o.isEmpty ∧ e = .empty ∨ ¬o.isEmpty ∧ (Descriptor.save d).1 = .error e) ∧
        addAll (adds ++ [(o, d)]) {} = addAll adds {}) ∧
    Accounted b ∧ Roomy b ∧
    IsLeast {width | Wide b.payloadSize (payload b.entries.dropLast).length width}
      b.positionWidth ∧
    ∀ w : Writer, w.capacity = none → w.flushFails = false → b.size < 2 ^ 32 →
      (b.save w).outcome = .ok b.totalSize ∧
        ∃ bytes : Bytes, bytes.length = b.totalSize ∧
          (b.save w).writer = { w with contents := w.contents ++ bytes } := by
  intro b
  have valid : b.Valid := valid_empty.addAll_of_steady steady
  refine ⟨fun o ↦ ?_, fun o d e failed ↦ ?_, valid.accounted, valid.roomy small, ?_,
    fun w unbounded flushes few ↦ ?_⟩
  · exact (get?_addAll adds {} o).trans Option.or_none
  · exact ⟨add_eq_error_iff.1 failed, addAll_concat_of_error failed⟩
  · rw [valid.length_payload_of_sublist (List.dropLast_sublist _),
      ← lastPosition_eq valid.payloadSize_eq]
    exact isLeast_positionWidth small
  · obtain ⟨outcome, writer⟩ := valid.save_of_unbounded small few unbounded flushes
    exact ⟨outcome, b.contents, valid.length_contents small, writer⟩

/-- A descriptor that is replaced, two additions that fail, and an empty descriptor behind a
payload of `2 ^ 16` bytes, for which the positions become wider than the payload asks for. -/
theorem addAll_accounted_of_empty_last :
    let nop : Opcode := ⟨[0x90], by decide⟩
    let jump : Opcode := ⟨[0x0F, 0x84], by decide⟩
    let zeros : Bytes := List.replicate (2 ^ (16 : Nat)) 0
    let adds : List (Opcode × Payload) :=
      [(nop, .blob [1, 2, 3]), (.empty, .blob []), (jump, .blob []), (nop, .failing),
        (nop, .blob zeros)]
    let b := (addAll adds {}).2
    (b.payloadSize = 2 ^ (16 : Nat) ∧ positionFieldWidth b.payloadSize = 2 ∧
      b.positionWidth = 4) ∧
    Accounted b ∧ Roomy b ∧ (b.save {}).outcome = .ok 65564 := by
  intro nop jump zeros adds b
  have length : zeros.length = 2 ^ (16 : Nat) := List.length_replicate
  -- The zeros are not looked at while the additions run.
  clear_value zeros
  have run : addAll adds {} = ([(nop, .blob [1, 2, 3]), (jump, .blob []), (nop, .blob zeros)],
      ⟨[⟨nop, .blob zeros, zeros.length⟩, ⟨jump, .blob [], 0⟩], 0 + zeros.length⟩) := rfl
  rw [length, Nat.zero_add] at run
  have steady : ∀ a ∈ (addAll adds {}).1, Steady a.2 := by
    rw [run]
    simp only [List.forall_mem_cons]
    exact ⟨rfl, rfl, rfl, nofun⟩
  have payloadSize : b.payloadSize = 2 ^ (16 : Nat) := congrArg (fun r ↦ r.2.payloadSize) run
  have positionWidth : b.positionWidth = 4 := congrArg (fun r ↦ r.2.positionWidth) run
  have longest : b.maxOpcodeLength = 2 := congrArg (fun r ↦ r.2.maxOpcodeLength) run
  have size : b.size = 2 := congrArg (fun r ↦ r.2.size) run
  have total : b.totalSize = 65564 := by
    rw [totalSize, opcodeWidth, longest, positionWidth, size, payloadSize]
    rfl
  have small : b.totalSize < addressBound := by
    rw [total]
    decide
  obtain ⟨-, -, accounted, roomy, -, saves⟩ := addAll_accounted adds steady small
  have saved := (saves {} rfl rfl (by rw [size]; decide)).1
  exact ⟨⟨payloadSize, by rw [payloadSize]; rfl, positionWidth⟩, accounted, roomy, total ▸ saved⟩

end Disasm.Image.Builder
