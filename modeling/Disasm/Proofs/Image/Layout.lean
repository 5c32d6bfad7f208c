import Disasm.Index.Basic
import Disasm.Proofs.Image.Builder

/-!
# How an image is laid out

An image is its header, one field for each entry and the stored forms of the
descriptors, one after the other.  The widths that a builder chooses are enough
for every opcode and every position.
-/

namespace Disasm

/-! ## Fields -/

/-- The field that holds an opcode: its length, its bytes and zeros. -/
def Opcode.field (o : Opcode) (width : Nat) : Bytes :=
  UInt8.ofNat o.length :: o.bytes ++ List.replicate (width - (o.length + 1)) 0

/-- Nothing is left of what the field held before. -/
theorem Opcode.encodeInto_eq {o : Opcode} {field : Bytes} (fits : o.length < field.length) :
    o.encodeInto field = .ok (o.field field.length) := by
  rw [encodeInto, if_neg (Nat.not_le_of_lt fits), List.map_const', List.length_drop]
  rfl

theorem Opcode.encode_eq {o : Opcode} {width : Nat} (fits : o.length < width) :
    o.encode width = .ok (o.field width) := by
  have blank : (List.replicate width (0 : UInt8)).length = width := List.length_replicate
  rw [encode, encodeInto_eq (blank.symm ▸ fits), blank]

theorem Opcode.length_field {o : Opcode} {width : Nat} (fits : o.length < width) :
    (o.field width).length = width := by
  have : o.bytes.length = o.length := rfl
  simp only [field, List.cons_append, List.length_cons, List.length_append,
    List.length_replicate]
  omega

/-- Nothing is left of what the field held before. -/
theorem Bytes.writeUInt_whole {field : Bytes} {n : Nat} (valid : isFieldWidth field.length = true)
    (fits : n < 256 ^ field.length) :
    Bytes.writeUInt field 0 field.length n = .ok (Bytes.ofNat field.length n) := by
  have bounds : 1 ≤ field.length ∧ field.length ≤ 8 := by
    rw [isFieldWidth, Bool.and_eq_true] at valid
    exact ⟨of_decide_eq_true valid.1, of_decide_eq_true valid.2⟩
  have small : field.length < addressBound := Nat.lt_of_le_of_lt bounds.2 (by decide)
  have there : Bytes.slice? field 0 field.length = some field :=
    slice?_eq_some_iff.2 ⟨by omega, by simp, by simp⟩
  have whole : Bytes.overwrite field 0 (Bytes.ofNat field.length n) =
      Bytes.ofNat field.length n := by
    simp [overwrite]
  rw [writeUInt, valid, if_neg (by simp), if_neg (Nat.not_le_of_lt fits), writeAt, length_ofNat,
    there, whole]

theorem Bytes.writeUInt_eq {width n : Nat} (valid : isFieldWidth width = true)
    (fits : n < 256 ^ width) :
    Bytes.writeUInt (List.replicate width 0) 0 width n = .ok (Bytes.ofNat width n) := by
  have blank : (List.replicate width (0 : UInt8)).length = width := List.length_replicate
  rw [← blank] at valid fits
  have written := writeUInt_whole valid fits
  rwa [blank] at written

namespace Image

/-- The field of an entry. -/
def field (h : Header) (e : Index.Entry) : Bytes :=
  e.opcode.field h.opcodeWidth ++ Bytes.ofNat h.positionWidth e.position

/-- The fields of the table of a header can hold an entry. -/
structure Header.Fits (h : Header) (e : Index.Entry) : Prop where
  opcode : e.opcode.length < h.opcodeWidth
  position : e.position < 256 ^ h.positionWidth

theorem length_field {h : Header} {e : Index.Entry} (fits : h.Fits e) :
    (field h e).length = h.entrySize := by
  rw [field, List.length_append, Opcode.length_field fits.opcode, Bytes.length_ofNat]
  rfl

/-! ## Positions -/

namespace Builder

variable {δ : Type}

/-- The entries of the table, where the first descriptor stands at `position`. -/
def placed : (position : Nat) → List (Entry δ) → List Index.Entry
  | _, [] => []
  | position, e :: rest => ⟨e.opcode, position⟩ :: placed (position + e.size) rest

variable {position : Nat} {es : List (Entry δ)} {x : Index.Entry}

@[simp] theorem length_placed (position : Nat) (es : List (Entry δ)) :
    (placed position es).length = es.length := by
  induction es generalizing position with
  | nil => rfl
  | cons e es ih => simp [placed, ih]

@[simp] theorem map_opcode_placed (position : Nat) (es : List (Entry δ)) :
    (placed position es).map (·.opcode) = es.map (·.opcode) := by
  induction es generalizing position with
  | nil => rfl
  | cons e es ih => simp [placed, ih]

theorem exists_of_mem_placed (member : x ∈ placed position es) :
    ∃ e ∈ es, e.opcode = x.opcode := by
  have listed : x.opcode ∈ (placed position es).map (·.opcode) := List.mem_map_of_mem member
  rwa [map_opcode_placed, List.mem_map] at listed

theorem placed_append (position : Nat) (es es' : List (Entry δ)) :
    placed position (es ++ es') = placed position es ++ placed (position + sizes es) es' := by
  induction es generalizing position with
  | nil => rfl
  | cons e es ih =>
    rw [List.cons_append, placed, placed, ih, sizes_cons, Nat.add_assoc]
    rfl

theorem position_bounds_of_mem_placed (member : x ∈ placed position es) :
    position ≤ x.position ∧ x.position ≤ position + sizes es := by
  induction es generalizing position with
  | nil => cases member
  | cons e es ih =>
    rw [sizes_cons]
    rcases List.mem_cons.1 member with rfl | later
    · exact ⟨Nat.le_refl _, Nat.le_add_right _ _⟩
    · have := ih later
      omega

theorem lastPosition_eq {b : Builder δ} (account : b.payloadSize = sizes b.entries) :
    b.lastPosition = sizes b.entries.dropLast := by
  rw [lastPosition, account]
  rcases List.eq_nil_or_concat b.entries with none | ⟨front, last, eq⟩
  · rw [none]
    rfl
  · rw [List.concat_eq_append] at eq
    rw [eq, List.dropLast_concat, sizes_append, List.getLast?_concat]
    exact Nat.add_sub_cancel (sizes front) last.size

/-- The table holds no position behind that of the last descriptor. -/
theorem position_le_lastPosition {b : Builder δ} (account : b.payloadSize = sizes b.entries)
    (member : x ∈ placed 0 b.entries) : x.position ≤ b.lastPosition := by
  rw [lastPosition_eq account]
  rcases List.eq_nil_or_concat b.entries with none | ⟨front, last, eq⟩
  · rw [none] at member
    cases member
  · rw [List.concat_eq_append] at eq
    rw [eq, placed_append] at member
    rw [eq, List.dropLast_concat]
    rcases List.mem_append.1 member with early | here
    · have := (position_bounds_of_mem_placed early).2
      omega
    · rw [List.mem_singleton.1 here]
      exact Nat.le_of_eq (Nat.zero_add _)

/-! ## Widths -/

theorem isOpcodeWidth_opcodeFieldWidth {n : Nat} (short : n ≤ Disasm.maxOpcodeLength) :
    Header.isOpcodeWidth (opcodeFieldWidth n) = true := by
  have : n ≤ 255 := short
  simp only [Header.isOpcodeWidth, Bool.and_eq_true, decide_eq_true_eq]
  rw [opcodeFieldWidth]
  omega

/-- The widths of position fields. -/
theorem positionWidth_cases (b : Builder δ) :
    b.positionWidth = 2 ∨ b.positionWidth = 4 ∨ b.positionWidth = 8 := by
  have asked : ∀ n, positionFieldWidth n = 2 ∨ positionFieldWidth n = 4 ∨
      positionFieldWidth n = 8 := by
    intro n
    rw [positionFieldWidth]
    split
    · exact .inl rfl
    · split
      · exact .inr (.inl rfl)
      · exact .inr (.inr rfl)
  have needed : ∀ n, positionValueWidth n = 2 ∨ positionValueWidth n = 4 ∨
      positionValueWidth n = 8 := by
    intro n
    rw [positionValueWidth]
    split
    · exact .inl rfl
    · split
      · exact .inr (.inl rfl)
      · exact .inr (.inr rfl)
  have := asked b.payloadSize
  have := needed b.lastPosition
  rw [positionWidth]
  omega

theorem isFieldWidth_positionWidth (b : Builder δ) :
    Bytes.isFieldWidth b.positionWidth = true := by
  rcases b.positionWidth_cases with eq | eq | eq <;> rw [eq] <;> rfl

theorem lt_pow_positionValueWidth {n : Nat} (small : n < 2 ^ 64) :
    n < 256 ^ positionValueWidth n := by
  rw [positionValueWidth]
  split
  · assumption
  · split
    · assumption
    · exact small

theorem maxOpcodeLength_le (b : Builder δ) : b.maxOpcodeLength ≤ Disasm.maxOpcodeLength := by
  rw [maxOpcodeLength]
  cases b.entries.getLast? with
  | none => exact Nat.zero_le _
  | some last => exact last.opcode.length_le

variable {b : Builder δ}

theorem length_le_maxOpcodeLength (ascending : Ascending b.entries) {e : Entry δ}
    (member : e ∈ b.entries) : e.opcode.length ≤ b.maxOpcodeLength := by
  rw [maxOpcodeLength]
  cases ends : b.entries.getLast? with
  | none =>
    rw [List.getLast?_eq_none_iff.1 ends] at member
    cases member
  | some last => exact ascending.length_le ends member

theorem lastPosition_lt (small : b.totalSize < addressBound) :
    b.lastPosition < 256 ^ b.positionWidth := by
  have last : b.lastPosition < 2 ^ 64 :=
    Nat.lt_of_le_of_lt (Nat.le_trans (Nat.sub_le _ _) (Nat.le_add_left _ _)) small
  calc b.lastPosition
      < 256 ^ positionValueWidth b.lastPosition := lt_pow_positionValueWidth last
    _ ≤ 256 ^ b.positionWidth := Nat.pow_le_pow_right (by decide) (Nat.le_max_right _ _)

theorem length_lt_opcodeWidth (ascending : Ascending b.entries) (member : x ∈ placed 0 b.entries) :
    x.opcode.length < b.opcodeWidth := by
  obtain ⟨e, there, same⟩ := exists_of_mem_placed member
  have := length_le_maxOpcodeLength ascending there
  rw [← same]
  change e.opcode.length < opcodeFieldWidth b.maxOpcodeLength
  rw [opcodeFieldWidth]
  omega

/-- The widths that a builder chooses are enough. -/
theorem fits_of_mem_placed (ascending : Ascending b.entries)
    (account : b.payloadSize = sizes b.entries) (small : b.totalSize < addressBound)
    (member : x ∈ placed 0 b.entries) : b.header.Fits x where
  opcode := length_lt_opcodeWidth ascending member
  position := Nat.lt_of_le_of_lt (position_le_lastPosition account member) (lastPosition_lt small)

/-! ## Contents -/

/-- The fields of all entries. -/
def table (b : Builder δ) : Bytes := (placed 0 b.entries).flatMap (field b.header)

theorem length_table (fits : ∀ x ∈ placed 0 b.entries, b.header.Fits x) :
    b.table.length = b.header.tableSize := by
  have all : ∀ xs : List Index.Entry, (∀ x ∈ xs, b.header.Fits x) →
      (xs.flatMap (field b.header)).length = xs.length * b.header.entrySize := by
    intro xs
    induction xs with
    | nil => exact fun _ ↦ (Nat.zero_mul _).symm
    | cons x xs ih =>
      intro fits
      rw [List.flatMap_cons, List.length_append, length_field (fits x (List.mem_cons_self ..)),
        ih fun x member ↦ fits x (List.mem_cons_of_mem _ member), List.length_cons,
        Nat.succ_mul, Nat.add_comm]
  rw [table, all _ fits, length_placed]
  rfl

variable [Descriptor δ]

/-- The stored form of an entry's descriptor. -/
def storedBytes (e : Entry δ) : Bytes := (Descriptor.save e.descriptor).1.toOption.getD []

theorem Stored.storedBytes_eq {e : Entry δ} {bs : Bytes} (h : Stored e bs) :
    storedBytes e = bs := by
  rw [storedBytes, h.saved]
  rfl

theorem Valid.stored_storedBytes (h : b.Valid) {e : Entry δ} (member : e ∈ b.entries) :
    Stored e (storedBytes e) := by
  obtain ⟨bs, stored⟩ := h.stored e member
  exact stored.storedBytes_eq ▸ stored

/-- The stored forms of all descriptors. -/
def payload (es : List (Entry δ)) : Bytes := es.flatMap storedBytes

theorem length_payload (stored : ∀ e ∈ es, ∃ bs, Stored e bs) :
    (payload es).length = sizes es := by
  induction es with
  | nil => rfl
  | cons e es ih =>
    obtain ⟨bs, first⟩ := stored e (List.mem_cons_self ..)
    have rest := ih fun e member ↦ stored e (List.mem_cons_of_mem _ member)
    rw [payload, List.flatMap_cons, List.length_append, first.storedBytes_eq, ← first.size_eq]
    exact congrArg (e.size + ·) rest

/-- The bytes of the image. -/
def contents (b : Builder δ) : Bytes := b.header.bytes ++ b.table ++ payload b.entries

theorem Valid.fits (h : b.Valid) (small : b.totalSize < addressBound) {x : Index.Entry}
    (member : x ∈ placed 0 b.entries) : b.header.Fits x :=
  fits_of_mem_placed h.ascending h.payloadSize_eq small member

theorem Valid.length_contents_of_fits (h : b.Valid)
    (fits : ∀ x ∈ placed 0 b.entries, b.header.Fits x) : b.contents.length = b.totalSize := by
  rw [contents, List.length_append, List.length_append, Header.length_bytes, length_table fits,
    length_payload h.stored, ← h.payloadSize_eq, totalSize, Header.tableSize, Nat.mul_comm]
  rfl

theorem Valid.length_contents (h : b.Valid) (small : b.totalSize < addressBound) :
    b.contents.length = b.totalSize :=
  h.length_contents_of_fits fun _ ↦ h.fits small

end Builder

end Image

end Disasm
