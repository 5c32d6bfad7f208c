import Disasm.Proofs.Index.Format

/-!
# Slices of the payload

In whatever image is accepted, the positions of the table cut the payload into
consecutive slices, one for each entry: positions never decrease and none lies
behind the end.  So loading a descriptor reads its own slice and nothing else,
and only the factory can make it fail.
-/

namespace Disasm.Index

variable {δ : Type}

/-- The bytes behind the table. -/
def payload (ix : Index δ) : Bytes := ix.file.data.drop ix.payloadStart

/-- The position of the entry at `i`; behind the last entry, the end of the
payload. -/
def start (ix : Index δ) (i : Nat) : Nat :=
  (ix.entries[i]?.map (·.position)).getD ix.payload.length

/-- The bytes of the payload from the position of the entry at `i` to that of the
next entry, or to the end. -/
def slice (ix : Index δ) (i : Nat) : Bytes := ix.payload.extract (ix.start i) (ix.start (i + 1))

/-- What a factory makes of the bytes that are stored for an opcode.  Its failure is
told with the opcode. -/
def Factory.make (factory : Factory δ) (o : Opcode) (bs : Bytes) : Except Error δ :=
  match factory.load o { data := bs } with
  | .ok d _ => .ok d
  | .error cause _ => .error (.descriptor o cause)

/-- Every entry has a slice of the payload of its own. -/
structure Sliced (ix : Index δ) : Prop where
  /-- The payload is the end of the file. -/
  inside : ix.payloadStart + ix.payload.length = ix.file.length
  /-- A slice ends neither before it begins nor behind the payload. -/
  bounds : ∀ i e, ix.entries[i]? = some e →
    e.position ≤ ix.stop i ∧ ix.stop i ≤ ix.payload.length
  /-- The bytes that are loaded from are those of the slice. -/
  stored : ∀ i e, ix.entries[i]? = some e → ix.stored i e = .ok (ix.slice i)
  /-- No two slices overlap. -/
  apart : Pairwise (Function.onFun Disjoint fun i ↦ Set.Ico (ix.start i) (ix.start (i + 1)))
  /-- There is no gap between them. -/
  whole : ((List.range ix.entries.length).map ix.slice).flatten = ix.payload.drop (ix.start 0)
  /-- Only the factory can fail. -/
  load : ∀ i e, ix.entries[i]? = some e → ix.load i = ix.factory.make e.opcode (ix.slice i)

/-! ## Positions -/

variable {ix : Index δ} {i : Nat} {e : Entry}

theorem length_payload (ix : Index δ) : ix.payload.length = ix.payloadSize := List.length_drop

theorem start_eq (there : ix.entries[i]? = some e) : ix.start i = e.position := by
  rw [start, there]
  rfl

theorem start_of_le (behind : ix.entries.length ≤ i) : ix.start i = ix.payload.length := by
  rw [start, List.getElem?_eq_none behind]
  rfl

/-- A slice ends where the next one begins. -/
theorem stop_eq_start (ix : Index δ) (i : Nat) : ix.stop i = ix.start (i + 1) := by
  rw [stop, start, length_payload]
  cases ix.entries[i + 1]? <;> rfl

section Opened

variable {factory : Factory δ} {config : Config} {file : File}

theorem Opened.payloadStart_le (h : Opened factory config file ix) :
    ix.payloadStart ≤ ix.file.length := by
  obtain ⟨conforms, rfl⟩ := opened_iff_conforms.1 h
  exact conforms.table

theorem Opened.start_le (h : Opened factory config file ix) (i : Nat) :
    ix.start i ≤ ix.payload.length := by
  cases there : ix.entries[i]? with
  | none => exact Nat.le_of_eq (start_of_le (List.getElem?_eq_none_iff.1 there))
  | some e =>
    obtain ⟨field, holds⟩ := h.exists_holds (List.mem_of_getElem? there)
    rw [start_eq there, length_payload]
    exact holds.position_le

theorem Opened.monotone_start (h : Opened factory config file ix) : Monotone ix.start := by
  refine monotone_nat_of_le_succ fun i ↦ ?_
  cases next : ix.entries[i + 1]? with
  | none =>
    rw [start_of_le (List.getElem?_eq_none_iff.1 next)]
    exact h.start_le i
  | some e' =>
    obtain ⟨inside, rfl⟩ := List.getElem?_eq_some_iff.1 next
    have before : i < ix.entries.length := Nat.lt_of_succ_lt inside
    rw [start_eq next, start_eq (List.getElem?_eq_getElem before)]
    exact (List.isChain_iff_getElem.1 h.ordered i inside).position_le

end Opened

/-! ## Slices -/

theorem extract_append_extract (bs : Bytes) {a b c : Nat} (first : a ≤ b) (second : b ≤ c) :
    bs.extract a b ++ bs.extract b c = bs.extract a c := by
  have size : c - a = b - a + (c - b) := by omega
  rw [List.extract, List.extract, List.extract, size, List.take_add, List.drop_drop,
    Nat.add_sub_cancel' first]

/-- Slices between places that do not go back make up what lies between the first
and the last. -/
theorem flatten_extract {place : Nat → Nat} (mono : Monotone place) (bs : Bytes) (n : Nat) :
    ((List.range n).map fun i ↦ bs.extract (place i) (place (i + 1))).flatten =
      bs.extract (place 0) (place n) := by
  induction n with
  | zero => simp
  | succ n ih =>
    rw [List.range_succ, List.map_append, List.flatten_append, ih]
    simp only [List.map_cons, List.map_nil, List.flatten_cons, List.flatten_nil, List.append_nil]
    exact extract_append_extract bs (mono (Nat.zero_le n)) (mono (Nat.le_succ n))

section Opened

variable {factory : Factory δ} {config : Config} {file : File}

theorem Opened.stored_eq (h : Opened factory config file ix) (small : ix.file.length < addressBound)
    (there : ix.entries[i]? = some e) : ix.stored i e = .ok (ix.slice i) := by
  have forward : ix.start i ≤ ix.start (i + 1) := h.monotone_start (Nat.le_succ i)
  have inside := h.start_le (i + 1)
  have payload := h.payloadStart_le
  have length : ix.file.data.length = ix.file.length := rfl
  rw [length_payload, payloadSize] at inside
  rw [Index.stored, stop_eq_start, ← start_eq there, File.slice, Bytes.slice?,
    if_pos (by omega), ← List.drop_drop]
  rfl

theorem load_of_stored {bs : Bytes} (there : ix.entries[i]? = some e)
    (stored : ix.stored i e = .ok bs) : ix.load i = ix.factory.make e.opcode bs := by
  rw [load, there]
  dsimp only
  rw [stored]
  rfl

theorem Opened.sliced (h : Opened factory config file ix) (small : ix.file.length < addressBound) :
    ix.Sliced where
  inside := by
    rw [length_payload, payloadSize, Nat.add_sub_cancel' h.payloadStart_le]
  bounds i e there := by
    rw [stop_eq_start, ← start_eq there]
    exact ⟨h.monotone_start (Nat.le_succ i), h.start_le (i + 1)⟩
  stored i e there := h.stored_eq small there
  apart := h.monotone_start.pairwise_disjoint_on_Ico_succ
  whole := by
    refine (flatten_extract h.monotone_start ix.payload ix.entries.length).trans ?_
    rw [start_of_le (Nat.le_refl _), List.extract, ← List.length_drop, List.take_length]
  load i e there := load_of_stored there (h.stored_eq small there)

/-- In an image that is accepted, in order or not, every entry has a slice of the
payload of its own, and its descriptor is loaded from there.  If the order was
verified, the opcodes of the table are those that are found, each with its own
slice.  A file is no longer than addresses reach. -/
theorem openFile_slices_payload (opened : openFile factory config file = .ok ix)
    (small : file.length < addressBound) :
    ix.factory = factory ∧ ix.file = file ∧ ix.Sliced ∧
      (config.verifyOrder = true →
        (∀ o, ix.contains o = true ↔ o ∈ ix.opcodes) ∧
          ∀ i e, ix.entries[i]? = some e →
            ix.descriptor e.opcode = (ix.factory.make e.opcode (ix.slice i)).map some) := by
  have image := openFile_eq_ok_iff.1 opened
  have sliced := image.sliced (by rwa [image.file_eq])
  refine ⟨image.factory_eq, image.file_eq, sliced, fun verify ↦ ⟨fun o ↦ ?_, fun i e there ↦ ?_⟩⟩
  · rw [contains, isSome_find? (image.sorted verify)]
    constructor
    · rintro ⟨o', listed, same⟩
      exact Opcode.ext_bytes same ▸ listed
    · exact fun listed ↦ ⟨o, listed, rfl⟩
  · rw [descriptor_eq (image.sorted verify) there, sliced.load i e there]

/-- A table out of order, with an empty slice between two others and a byte of the
payload before the first. -/
theorem openFile_slices_payload_of_three :
    let file : File :=
      ⟨[0x4F, 0x50, 0x49, 0x58, 3, 0, 0, 0, 2, 0, 2, 0, 1, 7, 1, 0, 1, 9, 3, 0, 1, 8, 3, 0,
        0xAA, 0xBB, 0xCC, 0xDD], by decide⟩
    let ix : Index Bytes := ⟨.raw, file, ⟨3, 2, 2⟩,
      [⟨⟨[7], by decide⟩, 1⟩, ⟨⟨[9], by decide⟩, 3⟩, ⟨⟨[8], by decide⟩, 3⟩], .lenient⟩
    openFile .raw .lenient file = .ok ix ∧ ix.Sliced ∧
      (List.range 3).map ix.slice = [[0xBB, 0xCC], [], [0xDD]] ∧ ix.load 1 = .ok [] := by
  intro file ix
  have opened : openFile .raw .lenient file = .ok ix := by cbv
  obtain ⟨-, -, sliced, -⟩ := openFile_slices_payload opened (by decide)
  refine ⟨opened, sliced, by decide, ?_⟩
  rw [sliced.load 1 _ rfl]
  rfl

end Opened

end Disasm.Index
