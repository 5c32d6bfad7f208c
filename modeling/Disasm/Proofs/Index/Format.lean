import Disasm.Proofs.Image.Header
import Disasm.Proofs.Index.Match
import Disasm.Proofs.Index.Table

/-!
# Which images are accepted

The format of an image is said of its bytes alone: what the twelve bytes of the
header spell, and what the fields behind them hold.  An image is opened exactly
if it conforms, and then its entries are those that the fields hold.
-/

namespace Disasm

/-! ## Fields -/

/-- A part of a part of the bytes. -/
theorem Bytes.take_drop_take_drop {data : Bytes} {start size offset count : Nat}
    (fits : offset + count ≤ size) :
    (((data.drop start).take size).drop offset).take count =
      (data.drop (start + offset)).take count := by
  rw [List.drop_take, List.take_take, List.drop_drop, Nat.min_eq_left (by omega)]

theorem Bytes.number_take_drop {data : Bytes} {start size offset width : Nat}
    (fits : offset + width ≤ size) :
    Bytes.number ((data.drop start).take size) offset width =
      data.number (start + offset) width :=
  congrArg Bytes.value (take_drop_take_drop fits)

theorem Bytes.readUInt_eq_ok_iff {data : Bytes} {offset width n : Nat}
    (valid : isFieldWidth width = true) (small : offset + width < addressBound) :
    data.readUInt offset width = .ok n ↔
      offset + width ≤ data.length ∧ n = data.number offset width := by
  rw [readUInt, valid, if_neg (by simp), slice?]
  by_cases fits : offset + width ≤ data.length
  · rw [if_pos ⟨small, fits⟩, and_iff_right fits]
    dsimp only
    rw [Except.ok.injEq, eq_comm]
    rfl
  · rw [if_neg fun both ↦ fits both.2]
    refine ⟨fun made ↦ ?_, fun both ↦ absurd both.1 fits⟩
    cases made

/-- A field holds the opcode that its first byte counts, if so many bytes follow. -/
theorem Opcode.decode_eq_ok_iff {field : Bytes} {o : Opcode} :
    decode field = .ok o ↔
      field.number 0 1 < field.length ∧ o.bytes = (field.drop 1).take (field.number 0 1) := by
  cases field with
  | nil =>
    refine ⟨fun made ↦ ?_, fun both ↦ absurd both.1 (Nat.not_lt_zero _)⟩
    cases made
  | cons length rest =>
    have count : Bytes.number (length :: rest) 0 1 = length.toNat := by
      simp [Bytes.number, Bytes.value]
    have short : length.toNat ≤ maxOpcodeLength := Nat.le_of_lt_succ length.toNat_lt
    have small : 1 + length.toNat < addressBound :=
      Nat.lt_of_le_of_lt (Nat.add_le_add_left short 1) (by decide)
    rw [count]
    change ofSlice (length :: rest) 1 length.toNat = _ ↔ _
    rw [ofSlice, if_neg (Nat.not_lt.2 short), Bytes.slice?]
    by_cases fits : length.toNat < (length :: rest).length
    · rw [if_pos ⟨small, by omega⟩, and_iff_right fits]
      dsimp only
      rw [ofBytes, dif_pos (Nat.le_trans (List.length_take_le _ _) short)]
      constructor
      · intro made
        cases made
        rfl
      · intro same
        exact congrArg Except.ok (ext_bytes same.symm)
    · rw [if_neg fun both ↦ fits (by omega)]
      refine ⟨fun made ↦ ?_, fun both ↦ absurd both.1 fits⟩
      cases made

namespace Image

/-! ## What the bytes hold -/

/-- Where the field of the entry at `i` begins. -/
def fieldStart (h : Header) (i : Nat) : Nat := headerSize + i * h.entrySize

/-- The length of the opcode in the field at `i`. -/
def lengthAt (h : Header) (data : Bytes) (i : Nat) : Nat := data.number (fieldStart h i) 1

/-- The opcode in the field at `i`, without the bytes that fill the field. -/
def opcodeAt (h : Header) (data : Bytes) (i : Nat) : Bytes :=
  (data.drop (fieldStart h i + 1)).take (lengthAt h data i)

/-- The position in the field at `i`. -/
def positionAt (h : Header) (data : Bytes) (i : Nat) : Nat :=
  data.number (fieldStart h i + h.opcodeWidth) h.positionWidth

theorem length_opcodeAt_le (h : Header) (data : Bytes) (i : Nat) :
    (opcodeAt h data i).length ≤ maxOpcodeLength :=
  Nat.le_trans (List.length_take_le _ _) (Nat.le_of_lt_succ (data.number_lt _ 1))

/-- The entry in the field at `i`. -/
def entryAt (h : Header) (data : Bytes) (i : Nat) : Index.Entry where
  opcode := ⟨opcodeAt h data i, length_opcodeAt_le h data i⟩
  position := positionAt h data i

/-- The bytes are an image, whose opcodes are in order if that is to be verified. -/
structure Conforms (verify : Bool) (data : Bytes) : Prop extends Header.Headed data where
  /-- The table lies inside the file. -/
  table : 12 + (Header.spelled data).tableSize ≤ data.length
  /-- An opcode is not empty and ends inside its field. -/
  opcode : ∀ i < (Header.spelled data).entries,
    1 ≤ lengthAt (Header.spelled data) data i ∧
      lengthAt (Header.spelled data) data i ≤ (Header.spelled data).opcodeWidth - 1
  /-- A position lies inside the payload or at its end. -/
  position : ∀ i < (Header.spelled data).entries,
    positionAt (Header.spelled data) data i ≤ data.length - (12 + (Header.spelled data).tableSize)
  /-- Positions do not decrease. -/
  positions : ∀ i j, i < j → j < (Header.spelled data).entries →
    positionAt (Header.spelled data) data i ≤ positionAt (Header.spelled data) data j
  opcodes : verify = true → ∀ i j, i < j → j < (Header.spelled data).entries →
    (opcodeAt (Header.spelled data) data i).shortlex (opcodeAt (Header.spelled data) data j) = .lt

theorem length_opcodeAt {h : Header} {data : Bytes} {i : Nat}
    (inside : fieldStart h i + h.opcodeWidth ≤ data.length)
    (short : lengthAt h data i < h.opcodeWidth) :
    (opcodeAt h data i).length = lengthAt h data i := by
  rw [opcodeAt, List.length_take, List.length_drop]
  omega

end Image

namespace Index

open Image (Header headerSize fieldStart lengthAt opcodeAt positionAt entryAt Conforms)

/-! ## Reading the table -/

variable {h : Header} {data : Bytes} {payload i : Nat} {e : Entry}

/-- The bytes of the field at `i`. -/
def fieldAt (h : Header) (data : Bytes) (i : Nat) : Bytes :=
  (data.drop (fieldStart h i)).take h.entrySize

theorem decode_fieldAt (valid : h.Valid) {o : Opcode}
    (inside : fieldStart h i + h.entrySize ≤ data.length) :
    Opcode.decode ((fieldAt h data i).take h.opcodeWidth) = .ok o ↔
      lengthAt h data i < h.opcodeWidth ∧ o.bytes = opcodeAt h data i := by
  have wide := valid.opcodeWidth_bounds
  have narrow : h.opcodeWidth ≤ h.entrySize := Nat.le_add_right _ _
  have front : (fieldAt h data i).take h.opcodeWidth =
      (data.drop (fieldStart h i)).take h.opcodeWidth := by
    rw [fieldAt, List.take_take, Nat.min_eq_left narrow]
  have length : ((data.drop (fieldStart h i)).take h.opcodeWidth).length = h.opcodeWidth := by
    rw [List.length_take, List.length_drop]
    omega
  have count : Bytes.number ((data.drop (fieldStart h i)).take h.opcodeWidth) 0 1 =
      lengthAt h data i := Bytes.number_take_drop (by omega)
  rw [front, Opcode.decode_eq_ok_iff, length, count]
  refine and_congr_right fun short ↦ ?_
  rw [Bytes.take_drop_take_drop (by omega)]
  rfl

/-- What a field must hold, said of the bytes. -/
theorem holds_fieldAt (valid : h.Valid) (inside : fieldStart h i + h.entrySize ≤ data.length) :
    Holds h payload (fieldAt h data i) e ↔
      (1 ≤ lengthAt h data i ∧ lengthAt h data i ≤ h.opcodeWidth - 1) ∧
        positionAt h data i ≤ payload ∧ entryAt h data i = e := by
  have wide := valid.opcodeWidth_bounds
  have bounds := valid.positionWidth_bounds
  have size : h.entrySize = h.opcodeWidth + h.positionWidth := rfl
  have width : Bytes.isFieldWidth h.positionWidth = true := by
    simp [Bytes.isFieldWidth, bounds]
  have small : h.opcodeWidth + h.positionWidth < addressBound := by
    have : 264 < addressBound := by decide
    omega
  have length : (fieldAt h data i).length = h.opcodeWidth + h.positionWidth := by
    rw [fieldAt, List.length_take, List.length_drop]
    omega
  have position : (fieldAt h data i).readUInt h.opcodeWidth h.positionWidth = .ok e.position ↔
      e.position = positionAt h data i := by
    rw [Bytes.readUInt_eq_ok_iff width small, length, and_iff_right (Nat.le_refl _), fieldAt,
      Bytes.number_take_drop (Nat.le_of_eq size.symm)]
    rfl
  have filled : lengthAt h data i < h.opcodeWidth → e.opcode.bytes = opcodeAt h data i →
      (¬e.opcode.isEmpty ↔ 1 ≤ lengthAt h data i) := by
    intro short same
    rw [Opcode.isEmpty, same, List.isEmpty_iff_length_eq_zero,
      Image.length_opcodeAt (by omega) short]
    omega
  constructor
  · rintro ⟨opcode, nonempty, placed, fits⟩
    obtain ⟨short, same⟩ := (decode_fieldAt valid inside).1 opcode
    have start := position.1 placed
    refine ⟨⟨(filled short same).1 nonempty, by omega⟩, start ▸ fits, ?_⟩
    cases e
    exact congrArg₂ Entry.mk (Opcode.ext_bytes same.symm) start.symm
  · rintro ⟨⟨least, most⟩, fits, rfl⟩
    have short : lengthAt h data i < h.opcodeWidth := by omega
    exact ⟨(decode_fieldAt valid inside).2 ⟨short, rfl⟩, (filled short rfl).2 least,
      position.2 rfl, fits⟩

theorem chunks_eq_map (size count : Nat) (bs : Bytes) :
    chunks size count bs = (List.range count).map fun i ↦ (bs.drop (i * size)).take size := by
  induction count generalizing bs with
  | zero => rfl
  | succ count ih =>
    rw [chunks, ih, List.range_succ_eq_map, List.map_cons, List.map_map, Nat.zero_mul,
      List.drop_zero]
    refine congrArg _ (List.map_congr_left fun i _ ↦ ?_)
    rw [List.drop_drop, Function.comp_apply, Nat.succ_mul, Nat.add_comm]

/-- A table that lies inside the file is cut into its fields. -/
theorem chunks_table (h : Header) (data : Bytes) :
    chunks h.entrySize h.entries ((data.drop headerSize).take h.tableSize) =
      (List.range h.entries).map (fieldAt h data) := by
  rw [chunks_eq_map]
  refine List.map_congr_left fun i member ↦ Bytes.take_drop_take_drop ?_
  have before : i + 1 ≤ h.entries := List.mem_range.1 member
  calc i * h.entrySize + h.entrySize
      = (i + 1) * h.entrySize := (Nat.succ_mul ..).symm
    _ ≤ h.entries * h.entrySize := Nat.mul_le_mul_right _ before

theorem slice_table {file : File} {table : Bytes} (valid : h.Valid) :
    file.slice headerSize h.tableSize = .ok table ↔
      headerSize + h.tableSize ≤ file.length ∧
        table = (file.data.drop headerSize).take h.tableSize := by
  have opcode := valid.opcodeWidth_bounds
  have position := valid.positionWidth_bounds
  have small : headerSize + h.tableSize < addressBound := by
    have few : h.tableSize ≤ 2 ^ 32 * 264 :=
      Nat.mul_le_mul (Nat.le_of_lt valid.entries) (Nat.add_le_add opcode.2 position.2)
    have : 12 + 2 ^ 32 * 264 < addressBound := by decide
    exact Nat.lt_of_le_of_lt (Nat.add_le_add_left few _) this
  rw [File.slice, Bytes.slice?]
  by_cases fits : headerSize + h.tableSize ≤ file.data.length
  · rw [if_pos ⟨small, fits⟩, File.length, and_iff_right fits]
    dsimp only
    rw [Except.ok.injEq, eq_comm]
  · rw [if_neg fun both ↦ fits both.2]
    refine ⟨fun made ↦ ?_, fun both ↦ absurd both.1 fits⟩
    cases made

/-- The fields of a table lie where the table lies. -/
theorem fieldStart_add_le (inside : headerSize + h.tableSize ≤ data.length)
    (before : i < h.entries) : fieldStart h i + h.entrySize ≤ data.length := by
  have : (i + 1) * h.entrySize ≤ h.entries * h.entrySize := Nat.mul_le_mul_right _ before
  rw [Nat.succ_mul] at this
  rw [Header.tableSize] at inside
  rw [fieldStart]
  omega

/-- The fields hold entries that are right one by one exactly if these are the
entries in the fields. -/
theorem forall₂_holds (valid : h.Valid) (inside : headerSize + h.tableSize ≤ data.length)
    {entries : List Entry} :
    List.Forall₂ (Holds h payload) ((List.range h.entries).map (fieldAt h data)) entries ↔
      (∀ i < h.entries, (1 ≤ lengthAt h data i ∧ lengthAt h data i ≤ h.opcodeWidth - 1) ∧
          positionAt h data i ≤ payload) ∧
        entries = (List.range h.entries).map (entryAt h data) := by
  rw [List.forall₂_map_left_iff]
  constructor
  · intro holds
    have each := ((List.forall₂_and_left _ _).2 ⟨fun i ↦ List.mem_range.1, holds⟩).imp
      fun i e both ↦ and_assoc.2 ((holds_fieldAt valid (fieldStart_add_le inside both.1)).1 both.2)
    obtain ⟨right, same⟩ := (List.forall₂_and_left _ _).1 each
    rw [← List.forall₂_map_left_iff, List.forall₂_eq_eq_eq] at same
    exact ⟨fun i before ↦ right i (List.mem_range.2 before), same.symm⟩
  · rintro ⟨right, rfl⟩
    rw [List.forall₂_map_right_iff, List.forall₂_same]
    intro i member
    have before := List.mem_range.1 member
    exact (holds_fieldAt valid (fieldStart_add_le inside before)).2
      ⟨(right i before).1, (right i before).2, rfl⟩

/-- The entries in the fields stand in order exactly if this holds of the bytes. -/
theorem isChain_entryAt {config : Config} {count : Nat} :
    ((List.range count).map (entryAt h data)).IsChain (Precedes config) ↔
      (∀ i j, i < j → j < count → positionAt h data i ≤ positionAt h data j) ∧
        (config.verifyOrder = true → ∀ i j, i < j → j < count →
          (opcodeAt h data i).shortlex (opcodeAt h data j) = .lt) := by
  rw [List.isChain_iff_pairwise, List.pairwise_map, List.pairwise_iff_getElem]
  simp only [List.length_range, List.getElem_range]
  constructor
  · intro ordered
    refine ⟨fun i j lt before ↦ ?_, fun verify i j lt before ↦ ?_⟩
    · exact (ordered i j (Nat.lt_trans lt before) before lt).position_le
    · exact (ordered i j (Nat.lt_trans lt before) before lt).opcode_lt verify
  · rintro ⟨positions, opcodes⟩ i j - before lt
    exact ⟨positions i j lt before, fun verify ↦ opcodes verify i j lt before⟩

/-! ## Opening -/

variable {δ : Type} {factory : Factory δ} {config : Config} {file : File} {ix : Index δ}

/-- The index of the entries in the fields of a file. -/
def ofImage (factory : Factory δ) (config : Config) (file : File) : Index δ where
  factory := factory
  file := file
  header := Header.spelled file.data
  entries := (List.range (Header.spelled file.data).entries).map
    (entryAt (Header.spelled file.data) file.data)
  config := config

/-- An image is opened exactly if it conforms, as the index of its fields. -/
theorem opened_iff_conforms :
    Opened factory config file ix ↔
      Conforms config.verifyOrder file.data ∧ ix = ofImage factory config file := by
  constructor
  · rintro ⟨rfl, rfl, rfl, headed, ⟨table, sliced, holds⟩, ordered⟩
    obtain ⟨headed, header⟩ := Header.read_eq_ok_iff.1 headed
    have valid := header ▸ headed.valid
    obtain ⟨inside, rfl⟩ := (slice_table valid).1 sliced
    rw [chunks_table, forall₂_holds valid inside] at holds
    obtain ⟨right, entries⟩ := holds
    rw [entries, isChain_entryAt] at ordered
    obtain ⟨factory, file, _, _, config⟩ := ix
    dsimp only at header entries
    subst header entries
    exact ⟨⟨headed, inside, fun i before ↦ (right i before).1, fun i before ↦ (right i before).2,
      ordered.1, ordered.2⟩, rfl⟩
  · rintro ⟨conforms, rfl⟩
    have valid := conforms.valid
    refine ⟨rfl, rfl, rfl, Header.read_eq_ok_iff.2 ⟨conforms.toHeaded, rfl⟩,
      ⟨_, (slice_table valid).2 ⟨conforms.table, rfl⟩, ?_⟩,
      isChain_entryAt.2 ⟨conforms.positions, conforms.opcodes⟩⟩
    have fields := (forall₂_holds valid conforms.table).2
      ⟨fun i before ↦ ⟨conforms.opcode i before, conforms.position i before⟩, rfl⟩
    rwa [← chunks_table] at fields

theorem openFile_eq_ok_iff_conforms :
    openFile factory config file = .ok ix ↔
      Conforms config.verifyOrder file.data ∧ ix = ofImage factory config file :=
  openFile_eq_ok_iff.trans opened_iff_conforms

/-- The longest opcode is that of the greatest length byte. -/
theorem maxOpcodeLength_ofImage {verify : Bool} (conforms : Conforms verify file.data) :
    (ofImage factory config file).maxOpcodeLength =
      (Finset.range (Header.spelled file.data).entries).sup
        (lengthAt (Header.spelled file.data) file.data) := by
  have length : ∀ i < (Header.spelled file.data).entries,
      (entryAt (Header.spelled file.data) file.data i).opcode.length =
        lengthAt (Header.spelled file.data) file.data i := by
    intro i before
    have inside := fieldStart_add_le conforms.table before
    have most := (conforms.opcode i before).2
    have wide := conforms.opcodeWidth
    refine Image.length_opcodeAt (Nat.le_trans ?_ inside) (by omega)
    exact Nat.add_le_add_left (Nat.le_add_right _ _) _
  refine eq_of_forall_ge_iff fun n ↦ ?_
  rw [maxOpcodeLength_le_iff, Finset.sup_le_iff, opcodes, List.forall_mem_map]
  change (∀ e ∈ (List.range _).map _, _) ↔ _
  rw [List.forall_mem_map]
  simp only [List.mem_range, Finset.mem_range]
  exact forall₂_congr fun i before ↦ by rw [length i before]

/-- An image is accepted exactly if its bytes conform to the format.  Then the
entries are those in the fields of the table, in their order, and the longest
opcode is as long as the greatest length byte says. -/
theorem openFile_accepts_conforming (factory : Factory δ) (config : Config) (file : File) :
    ((∃ ix, openFile factory config file = .ok ix) ↔ Conforms config.verifyOrder file.data) ∧
      ∀ ix, openFile factory config file = .ok ix →
        ix.entries = (List.range (Header.spelled file.data).entries).map
            (entryAt (Header.spelled file.data) file.data) ∧
          ix.maxOpcodeLength = (Finset.range (Header.spelled file.data).entries).sup
            (lengthAt (Header.spelled file.data) file.data) := by
  simp only [openFile_eq_ok_iff_conforms, exists_and_left]
  refine ⟨and_iff_left ⟨_, rfl⟩, ?_⟩
  rintro ix ⟨conforms, rfl⟩
  exact ⟨rfl, maxOpcodeLength_ofImage conforms⟩

/-- Opcodes that decrease, bytes behind an opcode that are not zero, and a position
at the end of the payload: accepted unless the order is to be verified. -/
theorem openFile_accepts_conforming_unordered :
    let file : File :=
      ⟨[0x4F, 0x50, 0x49, 0x58, 2, 0, 0, 0, 4, 0, 2, 0, 2, 7, 8, 0xFF, 0, 0, 1, 9, 0xFF, 0xFF,
        1, 0, 0xAA], by decide⟩
    Conforms false file.data ∧ ¬Conforms true file.data ∧
      ∀ ix, openFile .raw .lenient file = .ok ix →
        ix.entries = [⟨⟨[7, 8], by decide⟩, 0⟩, ⟨⟨[9], by decide⟩, 1⟩] ∧
          ix.maxOpcodeLength = 2 := by
  intro file
  have lenient : openFile .raw .lenient file =
      .ok ⟨.raw, file, ⟨2, 4, 2⟩, [⟨⟨[7, 8], by decide⟩, 0⟩, ⟨⟨[9], by decide⟩, 1⟩], .lenient⟩ := by
    cbv
  have strict : openFile .raw {} file =
      .error (.entryOrder ⟨[9], by decide⟩ ⟨[7, 8], by decide⟩) := by
    cbv
  obtain ⟨accepts, reads⟩ := openFile_accepts_conforming .raw .lenient file
  refine ⟨accepts.1 ⟨_, lenient⟩, fun conforms ↦ ?_, fun ix opened ↦ ?_⟩
  · obtain ⟨ix, opened⟩ := (openFile_accepts_conforming .raw {} file).1.2 conforms
    rw [strict] at opened
    cases opened
  · obtain ⟨entries, longest⟩ := reads ix opened
    exact ⟨entries.trans (by decide), longest.trans (by decide)⟩

end Index

end Disasm
