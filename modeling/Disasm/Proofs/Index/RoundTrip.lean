import Disasm.Proofs.Image.Header
import Disasm.Proofs.Image.Saving
import Disasm.Proofs.Index.Match
import Disasm.Proofs.Index.Table
import Disasm.Proofs.Instruction

/-!
# Images are read back

An index opened from the image of a builder has the entries of the builder, and
every descriptor is loaded from the bytes that were stored for it.  For
instructions this means that they come back as they were added.
-/

namespace Disasm

/-! ## Fields -/

theorem Opcode.decode_field (o : Opcode) (width : Nat) : decode (o.field width) = .ok o := by
  have short : o.length ≤ maxOpcodeLength := o.length_le
  have few : o.length < 256 := Nat.lt_succ_of_le short
  have small : 1 + o.length < addressBound := by
    have : 257 < addressBound := by decide
    omega
  have there : Bytes.slice? (o.field width) 1 o.length = some o.bytes :=
    Bytes.slice?_middle _ (List.length_singleton (a := UInt8.ofNat o.length)) rfl small
  change ofSlice (o.field width) 1 (UInt8.ofNat o.length).toNat = _
  rw [UInt8.toNat_ofNat', Nat.mod_eq_of_lt few, ofSlice, if_neg (Nat.not_lt.2 short), there]
  exact dif_pos short

namespace Index

open Image (field Header)
open Image.Builder (placed sizes sizes_append sizes_cons payload storedBytes)

variable {h : Header}

theorem holds_field (valid : h.Valid) {e : Entry} {size : Nat} (fits : h.Fits e)
    (nonempty : ¬e.opcode.isEmpty) (inside : e.position ≤ size) :
    Holds h size (field h e) e where
  opcode := by
    rw [field, List.take_left' (Opcode.length_field fits.opcode), Opcode.decode_field]
  opcode_nonempty := nonempty
  position := by
    have opcode := valid.opcodeWidth_bounds
    have position := valid.positionWidth_bounds
    have small : h.opcodeWidth + h.positionWidth < addressBound := by
      have : 264 < addressBound := by decide
      omega
    have there := Bytes.slice?_middle [] (Opcode.length_field fits.opcode)
      (Bytes.length_ofNat h.positionWidth e.position) small
    rw [List.append_nil] at there
    have width : Bytes.isFieldWidth h.positionWidth = true := by
      simp [Bytes.isFieldWidth, position]
    rw [Bytes.readUInt, width, if_neg (by simp), field, there]
    dsimp only
    rw [Bytes.value_ofNat, Nat.mod_eq_of_lt fits.position]
  position_le := inside

/-- A table is cut into the fields that it was made of. -/
theorem chunks_flatMap {size : Nat} {f : Entry → Bytes} {es : List Entry}
    (length : ∀ e ∈ es, (f e).length = size) :
    chunks size es.length (es.flatMap f) = es.map f := by
  induction es with
  | nil => rfl
  | cons e es ih =>
    have first := length e (List.mem_cons_self ..)
    rw [List.length_cons, chunks, List.flatMap_cons, List.take_left' first,
      List.drop_left' first, ih fun e member ↦ length e (List.mem_cons_of_mem _ member)]
    rfl

/-! ## Opening -/

variable {δ γ : Type}

/-- The entries of a table stand in order. -/
theorem pairwise_placed (config : Config) {es : List (Image.Builder.Entry δ)}
    (ascending : Image.Builder.Ascending es) (position : Nat) :
    (placed position es).Pairwise (Precedes config) := by
  induction es generalizing position with
  | nil => exact List.Pairwise.nil
  | cons e es ih =>
    obtain ⟨before, ordered⟩ := List.pairwise_cons.1 ascending
    refine List.pairwise_cons.2 ⟨fun x member ↦ ⟨?_, fun _ ↦ ?_⟩, ih ordered _⟩
    · exact Nat.le_of_add_right_le (Image.Builder.position_bounds_of_mem_placed member).1
    · obtain ⟨e', there, same⟩ := Image.Builder.exists_of_mem_placed member
      exact same ▸ before e' there

/-- The index of the image of a builder. -/
def ofBuilder (factory : Factory γ) (config : Config) (file : File) (b : Image.Builder δ) :
    Index γ :=
  { factory, file, header := b.header, entries := placed 0 b.entries, config }

variable {b : Image.Builder δ} {file : File}

theorem valid_header (few : b.size < 2 ^ 32) : b.header.Valid where
  entries := few
  opcodeWidth := Image.Builder.isOpcodeWidth_opcodeFieldWidth b.maxOpcodeLength_le
  positionWidth := by
    rcases b.positionWidth_cases with eq | eq | eq <;> rw [Image.Builder.header, eq] <;> rfl

@[simp] theorem opcodes_ofBuilder (factory : Factory γ) (config : Config) (file : File)
    (b : Image.Builder δ) :
    (ofBuilder factory config file b).opcodes = b.entries.map (·.opcode) :=
  Image.Builder.map_opcode_placed 0 b.entries

theorem sorted_ofBuilder (ascending : Image.Builder.Ascending b.entries) (factory : Factory γ)
    (config : Config) (file : File) : Sorted (ofBuilder factory config file b).entries :=
  (pairwise_placed {} ascending 0).imp fun precedes ↦ precedes.opcode_lt rfl

theorem maxOpcodeLength_ofBuilder (ascending : Image.Builder.Ascending b.entries)
    (factory : Factory γ) (config : Config) :
    (ofBuilder factory config file b).maxOpcodeLength = b.maxOpcodeLength := by
  refine Nat.le_antisymm (maxOpcodeLength_le_iff.2 ?_) ?_
  · rw [opcodes_ofBuilder, List.forall_mem_map]
    exact fun e ↦ Image.Builder.length_le_maxOpcodeLength ascending
  · rw [Image.Builder.maxOpcodeLength]
    cases ends : b.entries.getLast? with
    | none => exact Nat.zero_le _
    | some last =>
      refine length_le_maxOpcodeLength ?_
      rw [opcodes_ofBuilder]
      exact List.mem_map_of_mem (List.mem_of_getLast? ends)

variable {front rest : List (Image.Builder.Entry δ)} {e : Image.Builder.Entry δ}

theorem getElem?_ofBuilder (split : b.entries = front ++ e :: rest) (factory : Factory γ)
    (config : Config) (file : File) :
    (ofBuilder factory config file b).entries[front.length]? =
      some ⟨e.opcode, sizes front⟩ := by
  change (placed 0 b.entries)[front.length]? = _
  rw [split, Image.Builder.placed_append, Nat.zero_add,
    List.getElem?_append_right (Nat.le_of_eq (Image.Builder.length_placed ..)),
    Image.Builder.length_placed, Nat.sub_self]
  rfl

variable [Image.Descriptor δ]

theorem length_of_contents (valid : b.Valid) (small : b.totalSize < addressBound)
    (data : file.data = b.contents) : file.length = b.totalSize := by
  rw [File.length, data, valid.length_contents small]

theorem payloadSize_ofBuilder (valid : b.Valid) (small : b.totalSize < addressBound)
    (data : file.data = b.contents) (factory : Factory γ) (config : Config) :
    (ofBuilder factory config file b).payloadSize = sizes b.entries := by
  change file.length - (Image.headerSize + b.size * (b.opcodeWidth + b.positionWidth)) = _
  rw [length_of_contents valid small data, Image.Builder.totalSize, Nat.mul_comm,
    Nat.add_sub_cancel_left, valid.payloadSize_eq]

/-- The image of a builder is opened as an index of its entries. -/
theorem opened_ofBuilder (valid : b.Valid) (few : b.size < 2 ^ 32)
    (small : b.totalSize < addressBound) (data : file.data = b.contents) (factory : Factory γ)
    (config : Config) : Opened factory config file (ofBuilder factory config file b) where
  factory_eq := rfl
  config_eq := rfl
  file_eq := rfl
  header := by
    rw [data, Image.Builder.contents, List.append_assoc]
    exact Image.Header.read_bytes_append (valid_header few) _
  table := by
    have fits : ∀ x ∈ placed 0 b.entries, b.header.Fits x := fun x ↦ valid.fits small
    have there : file.slice Image.headerSize b.header.tableSize = .ok b.table := by
      have inside : Image.headerSize + b.header.tableSize < addressBound := by
        have := valid.length_contents small
        rw [Image.Builder.contents, List.length_append, List.length_append,
          Image.Header.length_bytes, Image.Builder.length_table fits] at this
        omega
      rw [File.slice, data, Image.Builder.contents,
        Bytes.slice?_middle _ b.header.length_bytes (Image.Builder.length_table fits) inside]
    refine ⟨b.table, there, ?_⟩
    have cut : chunks b.header.entrySize b.header.entries b.table =
        (placed 0 b.entries).map (field b.header) := by
      have := chunks_flatMap fun x member ↦ Image.length_field (fits x member)
      rwa [Image.Builder.length_placed] at this
    rw [payloadSize_ofBuilder valid small data]
    change List.Forall₂ _ (chunks b.header.entrySize b.header.entries b.table) (placed 0 b.entries)
    rw [cut, List.forall₂_map_left_iff, List.forall₂_same]
    intro x member
    obtain ⟨e, there, same⟩ := Image.Builder.exists_of_mem_placed member
    have bound := (Image.Builder.position_bounds_of_mem_placed member).2
    exact holds_field (valid_header few) (fits x member) (same ▸ valid.nonempty e there)
      (by rwa [Nat.zero_add] at bound)
  ordered := (pairwise_placed config valid.ascending 0).isChain

/-! ## Loading -/

/-- A descriptor ends where the next one begins. -/
theorem stop_ofBuilder (valid : b.Valid) (small : b.totalSize < addressBound)
    (data : file.data = b.contents) (split : b.entries = front ++ e :: rest)
    (factory : Factory γ) (config : Config) :
    (ofBuilder factory config file b).stop front.length = sizes front + e.size := by
  have next : (ofBuilder factory config file b).entries[front.length + 1]? =
      (placed (sizes front + e.size) rest)[0]? := by
    change (placed 0 b.entries)[front.length + 1]? = _
    rw [split, Image.Builder.placed_append, Nat.zero_add,
      List.getElem?_append_right (by rw [Image.Builder.length_placed]; omega),
      Image.Builder.length_placed, Nat.add_sub_cancel_left]
    rfl
  rw [stop, next]
  cases rest with
  | nil =>
    change (ofBuilder factory config file b).payloadSize = _
    rw [payloadSize_ofBuilder valid small data, split, sizes_append]
    rfl
  | cons e' rest => rfl

theorem stored_ofBuilder (valid : b.Valid) (small : b.totalSize < addressBound)
    (data : file.data = b.contents) (split : b.entries = front ++ e :: rest)
    (factory : Factory γ) (config : Config) :
    (ofBuilder factory config file b).stored front.length ⟨e.opcode, sizes front⟩ =
      .ok (storedBytes e) := by
  have stored := valid.stored_storedBytes (e := e) (by rw [split]; simp)
  have fits : ∀ x ∈ placed 0 b.entries, b.header.Fits x := fun x ↦ valid.fits small
  have before : (payload front).length = sizes front :=
    Image.Builder.length_payload fun e member ↦ valid.stored e (by rw [split]; simp [member])
  have pieces : b.contents =
      b.header.bytes ++ b.table ++ payload front ++ storedBytes e ++ payload rest := by
    rw [Image.Builder.contents, split, payload, List.flatMap_append, List.flatMap_cons]
    simp only [payload, List.append_assoc]
  have start : (b.header.bytes ++ b.table ++ payload front).length =
      (ofBuilder factory config file b).payloadStart + sizes front := by
    rw [List.length_append, List.length_append, Image.Header.length_bytes,
      Image.Builder.length_table fits, before]
    rfl
  have inside : (ofBuilder factory config file b).payloadStart + sizes front + e.size <
      addressBound := by
    have := valid.length_contents small
    rw [pieces, List.length_append, List.length_append, start, ← stored.size_eq] at this
    omega
  rw [Index.stored, stop_ofBuilder valid small data split, Nat.add_sub_cancel_left]
  change file.slice _ _ = _
  rw [File.slice, data, pieces, Bytes.slice?_middle _ start stored.size_eq.symm inside]

/-! ## Instructions -/

section Instructions

variable {b : Image.Builder Instruction} {front rest : List (Image.Builder.Entry Instruction)}
  {e : Image.Builder.Entry Instruction}

theorem load_ofBuilder (valid : b.Valid) (small : b.totalSize < addressBound)
    (data : file.data = b.contents) (split : b.entries = front ++ e :: rest) (config : Config) :
    (ofBuilder .instruction config file b).load front.length = .ok e.descriptor := by
  have member : e ∈ b.entries := by rw [split]; simp
  have stored := valid.stored_storedBytes member
  have saved : e.descriptor.save = .ok (storedBytes e) := stored.saved
  have short : (storedBytes e).length < addressBound := by
    have total : sizes b.entries < addressBound :=
      valid.payloadSize_eq ▸ Nat.lt_of_le_of_lt (Nat.le_add_left _ _) small
    rw [split, sizes_append, sizes_cons, stored.size_eq] at total
    omega
  have loaded : (ofBuilder .instruction config file b).factory.load e.opcode
      { data := storedBytes e } = .ok e.descriptor _ := Instruction.load_of_save saved short
  rw [load, getElem?_ofBuilder split]
  dsimp only
  rw [stored_ofBuilder valid small data split]
  dsimp only
  rw [loaded]

/-- Every opcode has the instruction that the builder has for it. -/
theorem descriptor_ofBuilder (valid : b.Valid) (small : b.totalSize < addressBound)
    (data : file.data = b.contents) (config : Config) (o : Opcode) :
    (ofBuilder .instruction config file b).descriptor o = .ok (b.get? o) := by
  have sorted := sorted_ofBuilder valid.ascending .instruction config file
  by_cases listed : o ∈ b.entries.map (·.opcode)
  · obtain ⟨e, member, rfl⟩ := List.mem_map.1 listed
    obtain ⟨front, rest, split⟩ := List.append_of_mem member
    have there := getElem?_ofBuilder split .instruction config file
    rw [descriptor_eq sorted there, load_ofBuilder valid small data split,
      valid.ascending.get?_eq member]
    rfl
  · have absent : (ofBuilder .instruction config file b).find? o.bytes = none := by
      rw [← Option.not_isSome_iff_eq_none, isSome_find? sorted, opcodes_ofBuilder]
      rintro ⟨o', listed', same⟩
      exact listed (Opcode.ext_bytes same ▸ listed')
    have unknown : b.get? o = none :=
      Option.not_isSome_iff_eq_none.1 (mt Image.Builder.isSome_get?.1 listed)
    rw [descriptor, absent, unknown]

/-- What must hold of an index that was opened from the image of a builder, after
the given additions to it had succeeded. -/
structure Reflects (ix : Index Instruction) (done : List (Opcode × Instruction))
    (b : Image.Builder Instruction) : Prop where
  /-- There is one entry for each opcode. -/
  entries_length : ix.entries.length = (done.map Prod.fst).toFinset.card
  mem_opcodes_iff : ∀ o, o ∈ ix.opcodes ↔ o ∈ done.map Prod.fst
  increasing : ix.opcodes.Pairwise fun a b ↦ compare a b = .lt
  maxOpcodeLength_eq : ix.maxOpcodeLength = b.maxOpcodeLength
  opcodeWidth_eq : ix.header.opcodeWidth = b.opcodeWidth
  positionWidth_eq : ix.header.positionWidth = b.positionWidth
  /-- An opcode has the instruction that was added for it last. -/
  descriptor_eq : ∀ o, ix.descriptor o = .ok (done.reverse.lookup o)

open Image.Builder (addAll)

theorem get?_addAll_empty (adds : List (Opcode × Instruction)) (o : Opcode) :
    (addAll adds {}).2.get? o = (addAll adds {}).1.reverse.lookup o := by
  rw [Image.Builder.get?_addAll]
  change ((List.lookup o _).map fun d ↦ d).or none = _
  rw [Option.or_none, Option.map_id']

theorem reflects_ofBuilder {adds : List (Opcode × Instruction)}
    (small : (addAll adds {}).2.totalSize < addressBound)
    (data : file.data = (addAll adds {}).2.contents) (config : Config) :
    Reflects (ofBuilder .instruction config file (addAll adds {}).2) (addAll adds {}).1
      (addAll adds {}).2 := by
  have valid := Image.Builder.valid_empty.addAll adds
  have sorted := sorted_ofBuilder valid.ascending .instruction config file
  have same : ∀ o, o ∈ (ofBuilder .instruction config file (addAll adds {}).2).opcodes ↔
      o ∈ (addAll adds {}).1.map Prod.fst := by
    intro o
    rw [opcodes_ofBuilder, ← Image.Builder.isSome_get?, get?_addAll_empty, List.lookup_isSome_iff,
      List.mem_map]
    refine exists_congr fun entry ↦ ?_
    rw [List.mem_reverse, beq_iff_eq, eq_comm]
  refine ⟨?_, same, List.pairwise_map.2 sorted, maxOpcodeLength_ofBuilder valid.ascending _ _, rfl,
    rfl, ?_⟩
  · have distinct := List.toFinset_card_of_nodup sorted.nodup
    rw [List.length_map] at distinct
    rw [← distinct]
    congr 1
    ext o
    rw [List.mem_toFinset, List.mem_toFinset]
    exact same o
  · intro o
    rw [descriptor_ofBuilder valid small data, get?_addAll_empty]

/-- After any additions to a new builder, some of which may fail, the image is
saved and opened again, and the index holds what was added last. -/
theorem reopen_image (adds : List (Opcode × Instruction))
    (few : (addAll adds {}).2.size < 2 ^ 32)
    (small : (addAll adds {}).2.totalSize < addressBound) :
    ∃ bytes file ix, (addAll adds {}).2.image.1 = .ok bytes ∧ File.ofBytes bytes = .ok file ∧
      openFile .instruction {} file = .ok ix ∧
      Reflects ix (addAll adds {}).1 (addAll adds {}).2 := by
  have valid := Image.Builder.valid_empty.addAll adds
  have nonempty : (addAll adds {}).2.contents ≠ [] := by
    simp [Image.Builder.contents, Image.Header.bytes, Image.mark]
  obtain ⟨file, made, data⟩ : ∃ file, File.ofBytes (addAll adds {}).2.contents = .ok file ∧
      file.data = (addAll adds {}).2.contents := ⟨⟨_, nonempty⟩, dif_pos nonempty, rfl⟩
  have opened := opened_ofBuilder valid few small data .instruction {}
  exact ⟨_, file, _, Image.Builder.image_eq valid few small, made, openFile_eq_ok_iff.2 opened,
    reflects_ofBuilder small data {}⟩

/-- A replaced instruction, and an addition that fails. -/
theorem reopen_image_of_four :
    let nop : Opcode := ⟨[0x90], by decide⟩
    let jump : Opcode := ⟨[0x0F, 0x84], by decide⟩
    let adds : List (Opcode × Instruction) :=
      [(jump, .operands "jz" [.rel16]), (nop, .simple "nop"), (.empty, .simple "none"),
        (jump, .operands "je" [.rel32])]
    (addAll adds {}).1.length = 3 ∧ (addAll adds {}).2.size < 2 ^ 32 ∧
      (addAll adds {}).2.totalSize < addressBound ∧
      ∃ bytes file ix, (addAll adds {}).2.image.1 = .ok bytes ∧ File.ofBytes bytes = .ok file ∧
        openFile .instruction {} file = .ok ix ∧
        Reflects ix (addAll adds {}).1 (addAll adds {}).2 := by
  intro nop jump adds
  have few : (addAll adds {}).2.size < 2 ^ 32 := by decide +kernel
  have small : (addAll adds {}).2.totalSize < addressBound := by decide +kernel
  exact ⟨by decide +kernel, few, small, reopen_image adds few small⟩

end Instructions

end Index

end Disasm
