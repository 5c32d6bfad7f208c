import Disasm.Proofs.Action
import Disasm.Proofs.Index.Search

/-!
# Reading a table

An image is opened if its header can be read and its table holds entries that
stand in order.  Each check of the reader is said once, as a condition that
holds of what was read, and a table that meets the conditions is read.
-/

namespace Disasm.Index

/-- A field of the table holds an entry, whose descriptor begins inside a payload
of `payload` bytes. -/
structure Holds (header : Image.Header) (payload : Nat) (field : Bytes) (e : Entry) : Prop where
  opcode : Opcode.decode (field.take header.opcodeWidth) = .ok e.opcode
  opcode_nonempty : ¬e.opcode.isEmpty
  position : field.readUInt header.opcodeWidth header.positionWidth = .ok e.position
  position_le : e.position ≤ payload

/-- One entry may stand above another. -/
structure Precedes (config : Config) (above e : Entry) : Prop where
  position_le : above.position ≤ e.position
  opcode_lt : config.verifyOrder = true → compare above.opcode e.opcode = .lt

instance (config : Config) : Trans (Precedes config) (Precedes config) (Precedes config) where
  trans h h' := {
    position_le := Nat.le_trans h.position_le h'.position_le
    opcode_lt := fun verify ↦ Std.TransCmp.lt_trans (h.opcode_lt verify) (h'.opcode_lt verify) }

variable {header : Image.Header} {config : Config} {payload index : Nat}

theorem readEntry_eq_ok_iff {previous : Option Entry} {field : Bytes} {e : Entry} :
    readEntry header config payload index previous field = .ok e ↔
      Holds header payload field e ∧ ∀ above ∈ previous, Precedes config above e := by
  rw [readEntry]
  simp only [Action.check_eq_ok_iff, Action.bind_eq_ok_iff]
  constructor
  · rintro ⟨opcode, decoded, filled, position, found, inside, checked⟩
    cases previous with
    | none =>
      cases checked
      exact ⟨⟨decoded, filled, found, Nat.le_of_not_lt inside⟩, nofun⟩
    | some above =>
      simp only [Action.check_eq_ok_iff] at checked
      obtain ⟨behind, ordered, made⟩ := checked
      cases made
      refine ⟨⟨decoded, filled, found, Nat.le_of_not_lt inside⟩, ?_⟩
      intro _ same
      cases same
      refine ⟨Nat.le_of_not_lt behind, fun verify ↦ ?_⟩
      exact Decidable.by_contra fun other ↦ ordered ⟨verify, other⟩
  · rintro ⟨holds, follows⟩
    refine ⟨e.opcode, holds.opcode, holds.opcode_nonempty, e.position, holds.position,
      Nat.not_lt.2 holds.position_le, ?_⟩
    cases previous with
    | none => rfl
    | some above =>
      have precedes := follows above rfl
      simp only [Action.check_eq_ok_iff]
      exact ⟨Nat.not_lt.2 precedes.position_le,
        fun wrong ↦ wrong.2 (precedes.opcode_lt wrong.1), rfl⟩

/-- The entries that are read are those that the fields hold, if each may stand
above the next. -/
theorem readEntries_eq_ok_iff {previous : Option Entry} {fields : List Bytes}
    {entries : List Entry} :
    readEntries header config payload index previous fields = .ok entries ↔
      List.Forall₂ (Holds header payload) fields entries ∧
        (previous.toList ++ entries).IsChain (Precedes config) := by
  induction fields generalizing index previous entries with
  | nil =>
    rw [readEntries, List.forall₂_nil_left_iff]
    constructor
    · intro h
      cases h
      refine ⟨rfl, ?_⟩
      cases previous <;> simp
    · rintro ⟨rfl, -⟩
      rfl
  | cons field fields ih =>
    have chain : ∀ e es, (previous.toList ++ e :: es).IsChain (Precedes config) ↔
        (∀ above ∈ previous, Precedes config above e) ∧ (e :: es).IsChain (Precedes config) := by
      intro e es
      cases previous with
      | none => exact ⟨fun h ↦ ⟨nofun, h⟩, fun h ↦ h.2⟩
      | some above =>
        simp only [Option.toList_some, List.singleton_append, List.isChain_cons_cons,
          Option.mem_some, forall_eq']
    rw [readEntries]
    simp only [Action.bind_eq_ok_iff, readEntry_eq_ok_iff, ih, List.forall₂_cons_left_iff]
    constructor
    · rintro ⟨e, ⟨holds, follows⟩, es, ⟨rest, ordered⟩, made⟩
      cases made
      exact ⟨⟨e, es, holds, rest, rfl⟩, (chain e es).2 ⟨follows, ordered⟩⟩
    · rintro ⟨⟨e, es, holds, rest, rfl⟩, ordered⟩
      obtain ⟨follows, ordered⟩ := (chain e es).1 ordered
      exact ⟨e, ⟨holds, follows⟩, es, ⟨rest, ordered⟩, rfl⟩

variable {δ : Type} {factory : Factory δ} {file : File} {ix : Index δ}

/-- What it takes to open an image. -/
structure Opened (factory : Factory δ) (config : Config) (file : File) (ix : Index δ) : Prop where
  factory_eq : ix.factory = factory
  config_eq : ix.config = config
  file_eq : ix.file = file
  header : Image.Header.read file.data = .ok ix.header
  table : ∃ table, file.slice Image.headerSize ix.header.tableSize = .ok table ∧
    List.Forall₂ (Holds ix.header ix.payloadSize)
      (chunks ix.header.entrySize ix.header.entries table) ix.entries
  ordered : ix.entries.IsChain (Precedes config)

theorem openFile_eq_ok_iff :
    openFile factory config file = .ok ix ↔ Opened factory config file ix := by
  rw [openFile]
  simp only [Action.bind_eq_ok_iff, readEntries_eq_ok_iff, Option.toList_none, List.nil_append]
  constructor
  · rintro ⟨header, headed, table, sliced, entries, ⟨holds, ordered⟩, made⟩
    cases made
    exact ⟨rfl, rfl, rfl, headed, ⟨table, sliced, holds⟩, ordered⟩
  · rintro ⟨rfl, rfl, rfl, headed, ⟨table, sliced, holds⟩, ordered⟩
    exact ⟨ix.header, headed, table, sliced, ix.entries, ⟨holds, ordered⟩, rfl⟩

namespace Opened

theorem sorted (h : Opened factory config file ix) (verify : config.verifyOrder = true) :
    Sorted ix.entries :=
  h.ordered.pairwise.imp fun precedes ↦ precedes.opcode_lt verify

theorem exists_holds (h : Opened factory config file ix) {e : Entry} (member : e ∈ ix.entries) :
    ∃ field, Holds ix.header ix.payloadSize field e := by
  obtain ⟨table, -, holds⟩ := h.table
  obtain ⟨length_eq, held⟩ := List.forall₂_iff_get.1 holds
  obtain ⟨⟨i, inside⟩, rfl⟩ := List.get_of_mem member
  exact ⟨_, held i (length_eq ▸ inside) inside⟩

theorem opcode_ne_nil (h : Opened factory config file ix) {o : Opcode} (listed : o ∈ ix.opcodes) :
    o.bytes ≠ [] := by
  obtain ⟨e, member, rfl⟩ := List.mem_map.1 listed
  obtain ⟨field, holds⟩ := h.exists_holds member
  exact mt List.isEmpty_iff.2 holds.opcode_nonempty

end Opened

end Disasm.Index
