import Disasm.Proofs.Index.RoundTrip
import Disasm.Proofs.Index.Slices

/-!
# Images that are cut short

A file may begin an image without being the whole of it.  If it is opened at all,
its table is that of the image, and every slice of the payload but the last is
there.  The last one is cut short, and no instruction is loaded from it.
-/

namespace Disasm

/-! ## The table -/

section Table

variable {part data : Bytes} {offset count : Nat}

theorem Bytes.take_drop_of_begins (begins : part <+: data) (fits : offset + count ≤ part.length) :
    (part.drop offset).take count = (data.drop offset).take count := by
  obtain ⟨rest, rfl⟩ := begins
  exact (take_drop_append fits rest).symm

theorem Bytes.number_of_begins (begins : part <+: data) (fits : offset + count ≤ part.length) :
    part.number offset count = data.number offset count :=
  congrArg Bytes.value (take_drop_of_begins begins fits)

namespace Image

theorem Header.spelled_of_begins (begins : part <+: data) (length : 12 ≤ part.length) :
    spelled part = spelled data := by
  rw [spelled, Bytes.number_of_begins begins (by omega), Bytes.number_of_begins begins (by omega),
    Bytes.number_of_begins begins (by omega)]
  rfl

theorem entryAt_of_begins {h : Header} {i : Nat} (begins : part <+: data)
    (inside : fieldStart h i + h.entrySize ≤ part.length)
    (short : lengthAt h part i < h.opcodeWidth) : entryAt h part i = entryAt h data i := by
  rw [Header.entrySize] at inside
  have length : lengthAt h part i = lengthAt h data i :=
    Bytes.number_of_begins begins (by omega)
  have opcode : opcodeAt h part i = opcodeAt h data i := by
    rw [opcodeAt, opcodeAt, Bytes.take_drop_of_begins begins (by omega), length]
  have position : positionAt h part i = positionAt h data i :=
    Bytes.number_of_begins begins (by omega)
  exact congrArg₂ Index.Entry.mk (Opcode.ext_bytes opcode) position

end Image

end Table

theorem File.data_of_ofBytes {bs : Bytes} {file : File} (made : ofBytes bs = .ok file) :
    file.data = bs := by
  rw [ofBytes] at made
  split at made
  · cases made
    rfl
  · cases made

namespace Index

open Image (Header entryAt)

section Cut

variable {δ : Type} {factory : Factory δ} {config : Config} {file part : File} {ix cut : Index δ}

/-- The table of an index over another file. -/
def withFile (ix : Index δ) (file : File) : Index δ := { ix with file }

/-- A file that begins an image has the table of the image, if it is opened. -/
theorem Opened.eq_withFile (whole : Opened factory config file ix)
    (opened : Opened factory config part cut) (begins : part.data <+: file.data) :
    cut = ix.withFile part := by
  obtain ⟨-, rfl⟩ := opened_iff_conforms.1 whole
  obtain ⟨conforms, rfl⟩ := opened_iff_conforms.1 opened
  have header := Header.spelled_of_begins begins conforms.length
  have entries : ∀ i < (Header.spelled part.data).entries,
      entryAt (Header.spelled part.data) part.data i =
        entryAt (Header.spelled part.data) file.data i := by
    intro i before
    have wide := conforms.opcodeWidth
    have most := (conforms.opcode i before).2
    exact Image.entryAt_of_begins begins (fieldStart_add_le conforms.table before) (by omega)
  rw [ofImage, List.map_congr_left fun i member ↦ entries i (List.mem_range.1 member), header]
  rfl

/-! ## The slices -/

variable {i : Nat} {e next : Entry}

/-- A slice that another one follows is there. -/
theorem Opened.slice_withFile (opened : Opened factory config part (ix.withFile part))
    (begins : part.data <+: ix.file.data) (there : ix.entries[i]? = some e)
    (follows : ix.entries[i + 1]? = some next) : (ix.withFile part).slice i = ix.slice i := by
  have start : (ix.withFile part).start i = e.position := start_eq there
  have stop : (ix.withFile part).start (i + 1) = next.position := start_eq follows
  have forward := opened.monotone_start (Nat.le_succ i)
  have fits := opened.start_le (i + 1)
  rw [slice, slice, start_eq there, start_eq follows, start, stop]
  rw [start, stop] at forward
  rw [stop] at fits
  exact Bytes.take_drop_of_begins (begins.drop _) (by rwa [Nat.add_sub_cancel' forward])

/-- The last slice reaches to the end of the file. -/
theorem slice_last (there : ix.entries[i]? = some e) (last : ix.entries.length = i + 1) :
    ix.slice i = ix.file.data.drop (ix.payloadStart + e.position) := by
  rw [slice, start_eq there, start_of_le (Nat.le_of_eq last), List.extract, ← List.length_drop,
    List.take_length, payload, List.drop_drop]

/-- The last slice is cut short. -/
theorem Opened.slice_last_withFile (opened : Opened factory config part (ix.withFile part))
    (begins : part.data <+: ix.file.data) (shorter : part.length < ix.file.length)
    (there : ix.entries[i]? = some e) (last : ix.entries.length = i + 1) :
    (ix.withFile part).slice i <+: ix.slice i ∧
      ((ix.withFile part).slice i).length < (ix.slice i).length := by
  have cut : (ix.withFile part).slice i = part.data.drop (ix.payloadStart + e.position) :=
    slice_last there last
  have start : (ix.withFile part).start i = e.position := start_eq there
  have inside := opened.start_le i
  have table : ix.payloadStart ≤ part.length := opened.payloadStart_le
  rw [start, length_payload] at inside
  change e.position ≤ part.length - ix.payloadStart at inside
  rw [cut, slice_last there last]
  refine ⟨begins.drop _, ?_⟩
  rw [List.length_drop, List.length_drop]
  change part.length - _ < ix.file.length - _
  omega

/-- Every opcode but the last has the descriptor that it has in the image. -/
theorem Opened.descriptor_withFile (whole : Opened factory config file ix)
    (opened : Opened factory config part (ix.withFile part)) (begins : part.data <+: file.data)
    (small : file.length < addressBound) {o : Opcode} (other : ix.opcodes.getLast? ≠ some o) :
    (ix.withFile part).descriptor o = ix.descriptor o := by
  have same : (ix.withFile part).find? o.bytes = ix.find? o.bytes := rfl
  rw [descriptor, descriptor, same]
  cases found : ix.find? o.bytes with
  | none => rfl
  | some i =>
    obtain ⟨e, there, bytes⟩ := getElem?_of_find? found
    have file_eq := whole.file_eq
    subst file_eq
    have short : part.length < addressBound := Nat.lt_of_le_of_lt begins.length_le small
    have loaded : (ix.withFile part).load i =
        ix.factory.make e.opcode ((ix.withFile part).slice i) :=
      (opened.sliced short).load i e there
    cases follows : ix.entries[i + 1]? with
    | some next =>
      rw [opened.slice_withFile begins there follows] at loaded
      exact congrArg (Except.map some) (loaded.trans ((whole.sliced small).load i e there).symm)
    | none =>
      -- With no entry behind it, this is the last one.
      refine absurd ?_ other
      have inside : i < ix.entries.length := (List.getElem?_eq_some_iff.1 there).1
      have behind : ix.entries.length ≤ i + 1 := List.getElem?_eq_none_iff.1 follows
      rw [List.getLast?_eq_getElem?, opcodes, List.length_map, List.getElem?_map,
        show ix.entries.length - 1 = i by omega, there]
      exact congrArg some (Opcode.ext_bytes bytes)

end Cut

/-! ## Instructions -/

section Instructions

open Image.Builder (addAll storedBytes)

/-- What must hold of an index of the given additions that has lost its last
instruction. -/
structure LosesLast (ix : Index Instruction) (done : List (Opcode × Instruction))
    (last : Opcode) : Prop where
  mem_opcodes_iff : ∀ o, o ∈ ix.opcodes ↔ o ∈ done.map Prod.fst
  last_eq : ix.opcodes.getLast? = some last
  lost : ix.descriptor last = .error (.descriptor last .outOfBounds)
  /-- Any other opcode has the instruction that was added for it last. -/
  kept : ∀ o ≠ last, ix.descriptor o = .ok (done.reverse.lookup o)

theorem make_cut {i : Instruction} {bs cut : Bytes} (saved : i.save = .ok bs)
    (small : bs.length < addressBound) (begins : cut <+: bs) (shorter : cut.length < bs.length)
    (o : Opcode) : Factory.instruction.make o cut = .error (.descriptor o .outOfBounds) := by
  obtain ⟨c, failed⟩ := Instruction.load_cut saved small begins shorter
  have load : Factory.instruction.load o { data := cut } = .error .outOfBounds c := failed
  rw [Factory.make, load]

variable {b : Image.Builder Instruction} {file part : File} {config : Config}

/-- An image that is cut short and still opened has an entry. -/
theorem entries_ne_nil_of_cut (valid : b.Valid) (small : b.totalSize < addressBound)
    (data : file.data = b.contents) (shorter : part.length < file.length)
    (opened : Opened .instruction config part
      ((ofBuilder .instruction config file b).withFile part)) :
    b.entries ≠ [] := by
  intro none
  have size := length_of_contents valid small data
  have payload : b.payloadSize = 0 := by
    rw [valid.payloadSize_eq, none]
    rfl
  have least : Image.headerSize ≤ part.length :=
    Nat.le_trans (Nat.le_add_right _ _) opened.payloadStart_le
  rw [Image.Builder.totalSize, payload, Image.Builder.size, none, List.length_nil,
    Nat.mul_zero] at size
  omega

/-- The last instruction of an image that is cut short is not loaded. -/
theorem descriptor_last_of_cut (valid : b.Valid) (few : b.size < 2 ^ 32)
    (small : b.totalSize < addressBound) (data : file.data = b.contents)
    (begins : part.data <+: file.data) (shorter : part.length < file.length)
    (opened : Opened .instruction config part
      ((ofBuilder .instruction config file b).withFile part))
    {front : List (Image.Builder.Entry Instruction)} {e : Image.Builder.Entry Instruction}
    (split : b.entries = front ++ [e]) :
    ((ofBuilder .instruction config file b).withFile part).descriptor e.opcode =
      .error (.descriptor e.opcode .outOfBounds) := by
  have whole := opened_ofBuilder valid few small data .instruction config
  have there := getElem?_ofBuilder split .instruction config file
  have last : (ofBuilder .instruction config file b).entries.length = front.length + 1 := by
    change (Image.Builder.placed 0 b.entries).length = _
    rw [Image.Builder.length_placed, split, List.length_append]
    rfl
  have reach : file.length < addressBound := by
    rwa [length_of_contents valid small data]
  have slice : (ofBuilder .instruction config file b).slice front.length = storedBytes e :=
    Except.ok.inj ((whole.stored_eq reach there).symm.trans
      (stored_ofBuilder valid small data split .instruction config))
  obtain ⟨cut, less⟩ := opened.slice_last_withFile begins shorter there last
  rw [slice] at cut less
  have saved : e.descriptor.save = .ok (storedBytes e) :=
    (valid.stored_storedBytes (by rw [split]; simp)).saved
  have short : (storedBytes e).length < addressBound := by
    rw [← slice, slice_last there last, List.length_drop]
    exact Nat.lt_of_le_of_lt (Nat.sub_le _ _) reach
  have sorted : Sorted ((ofBuilder .instruction config file b).withFile part).entries :=
    sorted_ofBuilder valid.ascending .instruction config file
  have found : ((ofBuilder .instruction config file b).withFile part).entries[front.length]? =
      some ⟨e.opcode, Image.Builder.sizes front⟩ := there
  have loaded := (opened.sliced (Nat.lt_trans shorter reach)).load front.length _ found
  refine (descriptor_eq sorted found).trans ?_
  rw [loaded]
  exact congrArg (Except.map some) (make_cut saved short cut less e.opcode)

/-- What is left of an image that is cut short and still opened. -/
theorem exists_losesLast {adds : List (Opcode × Instruction)}
    (few : (addAll adds {}).2.size < 2 ^ 32)
    (small : (addAll adds {}).2.totalSize < addressBound)
    (data : file.data = (addAll adds {}).2.contents) (begins : part.data <+: file.data)
    (shorter : part.length < file.length) {ix : Index Instruction}
    (opened : Opened .instruction config part ix) :
    ∃ last, ix.LosesLast (addAll adds {}).1 last := by
  have valid := Image.Builder.valid_empty.addAll adds
  have whole := opened_ofBuilder valid few small data .instruction config
  have reflects := reflects_ofBuilder small data config
  obtain rfl := whole.eq_withFile opened begins
  have reach : file.length < addressBound := by
    rwa [length_of_contents valid small data]
  obtain none | ⟨front, e, split⟩ := List.eq_nil_or_concat' (addAll adds {}).2.entries
  · exact absurd none (entries_ne_nil_of_cut valid small data shorter opened)
  · have last : (ofBuilder .instruction config file (addAll adds {}).2).opcodes.getLast? =
        some e.opcode := by
      rw [opcodes_ofBuilder, split, List.map_append]
      exact List.getLast?_concat
    refine ⟨e.opcode, reflects.mem_opcodes_iff, last,
      descriptor_last_of_cut valid few small data begins shorter opened split, fun o other ↦ ?_⟩
    have kept : some e.opcode ≠ some o := fun same ↦ other (Option.some.inj same).symm
    rw [whole.descriptor_withFile opened begins reach (last ▸ kept), reflects.descriptor_eq]

/-- No part of an image passes as the whole.  If it is opened, the last instruction
cannot be loaded, and every other one is as it was added. -/
theorem openFile_cut_image (adds : List (Opcode × Instruction))
    (small : (addAll adds {}).2.totalSize < addressBound) {image cut : Bytes}
    (saved : (addAll adds {}).2.image.1 = .ok image) (begins : cut <+: image)
    (shorter : cut ≠ image) (config : Config) :
    (∃ e, File.ofBytes cut = .error e) ∨ ∃ part, File.ofBytes cut = .ok part ∧
      ((∃ e, openFile .instruction config part = .error e) ∨
        ∃ ix last, openFile .instruction config part = .ok ix ∧
          ix.LosesLast (addAll adds {}).1 last) := by
  have valid := Image.Builder.valid_empty.addAll adds
  obtain ⟨few, rfl⟩ := (Image.Builder.image_eq_ok_iff valid small).1 saved
  cases made : File.ofBytes cut with
  | error e => exact .inl ⟨e, rfl⟩
  | ok part =>
    refine .inr ⟨part, rfl, ?_⟩
    cases opened : openFile .instruction config part with
    | error e => exact .inl ⟨e, rfl⟩
    | ok ix =>
      obtain rfl := File.data_of_ofBytes made
      have less : part.data.length < (addAll adds {}).2.contents.length :=
        Nat.lt_of_le_of_ne begins.length_le fun same ↦ shorter (begins.eq_of_length same)
      have nonempty : (addAll adds {}).2.contents ≠ [] := List.ne_nil_of_length_pos (by omega)
      obtain ⟨file, data⟩ : ∃ file : File, file.data = (addAll adds {}).2.contents :=
        ⟨⟨_, nonempty⟩, rfl⟩
      rw [← data] at begins less
      obtain ⟨last, loses⟩ :=
        exists_losesLast few small data begins less (openFile_eq_ok_iff.1 opened)
      exact .inr ⟨ix, last, rfl, loses⟩

/-- The image of two instructions without its last byte. -/
theorem openFile_cut_image_of_two :
    let nop : Opcode := ⟨[0x90], by decide⟩
    let jump : Opcode := ⟨[0x0F, 0x84], by decide⟩
    let adds : List (Opcode × Instruction) :=
      [(jump, .operands "je" [.rel32]), (nop, .simple "nop")]
    let image : Bytes :=
      [0x4F, 0x50, 0x49, 0x58, 2, 0, 0, 0, 4, 0, 2, 0, 1, 0x90, 0, 0, 0, 0, 2, 0x0F, 0x84, 0, 5, 0,
        1, 3, 0x6E, 0x6F, 0x70, 2, 2, 0x6A, 0x65, 1, Operand.tag .rel32]
    (addAll adds {}).2.image.1 = .ok image ∧
      ∃ part ix, File.ofBytes image.dropLast = .ok part ∧
        openFile .instruction {} part = .ok ix ∧
        ix.descriptor jump = .error (.descriptor jump .outOfBounds) ∧
        ix.descriptor nop = .ok (some (.simple "nop")) := by
  intro nop jump adds image
  have saved : (addAll adds {}).2.image.1 = .ok image := by cbv
  have made : File.ofBytes image.dropLast = .ok ⟨image.dropLast, by decide⟩ := rfl
  have opened : openFile .instruction {} ⟨image.dropLast, by decide⟩ =
      .ok ⟨.instruction, ⟨image.dropLast, by decide⟩, ⟨2, 4, 2⟩, [⟨nop, 0⟩, ⟨jump, 5⟩], {}⟩ := by
    cbv
  have cut := openFile_cut_image adds (by decide +kernel) saved (List.dropLast_prefix image)
    (by decide) {}
  rw [made] at cut ⊢
  obtain ⟨_, ⟨⟩⟩ | ⟨_, ⟨⟩, left⟩ := cut
  rw [opened] at left
  obtain ⟨_, ⟨⟩⟩ | ⟨_, last, ⟨⟩, loses⟩ := left
  obtain rfl : jump = last := Option.some.inj loses.last_eq
  refine ⟨saved, _, _, rfl, opened, loses.lost, ?_⟩
  rw [loses.kept nop (by decide)]
  decide +kernel

end Instructions

end Index

end Disasm
