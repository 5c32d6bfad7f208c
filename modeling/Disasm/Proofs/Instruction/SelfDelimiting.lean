import Disasm.Proofs.Bytes.Fewest
import Disasm.Proofs.Instruction

/-!
# Stored instructions end themselves

Where a stored instruction ends is said by its own bytes: loading runs out on whatever is
shorter and refuses whatever is longer.  So no stored form begins another one.  What can be
stored is said without storing it, and whatever is loaded can be stored.
-/

namespace Disasm

/-! ## What reads give -/

namespace Cursor

theorem int7_lt {c c' : Cursor} {n : Nat} (read : int7 c = .ok n c') : n < 2 ^ 32 := by
  have grouped : Grouped (fun n ↦ some (n % 2 ^ 32)) c (int7 c) := grouped_int7 fun _ _ _ ↦ rfl
  rw [read] at grouped
  cases grouped with
  | number front last _ stand value =>
    cases value
    exact Nat.mod_lt _ (by decide)

/-- A text that was read can be stored. -/
theorem sizedText_of_text {c c' : Cursor} {s : String} (read : text c = .ok s c') :
    ∃ bs, Bytes.sizedText s = .ok bs := by
  obtain ⟨length, c₁, count, read⟩ := Action.bind_eq_ok.1 read
  obtain ⟨_, _, got, read⟩ := Action.bind_eq_ok.1 read
  obtain ⟨bs, c₂, taken, read⟩ := Action.bind_eq_ok.1 read
  have size : bs.length = length := Bytes.length_of_slice? (bytes_eq_ok_iff.1 taken).1
  have same : Text.Utf8.encode s = bs := by
    cases decoded : Text.Utf8.decode bs with
    | error fault =>
      rw [decoded] at read
      cases read
    | ok s' =>
      rw [decoded] at read
      cases read
      exact Text.Utf8.encode_of_decode decoded
  rw [Bytes.exists_sizedText_iff, same, size]
  exact int7_lt count

end Cursor

namespace Instruction

variable {i j : Instruction} {bs bs' : Bytes}

theorem length_of_loadKinds {count : Nat} {c c' : Cursor} {ks : List Operand}
    (read : loadKinds count c = .ok ks c') : ks.length = count := by
  induction count generalizing c c' ks with
  | zero =>
    cases read
    rfl
  | succ count ih =>
    obtain ⟨tag, c₁, -, read⟩ := Action.bind_eq_ok.1 read
    cases kind : Operand.ofTag? tag with
    | none =>
      rw [kind] at read
      cases read
    | some k =>
      rw [kind] at read
      obtain ⟨ks', c₂, rest, made⟩ := Action.bind_eq_ok.1 read
      cases made
      exact congrArg (· + 1) (ih rest)

/-! ## What can be stored -/

/-- There is a mnemonic whose length has thirty-two bits, and a number of operands that has
eight. -/
structure Storable (i : Instruction) : Prop where
  named : ∃ m, i.mnemonic? = some m ∧ (Text.Utf8.encode m).length < 2 ^ 32
  few : i.kinds.length ≤ maxOperands

theorem exists_save_iff : (∃ bs, i.save = .ok bs) ↔ i.Storable := by
  simp only [save_eq_ok_iff]
  constructor
  · rintro ⟨_, stored | ⟨few, stored⟩⟩
    · exact ⟨⟨_, rfl, Bytes.exists_sizedText_iff.1 ⟨_, stored⟩⟩, Nat.zero_le _⟩
    · exact ⟨⟨_, rfl, Bytes.exists_sizedText_iff.1 ⟨_, stored⟩⟩, few⟩
  · rintro ⟨⟨m, named, short⟩, few⟩
    obtain ⟨text, stored⟩ := Bytes.exists_sizedText_iff.2 short
    cases i with
    | simple m' =>
      cases named
      exact ⟨_, .simple stored⟩
    | operands m' ks =>
      cases named
      exact ⟨_, .operands few stored⟩
    | unknown bytes => cases named

theorem isUnknown_iff : i.isUnknown = true ↔ i.mnemonic? = none := by
  cases i <;> simp [isUnknown, mnemonic?]

/-- Saving fails for three reasons. -/
theorem exists_save_error_iff : (∃ e, i.save = .error e) ↔
    i.isUnknown = true ∨ 255 < i.kinds.length ∨
      ∃ m, i.mnemonic? = some m ∧ 2 ^ 32 - 1 < (Text.Utf8.encode m).length := by
  have fails : (∃ e, i.save = .error e) ↔ ¬i.Storable := by
    rw [← exists_save_iff]
    cases i.save with
    | error e => simp
    | ok bs => simp
  rw [fails, isUnknown_iff]
  constructor
  · intro refused
    by_contra! held
    obtain ⟨known, few, short⟩ := held
    obtain ⟨m, named⟩ := Option.ne_none_iff_exists'.1 known
    have length := short m named
    exact refused ⟨⟨m, named, by omega⟩, few⟩
  · rintro (unknown | many | ⟨m, named, long⟩) ⟨⟨m', named', short⟩, few⟩
    · cases unknown.symm.trans named'
    · exact Nat.not_lt_of_le few many
    · cases named.symm.trans named'
      omega

/-- What was loaded can be stored. -/
theorem storable_of_load {c c' : Cursor} (loaded : load c = .ok i c') : i.Storable := by
  obtain ⟨m, _, _, read, rfl⟩ | ⟨m, _, _, read, count, ks, _, _, kinds, rfl⟩ :=
    exists_of_load loaded
  · exact ⟨⟨m, rfl, Bytes.exists_sizedText_iff.1 (Cursor.sizedText_of_text read)⟩, Nat.zero_le _⟩
  · refine ⟨⟨m, rfl, Bytes.exists_sizedText_iff.1 (Cursor.sizedText_of_text read)⟩, ?_⟩
    exact (length_of_loadKinds kinds).trans_le (Nat.le_of_lt_succ count.toNat_lt)

theorem length_of_save (saved : i.save = .ok bs) : bs.length < addressBound := by
  have bound : 2 ^ 32 + 512 < addressBound := by decide
  obtain stored | ⟨few, stored⟩ := save_eq_ok_iff.1 saved
  · have text := Bytes.length_of_sizedText stored
    rw [List.length_cons]
    omega
  · have text := Bytes.length_of_sizedText stored
    rw [maxOperands] at few
    simp only [List.cons_append, List.length_cons, List.length_append, List.length_map]
    omega

/-! ## Where a stored form ends -/

theorem load_longer (saved : i.save = .ok bs) {more : Bytes} (longer : more ≠ []) :
    load { data := bs ++ more } =
      .error (.trailingBytes more.length) { data := bs ++ more, position := bs.length } := by
  have small := length_of_save saved
  obtain ⟨tag, rest, rfl, taken⟩ := takes_loadTagged saved
  have read := ((Cursor.takes_byte tag).bind taken) [] more .little (by simpa using small)
  simp only [List.nil_append, List.length_nil, Nat.zero_add, List.singleton_append] at read
  let c : Cursor := { data := tag :: rest ++ more, position := (tag :: rest).length }
  have size : c.data.length = c.position + more.length := List.length_append
  have unread : c.hasMore = true := by
    have := List.length_pos_of_ne_nil longer
    simp only [Cursor.hasMore, decide_eq_true_eq]
    omega
  have remaining : c.remaining = more.length := by
    rw [Cursor.remaining]
    omega
  rw [load, ← bind_assoc]
  refine (Action.bind_of_ok read).trans ((Action.bind_of_ok rfl).trans ?_)
  rw [if_pos unread, remaining]
  rfl

/-- A stored form begins no other. -/
theorem eq_of_isPrefix (saved : i.save = .ok bs) (saved' : j.save = .ok bs')
    (begins : bs <+: bs') : i = j := by
  obtain ⟨more, rfl⟩ := begins
  have loaded' := load_of_save saved' (length_of_save saved')
  by_cases same : more = []
  · subst same
    have loaded := load_of_save saved (length_of_save saved)
    rw [List.append_nil] at loaded'
    cases loaded.symm.trans loaded'
    rfl
  · cases (load_longer saved same).symm.trans loaded'

/-- Stored instructions are a code of which each word says where it ends.  Saving fails for
a run of bytes, for too many operands and for too long a mnemonic.  A stored form is loaded
as the instruction, up to its end; what ends before it runs out of bytes, and what goes on
behind it is a fault.  So no stored form begins that of another instruction, and whatever
is loaded can be stored and loaded again. -/
theorem save_self_delimiting :
    (∀ i : Instruction,
      ((∃ e, i.save = .error e) ↔
        i.isUnknown = true ∨ 255 < i.kinds.length ∨
          ∃ m, i.mnemonic? = some m ∧ 2 ^ 32 - 1 < (Text.Utf8.encode m).length) ∧
      ∀ bs, i.save = .ok bs →
        load { data := bs } = .ok i { data := bs, position := bs.length } ∧
        (∀ part, part <+: bs → part ≠ bs → ∃ c, load { data := part } = .error .outOfBounds c) ∧
        ∀ more, more ≠ [] → ∃ e c, load { data := bs ++ more } = .error e c ∧
          e.category = .malformed) ∧
    (∀ (i j : Instruction) bs bs', i.save = .ok bs → j.save = .ok bs' → i ≠ j → ¬bs <+: bs') ∧
    ∀ c c' i, load c = .ok i c' → ∃ bs, i.save = .ok bs ∧
      load { data := bs } = .ok i { data := bs, position := bs.length } := by
  have reload {i : Instruction} {bs : Bytes} (saved : i.save = .ok bs) :
      load { data := bs } = .ok i { data := bs, position := bs.length } :=
    load_of_save saved (length_of_save saved)
  refine ⟨fun i ↦ ⟨exists_save_error_iff, fun bs saved ↦ ⟨reload saved, ?_, ?_⟩⟩, ?_, ?_⟩
  · intro part begins proper
    have shorter : part.length < bs.length :=
      Nat.lt_of_le_of_ne begins.length_le fun same ↦ proper (begins.eq_of_length same)
    exact load_cut saved (length_of_save saved) begins shorter
  · exact fun more longer ↦ ⟨_, _, load_longer saved longer, rfl⟩
  · exact fun i j bs bs' saved saved' distinct begins ↦
      distinct (eq_of_isPrefix saved saved' begins)
  · intro c c' i loaded
    obtain ⟨bs, saved⟩ := exists_save_iff.2 (storable_of_load loaded)
    exact ⟨bs, saved, reload saved⟩

/-- A stored form that is cut inside a character, one with a zero behind it, and a
mnemonic whose length was stored with a group too many. -/
theorem save_self_delimiting_of_jump :
    let jump : Instruction := .operands "jé" [.rel16, .table32]
    let bs : Bytes := [0x02, 3, 0x6A, 0xC3, 0xA9, 2, 0x21, 0x30]
    let loose : Cursor := { data := [0x01, 0x83, 0x00, 0x6E, 0x6F, 0x70] }
    jump.save = .ok bs ∧
      (∃ c, load { data := bs.take 4 } = .error .outOfBounds c) ∧
      (∃ e c, load { data := bs ++ [0] } = .error e c ∧ e.category = .malformed) ∧
      load loose = .ok (.simple "nop") { loose with position := 6 } ∧
      ∃ stored, (Instruction.simple "nop").save = .ok stored ∧
        load { data := stored } =
          .ok (.simple "nop") { data := stored, position := stored.length } := by
  intro jump bs loose
  have saved : jump.save = .ok bs := by cbv
  have loaded : load loose = .ok (.simple "nop") { loose with position := 6 } := by cbv
  obtain ⟨each, -, again⟩ := save_self_delimiting
  obtain ⟨-, short, long⟩ := (each jump).2 bs saved
  exact ⟨saved, short (bs.take 4) (List.take_prefix 4 bs) (by decide), long [0] (by simp), loaded,
    again loose _ _ loaded⟩

end Instruction

end Disasm
