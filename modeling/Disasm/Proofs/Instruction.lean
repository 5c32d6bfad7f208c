import Disasm.Instruction
import Disasm.Proofs.Bytes.Cursor
import Disasm.Proofs.Bytes.Shortage

/-!
# Instructions are loaded back

An instruction that could be saved is loaded from its stored form, and from no
form that is cut short.  Whatever is loaded has a mnemonic.
-/

namespace Disasm

theorem Operand.ofTag?_tag (k : Operand) : ofTag? k.tag = some k := by
  cases k with
  | scalar kind => cases kind <;> rfl
  | _ => rfl

namespace Instruction

open Cursor (Takes Stable)

theorem takes_loadKinds (ks : List Operand) :
    Takes (loadKinds ks.length) (ks.map Operand.tag) ks := by
  induction ks with
  | nil => exact .pure []
  | cons k ks ih =>
    refine (Cursor.takes_byte k.tag).bind ?_
    rw [Operand.ofTag?_tag]
    exact ih.map (k :: ·)

/-- The stored forms of instructions. -/
inductive Form : Instruction → Bytes → Prop
  | simple {m : String} {text : Bytes} (stored : Bytes.sizedText m = .ok text) :
      Form (simple m) (simpleTag :: text)
  | operands {m : String} {ks : List Operand} {text : Bytes} (few : ks.length ≤ maxOperands)
      (stored : Bytes.sizedText m = .ok text) :
      Form (operands m ks)
        (operandsTag :: text ++ UInt8.ofNat ks.length :: ks.map Operand.tag)

theorem save_eq_ok_iff {i : Instruction} {bs : Bytes} : i.save = .ok bs ↔ Form i bs := by
  constructor
  · intro saved
    cases i with
    | simple m =>
      obtain ⟨text, stored, made⟩ := Action.bind_eq_ok_iff.1 saved
      cases made
      exact .simple stored
    | operands m ks =>
      rw [save, Action.check_eq_ok_iff] at saved
      obtain ⟨few, text, stored, made⟩ := saved.imp_right Action.bind_eq_ok_iff.1
      cases made
      exact .operands (Nat.le_of_not_lt few) stored
    | unknown bytes => cases saved
  · rintro (stored | ⟨few, stored⟩)
    · exact Action.bind_eq_ok_iff.2 ⟨_, stored, rfl⟩
    · rw [save, Action.check_eq_ok_iff]
      exact ⟨Nat.not_lt_of_le few, Action.bind_eq_ok_iff.2 ⟨_, stored, rfl⟩⟩

/-- The stored form is a tag and what loading takes after it. -/
theorem takes_loadTagged {i : Instruction} {bs : Bytes} (saved : i.save = .ok bs) :
    ∃ tag rest, bs = tag :: rest ∧ Takes (loadTagged tag) rest i := by
  cases save_eq_ok_iff.1 saved with
  | simple stored => exact ⟨simpleTag, _, rfl, (Cursor.takes_text stored).map simple⟩
  | @operands m ks text few stored =>
    have count : (UInt8.ofNat ks.length).toNat = ks.length := by
      have : ks.length ≤ 255 := few
      rw [UInt8.toNat_ofNat']
      omega
    refine ⟨operandsTag, _, rfl, (Cursor.takes_text stored).bind ?_⟩
    refine (Cursor.takes_byte (UInt8.ofNat ks.length)).bind ?_
    rw [count]
    exact (takes_loadKinds ks).map (operands m)

theorem load_of_save {i : Instruction} {bs : Bytes} (saved : i.save = .ok bs)
    (small : bs.length < addressBound) :
    load { data := bs } = .ok i { data := bs, position := bs.length } := by
  obtain ⟨tag, rest, rfl, taken⟩ := takes_loadTagged saved
  have first := Cursor.takes_byte tag [] rest .little
    (Nat.lt_of_le_of_lt (Nat.le_add_left 1 rest.length) small)
  have second := taken [tag] [] .little (by rwa [Nat.add_comm])
  rw [List.append_nil, List.length_singleton, Nat.add_comm 1 rest.length] at second
  refine (Action.bind_of_ok first).trans ((Action.bind_of_ok second).trans ?_)
  refine (Action.bind_of_ok rfl).trans ?_
  have ended : ¬({ data := [tag] ++ rest, position := rest.length + 1 } : Cursor).hasMore := by
    simp [Cursor.hasMore]
  rw [if_neg ended]
  rfl

/-! ## Stored forms that are cut short -/

theorem stable_loadKinds (count : Nat) : Stable (loadKinds count) := by
  induction count with
  | zero => exact .pure []
  | succ count ih =>
    refine Cursor.stable_byte.bind fun tag ↦ ?_
    split
    · exact .throw _
    · exact ih.map _

theorem stable_loadTagged (tag : UInt8) : Stable (loadTagged tag) := by
  rw [loadTagged]
  split
  · exact Cursor.stable_text.map simple
  · split
    · refine Cursor.stable_text.bind fun m ↦ Cursor.stable_byte.bind fun count ↦ ?_
      exact (stable_loadKinds count.toNat).map (operands m)
    · exact .throw _

/-- Loading runs out of bytes on a stored form that is cut short. -/
theorem load_cut {i : Instruction} {bs part : Bytes} (saved : i.save = .ok bs)
    (small : bs.length < addressBound) (begins : part <+: bs)
    (shorter : part.length < bs.length) : ∃ c, load { data := part } = .error .outOfBounds c := by
  obtain ⟨tag, rest, rfl, taken⟩ := takes_loadTagged saved
  have stable := Cursor.stable_byte.bind stable_loadTagged
  obtain ⟨c, failed⟩ := ((Cursor.takes_byte tag).bind taken).runs_out stable begins shorter []
    .little (by rwa [List.length_nil, Nat.zero_add])
  refine ⟨c, ?_⟩
  rw [load, ← bind_assoc]
  exact Action.bind_of_error failed

/-! ## What is loaded -/

/-- An instruction that was loaded is made of a text that was read and, where it has
operands, of kinds that were loaded. -/
theorem exists_of_load {c c' : Cursor} {i : Instruction} (loaded : load c = .ok i c') :
    (∃ m c₁ c₂, Cursor.text c₁ = .ok m c₂ ∧ i = simple m) ∨
      ∃ m c₁ c₂, Cursor.text c₁ = .ok m c₂ ∧ ∃ (count : UInt8) (ks : List Operand), ∃ c₃ c₄,
        loadKinds count.toNat c₃ = .ok ks c₄ ∧ i = operands m ks := by
  obtain ⟨tag, c₁, -, loaded⟩ := Action.bind_eq_ok.1 loaded
  obtain ⟨i', c₂, tagged, loaded⟩ := Action.bind_eq_ok.1 loaded
  have same : i' = i := by
    obtain ⟨c₃, _, got, loaded⟩ := Action.bind_eq_ok.1 loaded
    split at loaded
    · cases loaded
    · cases loaded
      rfl
  subst same
  rw [loadTagged] at tagged
  split at tagged
  · obtain ⟨m, _, read, made⟩ := Action.bind_eq_ok.1 tagged
    cases made
    exact .inl ⟨m, _, _, read, rfl⟩
  · split at tagged
    · obtain ⟨m, _, read, tagged⟩ := Action.bind_eq_ok.1 tagged
      obtain ⟨count, _, -, tagged⟩ := Action.bind_eq_ok.1 tagged
      obtain ⟨ks, _, kinds, made⟩ := Action.bind_eq_ok.1 tagged
      cases made
      exact .inr ⟨m, _, _, read, count, ks, _, _, kinds, rfl⟩
    · cases tagged

/-- An instruction that was loaded has a mnemonic. -/
theorem mnemonic?_of_load {c c' : Cursor} {i : Instruction}
    (loaded : load c = .ok i c') : ∃ m, i.mnemonic? = some m := by
  obtain ⟨m, _, _, -, rfl⟩ | ⟨m, _, _, -, _, _, _, _, -, rfl⟩ := exists_of_load loaded
  · exact ⟨m, rfl⟩
  · exact ⟨m, rfl⟩

end Instruction

end Disasm
