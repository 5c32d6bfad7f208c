import Disasm.Image.Header
import Disasm.Proofs.Bytes.Cursor

/-!
# Headers are read back

The twelve bytes of a header are read back, if its widths are allowed and its
number of entries fits.  What is read from any bytes is said of the bytes
themselves: `Headed` are those that begin with a header, and `spelled` is the
header that they spell.
-/

namespace Disasm.Image.Header

open Cursor (Takes)

theorem isOpcodeWidth_iff {width : Nat} :
    isOpcodeWidth width = true ↔ 2 ≤ width ∧ width ≤ 256 ∧ width % 2 = 0 := by
  simp only [isOpcodeWidth, Bool.and_eq_true, decide_eq_true_eq, and_assoc]

theorem isPositionWidth_iff {width : Nat} :
    isPositionWidth width = true ↔ width = 2 ∨ width = 4 ∨ width = 8 := by
  simp only [isPositionWidth, Bool.or_eq_true, decide_eq_true_eq, or_assoc]

/-- A header that can be written and read. -/
structure Valid (h : Header) : Prop where
  entries : h.entries < 2 ^ 32
  opcodeWidth : isOpcodeWidth h.opcodeWidth = true
  positionWidth : isPositionWidth h.positionWidth = true

variable {h : Header}

theorem Valid.opcodeWidth_bounds (valid : h.Valid) : 2 ≤ h.opcodeWidth ∧ h.opcodeWidth ≤ 256 := by
  obtain ⟨least, most, -⟩ := isOpcodeWidth_iff.1 valid.opcodeWidth
  exact ⟨least, most⟩

theorem Valid.positionWidth_bounds (valid : h.Valid) :
    1 ≤ h.positionWidth ∧ h.positionWidth ≤ 8 := by
  have width := isPositionWidth_iff.1 valid.positionWidth
  omega

theorem takes_reader (valid : h.Valid) : Takes reader h.bytes h := by
  have opcode := valid.opcodeWidth_bounds
  have position := valid.positionWidth_bounds
  simp only [bytes, List.append_assoc]
  refine (Cursor.takes_bytes mark).bind ?_
  rw [if_neg (not_not_intro rfl)]
  refine (Cursor.takes_uint (by decide) (by decide) valid.entries).bind ?_
  refine (Cursor.takes_uint (by decide) (by decide) (by omega)).bind ?_
  refine (Cursor.takes_uint (by decide) (by decide) (by omega)).bind ?_
  refine (Cursor.takes_uint (by decide : 1 ≤ 1) (by decide) (by decide : 0 < 256 ^ 1)).last ?_
  rw [valid.opcodeWidth, valid.positionWidth]
  exact .pure h

theorem read_bytes_append (valid : h.Valid) (rest : Bytes) : read (h.bytes ++ rest) = .ok h := by
  have taken := takes_reader valid [] rest .little
    (by rw [length_bytes]; decide)
  rw [List.nil_append, List.length_nil] at taken
  rw [read, taken]

/-! ## Any bytes -/

/-- The header that the bytes spell, whether its widths are allowed or not. -/
def spelled (data : Bytes) : Header := ⟨data.number 4 4, data.number 8 2, data.number 10 1⟩

/-- The bytes begin with a header. -/
structure Headed (data : Bytes) : Prop where
  length : 12 ≤ data.length
  mark : data.take 4 = mark
  opcodeWidth : 2 ≤ (spelled data).opcodeWidth ∧ (spelled data).opcodeWidth ≤ 256 ∧
    (spelled data).opcodeWidth % 2 = 0
  positionWidth : (spelled data).positionWidth = 2 ∨ (spelled data).positionWidth = 4 ∨
    (spelled data).positionWidth = 8
  reserved : data.number 11 1 = 0

variable {data : Bytes}

theorem Headed.valid (headed : Headed data) : (spelled data).Valid where
  entries := data.number_lt 4 4
  opcodeWidth := isOpcodeWidth_iff.2 headed.opcodeWidth
  positionWidth := isPositionWidth_iff.2 headed.positionWidth

theorem reader_eq_ok_iff {c : Cursor} :
    reader { data } = .ok h c ↔
      Headed data ∧ h = spelled data ∧ c = { data, position := 12 } := by
  rw [reader]
  simp only [Action.bind_eq_ok, Action.check_eq_ok, Cursor.bytes_eq_ok_iff,
    Cursor.uint_eq_ok_iff (by decide : 1 ≤ 4) (by decide),
    Cursor.uint_eq_ok_iff (by decide : 1 ≤ 2) (by decide),
    Cursor.uint_eq_ok_iff (by decide : 1 ≤ 1) (by decide), Bytes.slice?_eq_some_iff]
  simp only [Bool.not_eq_true', Bool.not_eq_false, isOpcodeWidth_iff, isPositionWidth_iff,
    ne_eq, Decidable.not_not]
  constructor
  · rintro ⟨_, _, ⟨⟨-, -, rfl⟩, rfl⟩, marked, n, _, ⟨-, rfl, rfl⟩, w, _, ⟨-, rfl, rfl⟩,
      p, _, ⟨-, rfl, rfl⟩, reserved, _, ⟨⟨-, length⟩, rfl, rfl⟩, opcode, position, zero, made⟩
    cases made
    exact ⟨⟨length, marked, opcode, position, zero⟩, rfl, rfl⟩
  · rintro ⟨headed, rfl, rfl⟩
    -- Each field ends inside the twelve bytes.
    have inside : ∀ n ≤ 12, n < addressBound ∧ n ≤ data.length := fun n le ↦
      ⟨Nat.lt_of_le_of_lt le (by decide), Nat.le_trans le headed.length⟩
    refine ⟨_, _, ⟨⟨(inside 4 ?_).1, (inside 4 ?_).2, rfl⟩, rfl⟩, headed.mark,
      _, _, ⟨inside 8 ?_, rfl, rfl⟩, _, _, ⟨inside 10 ?_, rfl, rfl⟩,
      _, _, ⟨inside 11 ?_, rfl, rfl⟩, _, _, ⟨inside 12 ?_, rfl, rfl⟩,
      headed.opcodeWidth, headed.positionWidth, headed.reserved, rfl⟩
    all_goals decide

theorem read_eq_ok_iff : read data = .ok h ↔ Headed data ∧ h = spelled data := by
  rw [read]
  cases result : reader { data } with
  | error e c =>
    refine ⟨(nomatch ·), fun ⟨headed, same⟩ ↦ ?_⟩
    rw [reader_eq_ok_iff.2 ⟨headed, same, rfl⟩] at result
    cases result
  | ok h' c =>
    obtain ⟨headed, same, -⟩ := reader_eq_ok_iff.1 result
    rw [and_iff_right headed, ← same, Except.ok.injEq, eq_comm]

end Disasm.Image.Header
