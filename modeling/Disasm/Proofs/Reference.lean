import Disasm.Proofs.Action
import Disasm.Proofs.Text.Blank
import Disasm.Proofs.Text.Hex
import Disasm.Reference

/-!
# Reference tables are read back

A table may be written in many ways: with blanks around its fields, small digits,
comments and empty lines.  What is read from it has one form, and in this form the
table is read as the same entries.  `Field` and `Entry.Proper` say what is known of
everything that was read.
-/

namespace Disasm

/-! ## Opcodes -/

namespace Opcode

theorem toList_text (o : Opcode) :
    o.text.toList = [' '].intercalate (o.bytes.map fun b ↦ (Text.Hex.byte b).toList) := by
  rw [text, Text.Hex.bytes, String.toList_intercalate, List.map_map]
  rfl

/-- What is known of a digit: it is no blank, no semicolon and no number sign. -/
theorem digit_plain {d : Nat} (small : d < 16) :
    Text.isBlank (Nat.digitChar d).toUpper = false ∧ (Nat.digitChar d).toUpper ≠ ';' ∧
      (Nat.digitChar d).toUpper ≠ '#' :=
  (by decide : ∀ d : Fin 16, Text.isBlank (Nat.digitChar d).toUpper = false ∧
    (Nat.digitChar d).toUpper ≠ ';' ∧ (Nat.digitChar d).toUpper ≠ '#') ⟨d, small⟩

theorem byte_plain (b : UInt8) : (Text.Hex.byte b).toList ≠ [] ∧
    ∀ c ∈ (Text.Hex.byte b).toList, Text.isBlank c = false ∧ c ≠ ';' ∧ c ≠ '#' := by
  rw [Text.Hex.toList_byte]
  refine ⟨List.cons_ne_nil _ _, ?_⟩
  simp only [List.forall_mem_cons]
  exact ⟨digit_plain (Nat.div_lt_of_lt_mul b.toNat_lt), digit_plain (Nat.mod_lt _ (by decide)),
    nofun⟩

/-- The text of an opcode is read as the opcode. -/
theorem parse_text (o : Opcode) : parse o.text = .ok o := by
  have words : Text.words o.text.toList = o.bytes.map fun b ↦ (Text.Hex.byte b).toList := by
    rw [toList_text, Text.words_intercalate]
    intro w member
    obtain ⟨b, -, rfl⟩ := List.mem_map.1 member
    exact ⟨(byte_plain b).1, fun c there ↦ ((byte_plain b).2 c there).1⟩
  have each : parseWord o.text ∘ (fun b ↦ (Text.Hex.byte b).toList) = pure := by
    funext b
    simp only [Function.comp_apply, parseWord, Text.Hex.pair?_byte]
    rfl
  have read : (Text.words o.text.toList).mapM (parseWord o.text) = .ok o.bytes := by
    rw [words, List.mapM_map, each]
    exact List.mapM_pure.trans (congrArg pure (List.map_id _))
  rw [parse, read]
  exact dif_pos o.length_le

end Opcode

namespace Reference

/-! ## Lines -/

/-- The fields of a line that give an entry. -/
inductive Spells : List (List Char) → Entry → Prop
  | intro {opcode : Opcode} {opcodeText mnemonic : List Char} (rest : List (List Char))
      (read : Opcode.parse (String.ofList opcodeText) = .ok opcode)
      (some : opcode.isEmpty = false) (named : isEmptyField mnemonic = false) :
      Spells (opcodeText :: mnemonic :: rest)
        ⟨opcode, String.ofList mnemonic, rest.map parseField⟩

/-- An entry is read from the fields of its line, whatever the line's number. -/
theorem parseLine_eq_ok_iff {line : List Char} {number : Nat} {e : Entry} :
    parseLine line number = .ok e ↔ Spells (splitLine line) e := by
  rw [parseLine]
  dsimp only
  constructor
  · intro parsed
    cases read : Opcode.parse (String.ofList ((splitLine line).headD [])) with
    | error e =>
      rw [read] at parsed
      cases parsed
    | ok opcode =>
      rw [read] at parsed
      dsimp only at parsed
      rw [pure_bind] at parsed
      obtain ⟨some, parsed⟩ := Action.check_eq_ok_iff.1 parsed
      match cut : splitLine line with
      | [] | [_] =>
        rw [cut] at parsed
        cases parsed
      | opcodeText :: mnemonic :: rest =>
        rw [cut] at parsed read
        obtain ⟨named, parsed⟩ := Action.check_eq_ok_iff.1 parsed
        cases parsed
        exact .intro rest read (eq_false_of_ne_true some) (eq_false_of_ne_true named)
  · generalize splitLine line = cut
    rintro ⟨rest, read, some, named⟩
    rw [List.headD_cons, read]
    dsimp only
    rw [pure_bind, if_neg (ne_true_of_eq_false some), List.tail_cons]
    exact if_neg (ne_true_of_eq_false named)

/-- A piece of a line, such that the line can be cut to it. -/
structure Piece (line cs : List Char) : Prop where
  filled : cs ≠ []
  tight : Text.Tight cs
  /-- No semicolon divides it. -/
  whole : ';' ∉ cs
  /-- It has no line feed of its own. -/
  feed : '\n' ∈ cs → '\n' ∈ line

theorem isEmptyField_eq_false_iff {cs : List Char} :
    isEmptyField cs = false ↔ cs ≠ [] ∧ cs ≠ ['-'] := by
  simp [isEmptyField]

theorem piece_of_mem_splitLine {line cs : List Char} (member : cs ∈ splitLine line)
    (filled : cs ≠ []) : Piece line cs := by
  obtain ⟨piece, there, rfl⟩ := List.mem_map.1 member
  have kept : ∀ c ∈ Text.trim piece, c ≠ ';' ∧ c ∈ Text.trim line := fun c inside ↦
    Text.mem_of_mem_splitOn there ((Text.trim_isInfix piece).subset inside)
  exact {
    filled
    tight := Text.tight_trim piece
    whole := fun divides ↦ (kept ';' divides).1 rfl
    feed := fun inside ↦ (Text.trim_isInfix line).subset (kept '\n' inside).2 }

theorem piece_hyphen (line : List Char) : Piece line ['-'] where
  filled := List.cons_ne_nil _ _
  tight := ⟨by simp [Text.isBlank], by simp [Text.isBlank]⟩
  whole := by simp
  feed := by simp

/-- The text of an opcode is a piece: it begins and ends with a digit. -/
theorem piece_opcode (line : List Char) {o : Opcode} (some : o.isEmpty = false) :
    Piece line o.text.toList := by
  have plain : ∀ w ∈ o.bytes.map fun b ↦ (Text.Hex.byte b).toList,
      w ≠ [] ∧ ∀ c ∈ w, Text.isBlank c = false ∧ c ≠ ';' ∧ c ≠ '#' :=
    List.forall_mem_map.2 fun b _ ↦ Opcode.byte_plain b
  have filled : (o.bytes.map fun b ↦ (Text.Hex.byte b).toList) ≠ [] := by
    simpa [Opcode.isEmpty] using some
  obtain ⟨more, tight⟩ := Text.Tight.intercalate [' '] filled fun w member ↦
    ⟨(plain w member).1, fun c ends ↦ ((plain w member).2 c (List.mem_of_mem_head? ends)).1,
      fun c ends ↦ ((plain w member).2 c (List.mem_of_mem_getLast? ends)).1⟩
  rw [← Opcode.toList_text] at more tight
  have only : ∀ c ∈ o.text.toList, c = ' ' ∨ Text.isBlank c = false ∧ c ≠ ';' := by
    intro c inside
    rw [Opcode.toList_text] at inside
    rcases Text.mem_of_mem_intercalate inside with apart | ⟨w, member, inside⟩
    · exact .inl (List.mem_singleton.1 apart)
    · have known := (plain w member).2 c inside
      exact .inr ⟨known.1, known.2.1⟩
  exact {
    filled := more
    tight
    whole := fun divides ↦ by simpa using only ';' divides
    feed := fun inside ↦ absurd (only '\n' inside) (by decide) }

/-! ## Entries -/

/-- What is known of an entry that was read from a line. -/
structure Entry.Proper (line : List Char) (e : Entry) : Prop where
  opcode : e.opcode.isEmpty = false
  mnemonic : Piece line e.mnemonic.toList ∧ e.mnemonic.toList ≠ ['-']
  fields : ∀ s, some s ∈ e.fields → Piece line s.toList ∧ s.toList ≠ ['-']

theorem proper_of_parseLine {line : List Char} {number : Nat} {e : Entry}
    (parsed : parseLine line number = .ok e) : e.Proper line := by
  have spelt := parseLine_eq_ok_iff.1 parsed
  have piece : ∀ cs ∈ splitLine line, isEmptyField cs = false →
      Piece line (String.ofList cs).toList ∧ (String.ofList cs).toList ≠ ['-'] := by
    intro cs member filled
    obtain ⟨more, other⟩ := isEmptyField_eq_false_iff.1 filled
    rw [String.toList_ofList]
    exact ⟨piece_of_mem_splitLine member more, other⟩
  generalize splitLine line = cut at spelt piece
  obtain ⟨rest, read, some, named⟩ := spelt
  refine ⟨some, piece _ (by simp) named, fun s member ↦ ?_⟩
  obtain ⟨cs, there, given⟩ := List.mem_map.1 member
  rw [parseField] at given
  split at given
  · cases given
  · next filled =>
    cases given
    exact piece cs (by simp [there]) (eq_false_of_ne_true filled)

namespace Entry

/-- The fields of the line of an entry. -/
def pieces (e : Entry) : List (List Char) :=
  e.opcode.text.toList :: e.mnemonic.toList :: e.fields.map fun f ↦ (f.getD "-").toList

theorem toList_text (e : Entry) : e.text.toList = [';'].intercalate e.pieces := by
  rw [text, String.toList_intercalate, pieces, List.map_cons, List.map_cons, List.map_map]
  rfl

namespace Proper

variable {line : List Char} {e : Entry} (proper : e.Proper line)
include proper

theorem piece : ∀ p ∈ e.pieces, Piece line p := by
  refine List.forall_mem_cons.2 ⟨piece_opcode line proper.opcode,
    List.forall_mem_cons.2 ⟨proper.mnemonic.1, List.forall_mem_map.2 fun f member ↦ ?_⟩⟩
  cases f with
  | none => exact piece_hyphen line
  | some s => exact (proper.fields s member).1

theorem tight_text : e.text.toList ≠ [] ∧ Text.Tight e.text.toList := by
  rw [toList_text]
  exact Text.Tight.intercalate [';'] (List.cons_ne_nil _ _) fun p member ↦
    ⟨(proper.piece p member).filled, (proper.piece p member).tight⟩

theorem splitLine_text : splitLine e.text.toList = e.pieces := by
  rw [splitLine, proper.tight_text.2.trim_eq, toList_text,
    List.splitOn_intercalate ';' (fun p member ↦ (proper.piece p member).whole)
      (List.cons_ne_nil _ _)]
  exact (List.map_congr_left fun p member ↦ (proper.piece p member).tight.trim_eq).trans
    (List.map_id _)

/-- The fields of the entry's line give the entry again. -/
theorem spells : Spells e.pieces e := by
  have parsed {cs : List Char} (known : Piece line cs ∧ cs ≠ ['-']) : isEmptyField cs = false :=
    isEmptyField_eq_false_iff.2 ⟨known.1.filled, known.2⟩
  have each : ∀ f ∈ e.fields, parseField (f.getD "-").toList = f := by
    intro f member
    cases f with
    | none => rfl
    | some s => simp [parseField, parsed (proper.fields s member)]
  have fields : (e.fields.map fun f ↦ (f.getD "-").toList).map parseField = e.fields := by
    rw [List.map_map]
    exact (List.map_congr_left each).trans (List.map_id _)
  have read : Opcode.parse (String.ofList e.opcode.text.toList) = .ok e.opcode := by
    rw [String.ofList_toList]
    exact e.opcode.parse_text
  have spelt := Spells.intro (e.fields.map fun f ↦ (f.getD "-").toList) read proper.opcode
    (parsed proper.mnemonic)
  rwa [fields, String.ofList_toList] at spelt

/-- The line of the entry is read as the entry. -/
theorem parseLine_text (number : Nat) : parseLine e.text.toList number = .ok e := by
  rw [parseLine_eq_ok_iff, proper.splitLine_text]
  exact proper.spells

/-- A table can hold the line: it stays one line, and its end is not cut off. -/
theorem text_whole (single : '\n' ∉ line) :
    '\n' ∉ e.text.toList ∧ e.text.toList.getLast? ≠ some '\r' := by
  refine ⟨fun inside ↦ ?_, fun ends ↦ ?_⟩
  · rw [toList_text] at inside
    rcases Text.mem_of_mem_intercalate inside with apart | ⟨p, member, inside⟩
    · exact absurd apart (by decide)
    · exact single ((proper.piece p member).feed inside)
  · exact absurd (proper.tight_text.2.last '\r' ends) (by decide)

/-- The line is no comment: it begins with a digit. -/
theorem isEntryLine_text : isEntryLine e.text.toList = true := by
  obtain ⟨b, bs, bytes⟩ : ∃ b bs, e.opcode.bytes = b :: bs :=
    List.exists_cons_of_ne_nil (by simpa [Opcode.isEmpty] using proper.opcode)
  have first : e.text.toList.head? = (Text.Hex.byte b).toList.head? := by
    rw [toList_text, pieces, Text.head?_intercalate _ (piece_opcode line proper.opcode).filled,
      Opcode.toList_text, bytes, List.map_cons, Text.head?_intercalate _ (Opcode.byte_plain b).1]
  obtain ⟨c, rest, begins⟩ := List.exists_cons_of_ne_nil proper.tight_text.1
  rw [begins, List.head?_cons] at first
  rw [isEntryLine, proper.tight_text.2.trim_eq, begins]
  exact bne_iff_ne.2 ((Opcode.byte_plain b).2 c (List.mem_of_mem_head? first.symm)).2.2

end Proper

end Entry

/-! ## Tables -/

/-- Each entry of a table was read from a line of it. -/
theorem exists_proper_of_parseLines {lines : List (List Char)} {number : Nat}
    {entries : List Entry} (parsed : parseLines number lines = .ok entries) :
    ∀ e ∈ entries, ∃ line ∈ lines, e.Proper line := by
  induction lines generalizing number entries with
  | nil =>
    cases parsed
    nofun
  | cons line rest ih =>
    have later {entries : List Entry} (parsed : parseLines (number + 1) rest = .ok entries) :
        ∀ e ∈ entries, ∃ line' ∈ line :: rest, e.Proper line' := fun e member ↦
      (ih parsed e member).imp fun _ known ↦ known.imp_left (List.mem_cons_of_mem line)
    rw [parseLines] at parsed
    split at parsed
    · obtain ⟨e, first, parsed⟩ := Action.bind_eq_ok_iff.1 parsed
      obtain ⟨others, behind, same⟩ := Action.bind_eq_ok_iff.1 parsed
      cases same
      exact List.forall_mem_cons.2
        ⟨⟨line, List.mem_cons_self .., proper_of_parseLine first⟩, later behind⟩
    · exact later parsed

/-- The lines of entries are read as the entries. -/
theorem parseLines_map_text {entries : List Entry}
    (proper : ∀ e ∈ entries, ∃ line, e.Proper line) (number : Nat) :
    parseLines number (entries.map fun e ↦ e.text.toList) = .ok entries := by
  induction entries generalizing number with
  | nil => rfl
  | cons e rest ih =>
    obtain ⟨⟨line, first⟩, later⟩ := List.forall_mem_cons.1 proper
    rw [List.map_cons, parseLines, if_pos first.isEntryLine_text, first.parseLine_text,
      ih later]
    rfl

theorem toList_format (entries : List Entry) :
    (format entries).toList = (entries.map fun e ↦ e.text.toList).flatMap (· ++ ['\n']) := by
  rw [format, String.toList_join, List.flatMap_map, List.flatMap_map]
  simp

/-- A table that could be read is read again from what its entries are formatted as, and
so is each line from the text of its entry. -/
theorem parse_format :
    (∀ text entries, parse text = .ok entries → parse (format entries) = .ok entries ∧
      (parse (format entries)).map format = .ok (format entries)) ∧
    ∀ line number e, parseLine line number = .ok e →
      ∀ other, parseLine e.text.toList other = .ok e := by
  refine ⟨fun text entries parsed ↦ ?_, fun line number e parsed other ↦
    (proper_of_parseLine parsed).parseLine_text other⟩
  have proper := exists_proper_of_parseLines parsed
  have whole : ∀ l ∈ entries.map fun e ↦ e.text.toList,
      '\n' ∉ l ∧ l.getLast? ≠ some '\r' := by
    refine List.forall_mem_map.2 fun e member ↦ ?_
    obtain ⟨line, there, known⟩ := proper e member
    exact known.text_whole (Text.not_mem_of_mem_lines there)
  have again : parse (format entries) = .ok entries := by
    rw [parse, toList_format, Text.lines_flatMap whole]
    exact parseLines_map_text (fun e member ↦ (proper e member).imp fun _ ↦ And.right) 1
  exact ⟨again, by rw [again]; rfl⟩

/-- Blanks, small digits, a signed byte, empty fields and a carriage return inside. -/
theorem parse_format_untidy :
    let text := "# moves\n\n \t0f 1a  +5 ;\u00a0mov ; - ;; to x \r\nff;x\ry;-1"
    let move : Entry := ⟨⟨[0x0F, 0x1A, 5], by decide⟩, "mov", [none, none, some "to x"]⟩
    let other : Entry := ⟨⟨[0xFF], by decide⟩, "x\ry", [some "-1"]⟩
    parse text = .ok [move, other] ∧
      format [move, other] = "0F 1A 05;mov;-;-;to x\nFF;x\ry;-1\n" ∧
      parse (format [move, other]) = .ok [move, other] ∧
      parseLine " ff; x\ry ;-1 ".toList 7 = .ok other ∧
      parseLine other.text.toList 1 = .ok other := by
  intro text move other
  have table : parse text = .ok [move, other] := by cbv
  have line : parseLine " ff; x\ry ;-1 ".toList 7 = .ok other := by cbv
  exact ⟨table, by cbv, (parse_format.1 text [move, other] table).1, line,
    parse_format.2 _ 7 other line 1⟩

end Reference

end Disasm
