import Disasm.Opcode.Parse
import Disasm.Proofs.Action
import Disasm.Proofs.Text.Hex

/-!
# What opcode texts are read

The words of an opcode text are its bytes.  `Reads` says what reading comes to for any
notion of what word is a byte, and the reader is held against two of them: the words that
it accepts, two digits or a digit behind a plus sign, and two digits alone.
-/

namespace Disasm.Opcode

open Text.Hex (Pair Signed pair?_eq_some_iff)

/-- What reading a text comes to, where `Spelled` says which words are bytes: the opcode
of these bytes, the first word that is none, or the number of bytes if they are too many. -/
inductive Reads (Spelled : List Char → UInt8 → Prop) (text : String) :
    Except Error Opcode → Prop
  | opcode (o : Opcode) (each : List.Forall₂ Spelled (Text.words text.toList) o.bytes) :
      Reads Spelled text (.ok o)
  | malformed (front : List (List Char)) (word : List Char) (rest : List (List Char))
      (cut : Text.words text.toList = front ++ word :: rest)
      (good : ∀ w ∈ front, ∃ b, Spelled w b) (bad : ∀ b, ¬Spelled word b) :
      Reads Spelled text (.error (.opcodeByte (String.ofList word) text))
  | tooLong (bs : Bytes) (each : List.Forall₂ Spelled (Text.words text.toList) bs)
      (long : 255 < bs.length) : Reads Spelled text (.error (.opcodeTooLong bs.length))

/-- The words that are read as bytes: two digits, or one behind a plus sign. -/
def Accepted (word : List Char) (b : UInt8) : Prop := Pair word b ∨ Signed word b

variable {text : String}

theorem parseWord_eq_ok_iff {word : List Char} {b : UInt8} :
    parseWord text word = .ok b ↔ Accepted word b := by
  rw [Accepted, ← pair?_eq_some_iff, parseWord]
  cases Text.Hex.pair? word with
  | none => exact ⟨nofun, nofun⟩
  | some b' => simp

theorem parseWord_eq_error_iff {word : List Char} {e : Error} :
    parseWord text word = .error e ↔
      (∀ b, ¬Accepted word b) ∧ e = .opcodeByte (String.ofList word) text := by
  simp only [Accepted, ← pair?_eq_some_iff]
  rw [parseWord]
  cases Text.Hex.pair? word with
  | none => simp [eq_comm]
  | some b' => simp

theorem mapM_parseWord_eq_ok_iff {words : List (List Char)} {bs : Bytes} :
    words.mapM (parseWord text) = .ok bs ↔ List.Forall₂ Accepted words bs := by
  simp only [Action.mapM_eq_ok_iff, parseWord_eq_ok_iff]

/-- Reading a text comes to exactly one thing. -/
theorem parse_eq_iff {r : Except Error Opcode} : parse text = r ↔ Reads Accepted text r := by
  constructor
  · rintro rfl
    cases read : (Text.words text.toList).mapM (parseWord text) with
    | error e =>
      obtain ⟨front, word, rest, cut, good, bad⟩ := Action.mapM_eq_error_iff.1 read
      obtain ⟨none, rfl⟩ := parseWord_eq_error_iff.1 bad
      rw [parse, read]
      simp only [parseWord_eq_ok_iff] at good
      exact .malformed front word rest cut good none
    | ok bs =>
      have each := mapM_parseWord_eq_ok_iff.1 read
      have whole : parse text = ofBytes bs := by
        rw [parse, read]
        rfl
      rw [whole, ofBytes]
      split
      · next short => exact .opcode ⟨bs, short⟩ each
      · next long => exact .tooLong bs each (Nat.lt_of_not_le long)
  · intro reads
    cases reads with
    | opcode o each =>
      rw [parse, mapM_parseWord_eq_ok_iff.2 each]
      exact dif_pos o.length_le
    | malformed front word rest cut good bad =>
      have failed : (Text.words text.toList).mapM (parseWord text) =
          .error (.opcodeByte (String.ofList word) text) := by
        refine Action.mapM_eq_error_iff.2 ⟨front, word, rest, cut, ?_, ?_⟩
        · simpa only [parseWord_eq_ok_iff] using good
        · exact parseWord_eq_error_iff.2 ⟨bad, rfl⟩
      rw [parse, failed]
      rfl
    | tooLong bs each long =>
      rw [parse, mapM_parseWord_eq_ok_iff.2 each]
      exact dif_neg (Nat.not_le_of_lt long)

/-! ## Two digits -/

/-- The first word that is not two digits, if there is one, has no sign. -/
def Unsigned (words : List (List Char)) : Prop :=
  ∀ front word rest, words = front ++ word :: rest → (∀ w ∈ front, ∃ b, Pair w b) →
    ∀ b, ¬Signed word b

theorem Unsigned.tail {w : List Char} {words : List (List Char)} (h : Unsigned (w :: words))
    (first : ∃ b, Pair w b) : Unsigned words := fun front word rest cut good ↦
  h (w :: front) word rest (congrArg (w :: ·) cut) (List.forall_mem_cons.2 ⟨first, good⟩)

/-- Then no word has a sign, as far as the words are read. -/
theorem Unsigned.pair_of_accepted {front rest : List (List Char)} (h : Unsigned (front ++ rest))
    (good : ∀ w ∈ front, ∃ b, Accepted w b) : ∀ w ∈ front, ∀ b, Accepted w b → Pair w b := by
  induction front with
  | nil => nofun
  | cons w front ih =>
    obtain ⟨first, later⟩ := List.forall_mem_cons.1 good
    have unsigned : ∀ b, ¬Signed w b := h [] w (front ++ rest) rfl nofun
    have pair : ∀ b, Accepted w b → Pair w b := fun b read ↦ read.resolve_right (unsigned b)
    exact List.forall_mem_cons.2 ⟨pair, ih (h.tail (first.imp pair)) later⟩

theorem exists_of_forall₂ {Spelled : List Char → UInt8 → Prop} {words : List (List Char)}
    {bs : Bytes} (each : List.Forall₂ Spelled words bs) : ∀ w ∈ words, ∃ b, Spelled w b := by
  induction each with
  | nil => nofun
  | cons first _ ih => exact List.forall_mem_cons.2 ⟨⟨_, first⟩, ih⟩

theorem Unsigned.forall₂_pair {words : List (List Char)} {bs : Bytes} (h : Unsigned words)
    (each : List.Forall₂ Accepted words bs) : List.Forall₂ Pair words bs := by
  have whole : Unsigned (words ++ []) := by rwa [List.append_nil]
  have pair := whole.pair_of_accepted (exists_of_forall₂ each)
  exact ((List.forall₂_and_left words bs).2 ⟨pair, each⟩).imp fun w b both ↦ both.1 b both.2

theorem Reads.of_unsigned {r : Except Error Opcode} (reads : Reads Accepted text r)
    (h : Unsigned (Text.words text.toList)) : Reads Pair text r := by
  cases reads with
  | opcode o each => exact .opcode o (h.forall₂_pair each)
  | malformed front word rest cut good bad =>
    rw [cut] at h
    refine .malformed front word rest cut (fun w member ↦ ?_) fun b pair ↦ bad b (.inl pair)
    exact (good w member).imp fun b ↦ h.pair_of_accepted good w member b
  | tooLong bs each long => exact .tooLong bs (h.forall₂_pair each) long

/-- There is one first word without a property. -/
theorem eq_of_first {p : List Char → Prop} {front front' rest rest' : List (List Char)}
    {word word' : List Char} (same : front ++ word :: rest = front' ++ word' :: rest')
    (good : ∀ w ∈ front, p w) (bad : ¬p word) (good' : ∀ w ∈ front', p w) (bad' : ¬p word') :
    word = word' := by
  rcases List.append_eq_append_iff.1 same with
    ⟨_ | ⟨w, between⟩, rfl, eq⟩ | ⟨_ | ⟨w, between⟩, rfl, eq⟩
  · exact (List.cons.inj eq).1
  · obtain ⟨rfl, -⟩ := List.cons.inj eq
    exact absurd (good' word (by simp)) bad
  · exact (List.cons.inj eq).1.symm
  · obtain ⟨rfl, -⟩ := List.cons.inj eq
    exact absurd (good word' (by simp)) bad'

/-- A sign that is accepted is not what two digits ask for. -/
theorem Reads.unsigned {r : Except Error Opcode} (reads : Reads Pair text r)
    (accepted : Reads Accepted text r) : Unsigned (Text.words text.toList) := by
  intro front word rest cut good b signed
  have unpaired : ¬∃ b, Pair word b := fun ⟨_, pair⟩ ↦ pair.not_signed signed
  have member : word ∈ Text.words text.toList := by simp [cut]
  cases reads with
  | opcode o each => exact unpaired (exists_of_forall₂ each word member)
  | tooLong bs each long => exact unpaired (exists_of_forall₂ each word member)
  | malformed front' word' rest' cut' good' bad' =>
    have same : word = word' :=
      eq_of_first (cut.symm.trans cut') good unpaired good' fun ⟨b, pair⟩ ↦ bad' b pair
    generalize named : Error.opcodeByte (String.ofList word') text = e at accepted
    cases accepted with
    | tooLong => cases named
    | malformed front'' word'' rest'' cut'' good'' bad'' =>
      have same' : word' = word'' := String.ofList_injective (Error.opcodeByte.inj named).1
      exact bad'' b (.inr (same' ▸ same ▸ signed))

/-- What opcode texts are read.  A word is a byte if it is two digits or a plus sign and a
digit; the first that is neither is named, and more than 255 bytes are too many.  This is
what it would be with two digits alone if the first word that is not two digits is no
digit behind a plus sign, and in no other case. -/
theorem parse_reads (text : String) :
    (∀ r, parse text = r ↔ Reads (fun word b ↦ Pair word b ∨ Signed word b) text r) ∧
      (Reads Pair text (parse text) ↔
        ∀ front word rest, Text.words text.toList = front ++ word :: rest →
          (∀ w ∈ front, ∃ b, Pair w b) → ∀ b, ¬Signed word b) := by
  have accepted : Reads Accepted text (parse text) := parse_eq_iff.1 rfl
  exact ⟨fun r ↦ parse_eq_iff, fun reads ↦ reads.unsigned accepted, accepted.of_unsigned⟩

/-- The word with the sign is passed over, and the one behind it is named. -/
theorem parse_reads_behind_sign :
    parse "+5 g1" = .error (.opcodeByte "g1" "+5 g1") ∧ ¬Reads Pair "+5 g1" (parse "+5 g1") := by
  have cut : Text.words "+5 g1".toList = [['+', '5'], ['g', '1']] := by decide
  have signed : Signed ['+', '5'] 5 := ⟨by decide⟩
  obtain ⟨read, agrees⟩ := parse_reads "+5 g1"
  refine ⟨(read _).2 (.malformed [['+', '5']] ['g', '1'] [] cut ?_ fun b spelled ↦ ?_), ?_⟩
  · exact List.forall_mem_cons.2 ⟨⟨5, .inr signed⟩, nofun⟩
  · cases pair?_eq_some_iff.2 spelled
  · exact fun reads ↦ agrees.1 reads [] ['+', '5'] [['g', '1']] cut nofun 5 signed

/-- A plus sign and a digit are one byte, though they are not two digits. -/
theorem parse_plus_five :
    parse "+5" = .ok ⟨[5], by decide⟩ ∧ ¬Reads Pair "+5" (parse "+5") := by
  have cut : Text.words "+5".toList = [['+', '5']] := by decide
  have signed : Signed ['+', '5'] 5 := ⟨by decide⟩
  refine ⟨parse_eq_iff.2 (.opcode _ ?_), fun reads ↦ ?_⟩
  · rw [cut]
    exact .cons (.inr signed) .nil
  · have unsigned := reads.unsigned (parse_eq_iff.1 rfl)
    exact unsigned [] ['+', '5'] [] cut (List.forall_mem_nil _) 5 signed

end Disasm.Opcode
