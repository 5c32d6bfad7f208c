import Disasm.Bytes.Cursor
import Disasm.Proofs.Action
import Disasm.Proofs.Text.Utf8

/-!
# What a read takes

A read *takes* a byte list if it reads exactly these bytes, whatever stands
before and behind them.  Reads that take their bytes can be put one after the
other, so that the stored form of a value is followed piece by piece.
-/

namespace Disasm

/-- A piece of a list is found where it stands. -/
theorem Bytes.slice?_middle {a b : Bytes} (c : Bytes) {offset count : Nat}
    (start : a.length = offset) (size : b.length = count) (small : offset + count < addressBound) :
    Bytes.slice? (a ++ b ++ c) offset count = some b := by
  refine Bytes.slice?_eq_some_iff.2 ⟨small, ?_, ?_⟩
  · rw [List.length_append, List.length_append]
    omega
  · rw [List.append_assoc, List.drop_left' start, List.take_left' size]

/-- The number in the `width` bytes at `offset`, lowest byte first. -/
def Bytes.number (data : Bytes) (offset width : Nat) : Nat :=
  Bytes.value ((data.drop offset).take width)

theorem Bytes.number_lt (data : Bytes) (offset width : Nat) :
    data.number offset width < 256 ^ width :=
  Nat.lt_of_lt_of_le (Bytes.value_lt _)
    (Nat.pow_le_pow_right (by decide) (List.length_take_le _ _))

namespace Cursor

variable {α β : Type}

/-! ## What a read has read -/

theorem bytes_eq_ok_iff {count : Nat} {c c' : Cursor} {bs : Bytes} :
    bytes count c = .ok bs c' ↔
      c.data.slice? c.position count = some bs ∧
        c' = { c with position := c.position + count } := by
  rw [bytes]
  cases c.data.slice? c.position count with
  | none => simp
  | some found => simp [eq_comm]

theorem uint_eq_ok_iff {width n : Nat} {c c' : Cursor} (positive : 1 ≤ width) (most : width ≤ 8) :
    uint width c = .ok n c' ↔
      (c.position + width < addressBound ∧ c.position + width ≤ c.data.length) ∧
        c.data.number c.position width = n ∧ c' = { c with position := c.position + width } := by
  have plain : uint width = do return (← bytes width).value := by
    rw [uint, if_neg (by omega)]
  rw [plain, Action.bind_eq_ok]
  simp only [bytes_eq_ok_iff, Bytes.slice?_eq_some_iff]
  constructor
  · rintro ⟨_, _, ⟨⟨small, fits, rfl⟩, rfl⟩, made⟩
    cases made
    exact ⟨⟨small, fits⟩, rfl, rfl⟩
  · rintro ⟨⟨small, fits⟩, rfl, rfl⟩
    exact ⟨_, _, ⟨⟨small, fits, rfl⟩, rfl⟩, rfl⟩

/-! ## What a read takes -/

/-- The read takes the bytes `bs` and gives `a`. -/
def Takes (read : Read α) (bs : Bytes) (a : α) : Prop :=
  ∀ (before behind : Bytes) (order : ByteOrder), before.length + bs.length < addressBound →
    read { data := before ++ bs ++ behind, order, position := before.length } =
      .ok a { data := before ++ bs ++ behind, order, position := before.length + bs.length }

namespace Takes

variable {read : Read α} {f : α → Read β} {bs bs' : Bytes} {a : α} {b : β}

theorem pure (a : α) : Takes (pure a) [] a := fun _ _ _ _ ↦ rfl

theorem bind (first : Takes read bs a) (second : Takes (f a) bs' b) :
    Takes (read >>= f) (bs ++ bs') b := by
  intro before behind order small
  rw [List.length_append] at small ⊢
  have start := first before (bs' ++ behind) order (by omega)
  have rest := second (before ++ bs) behind order (by rw [List.length_append]; omega)
  rw [List.length_append] at rest
  have same : before ++ (bs ++ bs') ++ behind = before ++ bs ++ (bs' ++ behind) := by
    simp only [List.append_assoc]
  have same' : before ++ bs ++ bs' ++ behind = before ++ bs ++ (bs' ++ behind) := by
    simp only [List.append_assoc]
  rw [same'] at rest
  rw [same, Action.bind_of_ok start, rest, Nat.add_assoc]

/-- What follows may take nothing. -/
theorem last (first : Takes read bs a) (second : Takes (f a) [] b) : Takes (read >>= f) bs b := by
  have both := first.bind second
  rwa [List.append_nil] at both

theorem map (g : α → β) (h : Takes read bs a) : Takes (do return g (← read)) bs (g a) :=
  h.last (.pure (g a))

/-- The cursor may be asked for first. -/
theorem get {g : Cursor → Read β} (h : ∀ c, Takes (g c) bs b) :
    Takes (MonadState.get >>= g) bs b := by
  intro before behind order small
  exact (Action.bind_of_ok rfl).trans (h _ before behind order small)

end Takes

theorem takes_byte (b : UInt8) : Takes byte [b] b := by
  intro before behind order _
  have here : (before ++ [b] ++ behind)[before.length]? = some b := by
    rw [List.append_assoc, List.getElem?_append_right (Nat.le_refl _), Nat.sub_self]
    rfl
  have peeked : peek { data := before ++ [b] ++ behind, order, position := before.length } =
      .ok b { data := before ++ [b] ++ behind, order, position := before.length } := by
    rw [peek]
    dsimp only
    rw [here]
  exact Action.bind_of_ok peeked

theorem takes_bytes (bs : Bytes) : Takes (bytes bs.length) bs bs := by
  intro before behind order small
  have there := Bytes.slice?_middle behind rfl rfl small
  rw [bytes]
  dsimp only
  rw [there]

theorem takes_uint {width n : Nat} (positive : 1 ≤ width) (most : width ≤ 8)
    (fits : n < 256 ^ width) : Takes (uint width) (Bytes.ofNat width n) n := by
  have taken := (takes_bytes (Bytes.ofNat width n)).map Bytes.value
  rw [Bytes.length_ofNat, Bytes.value_ofNat, Nat.mod_eq_of_lt fits] at taken
  have plain : uint width = do return (← bytes width).value := by
    rw [uint, if_neg (by omega)]
  rw [plain]
  exact taken

/-! ## Numbers in groups and texts -/

theorem takes_last_group (count index value : Nat) {n : Nat} (small : n < 128) :
    Takes (groups (count + 1) index value) [UInt8.ofNat n]
      ((value + n * 128 ^ index) % 2 ^ 32) := by
  have size : (UInt8.ofNat n).toNat = n := by
    rw [UInt8.toNat_ofNat']
    omega
  refine (takes_byte (UInt8.ofNat n)).last ?_
  rw [size, if_pos small, Nat.mod_eq_of_lt small]
  exact .pure _

/-- Groups are added to what was read before them. -/
theorem takes_groups (count index value : Nat) {n : Nat} (fits : n < 128 ^ (count + 1)) :
    Takes (groups (count + 1) index value) (Bytes.ofGroups count n)
      ((value + n * 128 ^ index) % 2 ^ 32) := by
  induction count generalizing index value n with
  | zero => exact takes_last_group 0 index value fits
  | succ count ih =>
    rw [Bytes.ofGroups]
    by_cases small : n < 128
    · rw [if_pos small]
      exact takes_last_group (count + 1) index value small
    · rw [if_neg small]
      have size : (UInt8.ofNat (128 + n % 128)).toNat = 128 + n % 128 := by
        rw [UInt8.toNat_ofNat']
        omega
      have rest := ih (index + 1) (value + n % 128 * 128 ^ index)
        (Nat.div_lt_of_lt_mul (by rwa [← Nat.pow_succ']))
      have total : value + n % 128 * 128 ^ index + n / 128 * 128 ^ (index + 1) =
          value + n * 128 ^ index := by
        rw [Nat.pow_succ', ← Nat.mul_assoc, Nat.add_assoc, ← Nat.add_mul, Nat.mod_add_div']
      rw [total] at rest
      refine (takes_byte (UInt8.ofNat (128 + n % 128))).bind ?_
      rw [size, if_neg (by omega), show (128 + n % 128) % 128 = n % 128 by omega]
      exact rest

theorem takes_int7 {n : Nat} (fits : n < 2 ^ 32) : Takes int7 (Bytes.int7 n) n := by
  have taken := takes_groups 4 0 0 (Nat.lt_of_lt_of_le fits (by decide : 2 ^ 32 ≤ 128 ^ 5))
  rwa [Nat.pow_zero, Nat.mul_one, Nat.zero_add, Nat.mod_eq_of_lt fits] at taken

theorem takes_text {s : String} {bs : Bytes} (stored : Bytes.sizedText s = .ok bs) :
    Takes text bs s := by
  rw [Bytes.sizedText] at stored
  split at stored
  next => cases stored
  next fits =>
    cases stored
    refine (takes_int7 (Nat.lt_of_not_le fits)).bind (.get fun c ↦ ?_)
    refine (takes_bytes (Text.Utf8.encode s)).last ?_
    rw [Text.Utf8.decode_encode]
    exact .pure s

end Cursor

end Disasm
