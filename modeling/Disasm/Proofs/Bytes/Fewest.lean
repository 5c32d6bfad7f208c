import Disasm.Proofs.Bytes.Groups

/-!
# Numbers in the fewest groups

A number is written in groups of seven bits until nothing of it is left.  So its last group is
not empty unless it is the only one, and no fewer groups make up the number.  A number of
thirty-two bits never takes more than five, which is the room that its writer has; and what
was written is read back wherever it stands, as is a text behind its length.
-/

namespace Disasm

namespace Bytes

variable {count value : Nat}

/-! ## How many groups there are -/

theorem length_ofGroups_pos (count value : Nat) : 1 ≤ (ofGroups count value).length := by
  cases count with
  | zero => exact Nat.le_refl 1
  | succ count =>
    rw [ofGroups]
    split
    · exact Nat.le_refl 1
    · exact Nat.le_add_left 1 _

theorem length_ofGroups_le (count value : Nat) : (ofGroups count value).length ≤ count + 1 := by
  induction count generalizing value with
  | zero => exact Nat.le_refl 1
  | succ count ih =>
    rw [ofGroups]
    split
    · exact Nat.le_add_left 1 (count + 1)
    · exact Nat.succ_le_succ (ih (value / 128))

/-- A number takes as many groups as it has digits to the base 128. -/
theorem length_ofGroups_le_of_lt {digits : Nat} (below : value < 128 ^ (digits + 1)) (count : Nat) :
    (ofGroups count value).length ≤ digits + 1 := by
  induction count generalizing value digits with
  | zero => exact Nat.le_add_left 1 digits
  | succ count ih =>
    rw [ofGroups]
    split
    · exact Nat.le_add_left 1 digits
    · next large =>
      -- A second group follows only a number of two digits.
      cases digits with
      | zero => exact absurd below large
      | succ digits =>
        rw [Nat.pow_succ'] at below
        exact Nat.succ_le_succ (ih (Nat.div_lt_of_lt_mul below))

/-- No fewer groups make up the number. -/
theorem length_ofGroups_le_of_groupSum {groups : Bytes} (some : groups ≠ [])
    (sum : value ≤ groupSum groups) (count : Nat) :
    (ofGroups count value).length ≤ groups.length := by
  have below : value < 128 ^ groups.length := Nat.lt_of_le_of_lt sum (groupSum_lt groups)
  have positive := List.length_pos_iff.2 some
  rw [← Nat.sub_add_cancel positive] at below ⊢
  exact length_ofGroups_le_of_lt below count

/-! ## What the groups are -/

theorem toNat_lastGroup (small : value < 128) : (UInt8.ofNat value).toNat = value := by
  rw [UInt8.toNat_ofNat']
  omega

theorem toNat_nextGroup (value : Nat) :
    (UInt8.ofNat (128 + value % 128)).toNat = 128 + value % 128 := by
  rw [UInt8.toNat_ofNat']
  omega

/-- Each group but the last announces another, and together they make up the number. -/
theorem exists_ofGroups (fits : value < 128 ^ (count + 1)) :
    ∃ front last, ofGroups count value = front ++ [last] ∧ (∀ b ∈ front, 128 ≤ b.toNat) ∧
      last.toNat < 128 ∧ groupSum (front ++ [last]) = value := by
  have alone {value : Nat} (small : value < 128) :
      groupSum ([] ++ [UInt8.ofNat value]) = value := by
    rw [groupSum_concat, groupSum_nil, toNat_lastGroup small]
    simp [Nat.mod_eq_of_lt small]
  induction count generalizing value with
  | zero => exact ⟨[], UInt8.ofNat value, rfl, nofun, by rwa [toNat_lastGroup fits], alone fits⟩
  | succ count ih =>
    rw [ofGroups]
    by_cases small : value < 128
    · rw [if_pos small]
      exact ⟨[], UInt8.ofNat value, rfl, nofun, by rwa [toNat_lastGroup small], alone small⟩
    · rw [if_neg small]
      rw [Nat.pow_succ'] at fits
      obtain ⟨front, last, eq, more, ends, sum⟩ := ih (Nat.div_lt_of_lt_mul fits)
      refine ⟨UInt8.ofNat (128 + value % 128) :: front, last, ?_, ?_, ends, ?_⟩
      · rw [eq]
        rfl
      · refine List.forall_mem_cons.2 ⟨?_, more⟩
        rw [toNat_nextGroup]
        exact Nat.le_add_right _ _
      · rw [List.cons_append, groupSum_cons, sum, toNat_nextGroup]
        omega

/-! ## Room for the groups -/

/-- Puts the groups of a number into `slots` from the place `index` on, until nothing is left
of the number: the slots and the place behind the last group, unless a place is missing. -/
def fillSlots (slots : Bytes) (index value : Nat) : Option (Bytes × Nat) :=
  if index < slots.length then
    if value / 128 = 0 then some (slots.set index (UInt8.ofNat (value % 128)), index + 1)
    else fillSlots (slots.set index (UInt8.ofNat (128 + value % 128))) (index + 1) (value / 128)
  else none
termination_by slots.length - index
decreasing_by
  rw [List.length_set]
  omega

theorem take_set_succ {slots : Bytes} {index : Nat} (inside : index < slots.length) (b : UInt8) :
    (slots.set index b).take (index + 1) = slots.take index ++ [b] := by
  rw [List.take_add_one, List.take_set_of_le (Nat.le_refl index),
    List.getElem?_set_self inside]
  rfl

/-- With as many places as the number has digits none is missing, and the groups are those of
the number. -/
theorem fillSlots_eq {slots : Bytes} {index : Nat} (fits : value < 128 ^ (count + 1))
    (room : index + count < slots.length) :
    ∃ slots', fillSlots slots index value =
        some (slots', index + (ofGroups count value).length) ∧
      slots'.take (index + (ofGroups count value).length) =
        slots.take index ++ ofGroups count value := by
  have alone {slots : Bytes} {index value : Nat} (inside : index < slots.length)
      (small : value < 128) : fillSlots slots index value =
        some (slots.set index (UInt8.ofNat value), index + 1) := by
    rw [fillSlots, if_pos inside, if_pos (Nat.div_eq_of_lt small), Nat.mod_eq_of_lt small]
  induction count generalizing slots index value with
  | zero =>
    have inside : index < slots.length := room
    exact ⟨_, alone inside fits, take_set_succ inside _⟩
  | succ count ih =>
    have inside : index < slots.length := Nat.lt_of_le_of_lt (Nat.le_add_right _ _) room
    rw [ofGroups]
    by_cases small : value < 128
    · rw [if_pos small]
      exact ⟨_, alone inside small, take_set_succ inside _⟩
    · rw [if_neg small]
      rw [Nat.pow_succ'] at fits
      have more : index + 1 + count <
          (slots.set index (UInt8.ofNat (128 + value % 128))).length := by
        rw [List.length_set]
        omega
      obtain ⟨slots', filled, front⟩ := ih (Nat.div_lt_of_lt_mul fits) more
      have left : ¬value / 128 = 0 := by omega
      have behind :
          index + (UInt8.ofNat (128 + value % 128) :: ofGroups count (value / 128)).length =
            index + 1 + (ofGroups count (value / 128)).length := by
        rw [List.length_cons, Nat.add_right_comm, Nat.add_assoc]
      rw [behind]
      refine ⟨slots', ?_, ?_⟩
      · rw [fillSlots, if_pos inside, if_neg left, filled]
      · rw [front, take_set_succ inside, List.append_assoc]
        rfl

/-! ## Texts behind their length -/

theorem exists_sizedText_iff {s : String} :
    (∃ bs, sizedText s = .ok bs) ↔ (Text.Utf8.encode s).length < 2 ^ 32 := by
  rw [sizedText]
  split
  · next long =>
    refine iff_of_false ?_ (Nat.not_lt_of_le long)
    rintro ⟨bs, stored⟩
    cases stored
  · next short => exact iff_of_true ⟨_, rfl⟩ (Nat.lt_of_not_le short)

theorem length_of_sizedText {s : String} {bs : Bytes} (stored : sizedText s = .ok bs) :
    bs.length < 2 ^ 32 + 5 := by
  have groups := length_ofGroups_le 4 (Text.Utf8.encode s).length
  have short := exists_sizedText_iff.1 ⟨bs, stored⟩
  rw [sizedText, if_neg (Nat.not_le_of_lt short)] at stored
  cases stored
  rw [List.length_append, int7]
  omega

end Bytes

namespace Cursor

/-! ## Reading back -/

/-- A number is read from no fewer bytes than it is written in. -/
theorem length_int7_le {c c' : Cursor} {n : Nat} (read : int7 c = .ok n c') :
    c.position + (Bytes.int7 n).length ≤ c'.position := by
  have grouped : Grouped (fun n ↦ some (n % 2 ^ 32)) c (int7 c) := grouped_int7 fun _ _ _ ↦ rfl
  rw [read] at grouped
  cases grouped with
  | number front last _ stand value =>
    cases value
    refine Nat.add_le_add_left ?_ c.position
    have some : front ++ [last] ≠ [] := List.concat_ne_nil last front
    have fewest := Bytes.length_ofGroups_le_of_groupSum some (Nat.mod_le _ (2 ^ 32)) 4
    rwa [List.length_append] at fewest

/-- What was written of a number is read back wherever it stands. -/
theorem int7_written {n : Nat} (fits : n < 2 ^ 32) (before behind : Bytes) (order : ByteOrder) :
    int7 { data := before ++ Bytes.int7 n ++ behind, order, position := before.length } =
      .ok n { data := before ++ Bytes.int7 n ++ behind, order,
              position := before.length + (Bytes.int7 n).length } := by
  have five : n < 128 ^ (4 + 1) := Nat.lt_of_lt_of_le fits (by decide)
  have few := Bytes.length_ofGroups_le 4 n
  obtain ⟨front, last, eq, more, ends, sum⟩ := Bytes.exists_ofGroups five
  rw [eq, List.length_append, List.length_singleton] at few
  have stand : Stand { data := before ++ Bytes.int7 n ++ behind, order, position := before.length }
      front last := by
    refine ⟨⟨behind, ?_⟩, more, ends, Nat.le_of_succ_le_succ few⟩
    change front ++ [last] ++ behind = (before ++ Bytes.int7 n ++ behind).drop before.length
    rw [List.append_assoc before, List.drop_left, Bytes.int7, eq]
  rw [int7_of_stand stand, sum, Nat.mod_eq_of_lt fits, shift, Bytes.int7, eq, List.length_append]
  rfl

/-- Numbers below `2 ^ 32` and texts of fewer bytes than that come back.  A number is read
where its groups stand, whatever is before and behind them; it has one to five groups, which
fit into the five places that they are written to, and it is neither made up of fewer groups
nor read from fewer.  A text is read back behind its length, at the start of the data and at
every other place that is an address. -/
theorem written_read_back (before behind : Bytes) (order : ByteOrder) :
    (∀ n < 2 ^ 32,
      int7 { data := before ++ Bytes.int7 n ++ behind, order, position := before.length } =
        .ok n { data := before ++ Bytes.int7 n ++ behind, order,
                position := before.length + (Bytes.int7 n).length } ∧
      1 ≤ (Bytes.int7 n).length ∧ (Bytes.int7 n).length ≤ 5 ∧
      (∃ slots, Bytes.fillSlots (List.replicate 5 0) 0 n = some (slots, (Bytes.int7 n).length) ∧
        slots.take (Bytes.int7 n).length = Bytes.int7 n) ∧
      (∀ groups ≠ [], Bytes.groupSum groups = n → (Bytes.int7 n).length ≤ groups.length) ∧
      ∀ c c', int7 c = .ok n c' → c.position + (Bytes.int7 n).length ≤ c'.position) ∧
    ∀ s : String, (Text.Utf8.encode s).length < 2 ^ 32 → ∃ bs, Bytes.sizedText s = .ok bs ∧
      text { data := bs ++ behind, order } =
        .ok s { data := bs ++ behind, order, position := bs.length } ∧
      (before.length + bs.length < addressBound →
        text { data := before ++ bs ++ behind, order, position := before.length } =
          .ok s { data := before ++ bs ++ behind, order,
                  position := before.length + bs.length }) := by
  constructor
  · intro n fits
    have five : n < 128 ^ (4 + 1) := Nat.lt_of_lt_of_le fits (by decide)
    have room : 0 + 4 < (List.replicate 5 (0 : UInt8)).length := by decide
    obtain ⟨slots, filled, front⟩ := Bytes.fillSlots_eq five room
    rw [Nat.zero_add] at filled front
    refine ⟨int7_written fits before behind order, Bytes.length_ofGroups_pos 4 n,
      Bytes.length_ofGroups_le 4 n, ⟨slots, filled, front⟩, ?_, fun _ _ ↦ length_int7_le⟩
    rintro groups some rfl
    exact Bytes.length_ofGroups_le_of_groupSum some (Nat.le_refl _) 4
  · intro s short
    obtain ⟨bs, stored⟩ := Bytes.exists_sizedText_iff.2 short
    have size : bs.length < addressBound :=
      Nat.lt_trans (Bytes.length_of_sizedText stored) (by decide)
    have taken := takes_text stored
    have start := taken [] behind order (by rwa [List.length_nil, Nat.zero_add])
    rw [List.nil_append, List.length_nil, Nat.zero_add] at start
    exact ⟨bs, stored, start, taken before behind order⟩

/-- The greatest number takes all five groups, and a text may stand behind it. -/
theorem written_read_back_greatest :
    (2 ^ 32 - 1 < 2 ^ 32 ∧ Bytes.int7 (2 ^ 32 - 1) = [0xFF, 0xFF, 0xFF, 0xFF, 0x0F]) ∧
      int7 { data := [7] ++ Bytes.int7 (2 ^ 32 - 1) ++ [2, 0xC3, 0xA9], position := 1 } =
        .ok (2 ^ 32 - 1)
          { data := [7] ++ Bytes.int7 (2 ^ 32 - 1) ++ [2, 0xC3, 0xA9], position := 6 } ∧
      (Text.Utf8.encode "é").length < 2 ^ 32 ∧
      ∃ bs, Bytes.sizedText "é" = .ok bs ∧
        text { data := bs ++ [7] } = .ok "é" { data := bs ++ [7], position := bs.length } := by
  obtain ⟨numbers, -⟩ := written_read_back [7] [2, 0xC3, 0xA9] .little
  obtain ⟨-, texts⟩ := written_read_back [] [7] .little
  have short : (Text.Utf8.encode "é").length < 2 ^ 32 := by decide
  obtain ⟨bs, stored, read, -⟩ := texts "é" short
  exact ⟨⟨by decide, by decide⟩, (numbers (2 ^ 32 - 1) (by decide)).1, short, bs, stored, read⟩

end Cursor

end Disasm
