import Disasm.Proofs.Bytes.Shortage

/-!
# Numbers in groups of seven bits

A number is read from groups of seven bits up to the first byte that announces no other.
`Grouped` says what reading comes to, for any notion of what becomes of the number that
the groups make up; the reader, which keeps thirty-two bits of it, is held against the one
that refuses a number of more bits.
-/

namespace Disasm

namespace Bytes

/-- The number that groups of seven bits make up, lowest group first. -/
def groupSum (bs : Bytes) : Nat := ∑ i : Fin bs.length, (bs.get i).toNat % 128 * 128 ^ i.val

theorem groupSum_nil : groupSum [] = 0 := rfl

theorem groupSum_cons (b : UInt8) (bs : Bytes) :
    groupSum (b :: bs) = b.toNat % 128 + 128 * groupSum bs := by
  have shifted (i : Fin bs.length) : (bs.get i).toNat % 128 * 128 ^ (i.val + 1) =
      128 * ((bs.get i).toNat % 128 * 128 ^ i.val) := by
    rw [Nat.pow_succ, ← Nat.mul_assoc, Nat.mul_comm 128]
  rw [groupSum, groupSum, Finset.mul_sum]
  change ∑ i : Fin (bs.length + 1), _ = _
  rw [Fin.sum_univ_succ]
  congr 1
  · exact Nat.mul_one _
  · exact Finset.sum_congr rfl fun i _ ↦ shifted i

theorem groupSum_lt (bs : Bytes) : groupSum bs < 128 ^ bs.length := by
  induction bs with
  | nil => exact Nat.one_pos
  | cons b bs ih =>
    rw [groupSum_cons, List.length_cons, Nat.pow_succ']
    omega

theorem groupSum_concat (front : Bytes) (last : UInt8) :
    groupSum (front ++ [last]) = groupSum front + last.toNat % 128 * 128 ^ front.length := by
  induction front with
  | nil => simp [groupSum_cons, groupSum_nil]
  | cons b front ih =>
    rw [List.cons_append, groupSum_cons, groupSum_cons, ih, List.length_cons, Nat.pow_succ']
    ring

/-- A number of at most five groups has more than thirty-two bits if there are five and the
fifth has more than four. -/
theorem le_groupSum_iff {front : Bytes} {last : UInt8} (few : front.length ≤ 4)
    (ends : last.toNat < 128) :
    2 ^ 32 ≤ groupSum (front ++ [last]) ↔ front.length = 4 ∧ 16 ≤ last.toNat := by
  have below := groupSum_lt front
  rw [groupSum_concat, Nat.mod_eq_of_lt ends]
  generalize front.length = k at few below
  obtain less | rfl : k ≤ 3 ∨ k = 4 := by omega
  · have power : 128 ^ k ≤ 128 ^ 3 := Nat.pow_le_pow_right (by decide) less
    have product : last.toNat * 128 ^ k ≤ 127 * 128 ^ 3 := Nat.mul_le_mul (by omega) power
    omega
  · omega

end Bytes

namespace Cursor

/-! ## Bytes at the cursor -/

/-- The bytes from the cursor on. -/
def ahead (c : Cursor) : Bytes := c.data.drop c.position

/-- The cursor `count` bytes on. -/
def shift (c : Cursor) (count : Nat) : Cursor := { c with position := c.position + count }

theorem ahead_shift (c : Cursor) (count : Nat) : (c.shift count).ahead = c.ahead.drop count :=
  List.drop_drop.symm

theorem shift_shift (c : Cursor) (m n : Nat) : (c.shift m).shift n = c.shift (m + n) := by
  simp only [shift, Nat.add_assoc]

theorem byte_eq_ahead (c : Cursor) :
    byte c = match c.ahead with
      | [] => .error .outOfBounds c
      | b :: _ => .ok b (c.shift 1) := by
  have here : c.data[c.position]? = c.ahead.head? := by
    rw [ahead, List.head?_drop]
  rw [byte_eq, here]
  cases c.ahead with
  | nil => rfl
  | cons b rest => rfl

variable {c : Cursor} {b last : UInt8} {front rest : Bytes} {count : Nat}

theorem groups_of_nil (none : c.ahead = []) (count index value : Nat) :
    groups (count + 1) index value c = .error .outOfBounds c := by
  refine Action.bind_of_error ?_
  rw [byte_eq_ahead, none]

theorem groups_of_last (first : c.ahead = last :: rest) (ends : last.toNat < 128)
    (count index value : Nat) :
    groups (count + 1) index value c =
      .ok ((value + last.toNat % 128 * 128 ^ index) % 2 ^ 32) (c.shift 1) := by
  have read : byte c = .ok last (c.shift 1) := by rw [byte_eq_ahead, first]
  refine (Action.bind_of_ok read).trans ?_
  rw [if_pos ends]
  rfl

theorem groups_of_more (first : c.ahead = b :: rest) (more : 128 ≤ b.toNat)
    (count index value : Nat) :
    groups (count + 1) index value c =
      groups count (index + 1) (value + b.toNat % 128 * 128 ^ index) (c.shift 1) := by
  have read : byte c = .ok b (c.shift 1) := by rw [byte_eq_ahead, first]
  refine (Action.bind_of_ok read).trans ?_
  rw [if_neg (Nat.not_lt_of_le more)]

/-- Groups that announce another are added up. -/
theorem groups_of_front (there : c.ahead = front ++ rest) (more : ∀ b ∈ front, 128 ≤ b.toNat)
    (count index value : Nat) :
    groups (front.length + count) index value c =
      groups count (index + front.length) (value + Bytes.groupSum front * 128 ^ index)
        (c.shift front.length) := by
  induction front generalizing c index value with
  | nil => simp [Bytes.groupSum_nil, shift]
  | cons b front ih =>
    obtain ⟨first, later⟩ := List.forall_mem_cons.1 more
    have there' : (c.shift 1).ahead = front ++ rest := by rw [ahead_shift, there]; rfl
    have sum : value + b.toNat % 128 * 128 ^ index + Bytes.groupSum front * 128 ^ (index + 1) =
        value + Bytes.groupSum (b :: front) * 128 ^ index := by
      rw [Bytes.groupSum_cons, Nat.pow_succ]
      ring
    rw [List.length_cons, Nat.add_right_comm, groups_of_more there first, ih there' later,
      shift_shift, sum]
    simp only [Nat.add_comm 1, Nat.add_assoc]

/-! ## What reading comes to -/

/-- At most five groups stand at the cursor: `front`, which announce another each, and
`last`, which does not. -/
structure Stand (c : Cursor) (front : Bytes) (last : UInt8) : Prop where
  begins : front ++ [last] <+: c.ahead
  more : ∀ b ∈ front, 128 ≤ b.toNat
  ends : last.toNat < 128
  few : front.length ≤ 4

/-- What reading a number comes to, where `kept` is what becomes of the exact number: this,
a fault of the data if there is none or five groups announce another, or a lack of bytes if
the data end before that. -/
inductive Grouped (kept : Nat → Option Nat) (c : Cursor) : EStateM.Result Error Cursor Nat → Prop
  | number (front : Bytes) (last : UInt8) (n : Nat) (stand : c.Stand front last)
      (value : kept (Bytes.groupSum (front ++ [last])) = some n) :
      Grouped kept c (.ok n (c.shift (front.length + 1)))
  | refused (front : Bytes) (last : UInt8) (e : Error) (c' : Cursor) (stand : c.Stand front last)
      (value : kept (Bytes.groupSum (front ++ [last])) = none) (fault : e.category = .malformed) :
      Grouped kept c (.error e c')
  | endless (front : Bytes) (e : Error) (c' : Cursor) (begins : front <+: c.ahead)
      (more : ∀ b ∈ front, 128 ≤ b.toNat) (five : front.length = 5)
      (fault : e.category = .malformed) : Grouped kept c (.error e c')
  | short (c' : Cursor) (more : ∀ b ∈ c.ahead, 128 ≤ b.toNat) (few : c.ahead.length < 5) :
      Grouped kept c (.error .outOfBounds c')

theorem int7_of_stand (stand : c.Stand front last) :
    int7 c = .ok (Bytes.groupSum (front ++ [last]) % 2 ^ 32) (c.shift (front.length + 1)) := by
  obtain ⟨⟨rest, there⟩, more, ends, few⟩ := stand
  rw [List.append_assoc] at there
  have next : (c.shift front.length).ahead = last :: rest := by
    rw [ahead_shift, ← there, List.drop_left]
    rfl
  have count : 5 = front.length + (4 - front.length + 1) := by omega
  rw [int7, count, groups_of_front there.symm more, groups_of_last next ends, shift_shift,
    Bytes.groupSum_concat]
  simp

theorem int7_of_endless (begins : front <+: c.ahead) (more : ∀ b ∈ front, 128 ≤ b.toNat)
    (five : front.length = 5) : int7 c = .error .groupOverflow (c.shift 5) := by
  obtain ⟨rest, there⟩ := begins
  have read := groups_of_front there.symm more 0 0 0
  rw [five] at read
  exact read

theorem int7_of_short (more : ∀ b ∈ c.ahead, 128 ≤ b.toNat) (few : c.ahead.length < 5) :
    int7 c = .error .outOfBounds (c.shift c.ahead.length) := by
  have there : c.ahead = c.ahead ++ [] := (List.append_nil _).symm
  have none : (c.shift c.ahead.length).ahead = [] := by rw [ahead_shift, List.drop_length]
  have count : 5 = c.ahead.length + (4 - c.ahead.length + 1) := by omega
  rw [int7, count, groups_of_front there more, groups_of_nil none]

/-- Whether a byte announces another group. -/
def announces (b : UInt8) : Bool := 128 ≤ b.toNat

/-- One of three things stands at a cursor. -/
theorem exists_stand (c : Cursor) :
    (∃ front last, c.Stand front last) ∨
      (∃ front, front <+: c.ahead ∧ (∀ b ∈ front, 128 ≤ b.toNat) ∧ front.length = 5) ∨
      ((∀ b ∈ c.ahead, 128 ≤ b.toNat) ∧ c.ahead.length < 5) := by
  have cut := List.takeWhile_append_dropWhile (p := announces) (l := c.ahead)
  have more : ∀ b ∈ c.ahead.takeWhile announces, 128 ≤ b.toNat := fun b member ↦
    of_decide_eq_true (List.mem_takeWhile_imp (p := announces) member)
  have stops := List.head?_dropWhile_not announces c.ahead
  generalize c.ahead.takeWhile announces = front at cut more
  generalize c.ahead.dropWhile announces = rest at cut stops
  by_cases long : 5 ≤ front.length
  · refine .inr (.inl ⟨front.take 5, ?_, fun b member ↦ more b (List.mem_of_mem_take member), ?_⟩)
    · exact (List.take_prefix 5 front).trans ⟨rest, cut⟩
    · exact List.length_take_of_le long
  · cases rest with
    | nil =>
      rw [List.append_nil] at cut
      exact .inr (.inr (cut ▸ ⟨more, Nat.lt_of_not_le long⟩))
    | cons last rest =>
      have ends : last.toNat < 128 := by simpa [announces] using stops
      refine .inl ⟨front, last, ⟨rest, ?_⟩, more, ends, by omega⟩
      rw [List.append_assoc]
      exact cut

/-- The reader does as `kept` says if this is to keep the lowest thirty-two bits of every
number at the cursor. -/
theorem grouped_int7 {kept : Nat → Option Nat} (low : ∀ front last, c.Stand front last →
      kept (Bytes.groupSum (front ++ [last])) =
        some (Bytes.groupSum (front ++ [last]) % 2 ^ 32)) :
    Grouped kept c (int7 c) := by
  obtain ⟨front, last, stand⟩ | ⟨front, begins, more, five⟩ | ⟨more, few⟩ := c.exists_stand
  · rw [int7_of_stand stand]
    exact .number front last _ stand (low front last stand)
  · rw [int7_of_endless begins more five]
    exact .endless front _ _ begins more five rfl
  · rw [int7_of_short more few]
    exact .short _ more few

theorem Stand.unique {front' : Bytes} {last' : UInt8} (stand : c.Stand front last)
    (stand' : c.Stand front' last') : front = front' ∧ last = last' := by
  have first {front : Bytes} {last : UInt8} (stand : c.Stand front last) :
      front = c.ahead.takeWhile announces := by
    obtain ⟨rest, there⟩ := stand.begins
    have stops : ¬announces last = true := by simp [announces, stand.ends]
    rw [← there, List.append_assoc, List.takeWhile_append_of_pos, List.singleton_append,
      List.takeWhile_cons_of_neg stops, List.append_nil]
    exact fun b member ↦ decide_eq_true (stand.more b member)
  have fronts : front = front' := (first stand).trans (first stand').symm
  subst fronts
  have same : front ++ [last] = front ++ [last'] :=
    (List.prefix_of_prefix_length_le stand.begins stand'.begins (by simp)).eq_of_length (by simp)
  exact ⟨rfl, List.singleton_inj.1 (List.append_cancel_left same)⟩

/-- What becomes of a number that must have at most thirty-two bits. -/
def checked (n : Nat) : Option Nat := if n < 2 ^ 32 then some n else none

/-- Such a number is not given where the reader cuts one off. -/
theorem Grouped.lt_of_stand (grouped : Grouped checked c (int7 c)) (stand : c.Stand front last) :
    Bytes.groupSum (front ++ [last]) < 2 ^ 32 := by
  generalize read : int7 c = r at grouped
  cases grouped with
  | number front' last' n stand' value =>
    obtain ⟨rfl, rfl⟩ := stand.unique stand'
    by_contra large
    rw [checked, if_neg large] at value
    cases value
  | refused => cases (int7_of_stand stand).symm.trans read
  | endless => cases (int7_of_stand stand).symm.trans read
  | short => cases (int7_of_stand stand).symm.trans read

/-- Numbers in groups of seven bits.  The reader gives the number that at most five groups
make up, cut off to thirty-two bits; five groups that announce another are a fault, and an
end of the data before that is a lack of bytes.  The number is exact, or refused, if no
fifth group of more than four bits stands at the cursor, and in no other case. -/
theorem int7_grouped (c : Cursor) :
    Grouped (fun n ↦ some (n % 2 ^ 32)) c (int7 c) ∧
      (Grouped checked c (int7 c) ↔
        ∀ front last, c.Stand front last → front.length = 4 → last.toNat < 16) := by
  refine ⟨grouped_int7 fun _ _ _ ↦ rfl, fun grouped front last stand four ↦ ?_, fun small ↦ ?_⟩
  · have fits := Nat.not_le_of_lt (grouped.lt_of_stand stand)
    rw [Bytes.le_groupSum_iff stand.few stand.ends, not_and] at fits
    exact Nat.lt_of_not_le (fits four)
  · refine grouped_int7 fun front last stand ↦ ?_
    have fits : Bytes.groupSum (front ++ [last]) < 2 ^ 32 := by
      refine Nat.lt_of_not_le fun large ↦ ?_
      obtain ⟨four, above⟩ := (Bytes.le_groupSum_iff stand.few stand.ends).1 large
      exact Nat.not_lt_of_le above (small front last stand four)
    rw [checked, if_pos fits, Nat.mod_eq_of_lt fits]

/-- Five groups behind another byte: the number fits, with a fifth group of four bits. -/
theorem int7_grouped_of_five :
    let c : Cursor := { data := [7, 0xFF, 0xFF, 0xFF, 0xFF, 0x0F], position := 1 }
    c.Stand [0xFF, 0xFF, 0xFF, 0xFF] 0x0F ∧ Grouped checked c (int7 c) ∧
      int7 c = .ok (2 ^ 32 - 1) { c with position := 6 } := by
  intro c
  have stand : c.Stand [0xFF, 0xFF, 0xFF, 0xFF] 0x0F :=
    ⟨List.prefix_refl _, by simp, by decide, by decide⟩
  refine ⟨stand, (int7_grouped c).2.2 fun front last stand' _ ↦ ?_, by cbv⟩
  obtain ⟨rfl, rfl⟩ := stand.unique stand'
  decide

/-- Five groups whose number has a thirty-third bit are read as zero. -/
theorem int7_loses_bit :
    let c : Cursor := { data := [0x80, 0x80, 0x80, 0x80, 0x10] }
    c.Stand [0x80, 0x80, 0x80, 0x80] 0x10 ∧
      Bytes.groupSum ([0x80, 0x80, 0x80, 0x80] ++ [0x10]) = 2 ^ 32 ∧
      int7 c = .ok 0 { c with position := 5 } ∧ ¬Grouped checked c (int7 c) := by
  intro c
  have stand : c.Stand [0x80, 0x80, 0x80, 0x80] 0x10 :=
    ⟨List.prefix_refl _, by simp, by decide, by decide⟩
  have sum : Bytes.groupSum ([0x80, 0x80, 0x80, 0x80] ++ [0x10]) = 2 ^ 32 := by decide
  exact ⟨stand, sum, by cbv, fun grouped ↦ Nat.lt_irrefl _ (sum ▸ grouped.lt_of_stand stand)⟩

end Cursor

end Disasm
