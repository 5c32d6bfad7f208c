import Mathlib.Logic.Function.Defs
import Disasm.Text.Hex

/-!
# Reading hexadecimal numbers back

The digits of a number in base sixteen, in capitals and filled with zeros, can be
read back; numbers with the same text are the same.  A byte has two digits.  The words
that are read as a byte are said without the reader: `Pair` and `Signed`.
-/

namespace Disasm.Text.Hex

/-- The number that digits stand for. -/
def number (cs : List Char) : Nat := cs.foldl (fun n c ↦ 16 * n + (value? c).getD 0) 0

theorem number_concat (cs : List Char) (c : Char) :
    number (cs ++ [c]) = 16 * number cs + (value? c).getD 0 := by
  simp [number]

theorem number_zeros (count : Nat) (cs : List Char) :
    number (List.replicate count '0' ++ cs) = number cs := by
  have zeros : (List.replicate count '0').foldl (fun n c ↦ 16 * n + (value? c).getD 0) 0 = 0 := by
    induction count with
    | zero => rfl
    | succ count ih =>
      rw [List.replicate_succ, List.foldl_cons]
      exact ih
  rw [number, List.foldl_append, zeros, number]

theorem value?_digitChar {d : Nat} (small : d < 16) :
    value? (Nat.digitChar d).toUpper = some d :=
  (by decide : ∀ d : Fin 16, value? (Nat.digitChar d).toUpper = some d.val) ⟨d, small⟩

theorem number_toDigits (n : Nat) : number ((Nat.toDigits 16 n).map Char.toUpper) = n := by
  induction n using Nat.strongRecOn with
  | ind n ih =>
    rw [Nat.toDigits_eq_if (by decide)]
    split
    · next small => simp [number, value?_digitChar small]
    · next large =>
      have last : value? (Nat.digitChar (n % 16)).toUpper = some (n % 16) :=
        value?_digitChar (Nat.mod_lt n (by decide))
      rw [List.map_append, List.map_singleton, number_concat, ih (n / 16) (by omega), last]
      exact Nat.div_add_mod n 16

theorem number_upper (width n : Nat) : number (upper width n).toList = n := by
  have zero : Char.toUpper '0' = '0' := rfl
  rw [upper, String.toList_ofList, digits, List.map_append, List.map_replicate, zero, number_zeros,
    number_toDigits]

theorem upper_injective (width : Nat) : Function.Injective (upper width) := by
  intro m n same
  rw [← number_upper width m, same, number_upper]

/-! ## Bytes -/

theorem digits_two {n : Nat} (small : n < 256) :
    digits 2 n = [Nat.digitChar (n / 16), Nat.digitChar (n % 16)] := by
  rw [digits, Nat.toDigits_eq_if (by decide)]
  split
  · next one =>
    rw [Nat.div_eq_of_lt one, Nat.mod_eq_of_lt one]
    rfl
  · rw [Nat.toDigits_of_lt_base (by omega : n / 16 < 16)]
    rfl

theorem toList_byte (b : UInt8) :
    (byte b).toList =
      [(Nat.digitChar (b.toNat / 16)).toUpper, (Nat.digitChar (b.toNat % 16)).toUpper] := by
  rw [byte, upper, String.toList_ofList, digits_two b.toNat_lt]
  rfl

theorem pair?_byte (b : UInt8) : pair? (byte b).toList = some b := by
  have high : b.toNat / 16 < 16 := Nat.div_lt_of_lt_mul b.toNat_lt
  have low : b.toNat % 16 < 16 := Nat.mod_lt _ (by decide)
  have unsigned : (Nat.digitChar (b.toNat / 16)).toUpper ≠ '+' := by
    intro plus
    have value := value?_digitChar high
    rw [plus] at value
    cases value
  rw [toList_byte, pair?]
  · rw [value?_digitChar high, value?_digitChar low]
    change some (UInt8.ofNat (16 * (b.toNat / 16) + b.toNat % 16)) = some b
    rw [Nat.div_add_mod, UInt8.ofNat_toNat]
  · simpa using unsigned

/-! ## Words -/

/-- The character is the digit `d` in base sixteen, small or capital. -/
def Digit (c : Char) (d : Nat) : Prop :=
  d < 16 ∧ (c = Nat.digitChar d ∨ c = (Nat.digitChar d).toUpper)

instance (c : Char) (d : Nat) : Decidable (Digit c d) := inferInstanceAs (Decidable (_ ∧ _))

theorem value?_eq_some_iff {c : Char} {d : Nat} : value? c = some d ↔ Digit c d := by
  constructor
  · intro read
    have ascii : c.toNat < 128 := by
      have below {top : Char} (le : c ≤ top) (low : top.toNat < 128) : c.toNat < 128 :=
        Nat.lt_of_le_of_lt le low
      rw [value?] at read
      split at read
      · next range => exact below range.2 (by decide)
      · split at read
        · next range => exact below range.2 (by decide)
        · split at read
          · next range => exact below range.2 (by decide)
          · cases read
    have spelled : ∀ n : Fin 128, ∀ d ∈ value? (Char.ofNat n), Digit (Char.ofNat n) d := by
      decide +kernel
    have known := spelled ⟨c.toNat, ascii⟩
    rw [c.ofNat_toNat] at known
    exact known d read
  · rintro ⟨small, rfl | rfl⟩
    · exact (by decide : ∀ d : Fin 16, value? (Nat.digitChar d) = some d.val) ⟨d, small⟩
    · exact value?_digitChar small

/-- The word is two digits, and the byte is their value. -/
inductive Pair : List Char → UInt8 → Prop
  | intro {high low : Char} {h l : Nat} {b : UInt8} (first : Digit high h) (second : Digit low l)
      (value : b.toNat = 16 * h + l) : Pair [high, low] b

/-- The word is a plus sign and one digit, and the byte is its value. -/
inductive Signed : List Char → UInt8 → Prop
  | intro {c : Char} {b : UInt8} (digit : Digit c b.toNat) : Signed ['+', c] b

theorem not_digit_plus (d : Nat) : ¬Digit '+' d := by
  rw [← value?_eq_some_iff]
  exact nofun

theorem Pair.not_signed {word : List Char} {b b' : UInt8} (pair : Pair word b) :
    ¬Signed word b' := by
  rintro ⟨digit⟩
  obtain ⟨first, -, -⟩ := pair
  exact not_digit_plus _ first

theorem toNat_ofNat_pair {h l : Nat} (high : h < 16) (low : l < 16) :
    (UInt8.ofNat (16 * h + l)).toNat = 16 * h + l := by
  rw [UInt8.toNat_ofNat']
  omega

theorem pair?_eq_some_iff {word : List Char} {b : UInt8} :
    pair? word = some b ↔ Pair word b ∨ Signed word b := by
  fun_cases pair? word with
  | case1 low =>
    have signed : (value? low).map UInt8.ofNat = some b ↔ Signed ['+', low] b := by
      rw [Option.map_eq_some_iff]
      constructor
      · rintro ⟨d, read, rfl⟩
        have digit := value?_eq_some_iff.1 read
        have small : (UInt8.ofNat d).toNat = d := by
          have := digit.1
          rw [UInt8.toNat_ofNat']
          omega
        exact ⟨by rwa [small]⟩
      · rintro ⟨digit⟩
        exact ⟨b.toNat, value?_eq_some_iff.2 digit, UInt8.ofNat_toNat⟩
    rw [signed]
    refine (or_iff_right fun pair ↦ ?_).symm
    obtain ⟨first, -, -⟩ := pair
    exact not_digit_plus _ first
  | case2 high low unsigned =>
    have pair : (do
        let h ← value? high
        let l ← value? low
        some (UInt8.ofNat (16 * h + l))) = some b ↔ Pair [high, low] b := by
      simp only [Option.bind_eq_bind, Option.bind_eq_some_iff, value?_eq_some_iff,
        Option.some.injEq]
      constructor
      · rintro ⟨h, first, l, second, rfl⟩
        exact ⟨first, second, toNat_ofNat_pair first.1 second.1⟩
      · rintro ⟨first, second, value⟩
        exact ⟨_, first, _, second, by rw [← value, UInt8.ofNat_toNat]⟩
    rw [pair]
    refine (or_iff_left fun signed ↦ ?_).symm
    cases signed
    exact unsigned rfl
  | case3 word single two =>
    refine iff_of_false nofun ?_
    rintro (pair | signed)
    · cases pair
      exact two _ _ rfl
    · cases signed
      exact single _ rfl

end Disasm.Text.Hex
