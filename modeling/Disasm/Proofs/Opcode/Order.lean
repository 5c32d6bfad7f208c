import Mathlib
import Disasm.Opcode.Basic

/-!
# The order of opcodes

The order by length and then byte by byte is a linear one.  It is put together
from orders of the library, and so are the proofs of its laws.
-/

namespace Disasm

namespace Bytes

theorem lexicographic_eq_compareLex (a b : Bytes) :
    a.lexicographic b = List.compareLex compare a b := by
  induction a generalizing b with
  | nil => cases b <;> rfl
  | cons x a ih =>
    cases b with
    | nil => rfl
    | cons y b => rw [lexicographic, List.compareLex_cons_cons, ih]

theorem shortlex_eq_compareLex :
    shortlex = compareLex (compareOn List.length) (List.compareLex compare) := by
  funext a b
  rw [shortlex, lexicographic_eq_compareLex]
  rfl

instance : Std.TransCmp shortlex :=
  shortlex_eq_compareLex ▸ inferInstance

instance : Std.LawfulEqCmp shortlex where
  compare_self := Std.ReflCmp.compare_self
  eq_of_compare {a b} h := by
    rw [shortlex, Ordering.then_eq_eq, lexicographic_eq_compareLex] at h
    exact Std.LawfulEqCmp.eq_of_compare h.2

/-- A greater list is not shorter. -/
theorem length_le_of_shortlex {a b : Bytes} (h : a.shortlex b = .lt) : a.length ≤ b.length := by
  rw [shortlex, Ordering.then_eq_lt] at h
  rcases h with shorter | ⟨same, _⟩
  · exact Nat.le_of_lt (Nat.compare_eq_lt.1 shorter)
  · exact Nat.le_of_eq (Nat.compare_eq_eq.1 same)

end Bytes

namespace Opcode

theorem compare_eq_shortlex (a b : Opcode) : compare a b = a.bytes.shortlex b.bytes := rfl

instance : Std.TransOrd Opcode where
  eq_swap {a b} := by
    rw [compare_eq_shortlex, compare_eq_shortlex]
    exact Std.OrientedCmp.eq_swap
  isLE_trans {a b c} := by
    rw [compare_eq_shortlex, compare_eq_shortlex, compare_eq_shortlex]
    exact Std.TransCmp.isLE_trans

theorem ext_bytes {a b : Opcode} (h : a.bytes = b.bytes) : a = b := by
  cases a
  cases b
  cases h
  rfl

instance : Std.LawfulEqOrd Opcode where
  compare_self := Std.ReflCmp.compare_self
  eq_of_compare {a b} h := by
    rw [compare_eq_shortlex] at h
    exact ext_bytes (Std.LawfulEqCmp.eq_of_compare h)

theorem length_le_of_lt {a b : Opcode} (h : compare a b = .lt) : a.length ≤ b.length :=
  Bytes.length_le_of_shortlex h

end Opcode

end Disasm
