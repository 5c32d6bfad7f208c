import Mathlib
import Disasm.Bytes.Source

/-!
# What a pull delivers

A pull hands over a beginning of the data that are left, never more than was
asked for and never more than there is room for.  Where it ends depends on the
plan: a source is *steady* if none of its reads comes back empty before the
data are used up, however little the reads before it were asked for.  Of a
steady source one can tell beforehand which bytes it will give, and a pull that
comes to an end has given all of them.
-/

namespace Disasm.Source

/-! ## Amounts -/

theorem within_le (room : Option Nat) (n : Nat) : within room n ≤ n := by
  cases room with
  | none => exact Nat.le_refl n
  | some r => exact Nat.min_le_left n r

theorem within_sub (room : Option Nat) (n k : Nat) :
    within (room.map (· - k)) (n - k) = within room n - k := by
  cases room with
  | none => rfl
  | some r => simp only [within, Option.map_some]; omega

/-- The part of the data that the room allows to read. -/
def visible (room : Option Nat) (data : Bytes) : Bytes :=
  match room with
  | none => data
  | some r => data.take r

theorem visible_isPrefix (room : Option Nat) (data : Bytes) : visible room data <+: data := by
  cases room with
  | none => exact List.prefix_rfl
  | some r => exact List.take_prefix r data

/-- What was read and what can still be read make up what could be read. -/
theorem visible_append {room : Option Nat} {taken rest : Bytes}
    (h : ∀ r, room = some r → taken.length ≤ r) :
    visible room (taken ++ rest) = taken ++ visible (room.map (· - taken.length)) rest := by
  cases room with
  | none => rfl
  | some r =>
    simp only [visible, Option.map_some, List.take_append, List.take_of_length_le (h r rfl)]

/-! ## Every plan -/

/-- One read delivers no more than the room allows. -/
theorem length_read_le_within (n missing : Nat) (room : Option Nat) (data : Bytes) :
    (data.take (min n (min (within room missing) readSize))).length ≤ within room missing :=
  Nat.le_trans (List.length_take_le _ _)
    (Nat.le_trans (Nat.min_le_right _ _) (Nat.min_le_left _ _))

theorem length_taken_le_within (plan : List PlannedRead) (missing : Nat) (room : Option Nat)
    (data : Bytes) : (pull plan missing room data).taken.length ≤ within room missing := by
  fun_induction pull plan missing room data with
  | case1 missing room data count taken =>
    exact List.length_take_le _ _
  | case2 | case3 | case5 | case6 => exact Nat.zero_le _
  | case4 missing room data plan _ _ ih => exact ih
  | case7 plan missing room data _ _ n count _ got next ih =>
    have first : got ≤ within room missing := length_read_le_within n missing room data
    have later : next.taken.length ≤ within room missing - got := within_sub .. ▸ ih
    rw [List.length_append]
    change got + next.taken.length ≤ _
    omega

theorem length_taken_le_room (plan : List PlannedRead) (missing : Nat) (data : Bytes) {room : Nat} :
    (pull plan missing (some room) data).taken.length ≤ room :=
  Nat.le_trans (length_taken_le_within plan missing (some room) data) (Nat.min_le_right _ _)

/-- A pull that has enough has all that was asked for. -/
theorem length_taken_of_enough {plan : List PlannedRead} {missing : Nat} {room : Option Nat}
    {data : Bytes} (h : (pull plan missing room data).ending = .enough) :
    (pull plan missing room data).taken.length = missing := by
  fun_induction pull plan missing room data with
  | case1 missing room data count taken =>
    have upper : taken.length ≤ missing :=
      Nat.le_trans (List.length_take_le _ _) (within_le room missing)
    split at h
    · cases h
    · exact Nat.le_antisymm upper (Nat.le_of_not_lt ‹_›)
  | case2 => rfl
  | case3 | case5 | case6 => cases h
  | case4 missing room data plan _ _ ih => exact ih h
  | case7 plan missing room data _ _ n count _ got next ih =>
    have first : got ≤ within room missing := length_read_le_within n missing room data
    have := within_le room missing
    have later : next.taken.length = missing - got := ih h
    rw [List.length_append]
    change got + next.taken.length = _
    omega

/-- Reads are planned in order, and a pull uses up a beginning of the plan. -/
theorem plan_isSuffix (plan : List PlannedRead) (missing : Nat) (room : Option Nat)
    (data : Bytes) : (pull plan missing room data).plan <:+ plan := by
  fun_induction pull plan missing room data with
  | case1 | case2 | case3 => exact List.suffix_rfl
  | case4 missing room data plan _ _ ih => exact ih.trans (List.suffix_cons _ _)
  | case5 | case6 => exact List.suffix_cons _ _
  | case7 plan missing room data _ _ n count _ got next ih =>
    exact ih.trans (List.suffix_cons _ _)

/-- The next planned read of a pull that still has bytes to ask for. -/
theorem pull_of_missing {event : PlannedRead} {plan : List PlannedRead} {missing : Nat}
    {room : Option Nat} {data : Bytes} (asked : missing ≠ 0) (free : room ≠ some 0) :
    pull (event :: plan) missing room data =
      match event with
      | .interrupt => pull plan missing room data
      | .deny => ⟨[], data, plan, .denied⟩
      | .deliver n =>
        match data.take (min n (min (within room missing) readSize)) with
        | [] => ⟨[], data, plan, .exhausted⟩
        | taken =>
          let next := pull plan (missing - taken.length) (room.map (· - taken.length))
            (data.drop taken.length)
          { next with taken := taken ++ next.taken } := by
  rw [pull.eq_def]
  exact (if_neg asked).trans (if_neg free)

/-- A pull fails only where a denial is planned. -/
theorem ending_ne_denied {plan : List PlannedRead} {missing : Nat} {room : Option Nat}
    {data : Bytes} (h : .deny ∉ plan) : (pull plan missing room data).ending ≠ .denied := by
  fun_induction pull plan missing room data with
  | case1 => split <;> simp
  | case2 | case3 | case6 => simp
  | case4 missing room data plan _ _ ih => exact ih (fun m ↦ h (List.mem_cons_of_mem _ m))
  | case5 => exact absurd List.mem_cons_self h
  | case7 plan missing room data _ _ n count _ got next ih =>
    exact ih (fun m ↦ h (List.mem_cons_of_mem _ m))

/-! ## Steady sources -/

/-- Whether no planned read comes back empty as long as one of `left` bytes is
left.  A read that is asked for a byte delivers at least one. -/
def steadyPlan : List PlannedRead → (left : Nat) → Bool
  | [], _ => true
  | .interrupt :: plan, left | .deny :: plan, left => steadyPlan plan left
  | .deliver _ :: _, 0 => true
  | .deliver n :: plan, left + 1 => 0 < n && steadyPlan plan left

/-- A source that never comes back empty before its data are used up. -/
def Steady (s : Source) : Prop := steadyPlan s.plan s.data.length = true

instance (s : Source) : Decidable s.Steady := inferInstanceAs (Decidable (_ = true))

/-- The fewer bytes are left, the less is asked of a plan. -/
theorem steadyPlan_of_le {plan : List PlannedRead} {m n : Nat} (h : steadyPlan plan m)
    (le : n ≤ m) : steadyPlan plan n := by
  induction plan generalizing m n with
  | nil => rfl
  | cons event plan ih =>
    cases event with
    | interrupt | deny => exact ih h le
    | deliver count =>
      cases n with
      | zero => rfl
      | succ n =>
        cases m with
        | zero => omega
        | succ m =>
          simp only [steadyPlan, Bool.and_eq_true] at h ⊢
          exact ⟨h.1, ih h.2 (by omega)⟩

/-- Chunks of any positive size and any interruptions make a steady source. -/
theorem steady_of_forall {s : Source} (h : .deliver 0 ∉ s.plan) : s.Steady := by
  obtain ⟨data, plan, delivered⟩ := s
  change steadyPlan plan data.length = true
  change .deliver 0 ∉ plan at h
  generalize data.length = left
  induction plan generalizing left with
  | nil => rfl
  | cons event plan ih =>
    have rest : ∀ left, steadyPlan plan left := ih (fun m ↦ h (List.mem_cons_of_mem _ m))
    cases event with
    | interrupt | deny => exact rest left
    | deliver count =>
      cases left with
      | zero => rfl
      | succ left =>
        have : 0 < count := Nat.pos_of_ne_zero fun e ↦ h (e ▸ List.mem_cons_self)
        simp [steadyPlan, this, rest left]

/-- Nothing is asked of a plan once the data are used up. -/
@[simp] theorem steadyPlan_zero (plan : List PlannedRead) : steadyPlan plan 0 := by
  induction plan with
  | nil => rfl
  | cons event plan ih =>
    cases event with
    | interrupt | deny => exact ih
    | deliver => rfl

/-- What is left of a plan after it delivered `count` bytes, at least one. -/
theorem steadyPlan_of_deliver {n count left : Nat} {plan : List PlannedRead}
    (h : steadyPlan (.deliver n :: plan) left) (pos : 0 < count) :
    steadyPlan plan (left - count) := by
  cases left with
  | zero => simp
  | succ left =>
    simp only [steadyPlan, Bool.and_eq_true] at h
    exact steadyPlan_of_le h.2 (by omega)

/-- A steady source that is asked for a byte comes back empty at its end only. -/
theorem eq_nil_of_deliver {n missing : Nat} {room : Option Nat} {plan : List PlannedRead}
    {data : Bytes} (h : steadyPlan (.deliver n :: plan) data.length)
    (asked : ¬missing = 0) (free : ¬room = some 0)
    (none : data.take (min n (min (within room missing) readSize)) = []) : data = [] := by
  cases data with
  | nil => rfl
  | cons b data =>
    simp only [steadyPlan, List.length_cons, Bool.and_eq_true, decide_eq_true_eq] at h
    have : 0 < within room missing := by
      cases room with
      | none => exact Nat.pos_of_ne_zero asked
      | some r =>
        have : r ≠ 0 := fun e ↦ free (e ▸ rfl)
        simp only [within]
        omega
    have : 0 < min n (min (within room missing) readSize) := by
      simp only [readSize]
      omega
    rw [List.take_eq_nil_iff] at none
    rcases none with none | none
    · omega
    · cases none

theorem steadyPlan_pull {plan : List PlannedRead} {missing : Nat} {room : Option Nat}
    {data : Bytes} (h : steadyPlan plan data.length) :
    steadyPlan (pull plan missing room data).plan (pull plan missing room data).rest.length := by
  fun_induction pull plan missing room data with
  | case1 => rfl
  | case2 | case3 | case5 => exact h
  | case4 missing room data plan _ _ ih => exact ih h
  | case6 plan missing room data asked free n count none =>
    rw [eq_nil_of_deliver h asked free none]
    exact steadyPlan_zero plan
  | case7 plan missing room data _ _ n count some got next ih =>
    refine ih ?_
    rw [List.length_drop]
    exact steadyPlan_of_deliver h (List.length_pos_iff.2 some)

/-- A steady source that comes to an end has given all that the room allows. -/
theorem visible_rest_of_exhausted {plan : List PlannedRead} {missing : Nat} {room : Option Nat}
    {data : Bytes} (h : steadyPlan plan data.length)
    (ended : (pull plan missing room data).ending = .exhausted) :
    visible (room.map (· - (pull plan missing room data).taken.length))
      (pull plan missing room data).rest = [] := by
  fun_induction pull plan missing room data with
  | case1 missing room data count taken =>
    have short : taken.length < missing := by
      split at ended
      · assumption
      · cases ended
    have len : taken.length = min count data.length := List.length_take
    cases room with
    | none =>
      change data.drop count = []
      have : count = missing := rfl
      exact List.drop_eq_nil_of_le (by omega)
    | some r =>
      have : count = min missing r := rfl
      change (data.drop count).take (r - taken.length) = []
      rw [List.take_eq_nil_iff, List.drop_eq_nil_iff]
      omega
  | case2 | case5 => cases ended
  | case3 => simp [visible]
  | case4 missing room data plan _ _ ih => exact ih h ended
  | case6 plan missing room data asked free n count none =>
    rw [eq_nil_of_deliver h asked free none]
    exact List.prefix_nil.1 (visible_isPrefix _ _)
  | case7 plan missing room data _ _ n count some got next ih =>
    have later := ih (by
      rw [List.length_drop]
      exact steadyPlan_of_deliver h (List.length_pos_iff.2 some)) ended
    have : room.map (· - (data.take count ++ next.taken).length)
        = (room.map (· - got)).map (· - next.taken.length) := by
      rw [Option.map_map, List.length_append]
      congr 1
      funext r
      change r - (got + next.taken.length) = r - got - next.taken.length
      omega
    rw [this]
    exact later

end Disasm.Source
