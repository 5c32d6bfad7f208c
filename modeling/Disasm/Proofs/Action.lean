import Mathlib

/-!
# One action after another

An action that may fail goes on with its next part only if the first succeeds.
The state is kept along, in actions that have one.  So it is with a walk over a list,
which ends at the first element that fails.  An action is *atomic* if its failures leave
the state.
-/

namespace Disasm.Action

section State

variable {ε σ α β : Type} {x : EStateM ε σ α} {f : α → EStateM ε σ β} {s s' : σ}

theorem bind_of_ok {a : α} (h : x s = .ok a s') : (x >>= f) s = f a s' := by
  simp only [bind, EStateM.bind, h]

theorem bind_of_error {e : ε} (h : x s = .error e s') : (x >>= f) s = .error e s' := by
  simp only [bind, EStateM.bind, h]

theorem bind_eq_ok {b : β} {s'' : σ} :
    (x >>= f) s = .ok b s'' ↔ ∃ a s', x s = .ok a s' ∧ f a s' = .ok b s'' := by
  constructor
  · intro h
    cases first : x s with
    | error e s' =>
      rw [bind_of_error first] at h
      cases h
    | ok a s' => exact ⟨a, s', rfl, (bind_of_ok first).symm.trans h⟩
  · rintro ⟨a, s', first, h⟩
    exact (bind_of_ok first).trans h

/-- A check that fails ends the action. -/
theorem check_eq_ok {p : Prop} [Decidable p] {e : ε} {y : EStateM ε σ β} {b : β} {s'' : σ} :
    (if p then throw e >>= f else y) s = .ok b s'' ↔ ¬p ∧ y s = .ok b s'' := by
  by_cases h : p
  · rw [if_pos h]
    exact ⟨(nomatch ·), fun passed ↦ absurd h passed.1⟩
  · rw [if_neg h, and_iff_right h]

/-! ## Failures that change nothing -/

/-- An action that fails leaves the state as it was. -/
def Atomic (x : EStateM ε σ α) : Prop := ∀ s e s', x s = .error e s' → s' = s

namespace Atomic

theorem pure (a : α) : Atomic (Pure.pure a : EStateM ε σ α) :=
  fun _ _ _ failed ↦ nomatch failed

theorem throw (e : ε) : Atomic (MonadExcept.throw e : EStateM ε σ α) := by
  intro s e' s' failed
  cases failed
  rfl

/-- Something may be made of the answer. -/
theorem map (h : Atomic x) (g : α → β) : Atomic (do return g (← x)) := by
  intro s e s' failed
  cases result : x s with
  | ok a s₁ => cases (bind_of_ok result).symm.trans failed
  | error e₁ s₁ =>
    cases (bind_of_error result).symm.trans failed
    exact h s e s' result

/-- The state may be asked for first. -/
theorem get {g : σ → EStateM ε σ β} (h : ∀ s, Atomic (g s)) : Atomic (MonadState.get >>= g) :=
  fun s e s' failed ↦ h s s e s' failed

end Atomic

end State

section Stateless

variable {ε α β : Type} {x : Except ε α} {f : α → Except ε β} {b : β}

theorem bind_eq_ok_iff : x >>= f = .ok b ↔ ∃ a, x = .ok a ∧ f a = .ok b := by
  constructor
  · intro h
    cases x with
    | error e => cases h
    | ok a => exact ⟨a, rfl, h⟩
  · rintro ⟨a, rfl, h⟩
    exact h

/-- A check that fails ends the action. -/
theorem check_eq_ok_iff {p : Prop} [Decidable p] {e : ε} {f : α → Except ε β}
    {y : Except ε β} : (if p then throw e >>= f else y) = .ok b ↔ ¬p ∧ y = .ok b := by
  by_cases h : p
  · rw [if_pos h]
    exact ⟨(nomatch ·), fun passed ↦ absurd h passed.1⟩
  · rw [if_neg h, and_iff_right h]

/-! ## Walks over lists -/

/-- A walk over a list that does not fail gives each element's result in its place. -/
theorem mapM_eq_ok_iff {f : α → Except ε β} {xs : List α} {ys : List β} :
    xs.mapM f = .ok ys ↔ List.Forall₂ (fun x y ↦ f x = .ok y) xs ys := by
  induction xs generalizing ys with
  | nil =>
    rw [List.mapM_nil, List.forall₂_nil_left_iff]
    exact ⟨fun made ↦ (Except.ok.inj made).symm, fun same ↦ congrArg Except.ok same.symm⟩
  | cons x xs ih =>
    rw [List.mapM_cons, List.forall₂_cons_left_iff, bind_eq_ok_iff]
    constructor
    · rintro ⟨y, first, made⟩
      obtain ⟨ys', rest, made⟩ := bind_eq_ok_iff.1 made
      cases made
      exact ⟨y, ys', first, ih.1 rest, rfl⟩
    · rintro ⟨y, ys', first, rest, rfl⟩
      exact ⟨y, first, bind_eq_ok_iff.2 ⟨ys', ih.2 rest, rfl⟩⟩

/-- A walk over a list that fails ends at the first element that fails. -/
theorem mapM_eq_error_iff {f : α → Except ε β} {xs : List α} {e : ε} :
    xs.mapM f = .error e ↔ ∃ front x rest, xs = front ++ x :: rest ∧
      (∀ y ∈ front, ∃ b, f y = .ok b) ∧ f x = .error e := by
  induction xs with
  | nil =>
    refine iff_of_false nofun ?_
    rintro ⟨front, x, rest, split, -⟩
    exact absurd split (by simp)
  | cons x xs ih =>
    rw [List.mapM_cons]
    cases first : f x with
    | error e' =>
      constructor
      · intro failed
        cases failed
        exact ⟨[], x, xs, rfl, nofun, first⟩
      · rintro ⟨_ | ⟨y, front⟩, z, rest, split, good, bad⟩
        · cases split
          cases first.symm.trans bad
          rfl
        · cases split
          obtain ⟨b, fine⟩ := good x (List.mem_cons_self ..)
          cases first.symm.trans fine
    | ok b =>
      have passed : (do
          let ys ← xs.mapM f
          return b :: ys) = .error e ↔ xs.mapM f = .error e := by
        cases xs.mapM f with
        | error e' => exact Iff.rfl
        | ok ys => exact ⟨nofun, nofun⟩
      refine passed.trans (ih.trans ?_)
      constructor
      · rintro ⟨front, z, rest, rfl, good, bad⟩
        exact ⟨x :: front, z, rest, rfl, List.forall_mem_cons.2 ⟨⟨b, first⟩, good⟩, bad⟩
      · rintro ⟨_ | ⟨y, front⟩, z, rest, split, good, bad⟩
        · cases split
          cases first.symm.trans bad
        · cases split
          exact ⟨front, z, rest, rfl, (List.forall_mem_cons.1 good).2, bad⟩

end Stateless

end Disasm.Action
