import Disasm.Proofs.Action

/-!
# Two runs side by side

One action is run from two states that are alike.  A *coupling* says which states
are; an action *respects* it if the two runs end alike, so that it cannot tell the
states apart.  The first run may also fail alone where the second goes on.  Then
it is over, and of the second run only the state matters in which it ends: what
was lost must stay lost, whatever else the second run does.

Respecting a coupling is closed under going on, so that it is shown of an action
by following its text.
-/

namespace Disasm.Action

variable {ε σ α β : Type}

/-- The state in which an action ends. -/
def ending : EStateM.Result ε σ α → σ
  | .ok _ s | .error _ s => s

/-- Which pairs of states belong together. -/
structure Coupling (ε σ : Type) where
  /-- The states are alike. -/
  Like : σ → σ → Prop
  /-- The first run has failed alone, in the first state, and the second has gone
  on to the second. -/
  Lost : ε → σ → σ → Prop

/-- The coupling in which no run fails alone. -/
def Coupling.exact (Like : σ → σ → Prop) : Coupling ε σ := ⟨Like, fun _ _ _ ↦ False⟩

namespace Coupling

/-- How two runs of an action may end. -/
inductive Paired (C : Coupling ε σ) : EStateM.Result ε σ α → EStateM.Result ε σ α → Prop
  | ok {a : α} {s s' : σ} : C.Like s s' → Paired C (.ok a s) (.ok a s')
  | error {e : ε} {s s' : σ} : C.Like s s' → Paired C (.error e s) (.error e s')
  | lost {e : ε} {s : σ} {r : EStateM.Result ε σ α} : C.Lost e s (ending r) →
      Paired C (.error e s) r

/-- The action gives back nothing that was lost. -/
def Keeps (C : Coupling ε σ) (x : EStateM ε σ α) : Prop :=
  ∀ e s s', C.Lost e s s' → C.Lost e s (ending (x s'))

/-- The action cannot tell states apart that are alike, and gives back nothing that
was lost. -/
structure Respects (C : Coupling ε σ) (x : EStateM ε σ α) : Prop where
  paired : ∀ s s', C.Like s s' → C.Paired (x s) (x s')
  keeps : C.Keeps x

variable {C : Coupling ε σ} {x : EStateM ε σ α}

theorem Keeps.bind {f : α → EStateM ε σ β} (hx : C.Keeps x) (hf : ∀ a, C.Keeps (f a)) :
    C.Keeps (x >>= f) := by
  intro e s s' lost
  have first := hx e s s' lost
  cases ran : x s' with
  | ok a t =>
    rw [ran] at first
    rw [bind_of_ok ran]
    exact hf a e s t first
  | error e' t =>
    rw [ran] at first
    rw [bind_of_error ran]
    exact first

/-- Two runs that are paired so far go on alike.  Where the first has failed alone,
the second goes on by itself. -/
theorem Paired.bind {f : α → EStateM ε σ β} {s s' : σ} (first : C.Paired (x s) (x s'))
    (hf : ∀ a t t', C.Like t t' → C.Paired (f a t) (f a t')) (keeps : ∀ a, C.Keeps (f a)) :
    C.Paired ((x >>= f) s) ((x >>= f) s') := by
  generalize ran : x s = r at first
  generalize ran' : x s' = r' at first
  cases first with
  | ok like =>
    rw [bind_of_ok ran, bind_of_ok ran']
    exact hf _ _ _ like
  | error like =>
    rw [bind_of_error ran, bind_of_error ran']
    exact .error like
  | lost lost =>
    rw [bind_of_error ran]
    cases r' with
    | ok a t =>
      rw [bind_of_ok ran']
      exact .lost (keeps a _ _ _ lost)
    | error e t =>
      rw [bind_of_error ran']
      exact .lost lost

namespace Respects

theorem pure (a : α) : C.Respects (Pure.pure a) where
  paired _ _ like := .ok like
  keeps _ _ _ lost := lost

theorem throw (e : ε) : C.Respects (MonadExcept.throw e : EStateM ε σ α) where
  paired _ _ like := .error like
  keeps _ _ _ lost := lost

theorem update {change : σ → σ} (like : ∀ s s', C.Like s s' → C.Like (change s) (change s'))
    (keeps : ∀ e s s', C.Lost e s s' → C.Lost e s (change s')) :
    C.Respects (modify change) where
  paired s s' alike := .ok (like s s' alike)
  keeps := keeps

theorem bind {f : α → EStateM ε σ β} (hx : C.Respects x) (hf : ∀ a, C.Respects (f a)) :
    C.Respects (x >>= f) where
  paired s s' like := (hx.paired s s' like).bind (fun a ↦ (hf a).paired) fun a ↦ (hf a).keeps
  keeps := hx.keeps.bind fun a ↦ (hf a).keeps

/-- A check that does not look at the state fails on both sides or on none. -/
theorem check {p : Prop} [Decidable p] {e : ε} {f : α → EStateM ε σ β} {y : EStateM ε σ β}
    (hy : C.Respects y) : C.Respects (if p then MonadExcept.throw e >>= f else y) := by
  split
  · exact ⟨fun _ _ like ↦ .error like, fun _ _ _ lost ↦ lost⟩
  · exact hy

/-- What is read off the state must be the same in states that are alike. -/
theorem get {f : σ → EStateM ε σ β} (same : ∀ s s', C.Like s s' → f s = f s')
    (hf : ∀ s, C.Respects (f s)) : C.Respects (MonadState.get >>= f) where
  paired s s' like := by
    change C.Paired (f s s) (f s' s')
    rw [← same s s' like]
    exact (hf s).paired s s' like
  keeps e s s' lost := (hf s').keeps e s s' lost

end Respects

/-! ## Parts of a state -/

variable {τ : Type} {C : Coupling ε τ} {D : Coupling ε σ}

/-- Work on a part of the state. -/
def within (part : σ → τ) (put : τ → σ → σ) (x : EStateM ε τ α) : EStateM ε σ α := fun s ↦
  match x (part s) with
  | .ok a t => .ok a (put t s)
  | .error e t => .error e (put t s)

/-- What respects a coupling of the parts respects one of the whole, if the parts of
states that are alike are, and may be exchanged for others that are. -/
theorem Respects.within {x : EStateM ε τ α} (hx : C.Respects x) (part : σ → τ)
    (put : τ → σ → σ) (part_like : ∀ s s', D.Like s s' → C.Like (part s) (part s'))
    (put_like : ∀ s s' t t', D.Like s s' → C.Like t t' → D.Like (put t s) (put t' s'))
    (put_lost : ∀ e s s' t t', C.Lost e t t' → D.Lost e (put t s) (put t' s'))
    (keeps : ∀ e s s', D.Lost e s s' → D.Lost e s (put (ending (x (part s'))) s')) :
    D.Respects (within part put x) where
  paired s s' like := by
    have first := hx.paired _ _ (part_like s s' like)
    rw [Coupling.within, Coupling.within]
    generalize x (part s) = r at first
    generalize x (part s') = r' at first
    cases first with
    | ok like' => exact .ok (put_like _ _ _ _ like like')
    | error like' => exact .error (put_like _ _ _ _ like like')
    | lost lost => cases r' <;> exact .lost (put_lost _ _ _ _ _ lost)
  keeps e s s' lost := by
    have kept := keeps e s s' lost
    rw [Coupling.within]
    generalize x (part s') = r at kept
    cases r <;> exact kept

end Coupling

end Disasm.Action
