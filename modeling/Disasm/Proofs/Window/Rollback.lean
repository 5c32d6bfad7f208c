import Disasm.Proofs.Window.Arrival
import Disasm.Proofs.Window.Closure

/-!
# What a failed transaction leaves behind

A transaction of a speculative closure that fails leaves a window that has at
most read ahead, and that does not show: two smooth windows on the same tape
with the same limit are *twins*, and every program does the same on both.

A closure that commits is another matter.  The place to go back to is kept as a
number of pending bytes, and a commit gives pending bytes up.  So as many bytes
stay decoded behind the last commit as were pending before the transaction, if
there are so many.
-/

namespace Disasm.Window

/-! ## Twins -/

/-- The windows differ at most in what they have read ahead. -/
def Resembles (w w' : Window) : Prop :=
  w' = { w with source := w'.source, lookahead := w'.lookahead, exhausted := w'.exhausted }

theorem Resembles.place_eq {w w' : Window} (h : Resembles w w') : w'.place = w.place := by
  rw [h]
  rfl

/-- Two outcomes that differ at most in how many bytes a text says were read
ahead. -/
inductive SameOutcome : Except Error Value → Except Error Value → Prop
  | same (o : Except Error Value) : SameOutcome o o
  | described {w w' : Window} : Resembles w w' →
      SameOutcome (.ok (.text w.describe)) (.ok (.text w'.describe))

/-- Two records that differ at most in what was read ahead. -/
inductive Record.Alike : Record Empty → Record Empty → Prop
  | step {o o' : Except Error Value} {w w' : Window} : SameOutcome o o' → Resembles w w' →
      Alike (.step o w) (.step o' w')
  | transactional {failure : Option Error} {inner inner' : List (Record Empty)}
      {w w' : Window} : List.Forall₂ Alike inner inner' → Resembles w w' →
      Alike (.transactional failure inner w) (.transactional failure inner' w')
  | slice {limit : Nat} {inner inner' : List (Record Empty)} {w w' : Window} :
      List.Forall₂ Alike inner inner' → Resembles w w' →
      Alike (.slice limit inner w) (.slice limit inner' w')

/-- Smooth windows on the same tape, with the same limit. -/
structure Twins (w w' : Window) : Prop where
  left : w.Smooth
  right : w'.Smooth
  tape_eq : w.tape = w'.tape
  limit_eq : w.limit = w'.limit

/-- Two runs that show the same and end in twins. -/
structure SameTrace (t t' : Trace Empty Unit) : Prop where
  records : List.Forall₂ Record.Alike t.records t'.records
  failure : t.failure = t'.failure
  window : Twins t.window t'.window

theorem SameTrace.cons {t t' : Trace Empty Unit} {r r' : Record Empty} (h : SameTrace t t')
    (alike : r.Alike r') : SameTrace (t.cons r) (t'.cons r') :=
  ⟨.cons alike h.records, h.failure, h.window⟩

/-- A smooth window that has read ahead has a twin. -/
theorem Pulled.twins {taken : Bytes} {w w' : Window} (h : Pulled taken w w') (smooth : w.Smooth) :
    Twins w' w :=
  ⟨smooth.pulled h, smooth, tape_pulled smooth h, h.limit_eq⟩

namespace Twins

variable {w w' : Window}

theorem resembles (h : Twins w w') : Resembles w w' := by
  have cursor : w.cursor = w'.cursor := by
    have kept := congrArg (·.kept.length) h.tape_eq
    rwa [length_kept h.left.pending_le, length_kept h.right.pending_le] at kept
  obtain ⟨order, auto, position, -, -⟩ := Tape.mk.inj h.tape_eq
  rw [Resembles, order, auto, position, cursor, h.limit_eq]

theorem enter (h : Twins w w') : Twins w.enter w'.enter :=
  ⟨h.left.enter, h.right.enter, congrArg Tape.enter h.tape_eq, h.limit_eq⟩

theorem leave {v v' : Window} (h : Twins v v') (before : Twins w w') (failed : Bool) :
    Twins (leave w failed v) (leave w' failed v') where
  left := h.left.leave w failed
  right := h.right.leave w' failed
  tape_eq := by
    rw [tape_leave before.left.pending_le h.left.pending_le,
      tape_leave before.right.pending_le h.right.pending_le, before.tape_eq, h.tape_eq]
  limit_eq := by
    have kept : ∀ u : Window, u.settle.limit = u.limit := by
      intro u
      rw [settle]
      split <;> rfl
    rw [Window.leave, Window.leave, kept, kept]
    exact h.limit_eq

/-- No step changes the limit. -/
theorem limit_perform (s : Step) (settled : w.Settled) :
    (after (s.perform w)).limit = w.limit := by
  cases s with
  | commit | discard | order => rfl
  | autoCommit on =>
    change (w.setAutoCommit on).limit = w.limit
    rw [setAutoCommit]
    split <;> rfl
  | _ => exact (moved_perform rfl settled).limit_eq

theorem after_perform (h : Twins w w') (s : Step) :
    Twins (after (s.perform w)) (after (s.perform w')) := by
  obtain ⟨eq, smooth⟩ := perform_eq s h.left
  obtain ⟨eq', smooth'⟩ := perform_eq s h.right
  refine ⟨smooth, smooth', ?_, ?_⟩
  · rw [h.tape_eq] at eq
    exact congrArg Prod.snd (eq.trans eq'.symm)
  · rw [limit_perform s h.left.toSettled, limit_perform s h.right.toSettled, h.limit_eq]

end Twins

/-- An answer of a kind that tells neither the limit nor a text is seen in full. -/
theorem blind_outcome_map {α : Type} {f : α → Value} (plain : ∀ a, blind (f a) = f a)
    (action : Action α) (w : Window) :
    (outcome ((do return f (← action)) w)).map blind = outcome ((do return f (← action)) w) := by
  simp only [bind, EStateM.bind]
  cases action w with
  | error e w' => rfl
  | ok a w' => exact congrArg Except.ok (plain a)

theorem blind_outcome {s : Step} (untold : s ≠ .limit) (untexted : s ≠ .describe) (w : Window) :
    (outcome (s.perform w)).map blind = outcome (s.perform w) := by
  cases s with
  | limit => exact absurd rfl untold
  | describe => exact absurd rfl untexted
  | commit | discard | autoCommit | order | fail => rfl
  | scalar | scalars | bytes | magic | skip | peek | hasRemaining =>
    exact blind_outcome_map (fun _ ↦ rfl) _ w

/-- A step answers the same on twins. -/
theorem Twins.outcome_perform {w w' : Window} (h : Twins w w') (s : Step) :
    SameOutcome (outcome (s.perform w)) (outcome (s.perform w')) := by
  by_cases untexted : s = .describe
  · subst untexted
    exact .described h.resembles
  by_cases untold : s = .limit
  · subst untold
    change SameOutcome (.ok (.bound w.limit)) (.ok (.bound w'.limit))
    rw [h.limit_eq]
    exact .same _
  have told := (perform_eq s h.left).1
  rw [h.tape_eq, ← (perform_eq s h.right).1] at told
  have same : (outcome (s.perform w)).map blind = (outcome (s.perform w')).map blind :=
    congrArg Prod.fst told
  rw [blind_outcome untold untexted, blind_outcome untold untexted] at same
  rw [same]
  exact .same _

/-- A slice of twins is the same window, and smooth. -/
theorem Twins.slice {w w' : Window} (h : Twins w w') (count : Nat) :
    outcome (Window.slice count w) = outcome (Window.slice count w') ∧
      Twins (after (Window.slice count w)) (after (Window.slice count w')) ∧
      ∀ part, outcome (Window.slice count w) = .ok part → part.Smooth := by
  obtain ⟨eq, smooth⟩ := (consumes_slice count).on_tape h.left
  obtain ⟨eq', smooth'⟩ := (consumes_slice count).on_tape h.right
  have limit := ((consumes_slice count).moved h.left.toSettled).limit_eq
  have limit' := ((consumes_slice count).moved h.right.toSettled).limit_eq
  have same := eq.trans ((congrArg (Tape.read count _) h.tape_eq).trans eq'.symm)
  refine ⟨congrArg Prod.fst same,
    ⟨smooth, smooth', congrArg Prod.snd same, by rw [limit, limit', h.limit_eq]⟩, ?_⟩
  intro part made
  have made' := (congrArg Prod.fst eq).symm.trans made
  dsimp only [Tape.read] at made'
  split at made'
  · cases made'
  · cases made'
    exact smooth_slice _ _

/-- A step that fails shows the same, whether the run goes on or not. -/
theorem SameTrace.failed {t t' : Trace Empty Unit} {w w' : Window} (h : SameTrace t t')
    (twins : Twins w w') (halting : Bool) (e : Error) :
    SameTrace
      (if halting then ⟨[.step (.error e) w], some e, w, ()⟩ else t.cons (.step (.error e) w))
      (if halting then ⟨[.step (.error e) w'], some e, w', ()⟩
        else t'.cons (.step (.error e) w')) := by
  have alike : Record.Alike (.step (.error e) w) (.step (.error e) w') :=
    .step (.same _) twins.resembles
  cases halting with
  | true => exact ⟨.cons alike .nil, rfl, twins⟩
  | false => exact h.cons alike

/-- Every program does the same on twins. -/
theorem Twins.run {w w' : Window} (h : Twins w w') (halting : Bool) (p : Program Empty) :
    SameTrace (p.run noExtra halting w ()) (p.run noExtra halting w' ()) := by
  induction p generalizing halting w w' with
  | done => exact ⟨.nil, rfl, h⟩
  | step s rest ih =>
    have told := h.outcome_perform s
    have twins := h.after_perform s
    rw [Program.run, Program.run]
    cases left : s.perform w with
    | ok v w₁ =>
      cases right : s.perform w' with
      | ok v' w₁' =>
        rw [left, right] at told twins
        exact (ih twins halting).cons (.step told twins.resembles)
      | error e w₁' =>
        rw [left, right] at told
        cases told
    | error e w₁ =>
      cases right : s.perform w' with
      | ok v' w₁' =>
        rw [left, right] at told
        cases told
      | error e' w₁' =>
        rw [left, right] at told twins
        cases told
        exact (ih twins halting).failed twins halting e
  | transactional body rest ihBody ihRest =>
    have inside := ihBody h.enter true
    rw [Program.run, Program.run]
    generalize body.run noExtra true w.enter () = inner at inside ⊢
    generalize body.run noExtra true w'.enter () = inner' at inside ⊢
    obtain ⟨records, failure, window⟩ := inside
    have twins := window.leave h inner.failure.isSome
    have alike : Record.Alike
        (.transactional inner.failure inner.records
          (Window.leave w inner.failure.isSome inner.window))
        (.transactional inner.failure inner'.records
          (Window.leave w' inner.failure.isSome inner'.window)) :=
      .transactional records twins.resembles
    rw [← failure]
    split
    · exact ⟨.cons alike .nil, rfl, twins⟩
    · exact (ihRest twins halting).cons alike
  | slice count body rest ihBody ihRest =>
    obtain ⟨same, twins, smooth⟩ := h.slice count
    rw [Program.run, Program.run]
    cases left : Window.slice count w with
    | ok part w₁ =>
      cases right : Window.slice count w' with
      | ok part' w₁' =>
        rw [left, right] at same twins
        rw [left] at smooth
        cases same
        have part_smooth := smooth part rfl
        have inside := ihBody ⟨part_smooth, part_smooth, rfl, rfl⟩ false
        exact (ihRest twins halting).cons (.slice inside.records twins.resembles)
      | error e w₁' =>
        rw [left, right] at same
        cases same
    | error e w₁ =>
      cases right : Window.slice count w' with
      | ok part' w₁' =>
        rw [left, right] at same
        cases same
      | error e' w₁' =>
        rw [left, right] at same twins
        cases same
        exact (ihRest twins halting).failed twins halting e
  | extra e => cases e

/-! ## Speculative closures -/

theorem Moved.pulled {w w' : Window} (h : Moved 0 w w') (settled : w.Settled) :
    ∃ taken, Pulled taken w w' := by
  obtain ⟨taken, w₁, pulled, -, rfl⟩ := h
  rw [consume_zero (pulled.settled settled)]
  exact ⟨taken, pulled⟩

/-- A transaction of a speculative closure leaves no trace if it fails: the window
stands where it stood, over every source, and over a source that neither fails
nor ends early every later program does what it would have done.  If the
transaction succeeds the window has moved on by what the closure decoded, and
with automatic commits that is given up. -/
theorem transactional_leaves_no_trace {α : Type} (f : Closure α) (spec : f.Speculative)
    {w : Window} (settled : w.Settled) :
    (∀ e w', transactional f.run w = .error e w' →
      w'.place = w.place ∧
      (w.source.Steady → .deny ∉ w.source.plan → ∀ p : Program Empty,
        List.Forall₂ Record.Alike (p.run noExtra false w' ()).records
          (p.run noExtra false w ()).records)) ∧
    ∀ a w', transactional f.run w = .ok a w' →
      w'.autoCommit = w.autoCommit ∧
      w'.totalRead = w.totalRead + f.decoded w.enter ∧
      w'.position = w.position + if w.autoCommit then f.decoded w.enter else 0 := by
  have moved := moved_transactional_run f spec settled
  constructor
  · intro e w' failed
    rw [failed] at moved
    obtain ⟨taken, pulled⟩ := Moved.pulled moved settled
    refine ⟨pulled.place_eq, fun steady undenied p ↦ ?_⟩
    have smooth : w.Smooth := ⟨steady, undenied, settled.pending_le, settled.settled⟩
    exact ((pulled.twins smooth).run false p).records
  · intro a w' done
    rw [done] at moved
    exact ⟨moved.autoCommit_eq, moved.totalRead_eq, moved.position_eq settled⟩

/-- A closure that decodes two bytes, runs into a wrong number inside a transaction
of its own, goes on and ends too early, at a window with one byte pending. -/
theorem transactional_leaves_no_trace_nested :
    let w : Window :=
      { source := { data := [3, 4, 5], plan := [.interrupt, .deliver 1], delivered := 2 }
        autoCommit := false, lookahead := [1, 2], cursor := 1 }
    let w' : Window :=
      { source := { data := [], delivered := 5 }
        autoCommit := false, lookahead := [1, 2, 3, 4, 5], cursor := 1, exhausted := true }
    let f : Closure Value :=
      .step (.bytes 2) fun _ ↦
        .transactional (.step (.skip 1) fun _ ↦ .step (.magic .u8 9) .done) fun _ ↦
          .step (.bytes 9) .done
    (f.Speculative ∧ w.Settled ∧ w.source.Steady ∧ .deny ∉ w.source.plan) ∧
    transactional f.run w = .error .outOfBounds w' ∧ w'.place = w.place ∧
      ∀ p : Program Empty, List.Forall₂ Record.Alike (p.run noExtra false w' ()).records
        (p.run noExtra false w ()).records := by
  intro w w' f
  have spec : f.Speculative :=
    ⟨rfl, fun _ ↦ ⟨⟨rfl, fun _ ↦ ⟨rfl, fun _ ↦ trivial⟩⟩, fun _ ↦ ⟨rfl, fun _ ↦ trivial⟩⟩⟩
  have settled : w.Settled := ⟨by decide, by decide⟩
  have steady : w.source.Steady := by decide
  have undenied : .deny ∉ w.source.plan := by decide
  have failed : transactional f.run w = .error .outOfBounds w' := by cbv
  obtain ⟨place, later⟩ := (transactional_leaves_no_trace f spec settled).1 _ w' failed
  exact ⟨⟨spec, settled, steady, undenied⟩, failed, place, later steady undenied⟩

/-! ## Closures that commit -/

/-- Since `before`, either nothing was given up and what was pending still is, or
all that was pending was given up. -/
def Since (before w : Window) : Prop :=
  (w.position = before.position ∧ before.pending ≤ w.pending) ∨ before.totalRead ≤ w.position

namespace Since

variable {w w' w'' : Window}

theorem refl (w : Window) : Since w w := .inl ⟨rfl, Nat.le_refl _⟩

theorem trans (h : Since w w') (h' : Since w' w'') : Since w w'' := by
  simp only [Since, totalRead, position, pending] at h h' ⊢
  omega

theorem of_moved {n : Nat} (moved : Moved n w w') (settled : w.Settled) : Since w w' := by
  have total := moved.totalRead_eq
  have place := moved.position_eq settled
  cases auto : w.autoCommit with
  | true =>
    have none : w.pending = 0 := settled.settled auto
    rw [auto, if_pos rfl] at place
    simp only [Since, totalRead, position, pending] at total place none ⊢
    omega
  | false =>
    rw [auto, if_neg Bool.false_ne_true] at place
    simp only [Since, totalRead, position, pending] at total place ⊢
    omega

theorem commit (w : Window) : Since w w.commit := .inr (Nat.le_refl _)

theorem setAutoCommit (w : Window) (on : Bool) : Since w (w.setAutoCommit on) := by
  rw [Window.setAutoCommit]
  split
  · exact commit w
  · exact refl w

/-- The end of a transaction gives back at most what was decoded inside. -/
theorem leave (h : Since w w') (settled : w.Settled) (failed : Bool) :
    Since w (leave w failed w') := by
  have least : min w.cursor w'.cursor ≤
      (if failed then min w.cursor w'.cursor else w'.cursor) := by
    split
    · exact Nat.le_refl _
    · exact Nat.min_le_right _ _
  rw [Window.leave]
  generalize (if failed then min w.cursor w'.cursor else w'.cursor) = cursor at least ⊢
  rw [settle]
  split
  next on =>
    have none : w.pending = 0 := settled.settled on
    simp only [Since, Window.commit, totalRead, position, pending] at h none ⊢
    omega
  next =>
    simp only [Since, totalRead, position, pending] at h ⊢
    omega

end Since

/-- Any step but a move back. -/
def Step.Forward (s : Step) : Prop := ∀ count, s ≠ .discard count

theorem since_perform {s : Step} (forward : s.Forward) {w : Window} (settled : w.Settled) :
    Since w (after (s.perform w)) ∧ (after (s.perform w)).Settled := by
  by_cases spec : s.speculative = true
  · have moved := moved_perform spec settled
    exact ⟨.of_moved moved settled, moved.settled settled⟩
  · cases s with
    | commit => exact ⟨.commit w, settled_commit w⟩
    | autoCommit on => exact ⟨.setAutoCommit w on, settled.setAutoCommit on⟩
    | order o => exact ⟨.refl w, settled.pending_le, settled.settled⟩
    | discard count => exact absurd rfl (forward count)
    | _ => exact absurd rfl spec

/-- What was pending before a closure that never moves back is pending after it or
was given up. -/
theorem since_run {α : Type} (f : Closure α) (forward : f.Only Step.Forward) {w : Window}
    (settled : w.Settled) :
    Since w (after (f.run w)) ∧ (after (f.run w)).Settled := by
  induction f generalizing w with
  | done r => cases r <;> exact ⟨.refl w, settled⟩
  | step s next ih =>
    obtain ⟨first, between⟩ := since_perform forward.1 settled
    obtain ⟨rest, last⟩ := ih _ (forward.2 _) between
    exact ⟨first.trans rest, last⟩
  | slice count next ih =>
    have moved := (consumes_slice count).moved settled
    obtain ⟨rest, last⟩ := ih _ (forward _) (moved.settled settled)
    exact ⟨(Since.of_moved moved settled).trans rest, last⟩
  | transactional body next ihBody ihNext =>
    obtain ⟨inside, inner⟩ := ihBody forward.1 settled.enter
    have first : Since w (after (transactional body.run w)) ∧
        (after (transactional body.run w)).Settled := by
      rw [transactional]
      cases ran : body.run w.enter with
      | ok a w' | error e w' =>
        rw [ran] at inside inner
        exact ⟨Since.leave (w := w) inside settled _, inner.leave w _⟩
    obtain ⟨rest, last⟩ := ihNext _ (forward.2 _) first.2
    exact ⟨first.1.trans rest, last⟩

/-- Where a failed transaction of a closure that never moves back ends: as many
bytes behind the last commit inside stay decoded as were pending before.  So all
that was decoded and not given up is taken back if nothing was given up inside,
if nothing was pending before, or if nothing was decoded behind the last commit,
and in no other case. -/
theorem totalRead_failed_transactional {α : Type} (f : Closure α)
    (forward : f.Only Step.Forward) {w w' : Window} (settled : w.Settled) {e : Error}
    (failed : transactional f.run w = .error e w') :
    w'.totalRead = (after (f.run w.enter)).position
        + min w.pending (after (f.run w.enter)).pending ∧
      (w'.totalRead = max w.totalRead w'.position ↔
        (after (f.run w.enter)).position = w.position ∨ w.pending = 0 ∨
          (after (f.run w.enter)).pending = 0) := by
  have since := (since_run f forward settled.enter).1
  rw [transactional] at failed
  cases ran : f.run w.enter with
  | ok a last =>
    rw [ran] at failed
    cases failed
  | error e' last =>
    rw [ran] at failed since
    cases failed
    have total : (leave w true last).totalRead = last.position + min w.pending last.pending :=
      totalRead_settle _
    have place : (leave w true last).position =
        if w.autoCommit then last.position + min w.pending last.pending else last.position :=
      position_settle _
    refine ⟨total, ?_⟩
    rw [total, place]
    replace since : (last.position = w.position ∧ w.pending ≤ last.pending) ∨
      w.totalRead ≤ last.position := since
    have before : w.totalRead = w.position + w.pending := rfl
    cases auto : w.autoCommit with
    | true =>
      have none : w.pending = 0 := settled.settled auto
      simp only [after, if_true]
      omega
    | false =>
      simp only [after, Bool.false_eq_true, if_false]
      omega

/-- Two bytes are pending; the closure gives them up, decodes three more and ends
too early.  Two of the three stay decoded. -/
theorem totalRead_failed_transactional_committed :
    let w : Window :=
      { source := { data := [3, 4, 5, 6, 7, 8], delivered := 2 }
        autoCommit := false, lookahead := [1, 2], cursor := 2 }
    let w' : Window :=
      { source := { data := [], delivered := 8 }
        autoCommit := false, lookahead := [3, 4, 5, 6, 7, 8], cursor := 2, committed := 2
        exhausted := true }
    let f : Closure Value :=
      .step .commit fun _ ↦ .step (.bytes 3) fun _ ↦ .step (.bytes 100) .done
    (f.Only Step.Forward ∧ w.Settled ∧ transactional f.run w = .error .outOfBounds w') ∧
      w'.totalRead = 2 + min 2 3 := by
  intro w w' f
  have forward : f.Only Step.Forward :=
    ⟨nofun, fun _ ↦ ⟨nofun, fun _ ↦ ⟨nofun, fun _ ↦ trivial⟩⟩⟩
  have settled : w.Settled := ⟨by decide, by decide⟩
  have failed : transactional f.run w = .error .outOfBounds w' := by cbv
  have inside : after (f.run w.enter) = { w' with cursor := 3 } := by cbv
  have total := (totalRead_failed_transactional f forward settled failed).1
  rw [inside] at total
  exact ⟨⟨forward, settled, failed⟩, total⟩

/-- So it is not the case that a failed transaction takes back all that the closure
decoded and did not give up: the next byte is then not the first of those. -/
theorem failed_transactional_keeps_decoded :
    ∃ (f : Closure Value) (w w' : Window), f.Only Step.Forward ∧ w.Settled ∧
      transactional f.run w = .error .outOfBounds w' ∧
      w'.totalRead ≠ max w.totalRead w'.position ∧
      outcome (bytes 1 w') = .ok [5] ∧
      outcome (bytes 1 { w' with cursor := 0 }) = .ok [3] := by
  let w : Window :=
    { source := { data := [3, 4, 5, 6, 7, 8], delivered := 2 }
      autoCommit := false, lookahead := [1, 2], cursor := 2 }
  let w' : Window :=
    { source := { data := [], delivered := 8 }
      autoCommit := false, lookahead := [3, 4, 5, 6, 7, 8], cursor := 2, committed := 2
      exhausted := true }
  let f : Closure Value :=
    .step .commit fun _ ↦ .step (.bytes 3) fun _ ↦ .step (.bytes 100) .done
  have failed : transactional f.run w = .error .outOfBounds w' := by cbv
  have forward : f.Only Step.Forward := by
    refine ⟨?_, fun _ ↦ ⟨?_, fun _ ↦ ⟨?_, fun _ ↦ trivial⟩⟩⟩ <;>
      · intro count same
        cases same
  exact ⟨f, w, w', forward, ⟨by decide, by decide⟩, failed, by decide, by cbv, by cbv⟩

end Disasm.Window
