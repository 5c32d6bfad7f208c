import Disasm.Proofs.Window.Tape

/-!
# How bytes arrive does not show

What a program observes of a window depends on the bytes that the source and
the limit let it see, and on nothing else: not on the chunks in which they
arrive, not on interruptions, not on whether the bytes end with the source or
with the limit.  Two runs are compared through the tape: a program on a smooth
window observes what it observes on the window's tape.
-/

namespace Disasm.Window

/-- What is observed of a step: its outcome, what is observed inside it, and
where the window stands after it.  Limits, states as text and the amount read
ahead are left out. -/
inductive Observation
  | step (outcome : Except Error Value) (after : Place)
  | transactional (failure : Option Error) (inner : List Observation) (after : Place)
  | slice (limit : Nat) (inner : List Observation) (after : Place)

/-- What is observed of a record. -/
def Record.observe : Record Empty → Observation
  | step outcome after => .step (outcome.map blind) after.place
  | transactional failure inner after => .transactional failure (inner.map observe) after.place
  | slice limit inner after => .slice limit (inner.map observe) after.place
  | extra answer _ => nomatch answer.report

namespace Tape

/-- The end of a run on a tape. -/
structure Trace where
  observations : List Observation
  failure : Option Error
  tape : Tape

/-- The trace with an observation before it. -/
def Trace.cons (o : Observation) (t : Trace) : Trace :=
  { t with observations := o :: t.observations }

/-- Runs a program on a tape.  With `halting` the first failure ends it. -/
def run (halting : Bool) : Program Empty → Tape → Trace
  | .done, t => ⟨[], none, t⟩
  | .step first rest, t =>
    match t.perform first with
    | (.ok v, t') => (run halting rest t').cons (.step (.ok v) t'.place)
    | (.error e, t') =>
      if halting then ⟨[.step (.error e) t'.place], some e, t'⟩
      else (run halting rest t').cons (.step (.error e) t'.place)
  | .transactional body rest, t =>
    let inner := run true body t.enter
    let t' := t.leave inner.failure.isSome inner.tape
    let o := .transactional inner.failure inner.observations t'.place
    if halting ∧ inner.failure.isSome then ⟨[o], inner.failure, t'⟩
    else (run halting rest t').cons o
  | .slice count body rest, t =>
    match t.read count fun order bs ↦ .ok (ofBytes bs order) with
    | (.ok part, t') =>
      (run halting rest t').cons (.slice count (run false body part).observations t'.place)
    | (.error e, t') =>
      if halting then ⟨[.step (.error e) t'.place], some e, t'⟩
      else (run halting rest t').cons (.step (.error e) t'.place)
  | .extra e _, _ => nomatch e

end Tape

/-- What is observed of a run, and the tape at its end. -/
def Trace.observe (t : Trace Empty Unit) : Tape.Trace :=
  ⟨t.records.map Record.observe, t.failure, t.window.tape⟩

theorem Trace.observe_cons (r : Record Empty) (t : Trace Empty Unit) :
    (t.cons r).observe = t.observe.cons r.observe := rfl

/-- The run `t` of a program shows what the run `t'` on a tape shows, and ends
smoothly. -/
def Shows (t : Trace Empty Unit) (t' : Tape.Trace) : Prop := t.observe = t' ∧ t.window.Smooth

theorem Shows.cons {t : Trace Empty Unit} {t' : Tape.Trace} {r : Record Empty} {o : Observation}
    (h : Shows t t') (same : r.observe = o) : Shows (t.cons r) (t'.cons o) := by
  refine ⟨?_, h.2⟩
  rw [Trace.observe_cons, h.1, same]

/-- A step that fails shows the same, whether the run goes on or not. -/
theorem Shows.failed {t : Trace Empty Unit} {t' : Tape.Trace} {w : Window} (h : Shows t t')
    (smooth : w.Smooth) (halting : Bool) (e : Error) :
    Shows
      (if halting then ⟨[.step (.error e) w], some e, w, ()⟩
        else t.cons (.step (.error e) w))
      (if halting then ⟨[.step (.error e) w.tape.place], some e, w.tape⟩
        else t'.cons (.step (.error e) w.tape.place)) := by
  have stands := place_tape smooth.pending_le
  cases halting with
  | true =>
    refine ⟨?_, smooth⟩
    rw [if_pos rfl, if_pos rfl, stands]
    simp [Trace.observe, Record.observe, Except.map]
  | false =>
    refine h.cons ?_
    rw [stands]
    simp [Record.observe, Except.map]

/-- The tape of a window that was not used holds what can be seen of the data. -/
theorem tape_fresh (data : Bytes) (plan : List PlannedRead) (order : ByteOrder)
    (limit : Option Nat) :
    ({ source := { data, plan }, order, limit } : Window).tape =
      .ofBytes (Source.visible limit data) order := by
  cases limit <;> rfl

theorem smooth_slice (bs : Bytes) (order : ByteOrder) :
    Smooth { ofBytes bs order with limit := some bs.length } :=
  .fresh rfl List.not_mem_nil

theorem tape_slice (bs : Bytes) (order : ByteOrder) :
    ({ ofBytes bs order with limit := some bs.length } : Window).tape = .ofBytes bs order := by
  refine (tape_fresh bs [] order (some bs.length)).trans ?_
  rw [Source.visible, List.take_length]

/-- A program observes on a smooth window what it observes on the tape. -/
theorem shows_run (halting : Bool) (p : Program Empty) {w : Window} (h : w.Smooth) :
    Shows (p.run noExtra halting w ()) (w.tape.run halting p) := by
  induction p generalizing halting w with
  | done => exact ⟨rfl, h⟩
  | step s rest ih =>
    obtain ⟨eq, smooth⟩ := perform_eq s h
    have more := ih halting smooth
    have stands := place_tape smooth.pending_le
    rw [Program.run, Tape.run, ← eq]
    cases performed : s.perform w with
    | ok v w' =>
      rw [performed] at more stands
      exact more.cons (by rw [Record.observe]; exact congrArg _ stands.symm)
    | error e w' =>
      rw [performed] at more smooth
      exact more.failed smooth halting e
  | transactional body rest ihBody ihRest =>
    have inside := ihBody true h.enter
    rw [Program.run, Tape.run, ← show _ = w.tape.enter.run true body from inside.1]
    generalize body.run noExtra true w.enter () = inner at inside ⊢
    have smooth := inside.2.leave w inner.failure.isSome
    have left := tape_leave h.pending_le inside.2.pending_le inner.failure.isSome
    have stands := place_tape smooth.pending_le
    have more := ihRest halting smooth
    rw [left] at stands more
    have same : (Record.transactional inner.failure inner.records
        (leave w inner.failure.isSome inner.window)).observe =
        .transactional inner.failure (inner.records.map Record.observe)
          (w.tape.leave inner.failure.isSome inner.window.tape).place := by
      rw [Record.observe, stands]
    change Shows (if halting ∧ inner.failure.isSome then _ else _)
      (if halting ∧ inner.failure.isSome then _ else _)
    split
    · refine ⟨?_, smooth⟩
      simp only [Trace.observe, List.map_cons, List.map_nil, same, left]
    · exact more.cons same
  | slice count body rest ihBody ihRest =>
    obtain ⟨eq, smooth⟩ := (consumes_slice count).on_tape h
    have more := ihRest halting smooth
    have stands := place_tape smooth.pending_le
    rw [Program.run, Tape.run]
    by_cases few : w.tape.remaining.length < count
    · have short : w.tape.read count (fun order bs ↦ .ok (Tape.ofBytes bs order)) =
          (.error .outOfBounds, w.tape) := if_pos few
      rw [Tape.read, if_pos few] at eq
      rw [short]
      cases sliced : Window.slice count w with
      | ok part w' =>
        rw [sliced] at eq
        cases congrArg Prod.fst eq
      | error e w' =>
        rw [sliced] at eq more smooth
        cases congrArg Prod.fst eq
        rw [← show w'.tape = w.tape from congrArg Prod.snd eq]
        exact more.failed smooth halting _
    · have enough : w.tape.read count (fun order bs ↦ .ok (Tape.ofBytes bs order)) =
          (.ok (Tape.ofBytes (w.tape.remaining.take count) w.order), w.tape.consume count) :=
        if_neg few
      rw [Tape.read, if_neg few] at eq
      rw [enough]
      cases sliced : Window.slice count w with
      | ok part w' =>
        rw [sliced] at eq more stands
        cases congrArg Prod.fst eq
        rw [← show w'.tape = w.tape.consume count from congrArg Prod.snd eq]
        have len : (w.tape.remaining.take count).length = count :=
          List.length_take_of_le (Nat.le_of_not_lt few)
        have inner := ihBody false (smooth_slice (w.tape.remaining.take count) w.order)
        rw [tape_slice] at inner
        refine more.cons ?_
        rw [Record.observe, ← inner.1]
        simp only [Option.getD_some, len]
        exact congrArg _ stands.symm
      | error e w' =>
        rw [sliced] at eq
        cases congrArg Prod.fst eq
  | extra e => cases e

/-- What is observed of a program on a window that was not used. -/
theorem observe_run_fresh {data : Bytes} {plan : List PlannedRead}
    (steady : Source.Steady { data, plan }) (undenied : .deny ∉ plan) (order : ByteOrder)
    (limit : Option Nat) (p : Program Empty) :
    (p.run noExtra false { source := { data, plan }, order, limit } ()).records.map
        Record.observe =
      ((Tape.ofBytes (Source.visible limit data) order).run false p).observations := by
  have smooth : Smooth { source := { data, plan }, order, limit } := .fresh steady undenied
  have shows' := shows_run false p smooth
  rw [tape_fresh] at shows'
  exact congrArg Tape.Trace.observations shows'.1

/-- Two sources that neither fail nor end early look the same to every program
if the bytes up to the limits are the same.  A limit is a shorter source. -/
theorem observe_eq_of_visible_eq {data₁ data₂ : Bytes} {plan₁ plan₂ : List PlannedRead}
    {limit₁ limit₂ : Option Nat} (order : ByteOrder)
    (steady₁ : Source.Steady { data := data₁, plan := plan₁ }) (undenied₁ : .deny ∉ plan₁)
    (steady₂ : Source.Steady { data := data₂, plan := plan₂ }) (undenied₂ : .deny ∉ plan₂)
    (same : Source.visible limit₁ data₁ = Source.visible limit₂ data₂) (p : Program Empty) :
    (p.run noExtra false { source := { data := data₁, plan := plan₁ }, order, limit := limit₁ }
        ()).records.map Record.observe =
      (p.run noExtra false { source := { data := data₂, plan := plan₂ }, order, limit := limit₂ }
        ()).records.map Record.observe ∧
    ∀ n, (p.run noExtra false
        { source := { data := data₁, plan := plan₁ }, order, limit := some n }
        ()).records.map Record.observe =
      (p.run noExtra false { source := { data := data₁.take n, plan := plan₁ }, order }
        ()).records.map Record.observe := by
  constructor
  · rw [observe_run_fresh steady₁ undenied₁, observe_run_fresh steady₂ undenied₂, same]
  · intro n
    have short : Source.Steady { data := data₁.take n, plan := plan₁ } :=
      Source.steadyPlan_of_le steady₁ (List.length_take_le' n data₁)
    rw [observe_run_fresh steady₁ undenied₁, observe_run_fresh short undenied₁]
    rfl

/-- Four bytes that come one by one, of which three may be read, look like three
bytes that come at once. -/
theorem observe_limited_eq_observe_short :
    let p : Program Empty :=
      .step (.scalar .u8) <| .transactional (.step (.bytes 5) .done) <|
        .slice 2 (.step (.peek 9) .done) <| .step .hasRemaining .done
    let plan := [.interrupt, .deliver 1, .deliver 1]
    (Source.Steady { data := [1, 2, 3, 4], plan } ∧ .deny ∉ plan ∧
      Source.visible (some 3) [1, 2, 3, 4] = Source.visible none [1, 2, 3]) ∧
    (p.run noExtra false
        { source := { data := [1, 2, 3, 4], plan }, order := .big, limit := some 3 }
        ()).records.map Record.observe =
      (p.run noExtra false { source := { data := [1, 2, 3] }, order := .big }
        ()).records.map Record.observe :=
  ⟨by decide, (observe_eq_of_visible_eq .big (Source.steady_of_forall (by decide)) (by decide)
    (Source.steady_of_forall (by decide)) (by decide) (by decide) _).1⟩

end Disasm.Window
