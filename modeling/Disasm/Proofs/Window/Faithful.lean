import Disasm.Proofs.Window.Steps

/-!
# No byte is lost, repeated or moved

A program runs in faithful steps, one behind the other, over every source and
with every limit.  A slice consumes its bytes like a step, and what runs on it is
faithful to these bytes.  A transaction begins with automatic commits off; if it
succeeds it ends where its last step ended, and if it fails it moves back from
there.

`Program.Faithful` says so of a whole run: of each record in it, with the window
behind the step, and of how the run ends.
-/

namespace Disasm.Window

variable {α : Type} {data G : Bytes} {w w' : Window}

/-! ## Transactions -/

/-- `w'` is the window behind a transaction that began at `w` and whose work ended
at `last`. -/
structure Transacted (w last : Window) (failed : Bool) (w' : Window) : Prop where
  /-- What was read ahead stays read. -/
  feed_eq : w'.feed = last.feed
  order_eq : w'.order = last.order
  autoCommit_eq : w'.autoCommit = w.autoCommit
  position_eq : w'.position = if w.autoCommit then w'.totalRead else last.position
  /-- A success keeps all that was decoded. -/
  totalRead_eq : failed = false → w'.totalRead = last.totalRead
  /-- A failure moves back at most over what was not given up. -/
  position_le : last.position ≤ w'.totalRead
  totalRead_le : w'.totalRead ≤ last.totalRead
  /-- Where the work gave up nothing and took nothing back, a failure goes back to
  where it began. -/
  rewound : failed = true → last.position = w.position → w.totalRead ≤ last.totalRead →
    w'.totalRead = w.totalRead

theorem transacted_leave (w last : Window) (failed : Bool) :
    Transacted w last failed (leave w failed last) := by
  have total : (leave w failed last).totalRead =
      last.committed + if failed then min w.cursor last.cursor else last.cursor :=
    totalRead_settle _
  refine ⟨feed_leave w last failed, order_settle _, autoCommit_settle _, ?_, ?_, ?_, ?_, ?_⟩
  · rw [total]
    exact position_settle _
  · rintro rfl
    exact total
  · rw [total]
    exact Nat.le_add_right _ _
  · rw [total]
    exact Nat.add_le_add_left (cursor_leave_le w last failed) _
  · rintro rfl same onward
    rw [total, if_pos rfl]
    change last.committed = w.committed at same
    change w.committed + w.cursor ≤ last.committed + last.cursor at onward
    change _ = w.committed + w.cursor
    omega

/-! ## Programs -/

/-- The failure of an action. -/
def failureOf : Except Error α → Option Error
  | .ok _ => none
  | .error e => some e

/-- What comes behind a step that left the window `w`: with `halting` a failure
ends the run there, and otherwise `rest` is said of the run from there on. -/
def Trace.Follows (halting : Bool) (failure : Option Error) (w : Window)
    (rest : Window → Trace Empty Unit → Prop) (t : Trace Empty Unit) : Prop :=
  if halting ∧ failure.isSome then t = ⟨[], failure, w, ()⟩ else rest w t

/-- The run from `w` is one of faithful steps, over a source that held `data`.
Inside a slice the data are the bytes that it consumed. -/
def Program.Faithful (halting : Bool) :
    Program Empty → (data : Bytes) → Window → Trace Empty Unit → Prop
  | done, _, w, t => t = ⟨[], none, w, ()⟩
  | step s rest, data, w, t =>
    ∃ outcome w', ∃ more : Trace Empty Unit,
      t = more.cons (.step outcome w') ∧ s.Faithful data w outcome w' ∧
      more.Follows halting (failureOf outcome) w' (rest.Faithful halting data)
  | transactional body rest, data, w, t =>
    ∃ inner w', ∃ more : Trace Empty Unit,
      t = more.cons (.transactional inner.failure inner.records w') ∧
      body.Faithful true data { w with autoCommit := false } inner ∧
      (∃ G, Accounted data G w') ∧ Transacted w inner.window inner.failure.isSome w' ∧
      more.Follows halting inner.failure w' (rest.Faithful halting data)
  | slice count body rest, data, w, t =>
    ∃ result w', ∃ more : Trace Empty Unit,
      (Step.bytes count).Faithful data w (result.map .bytes) w' ∧
      more.Follows halting (failureOf result) w' (rest.Faithful halting data) ∧
      match result with
      | .error e => t = more.cons (.step (.error e) w')
      | .ok bs => ∃ inner, t = more.cons (.slice count inner.records w') ∧
          body.Faithful false bs
            { source := { data := bs }, order := w.order, limit := some count } inner
  | extra e _, _, _, _ => nomatch e

/-- The run of the rest of a program behind a step that left the window `w`. -/
def Program.runOn (halting : Bool) (failure : Option Error) (rest : Program Empty)
    (w : Window) : Trace Empty Unit :=
  if halting ∧ failure.isSome then ⟨[], failure, w, ()⟩ else rest.run noExtra halting w ()

theorem run_step (halting : Bool) (s : Step) (rest : Program Empty) (w : Window) :
    (Program.step s rest).run noExtra halting w () =
      (rest.runOn halting (failureOf (outcome (s.perform w))) (after (s.perform w))).cons
        (.step (outcome (s.perform w)) (after (s.perform w))) := by
  rw [Program.run, Program.runOn]
  cases s.perform w with
  | ok v w' => cases halting <;> rfl
  | error e w' => cases halting <;> rfl

theorem run_transactional (halting : Bool) (body rest : Program Empty) (w : Window) :
    let inner := body.run noExtra true w.enter ()
    let w' := leave w inner.failure.isSome inner.window
    (Program.transactional body rest).run noExtra halting w () =
      (rest.runOn halting inner.failure w').cons
        (.transactional inner.failure inner.records w') := by
  intro inner w'
  rw [Program.run, Program.runOn]
  split <;> rfl

theorem run_slice_of_error (halting : Bool) {count : Nat} (body rest : Program Empty) {e : Error}
    (failed : bytes count w = .error e w') :
    (Program.slice count body rest).run noExtra halting w () =
      (rest.runOn halting (some e) w').cons (.step (.error e) w') := by
  have sliced : Window.slice count w = .error e w' := Action.bind_of_error failed
  rw [Program.run, Program.runOn, sliced]
  cases halting <;> rfl

theorem run_slice_of_ok (halting : Bool) {count : Nat} (body rest : Program Empty) {bs : Bytes}
    (consumed : bytes count w = .ok bs w') :
    (Program.slice count body rest).run noExtra halting w () =
      (rest.runOn halting none w').cons
        (.slice bs.length
          (body.run noExtra false
            { source := { data := bs }, order := w'.order, limit := some bs.length } ()).records
          w') := by
  have sliced : Window.slice count w =
      .ok { source := { data := bs }, order := w'.order, limit := some bs.length } w' :=
    Action.bind_of_ok consumed
  rw [Program.run, Program.runOn, sliced]
  cases halting <;> rfl

/-- The rest of a run is faithful if the rest of the program is. -/
theorem faithful_runOn {halting : Bool} {rest : Program Empty} (failure : Option Error)
    (now : Accounted data G w)
    (runs : rest.Faithful halting data w (rest.run noExtra halting w ()) ∧
      ∃ G', Accounted data G' (rest.run noExtra halting w ()).window) :
    (rest.runOn halting failure w).Follows halting failure w (rest.Faithful halting data) ∧
      ∃ G', Accounted data G' (rest.runOn halting failure w).window := by
  rw [Trace.Follows, Program.runOn]
  split
  · exact ⟨rfl, G, now⟩
  · exact runs

/-- Every run is faithful, and it ends with a window whose account is kept. -/
theorem faithful_run (halting : Bool) (p : Program Empty) (h : Accounted data G w) :
    p.Faithful halting data w (p.run noExtra halting w ()) ∧
      ∃ G', Accounted data G' (p.run noExtra halting w ()).window := by
  induction p generalizing halting data G w with
  | done => exact ⟨rfl, G, h⟩
  | step s rest ih =>
    have faithful := faithful_perform s h
    obtain ⟨G', now, -⟩ := id faithful
    obtain ⟨more, last⟩ := faithful_runOn _ now (ih halting now)
    rw [run_step]
    exact ⟨⟨_, _, _, rfl, faithful, more⟩, last⟩
  | transactional body rest ihBody ihRest =>
    -- to leave keeps the account of the window that the work left
    obtain ⟨inside, G₁, end₁⟩ := ihBody true h.enter
    have now := end₁.toReceived.leave w (body.run noExtra true w.enter ()).failure.isSome
    obtain ⟨more, last⟩ := faithful_runOn _ now (ihRest halting now)
    rw [run_transactional]
    exact ⟨⟨_, _, _, rfl, inside, ⟨G₁, now⟩, transacted_leave .., more⟩, last⟩
  | slice count body rest ihBody ihRest =>
    -- a slice consumes as the step for its bytes does, and begins a window of its own
    have faithful := faithful_perform (.bytes count) h
    obtain ⟨G', now, -⟩ := id faithful
    cases consumed : bytes count w with
    | error e w' =>
      rw [show (Step.bytes count).perform w = .error e w' from Action.bind_of_error consumed]
        at faithful now
      obtain ⟨more, last⟩ := faithful_runOn (some e) now (ihRest halting now)
      rw [run_slice_of_error halting body rest consumed]
      exact ⟨⟨.error e, w', _, faithful, more, rfl⟩, last⟩
    | ok bs w' =>
      rw [show (Step.bytes count).perform w = .ok (.bytes bs) w' from Action.bind_of_ok consumed]
        at faithful now
      obtain ⟨more, last⟩ := faithful_runOn none now (ihRest halting now)
      obtain ⟨_, -, -, done⟩ := id faithful
      have order : w'.order = w.order := done.order_eq
      have len : bs.length = count := by
        cases done.reads count rfl with
        | bytes len => exact len
      have inside := ihBody false (accounted_fresh bs [] w.order (some count))
      rw [run_slice_of_ok halting body rest consumed, len, order]
      exact ⟨⟨.ok bs, w', _, faithful, more, _, rfl, inside.1⟩, last⟩
  | extra e rest => cases e

/-- No byte is lost, repeated or moved: over every source, with every limit, a
program runs in faithful steps. -/
theorem run_keeps_every_byte (data : Bytes) (plan : List PlannedRead) (order : ByteOrder)
    (limit : Option Nat) (p : Program Empty) :
    p.Faithful false data { source := { data, plan }, order, limit }
      (p.run noExtra false { source := { data, plan }, order, limit } ()) :=
  (faithful_run false p (accounted_fresh data plan order limit)).1

end Disasm.Window
