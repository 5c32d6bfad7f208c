import Disasm.Output.TextSink
import Disasm.Proofs.Output.Transcript

/-!
# The fate of operations

What becomes of an operation can be told from the program alone.  If commits were
automatic when it was issued, it was carried out.  Otherwise it waits for the first
step that decides about the queue: a commit, a discard, or the switch to automatic
commits.

An output does just that, as long as its sink does not fail: it carries out, in the
order of the program, the operations with that fate, and those are in the queue that
still wait.
-/

namespace Disasm

namespace Output

/-- What becomes of an operation. -/
inductive Fate
  | carriedOut
  | dropped
  | waiting
deriving DecidableEq

namespace Step

/-- The operations that a step issues. -/
def issues : Step → List Operation
  | operation op => [op]
  | println kind text => [.print kind text, .newline]
  | _ => []

/-- What a step decides about the operations that wait. -/
def verdict : Step → Fate
  | autoCommit true | commit => .carriedOut
  | discard => .dropped
  | _ => .waiting

/-- Whether commits are automatic after a step, if they were or were not before. -/
def switched (auto : Bool) : Step → Bool
  | autoCommit on => on
  | _ => auto

/-- A step that issues something decides nothing, and only one that carries out the queue
switches to automatic commits. -/
theorem verdict_cases (s : Step) :
    (s.verdict = .carriedOut ∧ s.issues = []) ∨
      (s.verdict = .dropped ∧ s.issues = [] ∧ s.switched false = false) ∨
      (s.verdict = .waiting ∧ s.switched false = false) := by
  cases s with
  | autoCommit on => cases on <;> simp [verdict, issues, switched]
  | _ => simp [verdict, issues, switched]

end Step

/-- The fate of an operation, from the mode in which it was issued and from the steps
that follow: the first one that does not leave it waiting decides. -/
def fate : (auto : Bool) → (later : List Step) → Fate
  | true, _ => .carriedOut
  | false, [] => .waiting
  | false, s :: later => if s.verdict = .waiting then fate false later else s.verdict

/-- The operations that a program issues and that have a certain fate, in order. -/
def issued (f : Fate) : (auto : Bool) → List Step → List Operation
  | _, [] => []
  | auto, s :: steps =>
    (if fate auto steps = f then s.issues else []) ++ issued f (s.switched auto) steps

/-- The operations in the queue if they have a certain fate. -/
def held {σ : Type} (f : Fate) (steps : List Step) (o : Output σ) : List Operation :=
  if fate o.autoCommit steps = f then o.queue else []

variable {σ : Type} [Sink σ] {perform : σ → Operation → σ}

/-- The sink never fails, and nothing waits where commits are automatic. -/
structure Sound (perform : σ → Operation → σ) (o : Output σ) : Prop where
  total : Sink.Total perform o.sink
  settled : o.autoCommit = true → o.queue = []

/-! ## One step -/

/-- With automatic commits a step carries out what it issues. -/
theorem Step.perform_of_on {sink : σ} (total : Sink.Total perform sink) (s : Step) :
    ∃ a, s.perform { sink } =
      .ok a { sink := s.issues.foldl perform sink, autoCommit := s.switched true } := by
  cases s with
  | operation op => exact ⟨.unit, Action.bind_of_ok (send_of_total (o := { sink }) total [op])⟩
  | println kind text =>
    have printed := send_of_total (o := { sink }) total [.print kind text]
    have ended := send_of_total (o := { sink := perform sink (.print kind text) })
      (total.foldl [.print kind text]) [.newline]
    exact ⟨.unit, Action.bind_of_ok ((Action.bind_of_ok printed).trans ended)⟩
  | autoCommit on =>
    cases on with
    | false => exact ⟨.unit, Action.bind_of_ok (setAutoCommit_off { sink })⟩
    | true => exact ⟨.unit, Action.bind_of_ok (setAutoCommit_of_on rfl)⟩
  | commit => exact ⟨.unit, Action.bind_of_ok (send_of_total (o := { sink }) total [])⟩
  | discard => exact ⟨.unit, rfl⟩
  | queue => exact ⟨.operations [], rfl⟩
  | snapshot => exact ⟨.sink sink, rfl⟩
  | describe => exact ⟨_, rfl⟩

/-- Without, a step decides about the queue, or adds to it what it issues. -/
theorem Step.perform_of_off {sink : σ} (total : Sink.Total perform sink) (s : Step)
    (queue : List Operation) :
    ∃ a, s.perform { sink, autoCommit := false, queue } =
      .ok a (match s.verdict with
        | .carriedOut => { sink := queue.foldl perform sink, autoCommit := s.switched false }
        | .dropped => { sink, autoCommit := false }
        | .waiting => { sink, autoCommit := false, queue := queue ++ s.issues }) := by
  have unchanged : ({ sink, autoCommit := false, queue } : Output σ) =
      { sink, autoCommit := false, queue := queue ++ [] } := by rw [List.append_nil]
  cases s with
  | operation op => exact ⟨.unit, Action.bind_of_ok (push_of_off rfl op)⟩
  | println kind text =>
    have printed : push (.print kind text) { sink, autoCommit := false, queue } = _ :=
      push_of_off rfl _
    have ended : push .newline
        { sink, autoCommit := false, queue := queue ++ [.print kind text] } = _ :=
      push_of_off rfl _
    rw [List.append_assoc] at ended
    exact ⟨.unit, Action.bind_of_ok ((Action.bind_of_ok printed).trans ended)⟩
  | autoCommit on =>
    cases on with
    | false =>
      refine ⟨.unit, (Action.bind_of_ok (setAutoCommit_off _)).trans ?_⟩
      exact congrArg (EStateM.Result.ok _) unchanged
    | true => exact ⟨.unit, Action.bind_of_ok (setAutoCommit_of_off total rfl)⟩
  | commit =>
    have sent := send_of_total (o := { sink, autoCommit := false }) total queue
    exact ⟨.unit, Action.bind_of_ok sent⟩
  | discard => exact ⟨.unit, rfl⟩
  | queue => exact ⟨.operations queue, congrArg (EStateM.Result.ok _) unchanged⟩
  | snapshot => exact ⟨.sink sink, congrArg (EStateM.Result.ok _) unchanged⟩
  | describe => exact ⟨_, congrArg (EStateM.Result.ok _) unchanged⟩

/-- No step fails, and afterwards the output is as sound as before. -/
theorem Step.sound_perform (s : Step) {o : Output σ} (sound : o.Sound perform) :
    ∃ a o', s.perform o = .ok a o' ∧ o'.Sound perform := by
  obtain ⟨sink, auto, queue⟩ := o
  have total : Sink.Total perform sink := sound.total
  cases auto with
  | true =>
    obtain rfl : queue = [] := sound.settled rfl
    obtain ⟨a, performed⟩ := s.perform_of_on total
    exact ⟨a, _, performed, total.foldl _, fun _ ↦ rfl⟩
  | false =>
    obtain ⟨a, performed⟩ := s.perform_of_off total queue
    refine ⟨a, _, performed, ?_⟩
    cases s.verdict with
    | carriedOut => exact ⟨total.foldl queue, fun _ ↦ rfl⟩
    | dropped | waiting => exact ⟨total, fun on ↦ by cases on⟩

/-! ## A whole run -/

theorem run_cons_of_ok {s : Step} {steps : List Step} {o o' : Output σ} {a : Answer σ}
    (performed : s.perform o = .ok a o') :
    run (s :: steps) o = (⟨.ok a, o'⟩ :: (run steps o').1, (run steps o').2) := by
  rw [run, performed]

theorem sound_run (steps : List Step) {o : Output σ} (sound : o.Sound perform) :
    (run steps o).2.Sound perform ∧ (run steps o).1.length = steps.length ∧
      ∀ record ∈ (run steps o).1, ∃ a, record.outcome = .ok a := by
  induction steps generalizing o with
  | nil => exact ⟨sound, rfl, nofun⟩
  | cons s steps ih =>
    obtain ⟨a, o', performed, sound'⟩ := s.sound_perform sound
    obtain ⟨last, length, told⟩ := ih sound'
    rw [run_cons_of_ok performed]
    refine ⟨last, congrArg Nat.succ length, ?_⟩
    rintro record (_ | ⟨_, later⟩)
    · exact ⟨a, rfl⟩
    · exact told record later

/-- What a run comes to, from an output whose queue may be filled already. -/
theorem run_eq (steps : List Step) {o : Output σ} (sound : o.Sound perform) :
    (run steps o).2 = {
      sink := (o.held .carriedOut steps ++ issued .carriedOut o.autoCommit steps).foldl
        perform o.sink
      autoCommit := steps.foldl Step.switched o.autoCommit
      queue := o.held .waiting steps ++ issued .waiting o.autoCommit steps } := by
  induction steps generalizing o with
  | nil =>
    obtain ⟨sink, auto, queue⟩ := o
    cases auto with
    | false => simp [run, held, fate, issued]
    | true => simp [run, held, fate, issued, show queue = [] from sound.settled rfl]
  | cons s steps ih =>
    obtain ⟨sink, auto, queue⟩ := o
    have total : Sink.Total perform sink := sound.total
    cases auto with
    | true =>
      obtain rfl : queue = [] := sound.settled rfl
      obtain ⟨a, performed⟩ := s.perform_of_on total
      rw [run_cons_of_ok performed, ih ⟨total.foldl _, fun _ ↦ rfl⟩]
      simp [held, fate, issued]
    | false =>
      obtain ⟨a, performed⟩ := s.perform_of_off total queue
      rw [run_cons_of_ok performed]
      obtain ⟨verdict, none⟩ | ⟨verdict, none, off⟩ | ⟨verdict, off⟩ := s.verdict_cases
      · rw [verdict, ih ⟨total.foldl _, fun _ ↦ rfl⟩]
        simp [held, fate, issued, verdict, none]
      · rw [verdict, ih ⟨total, fun on ↦ by cases on⟩]
        simp [held, fate, issued, verdict, none, off]
      · -- what waits already and what is issued now have one fate from here on
        have joined (f : Fate) : (if fate false steps = f then queue ++ s.issues else []) =
            (if fate false steps = f then queue else []) ++
              if fate false steps = f then s.issues else [] := by
          split <;> rfl
        rw [verdict, ih ⟨total, fun on ↦ by cases on⟩]
        simp [held, fate, issued, verdict, off, joined]

/-- A record has the output after the steps up to its own. -/
theorem after_of_record {steps : List Step} {o : Output σ} {k : Nat} {record : Record σ}
    (told : (run steps o).1[k]? = some record) :
    record.after = (run (steps.take (k + 1)) o).2 := by
  induction steps generalizing o k with
  | nil => cases told
  | cons s steps ih =>
    rw [List.take_succ_cons]
    cases performed : s.perform o with
    | ok a o' =>
      simp only [run, performed] at told ⊢
      cases k with
      | zero =>
        cases told
        rfl
      | succ k => exact ih told
    | error e o' =>
      simp only [run, performed] at told ⊢
      cases k with
      | zero =>
        cases told
        rfl
      | succ k => exact ih told

/-- The output that some steps make of a fresh one, as it can be told from the steps: the
operations that were carried out, in order; those that wait; and the mode.  Nothing waits
where commits are automatic. -/
structure Deferred (perform : σ → Operation → σ) (sink : σ) (steps : List Step)
    (o : Output σ) : Prop where
  sink_eq : o.sink = (issued .carriedOut true steps).foldl perform sink
  queue_eq : o.queue = issued .waiting true steps
  autoCommit_eq : o.autoCommit = steps.foldl Step.switched true
  settled : o.autoCommit = true → o.queue = []

theorem deferred_last {sink : σ} (total : Sink.Total perform sink) (steps : List Step) :
    Deferred perform sink steps (run steps { sink }).2 := by
  have fresh : ({ sink } : Output σ).Sound perform := ⟨total, fun _ ↦ rfl⟩
  have none (f : Fate) : ({ sink } : Output σ).held f steps = [] := ite_self []
  have last := run_eq steps fresh
  rw [none, none] at last
  exact ⟨congrArg Output.sink last, congrArg Output.queue last, congrArg Output.autoCommit last,
    (sound_run steps fresh).1.settled⟩

/-- Deferred output is direct output.  Before a sink that never fails, no step fails, and at
the end and after each step the sink has seen just those operations, in the order of the
program, that were issued with automatic commits or were committed before they were
discarded; and those wait about which nothing was decided. -/
theorem run_deferred {sink : σ} (total : Sink.Total perform sink) (steps : List Step) :
    Deferred perform sink steps (run steps { sink }).2 ∧
      (run steps { sink }).1.length = steps.length ∧
      ∀ k record, (run steps { sink }).1[k]? = some record →
        (∃ a, record.outcome = .ok a) ∧
          Deferred perform sink (steps.take (k + 1)) record.after := by
  have fresh : ({ sink } : Output σ).Sound perform := ⟨total, fun _ ↦ rfl⟩
  obtain ⟨-, length, told⟩ := sound_run steps fresh
  refine ⟨deferred_last total steps, length, ?_⟩
  intro k record at_k
  refine ⟨told record (List.mem_of_getElem? at_k), ?_⟩
  rw [after_of_record at_k]
  exact deferred_last total _

end Output

/-! ## Texts without a bound -/

namespace TextSink

/-- What an operation makes of a text sink, by success or failure. -/
def performed (s : TextSink) (op : Operation) : TextSink :=
  match perform op s with
  | .ok _ s' | .error _ s' => s'

variable {s : TextSink}

theorem write_of_unbounded (unbounded : s.writer.capacity = none) (bs : Bytes) :
    write bs s = .ok ()
      { s with writer := { s.writer with contents := s.writer.contents ++ bs } } := by
  rw [write, Writer.write_of_unbounded unbounded]

/-- The indentation is written where nothing stands in the line. -/
theorem beginLine_of_unbounded (unbounded : s.writer.capacity = none) :
    beginLine s = .ok () { s with
      writer := { s.writer with
        contents := s.writer.contents ++ if s.lineStart then s.padding else [] }
      lineStart := false } := by
  have padded := write_of_unbounded unbounded s.padding
  change (if s.lineStart then (write s.padding >>= fun _ ↦ _) else pure ()) s = _
  by_cases start : s.lineStart = true
  · rw [if_pos start, if_pos start]
    exact Action.bind_of_ok padded
  · obtain ⟨writer, channels, indentWidth, level, lineStart⟩ := s
    cases Bool.eq_false_of_not_eq_true start
    simp only [Bool.false_eq_true, if_false, List.append_nil]
    rfl

/-- A piece that is not empty and of an accepted kind is written behind the others. -/
theorem print_of_unbounded (unbounded : s.writer.capacity = none) (kind : OutputKind)
    (text : String) :
    print kind text s = .ok ()
      (if text.isEmpty ∨ !s.channels.accepts kind then s
      else { s with
        writer := { s.writer with
          contents := s.writer.contents ++
            ((if s.lineStart then s.padding else []) ++ Text.Utf8.encode text) }
        lineStart := false }) := by
  change (if text.isEmpty ∨ !s.channels.accepts kind then pure ()
    else (beginLine >>= fun _ ↦ write (Text.Utf8.encode text))) s = _
  split
  · rfl
  · rw [Action.bind_of_ok (beginLine_of_unbounded unbounded),
      write_of_unbounded (by exact unbounded), List.append_assoc]

theorem perform_of_unbounded (op : Operation) (unbounded : s.writer.capacity = none) :
    ∃ s', perform op s = .ok () s' ∧ s'.writer.capacity = none := by
  cases op with
  | print kind text =>
    refine ⟨_, print_of_unbounded unbounded kind text, ?_⟩
    split <;> exact unbounded
  | newline => exact ⟨_, Action.bind_of_ok (write_of_unbounded unbounded _), unbounded⟩
  | indent => exact ⟨_, rfl, unbounded⟩
  | unindent => exact ⟨_, rfl, unbounded⟩

/-- A text sink fails only where its writer is bounded. -/
theorem total (unbounded : s.writer.capacity = none) : Sink.Total performed s := by
  refine .of_apply (fun s ↦ s.writer.capacity = none) (fun op s unbounded ↦ ?_) unbounded
  obtain ⟨s', done, unbounded'⟩ := perform_of_unbounded op unbounded
  rw [performed, done]
  exact ⟨done, unbounded'⟩

end TextSink

namespace Output

/-- Lines that are committed, words that are dropped, a line that a switch carries out, and
a line end that still waits. -/
theorem run_deferred_text :
    let steps : List Step :=
      [.autoCommit false, .println .keyword "block", .operation .indent,
        .println .keyword "nop", .operation .unindent, .commit,
        .operation (.print .error "dropped"), .discard, .println .comment "; end",
        .autoCommit true, .autoCommit false, .operation .newline, .queue]
    let last := (run steps ({ sink := {} } : Output TextSink)).2
    (issued .dropped true steps = [.print .error "dropped"] ∧
      issued .waiting true steps = [.newline] ∧
      last.sink.writer.contents = Text.Utf8.encode "block\n    nop\n; end\n") ∧
    Deferred TextSink.performed {} steps last := by
  intro steps last
  refine ⟨⟨rfl, rfl, ?_⟩, (run_deferred (TextSink.total rfl) steps).1⟩
  dsimp only [last]
  cbv

end Output

end Disasm
