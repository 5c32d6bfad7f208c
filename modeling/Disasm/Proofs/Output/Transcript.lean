import Disasm.Output.Queue
import Disasm.Output.Transcript
import Disasm.Proofs.Action

/-!
# Deferred lines

An output before a sink that never fails can always be committed: the queue is
carried out and is empty afterwards.  A transcript is such a sink, and a queue of
pieces of text with a line end behind them becomes one line of it.
-/

namespace Disasm

/-- The operations that print pieces of text. -/
def Operation.prints (segments : List (OutputKind × String)) : List Operation :=
  segments.map fun segment ↦ .print segment.1 segment.2

/-- The operations that write a line. -/
def Operation.line (segments : List (OutputKind × String)) : List Operation :=
  prints segments ++ [newline]

theorem Operation.prints_append (segments segments' : List (OutputKind × String)) :
    prints (segments ++ segments') = prints segments ++ prints segments' := List.map_append

namespace Transcript

/-- No line is unfinished. -/
def Clean (t : Transcript) : Prop := t.current.segments = []

/-- The transcript with one more line. -/
def addLine (line : Line) (t : Transcript) : Transcript :=
  { t with lines := t.lines ++ [line], current := {} }

theorem clean_addLine (line : Line) (t : Transcript) : (t.addLine line).Clean := rfl

/-- Pieces that are printed into a line that has begun come behind the others. -/
theorem foldl_print {t : Transcript} (begun : t.current.segments ≠ [])
    (segments : List (OutputKind × String)) :
    (Operation.prints segments).foldl perform t =
      { t with current := { t.current with segments := t.current.segments ++ segments } } := by
  induction segments generalizing t with
  | nil => simp [Operation.prints]
  | cons first rest ih =>
    have same : t.begun = t.current := if_neg (by simpa using begun)
    have more : (t.print first.1 first.2).current.segments =
        t.current.segments ++ [first] := by
      change t.begun.segments ++ _ = _
      rw [same]
    change (Operation.prints rest).foldl perform (t.print first.1 first.2) = _
    rw [ih (by simp [more]), more]
    simp only [print, same, List.append_assoc, List.singleton_append]

/-- Pieces of text and a line end become one line. -/
theorem foldl_line {t : Transcript} (clean : t.Clean) (first : OutputKind × String)
    (rest : List (OutputKind × String)) :
    (Operation.line (first :: rest)).foldl perform t = t.addLine ⟨t.level, first :: rest⟩ := by
  have empty : t.begun = { t.current with level := t.level } :=
    if_pos (List.isEmpty_iff.2 clean)
  have begun : (t.print first.1 first.2).current = ⟨t.level, [first]⟩ := by
    change (⟨t.begun.level, t.begun.segments ++ [first]⟩ : Line) = _
    rw [empty, show t.current.segments = [] from clean]
    rfl
  have filled : (t.print first.1 first.2).current.segments ≠ [] := by
    rw [begun]
    exact List.cons_ne_nil _ _
  rw [Operation.line, List.foldl_append]
  change ((Operation.prints rest).foldl perform (t.print first.1 first.2)).newline = _
  rw [foldl_print filled, begun]
  rfl

end Transcript

/-! ## Sinks that never fail -/

section Total

variable {σ : Type} [Sink σ] {perform : σ → Operation → σ} {s : σ}

/-- Whatever operations the sink is given, they succeed and do to it what `perform`
does. -/
def Sink.Total (perform : σ → Operation → σ) (s : σ) : Prop :=
  ∀ ops, Sink.applyAll ops s = .ok () (ops.foldl perform s)

theorem Sink.applyAll_append (ops ops' : List Operation) :
    (Sink.applyAll (ops ++ ops') : EStateM Error σ Unit) =
      Sink.applyAll ops >>= fun _ ↦ Sink.applyAll ops' := by
  induction ops with
  | nil => rfl
  | cons op ops ih => rw [List.cons_append, applyAll, applyAll, ih, bind_assoc]

/-- A sink that never fails goes on that way. -/
theorem Sink.Total.foldl (total : Sink.Total perform s) (ops : List Operation) :
    Sink.Total perform (ops.foldl perform s) := by
  intro ops'
  have both := total (ops ++ ops')
  rw [applyAll_append, Action.bind_of_ok (total ops), List.foldl_append] at both
  exact both

/-- It is enough that single operations succeed, in states that they do not leave. -/
theorem Sink.Total.of_apply (Good : σ → Prop)
    (step : ∀ op s, Good s → Sink.apply op s = .ok () (perform s op) ∧ Good (perform s op))
    (good : Good s) : Sink.Total perform s := by
  intro ops
  induction ops generalizing s with
  | nil => rfl
  | cons op ops ih =>
    obtain ⟨applied, good'⟩ := step op s good
    exact (Action.bind_of_ok applied).trans (ih good')

theorem Transcript.total (t : Transcript) : Sink.Total Transcript.perform t :=
  .of_apply (fun _ ↦ True) (fun _ _ _ ↦ ⟨rfl, trivial⟩) trivial

end Total

namespace Output

section Held

variable {σ : Type} [Sink σ] {o : Output σ}

/-- What is not committed at once waits at the end of the queue. -/
theorem push_of_off (off : o.autoCommit = false) (op : Operation) :
    push op o = .ok () { o with queue := o.queue ++ [op] } :=
  if_neg (by simp [off])

theorem setAutoCommit_off (o : Output σ) :
    setAutoCommit false o = .ok () { o with autoCommit := false } := by
  simp [setAutoCommit, bind, EStateM.bind, get, getThe, MonadStateOf.get, EStateM.get, modify,
    modifyGet, MonadStateOf.modifyGet, EStateM.modifyGet]

/-- Commits that are on already are left alone. -/
theorem setAutoCommit_of_on (on : o.autoCommit = true) : setAutoCommit true o = .ok () o := by
  obtain ⟨sink, auto, queue⟩ := o
  cases on
  rfl

theorem send_of_total {perform : σ → Operation → σ} (total : Sink.Total perform o.sink)
    (ops : List Operation) :
    send ops o = .ok () { o with sink := ops.foldl perform o.sink } := by
  rw [send, total]

/-- Switching commits on carries out the queue. -/
theorem setAutoCommit_of_off {perform : σ → Operation → σ} (total : Sink.Total perform o.sink)
    (off : o.autoCommit = false) :
    setAutoCommit true o =
      .ok () { sink := o.queue.foldl perform o.sink, autoCommit := true } := by
  obtain ⟨sink, auto, queue⟩ := o
  cases off
  have committed : commit { sink, autoCommit := false, queue } =
      .ok () { sink := queue.foldl perform sink, autoCommit := false } :=
    send_of_total (o := { sink, autoCommit := false }) total queue
  exact (Action.bind_of_ok rfl).trans (Action.bind_of_ok committed)

end Held

end Output

end Disasm
