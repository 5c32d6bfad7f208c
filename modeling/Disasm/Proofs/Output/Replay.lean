import Disasm.Proofs.Coupling
import Disasm.Proofs.Output.Deferred

/-!
# Commits that fail

A commit takes the queue from the output before it sends the first operation, and commits
become automatic only after the last.  So when the sink fails in between, what stood
behind the operation that failed is gone, commits are not automatic, and there is
nothing that a later commit could send a second time.

What a sink was given cannot be told from the sink.  A *watched* sink keeps a record of it,
and does all else as before, so that the record may be spoken of for every sink.
-/

namespace Disasm

open Disasm.Action (ending)

/-! ## Watched sinks -/

/-- A sink with the operations that it was given, whether they succeeded or not. -/
structure Watched (σ : Type) where
  sink : σ
  received : List Operation := []
deriving DecidableEq

variable {σ α β : Type}

namespace Watched

variable [Sink σ]

/-- Gives the operation to the sink and keeps a record of it. -/
def perform (op : Operation) : EStateM Error (Watched σ) Unit := fun s ↦
  match Sink.apply op s.sink with
  | .ok _ sink => .ok () ⟨sink, s.received ++ [op]⟩
  | .error e sink => .error e ⟨sink, s.received ++ [op]⟩

instance : Sink (Watched σ) where
  apply := perform

theorem apply_of_ok {op : Operation} {s s' : σ} (applied : Sink.apply op s = .ok () s')
    (received : List Operation) :
    Sink.apply op (⟨s, received⟩ : Watched σ) = .ok () ⟨s', received ++ [op]⟩ := by
  change perform op _ = _
  rw [perform, applied]

theorem apply_of_error {op : Operation} {s s' : σ} {e : Error}
    (failed : Sink.apply op s = .error e s') (received : List Operation) :
    Sink.apply op (⟨s, received⟩ : Watched σ) = .error e ⟨s', received ++ [op]⟩ := by
  change perform op _ = _
  rw [perform, failed]

theorem applyAll_of_ok {ops : List Operation} {s s' : σ}
    (applied : Sink.applyAll ops s = .ok () s') (received : List Operation) :
    Sink.applyAll ops (⟨s, received⟩ : Watched σ) = .ok () ⟨s', received ++ ops⟩ := by
  induction ops generalizing s received with
  | nil =>
    cases applied
    rw [List.append_nil]
    rfl
  | cons op ops ih =>
    obtain ⟨_, t, first, rest⟩ := Action.bind_eq_ok.1 applied
    rw [Sink.applyAll, Action.bind_of_ok (apply_of_ok first received), ih rest, List.append_assoc]
    rfl

/-- The operations that are carried out before one fails, and that one, are received. -/
theorem applyAll_of_error {front rest : List Operation} {op : Operation} {s t s' : σ} {e : Error}
    (applied : Sink.applyAll front s = .ok () t) (failed : Sink.apply op t = .error e s')
    (received : List Operation) :
    Sink.applyAll (front ++ op :: rest) (⟨s, received⟩ : Watched σ) =
      .error e ⟨s', received ++ front ++ [op]⟩ := by
  rw [Sink.applyAll_append, Action.bind_of_ok (applyAll_of_ok applied received), Sink.applyAll,
    Action.bind_of_error (apply_of_error failed _)]

/-- The sink does what it would do without being watched. -/
theorem applyAll_sink (ops : List Operation) (s : Watched σ) :
    Sink.applyAll ops s.sink =
      match Sink.applyAll ops s with
      | .ok _ s' => .ok () s'.sink
      | .error e s' => .error e s'.sink := by
  induction ops generalizing s with
  | nil => rfl
  | cons op ops ih =>
    rw [Sink.applyAll, Sink.applyAll]
    cases applied : Sink.apply op s.sink with
    | ok _ sink =>
      rw [Action.bind_of_ok applied, Action.bind_of_ok (apply_of_ok applied s.received)]
      exact ih ⟨sink, s.received ++ [op]⟩
    | error e sink =>
      rw [Action.bind_of_error applied, Action.bind_of_error (apply_of_error applied s.received)]

/-- Of some operations the sink is given the first ones. -/
theorem received_applyAll (ops : List Operation) (s : Watched σ) :
    ∃ given, given <+: ops ∧ (ending (Sink.applyAll ops s)).received = s.received ++ given := by
  induction ops generalizing s with
  | nil => exact ⟨[], List.nil_prefix, (List.append_nil _).symm⟩
  | cons op ops ih =>
    cases applied : Sink.apply op s.sink with
    | ok _ sink =>
      obtain ⟨given, front, received⟩ := ih ⟨sink, s.received ++ [op]⟩
      refine ⟨op :: given, List.cons_prefix_cons.2 ⟨rfl, front⟩, ?_⟩
      rw [Sink.applyAll, Action.bind_of_ok (apply_of_ok applied s.received), received,
        List.append_assoc]
      rfl
    | error e sink =>
      refine ⟨[op], List.cons_prefix_cons.2 ⟨rfl, List.nil_prefix⟩, ?_⟩
      rw [Sink.applyAll, Action.bind_of_error (apply_of_error applied s.received)]
      rfl

end Watched

namespace Output

theorem setAutoCommit_eq [Sink σ] (on : Bool) (o : Output σ) :
    setAutoCommit on o =
      (if on ∧ !o.autoCommit then commit >>= fun _ ↦ modify ({ · with autoCommit := on })
      else modify ({ · with autoCommit := on }) : Action σ Unit) o := rfl

/-! ## Watching changes nothing -/

/-- The output before the sink without its record. -/
def unwatched (o : Output (Watched σ)) : Output σ := { o with sink := o.sink.sink }

/-- The answer without the record of a sink. -/
def Answer.unwatched : Answer (Watched σ) → Answer σ
  | unit => .unit
  | operations ops => .operations ops
  | sink s => .sink s.sink
  | text s => .text s

/-- The record of a step without that of the sink. -/
def Record.unwatched (r : Record (Watched σ)) : Record σ :=
  ⟨r.outcome.map Answer.unwatched, r.after.unwatched⟩

/-- The result before a watched sink is that before the sink, with `see` of its value. -/
def seen (see : α → β) :
    EStateM.Result Error (Output (Watched σ)) α → EStateM.Result Error (Output σ) β
  | .ok a o => .ok (see a) o.unwatched
  | .error e o => .error e o.unwatched

/-- Work before a watched sink shows as work before the sink. -/
def Shows (see : α → β) (x : Action (Watched σ) α) (y : Action σ β) : Prop :=
  ∀ o, seen see (x o) = y o.unwatched

namespace Shows

theorem bind {γ : Type} {see : β → γ} {x : Action (Watched σ) α} {y : Action σ α}
    {f : α → Action (Watched σ) β} {g : α → Action σ γ} (first : Shows id x y)
    (rest : ∀ a, Shows see (f a) (g a)) : Shows see (x >>= f) (y >>= g) := by
  intro o
  have shown := first o
  cases ran : x o with
  | ok a o' =>
    rw [ran] at shown
    rw [Action.bind_of_ok ran, Action.bind_of_ok shown.symm]
    exact rest a o'
  | error e o' =>
    rw [ran] at shown
    rw [Action.bind_of_error ran, Action.bind_of_error shown.symm]
    rfl

variable [Sink σ]

theorem send (ops : List Operation) : Shows (σ := σ) id (send ops) (send ops) := by
  intro o
  have same := Watched.applyAll_sink ops o.sink
  change seen id (Output.send ops o) =
    match Sink.applyAll ops o.sink.sink with
    | .ok _ sink => .ok () { o.unwatched with sink }
    | .error e sink => .error e { o.unwatched with sink }
  rw [same, Output.send]
  cases Sink.applyAll ops o.sink <;> rfl

theorem commit : Shows (σ := σ) id commit commit := fun o ↦ send o.queue { o with queue := [] }

theorem push (op : Operation) : Shows (σ := σ) id (push op) (push op) := by
  intro o
  rw [Output.push, Output.push]
  change _ = if o.autoCommit then _ else _
  split
  · exact send [op] o
  · rfl

theorem setAutoCommit (on : Bool) : Shows (σ := σ) id (setAutoCommit on) (setAutoCommit on) := by
  have switch : Shows (σ := σ) id (modify ({ · with autoCommit := on }))
      (modify ({ · with autoCommit := on })) := fun _ ↦ rfl
  intro o
  rw [setAutoCommit_eq, setAutoCommit_eq]
  change _ = (if on ∧ !o.autoCommit then _ else _ : Action σ Unit) o.unwatched
  split
  · exact commit.bind (fun _ ↦ switch) o
  · exact switch o

theorem perform (s : Step) : Shows (σ := σ) Answer.unwatched s.perform s.perform := by
  have done : Shows (σ := σ) (Answer.unwatched (σ := σ)) (pure .unit) (pure .unit) := fun _ ↦ rfl
  cases s with
  | operation op => exact (push op).bind fun _ ↦ done
  | println kind text => exact ((push _).bind fun _ ↦ push _).bind fun _ ↦ done
  | autoCommit on => exact (setAutoCommit on).bind fun _ ↦ done
  | commit => exact commit.bind fun _ ↦ done
  | discard | queue | snapshot | describe => exact fun _ ↦ rfl

end Shows

theorem run_unwatched [Sink σ] (steps : List Step) (o : Output (Watched σ)) :
    run steps o.unwatched =
      ((run steps o).1.map Record.unwatched, (run steps o).2.unwatched) := by
  induction steps generalizing o with
  | nil => rfl
  | cons s steps ih =>
    have shown := Shows.perform s o
    rw [run, run, ← shown]
    cases s.perform o with
    | ok a o' => simp only [seen, ih o', List.map_cons, Record.unwatched, Except.map]
    | error e o' => simp only [seen, ih o', List.map_cons, Record.unwatched, Except.map]

/-! ## What the sink is given -/

/-- How an output may be after operations were issued to it: what the sink was given since,
and what waits, is a part of what waited and of what was issued, in that order. -/
structure Follows (o : Output (Watched σ)) (ops : List Operation) (o' : Output (Watched σ)) :
    Prop where
  settled : o'.autoCommit = true → o'.queue = []
  given : ∃ given, o'.sink.received = o.sink.received ++ given ∧
    (given ++ o'.queue).Sublist (o.queue ++ ops)

namespace Follows

variable {o o' o'' : Output (Watched σ)} {ops ops' : List Operation}

/-- Nothing was sent, and nothing is in the queue that was not there or issued. -/
theorem of_queue (settled : o'.autoCommit = true → o'.queue = []) (sink : o'.sink = o.sink)
    (queue : o'.queue.Sublist (o.queue ++ ops)) : Follows o ops o' where
  settled := settled
  given := ⟨[], by rw [sink, List.append_nil], queue⟩

theorem trans (first : Follows o ops o') (rest : Follows o' ops' o'') :
    Follows o (ops ++ ops') o'' where
  settled := rest.settled
  given := by
    obtain ⟨given, received, part⟩ := first.given
    obtain ⟨given', received', part'⟩ := rest.given
    refine ⟨given ++ given', by rw [received', received, List.append_assoc], ?_⟩
    have after : (given ++ (given' ++ o''.queue)).Sublist (given ++ (o'.queue ++ ops')) :=
      part'.append_left given
    have before : (given ++ o'.queue ++ ops').Sublist (o.queue ++ ops ++ ops') :=
      part.append_right ops'
    rw [List.append_assoc, List.append_assoc] at before
    rw [List.append_assoc]
    exact after.trans before

theorem bind {x : Action (Watched σ) α} {f : α → Action (Watched σ) β}
    (first : Follows o ops (ending (x o)))
    (rest : ∀ a o', Follows o ops o' → Follows o' ops' (ending (f a o'))) :
    Follows o (ops ++ ops') (ending ((x >>= f) o)) := by
  cases ran : x o with
  | ok a o' =>
    rw [ran] at first
    rw [Action.bind_of_ok ran]
    exact first.trans (rest a o' first)
  | error e o' =>
    rw [ran] at first
    rw [Action.bind_of_error ran]
    have nothing : Follows o' ops' o' :=
      of_queue first.settled rfl (List.sublist_append_left ..)
    exact first.trans nothing

end Follows

/-! ## One step -/

variable [Sink σ]

/-- Operations that are sent while none wait. -/
theorem follows_send {o : Output (Watched σ)} (empty : o.queue = []) (ops : List Operation) :
    Follows o ops (ending (send ops o)) := by
  obtain ⟨given, front, received⟩ := Watched.received_applyAll ops o.sink
  rw [send]
  cases sent : Sink.applyAll ops o.sink with
  | ok _ s | error e s =>
    rw [sent] at received
    refine ⟨fun _ ↦ empty, given, received, ?_⟩
    change (given ++ o.queue).Sublist _
    rw [empty, List.append_nil]
    exact front.sublist

/-- A commit sends a part of the queue, and nothing waits afterwards. -/
theorem follows_commit (o : Output (Watched σ)) :
    Follows o [] (ending (commit o)) ∧ (ending (commit o)).queue = [] := by
  obtain ⟨given, front, received⟩ := Watched.received_applyAll o.queue o.sink
  rw [commit, send]
  dsimp only
  cases sent : Sink.applyAll o.queue o.sink with
  | ok _ s | error e s =>
    rw [sent] at received
    refine ⟨⟨fun _ ↦ rfl, given, received, ?_⟩, rfl⟩
    exact front.sublist.append (List.Sublist.refl [])

theorem follows_push {o : Output (Watched σ)} (settled : o.autoCommit = true → o.queue = [])
    (op : Operation) : Follows o [op] (ending (push op o)) := by
  rw [push]
  split
  next on => exact follows_send (settled on) [op]
  next off => exact .of_queue (fun on ↦ absurd on off) rfl (List.Sublist.refl _)

theorem follows_setAutoCommit {o : Output (Watched σ)}
    (settled : o.autoCommit = true → o.queue = []) (on : Bool) :
    Follows o [] (ending (setAutoCommit on o)) := by
  rw [setAutoCommit_eq]
  split
  · obtain ⟨committed, empty⟩ := follows_commit o
    cases ran : commit o with
    | ok _ o' =>
      rw [ran] at committed empty
      rw [Action.bind_of_ok ran]
      exact committed.trans (.of_queue (fun _ ↦ empty) rfl (List.sublist_append_left ..))
    | error e o' =>
      rw [ran] at committed
      rw [Action.bind_of_error ran]
      exact committed
  next stays =>
    refine .of_queue (fun switched ↦ settled ?_) rfl (List.sublist_append_left ..)
    have on : on = true := switched
    simpa [on] using stays

/-- After a step the sink was given nothing but what waited or what the step issues. -/
theorem Step.follows_perform (s : Step) {o : Output (Watched σ)}
    (settled : o.autoCommit = true → o.queue = []) :
    Follows o s.issues (ending (s.perform o)) := by
  have answer (a : Answer (Watched σ)) (ops : List Operation) (o' : Output (Watched σ))
      (before : Follows o ops o') : Follows o' [] (ending ((pure a : Action _ _) o')) :=
    .of_queue before.settled rfl (List.sublist_append_left ..)
  cases s with
  | operation op => exact (follows_push settled op).bind fun _ ↦ answer _ _
  | println kind text =>
    have printed := follows_push settled (.print kind text)
    have line : Follows o ([.print kind text] ++ [.newline])
        (ending (Output.println kind text o)) :=
      printed.bind fun _ o' before ↦ follows_push before.settled .newline
    exact line.bind fun _ ↦ answer _ _
  | autoCommit on => exact (follows_setAutoCommit settled on).bind fun _ ↦ answer _ _
  | commit => exact (follows_commit o).1.bind fun _ ↦ answer _ _
  | discard => exact .of_queue (fun _ ↦ rfl) rfl (List.nil_sublist _)
  | queue | snapshot | describe => exact .of_queue settled rfl (List.sublist_append_left ..)

/-! ## A whole run -/

theorem follows_run (steps : List Step) {o : Output (Watched σ)}
    (settled : o.autoCommit = true → o.queue = []) :
    Follows o (steps.flatMap Step.issues) (run steps o).2 := by
  induction steps generalizing o with
  | nil => exact .of_queue settled rfl (List.sublist_append_left ..)
  | cons s steps ih =>
    have first := s.follows_perform settled
    rw [run, List.flatMap_cons]
    cases ran : s.perform o with
    | ok a o' | error e o' =>
      rw [ran] at first
      exact first.trans (ih first.settled)

/-- Nothing waits, and whatever steps follow, the sink is given nothing but what they issue,
and that once and in order. -/
structure Spent (o : Output (Watched σ)) : Prop where
  empty : o.queue = []
  given : ∀ steps, ∃ given, given.Sublist (steps.flatMap Step.issues) ∧
    (run steps o).2.sink.received = o.sink.received ++ given

theorem spent_of_empty {o : Output (Watched σ)} (empty : o.queue = []) : Spent o where
  empty := empty
  given steps := by
    obtain ⟨given, received, part⟩ := (follows_run steps fun _ ↦ empty).given
    rw [empty, List.nil_append] at part
    exact ⟨given, (List.sublist_append_left ..).trans part, received⟩

/-! ## Commits -/

theorem commit_eq (o : Output σ) :
    commit o = match Sink.applyAll o.queue o.sink with
      | .ok _ sink => .ok () { sink, autoCommit := o.autoCommit }
      | .error e sink => .error e { sink, autoCommit := o.autoCommit } := rfl

/-- A commit that fails drops the rest of the queue and nothing else.  If the operations of
the queue fail first at `op`, then a commit, and the switch to automatic commits, fail
with its error: the sink was given the operations up to `op`, the queue is empty and
commits are not automatic.  If none fails, the sink was given them all.  Either way nothing
that stood in the queue is sent again, whatever steps follow. -/
theorem commit_spends_queue (sink : σ) (received queue : List Operation) :
    let o : Output (Watched σ) := { sink := ⟨sink, received⟩, autoCommit := false, queue }
    (∀ front op rest s e s', queue = front ++ op :: rest →
      Sink.applyAll front sink = .ok () s → Sink.apply op s = .error e s' →
      let left : Output (Watched σ) :=
        { sink := ⟨s', received ++ front ++ [op]⟩, autoCommit := false }
      commit o = .error e left ∧ setAutoCommit true o = .error e left ∧ Spent left) ∧
    (∀ s, Sink.applyAll queue sink = .ok () s →
      let left (auto : Bool) : Output (Watched σ) :=
        { sink := ⟨s, received ++ queue⟩, autoCommit := auto }
      commit o = .ok () (left false) ∧ setAutoCommit true o = .ok () (left true) ∧
        ∀ auto, Spent (left auto)) ∧
    ∀ steps, run steps o.unwatched =
      ((run steps o).1.map Record.unwatched, (run steps o).2.unwatched) := by
  intro o
  refine ⟨?_, ?_, fun steps ↦ run_unwatched steps o⟩
  · rintro front op rest s e s' rfl applied failed left
    have committed : commit o = .error e left := by
      rw [commit_eq, Watched.applyAll_of_error applied failed received]
    refine ⟨committed, ?_, spent_of_empty rfl⟩
    rw [setAutoCommit_eq, if_pos (by exact ⟨rfl, rfl⟩), Action.bind_of_error committed]
  · intro s applied left
    have committed : commit o = .ok () (left false) := by
      rw [commit_eq, Watched.applyAll_of_ok applied received]
    refine ⟨committed, ?_, fun auto ↦ spent_of_empty rfl⟩
    rw [setAutoCommit_eq, if_pos (by exact ⟨rfl, rfl⟩), Action.bind_of_ok committed]
    rfl

/-- The writer runs full inside the second of two lines. -/
theorem commit_spends_queue_of_full_writer :
    let sink : TextSink := { writer := { capacity := some 5 } }
    let front : List Operation := [.print .keyword "nop", .newline]
    let number : Operation := .print .value "255"
    let o : Output (Watched TextSink) :=
      { sink := ⟨sink, []⟩, autoCommit := false, queue := front ++ number :: [.newline, .indent] }
    let full : TextSink :=
      { writer := { capacity := some 5, contents := [0x6E, 0x6F, 0x70, 0x0A, 0x32] }
        lineStart := false }
    let left : Output (Watched TextSink) :=
      { sink := ⟨full, front ++ [number]⟩, autoCommit := false }
    commit o = .error .writerFull left ∧ setAutoCommit true o = .error .writerFull left ∧
      Spent left := by
  intro sink front number o full left
  let between : TextSink :=
    { writer := { capacity := some 5, contents := [0x6E, 0x6F, 0x70, 0x0A] } }
  have applied : Sink.applyAll front sink = .ok () between := by
    dsimp only [front, sink, between]
    cbv
  have failed : Sink.apply number between = .error .writerFull full := by
    dsimp only [number, between, full]
    cbv
  exact (commit_spends_queue sink [] _).1 front number _ between _ _ rfl applied failed

end Output

end Disasm
