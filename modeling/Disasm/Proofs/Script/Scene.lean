import Disasm.Proofs.Decoder.Scope
import Disasm.Script.Run

/-!
# What scripts see of the running decoders

A script may ask which decoder is running and may call others.  `Tells now` says of a
record that it tells nothing but the scene `now`, also behind a call, and that the
records of that call tell of its own decoder on top.  Steps keep what is known of the
session, and so do programs and whole scripts; the calls by induction on how deep they
may nest.
-/

namespace Disasm

open Disasm.Frame (Keeps)

/-- The scene in which the given decoders are running. -/
def Scene.of (running : List Binding) : Scene := ⟨running.length, running.getLast?⟩

theorem Scene.of_concat (running : List Binding) (d : Binding) :
    Scene.of (running ++ [d]) = ⟨running.length + 1, some d⟩ := by
  rw [Scene.of, List.length_append, List.getLast?_concat]
  rfl

namespace Script

/-! ## Records -/

/-- An answer tells of the running decoders that they are those of `now`. -/
def Answer.Tells (now : Scene) : Answer → Prop
  | .scene s => s = now
  | .name n => now.active.map (·.name) = some n
  | _ => True

/-- A record tells of the running decoders that they are those of `now`. -/
inductive Tells : Scene → Window.Record Report → Prop
  | step {now : Scene} {outcome : Except Error Value} {after : Window} :
      Tells now (.step outcome after)
  | transactional {now : Scene} {failure : Option Error}
      {records : List (Window.Record Report)} {after : Window}
      (inner : ∀ r ∈ records, Tells now r) : Tells now (.transactional failure records after)
  | slice {now : Scene} {limit : Nat} {records : List (Window.Record Report)} {after : Window}
      (inner : ∀ r ∈ records, Tells now r) : Tells now (.slice limit records after)
  | act {now : Scene} {failure : Option Error} {answer : Option Answer}
      {output : Output Device} {after : Window} (told : ∀ a ∈ answer, a.Tells now) :
      Tells now (.extra ⟨failure, .mk answer output none⟩ after)
  /-- Inside of a call its decoder is on top; afterwards all is as before. -/
  | call {now : Scene} {failure : Option Error} {count : Option Answer}
      {output : Output Device} {pulled : Nat} {sink : Device}
      {records : Option (List (Window.Record Report))} {after : Window} (d : Binding)
      (inner : ∀ rs ∈ records, ∀ r ∈ rs, Tells ⟨now.depth + 1, some d⟩ r) :
      Tells now (.extra ⟨failure, .mk count output (some (.mk pulled sink now records))⟩ after)

/-- What is known of the session while `running` are. -/
structure Holds (running : List Binding) (s : Session World) : Prop where
  running_eq : s.running = running
  told : ∀ rs ∈ s.world.trace, ∀ r ∈ rs, Tells (Scene.of running) r

namespace Holds

variable {running : List Binding} {s : Session World}

theorem record (r : Log.Record) (h : Holds running s) : Holds running (s.record r) := ⟨h.1, h.2⟩

theorem configure (name : String) (order : Option ByteOrder) (limit : Option (Option Nat))
    (h : Holds running s) : Holds running (configure name order limit s) := ⟨h.1, h.2⟩

theorem scene_eq (h : Holds running s) : s.scene = Scene.of running := by
  rw [Session.scene, h.running_eq, Scene.of]

theorem active_eq {b : Binding} (h : Holds running s) (active : s.active = .ok b) :
    (Scene.of running).active = some b := by
  rw [Session.active, h.running_eq] at active
  split at active
  · next found =>
    cases active
    exact found
  · cases active

end Holds

/-! ## Steps -/

theorem keeps_perform (self : String) (running : List Binding) (act : Act) :
    Keeps (Holds running) (act.perform self) := by
  cases act with
  | output step => exact (Keeps.write _).bind fun _ ↦ .pure _
  | scene => exact Keeps.get.bind fun _ ↦ .pure _
  | activeTable => exact (Keeps.ask _).bind fun _ ↦ (Keeps.ask _).bind fun _ ↦ .pure _
  | activeScript => exact (Keeps.ask _).bind fun _ ↦ .pure _
  | settings order limit =>
    have known : Keeps (Holds running) (settingsOf self) := by
      refine Keeps.get.bind fun f ↦ ?_
      split
      · exact .pure _
      · exact .throw _
    have configured : Keeps (Holds running) (modify fun f ↦
        { f with session := configure self order limit f.session } : Work Unit) :=
      .update fun f held ↦ held.configure self order limit
    exact configured.bind fun _ ↦ known.bind fun _ ↦ .pure _
  | operand kind start => exact (Operand.keeps_render start kind).bind fun _ ↦ .pure _
  | instruction text spec =>
    exact (Keeps.ask _).bind fun _ ↦ (Keeps.ask _).bind fun i ↦
      (Instruction.keeps_render _ i).bind fun _ ↦ .pure _

theorem tells_perform {self : String} {running : List Binding} {act : Act} {a : Answer}
    {f g : Frame Device World} (held : Holds running f.session)
    (performed : act.perform self f = .ok a g) : a.Tells (Scene.of running) := by
  cases act with
  | output step | operand kind start =>
    obtain ⟨_, _, -, answered⟩ := Action.bind_eq_ok.1 performed
    cases answered
    trivial
  | scene =>
    cases performed
    exact held.scene_eq
  | activeTable =>
    obtain ⟨_, f₁, first, second⟩ := Action.bind_eq_ok.1 performed
    obtain ⟨-, rfl⟩ := Frame.ask_eq_ok first
    obtain ⟨b, _, asked, answered⟩ := Action.bind_eq_ok.1 second
    cases answered
    exact congrArg (Option.map (·.name)) (held.active_eq (Frame.ask_eq_ok asked).1)
  | activeScript =>
    obtain ⟨b, _, asked, answered⟩ := Action.bind_eq_ok.1 performed
    cases answered
    exact congrArg (Option.map (·.name)) (held.active_eq (Frame.ask_eq_ok asked).1)
  | settings order limit =>
    obtain ⟨_, _, -, performed⟩ := Action.bind_eq_ok.1 performed
    obtain ⟨_, _, -, answered⟩ := Action.bind_eq_ok.1 performed
    cases answered
    trivial
  | instruction text spec =>
    obtain ⟨_, _, -, performed⟩ := Action.bind_eq_ok.1 performed
    obtain ⟨_, _, -, performed⟩ := Action.bind_eq_ok.1 performed
    obtain ⟨_, _, -, answered⟩ := Action.bind_eq_ok.1 performed
    cases answered
    trivial

theorem keeps_repeated {I : Session World → Prop} {body : Work Unit} (kept : Keeps I body)
    (count : Nat) : Keeps I (repeated body count) := by
  induction count with
  | zero => exact .pure ()
  | succ count ih =>
    refine (Keeps.read _).bind fun more ↦ ?_
    split
    · exact kept.bind fun _ ↦ ih
    · exact .pure ()

theorem keeps_guarded {I : Session World → Prop} (catches : Bool) {body : Work Unit}
    (kept : Keeps I body) : Keeps I (guarded catches body) := by
  rw [guarded]
  split
  · exact kept.attempt.bind fun _ ↦ .pure ()
  · exact kept

/-! ## Programs -/

/-- How a call ends that was made in a session. -/
structure Returns (call : Call) (session : Session World) (r : Return) : Prop where
  running_eq : r.session.running = session.running
  trace_eq : r.session.world.trace = session.world.trace
  /-- What it leaves behind tells of its decoder. -/
  report : ∀ pulled sink after records, r.report = some (.mk pulled sink after records) →
    after = session.scene ∧ ∃ d,
      (configure call.decoder call.order call.limit session).world.decoder? call.decoder = some d ∧
      ∀ rs ∈ records, ∀ r ∈ rs, Tells ⟨session.running.length + 1, some d.binding⟩ r

/-- A call that could not begin leaves nothing behind. -/
theorem returns_of_none {call : Call} {session : Session World} {r : Return}
    (running_eq : r.session.running = session.running)
    (trace_eq : r.session.world.trace = session.world.trace) (nothing : r.report = none) :
    Returns call session r := by
  refine ⟨running_eq, trace_eq, fun pulled sink after records left ↦ ?_⟩
  rw [nothing] at left
  cases left

/-- All calls end so. -/
def Balanced (caller : Caller) : Prop :=
  ∀ call source session, Returns call session (caller call source session)

/-- What is known of the end of a program. -/
structure Ended (running : List Binding)
    (t : Window.Trace Report (Output Device × Session World)) : Prop where
  told : ∀ r ∈ t.records, Tells (Scene.of running) r
  held : Holds running t.state.2

namespace Ended

variable {running : List Binding} {t : Window.Trace Report (Output Device × Session World)}
  {r : Window.Record Report}

theorem cons (told : Tells (Scene.of running) r) (h : Ended running t) :
    Ended running (t.cons r) :=
  ⟨List.forall_mem_cons.2 ⟨told, h.told⟩, h.held⟩

/-- The first failure may end a program. -/
theorem single (told : Tells (Scene.of running) r) {failure : Option Error} {w : Window}
    {state : Output Device × Session World} (held : Holds running state.2) :
    Ended running ⟨[r], failure, w, state⟩ :=
  ⟨List.forall_mem_singleton.2 told, held⟩

end Ended

section Programs

variable {caller : Caller} (balanced : Balanced caller) {running : List Binding}
include balanced

theorem tells_performCall {session : Session World} (held : Holds running session) (call : Call)
    (source : Source) (w : Window) (output : Output Device) :
    (∀ after, Tells (Scene.of running)
      (.extra (performCall caller call source w output session).1 after)) ∧
    Holds running (performCall caller call source w output session).2.2.2 := by
  obtain ⟨running_eq, trace_eq, report⟩ := balanced call source session
  rw [performCall]
  generalize caller call source session = r at running_eq trace_eq report
  have told (failure : Option Error) {count : Option Answer}
      (plain : ∀ a ∈ count, a.Tells (Scene.of running)) (after : Window) :
      Tells (Scene.of running) (.extra ⟨failure, .mk count output r.report⟩ after) := by
    match left : r.report with
    | none => exact .act plain
    | some (.mk pulled sink scene records) =>
      obtain ⟨rfl, d, -, inner⟩ := report pulled sink scene records left
      rw [held.scene_eq]
      rw [held.running_eq] at inner
      exact .call d.binding inner
  refine ⟨fun after ↦ ?_, running_eq.trans held.running_eq, trace_eq ▸ held.told⟩
  dsimp only
  split
  · exact told none (by simp [Answer.Tells]) after
  · exact told _ (by simp) after

theorem tells_step (self : String) (step : Step) (w : Window)
    {state : Output Device × Session World} (held : Holds running state.2) :
    (∀ after, Tells (Scene.of running) (.extra (perform caller self step w state).1 after)) ∧
    Holds running (perform caller self step w state).2.2.2 := by
  obtain ⟨output, session⟩ := state
  cases step with
  | call call =>
    rw [perform]
    split
    · exact tells_performCall balanced held call _ w output
    · split
      · exact tells_performCall balanced held call _ _ output
      · exact ⟨fun after ↦ .act (by simp), held⟩
  | act act =>
    have kept := keeps_perform self running act ⟨w, output, session⟩ held
    rw [perform]
    split
    · next performed =>
      rw [performed] at kept
      refine ⟨fun after ↦ .act ?_, kept⟩
      rintro a ⟨⟩
      exact tells_perform held performed
    · next performed =>
      rw [performed] at kept
      exact ⟨fun after ↦ .act (by simp), kept⟩

theorem ended_run (self : String) (body : Window.Program Step) (halting : Bool) (w : Window)
    (state : Output Device × Session World) (held : Holds running state.2) :
    Ended running (body.run (perform caller self) halting w state) := by
  induction body generalizing halting w state with
  | done => exact ⟨List.forall_mem_nil _, held⟩
  | step first rest ih =>
    rw [Window.Program.run]
    split
    · exact (ih halting _ _ held).cons .step
    · split
      · exact .single .step held
      · exact (ih halting _ _ held).cons .step
  | transactional body rest body_ih ih =>
    have inner := body_ih true w.enter state held
    rw [Window.Program.run]
    split
    · exact .single (.transactional inner.told) inner.held
    · exact (ih halting _ _ inner.held).cons (.transactional inner.told)
  | slice count body rest body_ih ih =>
    rw [Window.Program.run]
    split
    · next part _ _ =>
      have inner := body_ih false part state held
      exact (ih halting _ _ inner.held).cons (.slice inner.told)
    · split
      · exact .single .step held
      · exact (ih halting _ _ held).cons .step
  | extra first rest ih =>
    obtain ⟨told, held⟩ := tells_step balanced self first w held
    rw [Window.Program.run]
    dsimp only
    split
    · exact .single (told _) held
    · exact (ih halting _ _ held).cons (told _)

theorem keeps_group (self : String) (body : Window.Program Step) :
    Keeps (Holds running) (group caller self body) := by
  intro f held
  obtain ⟨told, running_eq, known⟩ :=
    ended_run balanced self body true f.input (f.output, f.session) held
  rw [group]
  generalize body.run (perform caller self) true f.input (f.output, f.session) = t
    at told running_eq known ⊢
  have noted : Holds running { t.state.2 with world := t.state.2.world.note t.records } := by
    refine ⟨running_eq, fun rs there ↦ ?_⟩
    obtain ⟨old, earlier, rfl⟩ := Option.map_eq_some_iff.1 there
    exact List.forall_mem_append.2 ⟨known old earlier, told⟩
  dsimp only
  split <;> exact noted

theorem keeps_item (self : String) (item : Item) :
    Keeps (Holds running) (item.run caller self) := by
  cases item with
  | attempt body catches => exact keeps_guarded catches (keeps_group balanced self body)
  | whileRemaining body catches =>
    exact keeps_guarded catches (keeps_repeated (keeps_group balanced self body) maxRepeats)

theorem keeps_runItems (self : String) (items : List Item) :
    Keeps (Holds running) (runItems caller self items) := by
  induction items with
  | nil => exact .pure ()
  | cons item rest ih => exact (keeps_item balanced self item).bind fun _ ↦ ih

/-- The loop of a decoder keeps what is known of the session. -/
theorem keeps_loop (self : String) (d : Decoder) :
    Keeps (Holds running) (loop caller self d) := by
  rw [loop]
  split
  · exact Table.keeps_run (fun r _ held ↦ held.record r) _ _
  · have begun : Keeps (Holds running) (modify fun f ↦ { f with
        session := { f.session with world := { f.session.world with trace := some [] } } } :
        Work Unit) := .update fun f held ↦ ⟨held.running_eq, by simp⟩
    exact begun.bind fun _ ↦ keeps_runItems balanced self _

/-- A call enters its decoder and comes back to those that were running. -/
theorem returns_enterCall (call : Call) {d : Decoder} (source : Source) {session : Session World}
    (known : (configure call.decoder call.order call.limit session).world.decoder? call.decoder =
      some d) :
    Returns call session (enterCall caller call d source
      (configure call.decoder call.order call.limit session)) := by
  have running_eq : (configure call.decoder call.order call.limit session).running =
    session.running := rfl
  have trace_eq : (configure call.decoder call.order call.limit session).world.trace =
    session.world.trace := rfl
  generalize configured : configure call.decoder call.order call.limit session = s₀
    at known running_eq trace_eq ⊢
  -- the records of the call begin with none
  obtain ⟨s, held, eq⟩ := call.range.exists_leave_decode d.settings
    (fun r _ held ↦ Holds.record r held) d.binding (keeps_loop balanced call.decoder d) source
    { call.sink with scene := (s₀.enter d.binding).scene }
    { s₀ with world := { s₀.world with trace := none } } ⟨rfl, nofun⟩
  rw [enterCall]
  generalize call.range.decode d.settings d.binding (loop caller call.decoder d) source _ _ =
    ended at eq ⊢
  have restored : ended.2.session.running = session.running := by
    rw [eq]
    exact (Session.running_leave held.running_eq).trans running_eq
  refine ⟨restored, trace_eq, fun pulled sink after records left ↦ ?_⟩
  cases left
  refine ⟨?_, d, configured ▸ known, ?_⟩
  · rw [Session.scene, Session.scene, restored]
  · have told : ∀ rs ∈ s.world.trace, ∀ r ∈ rs, Tells (Scene.of (s₀.running ++ [d.binding])) r :=
      held.told
    rw [Scene.of_concat, running_eq] at told
    rw [eq]
    exact told

end Programs

/-- Calls may nest as deep as they like. -/
theorem balanced_callWithin (depth : Nat) : Balanced (callWithin depth) := by
  induction depth with
  | zero => exact fun call source session ↦ returns_of_none rfl rfl rfl
  | succ depth ih =>
    intro call source session
    rw [callWithin]
    split
    · exact returns_of_none rfl rfl rfl
    · next known => exact returns_enterCall ih call source known

end Script

/-! ## Calls are scoped -/

/-- After a call those decoders are running that were before it, whatever loop made the
call and however it ends.  While the loop of a decoder runs it is the innermost, on top of
those that were running when it was called; where nothing runs there is none.  The calls of
scripts are no exception, and what a script reports of the running decoders is so. -/
theorem calls_scoped :
    (∀ {ω σ : Type} [Sink σ] (c : Invocation σ) (body : Loop ω σ Unit) (session : Session ω),
      (c.decode body.run session).2.session.running = session.running) ∧
    (∀ {ω σ α : Type} (loop : Loop ω σ α) (f : Frame σ ω) (inside : List Binding)
      (s : Session ω), loop.Meets f inside s →
        s.running = f.session.running ++ inside ∧
        (∀ outer d, inside = outer ++ [d] →
          s.Innermost d (f.session.running ++ outer).length) ∧
        (f.session.running = [] → inside = [] → s.active = .error .noActiveDecoder)) ∧
    ∀ depth call source session,
      Script.Returns call session (Script.callWithin depth call source session) := by
  refine ⟨fun c body session ↦ ?_, fun loop f inside s meets ↦ ?_, fun depth call source session ↦
    Script.balanced_callWithin depth call source session⟩
  · exact Range.running_decode _ _ _ body.own_run _ _ session
  · refine ⟨meets.running_eq, fun outer d path ↦ ?_, fun idle path ↦ ?_⟩
    · subst path
      exact Session.innermost_of_running (by rw [meets.running_eq, List.append_assoc])
    · subst path
      exact Session.active_of_idle (by rw [meets.running_eq, idle, List.append_nil])

/-- A table decoder is called by another one and fails; then a call fails before its loop.
Both failures are caught, and the calling decoder is still the innermost. -/
theorem calls_scoped_nested :
    let inner : Invocation Transcript :=
      { settings := { name := "inner" }, symbols := some {}, source := { data := [1] }, sink := {} }
    let far : Invocation Transcript := { inner with range := { offset := 2 } }
    let outer : Invocation Transcript :=
      { settings := { name := "outer" }, source := { data := [1, 2] }, sink := {} }
    let failing : Loop Unit Transcript Unit := .done (.error .empty)
    let body : Loop Unit Transcript Unit :=
      .call inner failing fun _ ↦ .call far failing fun _ ↦ failing
    let thread : Loop Unit Transcript Unit := .call outer body fun _ ↦ .done (.ok ())
    let f : Frame Transcript Unit := ⟨{ source := { data := [] } }, { sink := {} }, { world := () }⟩
    (∃ s, thread.Meets f [outer.binding, inner.binding] s ∧ s.Innermost inner.binding 1) ∧
    (∃ g, outer.Opens f.session g ∧
      let s := (inner.decode failing.run g.session).2.session
      (far.decode failing.run s).1 = .error .outOfBounds ∧
      (far.decode failing.run s).2.session.Innermost outer.binding 0) ∧
    (outer.decode body.run f.session).1 = .error .empty ∧
    (outer.decode body.run f.session).2.session.active = .error .noActiveDecoder := by
  intro inner far outer failing body thread f
  obtain ⟨g, begun⟩ := outer.exists_opens rfl f.session
  obtain ⟨g', deeper⟩ := inner.exists_opens rfl g.session
  have inside : thread.Meets f [outer.binding, inner.binding] g'.session :=
    .within begun (.within deeper .here)
  have caught : thread.Meets f [outer.binding]
      (far.decode failing.run (inner.decode failing.run g.session).2.session).2.session :=
    .within begun (.returned rfl (.returned rfl .here))
  have ended : thread.Meets f [] (outer.decode body.run f.session).2.session :=
    .returned rfl .here
  refine ⟨⟨_, inside, (calls_scoped.2.1 thread f _ _ inside).2.1 [outer.binding] _ rfl⟩,
    ⟨g, begun, ?_, (calls_scoped.2.1 thread f _ _ caught).2.1 [] _ rfl⟩, ?_,
    (calls_scoped.2.1 thread f _ _ ended).2.2 rfl rfl⟩
  · cbv
  · cbv

end Disasm
