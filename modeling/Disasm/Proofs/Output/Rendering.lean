import Disasm.Proofs.Output.Deferred

/-!
# Texts are rendered transcripts

A text sink and a transcript see the same operations and keep account of lines in
two ways.  A text sink indents a line when the first text comes that it writes, at
the level of that moment; a transcript notes the level when the first piece of any
kind comes.  As long as the level changes only between lines, `Mirrors` holds after
every operation, and what the text sink has written is the transcript rendered line
by line.
-/

namespace Disasm

/-- Whether the level changes only between lines, where `begun` tells whether a piece
stands in the first line already. -/
def Operation.betweenLines : (begun : Bool) → List Operation → Bool
  | _, [] => true
  | _, .print .. :: ops => betweenLines true ops
  | _, .newline :: ops => betweenLines false ops
  | begun, .indent :: ops | begun, .unindent :: ops => !begun && betweenLines begun ops

theorem Text.Utf8.encode_append (s s' : String) : encode (s ++ s') = encode s ++ encode s' := by
  rw [encode, encode, encode, String.toList_append, List.flatMap_append]

/-- What is written of a piece of text. -/
def Channels.passed (channels : Channels) (kind : OutputKind) (text : String) : String :=
  if channels.accepts kind then text else ""

theorem Channels.passed_eq_empty_iff {channels : Channels} {kind : OutputKind} {text : String} :
    channels.passed kind text = "" ↔ text.isEmpty ∨ !channels.accepts kind := by
  rw [passed]
  split
  · next accepts => simp [accepts]
  · next refused => simp [refused]

theorem Channels.passed_of_ne {channels : Channels} {kind : OutputKind} {text : String}
    (something : channels.passed kind text ≠ "") : channels.passed kind text = text := by
  rw [passed] at something ⊢
  split
  · rfl
  · next refused => exact absurd (if_neg refused) something

/-! ## Rendering a transcript -/

namespace Transcript

/-- The pieces of a line that are of the accepted kinds. -/
def Line.accepted (channels : Channels) (l : Line) : String :=
  String.join ((l.segments.filter fun segment ↦ channels.accepts segment.1).map (·.2))

/-- A line as text: what is accepted of it stands behind the indentation, and where
nothing is, there is no indentation either. -/
def Line.rendered (channels : Channels) (width : Nat) (l : Line) : Bytes :=
  if l.accepted channels = "" then []
  else List.replicate (l.level * width) 0x20 ++ Text.Utf8.encode (l.accepted channels)

/-- A transcript as text: the lines that were ended, and the one that is being written. -/
def rendered (channels : Channels) (width : Nat) (t : Transcript) : Bytes :=
  t.lines.flatMap (fun l ↦ l.rendered channels width ++ [0x0A]) ++
    t.current.rendered channels width

variable (channels : Channels) (width : Nat)

theorem Line.accepted_concat (l : Line) (kind : OutputKind) (text : String) :
    Line.accepted channels { l with segments := l.segments ++ [(kind, text)] } =
      l.accepted channels ++ channels.passed kind text := by
  rw [accepted, accepted, List.filter_append, List.map_append, Channels.passed]
  split
  · next accepts => simp [accepts, String.join]
  · next refused => simp [refused, String.join]

/-- What is written comes behind the line, and begins it if nothing was written before. -/
theorem Line.rendered_concat (l : Line) (kind : OutputKind) (text : String) :
    Line.rendered channels width { l with segments := l.segments ++ [(kind, text)] } =
      l.rendered channels width ++
        if channels.passed kind text = "" then []
        else (if l.accepted channels = "" then List.replicate (l.level * width) 0x20 else []) ++
          Text.Utf8.encode (channels.passed kind text) := by
  rw [rendered, rendered, accepted_concat]
  by_cases nothing : channels.passed kind text = ""
  · rw [if_pos nothing, nothing, String.append_empty, List.append_nil]
  rw [if_neg nothing]
  by_cases blank : l.accepted channels = ""
  · rw [if_pos blank, if_pos blank, blank, String.empty_append, if_neg nothing, List.nil_append]
  · have more : l.accepted channels ++ channels.passed kind text ≠ "" := by simp [blank]
    rw [if_neg blank, if_neg blank, if_neg more, Text.Utf8.encode_append, List.append_assoc,
      List.nil_append]

end Transcript

/-! ## One operation -/

/-- The text sink has written what the transcript is rendered as, and both go on alike. -/
structure Mirrors (channels : Channels) (width : Nat) (s : TextSink) (t : Transcript) : Prop where
  unbounded : s.writer.capacity = none
  channels_eq : s.channels = channels
  indentWidth_eq : s.indentWidth = width
  level_eq : s.level = t.level
  contents_eq : s.writer.contents = t.rendered channels width
  /-- A text sink is at the start of a line as long as nothing of it was written. -/
  lineStart_iff : s.lineStart = true ↔ t.current.accepted channels = ""
  /-- The level has not changed since the line began. -/
  level_current : t.current.segments ≠ [] → t.current.level = t.level

namespace Mirrors

variable {channels : Channels} {width : Nat} {s : TextSink} {t : Transcript}

theorem fresh (channels : Channels) (width : Nat) :
    Mirrors channels width { channels, indentWidth := width } {} where
  unbounded := rfl
  channels_eq := rfl
  indentWidth_eq := rfl
  level_eq := rfl
  contents_eq := rfl
  lineStart_iff := ⟨fun _ ↦ rfl, fun _ ↦ rfl⟩
  level_current filled := absurd rfl filled

/-- A line that begins now or has begun before is at the present level. -/
theorem begun_eq (h : Mirrors channels width s t) :
    t.begun = ⟨t.level, t.current.segments⟩ := by
  rw [Transcript.begun]
  split
  · rfl
  · next filled => rw [← h.level_current (by simpa using filled)]

theorem rendered_begun (h : Mirrors channels width s t) :
    t.begun.rendered channels width = t.current.rendered channels width := by
  by_cases empty : t.current.segments = []
  · have nothing : Transcript.Line.accepted channels ⟨t.level, t.current.segments⟩ = "" := by
      rw [empty]
      rfl
    rw [h.begun_eq, Transcript.Line.rendered, if_pos nothing]
    exact (if_pos nothing).symm
  · rw [h.begun_eq, ← h.level_current empty]

theorem print (h : Mirrors channels width s t) (kind : OutputKind) (text : String) :
    ∃ s', TextSink.perform (.print kind text) s = .ok () s' ∧
      Mirrors channels width s' (t.print kind text) := by
  have current : (t.print kind text).current =
      ⟨t.level, t.current.segments ++ [(kind, text)]⟩ := by
    rw [Transcript.print, h.begun_eq]
  have accepted : (t.print kind text).current.accepted channels =
      t.current.accepted channels ++ channels.passed kind text := by
    rw [current]
    exact Transcript.Line.accepted_concat channels t.current kind text
  have padding : (if s.lineStart then s.padding else []) =
      if t.current.accepted channels = "" then List.replicate (t.level * width) 0x20 else [] := by
    rw [TextSink.padding, h.level_eq, h.indentWidth_eq]
    exact if_congr h.lineStart_iff rfl rfl
  have rendered : (t.print kind text).rendered channels width = s.writer.contents ++
      if channels.passed kind text = "" then []
      else (if s.lineStart then s.padding else []) ++
        Text.Utf8.encode (channels.passed kind text) := by
    have line := Transcript.Line.rendered_concat channels width t.begun kind text
    rw [h.rendered_begun, h.begun_eq] at line
    rw [h.contents_eq, Transcript.rendered, Transcript.rendered, current, line,
      List.append_assoc, padding]
    rfl
  have level_current : (t.print kind text).current.level = t.level := by rw [current]
  have skipped : text.isEmpty ∨ !s.channels.accepts kind ↔ channels.passed kind text = "" := by
    rw [Channels.passed_eq_empty_iff, h.channels_eq]
  refine ⟨_, TextSink.print_of_unbounded h.unbounded kind text, ?_⟩
  by_cases nothing : channels.passed kind text = ""
  · rw [if_pos (skipped.2 nothing)]
    rw [nothing, String.append_empty] at accepted
    rw [if_pos nothing, List.append_nil] at rendered
    exact { h with
      contents_eq := rendered.symm
      lineStart_iff := accepted ▸ h.lineStart_iff
      level_current := fun _ ↦ level_current }
  · rw [if_neg (mt skipped.1 nothing)]
    rw [if_neg nothing, Channels.passed_of_ne nothing] at rendered
    refine { h with
      contents_eq := rendered.symm
      lineStart_iff := ⟨fun started ↦ Bool.noConfusion started, fun blank ↦ ?_⟩
      level_current := fun _ ↦ level_current }
    rw [accepted, String.append_eq_empty_iff] at blank
    exact absurd blank.2 nothing

theorem newline (h : Mirrors channels width s t) :
    ∃ s', TextSink.perform .newline s = .ok () s' ∧ Mirrors channels width s' t.newline := by
  refine ⟨_, Action.bind_of_ok (TextSink.write_of_unbounded h.unbounded [0x0A]), ?_⟩
  have rendered : t.newline.rendered channels width = t.rendered channels width ++ [0x0A] := by
    change (t.lines ++ [t.begun]).flatMap _ ++ [] = _
    rw [List.append_nil, List.flatMap_append, List.flatMap_singleton, h.rendered_begun,
      ← List.append_assoc]
    rfl
  exact { h with
    contents_eq := (congrArg (· ++ [0x0A]) h.contents_eq).trans rendered.symm
    lineStart_iff := ⟨fun _ ↦ rfl, fun _ ↦ rfl⟩
    level_current := fun filled ↦ absurd rfl filled }

/-- The level may change where the line is empty. -/
theorem indented (h : Mirrors channels width s t) (empty : t.current.segments = [])
    (change : Nat → Nat) :
    Mirrors channels width { s with level := change s.level }
      { t with level := change t.level } :=
  { h with
    level_eq := congrArg change h.level_eq
    level_current := fun filled ↦ absurd empty filled }

/-- An operation that may come next does the same to both. -/
theorem perform (h : Mirrors channels width s t) {begun : Bool}
    (begins : begun = false → t.current.segments = []) {op : Operation} {ops : List Operation}
    (between : Operation.betweenLines begun (op :: ops) = true) :
    ∃ s' begun', TextSink.perform op s = .ok () s' ∧
      Mirrors channels width s' (t.perform op) ∧
      (begun' = false → (t.perform op).current.segments = []) ∧
      Operation.betweenLines begun' ops = true := by
  cases op with
  | print kind text =>
    obtain ⟨s', performed, mirrors⟩ := h.print kind text
    exact ⟨s', true, performed, mirrors, nofun, between⟩
  | newline =>
    obtain ⟨s', performed, mirrors⟩ := h.newline
    exact ⟨s', false, performed, mirrors, fun _ ↦ rfl, between⟩
  | indent =>
    obtain ⟨fresh, later⟩ := Bool.and_eq_true_iff.1 between
    have empty := begins (by simpa using fresh)
    exact ⟨_, begun, rfl, h.indented empty (· + 1), fun _ ↦ empty, later⟩
  | unindent =>
    obtain ⟨fresh, later⟩ := Bool.and_eq_true_iff.1 between
    have empty := begins (by simpa using fresh)
    exact ⟨_, begun, rfl, h.indented empty (· - 1), fun _ ↦ empty, later⟩

/-! ## A whole sequence -/

theorem applyAll (h : Mirrors channels width s t) {begun : Bool}
    (begins : begun = false → t.current.segments = []) {ops : List Operation}
    (between : Operation.betweenLines begun ops = true) :
    ∃ s', Sink.applyAll ops s = .ok () s' ∧
      Mirrors channels width s' (ops.foldl Transcript.perform t) := by
  induction ops generalizing s t begun with
  | nil => exact ⟨s, rfl, h⟩
  | cons op ops ih =>
    obtain ⟨s₁, begun₁, performed, mirrors, begins₁, later⟩ := h.perform begins between
    obtain ⟨s', applied, last⟩ := ih mirrors begins₁ later
    exact ⟨s', (Action.bind_of_ok performed).trans applied, last⟩

end Mirrors

end Disasm
