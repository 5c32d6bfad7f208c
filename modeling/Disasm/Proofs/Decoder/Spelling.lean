import Disasm.Proofs.Decoder.Render

/-!
# How operands are spelled

What rendering prints of operands can be told without a window and without a queue: from the
bytes to come, the byte order, the symbols and the place where the instruction begins.  `spell`
tells it, or the error that it comes to; a branch by `d` from `start` is the label of
`start + d` if that is an address.  An action `Spells` a text if that is what it puts into
the queue, and this is closed under going on.

Which bytes are to come is told by a `Prospect`.  Over any source they are those that the
source has left, and a window may fail to give them; a smooth window gives all that remain.
-/

namespace Disasm

/-! ## Spellings -/

/-- The bit pattern of a scalar at the front of the bytes. -/
def Bytes.scalarAt (order : ByteOrder) (k : Scalar) (bs : Bytes) : Except Error Nat :=
  if bs.length < k.size then .error .outOfBounds else .ok (order.value (bs.take k.size))

theorem Bytes.value_of_scalarAt {order : ByteOrder} {k : Scalar} {bs : Bytes} {bits : Nat}
    (there : bs.scalarAt order k = .ok bits) : order.value (bs.take k.size) = bits := by
  rw [scalarAt] at there
  split at there
  · cases there
  · exact Except.ok.inj there

namespace Operand

/-- What stands for a branch by `d` from `start`. -/
def branchTo (start : Nat) (d : Int) : Except Error (OutputKind × String) :=
  if 0 ≤ start + d ∧ start + d < 2 ^ (64 : Nat) then .ok (.label, label (start + d).toNat)
  else .error (.branchTarget start d)

/-- What stands for a branch whose offset is at the front of the bytes. -/
def spellBranch (start : Nat) (order : ByteOrder) (k : Scalar) (bs : Bytes) :
    Except Error (OutputKind × String) := do
  let bits ← bs.scalarAt order k
  branchTo start (k.signed bits)

/-- What stands for the branches of a jump table. -/
def spellBranches (start : Nat) (order : ByteOrder) :
    (count : Nat) → Bytes → Except Error (List (OutputKind × String))
  | 0, _ => .ok []
  | count + 1, bs => do
    let first ← spellBranch start order .i32 bs
    let rest ← spellBranches start order count (bs.drop 4)
    return first :: rest

/-- What stands for a jump table of so many branches. -/
def spellTable (start : Nat) (order : ByteOrder) (size : Int) (bs : Bytes) :
    Except Error (List (OutputKind × String)) := do
  if size < 0 then throw (.jumpTableSize size)
  let branches ← spellBranches start order size.toNat bs
  return (.operator, "[") :: branches.intersperse (.operator, ", ") ++ [(.operator, "]")]

/-- The text of a plain value. -/
def valueText (k : Scalar) (bits : Nat) : String :=
  match k with
  | .u8 | .u16 | .u32 | .u64 => Text.Hex.marked 1 bits
  | _ => k.text bits

/-- What stands for an index with its name. -/
def spellSymbol (symbols : Except Error Symbols) (order : ByteOrder) (k : Scalar) (bs : Bytes) :
    Except Error (List (OutputKind × String)) := do
  let index ← bs.scalarAt order k
  let name ← (← symbols).resolve index
  return [(.value, s!"#{index}"), (.comment, s!" /* {name} */")]

/-- What stands for an operand of an instruction at `start`, if `bs` are the bytes to come. -/
def spell (symbols : Except Error Symbols) (start : Nat) (order : ByteOrder) (bs : Bytes) :
    Operand → Except Error (List (OutputKind × String))
  | scalar k => do
    let bits ← bs.scalarAt order k
    return [(.value, valueText k bits)]
  | sym8 => spellSymbol symbols order .u8 bs
  | sym16 => spellSymbol symbols order .u16 bs
  | sym32 => spellSymbol symbols order .u32 bs
  | rel8 => do return [← spellBranch start order .i8 bs]
  | rel16 => do return [← spellBranch start order .i16 bs]
  | rel32 => do return [← spellBranch start order .i32 bs]
  | table32 => do
    let bits ← bs.scalarAt order .i32
    spellTable start order (Scalar.i32.signed bits) (bs.drop 4)

/-- What stands for each of several operands. -/
def spellEach (symbols : Except Error Symbols) (start : Nat) (order : ByteOrder) :
    List Operand → Bytes → Except Error (List (List (OutputKind × String)))
  | [], _ => .ok []
  | k :: ks, bs => do
    let first ← k.spell symbols start order bs
    let rest ← spellEach symbols start order ks (bs.drop (k.width order bs))
    return first :: rest

/-- What stands for all operands of an instruction, behind a space. -/
def spellAll (symbols : Except Error Symbols) (start : Nat) (order : ByteOrder) (bs : Bytes)
    (ks : List Operand) : Except Error (List (OutputKind × String)) := do
  let parts ← spellEach symbols start order ks bs
  return if parts.isEmpty then [] else (.plain, " ") :: [(.operator, ", ")].intercalate parts

end Operand

/-! ## The bytes to come -/

namespace Window

/-- A way to tell the bytes to come.  A window that offers some gives them one after the other,
or fails for lack of them; other failures are excused. -/
structure Prospect where
  Offers : Bytes → Window → Prop
  Excused : Error → Prop
  scalar : ∀ (k : Scalar) {bs : Bytes} {w : Window}, Offers bs w →
    match Window.scalar k w with
    | .ok bits w' => bs.scalarAt w.order k = .ok bits ∧ Offers (bs.drop k.size) w'
    | .error e _ => bs.scalarAt w.order k = .error e ∨ Excused e

/-- The bytes that a window has read ahead, and those that its source has left. -/
def stream (w : Window) : Bytes := w.unread ++ w.source.data

/-- A window may fail to give the bytes that its source has left: they may lie behind its limit,
and the source may refuse to be read or end early. -/
def ofStream : Prospect where
  Offers bs w := w.Settled ∧ bs = w.stream
  Excused e := e = .outOfBounds ∨ e = .readDenied
  scalar := by
    rintro k _ w ⟨settled, rfl⟩
    obtain ⟨r, w', asked, eq⟩ := consumes_scalar k w settled.pending_le
    rw [eq]
    cases asked with
    | short => exact .inr (.inl rfl)
    | denied => exact .inr (.inr rfl)
    | enough pulled there =>
      have same : w.stream = w'.stream := by
        rw [stream, stream, pulled.unread_eq settled.pending_le, List.append_assoc, pulled.source]
      have long : ¬w.stream.length < k.size := by
        rw [same, stream, List.length_append]
        omega
      refine ⟨?_, (pulled.settled settled).consume there, ?_⟩
      · rw [Bytes.scalarAt, if_neg long, same, stream, List.take_append_of_le_length there]
      · rw [same, stream, stream, unread_consume, source_consume,
          List.drop_append_of_le_length there]

/-- A smooth window gives all that remain. -/
def ofRemaining : Prospect where
  Offers bs w := w.Smooth ∧ bs = w.remaining
  Excused _ := False
  scalar := by
    rintro k _ w ⟨smooth, rfl⟩
    obtain ⟨r, w', asked, eq⟩ := consumes_scalar k w smooth.pending_le
    obtain ⟨smooth', same, ⟨few, rfl⟩ | ⟨enough, there, rfl⟩⟩ := asked.on_tape smooth
    · rw [eq]
      exact .inl (if_pos few)
    · rw [eq]
      refine ⟨if_neg (Nat.not_lt.2 enough), smooth'.consume there, ?_⟩
      rw [remaining_consume smooth'.pending_le there]
      exact congrArg (fun t : Tape ↦ t.remaining.drop k.size) same.symm

end Window

/-! ## Actions that spell -/

namespace Frame

open Window (Prospect)

variable {σ ω α β : Type}

/-- What an action that spells a text may end with: the text waits in the queue, and `rest` are
the bytes behind it; or it has failed as the spelling does. -/
inductive Spelled (P : Prospect) (spelling : Except Error (List (OutputKind × String)))
    (rest : Bytes) (f : Frame σ ω) : EStateM.Result Error (Frame σ ω) α → Prop
  | done {a : α} {segments : List (OutputKind × String)} {n : Nat} {f' : Frame σ ω} :
      Grown segments n f f' → spelling = .ok segments → P.Offers rest f'.input →
      Spelled P spelling rest f (.ok a f')
  | failed {e : Error} {segments : List (OutputKind × String)} {n : Nat} {f' : Frame σ ω} :
      Grown segments n f f' → spelling = .error e ∨ P.Excused e →
      Spelled P spelling rest f (.error e f')

/-- Inside a line the action spells a text, which the symbols, the byte order and the bytes to
come decide, and reads `need` bytes for it. -/
def Spells (P : Prospect)
    (spelling : Except Error Symbols → ByteOrder → Bytes →
      Except Error (List (OutputKind × String)))
    (need : ByteOrder → Bytes → Nat) (action : Action σ ω α) : Prop :=
  ∀ f bs, f.Held → P.Offers bs f.input →
    Spelled P (spelling f.session.activeSymbols f.input.order bs)
      (bs.drop (need f.input.order bs)) f (action f)

/-- A failure of the first action is one of the whole, and what the second one spells comes
behind what the first has. -/
theorem Spelled.bind {P : Prospect} {first second whole : Except Error (List (OutputKind × String))}
    {between rest : Bytes} {f : Frame σ ω} {x : Action σ ω α} {g : α → Action σ ω β}
    (held : f.Held) (hx : Spelled P first between f (x f))
    (whole_eq : whole = first >>= fun front ↦ second.map (front ++ ·))
    (hg : ∀ a segments n f', Grown segments n f f' → P.Offers between f'.input →
      Spelled P second rest f' (g a f')) :
    Spelled P whole rest f ((x >>= g) f) := by
  subst whole_eq
  cases ran : x f with
  | error e f₁ =>
    rw [ran] at hx
    rw [Action.bind_of_error ran]
    cases hx with
    | failed grown fault => exact .failed grown (fault.imp_left fun eq ↦ by rw [eq]; rfl)
  | ok a f₁ =>
    rw [ran] at hx
    rw [Action.bind_of_ok ran]
    cases hx with
    | @done _ segments n _ grown eq offers =>
      have later := hg a segments n f₁ grown offers
      have both : (first >>= fun front ↦ second.map (front ++ ·)) = second.map (segments ++ ·) := by
        rw [eq]
        rfl
      rw [both]
      generalize g a f₁ = result at later
      cases later with
      | done grown' eq' offers' => exact .done (grown.trans grown' held) (by rw [eq']; rfl) offers'
      | failed grown' fault =>
        exact .failed (grown.trans grown' held) (fault.imp_left fun eq' ↦ by rw [eq']; rfl)

/-- What was read before and spelled nothing does not show. -/
theorem Spelled.after {P : Prospect} {spelling : Except Error (List (OutputKind × String))}
    {rest : Bytes} {n : Nat} {f f₁ : Frame σ ω} {result : EStateM.Result Error (Frame σ ω) α}
    (later : Spelled P spelling rest f₁ result) (grown : Grown [] n f f₁) (held : f.Held) :
    Spelled P spelling rest f result := by
  cases later with
  | done grown' eq offers => exact .done (grown.trans grown' held) eq offers
  | failed grown' fault => exact .failed (grown.trans grown' held) fault

namespace Spells

variable {P : Prospect} {need need' : ByteOrder → Bytes → Nat}
  {spelling spelling' : Except Error Symbols → ByteOrder → Bytes →
    Except Error (List (OutputKind × String))}

theorem congr {x : Action σ ω α} (hx : Spells P spelling need x)
    (same : ∀ symbols order bs, spelling symbols order bs = spelling' symbols order bs) :
    Spells P spelling' need x := by
  intro f bs held offers
  rw [← same]
  exact hx f bs held offers

theorem pure (a : α) : Spells P (fun _ _ _ ↦ .ok []) (fun _ _ ↦ 0) (Pure.pure a : Action σ ω α) :=
  fun _ _ held offers ↦ .done (.refl held) rfl offers

theorem throw (e : Error) :
    Spells P (fun _ _ _ ↦ .error e) need (MonadExcept.throw e : Action σ ω α) :=
  fun _ _ held _ ↦ .failed (.refl held) (.inl rfl)

theorem andThen {x : Action σ ω α} {y : Action σ ω β} (hx : Spells P spelling need x)
    (hy : Spells P spelling' need' y) :
    Spells P
      (fun symbols order bs ↦ do
        let front ← spelling symbols order bs
        (spelling' symbols order (bs.drop (need order bs))).map (front ++ ·))
      (fun order bs ↦ need order bs + need' order (bs.drop (need order bs)))
      (x >>= fun _ ↦ y) := by
  intro f bs held offers
  refine (hx f bs held offers).bind held rfl fun a segments n f' grown offers' ↦ ?_
  have second := hy f' _ (grown.held held) offers'
  rwa [grown.session_eq, grown.moved.order_eq, List.drop_drop] at second

/-- What is spelled after a scalar may depend on its value. -/
theorem scalar {k : Scalar} {need : Nat → ByteOrder → Bytes → Nat}
    {spelling : Nat → Except Error Symbols → ByteOrder → Bytes →
      Except Error (List (OutputKind × String))}
    {g : Nat → Action σ ω α} (hg : ∀ bits, Spells P (spelling bits) (need bits) (g bits)) :
    Spells P
      (fun symbols order bs ↦ do
        let bits ← bs.scalarAt order k
        spelling bits symbols order (bs.drop k.size))
      (fun order bs ↦ k.size + need (order.value (bs.take k.size)) order (bs.drop k.size))
      (read (Window.scalar k) >>= g) := by
  intro f bs held offers
  dsimp only
  have given := P.scalar k offers
  have moved := (Window.consumes_scalar k).moved held.settled
  cases ran : Window.scalar k f.input with
  | error e w =>
    rw [ran] at given moved
    have failed : read (Window.scalar k) f = .error e { f with input := w } := by rw [read, ran]
    have grown : Grown [] 0 f { f with input := w } := ⟨moved, by simp [Operation.prints]⟩
    rw [Action.bind_of_error failed]
    refine .failed grown (given.imp_left fun eq ↦ ?_)
    rw [eq]
    rfl
  | ok bits w =>
    rw [ran] at given moved
    obtain ⟨value, offers'⟩ := given
    have done : read (Window.scalar k) f = .ok bits { f with input := w } := by rw [read, ran]
    have grown : Grown [] k.size f { f with input := w } := ⟨moved, by simp [Operation.prints]⟩
    have later := hg bits _ _ (grown.held held) offers'
    rw [grown.moved.order_eq, List.drop_drop] at later
    rw [Action.bind_of_ok done, value, Bytes.value_of_scalarAt value]
    exact later.after grown held

/-- A question that does not look at the session. -/
theorem given {answer : Except Error β}
    {spelling : β → Except Error Symbols → ByteOrder → Bytes →
      Except Error (List (OutputKind × String))}
    {g : β → Action σ ω α} (hg : ∀ b, Spells P (spelling b) need (g b)) :
    Spells P (fun symbols order bs ↦ answer >>= fun b ↦ spelling b symbols order bs) need
      (ask (fun _ ↦ answer) >>= g) := by
  intro f bs held offers
  cases answer with
  | error e =>
    have asked : (ask (fun _ ↦ .error e) : Action σ ω β) f = .error e f := rfl
    rw [Action.bind_of_error asked]
    exact .failed (.refl held) (.inl rfl)
  | ok b =>
    have asked : (ask (fun _ ↦ .ok b) : Action σ ω β) f = .ok b f := rfl
    rw [Action.bind_of_ok asked]
    exact hg b f bs held offers

/-- The question for the symbols of the running decoder. -/
theorem symbols
    {spelling : Symbols → Except Error Symbols → ByteOrder → Bytes →
      Except Error (List (OutputKind × String))}
    {g : Symbols → Action σ ω α} (hg : ∀ s, Spells P (spelling s) need (g s)) :
    Spells P (fun symbols order bs ↦ symbols >>= fun s ↦ spelling s symbols order bs) need
      (ask Session.activeSymbols >>= g) := by
  intro f bs held offers
  dsimp only
  cases known : f.session.activeSymbols with
  | error e =>
    have asked : (ask Session.activeSymbols : Action σ ω Symbols) f = .error e f := by
      rw [ask, known]
    rw [Action.bind_of_error asked]
    exact .failed (.refl held) (.inl rfl)
  | ok s =>
    have asked : (ask Session.activeSymbols : Action σ ω Symbols) f = .ok s f := by
      rw [ask, known]
    rw [Action.bind_of_ok asked]
    have later := hg s f bs held offers
    rwa [known] at later

section Sinks

variable [Sink σ]

theorem print (kind : OutputKind) (text : String) :
    Spells P (fun _ _ _ ↦ .ok [(kind, text)]) (fun _ _ ↦ 0)
      (write (Output.print kind text) : Action σ ω Unit) := by
  intro f bs held offers
  obtain ⟨f', printed, grown⟩ := write_print held (kind, text)
  rw [printed]
  exact .done grown rfl (input_of_write printed ▸ offers)

/-- A print in front. -/
theorem printFirst {x : Action σ ω α} (kind : OutputKind) (text : String)
    (hx : Spells P spelling need x) :
    Spells P (fun symbols order bs ↦ (spelling symbols order bs).map ((kind, text) :: ·)) need
      (write (Output.print kind text) >>= fun _ ↦ x) := by
  have both := (print kind text : Spells P _ _ (write _ : Action σ ω Unit)).andThen hx
  simp only [Nat.zero_add, List.drop_zero] at both
  exact both

end Sinks

end Spells

end Frame

/-! ## Separators -/

theorem intersperse_cons {α : Type} (separator first : α) (rest : List α) :
    (first :: rest).intersperse separator =
      first :: rest.flatMap fun next ↦ [separator, next] := by
  induction rest generalizing first with
  | nil => rfl
  | cons second rest ih =>
    rw [List.intersperse_cons_cons, ih, List.flatMap_cons]
    rfl

theorem intercalate_cons {α : Type} (separator : α) (first : List α) (rest : List (List α)) :
    [separator].intercalate (first :: rest) =
      first ++ rest.flatMap fun next ↦ separator :: next := by
  rw [List.intercalate, intersperse_cons, List.flatten_cons]
  congr 1
  induction rest with
  | nil => rfl
  | cons second rest ih =>
    rw [List.flatMap_cons, List.flatten_append, ih]
    simp

/-! ## Operands -/

namespace Operand

open Disasm.Frame (Spells)

variable {σ ω : Type} [Sink σ] {P : Window.Prospect}

/-- A branch is spelled as the label of its target. -/
theorem branchTo_eq (start : Nat) (d : Int) :
    branchTo start d = (target start d).map fun address ↦ (.label, label address) := by
  have bound : (addressBound : Int) = 2 ^ (64 : Nat) := rfl
  simp only [target, branchTo, bound]
  split
  · rfl
  · rfl

theorem spells_renderScalar (start : Nat) (k : Scalar) :
    Spells P (spell · start · · (.scalar k)) (fun _ _ ↦ k.size)
      (renderScalar k : Frame.Action σ ω Unit) :=
  .scalar fun bits ↦ .print .value (valueText k bits)

theorem spells_renderSymbol (k : Scalar) :
    Spells P (spellSymbol · · k) (fun _ _ ↦ k.size) (renderSymbol k : Frame.Action σ ω Unit) := by
  have named (index : Nat) (name : String) : Spells P
      (fun _ _ _ ↦ .ok [(.value, s!"#{index}"), (.comment, s!" /* {name} */")]) (fun _ _ ↦ 0)
      (do
        Frame.write (Output.print .value s!"#{index}")
        Frame.write (Output.print .comment s!" /* {name} */") : Frame.Action σ ω Unit) :=
    .printFirst _ _ (.print _ _)
  exact .scalar fun index ↦ .symbols fun s ↦ .given fun name ↦ named index name

theorem spells_renderBranch (start : Nat) (k : Scalar) :
    Spells P (fun _ order bs ↦ (spellBranch start order k bs).map ([·])) (fun _ _ ↦ k.size)
      (renderBranch start k : Frame.Action σ ω Unit) := by
  have branch (bits : Nat) : Spells P
      (fun _ _ _ ↦ (branchTo start (k.signed bits)).map ([·])) (fun _ _ ↦ 0)
      (do
        let address ← Frame.ask fun _ ↦ target start (k.signed bits)
        Frame.write (Output.print .label (label address)) : Frame.Action σ ω Unit) := by
    refine (Spells.given fun address ↦ .print .label (label address)).congr fun _ _ _ ↦ ?_
    rw [branchTo_eq]
    cases target start (k.signed bits) <;> rfl
  refine (Spells.scalar branch).congr fun symbols order bs ↦ ?_
  rw [spellBranch]
  cases bs.scalarAt order k <;> rfl

theorem spells_renderBranches (start count : Nat) :
    Spells P
      (fun _ order bs ↦ (spellBranches start order count bs).map
        (·.flatMap fun branch ↦ [(.operator, ", "), branch]))
      (fun _ _ ↦ 4 * count) (renderBranches start count : Frame.Action σ ω Unit) := by
  induction count with
  | zero => exact .pure ()
  | succ count ih =>
    have size : 4 * (count + 1) = 4 + 4 * count := by omega
    rw [size]
    refine (Spells.printFirst .operator ", " ((spells_renderBranch start .i32).andThen ih)).congr
      fun symbols order bs ↦ ?_
    rw [spellBranches]
    cases spellBranch start order .i32 bs with
    | error e => rfl
    | ok branch =>
      change ((((spellBranches start order count (bs.drop 4)).map _).map _).map _) = _
      cases spellBranches start order count (bs.drop 4) <;> rfl

/-- What stands between the brackets of a jump table. -/
theorem spells_branches (start count : Nat) :
    Spells P
      (fun _ order bs ↦ (spellBranches start order count bs).map
        (·.intersperse (.operator, ", ") ++ [(.operator, "]")]))
      (fun _ _ ↦ 4 * count)
      (do
        match count with
        | 0 => pure ()
        | count + 1 =>
          renderBranch start .i32
          renderBranches start count
        Frame.write (Output.print .operator "]") : Frame.Action σ ω Unit) := by
  cases count with
  | zero => exact .print .operator "]"
  | succ count =>
    have size : 4 * (count + 1) = 4 + (4 * count + 0) := by omega
    rw [size]
    refine ((spells_renderBranch start .i32).andThen
      ((spells_renderBranches start count).andThen (.print .operator "]"))).congr
      fun symbols order bs ↦ ?_
    rw [spellBranches]
    cases spellBranch start order .i32 bs with
    | error e => rfl
    | ok branch =>
      change Except.map _ (Except.map _ (spellBranches start order count (bs.drop 4)) >>= _) =
        Except.map _ (spellBranches start order count (bs.drop 4) >>= _)
      cases spellBranches start order count (bs.drop 4) with
      | error e => rfl
      | ok branches =>
        change Except.ok _ = Except.ok _
        dsimp only
        rw [intersperse_cons]
        rfl

/-- A jump table is its size and as many branches. -/
theorem spells_renderTable (start : Nat) :
    Spells P (spell · start · · .table32) (width · · .table32)
      (renderTable start : Frame.Action σ ω Unit) := by
  refine Spells.congr (@Spells.scalar σ ω Unit P .i32
    (fun bits _ _ ↦ 4 * (Scalar.i32.signed bits).toNat)
    (fun bits _ order bs ↦ spellTable start order (Scalar.i32.signed bits) bs) _ fun bits ↦ ?_)
    fun symbols order bs ↦ ?_
  · dsimp only
    by_cases negative : Scalar.i32.signed bits < 0
    · rw [if_pos negative]
      refine Spells.congr (.throw _) fun symbols order bs ↦ ?_
      rw [spellTable, if_pos negative]
      rfl
    · rw [if_neg negative]
      refine (Spells.printFirst .operator "[" (spells_branches start _)).congr
        fun symbols order bs ↦ ?_
      rw [spellTable, if_neg negative]
      cases spellBranches start order (Scalar.i32.signed bits).toNat bs <;> rfl
  · rw [spell]
    cases bs.scalarAt order .i32 <;> rfl

theorem spells_render (start : Nat) (k : Operand) :
    Spells P (spell · start · · k) (width · · k) (k.render start : Frame.Action σ ω Unit) := by
  have single {k : Scalar} (symbols : Except Error Symbols) (order : ByteOrder) (bs : Bytes) :
      (spellBranch start order k bs).map ([·]) = do return [← spellBranch start order k bs] := by
    cases spellBranch start order k bs <;> rfl
  cases k with
  | scalar k => exact spells_renderScalar start k
  | sym8 => exact spells_renderSymbol .u8
  | sym16 => exact spells_renderSymbol .u16
  | sym32 => exact spells_renderSymbol .u32
  | rel8 => exact (spells_renderBranch start .i8).congr single
  | rel16 => exact (spells_renderBranch start .i16).congr single
  | rel32 => exact (spells_renderBranch start .i32).congr single
  | table32 => exact spells_renderTable start

theorem spells_renderRest (start : Nat) (ks : List Operand) :
    Spells P
      (fun symbols order bs ↦ (spellEach symbols start order ks bs).map
        (·.flatMap fun part ↦ (.operator, ", ") :: part))
      (widths · ks) (renderRest start ks : Frame.Action σ ω Unit) := by
  induction ks with
  | nil => exact .pure ()
  | cons k ks ih =>
    refine (Spells.printFirst .operator ", " ((spells_render start k).andThen ih)).congr
      fun symbols order bs ↦ ?_
    rw [spellEach]
    cases k.spell symbols start order bs with
    | error e => rfl
    | ok part =>
      change Except.map _ (Except.map _ (Except.map _ (spellEach ..))) =
        Except.map _ (spellEach symbols start order ks _ >>= _)
      cases spellEach symbols start order ks (bs.drop (k.width order bs)) <;> rfl

theorem spells_renderAll (start : Nat) (ks : List Operand) :
    Spells P (spellAll · start · · ks) (widths · ks)
      (renderAll start ks : Frame.Action σ ω Unit) := by
  cases ks with
  | nil => exact .pure ()
  | cons k ks =>
    refine (Spells.printFirst .plain " "
      ((spells_render start k).andThen (spells_renderRest start ks))).congr
      fun symbols order bs ↦ ?_
    rw [spellAll, spellEach]
    cases k.spell symbols start order bs with
    | error e => rfl
    | ok part =>
      change Except.map _ (Except.map _ (Except.map _ (spellEach symbols start order ks _))) =
        ((spellEach symbols start order ks _ >>= _) >>= _)
      cases spellEach symbols start order ks (bs.drop (k.width order bs)) with
      | error e => rfl
      | ok parts =>
        have joined := intercalate_cons (OutputKind.operator, ", ") part parts
        exact congrArg (fun segments ↦ Except.ok ((OutputKind.plain, " ") :: segments)) joined.symm

end Operand

end Disasm
