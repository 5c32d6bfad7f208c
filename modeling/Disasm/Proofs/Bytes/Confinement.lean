import Disasm.Bytes.Cursor.Program
import Disasm.Proofs.Bytes.Shortage

/-!
# Cursors stay inside their data

No read, move or transaction takes a cursor out of its data.  What fails leaves the cursor
where it was, but for a number in groups and a text: these are consumed as they are read, and
their failure at least does not take the cursor back.  A transaction that fails goes back to
where it began, whatever was done inside.

This is said of programs, whose transactions end at the first failure, and of closures, which
choose each step by what the last one answered and go on after a failure if they like.
-/

namespace Disasm.Cursor

variable {α β : Type} {c c' c'' : Cursor}

/-- The answer of a read. -/
def outcome : EStateM.Result Error Cursor α → Except Error α
  | .ok a _ => .ok a
  | .error e _ => .error e

/-- The cursor after a read. -/
def after : EStateM.Result Error Cursor α → Cursor
  | .ok _ c | .error _ c => c

/-! ## Cursors over the same data -/

/-- The cursor `c'` is inside the data of `c`. -/
structure Within (c c' : Cursor) : Prop where
  data : c'.data = c.data
  order : c'.order = c.order
  inside : c'.position ≤ c.data.length

namespace Within

theorem refl (inside : c.position ≤ c.data.length) : Within c c := ⟨rfl, rfl, inside⟩

theorem own (h : Within c c') : c'.position ≤ c'.data.length := h.data ▸ h.inside

theorem trans (first : Within c c') (second : Within c' c'') : Within c c'' where
  data := second.data.trans first.data
  order := second.order.trans first.order
  inside := first.data ▸ second.inside

/-- To go back is to be as before. -/
theorem back (h : Within c c') : { c' with position := c.position } = c := by
  rw [h.data, h.order]

end Within

/-! ## Reads that only go on -/

/-- The read takes the cursor neither back nor out of its data, also if it fails. -/
def Advances (read : Read α) : Prop :=
  ∀ c, c.position ≤ c.data.length →
    Within c (after (read c)) ∧ c.position ≤ (after (read c)).position

namespace Advances

variable {read : Read α} {f : α → Read β}

theorem pure (a : α) : Advances (pure a) := fun _ inside ↦ ⟨.refl inside, Nat.le_refl _⟩

theorem throw (e : Error) : Advances (throw e : Read α) := fun _ inside ↦
  ⟨.refl inside, Nat.le_refl _⟩

theorem bind (first : Advances read) (second : ∀ a, Advances (f a)) : Advances (read >>= f) := by
  intro c inside
  obtain ⟨within, le⟩ := first c inside
  cases result : read c with
  | error e c' =>
    rw [result] at within le
    rw [Action.bind_of_error result]
    exact ⟨within, le⟩
  | ok a c' =>
    rw [result] at within le
    rw [Action.bind_of_ok result]
    obtain ⟨within', le'⟩ := second a c' within.own
    exact ⟨within.trans within', Nat.le_trans le le'⟩

theorem get {g : Cursor → Read β} (h : ∀ c, Advances (g c)) : Advances (MonadState.get >>= g) :=
  fun c inside ↦ h c c inside

end Advances

theorem advances_byte : Advances byte := by
  intro c inside
  rw [byte_eq]
  cases there : c.data[c.position]? with
  | none => exact ⟨.refl inside, Nat.le_refl _⟩
  | some b =>
    have before := (List.getElem?_eq_some_iff.1 there).1
    exact ⟨⟨rfl, rfl, before⟩, Nat.le_succ _⟩

theorem advances_bytes (count : Nat) : Advances (bytes count) := by
  intro c inside
  rw [bytes]
  cases there : c.data.slice? c.position count with
  | none => exact ⟨.refl inside, Nat.le_refl _⟩
  | some bs =>
    obtain ⟨-, fits, -⟩ := Bytes.slice?_eq_some_iff.1 there
    exact ⟨⟨rfl, rfl, fits⟩, Nat.le_add_right _ _⟩

theorem advances_groups (count index value : Nat) : Advances (groups count index value) := by
  induction count generalizing index value with
  | zero => exact .throw .groupOverflow
  | succ count ih =>
    refine advances_byte.bind fun b ↦ ?_
    split
    · exact .pure _
    · exact ih _ _

theorem advances_text : Advances text := by
  refine (advances_groups 5 0 0).bind fun length ↦ .get fun c ↦ ?_
  refine (advances_bytes length).bind fun bs ↦ ?_
  split
  · exact .pure _
  · exact .throw _

/-! ## Reads that are done whole -/

/-- The read goes on, or it fails and the cursor does not move. -/
structure Whole (read : Read α) : Prop where
  advances : Advances read
  atomic : Action.Atomic read

namespace Whole

variable {read : Read α}

theorem pure (a : α) : Whole (pure a) := ⟨.pure a, .pure a⟩

theorem throw (e : Error) : Whole (throw e : Read α) := ⟨.throw e, .throw e⟩

theorem map (h : Whole read) (g : α → β) : Whole (do return g (← read)) :=
  ⟨h.advances.bind fun a ↦ .pure (g a), h.atomic.map g⟩

theorem get {g : Cursor → Read β} (h : ∀ c, Whole (g c)) : Whole (MonadState.get >>= g) :=
  ⟨.get fun c ↦ (h c).advances, .get fun c ↦ (h c).atomic⟩

/-- A read that only looks. -/
theorem look (still : ∀ c, after (read c) = c) : Whole read where
  advances c inside := by
    rw [still]
    exact ⟨.refl inside, Nat.le_refl _⟩
  atomic c e c' failed := by
    have same := still c
    rwa [failed] at same

end Whole

theorem whole_bytes (count : Nat) : Whole (bytes count) where
  advances := advances_bytes count
  atomic c e c' failed := by
    rw [bytes] at failed
    split at failed
    · cases failed
      rfl
    · cases failed

theorem whole_scalarIn (order : ByteOrder) (k : Scalar) : Whole (scalarIn order k) :=
  (whole_bytes k.size).map order.value

theorem whole_uint (width : Nat) : Whole (uint width) := by
  rw [uint]
  split
  · exact .throw _
  · exact (whole_bytes width).map Bytes.value

theorem whole_endOf (count : Nat) : Whole (endOf count) := by
  refine .look fun c ↦ ?_
  rw [endOf]
  cases c.data.slice? c.position count <;> rfl

theorem whole_peek : Whole peek := by
  refine .look fun c ↦ ?_
  rw [peek]
  cases c.data[c.position]? <;> rfl

/-- To skip bytes is to read them and to forget them. -/
theorem advance_eq (count : Nat) : advance count = bytes count >>= fun _ ↦ pure () := by
  funext c
  cases there : c.data.slice? c.position count with
  | none => simp only [advance, endOf, bytes, bind, EStateM.bind, there]
  | some bs =>
    simp only [advance, endOf, bytes, bind, EStateM.bind, there]
    rfl

/-! ## Steps -/

/-- Whether the bytes of a step are consumed one by one as they are read. -/
def Step.gradual : Step → Bool
  | int7 | text => true
  | _ => false

/-- What a step or a transaction from `c` comes to. -/
structure Confined (gradual : Bool) (c : Cursor) (ok : Bool) (c' : Cursor) : Prop where
  /-- The cursor is inside the data. -/
  within : Within c c'
  /-- It does not go back where bytes are consumed as they are read. -/
  onward : gradual = true → c.position ≤ c'.position
  /-- It does not move in any other failure. -/
  unmoved : gradual = false → ok = false → c' = c

namespace Confined

theorem refl (gradual ok : Bool) (inside : c.position ≤ c.data.length) :
    Confined gradual c ok c :=
  ⟨.refl inside, fun _ ↦ Nat.le_refl _, fun _ _ ↦ rfl⟩

theorem succeeded (within : Within c c') : Confined false c true c' := ⟨within, nofun, nofun⟩

/-- A failure may go back to where all began. -/
theorem failed (inside : c.position ≤ c.data.length) (within : Within c c') :
    Confined false c false { c' with position := c.position } := by
  rw [within.back]
  exact .refl false false inside

end Confined

theorem Advances.confined {read : Read α} (h : Advances read)
    (inside : c.position ≤ c.data.length) :
    Confined true c (outcome (read c)).isOk (after (read c)) where
  within := (h c inside).1
  onward _ := (h c inside).2
  unmoved := nofun

theorem Whole.confined {read : Read α} (h : Whole read) (inside : c.position ≤ c.data.length) :
    Confined false c (outcome (read c)).isOk (after (read c)) where
  within := (h.advances c inside).1
  onward := nofun
  unmoved _ failed := by
    cases result : read c with
    | ok a c' =>
      rw [result] at failed
      cases failed
    | error e c' => exact h.atomic c e c' result

theorem confined_seek (position : Nat) (inside : c.position ≤ c.data.length) :
    Confined false c (outcome ((Step.seek position).perform c)).isOk
      (after ((Step.seek position).perform c)) := by
  rw [Step.perform]
  by_cases beyond : c.data.length < position
  · have failed : seek position c = .error .outOfBounds c := if_pos beyond
    rw [Action.bind_of_error failed]
    exact .refl false false inside
  · have moved : seek position c = .ok () { c with position } := if_neg beyond
    rw [Action.bind_of_ok moved]
    exact .succeeded ⟨rfl, rfl, Nat.le_of_not_lt beyond⟩

theorem confined_perform (s : Step) (inside : c.position ≤ c.data.length) :
    Confined s.gradual c (outcome (s.perform c)).isOk (after (s.perform c)) := by
  cases s with
  | scalar k => exact ((Whole.get fun c ↦ whole_scalarIn c.order k).map _).confined inside
  | scalarIn order k => exact ((whole_scalarIn order k).map _).confined inside
  | uint width => exact ((whole_uint width).map _).confined inside
  | int7 => exact ((advances_groups 5 0 0).bind fun n ↦ .pure _).confined inside
  | text => exact (advances_text.bind fun s ↦ .pure _).confined inside
  | bytes count => exact ((whole_bytes count).map _).confined inside
  | seek position => exact confined_seek position inside
  | advance count =>
    rw [Step.perform, advance_eq]
    exact (((whole_bytes count).map fun _ ↦ ()).map fun _ ↦ Value.unit).confined inside
  | peek => exact (whole_peek.map _).confined inside
  | endOf count => exact ((whole_endOf count).map _).confined inside
  | info => exact (Whole.get fun c ↦ .pure (Value.data c.data c.order)).confined inside
  | fail => exact (Whole.throw .empty).confined inside

/-- A transaction goes where its work has gone, or it fails and goes back. -/
theorem confined_transactional {read : Read α} (inside : c.position ≤ c.data.length)
    (within : Within c (after (read c))) :
    Confined false c (outcome (transactional read c)).isOk (after (transactional read c)) := by
  rw [transactional]
  cases result : read c with
  | ok a c' =>
    rw [result] at within
    exact .succeeded within
  | error e c' =>
    rw [result] at within
    exact .failed inside within

/-! ## Programs -/

/-- The records of a run from `c` are those of confined steps and transactions.  With `halting`
a failure is the last record. -/
def Program.Kept (halting : Bool) : Program → Cursor → List Record → Prop
  | done, _, records => records = []
  | step s rest, c, records =>
    ∃ result c' more, records = .mk result [] c' :: more ∧ Confined s.gradual c result.isOk c' ∧
      if halting ∧ ¬result.isOk then more = [] else rest.Kept halting c' more
  | transactional body rest, c, records =>
    ∃ result inner c' more, records = .mk result inner c' :: more ∧ body.Kept true c inner ∧
      Confined false c result.isOk c' ∧
      if halting ∧ ¬result.isOk then more = [] else rest.Kept halting c' more

theorem kept_run (halting : Bool) (p : Program) (inside : c.position ≤ c.data.length) :
    p.Kept halting c (p.run halting c).records ∧ Within c (p.run halting c).cursor := by
  induction p generalizing halting c with
  | done => exact ⟨rfl, .refl inside⟩
  | step s rest ih =>
    have first := confined_perform s inside
    rw [Program.run]
    cases result : s.perform c with
    | ok v c' =>
      rw [result] at first
      obtain ⟨more, last⟩ := ih halting first.within.own
      refine ⟨⟨.ok v, c', _, rfl, first, ?_⟩, first.within.trans last⟩
      rwa [if_neg (by simp [Except.isOk, Except.toBool])]
    | error e c' =>
      rw [result] at first
      obtain ⟨more, last⟩ := ih halting first.within.own
      cases halting with
      | true => exact ⟨⟨.error e, c', [], rfl, first, rfl⟩, first.within⟩
      | false => exact ⟨⟨.error e, c', _, rfl, first, more⟩, first.within.trans last⟩
  | transactional body rest ihBody ihRest =>
    -- Inside a transaction a failure ends the work, whatever it does outside.
    obtain ⟨inner, within⟩ := ihBody true inside
    rw [Program.run]
    cases failure : (body.run true c).failure with
    | none =>
      obtain ⟨more, last⟩ := ihRest halting within.own
      refine ⟨⟨.ok .unit, _, _, _, rfl, inner, .succeeded within, ?_⟩, within.trans last⟩
      rwa [if_neg (by simp [Except.isOk, Except.toBool])]
    | some e =>
      have first := Confined.failed inside within
      obtain ⟨more, last⟩ := ihRest halting first.within.own
      cases halting with
      | true => exact ⟨⟨.error e, _, _, [], rfl, inner, first, rfl⟩, first.within⟩
      | false => exact ⟨⟨.error e, _, _, _, rfl, inner, first, more⟩, first.within.trans last⟩

/-! ## Closures -/

/-- Work with a cursor that ends with an answer of type `α`. -/
inductive Closure : Type → Type 1
  | done {α : Type} (result : Except Error α) : Closure α
  | step {α : Type} (first : Step) (next : Except Error Value → Closure α) : Closure α
  | transactional {α β : Type} (body : Closure β) (next : Except Error β → Closure α) : Closure α

/-- A step in the course of a closure, or a transaction, with the cursor before and after it. -/
structure Move where
  /-- The step, unless it is a transaction. -/
  step? : Option Step
  before : Cursor
  /-- Whether it succeeded. -/
  ok : Bool
  after : Cursor

/-- The cursor stays inside the data, and moves in a failure only where bytes are consumed as
they are read. -/
def Move.Kept (m : Move) : Prop :=
  Confined (m.step?.any (·.gradual)) m.before m.ok m.after

namespace Closure

/-- Runs a closure. -/
def run {α : Type} : Closure α → Read α
  | done (.ok a), c => .ok a c
  | done (.error e), c => .error e c
  | step first next, c =>
    (next (outcome (first.perform c))).run (Cursor.after (first.perform c))
  | transactional body next, c =>
    (next (outcome (Cursor.transactional body.run c))).run
      (Cursor.after (Cursor.transactional body.run c))

/-- The steps and transactions of a closure, those inside a transaction before it. -/
def moves {α : Type} : Closure α → Cursor → List Move
  | done _, _ => []
  | step first next, c =>
    ⟨some first, c, (outcome (first.perform c)).isOk, Cursor.after (first.perform c)⟩ ::
      (next (outcome (first.perform c))).moves (Cursor.after (first.perform c))
  | transactional body next, c =>
    body.moves c ++
      ⟨none, c, (outcome (Cursor.transactional body.run c)).isOk,
        Cursor.after (Cursor.transactional body.run c)⟩ ::
      (next (outcome (Cursor.transactional body.run c))).moves
        (Cursor.after (Cursor.transactional body.run c))

end Closure

theorem kept_moves (f : Closure α) (inside : c.position ≤ c.data.length) :
    (∀ m ∈ f.moves c, m.Kept) ∧ Within c (after (f.run c)) := by
  induction f generalizing c with
  | done result =>
    refine ⟨nofun, ?_⟩
    cases result <;> exact .refl inside
  | step s next ih =>
    have first := confined_perform s inside
    obtain ⟨more, last⟩ := ih _ first.within.own
    exact ⟨List.forall_mem_cons.2 ⟨first, more⟩, first.within.trans last⟩
  | transactional body next ihBody ihNext =>
    obtain ⟨inner, within⟩ := ihBody inside
    have first := confined_transactional inside within
    obtain ⟨more, last⟩ := ihNext _ first.within.own
    exact ⟨List.forall_mem_append.2 ⟨inner, List.forall_mem_cons.2 ⟨first, more⟩⟩,
      first.within.trans last⟩

/-- A cursor never leaves its data.  In every program and in every closure, after each step and
each transaction the cursor is inside the data; a step that fails leaves it where it was, or
not before that if it reads a number in groups or a text; and a transaction that fails leaves
it where the transaction began. -/
theorem run_stays_inside (c : Cursor) (inside : c.position ≤ c.data.length) :
    (∀ (halting : Bool) (p : Program), p.Kept halting c (p.run halting c).records) ∧
      ∀ {α : Type} (f : Closure α), ∀ m ∈ f.moves c, m.Kept :=
  ⟨fun halting p ↦ (kept_run halting p inside).1, fun f ↦ (kept_moves f inside).1⟩

/-- A program with a transaction in a transaction, which have moved in both directions when they
fail, and a number that runs out of bytes; and a closure that goes on in its transaction after
another one in it has failed. -/
theorem run_stays_inside_of_nested :
    let c : Cursor := { data := [7, 0x80, 0x80], position := 1 }
    let p : Program := .transactional
      (.step (.seek 0) (.transactional (.step (.seek 3) (.step (.bytes 1) .done)) .done))
      (.step .int7 (.step (.bytes (2 ^ 64 - 1)) .done))
    let inner : Closure Unit := .step (.seek 0) fun _ ↦ .done (.error .empty)
    let outer : Closure Unit := .step (.scalar .u8) fun _ ↦
      .transactional inner fun _ ↦ .done (.ok ())
    let f : Closure Unit := .transactional outer .done
    c.position ≤ c.data.length ∧
      (p.Kept false c (p.run false c).records ∧
        (p.run false c).records.map (·.after.position) = [1, 3, 3]) ∧
      (∀ m ∈ f.moves c, m.Kept) ∧ (f.moves c).map (·.after.position) = [2, 0, 2, 2] := by
  intro c p inner outer f
  have inside : c.position ≤ c.data.length := by decide
  obtain ⟨programs, closures⟩ := run_stays_inside c inside
  exact ⟨inside, ⟨programs false p, by cbv⟩, closures f, by cbv⟩

end Disasm.Cursor
