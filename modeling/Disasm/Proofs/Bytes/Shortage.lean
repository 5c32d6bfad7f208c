import Disasm.Proofs.Bytes.Cursor

/-!
# Reads that run out of bytes

A read is *stable* if bytes behind the data change nothing of what it does, unless
it runs out of bytes.  So a stable read that takes some bytes runs out on whatever
ends before them.
-/

namespace Disasm

/-- Bytes behind a part of the data do not change it. -/
theorem Bytes.take_drop_append {bs : Bytes} {offset count : Nat}
    (fits : offset + count ≤ bs.length) (more : Bytes) :
    ((bs ++ more).drop offset).take count = (bs.drop offset).take count := by
  rw [List.drop_append_of_le_length (by omega),
    List.take_append_of_le_length (by rw [List.length_drop]; omega)]

namespace Cursor

variable {α β : Type}

/-- The cursor with `more` bytes behind its data. -/
def extend (c : Cursor) (more : Bytes) : Cursor := { c with data := c.data ++ more }

/-- Bytes behind the data change nothing, unless the read runs out of bytes. -/
structure Stable (read : Read α) : Prop where
  ok : ∀ {c c' : Cursor} {a : α}, c.position ≤ c.data.length → read c = .ok a c' →
    (c'.data = c.data ∧ c'.position ≤ c'.data.length) ∧
      ∀ more, read (c.extend more) = .ok a (c'.extend more)
  error : ∀ {c c' : Cursor} {e : Error}, c.position ≤ c.data.length → read c = .error e c' →
    e = .outOfBounds ∨ ∀ more, read (c.extend more) = .error e (c'.extend more)

namespace Stable

variable {read : Read α} {f : α → Read β}

theorem pure (a : α) : Stable (pure a) where
  ok inside done := by
    cases done
    exact ⟨⟨rfl, inside⟩, fun _ ↦ rfl⟩
  error _ failed := nomatch failed

theorem throw (e : Error) : Stable (throw e : Read α) where
  ok _ done := nomatch done
  error _ failed := by
    cases failed
    exact .inr fun _ ↦ rfl

theorem bind (first : Stable read) (second : ∀ a, Stable (f a)) : Stable (read >>= f) where
  ok inside done := by
    obtain ⟨a, c₁, done, rest⟩ := Action.bind_eq_ok.1 done
    obtain ⟨⟨data, inside⟩, extended⟩ := first.ok inside done
    obtain ⟨⟨data', inside'⟩, extended'⟩ := (second a).ok inside rest
    exact ⟨⟨data'.trans data, inside'⟩,
      fun more ↦ (Action.bind_of_ok (extended more)).trans (extended' more)⟩
  error {c c' e} inside failed := by
    cases result : read c with
    | error e₁ c₁ =>
      rw [Action.bind_of_error result] at failed
      cases failed
      exact (first.error inside result).imp_right fun extended more ↦
        Action.bind_of_error (extended more)
    | ok a c₁ =>
      rw [Action.bind_of_ok result] at failed
      obtain ⟨⟨-, inside⟩, extended⟩ := first.ok inside result
      exact ((second a).error inside failed).imp_right fun extended' more ↦
        (Action.bind_of_ok (extended more)).trans (extended' more)

theorem map (g : α → β) (h : Stable read) : Stable (do return g (← read)) :=
  h.bind fun a ↦ .pure (g a)

/-- The cursor may be asked for first, if what follows does not see how many bytes
there are. -/
theorem get {g : Cursor → Read β} (h : ∀ c, Stable (g c))
    (blind : ∀ c more, g (c.extend more) = g c) : Stable (MonadState.get >>= g) where
  ok {c _ _} inside done := by
    refine ((h c).ok inside done).imp_right fun extended more ↦ ?_
    exact (congrFun (blind c more) _).trans (extended more)
  error {c _ _} inside failed := by
    refine ((h c).error inside failed).imp_right fun extended more ↦ ?_
    exact (congrFun (blind c more) _).trans (extended more)

end Stable

theorem byte_eq (c : Cursor) :
    byte c = match c.data[c.position]? with
      | none => .error .outOfBounds c
      | some b => .ok b { c with position := c.position + 1 } := by
  cases there : c.data[c.position]? with
  | none => simp only [byte, peek, bind, EStateM.bind, there]
  | some b =>
    simp only [byte, peek, bind, EStateM.bind, there]
    rfl

theorem stable_byte : Stable byte := by
  refine ⟨fun {c c' b} inside done ↦ ?_, fun {c c' e} inside failed ↦ ?_⟩
  · rw [byte_eq] at done
    split at done
    next => cases done
    next there =>
      cases done
      obtain ⟨before, -⟩ := List.getElem?_eq_some_iff.1 there
      refine ⟨⟨rfl, before⟩, fun more ↦ ?_⟩
      rw [byte_eq]
      dsimp only [extend]
      rw [List.getElem?_append_left before, there]
  · rw [byte_eq] at failed
    split at failed
    next =>
      cases failed
      exact .inl rfl
    next => cases failed

theorem stable_bytes (count : Nat) : Stable (bytes count) where
  ok _ done := by
    obtain ⟨there, rfl⟩ := bytes_eq_ok_iff.1 done
    obtain ⟨small, fits, same⟩ := Bytes.slice?_eq_some_iff.1 there
    refine ⟨⟨rfl, fits⟩, fun more ↦ bytes_eq_ok_iff.2 ⟨?_, rfl⟩⟩
    refine Bytes.slice?_eq_some_iff.2 ⟨small, ?_, ?_⟩
    · exact Nat.le_trans fits (by simp [extend])
    · exact (Bytes.take_drop_append fits more).trans same
  error _ failed := by
    rw [bytes] at failed
    split at failed
    · cases failed
      exact .inl rfl
    · cases failed

theorem stable_groups (count index value : Nat) : Stable (groups count index value) := by
  induction count generalizing index value with
  | zero => exact .throw .groupOverflow
  | succ count ih =>
    refine stable_byte.bind fun b ↦ ?_
    split
    · exact .pure _
    · exact ih _ _

theorem stable_text : Stable text := by
  refine (stable_groups 5 0 0).bind fun length ↦ .get (fun c ↦ ?_) fun _ _ ↦ rfl
  refine (stable_bytes length).bind fun bs ↦ ?_
  split
  · exact .pure _
  · exact .throw _

/-- A stable read that takes some bytes runs out where these are cut short. -/
theorem Takes.runs_out {read : Read α} {bs part : Bytes} {a : α} (taken : Takes read bs a)
    (stable : Stable read) (begins : part <+: bs) (shorter : part.length < bs.length)
    (before : Bytes) (order : ByteOrder) (small : before.length + bs.length < addressBound) :
    ∃ c, read { data := before ++ part, order, position := before.length } =
      .error .outOfBounds c := by
  obtain ⟨rest, rfl⟩ := begins
  have whole := taken before [] order small
  rw [List.append_nil, ← List.append_assoc] at whole
  have inside : before.length ≤ (before ++ part).length := by simp
  cases result : read { data := before ++ part, order, position := before.length } with
  | ok a' c' =>
    obtain ⟨⟨data, inside'⟩, extended⟩ := stable.ok inside result
    -- With the rest behind it the read ends where `bs` ends, but here there is no such place.
    have same : c'.position = before.length + (part ++ rest).length := by
      have := (extended rest).symm.trans whole
      injection this with _ ends
      exact congrArg Cursor.position ends
    rw [data, List.length_append] at inside'
    omega
  | error e c' =>
    rcases stable.error inside result with rfl | extended
    · exact ⟨c', rfl⟩
    · cases (extended rest).symm.trans whole

end Cursor

end Disasm
