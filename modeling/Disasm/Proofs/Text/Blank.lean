import Mathlib
import Disasm.Text.Blank

/-!
# Texts put together and cut again

Trimming leaves a text with no blank at its ends, and such texts stay so when they
are joined.  Words with spaces between them and lines with line feeds behind them are
found again when the text is cut.
-/

namespace Disasm.Text

/-! ## Trimming -/

/-- No blank stands at either end. -/
structure Tight (cs : List Char) : Prop where
  head : ∀ c ∈ cs.head?, isBlank c = false
  last : ∀ c ∈ cs.getLast?, isBlank c = false

theorem trim_isInfix (cs : List Char) : trim cs <:+: cs :=
  (List.rdropWhile_prefix isBlank (cs.dropWhile isBlank)).isInfix.trans
    (List.dropWhile_suffix isBlank).isInfix

theorem tight_trim (cs : List Char) : Tight (trim cs) where
  head c first := by
    obtain ⟨rest, eq⟩ := List.rdropWhile_prefix isBlank (cs.dropWhile isBlank)
    have kept : (cs.dropWhile isBlank).head? = some c := by
      rw [← eq, List.head?_append]
      exact congrArg (Option.or · rest.head?) first
    have stopped := List.head?_dropWhile_not isBlank cs
    rwa [kept] at stopped
  last c final := by
    have stopped := List.head?_dropWhile_not isBlank (cs.dropWhile isBlank).reverse
    rw [trim, Option.mem_def, List.getLast?_reverse] at final
    rwa [final] at stopped

theorem Tight.trim_eq {cs : List Char} (h : Tight cs) : trim cs = cs := by
  have front : cs.dropWhile isBlank = cs := by
    cases cs with
    | nil => rfl
    | cons c rest => exact List.dropWhile_cons_of_neg (by simp [h.head c rfl])
  have back : cs.reverse.dropWhile isBlank = cs.reverse := by
    cases turned : cs.reverse with
    | nil => rfl
    | cons c rest =>
      have final : c ∈ cs.getLast? := by
        rw [Option.mem_def, ← List.head?_reverse, turned]
        rfl
      exact List.dropWhile_cons_of_neg (by simp [h.last c final])
  rw [trim, front, back, List.reverse_reverse]

theorem head?_intercalate (between : List Char) {p : List Char} (filled : p ≠ [])
    (rest : List (List Char)) : (between.intercalate (p :: rest)).head? = p.head? := by
  cases rest with
  | nil => rw [List.intercalate_singleton]
  | cons q rest =>
    rw [List.intercalate_cons_cons, List.append_assoc, List.head?_append_of_ne_nil p filled]

/-- Texts with something between them: the ends are those of the first and the last. -/
theorem Tight.intercalate (between : List Char) {pieces : List (List Char)}
    (some : pieces ≠ []) (filled : ∀ p ∈ pieces, p ≠ [] ∧ Tight p) :
    between.intercalate pieces ≠ [] ∧ Tight (between.intercalate pieces) := by
  induction pieces with
  | nil => exact absurd rfl some
  | cons p rest ih =>
    obtain ⟨first, later⟩ := List.forall_mem_cons.1 filled
    cases rest with
    | nil => simpa using first
    | cons q rest =>
      obtain ⟨more, tight⟩ := ih (List.cons_ne_nil q rest) later
      refine ⟨by simp [List.intercalate_cons_cons, first.1], fun c ends ↦ ?_, fun c ends ↦ ?_⟩
      · rw [head?_intercalate between first.1] at ends
        exact first.2.head c ends
      · rw [List.intercalate_cons_cons, List.getLast?_append_of_ne_nil _ more] at ends
        exact tight.last c ends

/-! ## Cutting -/

theorem mem_of_mem_intercalate {between : List Char} {c : Char} {pieces : List (List Char)}
    (there : c ∈ between.intercalate pieces) : c ∈ between ∨ ∃ p ∈ pieces, c ∈ p := by
  induction pieces with
  | nil => cases there
  | cons p rest ih =>
    cases rest with
    | nil => exact .inr ⟨p, List.mem_cons_self .., by simpa using there⟩
    | cons q rest =>
      rw [List.intercalate_cons_cons, List.append_assoc] at there
      rcases List.mem_append.1 there with first | there
      · exact .inr ⟨p, List.mem_cons_self .., first⟩
      · rcases List.mem_append.1 there with apart | later
        · exact .inl apart
        · exact (ih later).imp_right fun ⟨p', member, inside⟩ ↦
            ⟨p', List.mem_cons_of_mem p member, inside⟩

/-- A piece has characters of the text, but not the one at which it is cut. -/
theorem mem_of_mem_splitOn {x c : Char} {cs piece : List Char} (member : piece ∈ cs.splitOn x)
    (there : c ∈ piece) : c ≠ x ∧ c ∈ cs := by
  induction cs generalizing piece with
  | nil =>
    rw [List.splitOn_nil, List.mem_singleton] at member
    rw [member] at there
    cases there
  | cons first cs ih =>
    rw [List.splitOn_cons_eq_if_modifyHead] at member
    split at member
    · rcases List.mem_cons.1 member with rfl | later
      · cases there
      · exact (ih later there).imp_right (List.mem_cons_of_mem first)
    · next other =>
      cases pieces : cs.splitOn x with
      | nil => exact absurd pieces (List.splitOn_ne_nil x cs)
      | cons front rest =>
        rw [pieces] at ih
        rw [pieces, List.modifyHead_cons] at member
        rcases List.mem_cons.1 member with rfl | later
        · rcases List.mem_cons.1 there with rfl | there
          · exact ⟨fun same ↦ other (by simp [same]), List.mem_cons_self ..⟩
          · exact (ih (List.mem_cons_self ..) there).imp_right (List.mem_cons_of_mem first)
        · exact (ih (List.mem_cons_of_mem front later) there).imp_right
            (List.mem_cons_of_mem first)

/-- Words with spaces between them are found again. -/
theorem words_intercalate {ws : List (List Char)}
    (solid : ∀ w ∈ ws, w ≠ [] ∧ ∀ c ∈ w, isBlank c = false) :
    words ([' '].intercalate ws) = ws := by
  induction ws with
  | nil => rfl
  | cons w rest ih =>
    obtain ⟨first, later⟩ := List.forall_mem_cons.1 solid
    cases rest with
    | nil =>
      rw [List.intercalate_singleton, words, List.splitOnP_eq_singleton first.2]
      simp [first.1]
    | cons v rest =>
      have cut : (w ++ ' ' :: [' '].intercalate (v :: rest)).splitOnP isBlank =
          w :: ([' '].intercalate (v :: rest)).splitOnP isBlank :=
        List.splitOnP_append_cons_of_forall_mem first.2 ' ' rfl _
      rw [List.intercalate_cons_cons, List.append_assoc, List.singleton_append, words, cut,
        List.filter_cons_of_pos (by simp [first.1])]
      exact congrArg (w :: ·) (ih later)

theorem dropReturn_isPrefix (cs : List Char) : dropReturn cs <+: cs := by
  rw [dropReturn]
  split
  · exact List.dropLast_prefix cs
  · exact List.prefix_refl cs

/-- A line is a piece of the text, or such a piece without its carriage return. -/
theorem exists_of_mem_ended {pieces : List (List Char)} {line : List Char}
    (member : line ∈ ended pieces) : ∃ piece ∈ pieces, line <+: piece := by
  fun_induction ended pieces with
  | case1 => cases member
  | case2 => cases member
  | case3 last filled => exact ⟨line, member, List.prefix_refl line⟩
  | case4 first rest more ih =>
    rcases List.mem_cons.1 member with rfl | later
    · exact ⟨first, List.mem_cons_self .., dropReturn_isPrefix first⟩
    · obtain ⟨piece, there, front⟩ := ih later
      exact ⟨piece, List.mem_cons_of_mem first there, front⟩

theorem not_mem_of_mem_lines {cs line : List Char} (member : line ∈ lines cs) : '\n' ∉ line := by
  obtain ⟨piece, there, front⟩ := exists_of_mem_ended member
  exact fun feed ↦ (mem_of_mem_splitOn there (front.subset feed)).1 rfl

/-- Lines with line feeds behind them are found again, if no carriage return ends them. -/
theorem lines_flatMap {ls : List (List Char)}
    (whole : ∀ l ∈ ls, '\n' ∉ l ∧ l.getLast? ≠ some '\r') :
    lines (ls.flatMap (· ++ ['\n'])) = ls := by
  have cut : (ls.flatMap (· ++ ['\n'])).splitOn '\n' = ls ++ [[]] := by
    induction ls with
    | nil => rfl
    | cons l rest ih =>
      obtain ⟨first, later⟩ := List.forall_mem_cons.1 whole
      rw [List.flatMap_cons, List.append_assoc, List.singleton_append,
        List.splitOn_append_cons_self_of_not_mem first.1, ih later, List.cons_append]
  rw [lines, cut]
  clear cut
  induction ls with
  | nil => rfl
  | cons l rest ih =>
    obtain ⟨first, later⟩ := List.forall_mem_cons.1 whole
    have kept : dropReturn l = l := if_neg first.2
    rw [List.cons_append, ended, kept, ih later]
    simp

end Disasm.Text
