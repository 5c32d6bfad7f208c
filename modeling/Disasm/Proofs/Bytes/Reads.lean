import Disasm.Proofs.Bytes.Source

/-!
# Reading a source read by read

A pull tells what the reads of a source come to, and not which reads there were.  Here they
are told one by one: what each was answered, and what it left of the source.  An *exchange*
asks for what is missing until it is there, an empty read or a refusal comes back, or there is
no more room; a pull is what such an exchange comes to.

So one can say when a source is read at all, also of a source that is used up, where a read
changes nothing: after an empty read an exchange asks for nothing more.
-/

namespace Disasm.Source

/-- What one read answers. -/
inductive Reply
  | delivered (bs : Bytes)
  | interrupted
  | denied
deriving DecidableEq

/-- The bytes that a reply brings. -/
def Reply.bytes : Reply → Bytes
  | delivered bs => bs
  | interrupted | denied => []

/-- Delivers the next `count` bytes, after which `plan` is planned. -/
def deliver (s : Source) (count : Nat) (plan : List PlannedRead) : Reply × Source :=
  (.delivered (s.data.take count),
    { data := s.data.drop count, plan, delivered := s.delivered + (s.data.take count).length })

/-- One read for at most `asked` bytes. -/
def read (s : Source) (asked : Nat) : Reply × Source :=
  match s.plan with
  | [] => s.deliver asked []
  | .deliver n :: plan => s.deliver (min n asked) plan
  | .interrupt :: plan => (.interrupted, { s with plan })
  | .deny :: plan => (.denied, { s with plan })

/-- A source goes from one state to another by reads that are answered as told.  Each read
asks for a byte at least. -/
inductive Reads : Source → List Reply → Source → Prop
  | nil {s : Source} : Reads s [] s
  | cons {s s₁ s' : Source} {asked : Nat} {reply : Reply} {replies : List Reply} :
      0 < asked → s.read asked = (reply, s₁) → Reads s₁ replies s' → Reads s (reply :: replies) s'

theorem Reads.append {s s' s'' : Source} {replies replies' : List Reply}
    (first : Reads s replies s') (second : Reads s' replies' s'') :
    Reads s (replies ++ replies') s'' := by
  induction first with
  | nil => exact second
  | cons asked told _ ih => exact .cons asked told (ih second)

/-- After an empty read there is no other. -/
def Ceasing (replies : List Reply) : Prop :=
  replies.Pairwise fun earlier _ ↦ earlier ≠ .delivered []

theorem Ceasing.append {replies replies' : List Reply} (first : Ceasing replies)
    (second : Ceasing replies') (quiet : .delivered [] ∈ replies → replies' = []) :
    Ceasing (replies ++ replies') := by
  refine List.pairwise_append.2 ⟨first, second, ?_⟩
  rintro _ given later more rfl
  rw [quiet given] at more
  cases more

/-! ## One read -/

theorem length_plan_read_le (s : Source) (asked : Nat) :
    (s.read asked).2.plan.length ≤ s.plan.length := by
  obtain ⟨data, _ | ⟨_ | _ | _, plan⟩, delivered⟩ := s
  · exact Nat.le_refl _
  all_goals exact Nat.le_succ _

/-- An interruption was planned. -/
theorem length_plan_read_lt {s s' : Source} {asked : Nat}
    (interrupted : s.read asked = (.interrupted, s')) : s'.plan.length < s.plan.length := by
  obtain ⟨data, _ | ⟨_ | _ | _, plan⟩, delivered⟩ := s
  · cases interrupted
  · cases interrupted
  · cases interrupted
    exact Nat.lt_succ_self _
  · cases interrupted

/-! ## Exchanges -/

/-- The replies that were given, how they ended, and the source after them. -/
structure Exchange where
  replies : List Reply
  ending : Ending
  source : Source

/-- The exchange with a reply before it. -/
def Exchange.cons (reply : Reply) (e : Exchange) : Exchange :=
  { e with replies := reply :: e.replies }

/-- Reads on until `missing` bytes are there or the source ends, and never more than `room`
bytes. -/
def exchange (s : Source) (missing : Nat) (room : Option Nat) : Exchange :=
  if missing = 0 then ⟨[], .enough, s⟩
  else if room = some 0 then ⟨[], .exhausted, s⟩
  else
    match _ : s.read (min (within room missing) readSize) with
    | (.interrupted, s') => (s'.exchange missing room).cons .interrupted
    | (.denied, s') => ⟨[.denied], .denied, s'⟩
    | (.delivered [], s') => ⟨[.delivered []], .exhausted, s'⟩
    | (.delivered (b :: bs), s') =>
      let got := (b :: bs).length
      (s'.exchange (missing - got) (room.map (· - got))).cons (.delivered (b :: bs))
termination_by s.plan.length + missing
decreasing_by
  next told =>
    have := length_plan_read_lt told
    omega
  next told =>
    have shorter := s.length_plan_read_le (min (within room missing) readSize)
    rw [told] at shorter
    change s'.plan.length ≤ s.plan.length at shorter
    rw [List.length_cons]
    omega

/-- As long as bytes are missing and there is room, a read asks for some. -/
theorem asked_pos {missing : Nat} {room : Option Nat} (asked : missing ≠ 0)
    (free : room ≠ some 0) : 0 < min (within room missing) readSize := by
  refine Nat.lt_min.2 ⟨?_, by decide⟩
  cases room with
  | none => exact Nat.pos_of_ne_zero asked
  | some r =>
    have : r ≠ 0 := fun none ↦ free (none ▸ rfl)
    exact Nat.lt_min.2 ⟨Nat.pos_of_ne_zero asked, Nat.pos_of_ne_zero this⟩

theorem reads_exchange (s : Source) (missing : Nat) (room : Option Nat) :
    Reads s (s.exchange missing room).replies (s.exchange missing room).source := by
  fun_induction exchange s missing room with
  | case1 | case2 => exact .nil
  | case3 s missing room asked free s' told ih => exact .cons (asked_pos asked free) told ih
  | case4 s missing room asked free s' told | case5 s missing room asked free s' told =>
    exact .cons (asked_pos asked free) told .nil
  | case6 s missing room asked free b bs s' told got ih =>
    exact .cons (asked_pos asked free) told ih

/-- An empty read ends an exchange. -/
theorem exchange_of_empty {s : Source} {missing : Nat} {room : Option Nat}
    (empty : .delivered [] ∈ (s.exchange missing room).replies) :
    (s.exchange missing room).ending = .exhausted := by
  fun_induction exchange s missing room with
  | case1 | case2 => cases empty
  | case3 s missing room asked free s' told ih =>
    exact ih ((List.mem_cons.1 empty).resolve_left nofun)
  | case4 => cases (List.mem_singleton.1 empty)
  | case5 => rfl
  | case6 s missing room asked free b bs s' told got ih =>
    exact ih ((List.mem_cons.1 empty).resolve_left nofun)

theorem ceasing_exchange (s : Source) (missing : Nat) (room : Option Nat) :
    Ceasing (s.exchange missing room).replies := by
  fun_induction exchange s missing room with
  | case1 | case2 => exact .nil
  | case3 s missing room asked free s' told ih => exact .cons (fun _ _ ↦ nofun) ih
  | case4 | case5 => exact List.pairwise_singleton _ _
  | case6 s missing room asked free b bs s' told got ih => exact .cons (fun _ _ ↦ nofun) ih

/-! ## What an exchange comes to -/

section Pull

variable {plan : List PlannedRead} {missing : Nat} {room : Option Nat} {data : Bytes}

theorem pull_of_enough : pull plan 0 room data = ⟨[], data, plan, .enough⟩ := by
  cases plan with
  | nil => simp [pull, Nat.le_zero.1 (within_le room 0)]
  | cons event plan => exact if_pos rfl

theorem pull_of_full (asked : missing ≠ 0) :
    pull plan missing (some 0) data = ⟨[], data, plan, .exhausted⟩ := by
  cases plan with
  | nil => simp [pull, within, Nat.pos_of_ne_zero asked]
  | cons event plan => exact (if_neg asked).trans (if_pos rfl)

/-- After the last planned read, reads deliver what they are asked for. -/
theorem pull_of_unplanned (asked : missing ≠ 0) (free : room ≠ some 0) :
    pull [] missing room data = pull [.deliver readSize] missing room data := by
  have most : min readSize (min (within room missing) readSize) =
      min (within room missing) readSize := Nat.min_eq_right (Nat.min_le_right _ _)
  rw [pull_of_missing asked free]
  dsimp only
  rw [most]
  split
  next none =>
    have used : data = [] :=
      (List.take_eq_nil_iff.1 none).resolve_left (asked_pos asked free).ne'
    subst used
    simp [pull, Nat.pos_of_ne_zero asked]
  next =>
    generalize got : (data.take (min (within room missing) readSize)).length = k
    have le : k ≤ within room missing := by
      rw [← got, List.length_take]
      omega
    have first : data.take (min (within room missing) readSize) = data.take k := by
      rw [← got, List.length_take, List.take_eq_take_iff]
      omega
    have both : data.take (within room missing) =
        data.take k ++ (data.drop k).take (within room missing - k) := by
      rw [← List.take_add, Nat.add_sub_cancel' le]
    have := within_le room missing
    simp only [pull, within_sub, first, ← both, List.drop_drop, Nat.add_sub_cancel' le]
    congr 1
    rw [both, List.length_append, ← first, got]
    simp only [Nat.lt_sub_iff_add_lt']

end Pull

/-- How a request goes on after its first read. -/
def resume (missing : Nat) (room : Option Nat) : Reply × Source → Bytes × Ending × Source
  | (.interrupted, s) => s.request missing room
  | (.denied, s) => ([], .denied, s)
  | (.delivered [], s) => ([], .exhausted, s)
  | (.delivered bs, s) =>
    let next := s.request (missing - bs.length) (room.map (· - bs.length))
    (bs ++ next.1, next.2)

section Request

variable {s : Source} {missing : Nat} {room : Option Nat}

theorem request_of_planned (planned : s.plan ≠ []) (asked : missing ≠ 0) (free : room ≠ some 0) :
    s.request missing room =
      resume missing room (s.read (min (within room missing) readSize)) := by
  obtain ⟨data, _ | ⟨event, plan⟩, delivered⟩ := s
  · exact absurd rfl planned
  · simp only [request, pull_of_missing asked free, read]
    cases event with
    | interrupt => rfl
    | deny => rfl
    | deliver n =>
      simp only [deliver]
      generalize min n (min (within room missing) readSize) = count
      -- what is left is counted by what came, which may be less than `count`
      have behind : data.drop (data.take count).length = data.drop count := by
        rw [List.length_take]
        rcases Nat.le_total count data.length with le | le
        · rw [Nat.min_eq_left le]
        · rw [Nat.min_eq_right le, List.drop_length, List.drop_of_length_le le]
      cases got : data.take count with
      | nil =>
        rw [got] at behind
        simp [resume, ← behind]
      | cons b bs =>
        rw [got] at behind
        simp only [resume, request, behind, List.length_append, Nat.add_assoc]

/-- The first read of a request. -/
theorem request_eq_resume (asked : missing ≠ 0) (free : room ≠ some 0) :
    s.request missing room =
      resume missing room (s.read (min (within room missing) readSize)) := by
  obtain ⟨data, plan, delivered⟩ := s
  cases plan with
  | cons event plan => exact request_of_planned (List.cons_ne_nil _ _) asked free
  | nil =>
    -- as if one read were planned that delivers all that is asked for
    have all : min readSize (min (within room missing) readSize) =
        min (within room missing) readSize := Nat.min_eq_right (Nat.min_le_right _ _)
    have planned := request_of_planned (s := ⟨data, [.deliver readSize], delivered⟩)
      (List.cons_ne_nil _ _) asked free
    rw [request, ← pull_of_unplanned asked free, read] at planned
    dsimp only at planned
    rw [all] at planned
    exact planned

end Request

/-- A pull is what an exchange comes to. -/
theorem request_eq_exchange (s : Source) (missing : Nat) (room : Option Nat) :
    s.request missing room =
      ((s.exchange missing room).replies.flatMap Reply.bytes, (s.exchange missing room).ending,
        (s.exchange missing room).source) := by
  fun_induction exchange s missing room with
  | case1 => simp [request, pull_of_enough]
  | case2 s missing asked => simp [request, pull_of_full asked]
  | case3 s missing room asked free s' told ih =>
    rw [request_eq_resume asked free, told]
    exact ih
  | case4 s missing room asked free s' told | case5 s missing room asked free s' told =>
    rw [request_eq_resume asked free, told]
    rfl
  | case6 s missing room asked free b bs s' told got ih =>
    rw [request_eq_resume asked free, told]
    exact congrArg (fun next ↦ (b :: bs ++ next.1, next.2)) ih

theorem delivered_exchange_le (s : Source) (missing : Nat) (room : Option Nat) :
    (s.exchange missing room).source.delivered ≤ s.delivered + within room missing := by
  have same : (s.exchange missing room).source = (s.request missing room).2.2 := by
    rw [request_eq_exchange]
  rw [same]
  exact Nat.add_le_add_left (length_taken_le_within ..) _

end Disasm.Source
