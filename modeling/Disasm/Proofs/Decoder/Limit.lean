import Disasm.Proofs.Decoder.SideBySide
import Disasm.Proofs.Window.Limit

/-!
# Limits of ranges

A limit is counted from the offset of a range and kept by the window.  Everything
that reads ahead of it, from the skip to the offset on, must then work as it does at
the end of a source: with the limit the decoder prints what it prints without one,
if the source is cut off there.
-/

namespace Disasm

variable {σ ω : Type} [Sink σ]

/-- Outputs over the same sink are the same. -/
theorem Output.eq_of_alike {o o' : Output σ} (alike : Alike (Sink.same σ) o o') : o = o' := by
  obtain ⟨sink, auto, queue⟩ := o
  obtain ⟨same, auto_eq, queue_eq⟩ := alike
  cases (same : sink = _)
  cases (auto_eq : auto = _)
  cases (queue_eq : queue = _)
  rfl

namespace Range

variable {r : Range} {settings : Settings} {binding : Binding} {loop : Frame.Action σ ω Unit}

/-- A range that begins behind the end of the source is not decoded. -/
theorem decode_beyond {source : Source} (undenied : .deny ∉ source.plan)
    (beyond : source.data.length < r.offset) (sink : σ) (session : Session ω) :
    (r.decode settings binding loop source sink session).1 = .error .outOfBounds ∧
      (r.decode settings binding loop source sink session).2.output = { sink } := by
  have settled : (r.frame settings binding source sink session).input.Settled :=
    ⟨Nat.le_refl 0, fun _ ↦ rfl⟩
  cases skipped : Window.skip r.offset (r.frame settings binding source sink session).input with
  | ok u w =>
    have moved := Window.moved_skip r.offset settled skipped
    have all := Index.reserve_of_moved moved settled
    have : Index.reserve (r.frame settings binding source sink session).input =
      source.data.length := Nat.zero_add _
    omega
  | error e w =>
    have outside := Window.runsOut_skip r.offset _ e w settled undenied skipped
    subst outside
    obtain ⟨f, decoded, output⟩ := decode_of_outside loop skipped
    rw [decoded]
    exact ⟨rfl, output⟩

end Range

namespace Table

/-- A limit is the end of the source.  Let `limit` be that of the range or else that of
the settings.  Then a range is decoded as it is without any limit from the first bytes of
the source, up to the limit; and no byte behind it is asked for.  A range that begins
behind the end of the source is not decoded, and nothing is written. -/
theorem decode_limited (t : Table) (r : Range) (settings : Settings) (binding : Binding)
    (data : Bytes) {plan : List PlannedRead} (undenied : .deny ∉ plan) (sink : σ)
    (session : Session ω) :
    let limited := r.decode settings binding (t.run settings.name) { data, plan } sink session
    (∀ limit, r.limit = some limit ∨ r.limit = none ∧ settings.limit = some limit →
      let bound := saturatingAdd r.offset limit
      let unlimited := Range.decode { offset := r.offset } { settings with limit := none } binding
        (t.run settings.name) { data := data.take bound, plan } sink session
      limited.1 = unlimited.1 ∧ limited.2.output = unlimited.2.output ∧
        limited.2.input.source.delivered ≤ bound) ∧
    (data.length < r.offset → limited.1 = .error .outOfBounds ∧ limited.2.output = { sink }) := by
  intro limited
  refine ⟨?_, fun beyond ↦ Range.decode_beyond undenied beyond sink session⟩
  intro limit effective bound unlimited
  have bound_eq : r.bound settings = some bound := by
    rcases effective with given | ⟨absent, default⟩
    · rw [Range.bound, given]
      rfl
    · rw [Range.bound, absent, default]
      rfl
  have input : (Window.cutSource bound).Like
      (r.frame settings binding { data, plan } sink session).input
      (Range.frame { offset := r.offset } { settings with limit := none } binding
        { data := data.take bound, plan } sink session).input := by
    rw [Range.frame, bound_eq]
    exact Window.cut_fresh undenied settings.order bound
  have same : Range.steps { offset := r.offset } { settings with limit := none }
      (t.run settings.name) = r.steps settings (t.run (σ := σ) (ω := ω) settings.name) := rfl
  have beside := Range.decode_beside (S := Sink.same σ) (t.respects_run settings.name) same
    input rfl
  obtain ⟨result, cut, alike⟩ | ⟨e, -, lost⟩ := beside
  · obtain ⟨source, -, allowed⟩ := cut
    exact ⟨result, Output.eq_of_alike alike, allowed.delivered_le⟩
  · exact lost.elim

/-- The limit of the range cuts a jump table off, though that of the settings would not.
Another range begins behind the end. -/
theorem decode_limited_in_jump_table :
    let file : File :=
      ⟨[0x4F, 0x50, 0x49, 0x58, 2, 0, 0, 0, 2, 0, 2, 0, 1, 0x00, 0, 0, 1, 0x10, 5, 0,
        1, 3, 110, 111, 112, 2, 2, 115, 119, 1, 0x30], by decide⟩
    let t : Table := .ofIndex ⟨.instruction, file, ⟨2, 2, 2⟩,
      [⟨⟨[0x00], by decide⟩, 0⟩, ⟨⟨[0x10], by decide⟩, 5⟩], {}⟩
    let data : Bytes := [0xFF, 0x00, 0x10, 1, 0, 0, 0, 2, 0, 0, 0]
    let plan : List PlannedRead := [.interrupt, .deliver 3, .deliver 2]
    let settings : Settings := { name := "m", limit := some 10 }
    let decode (r : Range) (settings : Settings) (data : Bytes) :=
      r.decode settings ⟨"m", some {}⟩ (t.run settings.name) { data, plan } ({} : Transcript)
        ({ world := () } : Session Unit)
    let limited := decode { offset := 1, limit := some 7 } settings data
    let unlimited := decode { offset := 1 } { settings with limit := none }
      (data.take (saturatingAdd 1 7))
    let outside := decode { offset := 12 } settings data
    (limited.1 = .ok 2 ∧
      limited.2.output.sink.texts = ["L0001: nop", "L0002: <truncated sw>"]) ∧
    (limited.1 = unlimited.1 ∧ limited.2.output = unlimited.2.output ∧
      limited.2.input.source.delivered ≤ saturatingAdd 1 7) ∧
    outside.1 = .error .outOfBounds ∧ outside.2.output = { sink := {} } := by
  intro file t data plan settings decode limited unlimited outside
  have undenied : .deny ∉ plan := by decide
  have inside := (decode_limited t { offset := 1, limit := some 7 } settings ⟨"m", some {}⟩ data
    undenied ({} : Transcript) ({ world := () } : Session Unit)).1 7 (.inl rfl)
  have behind := (decode_limited t { offset := 12 } settings ⟨"m", some {}⟩ data undenied
    ({} : Transcript) ({ world := () } : Session Unit)).2 (by decide)
  dsimp only at inside behind
  dsimp only [limited, unlimited, outside, decode]
  refine ⟨⟨?_, ?_⟩, inside, behind⟩
  · cbv
  · cbv

end Table

end Disasm
