import Disasm.Output.Queue
import Disasm.Proofs.Coupling

/-!
# Sinks that cannot be told apart

A likeness of sinks is a coupling that every operation respects.  Then all work on
an output respects it too, whether operations go to the sink at once or wait.
-/

namespace Disasm

open Disasm.Action (Coupling)

variable {σ : Type} [Sink σ]

/-- A coupling of sinks that operations respect. -/
structure Sink.Likeness (σ : Type) [Sink σ] extends Coupling Error σ where
  apply : ∀ op, toCoupling.Respects (Sink.apply op)
  /-- Sinks are no longer alike once something was lost. -/
  apart : ∀ {e : Error} {s s' : σ}, Lost e s s' → ¬Like s s'

/-- A sink is like itself. -/
def Sink.same (σ : Type) [Sink σ] : Sink.Likeness σ where
  toCoupling := .exact Eq
  apply op :=
    { paired := by
        rintro s _ rfl
        cases Sink.apply op s with
        | ok a t => exact .ok rfl
        | error e t => exact .error rfl
      keeps := fun _ _ _ lost ↦ lost.elim }
  apart lost := lost.elim

theorem Sink.Likeness.respects_applyAll (S : Sink.Likeness σ) (ops : List Operation) :
    S.Respects (Sink.applyAll ops) := by
  induction ops with
  | nil => exact .pure ()
  | cons op ops ih => exact (S.apply op).bind fun _ ↦ ih

namespace Output

/-- Outputs that are alike have sinks that are, and the same operations wait. -/
structure Alike (S : Sink.Likeness σ) (o o' : Output σ) : Prop where
  sink : S.Like o.sink o'.sink
  autoCommit_eq : o.autoCommit = o'.autoCommit
  queue_eq : o.queue = o'.queue

/-- Outputs over sinks that are alike. -/
def coupling (S : Sink.Likeness σ) : Coupling Error (Output σ) where
  Like := Alike S
  Lost e o o' := S.Lost e o.sink o'.sink

variable (S : Sink.Likeness σ)

/-- Sending works on the sink alone. -/
theorem send_eq_within (ops : List Operation) :
    send (σ := σ) ops =
      Coupling.within sink (fun sink o ↦ { o with sink }) (Sink.applyAll ops) := by
  funext o
  rw [send, Coupling.within]
  cases Sink.applyAll ops o.sink <;> rfl

theorem respects_send (ops : List Operation) : (coupling S).Respects (send ops) := by
  have all := S.respects_applyAll ops
  rw [send_eq_within]
  refine all.within Output.sink (fun sink o ↦ { o with sink }) ?_ ?_ ?_ ?_
  · intro o o' like
    exact like.sink
  · intro o o' s s' like alike
    exact { like with sink := alike }
  · intro e o o' s s' lost
    exact lost
  · intro e o o' lost
    exact all.keeps e _ _ lost

theorem respects_commit : (coupling S).Respects (commit (σ := σ)) where
  paired o o' like := by
    rw [commit, commit, like.queue_eq]
    exact (respects_send S o'.queue).paired _ _ { like with queue_eq := rfl }
  keeps e o o' lost := (respects_send S o'.queue).keeps e o { o' with queue := [] } lost

theorem respects_setAutoCommit (on : Bool) : (coupling S).Respects (setAutoCommit (σ := σ) on) := by
  have switch : (coupling S).Respects
      (modify ({ · with autoCommit := on }) : Action σ Unit) :=
    .update (fun o o' like ↦ { like with autoCommit_eq := rfl }) fun e o o' lost ↦ lost
  refine .get (fun o o' like ↦ ?_) fun o ↦ ?_
  · rw [like.autoCommit_eq]
  · dsimp only
    split
    · exact (respects_commit S).bind fun _ ↦ switch
    · exact switch

theorem respects_push (op : Operation) : (coupling S).Respects (push (σ := σ) op) where
  paired o o' like := by
    have same := like.autoCommit_eq
    rw [push, push]
    by_cases on : o.autoCommit = true
    · rw [if_pos on, if_pos (same.symm.trans on)]
      exact (respects_send S [op]).paired o o' like
    · rw [if_neg on, if_neg (same ▸ on)]
      exact .ok ⟨like.sink, same, congrArg (· ++ [op]) like.queue_eq⟩
  keeps e o o' lost := by
    rw [push]
    split
    · exact (respects_send S [op]).keeps e o o' lost
    · exact lost

theorem respects_print (kind : OutputKind) (text : String) :
    (coupling S).Respects (print (σ := σ) kind text) :=
  respects_push S (.print kind text)

theorem respects_println (kind : OutputKind) (text : String) :
    (coupling S).Respects (println (σ := σ) kind text) :=
  (respects_print S kind text).bind fun _ ↦ respects_push S .newline

end Output

end Disasm
