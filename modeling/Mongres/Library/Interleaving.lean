import Mathlib.Logic.Relation
import Mathlib.Data.List.Count
import Mathlib.Tactic

/-!
# Interleaved processes

Processes that take turns on shared data.  What each move preserves, every run of
all of them preserves.
-/

namespace Mongres.Interleaving

variable {Process Shared : Type} {moves : Process × Shared → Process × Shared → Prop}

/-- One process of a list moves, and changes what all of them share. -/
inductive Step (moves : Process × Shared → Process × Shared → Prop) :
    List Process × Shared → List Process × Shared → Prop where
  | move {before after : List Process} {process next : Process} {shared result : Shared} :
      moves (process, shared) (next, result) →
      Step moves (before ++ process :: after, shared) (before ++ next :: after, result)

/-- Any number of moves, in any order of the processes. -/
def Runs (moves : Process × Shared → Process × Shared → Prop) :
    List Process × Shared → List Process × Shared → Prop :=
  Relation.ReflTransGen (Step moves)

namespace Runs

variable {start finish : List Process × Shared}

/-- A size of the shared data that grows by one whenever a process comes to be counted is the
number of counted processes. -/
theorem balanced {size : Shared → Nat} {counted : Process → Bool}
    (each : ∀ process shared next result, moves (process, shared) (next, result) →
      size result + (counted process).toNat = size shared + (counted next).toNat)
    (run : Runs moves start finish) :
    size finish.2 + start.1.countP counted = size start.2 + finish.1.countP counted := by
  have single (process : Process) (rest : List Process) :
      (process :: rest).countP counted = rest.countP counted + (counted process).toNat := by
    rw [List.countP_cons]
    cases counted process <;> rfl
  induction run with
  | refl => rfl
  | tail _ step inductionHypothesis =>
      obtain ⟨moved⟩ := step
      have balance := each _ _ _ _ moved
      simp only [List.countP_append, single] at inductionHypothesis ⊢
      omega

theorem map_eq {Label : Type} {label : Process → Label}
    (each : ∀ process shared next result, moves (process, shared) (next, result) →
      label next = label process)
    (run : Runs moves start finish) : finish.1.map label = start.1.map label := by
  induction run with
  | refl => rfl
  | tail _ step inductionHypothesis =>
      obtain ⟨moved⟩ := step
      rw [← inductionHypothesis]
      simp only [List.map_append, List.map_cons, each _ _ _ _ moved]

theorem alone {process next : Process} {shared result : Shared}
    (run : Relation.ReflTransGen moves (process, shared) (next, result)) :
    Runs moves ([process], shared) ([next], result) := by
  apply run.lift fun state => ([state.1], state.2)
  intro before after moved
  exact @Step.move _ _ _ [] [] _ _ _ _ moved

end Runs

end Mongres.Interleaving
