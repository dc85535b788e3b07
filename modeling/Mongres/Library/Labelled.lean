import Mathlib.Tactic

/-!
# Labelled runs

A system is a relation between states, labelled with what is seen of a step.  What every step
keeps, a run keeps, and a step-by-step simulation carries whole runs over, with their labels.
-/

namespace Mongres.Labelled

universe u v w

variable {State : Type u} {Other : Type v} {Label : Type w}

/-- The steps from one state to another, with their labels in order. -/
inductive Run (step : State → Label → State → Prop) : State → List Label → State → Prop where
  | done (state : State) : Run step state [] state
  | next {start middle finish : State} {label : Label} {labels : List Label} :
      step start label middle → Run step middle labels finish →
      Run step start (label :: labels) finish

namespace Run

variable {step : State → Label → State → Prop} {start finish : State} {labels : List Label}

theorem invariant (Holds : State → Prop)
    (each : ∀ state label next, step state label next → Holds state → Holds next)
    (run : Run step start labels finish) (initially : Holds start) : Holds finish := by
  induction run with
  | done state => exact initially
  | next first _ inductionHypothesis => exact inductionHypothesis (each _ _ _ first initially)

theorem invariant_of_labels (Holds : State → Prop) {Allowed : Label → Prop}
    (each : ∀ state label next, step state label next → Allowed label → Holds state → Holds next)
    (run : Run step start labels finish) (allowed : ∀ label ∈ labels, Allowed label)
    (initially : Holds start) : Holds finish := by
  induction run with
  | done state => exact initially
  | next first _ inductionHypothesis =>
      rw [List.forall_mem_cons] at allowed
      exact inductionHypothesis allowed.2 (each _ _ _ first allowed.1 initially)

theorem split {first second : List Label} (run : Run step start (first ++ second) finish) :
    ∃ middle, Run step start first middle ∧ Run step middle second finish := by
  induction first generalizing start with
  | nil => exact ⟨start, .done start, run⟩
  | cons label first inductionHypothesis =>
      cases run with
      | next step rest =>
          obtain ⟨middle, before, after⟩ := inductionHypothesis rest
          exact ⟨middle, .next step before, after⟩

theorem append {middle : State} {more : List Label} (run : Run step start labels middle)
    (rest : Run step middle more finish) : Run step start (labels ++ more) finish := by
  induction run with
  | done state => exact rest
  | next first _ inductionHypothesis => exact .next first (inductionHypothesis rest)

/-- A relation that every step of one system can follow in another carries runs over. -/
theorem simulates {otherStep : Other → Label → Other → Prop} {Related : State → Other → Prop}
    (each : ∀ state other label next, Related state other → step state label next →
      ∃ otherNext, otherStep other label otherNext ∧ Related next otherNext)
    (run : Run step start labels finish) {other : Other} (related : Related start other) :
    ∃ otherFinish, Run otherStep other labels otherFinish ∧ Related finish otherFinish := by
  induction run generalizing other with
  | done state => exact ⟨other, .done other, related⟩
  | next first _ inductionHypothesis =>
      obtain ⟨otherMiddle, otherFirst, relatedMiddle⟩ := each _ _ _ _ related first
      obtain ⟨otherFinish, otherRest, relatedFinish⟩ := inductionHypothesis relatedMiddle
      exact ⟨otherFinish, .next otherFirst otherRest, relatedFinish⟩

theorem abstracts {otherStep : Other → Label → Other → Prop} (abstraction : State → Other)
    (each : ∀ state label next, step state label next →
      otherStep (abstraction state) label (abstraction next))
    (run : Run step start labels finish) :
    Run otherStep (abstraction start) labels (abstraction finish) := by
  induction run with
  | done state => exact .done _
  | next first _ inductionHypothesis => exact .next (each _ _ _ first) inductionHypothesis

section Shows

variable {Seen : Type u} {OtherLabel : Type v} {shows : Label → Option Seen}
  {otherStep : Other → OtherLabel → Other → Prop}

/-- A relation under which a run of one system follows every step of another, and shows the same,
carries runs over with what they show. -/
theorem simulates_shown {otherShows : OtherLabel → Option Seen} {Related : State → Other → Prop}
    (each : ∀ state other label next, Related state other → step state label next →
      ∃ otherLabels otherNext, Run otherStep other otherLabels otherNext ∧
        otherLabels.filterMap otherShows = (shows label).toList ∧ Related next otherNext)
    (run : Run step start labels finish) {other : Other} (related : Related start other) :
    ∃ otherLabels otherFinish, Run otherStep other otherLabels otherFinish ∧
      otherLabels.filterMap otherShows = labels.filterMap shows ∧ Related finish otherFinish := by
  induction run generalizing other with
  | done state => exact ⟨[], other, .done other, rfl, related⟩
  | @next _ _ _ label labels first _ inductionHypothesis =>
      obtain ⟨firstLabels, otherMiddle, otherFirst, sameFirst, relatedMiddle⟩ :=
        each _ _ _ _ related first
      obtain ⟨restLabels, otherFinish, otherRest, sameRest, relatedFinish⟩ :=
        inductionHypothesis relatedMiddle
      refine ⟨firstLabels ++ restLabels, otherFinish, otherFirst.append otherRest, ?_,
        relatedFinish⟩
      rw [List.filterMap_append, sameFirst, sameRest, List.filterMap_cons]
      cases shows label <;> rfl

theorem split_shown {seen : Seen} {rest : List Seen} (run : Run step start labels finish)
    (same : labels.filterMap shows = seen :: rest) :
    ∃ before label after middle next, labels = before ++ label :: after ∧
      Run step start before middle ∧ before.filterMap shows = [] ∧ step middle label next ∧
      shows label = some seen ∧ Run step next after finish ∧ after.filterMap shows = rest := by
  obtain ⟨before, label, after, rfl, unseen, visible, same⟩ :=
    List.filterMap_eq_cons_iff.mp same
  obtain ⟨middle, early, late⟩ := run.split
  cases late with
  | next first later =>
      exact ⟨before, label, after, middle, _, rfl, early,
        List.filterMap_eq_nil_iff.mpr unseen, first, visible, later, same⟩

/-- A run is a run of what its steps show if the steps that show nothing change nothing. -/
theorem shown {otherStep : Other → Seen → Other → Prop} (abstraction : State → Other)
    (each : ∀ state label next seen, shows label = some seen → step state label next →
      otherStep (abstraction state) seen (abstraction next))
    (unseen : ∀ state label next, shows label = none → step state label next →
      abstraction next = abstraction state)
    (run : Run step start labels finish) :
    Run otherStep (abstraction start) (labels.filterMap shows) (abstraction finish) := by
  induction run with
  | done state => exact .done _
  | @next _ _ _ label _ first _ inductionHypothesis =>
      rw [List.filterMap_cons]
      cases visible : shows label with
      | none =>
          rw [unseen _ _ _ visible first] at inductionHypothesis
          exact inductionHypothesis
      | some seen => exact .next (each _ _ _ _ visible first) inductionHypothesis

end Shows

end Run

end Mongres.Labelled
