import Mathlib.Tactic

/-!
# Tallies: ordered maps that accumulate events

A stream of keyed events is folded into an ordered map with one accumulator
for each key.  The accumulator of a key depends only on that key's events, in
the order of the stream.
-/

namespace Mongres.Tally

open Std

universe u v w

variable {Key : Type u} {Event : Type v} {Total : Type w}

section Events

variable [DecidableEq Key]

def eventsOf (key : Key) (events : List (Key × Event)) : List Event :=
  events.filterMap fun event => if event.1 = key then some event.2 else none

@[simp]
theorem eventsOf_nil (key : Key) : eventsOf key ([] : List (Key × Event)) = [] := rfl

@[simp]
theorem eventsOf_append (key : Key) (first second : List (Key × Event)) :
    eventsOf key (first ++ second) = eventsOf key first ++ eventsOf key second := by
  simp [eventsOf]

theorem eventsOf_cons (key : Key) (event : Key × Event) (events : List (Key × Event)) :
    eventsOf key (event :: events) =
      if event.1 = key then event.2 :: eventsOf key events else eventsOf key events := by
  by_cases same : event.1 = key <;> simp [eventsOf, same]

theorem eventsOf_flatMap {Source : Type u} (key : Key) (sources : List Source)
    (emit : Source → List (Key × Event)) :
    eventsOf key (sources.flatMap emit) =
      sources.flatMap fun source => eventsOf key (emit source) := by
  simp [eventsOf, List.filterMap_flatMap]

end Events

variable [Ord Key]

def record (step : Total → Event → Total) (start : Total)
    (totals : TreeMap Key Total) (key : Key) (event : Event) : TreeMap Key Total :=
  totals.alter key fun total => some (step (total.getD start) event)

def recordAll (step : Total → Event → Total) (start : Total)
    (totals : TreeMap Key Total) (events : List (Key × Event)) : TreeMap Key Total :=
  events.foldl (fun totals event => record step start totals event.1 event.2) totals

theorem recordAll_append (step : Total → Event → Total) (start : Total)
    (totals : TreeMap Key Total) (first second : List (Key × Event)) :
    recordAll step start totals (first ++ second) =
      recordAll step start (recordAll step start totals first) second := by
  simp [recordAll]

variable [TransOrd Key] [LawfulEqOrd Key] [DecidableEq Key]

theorem getElem?_record (step : Total → Event → Total) (start : Total)
    (totals : TreeMap Key Total) (key other : Key) (event : Event) :
    (record step start totals key event)[other]? =
      if key = other then some (step (totals[key]?.getD start) event) else totals[other]? := by
  simp [record, TreeMap.getElem?_alter]

/-- A key's accumulator is the fold over that key's own events. -/
theorem getElem?_recordAll (step : Total → Event → Total) (start : Total)
    (totals : TreeMap Key Total) (events : List (Key × Event)) (key : Key) :
    (recordAll step start totals events)[key]? =
      if eventsOf key events = [] then totals[key]?
      else some ((eventsOf key events).foldl step (totals[key]?.getD start)) := by
  induction events generalizing totals with
  | nil => simp [recordAll]
  | cons event events inductionHypothesis =>
      change (recordAll step start (record step start totals event.1 event.2) events)[key]? = _
      rw [inductionHypothesis, getElem?_record, eventsOf_cons]
      by_cases same : event.1 = key
      · subst same
        by_cases quiet : eventsOf event.1 events = [] <;> simp [quiet]
      · simp [same]

theorem getElem?_recordAll_empty (step : Total → Event → Total) (start : Total)
    (events : List (Key × Event)) (key : Key) :
    (recordAll step start ∅ events)[key]? =
      if eventsOf key events = [] then none else some ((eventsOf key events).foldl step start) := by
  simp [getElem?_recordAll]

theorem find?_toList (totals : TreeMap Key Total) (key : Key) :
    (totals.toList.find? fun entry => decide (entry.1 = key)) =
      totals[key]?.map fun total => (key, total) := by
  have sameTest : (fun entry : Key × Total => decide (entry.1 = key)) =
      fun entry => compare entry.1 key == .eq := by
    funext entry
    rw [Bool.eq_iff_iff, decide_eq_true_iff, beq_iff_eq, LawfulEqOrd.compare_eq_iff_eq]
  rw [sameTest]
  cases held : totals[key]? with
  | none =>
      rw [Option.map_none, TreeMap.find?_toList_eq_none_iff_not_mem]
      simpa using held
  | some total =>
      rw [Option.map_some, TreeMap.find?_toList_eq_some_iff_getKey?_eq_some_and_getElem?_eq_some]
      have member : key ∈ totals := by
        rw [← TreeMap.isSome_getElem?_iff_mem, held]
        rfl
      exact ⟨TreeMap.getKey?_eq_some member, held⟩

end Mongres.Tally
