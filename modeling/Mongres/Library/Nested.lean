import Mathlib.Data.List.Basic

/-!
# Values nested by keys

Some values are documents: lists of keyed values.  A path descends from a value
through documents only, so it never enters a value of another kind.
-/

namespace Mongres

universe u v w

section Lookup

variable {Key : Type u} {Value : Type v} {Image : Type w} [DecidableEq Key]

theorem lookup_cons_eq_if (key name : Key) (value : Value) (entries : List (Key × Value)) :
    ((name, value) :: entries).lookup key =
      if key = name then some value else entries.lookup key := by
  by_cases same : key = name
  · simp [same]
  · rw [List.lookup_cons, beq_eq_false_iff_ne.mpr same, if_neg same]

theorem lookup_map (translate : Value → Image) (key : Key) (entries : List (Key × Value)) :
    (entries.map fun entry => (entry.1, translate entry.2)).lookup key =
      (entries.lookup key).map translate := by
  induction entries with
  | nil => rfl
  | cons entry entries inductionHypothesis =>
      obtain ⟨name, value⟩ := entry
      rw [List.map_cons, lookup_cons_eq_if, lookup_cons_eq_if, inductionHypothesis]
      split <;> rfl

theorem lookup_eq_some_iff_mem {entries : List (Key × Value)}
    (distinct : (entries.map Prod.fst).Nodup) (key : Key) (value : Value) :
    entries.lookup key = some value ↔ (key, value) ∈ entries := by
  induction entries with
  | nil => simp
  | cons entry entries inductionHypothesis =>
      obtain ⟨name, first⟩ := entry
      rw [List.map_cons, List.nodup_cons] at distinct
      rw [lookup_cons_eq_if, List.mem_cons]
      by_cases same : key = name
      · subst same
        have absent : (key, value) ∉ entries := fun membership =>
          distinct.1 (List.mem_map.mpr ⟨_, membership, rfl⟩)
        simp [absent, eq_comm]
      · simp [same, inductionHypothesis distinct.2]

end Lookup

/-- Values of which some are documents with keyed fields. -/
class Nested (Key : outParam (Type u)) (Value : Type v) where
  fields : Value → Option (List (Key × Value))

namespace Nested

variable {Key : Type u} {Value : Type v} [DecidableEq Key] [Nested Key Value]

/-- The value at the end of a path through documents. -/
def descend (value : Value) : List Key → Option Value
  | [] => some value
  | key :: path =>
      (fields value).bind fun entries =>
        (entries.lookup key).bind fun child => descend child path

@[simp]
theorem descend_nil (value : Value) : descend value [] = some value := by
  rw [descend]

theorem descend_cons (value : Value) (key : Key) (path : List Key) :
    descend value (key :: path) =
      (fields value).bind fun entries =>
        (entries.lookup key).bind fun child => descend child path := by
  rw [descend]

theorem descend_append (value : Value) (first second : List Key) :
    descend value (first ++ second) =
      (descend value first).bind fun child => descend child second := by
  induction first generalizing value with
  | nil => simp
  | cons key first inductionHypothesis =>
      simp only [List.cons_append, descend_cons, inductionHypothesis, Option.bind_assoc]

theorem descend_document {value leaf : Value} {first rest : List Key} (proper : rest ≠ [])
    (reached : descend value (first ++ rest) = some leaf) :
    ∃ document, descend value first = some document ∧ (fields document).isSome := by
  rw [descend_append, Option.bind_eq_some_iff] at reached
  obtain ⟨document, found, descends⟩ := reached
  refine ⟨document, found, ?_⟩
  obtain ⟨key, path, rfl⟩ := List.exists_cons_of_ne_nil proper
  rw [descend_cons, Option.bind_eq_some_iff] at descends
  obtain ⟨entries, isDocument, _⟩ := descends
  simp [isDocument]

theorem descend_map {Image : Type w} [Nested Key Image] (translate : Value → Image)
    (preserves : ∀ value, fields (translate value) =
      (fields value).map (List.map fun entry => (entry.1, translate entry.2)))
    (value : Value) (path : List Key) :
    descend (translate value) path = (descend value path).map translate := by
  induction path generalizing value with
  | nil => simp
  | cons key path inductionHypothesis =>
      rw [descend_cons, descend_cons, preserves]
      cases fields value with
      | none => rfl
      | some entries =>
          simp only [Option.map_some, Option.bind_some, lookup_map]
          cases entries.lookup key with
          | none => rfl
          | some child => simp [inductionHypothesis]

end Nested

end Mongres
