import Mongres.Executor.Execute
import Mongres.Executor.FilterGrammar
import Mongres.Sql.Substitution

/-!
# What the executor refuses

A filter is refused for what one of its parts is, at whatever depth that part stands.  Every
document of a statement is built before the first driver call, so one placeholder stops the
whole statement.
-/

namespace Mongres

open Fallible

/-! ## Parts of a filter -/

namespace Predicate

inductive Within : Predicate → Predicate → Prop where
  | whole (predicate) : Within predicate predicate
  | and {part predicate predicates} : predicate ∈ predicates → Within part predicate →
      Within part (.and predicates)
  | or {part predicate predicates} : predicate ∈ predicates → Within part predicate →
      Within part (.or predicates)

/-- A placeholder, a literal dotted path or an empty connective, not looking into the
predicates that a connective joins. -/
def Refused : Predicate → Prop
  | .compare path _ value => value.isPlaceholder = true ∨ path.isLiteralDottedKey = true
  | .inList path values _ =>
      (∃ value ∈ values, value.isPlaceholder = true) ∨ path.isLiteralDottedKey = true
  | .isNull path _ => path.isLiteralDottedKey = true
  | .and predicates | .or predicates => predicates = []

def Translates (predicate : Predicate) : Prop :=
  ∀ part : Predicate, part.Within predicate → ¬ part.Refused

theorem translates_compare_iff {path : FieldPath} {operator : ComparisonOperator}
    {value : SqlValue} :
    (compare path operator value).Translates ↔
      value.isPlaceholder = false ∧ path.isLiteralDottedKey = false := by
  constructor
  · intro translates
    simpa [Refused, not_or] using translates _ (.whole _)
  · rintro ⟨bound, plain⟩ part within
    cases within
    simp [Refused, bound, plain]

theorem translates_inList_iff {path : FieldPath} {values : List SqlValue} {negated : Bool} :
    (inList path values negated).Translates ↔
      (∀ value ∈ values, value.isPlaceholder = false) ∧ path.isLiteralDottedKey = false := by
  constructor
  · intro translates
    simpa [Refused, not_or] using translates _ (.whole _)
  · rintro ⟨bound, plain⟩ part within
    cases within
    simpa [Refused, plain] using bound

theorem translates_isNull_iff {path : FieldPath} {negated : Bool} :
    (isNull path negated).Translates ↔ path.isLiteralDottedKey = false := by
  constructor
  · intro translates
    simpa [Refused] using translates _ (.whole _)
  · intro plain part within
    cases within
    simp [Refused, plain]

/-- The parts of a connective are itself and those of what it joins. -/
private theorem translates_connective_iff {whole : Predicate} {predicates : List Predicate}
    (parts : ∀ part : Predicate,
      part.Within whole ↔ part = whole ∨ ∃ predicate ∈ predicates, part.Within predicate)
    (refused : whole.Refused ↔ predicates = []) :
    whole.Translates ↔ predicates ≠ [] ∧ ∀ predicate ∈ predicates, predicate.Translates := by
  constructor
  · intro translates
    refine ⟨mt refused.mpr (translates whole ((parts whole).mpr (.inl rfl))), ?_⟩
    intro predicate membership part within
    exact translates part ((parts part).mpr (.inr ⟨predicate, membership, within⟩))
  · rintro ⟨nonempty, each⟩ part within
    rcases (parts part).mp within with rfl | ⟨predicate, membership, within⟩
    · exact mt refused.mp nonempty
    · exact each predicate membership part within

theorem translates_and_iff {predicates : List Predicate} :
    (and predicates).Translates ↔
      predicates ≠ [] ∧ ∀ predicate ∈ predicates, predicate.Translates := by
  refine translates_connective_iff (fun part => ⟨fun within => ?_, ?_⟩) Iff.rfl
  · cases within with
    | whole => exact .inl rfl
    | and membership within => exact .inr ⟨_, membership, within⟩
  · rintro (rfl | ⟨predicate, membership, within⟩)
    · exact .whole _
    · exact .and membership within

theorem translates_or_iff {predicates : List Predicate} :
    (or predicates).Translates ↔
      predicates ≠ [] ∧ ∀ predicate ∈ predicates, predicate.Translates := by
  refine translates_connective_iff (fun part => ⟨fun within => ?_, ?_⟩) Iff.rfl
  · cases within with
    | whole => exact .inl rfl
    | or membership within => exact .inr ⟨_, membership, within⟩
  · rintro (rfl | ⟨predicate, membership, within⟩)
    · exact .whole _
    · exact .or membership within

end Predicate

/-! ## Which filters are built -/

theorem exists_connective_iff {operator : String} {predicates : List Predicate} :
    (∃ document, (predicateDocuments predicates >>= fun documents =>
        logicalDocument operator documents) = .ok document) ↔
      predicates ≠ [] ∧
        ∀ predicate ∈ predicates, ∃ document, predicateDocument predicate = .ok document := by
  simp only [predicateDocuments_eq_collect, bind_eq_ok_iff, logicalDocument_eq_ok_iff]
  rw [← exists_collect_iff]
  constructor
  · rintro ⟨_, documents, collected, nonempty, _⟩
    refine ⟨?_, documents, collected⟩
    rintro rfl
    cases collected
    exact nonempty rfl
  · rintro ⟨nonempty, documents, collected⟩
    refine ⟨_, documents, collected, ?_, rfl⟩
    rintro rfl
    exact nonempty (List.eq_nil_of_length_eq_zero (length_of_collect collected).symm)

theorem exists_predicateDocument_iff_translates (predicate : Predicate) :
    (∃ document, predicateDocument predicate = .ok document) ↔ predicate.Translates := by
  induction predicate using Predicate.listInduction with
  | compare path operator value =>
      rw [Predicate.translates_compare_iff, ← exists_bsonValue_iff]
      simp [predicateDocument, bind_eq_ok_iff, mongoFieldName_eq_ok_iff, and_comm]
  | inList path values negated =>
      simp only [Predicate.translates_inList_iff, ← exists_bsonValue_iff, ← exists_collect_iff]
      simp [predicateDocument, bind_eq_ok_iff, mongoFieldName_eq_ok_iff, and_comm]
  | isNull path negated =>
      rw [Predicate.translates_isNull_iff]
      simp [predicateDocument, bind_eq_ok_iff, mongoFieldName_eq_ok_iff, logicalDocument_eq_ok_iff]
  | and predicates inductionHypothesis =>
      rw [predicateDocument, exists_connective_iff, Predicate.translates_and_iff]
      exact and_congr_right fun _ => forall₂_congr inductionHypothesis
  | or predicates inductionHypothesis =>
      rw [predicateDocument, exists_connective_iff, Predicate.translates_or_iff]
      exact and_congr_right fun _ => forall₂_congr inductionHypothesis

/-! ## Placeholders -/

theorem Predicate.not_translates_of_placeholder {predicate : Predicate}
    (unbound : ∃ value ∈ predicate.values, value.isPlaceholder = true) :
    ¬ predicate.Translates := by
  obtain ⟨value, membership, placeholder⟩ := unbound
  induction predicate using Predicate.listInduction with
  | compare path operator compared =>
      rw [values_compare, List.mem_singleton] at membership
      rw [translates_compare_iff, ← membership, placeholder]
      simp
  | inList path values negated =>
      rw [values_inList] at membership
      rw [translates_inList_iff]
      rintro ⟨bound, _⟩
      cases placeholder.symm.trans (bound value membership)
  | isNull path negated => cases membership
  | and predicates inductionHypothesis =>
      rw [values_and, List.mem_flatMap] at membership
      obtain ⟨predicate, listed, membership⟩ := membership
      rw [translates_and_iff]
      exact fun translates =>
        inductionHypothesis predicate listed membership (translates.2 predicate listed)
  | or predicates inductionHypothesis =>
      rw [values_or, List.mem_flatMap] at membership
      obtain ⟨predicate, listed, membership⟩ := membership
      rw [translates_or_iff]
      exact fun translates =>
        inductionHypothesis predicate listed membership (translates.2 predicate listed)

theorem isPlaceholder_of_bsonValue {value : SqlValue} {operand : Bson}
    (converted : bsonValue value = .ok operand) : value.isPlaceholder = false :=
  (exists_bsonValue_iff value).mp ⟨operand, converted⟩

theorem isPlaceholder_of_buildInsertDocument {columns : List FieldPath} {row : List SqlValue}
    {document : Document} (built : buildInsertDocument columns row = .ok document) :
    ∀ value ∈ row, value.isPlaceholder = false := by
  obtain ⟨sameLength, built⟩ := ite_error_eq_ok_iff.mp built
  intro value membership
  rw [← List.map_snd_zip (not_not.mp sameLength).ge, List.mem_map] at membership
  obtain ⟨cell, listed, rfl⟩ := membership
  obtain ⟨state, next, stepped⟩ := exists_step_of_foldlM built listed
  obtain ⟨_, stepped⟩ := ite_error_eq_ok_iff.mp stepped
  obtain ⟨operand, converted, _⟩ := bind_eq_ok_iff.mp stepped
  exact isPlaceholder_of_bsonValue converted

theorem isPlaceholder_of_updateDocument {assignments : List AssignmentPlan} {update : Document}
    (built : updateDocument assignments = .ok update) :
    ∀ assignment ∈ assignments, assignment.value.isPlaceholder = false := by
  obtain ⟨_, built⟩ := ite_error_eq_ok_iff.mp built
  obtain ⟨progress, folded, _⟩ := bind_eq_ok_iff.mp built
  intro assignment membership
  obtain ⟨state, next, stepped⟩ := exists_step_of_foldlM folded membership
  obtain ⟨field, _, stepped⟩ := bind_eq_ok_iff.mp stepped
  obtain ⟨_, _, stepped⟩ := bind_eq_ok_iff.mp stepped
  obtain ⟨operand, converted, _⟩ := bind_eq_ok_iff.mp stepped
  exact isPlaceholder_of_bsonValue converted

/-! ## Statements -/

def Stops {α : Type} (calls : List DriverCall) (run : Result α × List DriverCall) : Prop :=
  ∃ error, run = (.error error, calls)

theorem stops_prepared {α β : Type} {calls : List DriverCall} {attempt : Result α}
    {next : α → Result β × List DriverCall}
    (stops : ∀ value, attempt = .ok value → Stops calls (next value)) :
    Stops calls (prepared calls attempt next) := by
  cases attempt with
  | error error => exact ⟨error, rfl⟩
  | ok value => exact stops value rfl

/-- A placeholder among the values of a plan: in its filter, its rows or its assignments. -/
def StatementPlan.HasPlaceholder (plan : StatementPlan) : Prop :=
  ∃ value ∈ plan.values, value.isPlaceholder = true

section Statements

variable (driver : Driver) (calls : List DriverCall)

theorem not_predicateDocument_of_placeholder {predicate : Predicate} {document : Document}
    (unbound : ∃ value ∈ predicate.values, value.isPlaceholder = true) :
    predicateDocument predicate ≠ .ok document := fun built =>
  Predicate.not_translates_of_placeholder unbound
    ((exists_predicateDocument_iff_translates predicate).mp ⟨document, built⟩)

theorem executeSelect_stops {plan : SelectPlan}
    (unbound : (StatementPlan.select plan).HasPlaceholder) :
    Stops calls (executeSelect driver plan calls) := by
  obtain ⟨value, membership, placeholder⟩ := unbound
  obtain ⟨predicate, filtered, membership⟩ := List.mem_flatMap.mp membership
  apply stops_prepared
  intro filter built
  rw [Option.mem_toList.mp filtered] at built
  exact absurd built (not_predicateDocument_of_placeholder ⟨value, membership, placeholder⟩)

theorem executeInsert_stops {plan : InsertPlan}
    (unbound : (StatementPlan.insert plan).HasPlaceholder) :
    Stops calls (executeInsert driver plan calls) := by
  obtain ⟨value, membership, placeholder⟩ := unbound
  obtain ⟨row, listed, membership⟩ := List.mem_flatten.mp membership
  apply stops_prepared
  intro documents collected
  obtain ⟨document, _, built⟩ := exists_mem_of_collect collected listed
  cases placeholder.symm.trans (isPlaceholder_of_buildInsertDocument built value membership)

theorem executeUpdate_stops {plan : UpdatePlan}
    (unbound : (StatementPlan.update plan).HasPlaceholder) :
    Stops calls (executeUpdate driver plan calls) := by
  obtain ⟨value, membership, placeholder⟩ := unbound
  apply stops_prepared
  intro filter filtered
  apply stops_prepared
  intro update built
  rcases List.mem_append.mp membership with assigned | compared
  · obtain ⟨assignment, listed, rfl⟩ := List.mem_map.mp assigned
    cases placeholder.symm.trans (isPlaceholder_of_updateDocument built assignment listed)
  · exact absurd filtered (not_predicateDocument_of_placeholder ⟨value, compared, placeholder⟩)

theorem executeDelete_stops {plan : DeletePlan}
    (unbound : (StatementPlan.delete plan).HasPlaceholder) :
    Stops calls (executeDelete driver plan calls) := by
  apply stops_prepared
  intro filter filtered
  exact absurd filtered (not_predicateDocument_of_placeholder unbound)

theorem executeWrite_stops {plan : StatementPlan} (unbound : plan.HasPlaceholder) :
    Stops calls (executeWrite driver plan calls) := by
  cases plan with
  | select plan => exact ⟨_, rfl⟩
  | insert plan => exact executeInsert_stops driver calls unbound
  | update plan => exact executeUpdate_stops driver calls unbound
  | delete plan => exact executeDelete_stops driver calls unbound

end Statements

/-- A filter is refused exactly for a placeholder, a literal dotted path or an empty connective
somewhere in it, and a statement with a placeholder stops before the driver is called. -/
theorem unbound_never_sent :
    (∀ predicate, (∃ error, predicateDocument predicate = .error error) ↔
      ∃ part : Predicate, part.Within predicate ∧ part.Refused) ∧
    ∀ (driver : Driver) (plan : StatementPlan) (calls : List DriverCall), plan.HasPlaceholder →
      Stops calls (executeWrite driver plan calls) ∧
        ∀ select, plan = .select select → Stops calls (executeSelect driver select calls) := by
  refine ⟨fun predicate => ?_, fun driver plan calls unbound => ?_⟩
  · rw [exists_error_iff, exists_predicateDocument_iff_translates, Predicate.Translates]
    simp only [not_forall, not_not, exists_prop]
  · refine ⟨executeWrite_stops driver calls unbound, ?_⟩
    rintro select rfl
    exact executeSelect_stops driver calls unbound

section Example

/-- `UPDATE parts SET name = 'axle' WHERE size = 1 OR size NOT IN (2, $1)`. -/
private def unboundUpdate : StatementPlan :=
  .update
    { collection := "parts"
      assignments := [{ path := ⟨["name"]⟩, value := .string "axle" }]
      filter := .or
        [.compare ⟨["size"]⟩ .equal (.integer 1),
          .inList ⟨["size"]⟩ [.integer 2, .placeholder "$1"] true] }

private def acceptingDriver : Driver where
  find _ _ _ _ := .ok []
  insertOne _ _ := .ok ()
  insertMany _ documents := .ok (UInt64.ofNat documents.length)
  updateMany _ _ _ := .ok (1, 1)
  deleteMany _ _ := .ok 1

theorem unbound_never_sent_update :
    Stops [] (executeWrite acceptingDriver unboundUpdate []) := by
  have unbound : unboundUpdate.HasPlaceholder :=
    ⟨.placeholder "$1", by simp [unboundUpdate, StatementPlan.values], rfl⟩
  exact (unbound_never_sent.2 acceptingDriver unboundUpdate [] unbound).1

end Example

end Mongres
