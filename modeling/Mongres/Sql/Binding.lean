import Mongres.Sql.Lowering

/-!
# Prepared-statement placeholder binding

Binding substitutes typed parameter values into a plan and applies the type
policy of literals to the result.
-/

namespace Mongres

open Fallible

def parsePlaceholderIndex (placeholder : String) : Result Nat :=
  match placeholder.toList with
  | '$' :: digits => do
      let index ← okOr (Decimal.parseUnsigned (2 ^ 64 - 1) (String.ofList digits)) (invalidInput
        s!"invalid prepared-statement placeholder '{placeholder}'; expected $ followed by a positive integer")
      if index = 0 then
        .error (invalidInput "prepared-statement placeholder indexes start at $1")
      else .ok index
  | _ => .error (invalidInput
      s!"unsupported prepared-statement placeholder '{placeholder}'; use PostgreSQL $n placeholders")

def placeholderIndex : SqlValue → Result Nat
  | .placeholder placeholder => parsePlaceholderIndex placeholder
  | _ => .ok 0

/-- The largest index of a list, stopping at the first malformed placeholder. -/
def tryMaximum {Element : Type} (index : Element → Result Nat) : List Element → Result Nat
  | [] => .ok 0
  | element :: rest => do
      let first ← index element
      let others ← tryMaximum index rest
      .ok (max first others)

mutual

def maximumPredicateIndex : Predicate → Result Nat
  | .compare _ _ value => placeholderIndex value
  | .inList _ values _ => tryMaximum placeholderIndex values
  | .isNull _ _ => .ok 0
  | .and predicates | .or predicates => maximumPredicatesIndex predicates

def maximumPredicatesIndex : List Predicate → Result Nat
  | [] => .ok 0
  | predicate :: predicates => do
      let first ← maximumPredicateIndex predicate
      let others ← maximumPredicatesIndex predicates
      .ok (max first others)

end

def maximumPlaceholderIndex : StatementPlan → Result Nat
  | .select plan => tryMaximum maximumPredicateIndex plan.filter.toList
  | .insert plan => tryMaximum placeholderIndex plan.rows.flatten
  | .update plan => do
      let assigned ← tryMaximum (fun assignment : AssignmentPlan => placeholderIndex assignment.value)
        plan.assignments
      let filtered ← maximumPredicateIndex plan.filter
      .ok (max assigned filtered)
  | .delete plan => maximumPredicateIndex plan.filter

def bindValue (parameters : List SqlValue) : SqlValue → Result SqlValue
  | .placeholder placeholder => do
      let index ← parsePlaceholderIndex placeholder
      okOr parameters[index - 1]?
        (invalidInput s!"missing bound value for placeholder {placeholder}")
  | value => .ok value

mutual

def bindPredicate (parameters : List SqlValue) : Predicate → Result Predicate
  | .compare path operator value => do
      let value ← bindValue parameters value
      .ok (.compare path operator value)
  | .inList path values negated => do
      let values ← collect (bindValue parameters) values
      .ok (.inList path values negated)
  | .isNull path negated => .ok (.isNull path negated)
  | .and predicates => (bindPredicates parameters predicates).map .and
  | .or predicates => (bindPredicates parameters predicates).map .or

def bindPredicates (parameters : List SqlValue) : List Predicate → Result (List Predicate)
  | [] => .ok []
  | predicate :: predicates => do
      let first ← bindPredicate parameters predicate
      let others ← bindPredicates parameters predicates
      .ok (first :: others)

end

def bindAssignment (parameters : List SqlValue) (assignment : AssignmentPlan) :
    Result AssignmentPlan := do
  let value ← bindValue parameters assignment.value
  .ok { path := assignment.path, value }

/-- The substitution of `bindParameters`, before the bound plan is validated. -/
def bindPlan (parameters : List SqlValue) : StatementPlan → Result StatementPlan
  | .select plan => do
      let filter ← transpose (bindPredicate parameters) plan.filter
      .ok (.select { plan with filter })
  | .insert plan => do
      let rows ← collect (collect (bindValue parameters)) plan.rows
      .ok (.insert { plan with rows })
  | .update plan => do
      let assignments ← collect (bindAssignment parameters) plan.assignments
      let filter ← bindPredicate parameters plan.filter
      .ok (.update { plan with assignments, filter })
  | .delete plan => do
      let filter ← bindPredicate parameters plan.filter
      .ok (.delete { plan with filter })

def validateBoundPlan (plan : StatementPlan) (schema : SchemaProfile) : Result Unit :=
  match plan with
  | .select plan => tryForEach (validateReadPredicate schema) plan.filter.toList
  | .insert plan =>
      tryForEach (fun row =>
        tryForEach (fun cell => validateWriteValue cell.1 cell.2 schema) (plan.columns.zip row))
        plan.rows
  | .update plan => do
      tryForEach (fun assignment : AssignmentPlan =>
        validateWriteValue assignment.path assignment.value schema) plan.assignments
      validateWritePredicate schema plan.filter
  | .delete plan => validateWritePredicate schema plan.filter

/-- Binds positional parameters to a parsed SQL plan. -/
def bindParameters (plan : StatementPlan) (parameters : List SqlValue) (schema : SchemaProfile) :
    Result StatementPlan :=
  if parameters.any SqlValue.isPlaceholder then
    .error (invalidInput "bound parameter values cannot be placeholders")
  else do
    let requiredCount ← maximumPlaceholderIndex plan
    if requiredCount ≠ parameters.length then
      .error (invalidInput
        s!"prepared statement requires {requiredCount} parameters but received {parameters.length}")
    else do
      let plan ← bindPlan parameters plan
      validateBoundPlan plan schema
      .ok plan

/-- Binding substitutes as many values as the plan needs, and validates the result. -/
theorem bindParameters_eq_ok_iff {plan bound : StatementPlan} {parameters : List SqlValue}
    {schema : SchemaProfile} :
    bindParameters plan parameters schema = .ok bound ↔
      parameters.any SqlValue.isPlaceholder = false ∧
        maximumPlaceholderIndex plan = .ok parameters.length ∧
        bindPlan parameters plan = .ok bound ∧ validateBoundPlan bound schema = .ok () := by
  unfold bindParameters
  simp only [ite_error_eq_ok_iff, bind_eq_ok_iff, Bool.not_eq_true, ne_eq, not_not]
  constructor
  · rintro ⟨values, _, counted, rfl, substituted, substitutes, ⟨⟩, validated, same⟩
    cases same
    exact ⟨values, counted, substitutes, validated⟩
  · rintro ⟨values, counted, substitutes, validated⟩
    exact ⟨values, _, counted, rfl, _, substitutes, (), validated, rfl⟩

theorem bindPredicates_eq_collect (parameters : List SqlValue) (predicates : List Predicate) :
    bindPredicates parameters predicates = collect (bindPredicate parameters) predicates := by
  induction predicates with
  | nil => rfl
  | cons predicate predicates inductionHypothesis =>
      rw [bindPredicates, collect, inductionHypothesis]

namespace StatementPlan

/-- A plan that some statement lowers, and if needed binds, to over a profile. -/
def Prepared (schema : SchemaProfile) (plan : StatementPlan) : Prop :=
  ∃ statement collection lowered,
    lowerStatement statement collection schema = .ok lowered ∧
      (plan = lowered ∨ ∃ parameters, bindParameters lowered parameters schema = .ok plan)

end StatementPlan

end Mongres
