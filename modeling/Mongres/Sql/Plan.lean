import Mongres.Library.Formula
import Mongres.Schema.FieldPath

/-!
# Typed SQL plans

The plans that lowering produces and that the executor accepts.  A predicate is
a formula over conditions on single fields, and the functions that walk one are
characterised by its conditions.
-/

namespace Mongres

/-- Supported scalar values and prepared-statement placeholders. -/
inductive SqlValue where
  | null
  | boolean (value : Bool)
  | integer (value : Int64)
  | floatingPoint (value : Float)
  | string (value : String)
  | placeholder (name : String)
  deriving DecidableEq

namespace SqlValue

def isPlaceholder : SqlValue → Bool
  | .placeholder _ => true
  | _ => false

end SqlValue

inductive ComparisonOperator where
  | equal
  | notEqual
  | greaterThan
  | greaterThanOrEqual
  | lessThan
  | lessThanOrEqual
  deriving DecidableEq, Repr

/-- A predicate that the deterministic executor can translate. -/
inductive Predicate where
  | compare (path : FieldPath) (operator : ComparisonOperator) (value : SqlValue)
  | inList (path : FieldPath) (values : List SqlValue) (negated : Bool)
  | isNull (path : FieldPath) (negated : Bool)
  | and (predicates : List Predicate)
  | or (predicates : List Predicate)

inductive Condition where
  | compare (path : FieldPath) (operator : ComparisonOperator) (value : SqlValue)
  | inList (path : FieldPath) (values : List SqlValue) (negated : Bool)
  | isNull (path : FieldPath) (negated : Bool)
  deriving DecidableEq

namespace Condition

def path : Condition → FieldPath
  | .compare path _ _ | .inList path _ _ | .isNull path _ => path

def values : Condition → List SqlValue
  | .compare _ _ value => [value]
  | .inList _ values _ => values
  | .isNull _ _ => []

end Condition

namespace Predicate

@[elab_as_elim]
theorem listInduction {motive : Predicate → Prop}
    (compare : ∀ path operator value, motive (.compare path operator value))
    (inList : ∀ path values negated, motive (.inList path values negated))
    (isNull : ∀ path negated, motive (.isNull path negated))
    (and : ∀ predicates, (∀ predicate ∈ predicates, motive predicate) → motive (.and predicates))
    (or : ∀ predicates, (∀ predicate ∈ predicates, motive predicate) → motive (.or predicates))
    (predicate : Predicate) : motive predicate :=
  @Predicate.rec motive (fun predicates => ∀ predicate ∈ predicates, motive predicate)
    compare inList isNull and or (by simp)
    (fun _ _ head tail => List.forall_mem_cons.mpr ⟨head, tail⟩) predicate

mutual

def conditions : Predicate → List Condition
  | .compare path operator value => [.compare path operator value]
  | .inList path values negated => [.inList path values negated]
  | .isNull path negated => [.isNull path negated]
  | .and predicates | .or predicates => conditionsOf predicates

def conditionsOf : List Predicate → List Condition
  | [] => []
  | predicate :: predicates => conditions predicate ++ conditionsOf predicates

end

theorem conditionsOf_eq_flatMap (predicates : List Predicate) :
    conditionsOf predicates = predicates.flatMap conditions := by
  induction predicates with
  | nil => rfl
  | cons predicate predicates inductionHypothesis =>
      simp [conditionsOf, inductionHypothesis]

theorem mem_conditionsOf_iff (predicates : List Predicate) (condition : Condition) :
    condition ∈ conditionsOf predicates ↔
      ∃ predicate ∈ predicates, condition ∈ predicate.conditions := by
  rw [conditionsOf_eq_flatMap, List.mem_flatMap]

theorem forall_mem_conditionsOf_iff (predicates : List Predicate) (property : Condition → Prop) :
    (∀ condition ∈ conditionsOf predicates, property condition) ↔
      ∀ predicate ∈ predicates, ∀ condition ∈ predicate.conditions, property condition := by
  simp only [mem_conditionsOf_iff]
  constructor
  · intro each predicate membership condition conditionMembership
    exact each condition ⟨predicate, membership, conditionMembership⟩
  · rintro each condition ⟨predicate, membership, conditionMembership⟩
    exact each predicate membership condition conditionMembership

mutual

def formula : Predicate → Formula Condition
  | .compare path operator value => .leaf (.compare path operator value)
  | .inList path values negated => .leaf (.inList path values negated)
  | .isNull path negated => .leaf (.isNull path negated)
  | .and predicates => .all (formulas predicates)
  | .or predicates => .any (formulas predicates)

def formulas : List Predicate → List (Formula Condition)
  | [] => []
  | predicate :: predicates => formula predicate :: formulas predicates

end

theorem formulas_eq_map (predicates : List Predicate) :
    formulas predicates = predicates.map formula := by
  induction predicates with
  | nil => rfl
  | cons predicate predicates inductionHypothesis =>
      simp [formulas, inductionHypothesis]

end Predicate

structure AssignmentPlan where
  path : FieldPath
  value : SqlValue
  deriving DecidableEq

structure ProjectedField where
  path : FieldPath
  columnAlias : Option String
  deriving DecidableEq

inductive Projection where
  | all
  | fields (fields : List ProjectedField)
  deriving DecidableEq

def Projection.paths : Projection → List FieldPath
  | .all => []
  | .fields listed => listed.map ProjectedField.path

structure SelectPlan where
  collection : String
  projection : Projection
  filter : Option Predicate
  limit : Option UInt64

structure InsertPlan where
  collection : String
  columns : List FieldPath
  rows : List (List SqlValue)

structure UpdatePlan where
  collection : String
  assignments : List AssignmentPlan
  filter : Predicate

structure DeletePlan where
  collection : String
  filter : Predicate

/-- A parsed statement approved for deterministic execution. -/
inductive StatementPlan where
  | select (plan : SelectPlan)
  | insert (plan : InsertPlan)
  | update (plan : UpdatePlan)
  | delete (plan : DeletePlan)

namespace StatementPlan

def isWrite : StatementPlan → Bool
  | .select _ => false
  | .insert _ | .update _ | .delete _ => true

def assigned : StatementPlan → List (FieldPath × SqlValue)
  | .select _ | .delete _ => []
  | .insert plan => plan.rows.flatMap plan.columns.zip
  | .update plan => plan.assignments.map fun assignment => (assignment.path, assignment.value)

/-- A plan without placeholders among the values that it writes. -/
def IsBound (plan : StatementPlan) : Prop :=
  ∀ cell ∈ plan.assigned, ∀ name, cell.2 ≠ .placeholder name

end StatementPlan

end Mongres
