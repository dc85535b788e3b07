import Mongres.Library.Failure
import Mongres.Sql.Binding

/-!
# What statements are refused with

Whatever lowering and binding do not accept, they refuse as unsupported or as invalid input; the
other kinds of errors are left to the parser, to the write gate and to the services.
-/

namespace Mongres

open Fallible Ast

/-- The errors of the proxy's own checks. -/
def ProxyError.IsRefusal (error : ProxyError) : Prop :=
  error.kind = .invalidInput ∨ error.kind = .featureNotSupported

@[simp]
theorem isRefusal_invalidInput (message : String) : (invalidInput message).IsRefusal := .inl rfl

@[simp]
theorem isRefusal_unsupportedFeature (feature : String) :
    (unsupportedFeature feature).IsRefusal := .inr rfl

@[simp]
theorem isRefusal_absentField (path : FieldPath) : (absentField path).IsRefusal := .inl rfl

/-- The attempt fails only because the proxy refuses the statement. -/
abbrev Refuses {α : Type} (attempt : Result α) : Prop := FailsOnlyWith ProxyError.IsRefusal attempt

/-! ## Names and values -/

@[simp]
theorem refuses_collectionNameFromObjectName (name : ObjectName) :
    Refuses (collectionNameFromObjectName name) := by
  unfold collectionNameFromObjectName
  split <;> simp

@[simp]
theorem refuses_collectionNameFromTableWithJoins (table : TableWithJoins) :
    Refuses (collectionNameFromTableWithJoins table) := by
  unfold collectionNameFromTableWithJoins
  cases table.relation <;> simp

@[simp]
theorem refuses_activeCollection (collection expected : String) :
    Refuses (activeCollection collection expected) := by
  simp [activeCollection]

@[simp]
theorem refuses_collectionFromObjectName (name : ObjectName) (expected : String) :
    Refuses (collectionFromObjectName name expected) := by
  simp [collectionFromObjectName]

@[simp]
theorem refuses_collectionFromTableWithJoins (table : TableWithJoins) (expected : String) :
    Refuses (collectionFromTableWithJoins table expected) := by
  simp [collectionFromTableWithJoins]

@[simp]
theorem refuses_parseValue (expression : Expr) : Refuses (parseValue expression) := by
  unfold parseValue
  split <;> simp

@[simp]
theorem refuses_parseLimit (expression : Expr) : Refuses (parseLimit expression) := by
  refine failsOnlyWith_bind.mpr ⟨refuses_parseValue expression, fun value _ => ?_⟩
  split <;> simp

@[simp]
theorem refuses_resolveField (identifiers : List Ident) (collection : String)
    (schema : SchemaProfile) : Refuses (resolveField identifiers collection schema) := by
  unfold resolveField
  split <;> simp

@[simp]
theorem refuses_resolveExpressionField (expression : Expr) (collection : String)
    (schema : SchemaProfile) : Refuses (resolveExpressionField expression collection schema) := by
  unfold resolveExpressionField
  split <;> simp

@[simp]
theorem refuses_resolveInsertColumn (identifier : Ident) (collection : String)
    (schema : SchemaProfile) : Refuses (resolveInsertColumn identifier collection schema) := by
  unfold resolveInsertColumn
  split <;> simp

@[simp]
theorem refuses_parseComparisonOperator (op : BinaryOperator) :
    Refuses (parseComparisonOperator op) := by
  cases op <;> simp [parseComparisonOperator]

@[simp]
theorem refuses_parsePredicate (collection : String) (schema : SchemaProfile)
    (expression : Expr) : Refuses (parsePredicate collection schema expression) := by
  fun_induction parsePredicate collection schema expression with
  | case1 => assumption
  | case2 _ _ first second | case3 _ _ first second => simp [first, second]
  | case5 => simp [FailsOnlyWith.collect]
  | _ => simp

/-! ## The type policy -/

@[simp]
theorem refuses_validateFieldShape (path : FieldPath) (schema : SchemaProfile) :
    Refuses (validateFieldShape path schema) := by
  refine failsOnlyWith_bind.mpr ⟨by simp, fun profile _ => ?_⟩
  dsimp only
  split <;> simp

@[simp]
theorem refuses_validateValue (path : FieldPath) (value : SqlValue) (schema : SchemaProfile)
    (nullIsAllowed : Bool) : Refuses (validateValue path value schema nullIsAllowed) := by
  unfold validateValue
  split
  · exact failsOnlyWith_ok
  · simp
  · refine failsOnlyWith_bind.mpr ⟨refuses_validateFieldShape path schema, fun shape _ => ?_⟩
    split <;> simp

mutual

theorem refuses_validateWritePredicate (schema : SchemaProfile) (predicate : Predicate) :
    Refuses (validateWritePredicate schema predicate) := by
  cases predicate with
  | compare path operator value => exact refuses_validateValue path value schema false
  | inList path values negated => exact .tryForEach (by simp) values
  | isNull path negated => simp [validateWritePredicate]
  | and predicates => exact refuses_validateWritePredicates schema predicates
  | or predicates => exact refuses_validateWritePredicates schema predicates

theorem refuses_validateWritePredicates (schema : SchemaProfile) (predicates : List Predicate) :
    Refuses (validateWritePredicates schema predicates) := by
  cases predicates with
  | nil => exact failsOnlyWith_ok
  | cons predicate predicates =>
      exact failsOnlyWith_bind.mpr ⟨refuses_validateWritePredicate schema predicate,
        fun _ _ => refuses_validateWritePredicates schema predicates⟩

end

/-! ## Statements -/

@[simp]
theorem refuses_parseProjection (projection : List SelectItem) (collection : String)
    (schema : SchemaProfile) : Refuses (parseProjection projection collection schema) := by
  unfold parseProjection
  split
  · exact failsOnlyWith_ok
  · refine failsOnlyWith_map.mpr (.collect fun item _ => ?_)
    cases item <;> simp [parseProjectionItem]

theorem refuses_parseSelect (query : Query) (collection : String) (schema : SchemaProfile) :
    Refuses (parseSelect query collection schema) := by
  unfold parseSelect
  refine failsOnlyWith_ite.mpr ⟨by simp, fun _ => ?_⟩
  split
  · rename_i select _
    have shaped : Refuses (validateSelectShape select) := by simp [validateSelectShape]
    have named : Refuses (collectionFromSelect select collection) := by
      unfold collectionFromSelect
      split <;> simp
    refine failsOnlyWith_bind.mpr ⟨shaped, fun _ _ => ?_⟩
    refine failsOnlyWith_bind.mpr ⟨named, fun named _ => ?_⟩
    refine failsOnlyWith_bind.mpr ⟨by simp, fun projection _ => ?_⟩
    refine failsOnlyWith_bind.mpr ⟨.transpose (by simp) _, fun filter _ => ?_⟩
    refine failsOnlyWith_bind.mpr
      ⟨.tryForEach (refuses_validateWritePredicate schema) _, fun _ _ => ?_⟩
    exact failsOnlyWith_bind.mpr ⟨.transpose (by simp) _, by simp⟩
  · simp

theorem refuses_parseInsertRow (columns : List FieldPath) (schema : SchemaProfile)
    (row : List Expr) : Refuses (parseInsertRow columns schema row) := by
  refine failsOnlyWith_ite.mpr ⟨by simp, fun _ => ?_⟩
  refine failsOnlyWith_bind.mpr ⟨.collect (by simp), fun values _ => ?_⟩
  exact failsOnlyWith_bind.mpr ⟨.tryForEach (by simp [validateWriteValue]) _, by simp⟩

theorem refuses_parseInsert (insert : Insert) (collection : String) (schema : SchemaProfile) :
    Refuses (parseInsert insert collection schema) := by
  refine failsOnlyWith_bind.mpr ⟨by simp, fun named _ => ?_⟩
  refine failsOnlyWith_ite.mpr ⟨by simp, fun _ => failsOnlyWith_ite.mpr ⟨by simp, fun _ => ?_⟩⟩
  refine failsOnlyWith_bind.mpr ⟨.collect (by simp), fun columns _ => ?_⟩
  refine failsOnlyWith_bind.mpr ⟨by simp, fun source _ => ?_⟩
  refine failsOnlyWith_ite.mpr ⟨by simp, fun _ => ?_⟩
  split
  · refine failsOnlyWith_ite.mpr ⟨by simp, fun _ => ?_⟩
    exact failsOnlyWith_bind.mpr
      ⟨.collect fun row _ => refuses_parseInsertRow columns schema row, by simp⟩
  · simp

theorem refuses_parseUpdate (update : Update) (collection : String) (schema : SchemaProfile) :
    Refuses (parseUpdate update collection schema) := by
  have assigns (named : String) (assignment : Assignment) :
      Refuses (parseAssignment named schema assignment) := by
    unfold parseAssignment
    split <;> simp
  refine failsOnlyWith_ite.mpr ⟨by simp, fun _ => ?_⟩
  refine failsOnlyWith_bind.mpr ⟨by simp, fun named _ => ?_⟩
  refine failsOnlyWith_ite.mpr ⟨by simp, fun _ => ?_⟩
  refine failsOnlyWith_bind.mpr
    ⟨.collect fun assignment _ => assigns named assignment, fun assigned _ => ?_⟩
  refine failsOnlyWith_bind.mpr ⟨by simp, fun expression _ => ?_⟩
  refine failsOnlyWith_bind.mpr ⟨by simp, fun filter _ => ?_⟩
  refine failsOnlyWith_bind.mpr ⟨.tryForEach (by simp [validateWriteValue]) _, fun _ _ => ?_⟩
  exact failsOnlyWith_bind.mpr ⟨refuses_validateWritePredicate schema filter, by simp⟩

theorem refuses_parseDelete (delete : Delete) (collection : String) (schema : SchemaProfile) :
    Refuses (parseDelete delete collection schema) := by
  refine failsOnlyWith_ite.mpr ⟨by simp, fun _ => ?_⟩
  split
  · refine failsOnlyWith_bind.mpr ⟨by simp, fun named _ => ?_⟩
    refine failsOnlyWith_bind.mpr ⟨by simp, fun expression _ => ?_⟩
    refine failsOnlyWith_bind.mpr ⟨by simp, fun filter _ => ?_⟩
    exact failsOnlyWith_bind.mpr ⟨refuses_validateWritePredicate schema filter, by simp⟩
  · simp

theorem refuses_lowerStatement (statement : Statement) (collection : String)
    (schema : SchemaProfile) : Refuses (lowerStatement statement collection schema) := by
  cases statement with
  | query query => exact refuses_parseSelect query collection schema
  | insert insert => exact refuses_parseInsert insert collection schema
  | update update => exact refuses_parseUpdate update collection schema
  | delete delete => exact refuses_parseDelete delete collection schema
  | other name => simp [lowerStatement]

theorem refuses_collectionNameFromStatement (statement : Statement) :
    Refuses (collectionNameFromStatement statement) := by
  cases statement with
  | query query =>
      change Refuses (collectionNameFromQuery query)
      unfold collectionNameFromQuery
      split
      · split <;> simp
      · simp
  | delete delete =>
      unfold collectionNameFromStatement
      dsimp only
      split <;> simp
  | _ => simp [collectionNameFromStatement]

theorem parseSqlForProfiles_eq_error {parser : Parser} {sql : String}
    {profiles : CollectionProfiles} {error : ProxyError}
    (fails : parseSqlForProfiles parser sql profiles = .error error) :
    (∃ message, parser sql = .error message ∧ error = ⟨.invalidSyntax, message⟩) ∨
      error.IsRefusal := by
  cases parsed : parser sql with
  | error message =>
      rw [parseSqlForProfiles, parseOneStatement, parsed] at fails
      cases fails
      exact .inl ⟨message, rfl, rfl⟩
  | ok statements =>
      have read : Refuses (parseOneStatement parser sql) := by
        rw [parseOneStatement, parsed]
        split <;> simp_all
      have refuses : Refuses (parseSqlForProfiles parser sql profiles) := by
        refine failsOnlyWith_bind.mpr ⟨read, fun statement _ => ?_⟩
        refine failsOnlyWith_bind.mpr
          ⟨refuses_collectionNameFromStatement statement, fun named _ => ?_⟩
        refine failsOnlyWith_bind.mpr ⟨by simp, fun schema _ => ?_⟩
        exact refuses_lowerStatement statement named schema
      exact .inr (refuses error fails)

/-! ## Binding -/

@[simp]
theorem refuses_parsePlaceholderIndex (placeholder : String) :
    Refuses (parsePlaceholderIndex placeholder) := by
  unfold parsePlaceholderIndex
  split <;> simp

@[simp]
theorem refuses_placeholderIndex (value : SqlValue) : Refuses (placeholderIndex value) := by
  cases value <;> simp [placeholderIndex]

theorem refuses_tryMaximum {Element : Type} {index : Element → Result Nat}
    (each : ∀ element, Refuses (index element)) (elements : List Element) :
    Refuses (tryMaximum index elements) := by
  induction elements with
  | nil => exact failsOnlyWith_ok
  | cons element elements inductionHypothesis => simp [tryMaximum, each, inductionHypothesis]

mutual

theorem refuses_maximumPredicateIndex (predicate : Predicate) :
    Refuses (maximumPredicateIndex predicate) := by
  cases predicate with
  | compare path operator value => exact refuses_placeholderIndex value
  | inList path values negated => exact refuses_tryMaximum refuses_placeholderIndex values
  | isNull path negated => exact failsOnlyWith_ok
  | and predicates => exact refuses_maximumPredicatesIndex predicates
  | or predicates => exact refuses_maximumPredicatesIndex predicates

theorem refuses_maximumPredicatesIndex (predicates : List Predicate) :
    Refuses (maximumPredicatesIndex predicates) := by
  cases predicates with
  | nil => exact failsOnlyWith_ok
  | cons predicate predicates =>
      simp [maximumPredicatesIndex, refuses_maximumPredicateIndex predicate,
        refuses_maximumPredicatesIndex predicates]

end

theorem refuses_maximumPlaceholderIndex (plan : StatementPlan) :
    Refuses (maximumPlaceholderIndex plan) := by
  cases plan with
  | select plan => exact refuses_tryMaximum refuses_maximumPredicateIndex plan.filter.toList
  | insert plan => exact refuses_tryMaximum refuses_placeholderIndex plan.rows.flatten
  | update plan =>
      have assigned : Refuses (tryMaximum
          (fun assignment : AssignmentPlan => placeholderIndex assignment.value)
          plan.assignments) := refuses_tryMaximum (by simp) plan.assignments
      simp [maximumPlaceholderIndex, assigned, refuses_maximumPredicateIndex]
  | delete plan => exact refuses_maximumPredicateIndex plan.filter

section Bound

variable (parameters : List SqlValue)

theorem refuses_bindValue (value : SqlValue) : Refuses (bindValue parameters value) := by
  cases value <;> simp [bindValue]

mutual

theorem refuses_bindPredicate (predicate : Predicate) :
    Refuses (bindPredicate parameters predicate) := by
  cases predicate with
  | compare path operator value => simp [bindPredicate, refuses_bindValue parameters value]
  | inList path values negated =>
      have bound : Refuses (collect (bindValue parameters) values) :=
        .collect fun value _ => refuses_bindValue parameters value
      simp [bindPredicate, bound]
  | isNull path negated => exact failsOnlyWith_ok
  | and predicates => simp [bindPredicate, refuses_bindPredicates predicates]
  | or predicates => simp [bindPredicate, refuses_bindPredicates predicates]

theorem refuses_bindPredicates (predicates : List Predicate) :
    Refuses (bindPredicates parameters predicates) := by
  cases predicates with
  | nil => exact failsOnlyWith_ok
  | cons predicate predicates =>
      simp [bindPredicates, refuses_bindPredicate predicate, refuses_bindPredicates predicates]

end

theorem refuses_bindPlan (plan : StatementPlan) : Refuses (bindPlan parameters plan) := by
  cases plan with
  | select plan =>
      exact failsOnlyWith_bind.mpr
        ⟨.transpose (refuses_bindPredicate parameters) plan.filter, by simp⟩
  | insert plan =>
      refine failsOnlyWith_bind.mpr ⟨.collect fun row _ => ?_, by simp⟩
      exact .collect fun value _ => refuses_bindValue parameters value
  | update plan =>
      refine failsOnlyWith_bind.mpr ⟨.collect fun assignment _ => ?_, fun assigned _ => ?_⟩
      · simp [bindAssignment, refuses_bindValue parameters]
      · simp [refuses_bindPredicate parameters]
  | delete plan => simp [bindPlan, refuses_bindPredicate parameters]

end Bound

theorem refuses_validateBoundPlan (plan : StatementPlan) (schema : SchemaProfile) :
    Refuses (validateBoundPlan plan schema) := by
  cases plan with
  | select plan => exact .tryForEach (refuses_validateWritePredicate schema) plan.filter.toList
  | insert plan =>
      exact .tryForEach (fun row => .tryForEach (by simp [validateWriteValue]) _) plan.rows
  | update plan =>
      exact failsOnlyWith_bind.mpr ⟨.tryForEach (by simp [validateWriteValue]) plan.assignments,
        fun _ _ => refuses_validateWritePredicate schema plan.filter⟩
  | delete plan => exact refuses_validateWritePredicate schema plan.filter

theorem refuses_bindParameters (plan : StatementPlan) (parameters : List SqlValue)
    (schema : SchemaProfile) : Refuses (bindParameters plan parameters schema) := by
  refine failsOnlyWith_ite.mpr ⟨by simp, fun _ => ?_⟩
  refine failsOnlyWith_bind.mpr ⟨refuses_maximumPlaceholderIndex plan, fun requiredCount _ => ?_⟩
  refine failsOnlyWith_ite.mpr ⟨by simp, fun _ => ?_⟩
  refine failsOnlyWith_bind.mpr ⟨refuses_bindPlan parameters plan, fun bound _ => ?_⟩
  exact failsOnlyWith_bind.mpr ⟨refuses_validateBoundPlan bound schema, by simp⟩

end Mongres
