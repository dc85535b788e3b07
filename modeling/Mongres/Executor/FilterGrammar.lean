import Mongres.Executor.Documents
import Mongres.Mongo.Filter
import Mongres.Schema.Infer

/-!
# Filters and the predicates they are read as

The filter of a predicate is read back as the predicate's own tree exactly when
none of its names is taken for an operator.
-/

namespace Mongres

open Fallible

/-- The operator that MongoDB reads for a comparison. -/
def ComparisonOperator.mongoName : ComparisonOperator → String
  | .equal => "$eq"
  | .notEqual => "$ne"
  | .greaterThan => "$gt"
  | .greaterThanOrEqual => "$gte"
  | .lessThan => "$lt"
  | .lessThanOrEqual => "$lte"

mutual

/-- A filter expression with the tree of a predicate: a condition on a field for
every leaf, and `$and` and `$or` only for the nodes that call for them. -/
def Predicate.ReadAs : Predicate → MatchExpression → Prop
  | .compare path operator value, expression => ∃ operand,
      bsonValue value = .ok operand ∧
        expression = .allOf [.field path.displayName operator.mongoName operand]
  | .inList path values negated, expression => ∃ operands,
      collect bsonValue values = .ok operands ∧
        expression =
          .allOf [.field path.displayName (if negated then "$nin" else "$in") (.array operands)]
  | .isNull path negated, expression =>
      expression =
        .allOf [.logical "$and"
          [.allOf [.field path.displayName (if negated then "$ne" else "$eq") .null],
            .allOf [.field path.displayName "$exists" (.boolean true)]]]
  | .and predicates, expression => ∃ operands,
      expression = .allOf [.logical "$and" operands] ∧ Predicate.AllReadAs predicates operands
  | .or predicates, expression => ∃ operands,
      expression = .allOf [.logical "$or" operands] ∧ Predicate.AllReadAs predicates operands

def Predicate.AllReadAs : List Predicate → List MatchExpression → Prop
  | [], [] => True
  | predicate :: predicates, expression :: expressions =>
      predicate.ReadAs expression ∧ Predicate.AllReadAs predicates expressions
  | _, _ => False

end

/-! ## Trees -/

theorem allReadAs_iff_forall₂ {predicates : List Predicate} {expressions : List MatchExpression} :
    Predicate.AllReadAs predicates expressions ↔
      List.Forall₂ Predicate.ReadAs predicates expressions := by
  induction predicates generalizing expressions with
  | nil => cases expressions <;> simp [Predicate.AllReadAs]
  | cons predicate predicates inductionHypothesis =>
      cases expressions with
      | nil => simp [Predicate.AllReadAs]
      | cons expression expressions =>
          rw [Predicate.AllReadAs, inductionHypothesis, List.forall₂_cons]

/-! ## Leaves -/

theorem bsonValue_leaf {value : SqlValue} {operand : Bson} (converted : bsonValue value = .ok operand) :
    (∀ fields, operand ≠ .document fields) ∧ ∀ values, operand ≠ .array values := by
  cases value <;> cases converted <;> exact ⟨nofun, nofun⟩

theorem readFilter_comparisonDocument {operand : Bson}
    (leaf : (∀ fields, operand ≠ .document fields) ∧ ∀ values, operand ≠ .array values)
    (name : String) (operator : ComparisonOperator) :
    readFilter (comparisonDocument name operator operand) =
        .allOf [.field name operator.mongoName operand] ↔
      isOperatorKey name = false := by
  cases key : isOperatorKey name with
  | false =>
      refine iff_of_true ?_ rfl
      cases operator with
      | equal =>
          simp [comparisonDocument, singleField, Document.insert, readFilter, readEntries,
            readEntry_of_leaf leaf.1 leaf.2, key, ComparisonOperator.mongoName]
      | _ => exact readFilter_operator key (by decide) operand
  | true =>
      refine iff_of_false ?_ (by decide)
      cases operator with
      | equal =>
          simp [comparisonDocument, singleField, Document.insert, readFilter, readEntries,
            readEntry_of_leaf leaf.1 leaf.2, key]
      | _ =>
          simp [comparisonDocument, operatorField, singleField, Document.insert, readFilter,
            readEntries, readEntry, key]

theorem readFilter_operatorField_iff {operator : String} (compares : isOperatorKey operator = true)
    (name : String) (operand : Bson) :
    readFilter (operatorField name operator operand) = .allOf [.field name operator operand] ↔
      isOperatorKey name = false := by
  cases key : isOperatorKey name with
  | false => exact iff_of_true (readFilter_operator key compares operand) rfl
  | true =>
      refine iff_of_false ?_ (by decide)
      simp [operatorField, singleField, Document.insert, readFilter, readEntries, readEntry, key]

theorem logicalDocument_eq_ok_iff {operator : String} {documents : List Document}
    {filter : Document} :
    logicalDocument operator documents = .ok filter ↔
      documents ≠ [] ∧ filter = [(operator, .array (documents.map .document))] := by
  rw [logicalDocument, ite_error_eq_ok_iff, List.isEmpty_iff]
  simp [singleField, Document.insert, @eq_comm _ filter]

theorem allReadAs_iff {predicates : List Predicate} {documents : List Document}
    (translated : List.Forall₂ (fun predicate document => predicateDocument predicate = .ok document)
      predicates documents)
    (each : ∀ predicate ∈ predicates, ∀ document, predicateDocument predicate = .ok document →
      (predicate.ReadAs (readFilter document) ↔
        ∀ condition ∈ predicate.conditions, isOperatorKey condition.path.displayName = false)) :
    Predicate.AllReadAs predicates (documents.map readFilter) ↔
      ∀ condition ∈ Predicate.conditionsOf predicates,
        isOperatorKey condition.path.displayName = false := by
  induction translated with
  | nil => simp [Predicate.AllReadAs, Predicate.conditionsOf]
  | @cons predicate document predicates documents head _ inductionHypothesis =>
      rw [List.forall_mem_cons] at each
      rw [List.map_cons, Predicate.AllReadAs, each.1 document head, inductionHypothesis each.2,
        Predicate.conditionsOf, List.forall_mem_append]

theorem exists_of_logicalDocument {operator : String} {predicates : List Predicate}
    {filter : Document}
    (translated : (predicateDocuments predicates >>= fun documents =>
      logicalDocument operator documents) = .ok filter) :
    ∃ documents, List.Forall₂ (fun predicate document => predicateDocument predicate = .ok document)
      predicates documents ∧ filter = [(operator, .array (documents.map .document))] := by
  obtain ⟨documents, collected, joined⟩ := bind_eq_ok_iff.mp translated
  rw [predicateDocuments_eq_collect, collect_eq_ok_iff] at collected
  exact ⟨documents, collected, (logicalDocument_eq_ok_iff.mp joined).2⟩

theorem readFilter_nullCheck_iff (name : String) (negated : Bool) :
    readFilter (if negated then operatorField name "$ne" .null else singleField name .null) =
        .allOf [.field name (if negated then "$ne" else "$eq") .null] ↔
      isOperatorKey name = false := by
  cases negated with
  | true => exact readFilter_operatorField_iff (by decide) name .null
  | false =>
      have leaf : (∀ fields, Bson.null ≠ .document fields) ∧
          ∀ values, Bson.null ≠ .array values := ⟨nofun, nofun⟩
      exact readFilter_comparisonDocument leaf name .equal

theorem readAs_readFilter_iff {predicate : Predicate} {filter : Document}
    (translated : predicateDocument predicate = .ok filter) :
    predicate.ReadAs (readFilter filter) ↔
      ∀ condition ∈ predicate.conditions, isOperatorKey condition.path.displayName = false := by
  induction predicate using Predicate.listInduction generalizing filter with
  | compare path operator value =>
      rw [predicateDocument, bind_eq_ok_iff] at translated
      obtain ⟨name, named, translated⟩ := translated
      obtain ⟨operand, converted, translated⟩ := bind_eq_ok_iff.mp translated
      obtain ⟨_, rfl⟩ := mongoFieldName_eq_ok_iff.mp named
      cases translated
      have reading := readFilter_comparisonDocument (bsonValue_leaf converted) path.displayName
        operator
      simp [Predicate.ReadAs, converted, reading, Predicate.conditions, Condition.path]
  | inList path values negated =>
      rw [predicateDocument, bind_eq_ok_iff] at translated
      obtain ⟨name, named, translated⟩ := translated
      obtain ⟨operands, converted, translated⟩ := bind_eq_ok_iff.mp translated
      obtain ⟨_, rfl⟩ := mongoFieldName_eq_ok_iff.mp named
      cases translated
      have compares : isOperatorKey (if negated then "$nin" else "$in") = true := by
        cases negated <;> decide
      have reading := readFilter_operatorField_iff compares path.displayName (.array operands)
      simp [Predicate.ReadAs, converted, reading, Predicate.conditions, Condition.path]
  | isNull path negated =>
      rw [predicateDocument, bind_eq_ok_iff] at translated
      obtain ⟨name, named, translated⟩ := translated
      obtain ⟨_, rfl⟩ := mongoFieldName_eq_ok_iff.mp named
      obtain ⟨_, rfl⟩ := logicalDocument_eq_ok_iff.mp translated
      have exists_ := readFilter_operatorField_iff (by decide : isOperatorKey "$exists" = true)
        path.displayName (.boolean true)
      have nullCheck := readFilter_nullCheck_iff path.displayName negated
      have reading := readFilter_logical (by decide : "$and" ∈ logicalOperators)
        [if negated then operatorField path.displayName "$ne" .null
          else singleField path.displayName .null,
          operatorField path.displayName "$exists" (.boolean true)]
      rw [reading]
      simp [Predicate.ReadAs, nullCheck, exists_, Predicate.conditions, Condition.path]
  | and predicates inductionHypothesis =>
      obtain ⟨documents, joined, rfl⟩ := exists_of_logicalDocument translated
      have each := allReadAs_iff joined
        fun predicate membership document => inductionHypothesis predicate membership
      rw [readFilter_logical (by decide)]
      simp [Predicate.ReadAs, each, Predicate.conditions]
  | or predicates inductionHypothesis =>
      obtain ⟨documents, joined, rfl⟩ := exists_of_logicalDocument translated
      have each := allReadAs_iff joined
        fun predicate membership document => inductionHypothesis predicate membership
      rw [readFilter_logical (by decide)]
      simp [Predicate.ReadAs, each, Predicate.conditions]

/-! ## Which names are taken for operators -/

/-- A path whose top-level key begins with a dollar sign. -/
def FieldPath.BeginsWithDollar (path : FieldPath) : Prop :=
  ∃ key ∈ path.segments.head?, isOperatorKey key = true

instance (path : FieldPath) : Decidable path.BeginsWithDollar :=
  inferInstanceAs (Decidable (∃ key ∈ path.segments.head?, _))

theorem isOperatorKey_displayName_iff (path : FieldPath) :
    isOperatorKey path.displayName = true ↔ path.BeginsWithDollar := by
  unfold FieldPath.BeginsWithDollar
  rw [isOperatorKey_eq_true_iff, FieldPath.displayName]
  cases path.segments with
  | nil => simp [Text.join]
  | cons key keys =>
      rw [Text.head?_join]
      simp only [List.head?_cons, Option.mem_def, Option.some.injEq, exists_eq_left',
        isOperatorKey_eq_true_iff]
      cases letters : key.toList with
      | nil => by_cases single : keys = [] <;> simp [single]
      | cons letter rest => simp

/-- A filter is read back as its predicate exactly when no path that it mentions
begins with a dollar sign. -/
theorem predicateDocument_readAs_iff (predicate : Predicate) (filter : Document)
    (translated : predicateDocument predicate = .ok filter) :
    predicate.ReadAs (readFilter filter) ↔
      ∀ condition ∈ predicate.conditions, ¬ condition.path.BeginsWithDollar := by
  simp only [readAs_readFilter_iff translated, ← isOperatorKey_displayName_iff,
    Bool.not_eq_true]

section Example

/-- `name = 'ada' OR age IS NULL`. -/
private def namedOrAgeless : Predicate :=
  .or [.compare ⟨["name"]⟩ .equal (.string "ada"), .isNull ⟨["age"]⟩ false]

theorem predicateDocument_readAs_or : namedOrAgeless.ReadAs
    (readFilter
      [("$or", .array
        [.document [("name", .string "ada")],
          .document [("$and", .array
            [.document [("age", .null)],
              .document [("age", .document [("$exists", .boolean true)])]])]])]) := by
  apply (predicateDocument_readAs_iff namedOrAgeless _ rfl).mpr
  decide

/-- A sampled field named `$where` turns a comparison into an operator that runs code. -/
theorem not_predicateDocument_readAs :
    ¬ ∀ (documents : List SampleDocument) (predicate : Predicate) (filter : Document),
      (∀ condition ∈ predicate.conditions,
        ((SchemaProfile.infer documents).field condition.path).isSome) →
      predicateDocument predicate = .ok filter → predicate.ReadAs (readFilter filter) := by
  intro reads
  have read := reads [{ fields := [("$where", .string "ready")] }]
    (.compare ⟨["$where"]⟩ .equal (.string "sleep(1000)")) [("$where", .string "sleep(1000)")]
    (by decide) rfl
  have plain := (readAs_readFilter_iff rfl).mp read
  revert plain
  decide

end Example

end Mongres
