import Mongres.Bson
import Mongres.Common
import Mongres.Library.Fallible
import Mongres.Sql.Plan

/-!
# Deterministic driver documents

The filter, projection, insert and update documents that a typed plan becomes.
-/

namespace Mongres

open Fallible

def literalDottedKey : ProxyError :=
  ⟨.featureNotSupported, "literal dotted MongoDB field names require an aggregation implementation"⟩

def mongoFieldName (path : FieldPath) : Result String :=
  if path.isLiteralDottedKey then .error literalDottedKey else .ok path.displayName

theorem mongoFieldName_eq_ok_iff {path : FieldPath} {name : String} :
    mongoFieldName path = .ok name ↔
      path.isLiteralDottedKey = false ∧ name = path.displayName := by
  unfold mongoFieldName
  cases path.isLiteralDottedKey <;> simp [@eq_comm _ name]

def bsonValue : SqlValue → Result Bson
  | .null => .ok .null
  | .boolean value => .ok (.boolean value)
  | .integer value => .ok (.int64 value)
  | .floatingPoint value => .ok (.double value)
  | .string value => .ok (.string value)
  | .placeholder value => .error (invalidInput
      s!"parameter '{value}' is not bound; prepared-statement binding is not implemented")

theorem exists_bsonValue_iff (value : SqlValue) :
    (∃ operand, bsonValue value = .ok operand) ↔ value.isPlaceholder = false := by
  cases value <;> simp [bsonValue, SqlValue.isPlaceholder]

def singleField (field : String) (value : Bson) : Document := Document.insert [] field value

def operatorField (field operator : String) (value : Bson) : Document :=
  singleField field (.document (Document.insert [] operator value))

def logicalDocument (operator : String) (documents : List Document) : Result Document :=
  if documents.isEmpty then
    .error (invalidInput "logical predicates must contain at least one condition")
  else .ok (singleField operator (.array (documents.map .document)))

def comparisonDocument (field : String) (operator : ComparisonOperator) (value : Bson) : Document :=
  match operator with
  | .equal => singleField field value
  | .notEqual => operatorField field "$ne" value
  | .greaterThan => operatorField field "$gt" value
  | .greaterThanOrEqual => operatorField field "$gte" value
  | .lessThan => operatorField field "$lt" value
  | .lessThanOrEqual => operatorField field "$lte" value

mutual

def predicateDocument : Predicate → Result Document
  | .compare path operator value => do
      let field ← mongoFieldName path
      let value ← bsonValue value
      .ok (comparisonDocument field operator value)
  | .inList path values negated => do
      let field ← mongoFieldName path
      let values ← collect bsonValue values
      .ok (operatorField field (if negated then "$nin" else "$in") (.array values))
  | .isNull path negated => do
      let field ← mongoFieldName path
      let nullCheck :=
        if negated then operatorField field "$ne" .null else singleField field .null
      let existsCheck := operatorField field "$exists" (.boolean true)
      logicalDocument "$and" [nullCheck, existsCheck]
  | .and predicates => do
      let documents ← predicateDocuments predicates
      logicalDocument "$and" documents
  | .or predicates => do
      let documents ← predicateDocuments predicates
      logicalDocument "$or" documents

def predicateDocuments : List Predicate → Result (List Document)
  | [] => .ok []
  | predicate :: predicates => do
      let document ← predicateDocument predicate
      let documents ← predicateDocuments predicates
      .ok (document :: documents)

end

theorem predicateDocuments_eq_collect (predicates : List Predicate) :
    predicateDocuments predicates = collect predicateDocument predicates := by
  induction predicates with
  | nil => rfl
  | cons predicate predicates inductionHypothesis =>
      rw [predicateDocuments, collect, inductionHypothesis]

def filterDocument : Option Predicate → Result Document
  | none => .ok []
  | some predicate => predicateDocument predicate

def projectionDocument : Projection → Result (Option Document)
  | .all => .ok none
  | .fields fields => do
      let document ← fields.foldlM (fun document field => do
        let name ← mongoFieldName field.path
        .ok (Document.insert document name (.int32 1))) []
      .ok (some document)

theorem projectionDocument_fields_eq_ok_iff {fields : List ProjectedField}
    {projection : Option Document} :
    projectionDocument (.fields fields) = .ok projection ↔
      (∀ field ∈ fields, field.path.isLiteralDottedKey = false) ∧
        projection = some (fields.foldl (fun (document : Document) field =>
          document.insert field.path.displayName (.int32 1)) []) := by
  have step : ∀ (document : Document) (field : ProjectedField) (result : Document),
      (do let name ← mongoFieldName field.path; Except.ok (Document.insert document name (.int32 1)))
          = .ok result ↔
        field.path.isLiteralDottedKey = false ∧
          result = document.insert field.path.displayName (.int32 1) := by
    intro document field result
    rw [bind_eq_ok_iff_of fun _ => mongoFieldName_eq_ok_iff, Except.ok.injEq, @eq_comm _ result]
  rw [projectionDocument, bind_eq_ok_iff_of fun _ => foldlM_eq_ok_iff_of step, Except.ok.injEq,
    @eq_comm _ projection]

def insertNestedValue (document : Document) : List String → Bson → Result Document
  | [], _ => .error (invalidInput "INSERT field path cannot be empty")
  | [field], value =>
      if document.containsKey field then
        .error (invalidInput s!"INSERT assigns field '{field}' more than once")
      else .ok (document.insert field value)
  | field :: remaining, value =>
      match document.lookup field with
      | some (.document nested) => do
          let nested ← insertNestedValue nested remaining value
          .ok (document.insert field (.document nested))
      | some _ => .error (invalidInput
          s!"INSERT field path conflicts with non-document field '{field}'")
      | none => do
          let nested ← insertNestedValue [] remaining value
          .ok (document.insert field (.document nested))

def buildInsertDocument (columns : List FieldPath) (row : List SqlValue) : Result Document :=
  if columns.length ≠ row.length then
    .error (invalidInput "INSERT row must contain one value for each declared column")
  else
    (columns.zip row).foldlM (fun document cell =>
      if cell.1.isLiteralDottedKey then .error literalDottedKey
      else do
        let value ← bsonValue cell.2
        insertNestedValue document cell.1.segments value) []

def pathsOverlap (left right : List String) : Bool :=
  let commonLength := min left.length right.length
  decide (left.take commonLength = right.take commonLength)

def validateUpdatePath (path : FieldPath) (assignedPaths : List (List String)) : Result Unit :=
  let segments := path.segments
  if segments.isEmpty || segments.any String.isEmpty then
    .error (invalidInput "UPDATE field path cannot contain empty segments")
  else if segments.any fun segment => segment.toList.head? = some '$' then
    .error (invalidInput "UPDATE field path cannot contain MongoDB operator-like segments")
  else if assignedPaths.any (pathsOverlap segments) then
    .error (invalidInput
      s!"UPDATE assignment path '{path.displayName}' conflicts with another assignment path")
  else .ok ()

/-- One step of the `$set` document, with the paths assigned so far. -/
def assign (progress : Document × List (List String)) (assignment : AssignmentPlan) :
    Result (Document × List (List String)) := do
  let field ← mongoFieldName assignment.path
  validateUpdatePath assignment.path progress.2
  let value ← bsonValue assignment.value
  .ok (Document.insert progress.1 field value, progress.2 ++ [assignment.path.segments])

def updateDocument (assignments : List AssignmentPlan) : Result Document :=
  if assignments.isEmpty then
    .error (invalidInput "UPDATE requires at least one assignment")
  else do
    let (set, _) ← assignments.foldlM assign ([], [])
    .ok (singleField "$set" (.document set))

end Mongres
