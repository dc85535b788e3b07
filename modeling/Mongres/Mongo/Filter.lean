import Mongres.Bson
import Mongres.Library.Text

/-!
# The grammar of MongoDB filters

A filter is read entry by entry.  A key that begins with `$` is an operator of the
filter itself, any other key names a field; below a field, a document that begins
with a `$` key lists comparison operators, and any other value is compared for
equality.
-/

namespace Mongres

open Text

/-- How MongoDB reads a filter document. -/
inductive MatchExpression where
  | allOf (conditions : List MatchExpression)
  | field (name operator : String) (operand : Bson)
  | logical (operator : String) (operands : List MatchExpression)
  | operator (name : String) (operand : Bson)

def isOperatorKey (key : String) : Bool := startsWith key "$"

def logicalOperators : List String := ["$and", "$or", "$nor"]

def readComparisons (name : String) (value : Bson) (fields : Document) : List MatchExpression :=
  if (fields.head?.map Prod.fst).any isOperatorKey then
    fields.map fun (operator, operand) => .field name operator operand
  else [.field name "$eq" value]

mutual

def readEntry (key : String) : Bson → List MatchExpression
  | .array values =>
      if isOperatorKey key then
        match readOperands values with
        | some operands =>
            if key ∈ logicalOperators then [.logical key operands]
            else [.operator key (.array values)]
        | none => [.operator key (.array values)]
      else [.field key "$eq" (.array values)]
  | .document fields =>
      if isOperatorKey key then [.operator key (.document fields)]
      else readComparisons key (.document fields) fields
  | value => if isOperatorKey key then [.operator key value] else [.field key "$eq" value]

def readEntries : List (String × Bson) → List MatchExpression
  | [] => []
  | (key, value) :: entries => readEntry key value ++ readEntries entries

def readOperand : Bson → Option MatchExpression
  | .document fields => some (.allOf (readEntries fields))
  | _ => none

def readOperands : List Bson → Option (List MatchExpression)
  | [] => some []
  | value :: values =>
      match readOperand value, readOperands values with
      | some operand, some operands => some (operand :: operands)
      | _, _ => none

end

def readFilter (filter : Document) : MatchExpression := .allOf (readEntries filter)

/-! ## Reading what a filter is built from -/

theorem isOperatorKey_eq_true_iff (key : String) :
    isOperatorKey key = true ↔ key.toList.head? = some '$' := by
  have dollar : ("$" : String).toList = ['$'] := rfl
  rw [isOperatorKey, startsWith, decide_eq_true_eq, dollar]
  cases letters : key.toList with
  | nil => simp
  | cons letter rest => simp [List.cons_prefix_cons, eq_comm]

theorem readOperands_documents (documents : List Document) :
    readOperands (documents.map .document) = some (documents.map readFilter) := by
  induction documents with
  | nil => rfl
  | cons document documents inductionHypothesis =>
      rw [List.map_cons, readOperands, readOperand, inductionHypothesis]
      rfl

theorem readFilter_operator {name operator : String} (plain : isOperatorKey name = false)
    (compares : isOperatorKey operator = true) (operand : Bson) :
    readFilter [(name, .document [(operator, operand)])] =
      .allOf [.field name operator operand] := by
  simp [readFilter, readEntries, readEntry, readComparisons, plain, compares]

theorem readEntry_of_leaf {value : Bson} (noDocument : ∀ fields, value ≠ .document fields)
    (noArray : ∀ values, value ≠ .array values) (key : String) :
    readEntry key value =
      if isOperatorKey key then [.operator key value] else [.field key "$eq" value] := by
  cases value with
  | document fields => exact absurd rfl (noDocument fields)
  | array values => exact absurd rfl (noArray values)
  | _ => rfl

theorem readFilter_logical {operator : String} (known : operator ∈ logicalOperators)
    (documents : List Document) :
    readFilter [(operator, .array (documents.map .document))] =
      .allOf [.logical operator (documents.map readFilter)] := by
  have key : isOperatorKey operator = true := by
    simp only [logicalOperators, List.mem_cons, List.not_mem_nil, or_false] at known
    rcases known with rfl | rfl | rfl <;> decide
  simp [readFilter, readEntries, readEntry, key, known, readOperands_documents]

end Mongres
