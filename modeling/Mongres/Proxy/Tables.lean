import Mongres.Proxy.Description
import Mongres.Sql.Truth

/-!
# Tables

What SQL says that a statement does to the rows of tables.  A row is what it holds at each path;
neither documents nor filters, and none of the calls of the driver, occur here.
-/

namespace Mongres

open Nesting

abbrev Row := List String → Option Bson

abbrev Tables := String → List Row

def Predicate.truthOn (predicate : Predicate) (row : Row) : Truth :=
  predicate.formula.eval fun condition => condition.truth (row condition.path.segments)

def Predicate.Selects (predicate : Predicate) (row : Row) : Prop := predicate.truthOn row = .true

instance (predicate : Predicate) (row : Row) : Decidable (predicate.Selects row) :=
  inferInstanceAs (Decidable (_ = _))

/-- A stored value that stands for an SQL value. -/
def SqlValue.IsStoredAs (value : SqlValue) (stored : Bson) : Prop :=
  match value with
  | .null => stored = .null
  | value => stored.sqlValue = some value

namespace SelectPlan

/-- The rows that a `SELECT` reads: those selected, in any order, or as many of them as its limit
says. -/
def ReadsFrom (plan : SelectPlan) (rows read : List Row) : Prop :=
  ∃ ordered : List Row,
    ordered.Perm (plan.filter.elim rows fun predicate => rows.filter predicate.Selects) ∧
      read = plan.limit.elim ordered fun limit => ordered.take limit.toNat

end SelectPlan

def cellOf (bsonText : BsonText) (row : Row) (path : List String) (field : WireField) : WireValue :=
  (row path).elim .null fun value => bsonToWireValue bsonText value field.sqlType

/-- A row that holds the values of an `INSERT` at its columns, and nothing else but an `_id`. -/
structure HoldsValues (columns : List FieldPath) (values : List SqlValue) (row : Row) : Prop where
  held : ∀ cell ∈ columns.zip values, ∃ stored,
    cell.2.IsStoredAs stored ∧ row cell.1.segments = some stored
  leaves : ∀ path leaf, row path = some leaf → (∀ fields, leaf ≠ .document fields) →
    path.head? = some "_id" ∨ ∃ column ∈ columns, column.segments = path

structure Updates (assignments : List AssignmentPlan) (before after : Row) : Prop where
  held : ∀ assignment ∈ assignments, ∃ stored,
    assignment.value.IsStoredAs stored ∧ after assignment.path.segments = some stored
  elsewhere : ∀ path, (∀ assignment ∈ assignments, Apart assignment.path.segments path) →
    after path = before path

/-- What a statement answers and what it makes of the tables, in SQL. -/
inductive SqlStep (bsonText : BsonText) (catalog : DatabaseCatalog) :
    Tables → StatementPlan → ExecutionResult → Tables → Prop where
  | select {tables : Tables} {plan : SelectPlan} {table : CollectionCatalog} {read : List Row} :
      catalog[plan.collection]? = some table → plan.ReadsFrom (tables plan.collection) read →
      SqlStep bsonText catalog tables (.select plan)
        (.query ((derivedFields table plan.projection).map Prod.snd) (read.map fun row =>
          (derivedFields table plan.projection).map fun (path, field) =>
            cellOf bsonText row path.segments field))
        tables
  | insert {tables : Tables} {plan : InsertPlan} {added : List Row} :
      List.Forall₂ (HoldsValues plan.columns) plan.rows added →
      SqlStep bsonText catalog tables (.insert plan)
        (.command ⟨"INSERT 0", UInt64.ofNat plan.rows.length⟩)
        (Function.update tables plan.collection (tables plan.collection ++ added))
  | update {tables : Tables} {plan : UpdatePlan} {rows : List Row} :
      List.Forall₂ (fun before after => if plan.filter.Selects before
        then Updates plan.assignments before after else after = before)
        (tables plan.collection) rows →
      SqlStep bsonText catalog tables (.update plan)
        (.command ⟨"UPDATE", UInt64.ofNat ((tables plan.collection).countP plan.filter.Selects)⟩)
        (Function.update tables plan.collection rows)
  | delete {tables : Tables} {plan : DeletePlan} :
      SqlStep bsonText catalog tables (.delete plan)
        (.command ⟨"DELETE", UInt64.ofNat ((tables plan.collection).countP plan.filter.Selects)⟩)
        (Function.update tables plan.collection
          ((tables plan.collection).filter fun row => ¬ plan.filter.Selects row))

end Mongres
