import Mongres.Catalog.Project
import Mongres.Executor.Execute

/-!
# Results on the wire

The fields, cells and command tags that a statement answers with.
-/

namespace Mongres

structure WireField where
  name : String
  sqlType : SqlType
  deriving DecidableEq

inductive WireValue where
  | null
  | boolean (value : Bool)
  | integer (value : Int64)
  | floatingPoint (value : Float)
  | text (value : String)
  deriving DecidableEq

structure CommandResult where
  tag : String
  rows : UInt64
  deriving DecidableEq

inductive ExecutionResult where
  | query (fields : List WireField) (rows : List (List WireValue))
  | command (result : CommandResult)
  deriving DecidableEq

def ExecutionResult.fields : ExecutionResult → List WireField
  | .query fields _ => fields
  | .command _ => []

/-- The command tag of a completed write; a `SELECT` has none. -/
def commandResult (plan : StatementPlan) (outcome : WriteOutcome) : Option CommandResult :=
  match plan with
  | .insert _ => some { tag := "INSERT 0", rows := outcome.inserted }
  | .update _ => some { tag := "UPDATE", rows := outcome.matched }
  | .delete _ => some { tag := "DELETE", rows := outcome.deleted }
  | .select _ => none

def collectionFromPlan : StatementPlan → String
  | .select plan => plan.collection
  | .insert plan => plan.collection
  | .update plan => plan.collection
  | .delete plan => plan.collection

/-- How the driver library prints values. -/
structure BsonText where
  display : Bson → String
  extendedJson : Bson → String
  hex : List UInt8 → String

/-- The value at a path of at least one segment, through embedded documents only. -/
def valueAtPath (document : Document) (path : List String) : Option Bson :=
  if path = [] then none else Nested.descend (Bson.document document) path

def bsonToWireValue (bsonText : BsonText) (value : Bson) (sqlType : SqlType) : WireValue :=
  match value with
  | .null | .undefined => .null
  | .boolean value => .boolean value
  | .int32 value => .integer value.toInt64
  | .int64 value => .integer value
  | .double value => .floatingPoint value
  | .string value => .text value
  | .objectId bytes => .text (bsonText.hex bytes)
  | .dateTime milliseconds => .text (bsonText.display (.dateTime milliseconds))
  | value =>
      if sqlType = .jsonb then .text (bsonText.extendedJson value)
      else .text (bsonText.display value)

def valueFromDocument (bsonText : BsonText) (document : Document) (path : List String)
    (sqlType : SqlType) : WireValue :=
  match valueAtPath document path with
  | none => .null
  | some value => bsonToWireValue bsonText value sqlType

end Mongres
