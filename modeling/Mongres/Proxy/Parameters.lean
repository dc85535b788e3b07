import Mongres.Sql.Binding

/-!
# Parameter types of prepared statements

A placeholder takes the type of the field it is compared with or assigned to.
-/

namespace Mongres

open Fallible
open Std (TreeMap)

/-- A PostgreSQL type that a client may declare. -/
inductive PgType where
  | bool
  | int2
  | int4
  | int8
  | float4
  | float8
  | text
  | varchar
  | bpchar
  | unknown
  | other (name : String)
  deriving DecidableEq, Repr

def PgType.name : PgType → String
  | .bool => "bool"
  | .int2 => "int2"
  | .int4 => "int4"
  | .int8 => "int8"
  | .float4 => "float4"
  | .float8 => "float8"
  | .text => "text"
  | .varchar => "varchar"
  | .bpchar => "bpchar"
  | .unknown => "unknown"
  | .other name => name

def inferFieldParameterType (path : FieldPath) (schema : SchemaProfile) : Result PgType := do
  let profile ← okOr (schema.field path) (absentField path)
  match ObservedType.nonNull profile.observedTypes with
  | [observedType] =>
      if profile.hasDottedKeyCollision ∨ profile.observedShapes ≠ {.scalar} then
        .error (ambiguousField path)
      else
        match observedType with
        | .boolean => .ok .bool
        | .integer => .ok .int8
        | .floatingPoint => .ok .float8
        | .string => .ok .text
        | .null | .dateTime | .objectId | .document | .array => .error (invalidInput
            s!"prepared-statement parameters are not supported for field '{path.displayName}' with inferred BSON type '{observedTypeName observedType}'")
  | _ => .error (ambiguousField path)
where
  ambiguousField (path : FieldPath) : ProxyError := invalidInput
    s!"cannot infer a safe prepared-statement type for ambiguous field '{path.displayName}'"

abbrev ParameterTypes := TreeMap Nat PgType

def collectValueParameterType (schema : SchemaProfile) (types : ParameterTypes)
    (cell : FieldPath × SqlValue) : Result ParameterTypes :=
  match cell.2 with
  | .placeholder placeholder => do
      let index ← parsePlaceholderIndex placeholder
      let parameterType ← inferFieldParameterType cell.1 schema
      if types[index]?.any (· ≠ parameterType) then
        .error (invalidInput
          s!"prepared-statement placeholder {placeholder} is used with incompatible field types")
      else .ok (types.insert index parameterType)
  | _ => .ok types

/-- The fields and literals of a predicate, from left to right. -/
def predicateCells (predicate : Predicate) : List (FieldPath × SqlValue) :=
  predicate.conditions.flatMap fun condition =>
    condition.values.map fun value => (condition.path, value)

/-- The fields and literals of a plan, in the order in which types are collected. -/
def planCells : StatementPlan → List (FieldPath × SqlValue)
  | .select plan => plan.filter.toList.flatMap predicateCells
  | .insert plan => plan.rows.flatMap plan.columns.zip
  | .update plan =>
      (plan.assignments.map fun assignment => (assignment.path, assignment.value))
        ++ predicateCells plan.filter
  | .delete plan => predicateCells plan.filter

def inferParameterTypes (plan : StatementPlan) (schema : SchemaProfile) : Result (List PgType) := do
  let types ← (planCells plan).foldlM (collectValueParameterType schema) ∅
  match types.maxKey? with
  | none => .ok []
  | some maximumIndex =>
      collect (fun index => okOr types[index]? (invalidInput
        s!"prepared-statement placeholder ${index} has no type context"))
        ((List.range maximumIndex).map (· + 1))

def compatibleParameterType (requested inferred : PgType) : Bool :=
  match inferred with
  | .bool => requested = .bool
  | .int8 => requested = .int2 || requested = .int4 || requested = .int8
  | .float8 => requested = .float4 || requested = .float8
  | .text => requested = .text || requested = .varchar || requested = .bpchar
  | _ => requested = inferred

def reconcileParameterTypes (requestedTypes inferredTypes : List PgType) : Result (List PgType) :=
  if requestedTypes = [] then .ok inferredTypes
  else if requestedTypes.length ≠ inferredTypes.length then
    .error (invalidInput
      s!"prepared statement declares {requestedTypes.length} parameter type(s) but SQL requires {inferredTypes.length}")
  else
    collect (fun ((requested, inferred), index) =>
      if requested = .unknown then .ok inferred
      else if compatibleParameterType requested inferred then .ok requested
      else .error (invalidInput
        s!"prepared statement parameter ${index + 1} declares PostgreSQL type '{PgType.name requested}' but schema requires '{PgType.name inferred}'"))
      (requestedTypes.zip inferredTypes).zipIdx

end Mongres
