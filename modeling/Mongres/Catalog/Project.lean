import Mongres.Sql.Lowering
import Mongres.Sql.TypePolicy

/-!
# Catalog projection

The tables and columns that clients see, derived from the profiles alone.
-/

namespace Mongres

open Std (TreeMap)

/-- A conservative PostgreSQL type for catalog output and row encoding. -/
inductive SqlType where
  | boolean
  | bigInt
  | doublePrecision
  | text
  | timestampWithTimeZone
  | jsonb
  deriving DecidableEq, Repr

namespace SqlType

def informationSchemaName : SqlType → String
  | .boolean => "boolean"
  | .bigInt => "bigint"
  | .doublePrecision => "double precision"
  | .text => "text"
  | .timestampWithTimeZone => "timestamp with time zone"
  | .jsonb => "jsonb"

def udtName : SqlType → String
  | .boolean => "bool"
  | .bigInt => "int8"
  | .doublePrecision => "float8"
  | .text => "text"
  | .timestampWithTimeZone => "timestamptz"
  | .jsonb => "jsonb"

end SqlType

structure TableMetadata where
  schemaName : String
  tableName : String
  deriving DecidableEq

structure ColumnMetadata where
  table : TableMetadata
  columnName : String
  ordinalPosition : Nat
  isNullable : Bool
  sqlType : SqlType
  isAmbiguous : Bool
  sourcePaths : List FieldPath
  deriving DecidableEq

structure CollectionCatalog where
  table : TableMetadata
  columns : List ColumnMetadata
  deriving DecidableEq

/-- Catalog metadata for every allowlisted collection. -/
abbrev DatabaseCatalog := TreeMap String CollectionCatalog

def FieldProfile.isAmbiguous (profile : FieldProfile) : Bool :=
  decide (profile.observedTypes.card > 1) || decide (profile.observedShapes.card > 1)
    || profile.hasDottedKeyCollision

def sqlTypeForObservations (observedTypes : Finset ObservedType) : SqlType :=
  match (ObservedType.all.filter fun observedType => decide (observedType ∈ observedTypes)).head? with
  | some .boolean => .boolean
  | some .integer => .bigInt
  | some .floatingPoint => .doublePrecision
  | some .string | some .objectId => .text
  | some .dateTime => .timestampWithTimeZone
  | some .document | some .array | some .null | none => .jsonb

def columnFromFields (table : TableMetadata) (columnName : String) (index : Nat)
    (fields : List FieldProfile) : ColumnMetadata :=
  let observedTypes := fields.foldl (fun types field => types ∪ field.observedTypes) ∅
  let isAmbiguous := decide (fields.length > 1) || fields.any FieldProfile.isAmbiguous
  { table
    columnName
    ordinalPosition := index + 1
    isNullable := fields.any fun field =>
      decide (field.missingDocuments > 0 ∨ .null ∈ field.observedTypes)
    sqlType := if isAmbiguous then .jsonb else sqlTypeForObservations observedTypes
    isAmbiguous
    sourcePaths := fields.map FieldProfile.path }

/-- Projects a profile into columns, one for each display name. -/
def projectCollection (schemaName tableName : String) (profile : SchemaProfile) :
    CollectionCatalog :=
  let table : TableMetadata := { schemaName, tableName }
  let fieldsByDisplayName : TreeMap String (List FieldProfile) :=
    profile.fields.foldl (fun fields field =>
      Tally.record (fun listed field => listed ++ [field]) [] fields field.path.displayName field) ∅
  { table
    columns := fieldsByDisplayName.toList.zipIdx.map fun ((columnName, fields), index) =>
      columnFromFields table columnName index fields }

def projectPublicCollections (profiles : CollectionProfiles) : DatabaseCatalog :=
  profiles.map fun collectionName profile => projectCollection "public" collectionName profile

end Mongres
