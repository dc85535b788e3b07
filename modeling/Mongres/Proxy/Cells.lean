import Mongres.Library.JsonText
import Mongres.Policy.MixedTypes
import Mongres.Catalog.Truth
import Mongres.Proxy.Isolation

/-!
# Cells and their announced types

A column is announced with the type that the catalog gives it, and its cells are encoded
by the kind of the value that a document holds.  The two agree, except in ambiguous
columns, whose cells are not always JSON.
-/

namespace Mongres

open JsonText

/-! ## Text forms -/

/-- The text format that the protocol library gives the fields of a row. -/
structure DataRowEncoder where
  encodeBoolean : Bool → String
  encodeInteger : Int64 → String
  encodeFloatingPoint : Float → String

/-- What the protocol library documents: the words of PostgreSQL for truth values, decimal
integers, and JSON numbers exactly for the finite floats. -/
structure DataRowEncoder.Documented (encoder : DataRowEncoder) : Prop where
  encodeBoolean_eq : ∀ value, encoder.encodeBoolean value = if value then "t" else "f"
  encodeInteger_eq : ∀ value, encoder.encodeInteger value = Decimal.text value
  encodeFloatingPoint_isJson :
    ∀ value, IsJson (encoder.encodeFloatingPoint value) ↔ value.isFinite = true

/-- What the driver library documents: extended JSON is JSON. -/
structure BsonText.Documented (bsonText : BsonText) : Prop where
  extendedJson_isJson : ∀ value, IsJson (bsonText.extendedJson value)

namespace WireValue

def encodeField (encoder : DataRowEncoder) : WireValue → Option String
  | .null => none
  | .boolean value => some (encoder.encodeBoolean value)
  | .integer value => some (encoder.encodeInteger value)
  | .floatingPoint value => some (encoder.encodeFloatingPoint value)
  | .text value => some value

def HasType (encoder : DataRowEncoder) : WireValue → SqlType → Prop
  | .null, _ => True
  | .boolean _, .boolean => True
  | .integer _, .bigInt => True
  | .floatingPoint _, .doublePrecision => True
  | .text _, .text => True
  | .text _, .timestampWithTimeZone => True
  | value, .jsonb => ∀ text ∈ value.encodeField encoder, IsJson text
  | _, _ => False

theorem hasType_jsonb_iff {encoder : DataRowEncoder} {value : WireValue} :
    value.HasType encoder .jsonb ↔ ∀ text ∈ value.encodeField encoder, IsJson text := by
  cases value <;> simp [HasType, encodeField]

end WireValue

/-- A value whose cell in an ambiguous column is null or JSON: truth values never are, and a
text is only where it happens to be JSON itself. -/
def Bson.HasJsonText (bsonText : BsonText) : Bson → Prop
  | .boolean _ => False
  | .double value => value.isFinite = true
  | .string value => IsJson value
  | .objectId bytes => IsJson (bsonText.hex bytes)
  | .dateTime milliseconds => IsJson (bsonText.display (.dateTime milliseconds))
  | _ => True

section Encoding

variable {bsonText : BsonText} {encoder : DataRowEncoder}

theorem not_isJson_boolean (encoded : encoder.Documented) (value : Bool) :
    ¬ IsJson (encoder.encodeBoolean value) := by
  rw [encoded.encodeBoolean_eq]
  cases value with
  | false => exact @not_isJson_of_begins _ 'f' [] rfl (by decide) (by decide)
  | true => exact @not_isJson_of_begins _ 't' [] rfl (by decide) (by decide)

theorem hasType_jsonb_bsonToWireValue_iff (printed : bsonText.Documented)
    (encoded : encoder.Documented) (value : Bson) :
    (bsonToWireValue bsonText value .jsonb).HasType encoder .jsonb ↔
      value.HasJsonText bsonText := by
  rw [WireValue.hasType_jsonb_iff]
  cases value with
  | null => simp [bsonToWireValue, WireValue.encodeField, Bson.HasJsonText]
  | undefined => simp [bsonToWireValue, WireValue.encodeField, Bson.HasJsonText]
  | boolean value =>
      simp [bsonToWireValue, WireValue.encodeField, Bson.HasJsonText, not_isJson_boolean encoded]
  | int32 value =>
      simp [bsonToWireValue, WireValue.encodeField, Bson.HasJsonText, encoded.encodeInteger_eq,
        isJson_text]
  | int64 value =>
      simp [bsonToWireValue, WireValue.encodeField, Bson.HasJsonText, encoded.encodeInteger_eq,
        isJson_text]
  | double value =>
      simp [bsonToWireValue, WireValue.encodeField, Bson.HasJsonText,
        encoded.encodeFloatingPoint_isJson]
  | string value => simp [bsonToWireValue, WireValue.encodeField, Bson.HasJsonText]
  | objectId bytes => simp [bsonToWireValue, WireValue.encodeField, Bson.HasJsonText]
  | dateTime milliseconds => simp [bsonToWireValue, WireValue.encodeField, Bson.HasJsonText]
  | _ =>
      simp [bsonToWireValue, WireValue.encodeField, Bson.HasJsonText, printed.extendedJson_isJson]

theorem hasType_bsonToWireValue (printed : bsonText.Documented) (value : Bson) :
    (bsonToWireValue bsonText value
      (sqlTypeForObservations {value.elementType.observedType})).HasType encoder
        (sqlTypeForObservations {value.elementType.observedType}) := by
  cases value with
  | document fields =>
      apply WireValue.hasType_jsonb_iff.mpr
      rintro _ ⟨rfl⟩
      exact printed.extendedJson_isJson _
  | array values =>
      apply WireValue.hasType_jsonb_iff.mpr
      rintro _ ⟨rfl⟩
      exact printed.extendedJson_isJson _
  | _ => trivial

end Encoding

/-! ## Selected columns -/

/-- A column and the path of it that a `SELECT` reads. -/
def SelectPlan.Reads (plan : SelectPlan) (column : ColumnMetadata) (path : FieldPath) : Prop :=
  match plan.projection with
  | .all => column.sourcePaths = [path]
  | .fields projected =>
      path ∈ column.sourcePaths ∧ path ∈ projected.map ProjectedField.path

namespace ProxyBackend

/-- The paths of a `SELECT` with the fields that announce them. -/
def selectedCells (plan : SelectPlan) (catalog : CollectionCatalog) :
    List (List String × WireField) :=
  (selectedPaths plan catalog).zip (selectFields plan catalog)

theorem exists_mem_zip_columns_iff {columns : List ColumnMetadata}
    (single : ∀ column ∈ columns, column.sourcePaths.length = 1) {segments : List String}
    {sqlType : SqlType} :
    (∃ name, (segments, (⟨name, sqlType⟩ : WireField)) ∈
      (columns.flatMap fun column => (column.sourcePaths.map FieldPath.segments).take 1).zip
        (columns.map fun column => ⟨column.columnName, column.sqlType⟩)) ↔
      ∃ column ∈ columns, column.sourcePaths = [⟨segments⟩] ∧ column.sqlType = sqlType := by
  induction columns with
  | nil => simp
  | cons column columns inductionHypothesis =>
      rw [List.forall_mem_cons] at single
      obtain ⟨path, paths⟩ := List.length_eq_one_iff.mp single.1
      have first : (∃ name, (segments, (⟨name, sqlType⟩ : WireField)) =
          (path.segments, ⟨column.columnName, column.sqlType⟩)) ↔
            column.sourcePaths = [⟨segments⟩] ∧ column.sqlType = sqlType := by
        obtain ⟨path⟩ := path
        rw [paths]
        simp [eq_comm]
      rw [List.flatMap_cons, List.map_cons, paths, List.map_cons, List.take_succ_cons,
        List.take_zero, List.singleton_append, List.zip_cons_cons]
      simp only [List.mem_cons, exists_or, or_and_right, exists_eq_left]
      rw [first, inductionHypothesis single.2]

section Selection

variable {schemaName tableName : String} {documents : List SampleDocument}

theorem find?_column {path : FieldPath}
    (listed : ((SchemaProfile.infer documents).field path).isSome) :
    ∃ column ∈ (projectCollection schemaName tableName (SchemaProfile.infer documents)).columns,
      (projectCollection schemaName tableName (SchemaProfile.infer documents)).columns.find?
          (fun column => column.columnName = path.displayName) = some column ∧
        ∀ other ∈ (projectCollection schemaName tableName (SchemaProfile.infer documents)).columns,
          path ∈ other.sourcePaths ↔ other = column := by
  obtain ⟨field, found⟩ := Option.isSome_iff_exists.mp listed
  have same : field.path = path := by simpa using List.find?_some found
  obtain ⟨column, membership, named, only⟩ :=
    (truthful_projectCollection schemaName tableName documents).partitioned field
      (List.mem_of_find?_eq_some found)
  rw [same] at named only
  have present : ((projectCollection schemaName tableName
      (SchemaProfile.infer documents)).columns.find?
        (fun column => column.columnName = path.displayName)).isSome :=
    List.find?_isSome.mpr ⟨column, membership, decide_eq_true named⟩
  obtain ⟨other, foundColumn⟩ := Option.isSome_iff_exists.mp present
  have otherNamed : other.columnName = path.displayName := by
    simpa using List.find?_some foundColumn
  have equal : other = column := column_eq_of_columnName (List.mem_of_find?_eq_some foundColumn)
    membership (otherNamed.trans named.symm)
  exact ⟨column, membership, equal ▸ foundColumn, only⟩

theorem exists_mem_selectedCells_iff {plan : SelectPlan}
    (listed : ∀ path ∈ plan.projection.paths,
      ((SchemaProfile.infer documents).field path).isSome)
    {segments : List String} {sqlType : SqlType} :
    (∃ name, (segments, ⟨name, sqlType⟩) ∈ selectedCells plan
      (projectCollection schemaName tableName (SchemaProfile.infer documents))) ↔
      ∃ column ∈ (projectCollection schemaName tableName (SchemaProfile.infer documents)).columns,
        plan.Reads column ⟨segments⟩ ∧ column.sqlType = sqlType := by
  obtain ⟨collection, projection, filter, limit⟩ := plan
  cases projection with
  | all =>
      rw [selectedCells]
      change (∃ name, _ ∈ List.zip (List.flatMap _ _) (List.map _ _)) ↔ _
      have single : ∀ column ∈ unambiguousColumns
          (projectCollection schemaName tableName (SchemaProfile.infer documents)),
          column.sourcePaths.length = 1 :=
        fun column membership => of_decide_eq_true (List.mem_filter.mp membership).2
      rw [exists_mem_zip_columns_iff single]
      constructor
      · rintro ⟨column, membership, reads, typed⟩
        exact ⟨column, (List.mem_filter.mp membership).1, reads, typed⟩
      · rintro ⟨column, membership, reads, typed⟩
        have single : column.sourcePaths.length = 1 := congrArg List.length reads
        exact ⟨column, List.mem_filter.mpr ⟨membership, decide_eq_true single⟩, reads, typed⟩
  | fields projected =>
      rw [selectedCells]
      change (∃ name, _ ∈ List.zip (List.map _ projected) (List.map _ projected)) ↔ _
      rw [List.zip_map']
      constructor
      · rintro ⟨name, membership⟩
        obtain ⟨source, sourceMembership, same⟩ := List.mem_map.mp membership
        obtain ⟨column, columnMembership, found, only⟩ :=
          @find?_column schemaName tableName documents source.path
            (listed _ (List.mem_map_of_mem sourceMembership))
        simp only [found, Prod.mk.injEq, WireField.mk.injEq, Option.map_some,
          Option.getD_some] at same
        obtain ⟨rfl, _, rfl⟩ := same
        exact ⟨column, columnMembership, ⟨(only column columnMembership).mpr rfl,
          List.mem_map_of_mem sourceMembership⟩, rfl⟩
      · rintro ⟨column, columnMembership, ⟨source, selected⟩, rfl⟩
        obtain ⟨field, fieldMembership, same⟩ := List.mem_map.mp selected
        obtain ⟨other, _, found, only⟩ :=
          @find?_column schemaName tableName documents field.path
            (listed _ (List.mem_map_of_mem fieldMembership))
        have equal : column = other := (only column columnMembership).mp (same ▸ source)
        refine ⟨field.columnAlias.getD field.path.displayName,
          List.mem_map.mpr ⟨field, fieldMembership, ?_⟩⟩
        simp only [found, equal, congrArg FieldPath.segments same, Option.map_some,
          Option.getD_some]

end Selection

end ProxyBackend

/-! ## Cells of sampled documents -/

section Cells

variable {bsonText : BsonText} {encoder : DataRowEncoder}

theorem hasType_valueFromDocument_iff {document : StoredDocument} {path : List String}
    {sqlType : SqlType} :
    (valueFromDocument bsonText document.fields path sqlType).HasType encoder sqlType ↔
      (path ≠ [] → ∀ value, document.valueAt path = some value →
        (bsonToWireValue bsonText value sqlType).HasType encoder sqlType) := by
  by_cases empty : path = []
  · simp [valueFromDocument, valueAtPath, empty, WireValue.HasType]
  · rw [valueFromDocument, valueAtPath, if_neg empty]
    change _ ↔ (_ → ∀ value, Nested.descend _ _ = _ → _)
    cases found : Nested.descend (Bson.document document.fields) path with
    | none => simp [WireValue.HasType]
    | some value => simp [empty]

variable {schemaName tableName : String} {text : Bson → String} {documents : List StoredDocument}
  {column : ColumnMetadata}

/-- A sampled value fits the type of a clear column, and fits an ambiguous one exactly
where its text is JSON. -/
theorem hasType_column_iff (printed : bsonText.Documented) (encoded : encoder.Documented)
    (membership : column ∈
      (projectCollection schemaName tableName (profileOf text documents)).columns)
    {path : FieldPath} (source : path ∈ column.sourcePaths) {document : StoredDocument}
    (sampled : document ∈ documents) :
    (valueFromDocument bsonText document.fields path.segments column.sqlType).HasType encoder
        column.sqlType ↔
      (column.isAmbiguous = true → ∀ value, document.valueAt path.segments = some value →
        value.HasJsonText bsonText) := by
  rw [hasType_valueFromDocument_iff]
  by_cases ambiguous : column.isAmbiguous = true
  · have typed : column.sqlType = .jsonb := by
      obtain ⟨_, index, same⟩ := column_eq_of_mem membership
      rw [same] at ambiguous ⊢
      exact if_pos ambiguous
    rw [typed]
    simp only [hasType_jsonb_bsonToWireValue_iff printed encoded, ambiguous, forall_const]
    constructor
    · intro fits value held
      by_cases empty : path.segments = []
      · rw [empty] at held
        cases held
        trivial
      · exact fits empty value held
    · intro json _
      exact json
  · apply iff_of_true _ fun isAmbiguous => absurd isAmbiguous ambiguous
    intro _ value held
    obtain ⟨only, observedType, paths, typed, each⟩ := sourcePaths_of_clear membership
      (Bool.eq_false_iff.mpr ambiguous)
    rw [paths, List.mem_singleton] at source
    subst source
    have observed := each _ (List.mem_map_of_mem sampled) (sampleValueFromBson text value) (by
      rw [valueAt_sampleDocumentFromBson, held]
      rfl)
    rw [observedType_sampleValueFromBson] at observed
    rw [typed, ← observed]
    exact hasType_bsonToWireValue printed value

/-- Over the profile of its own sample, a row fits the announced types exactly if every value
that it reads in an ambiguous column has a JSON text. -/
theorem hasType_selectedCells_iff {statement : Ast.Statement} {collection : String}
    {plan : SelectPlan}
    (lowered : lowerStatement statement collection (profileOf text documents) = .ok (.select plan))
    (printed : bsonText.Documented) (encoded : encoder.Documented) {document : StoredDocument}
    (sampled : document ∈ documents) :
    (∀ cell ∈ ProxyBackend.selectedCells plan
        (projectCollection schemaName tableName (profileOf text documents)),
      (valueFromDocument bsonText document.fields cell.1 cell.2.sqlType).HasType encoder
        cell.2.sqlType) ↔
      ∀ column ∈ (projectCollection schemaName tableName (profileOf text documents)).columns,
        column.isAmbiguous = true → ∀ path, plan.Reads column path →
          ∀ value, document.valueAt path.segments = some value → value.HasJsonText bsonText := by
  have listed := (lowerStatement_wellFormed lowered).projected_listed
  have reads : ∀ column path, plan.Reads column path → path ∈ column.sourcePaths := by
    intro column path reads
    unfold SelectPlan.Reads at reads
    split at reads
    · exact reads ▸ List.mem_singleton_self path
    · exact reads.1
  constructor
  · intro fits column membership ambiguous path read
    obtain ⟨name, cell⟩ := (ProxyBackend.exists_mem_selectedCells_iff listed).mpr
      ⟨column, membership, read, rfl⟩
    exact (hasType_column_iff printed encoded membership (reads column path read) sampled).mp
      (fits _ cell) ambiguous
  · rintro json ⟨segments, name, sqlType⟩ cell
    obtain ⟨column, membership, read, rfl⟩ :=
      (ProxyBackend.exists_mem_selectedCells_iff listed).mp ⟨name, cell⟩
    exact (hasType_column_iff printed encoded membership (reads column _ read) sampled).mpr
      fun ambiguous => json column membership ambiguous _ read

end Cells

section Example

/-- `[{ note: "a" }, { note: 36 }]` -/
private def notes : List StoredDocument :=
  [{ fields := [("note", .string "a")] }, { fields := [("note", .int32 36)] }]

/-- `SELECT note FROM notes` -/
private def selectNote : Ast.Statement :=
  .query (.limited (.select (.fromTable [.unnamedExpr (.identifier (.new "note"))] "notes" none))
    none)

private def notePlan : SelectPlan where
  collection := "notes"
  projection := .fields [⟨⟨["note"]⟩, none⟩]
  filter := none
  limit := none

private def noteEncoder : DataRowEncoder where
  encodeBoolean value := if value then "t" else "f"
  encodeInteger := Decimal.text
  encodeFloatingPoint value := if value.isFinite then "0" else "NaN"

private def noteText : BsonText where
  display _ := ""
  extendedJson _ := "0"
  hex _ := ""

private theorem noteEncoder_documented : noteEncoder.Documented where
  encodeBoolean_eq _ := rfl
  encodeInteger_eq _ := rfl
  encodeFloatingPoint_isJson value := by
    change IsJson (if value.isFinite = true then Decimal.text 0 else "NaN") ↔ _
    by_cases finite : value.isFinite = true
    · rw [if_pos finite]
      exact iff_of_true (isJson_text 0) finite
    · rw [if_neg finite]
      exact iff_of_false (@not_isJson_of_begins _ 'N' ['a', 'N'] rfl (by decide) (by decide)) finite

private theorem noteText_documented : noteText.Documented where
  extendedJson_isJson _ := isJson_text 0

/-- An integer among texts is announced as JSON, and is JSON. -/
theorem hasType_note :
    lowerStatement selectNote "notes" (profileOf noteText.display notes) =
        .ok (.select notePlan) ∧
      (["note"], ⟨"note", .jsonb⟩) ∈ ProxyBackend.selectedCells notePlan
          (projectCollection "public" "notes" (profileOf noteText.display notes)) ∧
      valueFromDocument noteText [("note", .int32 36)] ["note"] .jsonb = .integer 36 ∧
      ∀ cell ∈ ProxyBackend.selectedCells notePlan
          (projectCollection "public" "notes" (profileOf noteText.display notes)),
        (valueFromDocument noteText [("note", .int32 36)] cell.1 cell.2.sqlType).HasType
          noteEncoder cell.2.sqlType := by
  have lowered : lowerStatement selectNote "notes" (profileOf noteText.display notes) =
      .ok (.select notePlan) := rfl
  have sampled : (⟨[("note", .int32 36)], by decide⟩ : StoredDocument) ∈ notes :=
    List.mem_cons_of_mem _ List.mem_cons_self
  refine ⟨lowered, List.mem_singleton_self _, rfl, ?_⟩
  apply (hasType_selectedCells_iff lowered noteText_documented noteEncoder_documented sampled).mpr
  rintro column _ _ path ⟨_, selected⟩ value held
  rw [List.mem_singleton.mp selected] at held
  cases held
  trivial

theorem not_hasType_note :
    lowerStatement selectNote "notes" (profileOf noteText.display notes) =
        .ok (.select notePlan) ∧
      noteText.Documented ∧ noteEncoder.Documented ∧
      ¬ ∀ document ∈ notes, ∀ cell ∈ ProxyBackend.selectedCells notePlan
          (projectCollection "public" "notes" (profileOf noteText.display notes)),
        (valueFromDocument noteText document.fields cell.1 cell.2.sqlType).HasType noteEncoder
          cell.2.sqlType := by
  refine ⟨rfl, noteText_documented, noteEncoder_documented, ?_⟩
  intro fits
  have cell : (["note"], ⟨"note", .jsonb⟩) ∈ ProxyBackend.selectedCells notePlan
      (projectCollection "public" "notes" (profileOf noteText.display notes)) :=
    List.mem_singleton_self _
  have json : IsJson "a" := fits _ List.mem_cons_self _ cell "a" rfl
  exact @not_isJson_of_begins _ 'a' [] rfl (by decide) (by decide) json

end Example

end Mongres
