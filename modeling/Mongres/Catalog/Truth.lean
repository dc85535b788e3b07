import Mongres.Catalog.Project

/-!
# What the catalog says about the sample

Columns group the fields of a profile by their display names.  Over an inferred
profile, their types and nullability hold of every sampled document.
-/

namespace Mongres

open Std (TreeMap)

/-! ## Groups of fields -/

def namesakes (fields : List FieldProfile) (name : String) : List FieldProfile :=
  fields.filter fun field => field.path.displayName = name

theorem mem_namesakes_iff {fields : List FieldProfile} {name : String} {field : FieldProfile} :
    field ∈ namesakes fields name ↔ field ∈ fields ∧ field.path.displayName = name := by
  simp [namesakes]

def fieldsByDisplayName (fields : List FieldProfile) : TreeMap String (List FieldProfile) :=
  fields.foldl (fun fields field =>
    Tally.record (fun listed field => listed ++ [field]) [] fields field.path.displayName field) ∅

theorem getElem?_fieldsByDisplayName (fields : List FieldProfile) (name : String) :
    (fieldsByDisplayName fields)[name]? =
      if namesakes fields name = [] then none else some (namesakes fields name) := by
  have tally : fieldsByDisplayName fields =
      Tally.recordAll (fun listed field => listed ++ [field]) [] ∅
        (fields.map fun field => (field.path.displayName, field)) := by
    rw [Tally.recordAll, List.foldl_map]
    rfl
  have events : Tally.eventsOf name (fields.map fun field => (field.path.displayName, field)) =
      namesakes fields name := by
    rw [Tally.eventsOf, List.filterMap_map, namesakes, ← List.filterMap_eq_filter]
    congr
    funext field
    simp [Option.guard]
  rw [tally, Tally.getElem?_recordAll_empty, events]
  congr
  rw [List.foldl_append_eq_append, List.nil_append, ← List.flatMap_def, List.flatMap_singleton']

section Columns

variable (schemaName tableName : String) (profile : SchemaProfile)

theorem columns_projectCollection :
    (projectCollection schemaName tableName profile).columns =
      (fieldsByDisplayName profile.fields).toList.zipIdx.map fun ((columnName, fields), index) =>
        columnFromFields { schemaName, tableName } columnName index fields := rfl

theorem map_columnName_columns :
    (projectCollection schemaName tableName profile).columns.map ColumnMetadata.columnName =
      (fieldsByDisplayName profile.fields).keys := by
  rw [columns_projectCollection, List.map_map, ← TreeMap.map_fst_toList_eq_keys]
  nth_rewrite 2 [← List.zipIdx_map_fst 0 (fieldsByDisplayName profile.fields).toList]
  rw [List.map_map]
  rfl

theorem map_ordinalPosition_columns :
    (projectCollection schemaName tableName profile).columns.map ColumnMetadata.ordinalPosition =
      List.range' 1 (projectCollection schemaName tableName profile).columns.length := by
  have ordinals : (ColumnMetadata.ordinalPosition ∘ fun ((columnName, fields), index) =>
      columnFromFields { schemaName, tableName } columnName index fields) =
        (1 + ·) ∘ Prod.snd := by
    funext entry
    exact Nat.add_comm _ _
  rw [columns_projectCollection, List.map_map, List.length_map, List.length_zipIdx, ordinals]
  rw [← List.map_map, List.zipIdx_map_snd, List.map_add_range']

variable {schemaName tableName profile}

theorem sqlType_columnFromFields {table : TableMetadata} {columnName : String} {index : Nat}
    {fields : List FieldProfile}
    (clear : (columnFromFields table columnName index fields).isAmbiguous = false) :
    (columnFromFields table columnName index fields).sqlType =
      sqlTypeForObservations
        (fields.foldl (fun types field => types ∪ field.observedTypes) ∅) := by
  change (if (columnFromFields table columnName index fields).isAmbiguous = true then _ else _) = _
  rw [clear]
  rfl

theorem column_eq_of_mem {column : ColumnMetadata}
    (membership : column ∈ (projectCollection schemaName tableName profile).columns) :
    namesakes profile.fields column.columnName ≠ [] ∧
      ∃ index, column = columnFromFields { schemaName, tableName } column.columnName index
        (namesakes profile.fields column.columnName) := by
  rw [columns_projectCollection] at membership
  obtain ⟨⟨⟨columnName, fields⟩, index⟩, entry, rfl⟩ := List.mem_map.mp membership
  have listed := List.fst_mem_of_mem_zipIdx entry
  rw [TreeMap.mem_toList_iff_getElem?_eq_some, getElem?_fieldsByDisplayName] at listed
  split_ifs at listed with nonempty
  cases listed
  exact ⟨nonempty, index, rfl⟩

theorem column_of_field {field : FieldProfile} (membership : field ∈ profile.fields) :
    ∃ column ∈ (projectCollection schemaName tableName profile).columns,
      column.columnName = field.path.displayName := by
  have listed : field ∈ namesakes profile.fields field.path.displayName :=
    mem_namesakes_iff.mpr ⟨membership, rfl⟩
  have key : field.path.displayName ∈ (fieldsByDisplayName profile.fields).keys := by
    rw [TreeMap.mem_keys, ← TreeMap.isSome_getElem?_iff_mem, getElem?_fieldsByDisplayName,
      if_neg (List.ne_nil_of_mem listed)]
    rfl
  rw [← map_columnName_columns schemaName tableName] at key
  exact List.mem_map.mp key

theorem column_eq_of_columnName {first second : ColumnMetadata}
    (firstMembership : first ∈ (projectCollection schemaName tableName profile).columns)
    (secondMembership : second ∈ (projectCollection schemaName tableName profile).columns)
    (same : first.columnName = second.columnName) : first = second := by
  have distinct := (map_columnName_columns schemaName tableName profile).symm ▸
    (fieldsByDisplayName profile.fields).nodup_keys
  exact List.inj_on_of_nodup_map distinct firstMembership secondMembership same

end Columns

/-! ## The catalog of an inferred profile -/

/-- A SQL type that the values of one observed type have. -/
def SqlType.Fits : SqlType → ObservedType → Prop
  | .boolean, observedType => observedType = .boolean
  | .bigInt, observedType => observedType = .integer
  | .doublePrecision, observedType => observedType = .floatingPoint
  | .text, observedType => observedType = .string ∨ observedType = .objectId
  | .timestampWithTimeZone, observedType => observedType = .dateTime
  | .jsonb, observedType =>
      observedType = .document ∨ observedType = .array ∨ observedType = .null

theorem fits_sqlTypeForObservations (observedType : ObservedType) :
    (sqlTypeForObservations {observedType}).Fits observedType := by
  cases observedType with
  | null => exact .inr (.inr rfl)
  | boolean => rfl
  | integer => rfl
  | floatingPoint => rfl
  | string => exact .inl rfl
  | dateTime => rfl
  | objectId => exact .inr rfl
  | document => exact .inl rfl
  | array => exact .inr (.inl rfl)

/-- The truth of a catalog over a sample: ordered names, consecutive ordinals, one column
for each field, and types and nullability that every document meets. -/
structure CollectionCatalog.Truthful (catalog : CollectionCatalog)
    (documents : List SampleDocument) : Prop where
  increasing : (catalog.columns.map ColumnMetadata.columnName).Pairwise (· < ·)
  ordinals : catalog.columns.map ColumnMetadata.ordinalPosition =
    List.range' 1 catalog.columns.length
  partitioned : ∀ field ∈ (SchemaProfile.infer documents).fields,
    ∃ column ∈ catalog.columns, column.columnName = field.path.displayName ∧
      ∀ other ∈ catalog.columns, field.path ∈ other.sourcePaths ↔ other = column
  typed : ∀ column ∈ catalog.columns, column.isAmbiguous = false →
    ∃ path, column.sourcePaths = [path] ∧
      ∀ document ∈ documents, ∀ value, document.valueAt path = some value →
        column.sqlType.Fits value.observedType
  present : ∀ column ∈ catalog.columns, column.isNullable = false →
    ∀ path ∈ column.sourcePaths, ∀ document ∈ documents,
      ∃ value, document.valueAt path = some value ∧ value.observedType ≠ .null

section Truth

variable {documents : List SampleDocument}

theorem FieldProfile.Describes.observedType_eq {field : FieldProfile} {path : FieldPath}
    (describes : field.Describes documents path) (clear : field.observedTypes.card ≤ 1) :
    ∃ observedType, field.observedTypes = {observedType} ∧
      ∀ document ∈ documents, ∀ value, document.valueAt path = some value →
        value.observedType = observedType := by
  have one : field.observedTypes.card = 1 :=
    Nat.le_antisymm clear (Finset.card_pos.mpr describes.nonempty.1)
  obtain ⟨observedType, only⟩ := Finset.card_eq_one.mp one
  refine ⟨observedType, only, ?_⟩
  intro document membership value held
  have observed : value.observedType ∈ field.observedTypes :=
    (describes.mem_observedTypes_iff _).mpr
      ⟨value, List.mem_filterMap.mpr ⟨document, membership, held⟩, rfl⟩
  rwa [only, Finset.mem_singleton] at observed

theorem FieldProfile.Describes.exists_valueAt {field : FieldProfile} {path : FieldPath}
    (describes : field.Describes documents path) (complete : field.missingDocuments = 0)
    {document : SampleDocument} (membership : document ∈ documents) :
    ∃ value, document.valueAt path = some value := by
  have counted : (SchemaProfile.valuesAt documents path).length = documents.length := by
    have bound := SchemaProfile.length_valuesAt_le documents path
    have missing := describes.missingDocuments_eq
    omega
  rw [← Option.isSome_iff_exists]
  exact List.filterMap_length_eq_length.mp counted document membership

end Truth

section Truth

variable {schemaName tableName : String} {documents : List SampleDocument} {column : ColumnMetadata}

/-- The fields that a column of an inferred profile stands for. -/
theorem describes_of_mem_sourcePaths
    (membership : column ∈
      (projectCollection schemaName tableName (SchemaProfile.infer documents)).columns)
    {path : FieldPath} (source : path ∈ column.sourcePaths) :
    ∃ field ∈ namesakes (SchemaProfile.infer documents).fields column.columnName,
      field.path = path ∧ field.Describes documents path := by
  obtain ⟨_, index, same⟩ := column_eq_of_mem membership
  rw [same] at source
  obtain ⟨field, listed, rfl⟩ := List.mem_map.mp source
  refine ⟨field, listed, rfl, ?_⟩
  apply SchemaProfile.describes_of_field_infer
  exact SchemaProfile.field_of_mem (SchemaProfile.nodup_path_infer documents)
    (mem_namesakes_iff.mp listed).1

theorem mem_sourcePaths_iff {field : FieldProfile}
    (listed : field ∈ (SchemaProfile.infer documents).fields)
    (membership : column ∈
      (projectCollection schemaName tableName (SchemaProfile.infer documents)).columns) :
    field.path ∈ column.sourcePaths ↔ column.columnName = field.path.displayName := by
  constructor
  · intro source
    obtain ⟨other, named, same, _⟩ := describes_of_mem_sourcePaths membership source
    rw [← same]
    exact (mem_namesakes_iff.mp named).2.symm
  · intro named
    obtain ⟨_, index, same⟩ := column_eq_of_mem membership
    rw [same]
    exact List.mem_map_of_mem (mem_namesakes_iff.mpr ⟨listed, named.symm⟩)

/-- A clear column stands for one field, of one observed type, and has its SQL type. -/
theorem sourcePaths_of_clear
    (membership : column ∈
      (projectCollection schemaName tableName (SchemaProfile.infer documents)).columns)
    (clear : column.isAmbiguous = false) :
    ∃ path observedType, column.sourcePaths = [path] ∧
      column.sqlType = sqlTypeForObservations {observedType} ∧
      ∀ document ∈ documents, ∀ value, document.valueAt path = some value →
        value.observedType = observedType := by
  obtain ⟨nonempty, index, same⟩ := column_eq_of_mem membership
  rw [same] at clear
  have typed := sqlType_columnFromFields clear
  rw [← same] at typed
  simp only [columnFromFields, Bool.or_eq_false_iff, decide_eq_false_iff_not, not_lt,
    List.any_eq_false, Bool.not_eq_true] at clear
  obtain ⟨few, each⟩ := clear
  obtain ⟨field, single⟩ := List.length_eq_one_iff.mp
    (Nat.le_antisymm few (List.length_pos_of_ne_nil nonempty))
  have paths : column.sourcePaths = [field.path] := by
    rw [same, columnFromFields, single]
    rfl
  obtain ⟨other, listed, _, describes⟩ := describes_of_mem_sourcePaths membership
    (paths ▸ List.mem_singleton_self field.path)
  have unambiguous := each other listed
  rw [single, List.mem_singleton] at listed
  subst listed
  simp only [FieldProfile.isAmbiguous, Bool.or_eq_false_iff, decide_eq_false_iff_not, not_lt]
    at unambiguous
  obtain ⟨observedType, only, held⟩ := describes.observedType_eq unambiguous.1.1
  refine ⟨_, observedType, paths, ?_, held⟩
  rw [typed, single, List.foldl_cons, List.foldl_nil, Finset.empty_union, only]

end Truth

/-- The catalog of an inferred profile tells the truth about the sample. -/
theorem truthful_projectCollection (schemaName tableName : String)
    (documents : List SampleDocument) :
    (projectCollection schemaName tableName (SchemaProfile.infer documents)).Truthful documents where
  increasing := by
    rw [map_columnName_columns]
    have ordered := (fieldsByDisplayName (SchemaProfile.infer documents).fields).ordered_keys
    exact ordered.imp fun less => compareOfLessAndEq_eq_lt.mp less
  ordinals := map_ordinalPosition_columns schemaName tableName _
  partitioned := by
    intro field listed
    obtain ⟨column, membership, named⟩ := column_of_field listed
    refine ⟨column, membership, named, ?_⟩
    intro other otherMembership
    rw [mem_sourcePaths_iff listed otherMembership]
    constructor
    · intro otherNamed
      exact column_eq_of_columnName otherMembership membership (otherNamed.trans named.symm)
    · rintro rfl
      exact named
  typed := by
    intro column membership clear
    obtain ⟨path, observedType, single, typed, each⟩ := sourcePaths_of_clear membership clear
    refine ⟨path, single, ?_⟩
    intro document documentMembership value held
    rw [typed, each document documentMembership value held]
    exact fits_sqlTypeForObservations observedType
  present := by
    intro column membership required path source document documentMembership
    obtain ⟨field, listed, _, describes⟩ := describes_of_mem_sourcePaths membership source
    obtain ⟨_, index, same⟩ := column_eq_of_mem membership
    rw [same] at required
    have complete := List.any_eq_false.mp required field listed
    simp only [decide_eq_true_eq, not_or, not_lt, Nat.le_zero] at complete
    obtain ⟨value, held⟩ := describes.exists_valueAt complete.1 documentMembership
    refine ⟨value, held, ?_⟩
    intro null
    apply complete.2
    rw [describes.mem_observedTypes_iff]
    exact ⟨value, List.mem_filterMap.mpr ⟨document, documentMembership, held⟩, null⟩

end Mongres
