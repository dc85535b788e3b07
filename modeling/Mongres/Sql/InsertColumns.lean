import Mongres.Sql.Addressing

/-!
# Names of inserted columns

A column name is read as a literal key, then as a dotted path, then as any other field name.
All three readings spell the name that was written, so a field that shares its name with no
other is found under it, as long as its segments can be told apart in it.
-/

namespace Mongres

open Fallible Ast Text

namespace FieldPath

/-- The paths that there are: a top-level field, and the fields below one. -/
inductive Constructed : FieldPath → Prop where
  | topLevel (field) : Constructed (.topLevel field)
  | child {path} (field) : Constructed path → Constructed (path.child field)

theorem foldl_child_segments (path : FieldPath) (names : List String) :
    (names.foldl child path).segments = path.segments ++ names := by
  induction names generalizing path with
  | nil => simp
  | cons name names inductionHypothesis => simp [inductionHypothesis]

theorem Constructed.segments_ne_nil {path : FieldPath} (constructed : path.Constructed) :
    path.segments ≠ [] := by
  induction constructed with
  | topLevel field => exact List.cons_ne_nil field []
  | child field _ _ => exact List.append_ne_nil_of_right_ne_nil _ (List.cons_ne_nil field [])

theorem Constructed.foldl_child {path : FieldPath} (constructed : path.Constructed)
    (names : List String) : (names.foldl FieldPath.child path).Constructed := by
  induction names generalizing path with
  | nil => exact constructed
  | cons name names inductionHypothesis => exact inductionHypothesis (constructed.child name)

theorem constructed_iff (path : FieldPath) : path.Constructed ↔ path.segments ≠ [] := by
  constructor
  · exact Constructed.segments_ne_nil
  · intro nonempty
    obtain ⟨first, rest, segments⟩ := List.exists_cons_of_ne_nil nonempty
    have spelled := foldl_child_segments (.topLevel first) rest
    have same : rest.foldl child (.topLevel first) = path := by
      cases path
      exact congrArg FieldPath.mk (spelled.trans segments.symm)
    exact same ▸ (Constructed.topLevel first).foldl_child rest

/-- The display name tells the segments apart: there is one, or none has a dot. -/
def Spelled (path : FieldPath) : Prop :=
  (∃ segment, path.segments = [segment]) ∨ ∀ segment ∈ path.segments, '.' ∉ segment.toList

end FieldPath

theorem SchemaProfile.constructed_of_infer {documents : List SampleDocument} {path : FieldPath}
    (listed : ((infer documents).field path).isSome) : path.Constructed :=
  (path.constructed_iff).mpr ((isSome_field_infer_iff documents path).mp listed).1

/-! ## The three readings -/

def dottedPath (name : String) : FieldPath := ⟨splitOn '.' name⟩

@[simp]
theorem displayName_topLevel (name : String) : (FieldPath.topLevel name).displayName = name :=
  join_singleton '.' name

@[simp]
theorem displayName_dottedPath (name : String) : (dottedPath name).displayName = name :=
  join_splitOn '.' name

theorem dottedPath_displayName {path : FieldPath} (constructed : path.Constructed)
    (plain : ∀ segment ∈ path.segments, '.' ∉ segment.toList) :
    dottedPath path.displayName = path := by
  cases path
  exact congrArg FieldPath.mk ((splitOn_join_iff '.' constructed.segments_ne_nil).mpr plain)

section Readings

variable {identifier : Ident} {collection : String} {schema : SchemaProfile} {path : FieldPath}

/-- The literal key comes first, then the dotted path, then the field that resolution finds. -/
theorem resolveInsertColumn_eq :
    resolveInsertColumn identifier collection schema =
      if (schema.field (.topLevel identifier.value)).isSome then .ok (.topLevel identifier.value)
      else if (schema.field (dottedPath identifier.value)).isSome then
        .ok (dottedPath identifier.value)
      else resolveField [identifier] collection schema := by
  unfold resolveInsertColumn dottedPath
  cases pieces : splitOn '.' identifier.value with
  | nil =>
      have nonempty := List.splitOn_ne_nil '.' identifier.value.toList
      exact absurd (List.map_eq_nil_iff.mp pieces) nonempty
  | cons first rest =>
      have spelled := FieldPath.foldl_child_segments (.topLevel first) rest
      have same : rest.foldl FieldPath.child (.topLevel first) = ⟨first :: rest⟩ :=
        congrArg FieldPath.mk spelled
      dsimp only
      rw [same]

/-- What a single name resolves to is the top-level field of that name. -/
theorem topLevel_of_resolveField (resolved : resolveField [identifier] collection schema = .ok path) :
    path = .topLevel identifier.value := by
  obtain ⟨spelled, nonempty, _⟩ := resolveField_eq_ok_iff.mp resolved
  by_cases qualifier : identifier = Ident.new collection
  · rw [stripCollection, if_pos qualifier] at spelled
    exact absurd spelled.symm nonempty
  · rw [stripCollection, if_neg qualifier] at spelled
    cases path
    exact congrArg FieldPath.mk spelled.symm

theorem displayName_of_resolveInsertColumn
    (resolved : resolveInsertColumn identifier collection schema = .ok path) :
    path.displayName = identifier.value := by
  rw [resolveInsertColumn_eq] at resolved
  split at resolved
  · cases resolved
    exact displayName_topLevel _
  · split at resolved
    · cases resolved
      exact displayName_dottedPath _
    · rw [topLevel_of_resolveField resolved, displayName_topLevel]

theorem resolveInsertColumn_of_unique (listed : (schema.field path).isSome)
    (unique : ∀ other, (schema.field other).isSome → other.displayName = path.displayName →
      other = path)
    (constructed : path.Constructed) (spelled : path.Spelled)
    (written : identifier.value = path.displayName) :
    resolveInsertColumn identifier collection schema = .ok path := by
  rw [resolveInsertColumn_eq, written]
  split
  · rename_i literal
    rw [unique _ literal (displayName_topLevel _)]
  · rename_i notLiteral
    rcases spelled with ⟨segment, single⟩ | plain
    · have literal : FieldPath.topLevel path.displayName = path := by
        cases path
        cases single
        exact congrArg FieldPath.topLevel (displayName_topLevel segment)
      rw [literal] at notLiteral
      exact absurd listed notLiteral
    · rw [dottedPath_displayName constructed plain, if_pos listed]

end Readings

/-- A column name resolves only to a listed field that it spells, and a field that alone has its
name resolves under it when its segments can be told apart. -/
theorem resolveInsertColumn_spells (schema : SchemaProfile) (collection : String)
    (identifier : Ident) :
    (∀ path, resolveInsertColumn identifier collection schema = .ok path →
      (schema.field path).isSome ∧ path.displayName = identifier.value) ∧
    ∀ path : FieldPath, path.Constructed → (schema.field path).isSome →
      (∀ other, (schema.field other).isSome → other.displayName = path.displayName →
        other = path) →
      path.Spelled → identifier.value = path.displayName →
        resolveInsertColumn identifier collection schema = .ok path := by
  constructor
  · intro path resolved
    exact ⟨resolveInsertColumn_listed resolved, displayName_of_resolveInsertColumn resolved⟩
  · intro path constructed listed unique spelled written
    exact resolveInsertColumn_of_unique listed unique constructed spelled written

section Example

private def addressSample : List SampleDocument :=
  [{ fields := [("address", .document [("city", .string "derby")])] }]

private def citySegments : FieldPath := ⟨["address", "city"]⟩

/-- The quoted name `"address.city"` is the nested field. -/
theorem resolveInsertColumn_spells_city :
    resolveInsertColumn ⟨"address.city", some '"'⟩ "people" (.infer addressSample) =
      .ok citySegments := by
  have listed : ((SchemaProfile.infer addressSample).field citySegments).isSome := rfl
  have each : ∀ field ∈ (SchemaProfile.infer addressSample).fields,
      field.path.displayName = "address.city" → field.path = citySegments := by decide
  have unique : ∀ other, ((SchemaProfile.infer addressSample).field other).isSome →
      other.displayName = citySegments.displayName → other = citySegments := by
    intro other found same
    obtain ⟨field, membership, named⟩ := List.find?_isSome.mp found
    cases of_decide_eq_true named
    exact each field membership same
  have constructed : citySegments.Constructed := .child "city" (.topLevel "address")
  have spelled : citySegments.Spelled := .inr (by simp [citySegments])
  exact (resolveInsertColumn_spells _ _ _).2 citySegments constructed listed unique spelled rfl

end Example

end Mongres
