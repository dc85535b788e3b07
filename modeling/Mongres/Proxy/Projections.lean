import Mongres.Mongo.Projection
import Mongres.Proxy.Isolation
import Mongres.Proxy.UpdateSafety

/-!
# Projections

A projection lists the dotted name of every selected field.  MongoDB refuses a projection in
which one name leads to another, or has a part that is empty or looks like an operator.
-/

namespace Mongres

open Fallible Text

/-- A projection is accepted, and every selected field has the value that the document holds. -/
structure KeepsFields (mongo : ProjectionSemantics) (fields : List ProjectedField)
    (projection : Document) : Prop where
  noDottedPrefix : ∀ one ∈ projection.map Prod.fst, ∀ two ∈ projection.map Prod.fst,
    ∀ rest, two ≠ one ++ "." ++ rest
  value : ∃ keeps, mongo.project projection = .ok keeps ∧
    ∀ document : StoredDocument, ∀ field ∈ fields,
      valueAtPath (keeps document) field.path.segments =
        valueAtPath document.fields field.path.segments

theorem mem_keys_foldl_insert_iff (fields : List ProjectedField) (start : Document) (name : String) :
    name ∈ (fields.foldl (fun (document : Document) field =>
        document.insert field.path.displayName (.int32 1)) start).map Prod.fst ↔
      name ∈ start.map Prod.fst ∨ ∃ field ∈ fields, field.path.displayName = name := by
  induction fields generalizing start with
  | nil => simp
  | cons field fields inductionHypothesis =>
      rw [List.foldl_cons, inductionHypothesis, mem_keys_insert_iff, List.exists_mem_cons_iff,
        @eq_comm _ name, or_assoc, or_left_comm]

section Undotted

variable {fields : List ProjectedField} {projection : Document}

theorem mem_keys_projectionDocument_iff
    (projected : projectionDocument (.fields fields) = .ok (some projection)) (name : String) :
    name ∈ projection.map Prod.fst ↔ ∃ field ∈ fields, field.path.displayName = name := by
  obtain ⟨_, same⟩ := projectionDocument_fields_eq_ok_iff.mp projected
  cases same
  rw [mem_keys_foldl_insert_iff]
  simp

theorem exists_projectionDocument (undotted : ∀ field ∈ fields, field.path.Undotted) :
    ∃ projection, projectionDocument (.fields fields) = .ok (some projection) :=
  ⟨_, projectionDocument_fields_eq_ok_iff.mpr
    ⟨fun field membership => (undotted field membership).isLiteralDottedKey, rfl⟩⟩

theorem mem_includedPaths_iff (undotted : ∀ field ∈ fields, field.path.Undotted)
    (nonempty : ∀ field ∈ fields, field.path.segments ≠ [])
    (projected : projectionDocument (.fields fields) = .ok (some projection))
    (path : List String) :
    path ∈ includedPaths projection ↔ ∃ field ∈ fields, field.path.segments = path := by
  have names : includedPaths projection = (projection.map Prod.fst).map (splitOn '.') := by
    rw [includedPaths, List.map_map]
    rfl
  rw [names, List.mem_map]
  constructor
  · rintro ⟨name, listed, rfl⟩
    obtain ⟨field, membership, rfl⟩ := (mem_keys_projectionDocument_iff projected name).mp listed
    have recovered := (undotted field membership).splitOn_displayName (nonempty field membership)
    exact ⟨field, membership, recovered.symm⟩
  · rintro ⟨field, membership, rfl⟩
    have recovered := (undotted field membership).splitOn_displayName (nonempty field membership)
    exact ⟨_, (mem_keys_projectionDocument_iff projected _).mpr ⟨field, membership, rfl⟩, recovered⟩

theorem isAncestor_iff {ancestor path : FieldPath} (nonempty : ancestor.segments ≠ []) :
    ancestor.IsAncestor path ↔
      ancestor.segments <+: path.segments ∧ ancestor.segments ≠ path.segments := by
  constructor
  · rintro ⟨_, rest, proper, split⟩
    rw [split]
    refine ⟨List.prefix_append _ _, ?_⟩
    simpa using proper
  · rintro ⟨⟨rest, reaches⟩, different⟩
    refine ⟨nonempty, rest, ?_, reaches.symm⟩
    rintro rfl
    exact different (by rw [← reaches, List.append_nil])

theorem exists_displayName_iff {one two : FieldPath} (undottedOne : one.Undotted)
    (undottedTwo : two.Undotted) (nonemptyOne : one.segments ≠ [])
    (nonemptyTwo : two.segments ≠ []) :
    (∃ rest, two.displayName = one.displayName ++ "." ++ rest) ↔ one.IsAncestor two := by
  have leads := @exists_append_iff '.' one.displayName two.displayName
  rw [undottedOne.splitOn_displayName nonemptyOne,
    undottedTwo.splitOn_displayName nonemptyTwo] at leads
  exact leads.trans (isAncestor_iff nonemptyOne).symm

theorem eq_of_mem_foldl_insert {start : Document}
    (initially : ∀ entry ∈ start, entry.2 = Bson.int32 1) :
    ∀ entry ∈ fields.foldl (fun (document : Document) field =>
      document.insert field.path.displayName (.int32 1)) start, entry.2 = Bson.int32 1 := by
  induction fields generalizing start with
  | nil => exact initially
  | cons field fields inductionHypothesis =>
      apply inductionHypothesis
      intro entry membership
      dsimp only at membership
      rw [Document.insert_eq_setEntry] at membership
      rcases mem_setEntry membership with rfl | earlier
      · rfl
      · exact initially entry earlier

theorem eq_of_mem_projectionDocument
    (projected : projectionDocument (.fields fields) = .ok (some projection)) :
    ∀ entry ∈ projection, entry.2 = .int32 1 := by
  obtain ⟨_, same⟩ := projectionDocument_fields_eq_ok_iff.mp projected
  cases same
  exact eq_of_mem_foldl_insert nofun

/-- Names collide exactly when one field is above another. -/
theorem pathsCollide_iff (undotted : ∀ field ∈ fields, field.path.Undotted)
    (nonempty : ∀ field ∈ fields, field.path.segments ≠ [])
    (projected : projectionDocument (.fields fields) = .ok (some projection)) :
    PathsCollide (includedPaths projection) ↔
      ∃ one ∈ fields, ∃ two ∈ fields, one.path.IsAncestor two.path := by
  have paths := mem_includedPaths_iff undotted nonempty projected
  constructor
  · rintro ⟨one, first, two, second, collide⟩
    obtain ⟨field, membership, rfl⟩ := (paths one).mp first
    obtain ⟨other, otherMembership, rfl⟩ := (paths two).mp second
    exact ⟨field, membership, other, otherMembership,
      (isAncestor_iff (nonempty field membership)).mpr collide⟩
  · rintro ⟨one, first, two, second, above⟩
    exact ⟨_, (paths _).mpr ⟨one, first, rfl⟩, _, (paths _).mpr ⟨two, second, rfl⟩,
      (isAncestor_iff (nonempty one first)).mp above⟩

theorem exists_project (mongo : ProjectionSemantics)
    (undotted : ∀ field ∈ fields, field.path.Undotted)
    (nonempty : ∀ field ∈ fields, field.path.segments ≠ [])
    (fieldPaths : ∀ field ∈ fields, IsFieldPath field.path.segments)
    (apart : ∀ one ∈ fields, ∀ two ∈ fields, ¬ one.path.IsAncestor two.path)
    (projected : projectionDocument (.fields fields) = .ok (some projection)) :
    ∃ keeps, mongo.project projection = .ok keeps ∧
      ∀ document : StoredDocument, ∀ field ∈ fields,
        valueAtPath (keeps document) field.path.segments =
          valueAtPath document.fields field.path.segments := by
  have paths := mem_includedPaths_iff undotted nonempty projected
  have free : ¬ PathsCollide (includedPaths projection) := by
    rw [pathsCollide_iff undotted nonempty projected]
    rintro ⟨one, first, two, second, above⟩
    exact apart one first two second above
  have named : ∀ path ∈ includedPaths projection, IsFieldPath path := by
    intro path membership
    obtain ⟨field, listed, rfl⟩ := (paths path).mp membership
    exact fieldPaths field listed
  obtain ⟨keeps, accepted, values⟩ :=
    mongo.included projection (eq_of_mem_projectionDocument projected) named free
  refine ⟨keeps, accepted, ?_⟩
  intro document field membership
  rw [valueAtPath, valueAtPath, if_neg (nonempty field membership),
    if_neg (nonempty field membership)]
  exact values document _ ((paths _).mpr ⟨field, membership, rfl⟩)

/-- The selected fields are kept exactly when none of them is above another and all can be named
in a projection. -/
theorem forall_keepsFields_iff (mongo : ProjectionSemantics) {items : List Ast.SelectItem}
    {collection : String} {documents : List SampleDocument}
    (parsed : parseProjection items collection (SchemaProfile.infer documents) =
      .ok (.fields fields))
    (undotted : ∀ field ∈ fields, field.path.Undotted) :
    (∀ projection, projectionDocument (.fields fields) = .ok (some projection) →
        KeepsFields mongo fields projection) ↔
      (∀ one ∈ fields, ∀ two ∈ fields, ¬ one.path.IsAncestor two.path) ∧
        ∀ field ∈ fields, IsFieldPath field.path.segments := by
  have nonempty : ∀ field ∈ fields, field.path.segments ≠ [] := by
    intro field membership
    have listed := listed_of_parseProjection parsed field.path
      (List.mem_map.mpr ⟨field, membership, rfl⟩)
    exact ((SchemaProfile.isSome_field_infer_iff documents field.path).mp listed).1
  constructor
  · intro keeps
    obtain ⟨projection, projected⟩ := exists_projectionDocument undotted
    obtain ⟨keepsOf, accepted, values⟩ := (keeps projection projected).value
    have inclusion := eq_of_mem_projectionDocument projected
    have refused := mongo.refused projection inclusion
    constructor
    · intro one first two second above
      apply refused (.inr _) _ accepted
      exact (pathsCollide_iff undotted nonempty projected).mpr ⟨one, first, two, second, above⟩
    · intro field membership
      have included := (mem_includedPaths_iff undotted nonempty projected _).mpr
        ⟨field, membership, rfl⟩
      by_contra nameless
      by_cases positional : IsPositional field.path.segments
      · obtain ⟨document, held⟩ := StoredDocument.exists_valueAt (nonempty field membership)
        have missing :=
          mongo.positional projection keepsOf inclusion accepted _ included positional document
        have kept := values document field membership
        rw [valueAtPath, valueAtPath, if_neg (nonempty field membership),
          if_neg (nonempty field membership)] at kept
        cases missing.symm.trans (kept.trans held)
      · exact refused (.inl ⟨_, included, nameless, positional⟩) _ accepted
  · rintro ⟨apart, fieldPaths⟩ projection projected
    have names := mem_keys_projectionDocument_iff projected
    refine ⟨?_, exists_project mongo undotted nonempty fieldPaths apart projected⟩
    intro one first two second rest longer
    obtain ⟨field, membership, rfl⟩ := (names one).mp first
    obtain ⟨other, otherMembership, rfl⟩ := (names two).mp second
    exact apart field membership other otherMembership
      ((exists_displayName_iff (undotted field membership) (undotted other otherMembership)
        (nonempty field membership) (nonempty other otherMembership)).mp ⟨rest, longer⟩)

end Undotted

section Example

private def residence : List SampleDocument :=
  [{ fields := [("address", .document [("city", .string "york")]), ("age", .integer 36)] }]

private def selectAge : List Ast.SelectItem :=
  [.unnamedExpr (.identifier (.new "age")),
    .unnamedExpr (.compoundIdentifier [.new "address", .new "city"])]

private def selectAddress : List Ast.SelectItem :=
  [.unnamedExpr (.identifier (.new "address")),
    .unnamedExpr (.compoundIdentifier [.new "address", .new "city"])]

private def ageAndCity : List ProjectedField :=
  [⟨⟨["age"]⟩, none⟩, ⟨⟨["address", "city"]⟩, none⟩]

theorem keepsFields_selectAge :
    KeepsFields .ofDocuments ageAndCity [("age", .int32 1), ("address.city", .int32 1)] := by
  have parsed : parseProjection selectAge "people" (SchemaProfile.infer residence) =
      .ok (.fields ageAndCity) := rfl
  have nonempty : ∀ field ∈ ageAndCity, field.path.segments ≠ [] := by decide
  have apart : ∀ one ∈ ageAndCity, ∀ two ∈ ageAndCity,
      ¬ (one.path.segments <+: two.path.segments ∧ one.path.segments ≠ two.path.segments) := by
    decide
  apply (forall_keepsFields_iff .ofDocuments parsed (by decide)).mpr ⟨_, by decide⟩ _ rfl
  intro one first two second above
  exact apart one first two second ((isAncestor_iff (nonempty one first)).mp above)

/-- A document and its city are both selected, and one name leads to the other. -/
theorem not_forall_keepsFields :
    ¬ ∃ mongo : ProjectionSemantics, ∀ (items : List Ast.SelectItem) (collection : String)
      (documents : List SampleDocument) (fields : List ProjectedField),
      parseProjection items collection (SchemaProfile.infer documents) = .ok (.fields fields) →
      (∀ field ∈ fields, field.path.Undotted) →
      ∀ projection, projectionDocument (.fields fields) = .ok (some projection) →
        KeepsFields mongo fields projection := by
  rintro ⟨mongo, keeps⟩
  have kept := keeps selectAddress "people" residence
    [⟨⟨["address"]⟩, none⟩, ⟨⟨["address", "city"]⟩, none⟩] rfl (by decide)
    [("address", .int32 1), ("address.city", .int32 1)] rfl
  exact kept.noDottedPrefix "address" (by simp) "address.city" (by simp) "city" rfl

end Example

end Mongres
