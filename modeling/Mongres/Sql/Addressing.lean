import Mongres.Sql.Resolve

/-!
# Addressing a field by its own name

A field is spelled by its segments, alone or behind the name of its collection.
Resolution removes a leading collection name before it looks at the profile, so a
name that already begins with the collection is read in one way only.
-/

namespace Mongres

open Fallible Ast

def unquoted (names : List String) : List Ident := names.map Ident.new

/-- The identifiers spell a path, alone or behind the name of the collection. -/
def Spells (collection : String) (identifiers : List Ident) (path : FieldPath) : Prop :=
  identifiers.map Ident.value = path.segments ∨
    ∃ rest, identifiers = Ident.new collection :: rest ∧ rest.map Ident.value = path.segments

/-- A field is found under its own name, and nothing is found under another one. -/
structure AddressableByName (collection : String) (schema : SchemaProfile) (path : FieldPath) :
    Prop where
  qualified : resolveField (unquoted (collection :: path.segments)) collection schema = .ok path
  alone : resolveField (unquoted path.segments) collection schema = .ok path ∨
    ∃ other, other ≠ path ∧ (schema.field other).isSome ∧
      path.segments = collection :: other.segments
  faithful : ∀ identifiers other, resolveField identifiers collection schema = .ok other →
    Spells collection identifiers other

/-! ## Spelling -/

@[simp]
theorem ident_new_inj {first second : String} :
    Ident.new first = Ident.new second ↔ first = second := by
  simp [Ident.new]

@[simp]
theorem map_value_unquoted (names : List String) : (unquoted names).map Ident.value = names := by
  rw [unquoted, List.map_map]
  exact List.map_id names

theorem segments_fieldPathOf (first : Ident) (rest : List Ident) :
    (fieldPathOf first rest).segments = (first :: rest).map Ident.value := by
  have grown : ∀ path : FieldPath,
      (rest.foldl (fun path part => path.child part.value) path).segments =
        path.segments ++ rest.map Ident.value := by
    induction rest with
    | nil => simp
    | cons part rest inductionHypothesis =>
        intro path
        rw [List.foldl_cons, inductionHypothesis]
        simp
  exact grown (.topLevel first.value)

theorem resolveField_eq_ok_iff {identifiers : List Ident} {collection : String}
    {schema : SchemaProfile} {path : FieldPath} :
    resolveField identifiers collection schema = .ok path ↔
      (stripCollection collection identifiers).map Ident.value = path.segments ∧
        path.segments ≠ [] ∧ (schema.field path).isSome := by
  unfold resolveField
  cases stripCollection collection identifiers with
  | nil =>
      constructor
      · intro resolved
        cases resolved
      · rintro ⟨spelled, nonempty, _⟩
        exact absurd spelled.symm nonempty
  | cons first rest =>
      have spelled := segments_fieldPathOf first rest
      simp only [ite_error_eq_ok_iff, Except.ok.injEq, Option.isNone_iff_eq_none,
        ← Option.isSome_iff_ne_none]
      constructor
      · rintro ⟨listed, same⟩
        subst same
        exact ⟨spelled.symm, by simp [spelled], listed⟩
      · rintro ⟨same, _, listed⟩
        have reached : fieldPathOf first rest = path := by
          cases path
          exact congrArg FieldPath.mk (spelled.trans same)
        exact ⟨reached ▸ listed, reached⟩

theorem stripCollection_qualified (collection : String) (names : List String) :
    stripCollection collection (unquoted (collection :: names)) = unquoted names := by
  simp [stripCollection, unquoted]

theorem stripCollection_of_ne {collection : String} {names : List String}
    (other : names.head? ≠ some collection) :
    stripCollection collection (unquoted names) = unquoted names := by
  cases names with
  | nil => rfl
  | cons name names =>
      have different : name ≠ collection := by simpa using other
      simp [stripCollection, unquoted, different]

theorem spells_of_resolveField {identifiers : List Ident} {collection : String}
    {schema : SchemaProfile} {path : FieldPath}
    (resolved : resolveField identifiers collection schema = .ok path) :
    Spells collection identifiers path := by
  obtain ⟨spelled, _, _⟩ := resolveField_eq_ok_iff.mp resolved
  cases identifiers with
  | nil => exact .inl spelled
  | cons first rest =>
      by_cases qualifier : first = Ident.new collection
      · rw [stripCollection, if_pos qualifier] at spelled
        exact .inr ⟨rest, by rw [qualifier], spelled⟩
      · rw [stripCollection, if_neg qualifier] at spelled
        exact .inl spelled

/-! ## Which fields can be addressed -/

/-- What follows the collection name in a path that begins with it is a listed field. -/
def PrefixIsListed (collection : String) (schema : SchemaProfile) (path : FieldPath) : Prop :=
  ∀ rest, path.segments = collection :: rest → (schema.field ⟨rest⟩).isSome

/-- The alternative spelling is the only reason for a field to miss its own name. -/
theorem alone_iff {collection : String} {schema : SchemaProfile} {path : FieldPath}
    (nonempty : path.segments ≠ []) (listed : (schema.field path).isSome) :
    (resolveField (unquoted path.segments) collection schema = .ok path ∨
        ∃ other, other ≠ path ∧ (schema.field other).isSome ∧
          path.segments = collection :: other.segments) ↔
      PrefixIsListed collection schema path := by
  by_cases begins : path.segments.head? = some collection
  · obtain ⟨rest, segments⟩ := List.head?_eq_some_iff.mp begins
    have shorter : (⟨rest⟩ : FieldPath) ≠ path := by
      intro same
      rw [← same] at segments
      simpa using congrArg List.length segments
    constructor
    · rintro (resolved | ⟨other, _, otherListed, spelled⟩) tail behind
      · have stripped := (resolveField_eq_ok_iff.mp resolved).1
        rw [segments, stripCollection_qualified, map_value_unquoted] at stripped
        simpa using congrArg List.length stripped
      · have same : other.segments = tail := by
          rw [spelled] at behind
          exact (List.cons.inj behind).2
        rw [← same]
        exact otherListed
    · intro listedRest
      exact .inr ⟨⟨rest⟩, shorter, listedRest rest segments, segments⟩
  · constructor
    · intro _ rest segments
      simp [segments] at begins
    · intro _
      apply Or.inl
      rw [resolveField_eq_ok_iff, stripCollection_of_ne begins, map_value_unquoted]
      exact ⟨rfl, nonempty, listed⟩

/-- A listed field is addressable exactly when it has a segment and no name that begins
with the collection hides it. -/
theorem addressableByName_iff (collection : String) (schema : SchemaProfile) (path : FieldPath)
    (listed : (schema.field path).isSome) :
    AddressableByName collection schema path ↔
      path.segments ≠ [] ∧ PrefixIsListed collection schema path := by
  constructor
  · intro addressable
    have nonempty := (resolveField_eq_ok_iff.mp addressable.qualified).2.1
    exact ⟨nonempty, (alone_iff nonempty listed).mp addressable.alone⟩
  · rintro ⟨nonempty, prefixListed⟩
    have qualified :
        resolveField (unquoted (collection :: path.segments)) collection schema = .ok path := by
      rw [resolveField_eq_ok_iff, stripCollection_qualified, map_value_unquoted]
      exact ⟨rfl, nonempty, listed⟩
    exact
      { qualified
        alone := (alone_iff nonempty listed).mpr prefixListed
        faithful := fun _ _ resolved => spells_of_resolveField resolved }

/-! ## Fields named like their collection -/

private def statusSample : List SampleDocument := [{ fields := [("status", .string "open")] }]

private theorem isSome_field_status :
    ((SchemaProfile.infer statusSample).field (.topLevel "status")).isSome :=
  (SchemaProfile.isSome_field_infer_iff _ _).mpr
    ⟨List.cons_ne_nil "status" [], List.cons_ne_nil (SampleValue.string "open") []⟩

/-- In a collection of another name, the field is addressable. -/
theorem addressableByName_orders :
    AddressableByName "orders" (.infer statusSample) (.topLevel "status") := by
  apply (addressableByName_iff "orders" _ _ isSome_field_status).mpr
  refine ⟨List.cons_ne_nil "status" [], fun rest begins => ?_⟩
  exact absurd (List.cons.inj begins).1 (by decide)

/-- A field named like its collection is taken for the qualifier and not found. -/
theorem not_addressableByName_status :
    ((SchemaProfile.infer statusSample).field (.topLevel "status")).isSome ∧
      ¬AddressableByName "status" (.infer statusSample) (.topLevel "status") := by
  refine ⟨isSome_field_status, fun addressable => ?_⟩
  have empty := (alone_iff (List.cons_ne_nil "status" []) isSome_field_status).mp
    addressable.alone [] rfl
  exact ((SchemaProfile.isSome_field_infer_iff _ _).mp empty).1 rfl

end Mongres
