import Mongres.Executor.FieldNames
import Mongres.Mongo.Update
import Mongres.Proxy.TypeSafety

/-!
# Updates of nested paths

A path that every sampled document holds can be set in each of them.  A path that
some document lacks can be set exactly where its ancestors are documents, which is
evidence about other paths than the one that the policy looks at.
-/

namespace Mongres

open Fallible Text

/-- The paths above a path, from the top-level key down. -/
def FieldPath.IsAncestor (ancestor path : FieldPath) : Prop :=
  ancestor.segments ≠ [] ∧ ∃ rest, rest ≠ [] ∧ path.segments = ancestor.segments ++ rest

theorem FieldPath.isAncestor_pair_iff {ancestor : FieldPath} {key field : String} :
    FieldPath.IsAncestor ancestor ⟨[key, field]⟩ ↔ ancestor = ⟨[key]⟩ := by
  obtain ⟨segments⟩ := ancestor
  constructor
  · rintro ⟨nonempty, rest, proper, split⟩
    match segments with
    | [] => exact absurd rfl nonempty
    | [first] =>
        cases (List.cons_eq_cons.mp split).1
        rfl
    | first :: second :: others =>
        have lengths := congrArg List.length split
        have positive := List.length_pos_iff.mpr proper
        simp only [List.length_cons, List.length_nil, List.length_append] at lengths
        omega
  · rintro ⟨⟩
    exact ⟨by simp, [field], by simp, rfl⟩

/-- Every value that a document holds above a path is an embedded document. -/
def SampleDocument.HoldsDocumentsAbove (document : SampleDocument) (path : FieldPath) : Prop :=
  ∀ ancestor value, FieldPath.IsAncestor ancestor path → document.valueAt ancestor = some value →
    value.observedShape = .document

theorem SampleDocument.canSet_iff (document : SampleDocument) (path : FieldPath) :
    canSet (SampleValue.document document.fields) path.segments = true ↔
      document.HoldsDocumentsAbove path := by
  have isDocument (value : SampleValue) :
      (Nested.fields value).isSome ↔ value.observedShape = .document := by
    rw [Option.isSome_iff_ne_none, Ne, SampleValue.fields_eq_none_iff, not_not]
  rw [canSet_eq_true_iff]
  constructor
  · rintro ancestors ancestor value ⟨_, rest, proper, split⟩ held
    exact (isDocument value).mp (ancestors ancestor.segments rest split proper value held)
  · intro above first rest split proper value reached
    rw [isDocument]
    cases first with
    | nil =>
        cases reached
        rfl
    | cons key first =>
        exact above ⟨key :: first⟩ value ⟨by simp, rest, proper, split⟩ reached

theorem SampleDocument.holdsDocumentsAbove_of_valueAt {document : SampleDocument}
    {path : FieldPath} {leaf : SampleValue} (held : document.valueAt path = some leaf) :
    document.HoldsDocumentsAbove path :=
  (document.canSet_iff path).mp (canSet_of_descend held)

/-! ## Evidence about the ancestors -/

theorem exists_valueAt_of_missingDocuments {documents : List SampleDocument} {path : FieldPath}
    {profile : FieldProfile} (describes : profile.Describes documents path)
    (present : profile.missingDocuments = 0) {document : SampleDocument}
    (membership : document ∈ documents) : ∃ value, document.valueAt path = some value := by
  have bound := SchemaProfile.length_valuesAt_le documents path
  have missing := describes.missingDocuments_eq
  have complete : (SchemaProfile.valuesAt documents path).length = documents.length := by omega
  have each := List.filterMap_length_eq_length.mp complete
  exact Option.isSome_iff_exists.mp (each document membership)

/-- The profile has only documents above a path, as far as some sampled document
lacks the path. -/
def SchemaProfile.HasDocumentsAbove (schema : SchemaProfile) (path : FieldPath) : Prop :=
  ∀ profile, schema.field path = some profile → 0 < profile.missingDocuments →
    ∀ ancestor above, FieldPath.IsAncestor ancestor path → schema.field ancestor = some above →
      above.observedShapes = {.document}

theorem holdsDocumentsAbove_iff {documents : List SampleDocument} {path : FieldPath}
    (listed : ((SchemaProfile.infer documents).field path).isSome) :
    (∀ document ∈ documents, document.HoldsDocumentsAbove path) ↔
      (SchemaProfile.infer documents).HasDocumentsAbove path := by
  constructor
  · intro safe profile _ _ ancestor above higher found
    have describes := SchemaProfile.describes_of_field_infer found
    rw [Finset.eq_singleton_iff_nonempty_unique_mem]
    refine ⟨describes.nonempty.2, ?_⟩
    intro shape membership
    obtain ⟨value, held, rfl⟩ := (describes.mem_observedShapes_iff shape).mp membership
    obtain ⟨document, documentMembership, holds⟩ := List.mem_filterMap.mp held
    exact safe document documentMembership ancestor value higher holds
  · intro above document membership
    obtain ⟨profile, profiled⟩ := Option.isSome_iff_exists.mp listed
    have describes := SchemaProfile.describes_of_field_infer profiled
    rcases Nat.eq_zero_or_pos profile.missingDocuments with present | missing
    · obtain ⟨leaf, held⟩ := exists_valueAt_of_missingDocuments describes present membership
      exact SampleDocument.holdsDocumentsAbove_of_valueAt held
    · intro ancestor value higher holds
      have valueMembership : value ∈ SchemaProfile.valuesAt documents ancestor :=
        List.mem_filterMap.mpr ⟨document, membership, holds⟩
      have observed : SchemaProfile.Observed documents ancestor :=
        ⟨higher.1, List.ne_nil_of_mem valueMembership⟩
      obtain ⟨ancestorProfile, found⟩ := Option.isSome_iff_exists.mp
        ((SchemaProfile.isSome_field_infer_iff documents ancestor).mpr observed)
      have shapes := above profile profiled missing ancestor ancestorProfile higher found
      have shapeMembership := ((SchemaProfile.describes_of_field_infer found).mem_observedShapes_iff
        value.observedShape).mpr ⟨value, valueMembership, rfl⟩
      rw [shapes, Finset.mem_singleton] at shapeMembership
      exact shapeMembership

/-! ## Applying `$set` -/

/-- No value that a document holds is in the way of a `$set` update. -/
def SetApplies (update : Document) (document : SampleDocument) : Prop :=
  ∃ set, update = [("$set", .document set)] ∧
    ∀ name ∈ set.map Prod.fst,
      canSet (SampleValue.document document.fields) (splitOn '.' name) = true

/-- On paths with plain keys the update applies exactly below documents. -/
theorem setApplies_iff {assignments : List AssignmentPlan} {update : Document}
    (built : updateDocument assignments = .ok update)
    (plain : ∀ assignment ∈ assignments, assignment.path.HasPlainKeys)
    (nonempty : ∀ assignment ∈ assignments, assignment.path.segments ≠ [])
    (document : SampleDocument) :
    SetApplies update document ↔
      ∀ assignment ∈ assignments, document.HoldsDocumentsAbove assignment.path := by
  obtain ⟨named, set, rfl, names⟩ := exists_set_of_updateDocument built
  have recovered : ∀ assignment ∈ assignments, ∀ name, mongoFieldName assignment.path = .ok name →
      splitOn '.' name = assignment.path.segments := by
    intro assignment membership
    exact (FieldPath.addressedFaithfully_iff (nonempty assignment membership)).mpr
      (plain assignment membership)
  constructor
  · rintro ⟨other, same, applies⟩ assignment membership
    cases same
    obtain ⟨name, addressed⟩ := named assignment membership
    have settable := applies name ((names name).mpr ⟨assignment, membership, addressed⟩)
    rw [recovered assignment membership name addressed] at settable
    exact (document.canSet_iff assignment.path).mp settable
  · intro above
    refine ⟨set, rfl, ?_⟩
    intro name nameMembership
    obtain ⟨assignment, membership, addressed⟩ := (names name).mp nameMembership
    rw [recovered assignment membership name addressed]
    exact (document.canSet_iff assignment.path).mpr (above assignment membership)

/-! ## When an update that passes applies to the sample -/

theorem Passed.map_path_assigned {plan : StatementPlan} {schema : SchemaProfile}
    {resolver : Resolver} {minimumConfidence : Float} {state after : GateState}
    {write : ResolvedWrite}
    (passed : Passed plan schema resolver minimumConfidence state write after) :
    write.plan.assigned.map Prod.fst = plan.assigned.map Prod.fst := by
  rcases passed.uncontested_or_mixResolved with ⟨unchanged, _⟩ | ⟨_, _, _, _, mix⟩
  · rw [unchanged]
  · rw [mix.assigns, mix.resolves]
    rfl

theorem Passed.listed {plan : StatementPlan} {schema : SchemaProfile} {resolver : Resolver}
    {minimumConfidence : Float} {state after : GateState} {write : ResolvedWrite}
    (passed : Passed plan schema resolver minimumConfidence state write after) (path : FieldPath)
    (mentions : plan.Mentions path) : (schema.field path).isSome := by
  cases passed with
  | clear detected => exact (detected_of_eq_ok detected).listed path mentions
  | resolved _ _ _ _ detected => exact (detected_of_eq_ok detected).listed path mentions

/-- An update that passes meets only documents on its paths exactly when the profile
has only documents above each path that some sampled document lacks; on paths with
plain keys this is when its `$set` applies to every sampled document. -/
theorem holdsDocumentsAbove_targets_iff (documents : List SampleDocument) (update : UpdatePlan)
    (resolver : Resolver) (minimumConfidence : Float) (state after : GateState)
    (write : ResolvedWrite)
    (passes : resolveWritePlan (.update update) (SchemaProfile.infer documents) resolver
      minimumConfidence state = (.ok write, after)) :
    ((∀ document ∈ documents, ∀ cell ∈ write.plan.assigned,
        document.HoldsDocumentsAbove cell.1) ↔
      ∀ assignment ∈ update.assignments,
        (SchemaProfile.infer documents).HasDocumentsAbove assignment.path) ∧
    ∀ resolved set, write.plan = .update resolved →
      updateDocument resolved.assignments = .ok set →
      (∀ assignment ∈ update.assignments, assignment.path.HasPlainKeys) →
      ((∀ document ∈ documents, SetApplies set document) ↔
        ∀ assignment ∈ update.assignments,
          (SchemaProfile.infer documents).HasDocumentsAbove assignment.path) := by
  have passed := passed_of_resolveWritePlan passes
  have listed : ∀ assignment ∈ update.assignments,
      ((SchemaProfile.infer documents).field assignment.path).isSome := by
    intro assignment membership
    exact passed.listed _ (.inl (List.mem_map_of_mem membership))
  have safe : (∀ document ∈ documents, ∀ assignment ∈ update.assignments,
        document.HoldsDocumentsAbove assignment.path) ↔
      ∀ assignment ∈ update.assignments,
        (SchemaProfile.infer documents).HasDocumentsAbove assignment.path := by
    constructor
    · intro above assignment membership
      apply (holdsDocumentsAbove_iff (listed assignment membership)).mp
      intro document documentMembership
      exact above document documentMembership assignment membership
    · intro above document documentMembership assignment membership
      exact (holdsDocumentsAbove_iff (listed assignment membership)).mpr
        (above assignment membership) document documentMembership
  -- what passed assigns to the paths of the plan, whichever way it passed
  have samePaths : ∀ property : FieldPath → Prop,
      (∀ cell ∈ write.plan.assigned, property cell.1) ↔
        ∀ assignment ∈ update.assignments, property assignment.path := by
    intro property
    have paths := passed.map_path_assigned
    rw [← List.forall_mem_map (f := Prod.fst) (P := property), paths]
    simp [StatementPlan.assigned]
  refine ⟨?_, ?_⟩
  · rw [← safe]
    exact forall₂_congr fun document _ => samePaths document.HoldsDocumentsAbove
  · intro resolved set unchanged built plain
    have resolvedPaths : ∀ property : FieldPath → Prop,
        (∀ assignment ∈ resolved.assignments, property assignment.path) ↔
          ∀ assignment ∈ update.assignments, property assignment.path := by
      intro property
      rw [← samePaths property, unchanged]
      simp [StatementPlan.assigned]
    have nonempty : ∀ assignment ∈ resolved.assignments, assignment.path.segments ≠ [] := by
      apply (resolvedPaths fun path => path.segments ≠ []).mpr
      intro assignment membership
      exact ((SchemaProfile.isSome_field_infer_iff documents _).mp (listed assignment membership)).1
    rw [← safe]
    refine forall₂_congr fun document _ => ?_
    rw [setApplies_iff built ((resolvedPaths FieldPath.HasPlainKeys).mpr plain) nonempty]
    exact resolvedPaths document.HoldsDocumentsAbove

section Example

private def accounts : List SampleDocument :=
  [{ fields := [("id", .integer 1), ("profile", .document [("city", .string "york")])] },
    { fields := [("id", .integer 2), ("profile", .null)] }]

private def withoutCity : SampleDocument where
  fields := [("id", .integer 2), ("profile", .document [])]

private def plainAccounts : List SampleDocument :=
  [{ fields := [("id", .integer 1), ("profile", .document [("city", .string "york")])] },
    withoutCity]

private def setProfileCity : UpdatePlan where
  collection := "accounts"
  assignments := [{ path := ⟨["profile", "city"]⟩, value := .string "leeds" }]
  filter := .compare ⟨["id"]⟩ .greaterThan (.integer 0)

private def setCityStatement : Ast.Statement :=
  .updateWhere "accounts"
    [{ target := .columnName [.new "profile", .new "city"],
       value := .value (.singleQuotedString "leeds") }]
    (.binaryOp (.identifier (.new "id")) .gt (.value (.number "0" false)))

private def nestCity : ResolverResponse where
  contractVersion := "v2"
  schemaProfileVersion := (SchemaProfile.infer accounts).profileVersion
  operation := .update
  targetPath := ["profile", "city"]
  candidate := .useNestedPath
  confidence := 0.95
  rationale := "the path is nested"

theorem holdsDocumentsAbove_city : withoutCity.HoldsDocumentsAbove ⟨["profile", "city"]⟩ := by
  have outcome := holdsDocumentsAbove_targets_iff plainAccounts setProfileCity
    (fun _ => .ok nestCity) 0.9 {} _ _ rfl
  refine outcome.1.mpr ?_ withoutCity (List.mem_cons_of_mem _ List.mem_cons_self)
    (⟨["profile", "city"]⟩, .string "leeds") (by simp [setProfileCity, StatementPlan.assigned])
  intro assignment membership profile _ _ ancestor above higher found
  cases List.mem_singleton.mp membership
  cases FieldPath.isAncestor_pair_iff.mp higher
  cases found
  decide

/-- The city is missing below a null, the nested path is offered for it, and the
update then fails on the second document. -/
theorem not_holdsDocumentsAbove :
    ¬ ∀ (documents : List SampleDocument) (statement : Ast.Statement) (collection : String)
      (update : UpdatePlan) (resolver : Resolver) (minimumConfidence : Float)
      (state after : GateState) (write : ResolvedWrite),
      documents ≠ [] →
      lowerStatement statement collection (SchemaProfile.infer documents) =
        .ok (.update update) →
      resolveWritePlan (.update update) (SchemaProfile.infer documents) resolver
        minimumConfidence state = (.ok write, after) →
      ∀ document ∈ documents, ∀ cell ∈ write.plan.assigned,
        document.HoldsDocumentsAbove cell.1 := by
  intro above
  have lowered : lowerStatement setCityStatement "accounts" (SchemaProfile.infer accounts) =
      .ok (.update setProfileCity) := rfl
  have held := above accounts setCityStatement "accounts" setProfileCity (fun _ => .ok nestCity)
    0.9 {} _ _ (by simp [accounts]) lowered rfl
  have null := held _ (List.mem_cons_of_mem _ List.mem_cons_self)
    (⟨["profile", "city"]⟩, .string "leeds")
    (by simp [setProfileCity, StatementPlan.assigned]) ⟨["profile"]⟩ .null
    (FieldPath.isAncestor_pair_iff.mpr rfl) rfl
  cases null

end Example

end Mongres
