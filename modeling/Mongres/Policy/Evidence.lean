import Mongres.Proxy.Gate

/-!
# Evidence grows with the sample

Sampling more documents adds values, and a value adds types, shapes and collisions and never
takes one back.  A missing document stays missing.  So whatever detection reports over a
sample, it also reports over every larger one.
-/

namespace Mongres

/-- The second of two ambiguities is of the same field and gives at least the same reasons. -/
def WriteAmbiguity.PersistsIn (ambiguity larger : WriteAmbiguity) : Prop :=
  larger.fieldPath = ambiguity.fieldPath ∧ ambiguity.kinds ⊆ larger.kinds

section Evidence

variable {sampled added : List SampleDocument} {path : FieldPath} {profile larger : FieldProfile}

theorem valuesAt_append (sampled added : List SampleDocument) (path : FieldPath) :
    SchemaProfile.valuesAt (sampled ++ added) path =
      SchemaProfile.valuesAt sampled path ++ SchemaProfile.valuesAt added path :=
  List.filterMap_append ..

theorem observed_append (observed : SchemaProfile.Observed sampled path) :
    SchemaProfile.Observed (sampled ++ added) path := by
  refine ⟨observed.1, ?_⟩
  rw [valuesAt_append]
  exact List.append_ne_nil_of_left_ne_nil observed.2 _

theorem mem_valuesAt_append {value : SampleValue}
    (membership : value ∈ SchemaProfile.valuesAt sampled path) :
    value ∈ SchemaProfile.valuesAt (sampled ++ added) path := by
  rw [valuesAt_append]
  exact List.mem_append_left _ membership

theorem observedTypes_subset (describes : profile.Describes sampled path)
    (describesLarger : larger.Describes (sampled ++ added) path) :
    profile.observedTypes ⊆ larger.observedTypes := by
  intro observedType membership
  obtain ⟨value, held, typed⟩ := (describes.mem_observedTypes_iff observedType).mp membership
  apply (describesLarger.mem_observedTypes_iff observedType).mpr
  exact ⟨value, mem_valuesAt_append held, typed⟩

theorem observedShapes_subset (describes : profile.Describes sampled path)
    (describesLarger : larger.Describes (sampled ++ added) path) :
    profile.observedShapes ⊆ larger.observedShapes := by
  intro observedShape membership
  obtain ⟨value, held, shaped⟩ := (describes.mem_observedShapes_iff observedShape).mp membership
  apply (describesLarger.mem_observedShapes_iff observedShape).mpr
  exact ⟨value, mem_valuesAt_append held, shaped⟩

theorem length_nonNull_le {first second : Finset ObservedType} (included : first ⊆ second) :
    (ObservedType.nonNull first).length ≤ (ObservedType.nonNull second).length := by
  apply List.Subperm.length_le
  apply List.subperm_of_subset (ObservedType.nodup_nonNull first)
  intro observedType membership
  rw [ObservedType.mem_nonNull_iff] at membership ⊢
  exact ⟨included membership.1, membership.2⟩

theorem missingDocuments_le (describes : profile.Describes sampled path)
    (describesLarger : larger.Describes (sampled ++ added) path) :
    profile.missingDocuments ≤ larger.missingDocuments := by
  have bound := SchemaProfile.length_valuesAt_le added path
  rw [describes.missingDocuments_eq, describesLarger.missingDocuments_eq, valuesAt_append,
    List.length_append, List.length_append]
  omega

/-- A condition that an entry meets is met by the entry for a larger sample. -/
theorem AmbiguityKind.Met.append {kind : AmbiguityKind} (met : kind.Met profile)
    (describes : profile.Describes sampled path)
    (describesLarger : larger.Describes (sampled ++ added) path) : kind.Met larger := by
  cases kind with
  | mixedBsonTypes =>
      have types := observedTypes_subset describes describesLarger
      exact Nat.lt_of_lt_of_le met (length_nonNull_le types)
  | mixedShapes =>
      have shapes := observedShapes_subset describes describesLarger
      exact Nat.lt_of_lt_of_le met (Finset.card_le_card shapes)
  | dottedPathCollision =>
      obtain ⟨other, different, observed, named⟩ := describes.collision_iff.mp met
      exact describesLarger.collision_iff.mpr ⟨other, different, observed_append observed, named⟩
  | missingFromSampledDocuments =>
      exact Nat.lt_of_lt_of_le met (missingDocuments_le describes describesLarger)

theorem ambiguityKinds_subset (describes : profile.Describes sampled path)
    (describesLarger : larger.Describes (sampled ++ added) path) :
    ambiguityKinds profile ⊆ ambiguityKinds larger := by
  intro kind membership
  rw [mem_ambiguityKinds_iff] at membership ⊢
  exact membership.append describes describesLarger

theorem exists_field_append (found : (SchemaProfile.infer sampled).field path = some profile) :
    ∃ larger, (SchemaProfile.infer (sampled ++ added)).field path = some larger ∧
      ambiguityKinds profile ⊆ ambiguityKinds larger := by
  have describes := SchemaProfile.describes_of_field_infer found
  have listed : ((SchemaProfile.infer (sampled ++ added)).field path).isSome :=
    (SchemaProfile.isSome_field_infer_iff _ _).mpr (observed_append describes.observed)
  obtain ⟨larger, foundLarger⟩ := Option.isSome_iff_exists.mp listed
  have describesLarger := SchemaProfile.describes_of_field_infer foundLarger
  exact ⟨larger, foundLarger, ambiguityKinds_subset describes describesLarger⟩

end Evidence

/-! ## Detection over a larger sample -/

section Detection

variable {sampled added : List SampleDocument} {plan : StatementPlan}
  {ambiguities larger : List WriteAmbiguity}

theorem exists_persists
    (detected : detectWriteAmbiguities plan (SchemaProfile.infer sampled) = .ok ambiguities)
    (detectedLarger :
      detectWriteAmbiguities plan (SchemaProfile.infer (sampled ++ added)) = .ok larger)
    {ambiguity : WriteAmbiguity} (membership : ambiguity ∈ ambiguities) :
    ∃ other ∈ larger, ambiguity.PersistsIn other := by
  obtain ⟨path, profile, mentions, found, ambiguous, rfl⟩ :=
    ((detected_of_eq_ok detected).mem_iff ambiguity).mp membership
  obtain ⟨grown, foundGrown, kinds⟩ := @exists_field_append _ added _ _ found
  have stillAmbiguous : grown.Ambiguous := by
    rw [← ambiguityKinds_ne_empty_iff, ← Finset.nonempty_iff_ne_empty] at ambiguous ⊢
    exact ambiguous.mono kinds
  refine ⟨grown.evidence path, ?_, rfl, kinds⟩
  apply ((detected_of_eq_ok detectedLarger).mem_iff _).mpr
  exact ⟨path, grown, mentions, foundGrown, stillAmbiguous, rfl⟩

theorem consulted_of_resolveWritePlan {schema : SchemaProfile} {resolver : Resolver}
    {minimumConfidence : Float} {state after : GateState} {write : ResolvedWrite}
    (detected : detectWriteAmbiguities plan schema = .ok ambiguities) (gated : ambiguities ≠ [])
    (passes : resolveWritePlan plan schema resolver minimumConfidence state = (.ok write, after)) :
    ∃ request response, after.consulted = state.consulted ++ [request] ∧
      resolver request = .ok response := by
  cases passed_of_resolveWritePlan passes with
  | clear clear =>
      cases detected.symm.trans clear
      exact absurd rfl gated
  | resolved operation ambiguity response write _ operates answered validated applies =>
      exact ⟨_, response, rfl, answered⟩

end Detection

/-- What is reported over a sample is reported over a larger one, with at least its kinds, so a
write that is gated on the sample is not executed as clear on the larger one. -/
theorem detectWriteAmbiguities_append (sampled added : List SampleDocument) (plan : StatementPlan)
    (writes : plan.isWrite = true)
    (listed : ∀ path, plan.Mentions path → ((SchemaProfile.infer sampled).field path).isSome) :
    ∃ ambiguities larger,
      detectWriteAmbiguities plan (SchemaProfile.infer sampled) = .ok ambiguities ∧
      detectWriteAmbiguities plan (SchemaProfile.infer (sampled ++ added)) = .ok larger ∧
      (∀ ambiguity ∈ ambiguities, ∃ other ∈ larger, ambiguity.PersistsIn other) ∧
      (ambiguities ≠ [] → larger ≠ [] ∧
        ∀ resolver minimumConfidence state write after,
          resolveWritePlan plan (SchemaProfile.infer (sampled ++ added)) resolver minimumConfidence
              state = (.ok write, after) →
            ∃ request response, after.consulted = state.consulted ++ [request] ∧
              resolver request = .ok response) := by
  obtain ⟨ambiguities, detected⟩ := exists_detectWriteAmbiguities writes listed
  have listedLarger : ∀ path, plan.Mentions path →
      ((SchemaProfile.infer (sampled ++ added)).field path).isSome := by
    intro path mentions
    obtain ⟨profile, found⟩ := Option.isSome_iff_exists.mp (listed path mentions)
    obtain ⟨grown, foundGrown, _⟩ := @exists_field_append _ added _ _ found
    rw [foundGrown]
    rfl
  obtain ⟨larger, detectedLarger⟩ := exists_detectWriteAmbiguities writes listedLarger
  have persists : ∀ ambiguity ∈ ambiguities, ∃ other ∈ larger, ambiguity.PersistsIn other :=
    fun _ membership => exists_persists detected detectedLarger membership
  refine ⟨ambiguities, larger, detected, detectedLarger, persists, fun gated => ?_⟩
  obtain ⟨ambiguity, membership⟩ := List.exists_mem_of_ne_nil _ gated
  obtain ⟨other, otherMembership, _⟩ := persists ambiguity membership
  have stillGated : larger ≠ [] := List.ne_nil_of_mem otherMembership
  refine ⟨stillGated, ?_⟩
  intro resolver minimumConfidence state write after passes
  exact consulted_of_resolveWritePlan detectedLarger stillGated passes

section Example

private def sampledParts : List SampleDocument :=
  [{ fields := [("part", .integer 12)] }, { fields := [("part", .string "axle")] }]

private def partlessPart : List SampleDocument := [{ fields := [("weight", .integer 3)] }]

private def insertPart : StatementPlan :=
  .insert { collection := "parts", columns := [.topLevel "part"], rows := [[.integer 13]] }

/-- Parts of two types gate a write, also when a document without a part is added. -/
theorem detectWriteAmbiguities_insertPart :
    ∃ first rest larger,
      detectWriteAmbiguities insertPart (SchemaProfile.infer sampledParts) = .ok (first :: rest) ∧
      detectWriteAmbiguities insertPart (SchemaProfile.infer (sampledParts ++ partlessPart)) =
        .ok larger ∧
      (∀ ambiguity ∈ first :: rest, ∃ other ∈ larger, ambiguity.PersistsIn other) ∧
      larger ≠ [] ∧
      ∀ resolver minimumConfidence state write after,
        resolveWritePlan insertPart (SchemaProfile.infer (sampledParts ++ partlessPart)) resolver
            minimumConfidence state = (.ok write, after) →
          ∃ request response, after.consulted = state.consulted ++ [request] ∧
            resolver request = .ok response := by
  have gated : ∃ first rest, detectWriteAmbiguities insertPart (SchemaProfile.infer sampledParts) =
      .ok (first :: rest) := ⟨_, _, rfl⟩
  obtain ⟨first, rest, gated⟩ := gated
  obtain ⟨ambiguities, larger, detected, detectedLarger, persists, stays⟩ :=
    detectWriteAmbiguities_append sampledParts partlessPart insertPart rfl
      (detected_of_eq_ok gated).listed
  cases gated.symm.trans detected
  obtain ⟨stillGated, consults⟩ := stays (List.cons_ne_nil first rest)
  exact ⟨first, rest, larger, gated, detectedLarger, persists, stillGated, consults⟩

end Example

end Mongres
