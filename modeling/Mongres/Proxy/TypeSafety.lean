import Mongres.Proxy.FailClosed
import Mongres.Sql.Substitution

/-!
# Types of written values

A literal is checked against a field whose evidence is clear, and a field whose
evidence is not clear is left to the ambiguity policy.  A field that was only ever
seen as null is clear for the policy and has no type for the check.
-/

namespace Mongres

open Fallible

/-- Evidence of several types or shapes, or a shared display name. -/
def FieldProfile.Contested (profile : FieldProfile) : Prop :=
  1 < (ObservedType.nonNull profile.observedTypes).length ∨ 1 < profile.observedShapes.card ∨
    profile.hasDottedKeyCollision = true

theorem FieldProfile.ambiguous_iff (profile : FieldProfile) :
    profile.Ambiguous ↔ profile.Contested ∨ 0 < profile.missingDocuments := by
  simp only [Ambiguous, Contested, or_assoc]

theorem FieldProfile.not_contested_of_ambiguityKinds {profile : FieldProfile}
    (missing : ambiguityKinds profile = {.missingFromSampledDocuments}) : ¬ profile.Contested := by
  have met (kind : AmbiguityKind) (other : kind ≠ .missingFromSampledDocuments) :
      ¬ kind.Met profile := by
    rw [← mem_ambiguityKinds_iff, missing, Finset.mem_singleton]
    exact other
  rintro (types | shapes | collision)
  · exact met .mixedBsonTypes (by decide) types
  · exact met .mixedShapes (by decide) shapes
  · exact met .dottedPathCollision (by decide) collision

/-- A value of a type that a profile has observed, or null. -/
def SqlValue.HasObservedType (value : SqlValue) (profile : FieldProfile) : Prop :=
  value = .null ∨ ∃ observedType ∈ profile.observedTypes, value.scalarType = some observedType

theorem SqlValue.exists_scalarType {value : SqlValue} (written : value ≠ .null)
    (bound : ∀ name, value ≠ .placeholder name) :
    ∃ observedType, value.scalarType = some observedType ∧ observedType ≠ .null := by
  cases value with
  | null => exact absurd rfl written
  | placeholder name => exact absurd rfl (bound name)
  | boolean value => exact ⟨.boolean, rfl, by decide⟩
  | integer value => exact ⟨.integer, rfl, by decide⟩
  | floatingPoint value => exact ⟨.floatingPoint, rfl, by decide⟩
  | string value => exact ⟨.string, rfl, by decide⟩

/-! ## The check of a literal on an uncontested field -/

theorem ObservedType.nonNull_eq_nil_iff {observedTypes : Finset ObservedType}
    (nonempty : observedTypes.Nonempty) :
    ObservedType.nonNull observedTypes = [] ↔ observedTypes = {.null} := by
  rw [List.eq_nil_iff_forall_not_mem]
  simp only [mem_nonNull_iff, not_and, not_not]
  rw [Finset.eq_singleton_iff_nonempty_unique_mem]
  exact ⟨fun every => ⟨nonempty, every⟩, fun unique => unique.2⟩

theorem validateFieldShape_eq_none_iff {documents : List SampleDocument} {path : FieldPath}
    {profile : FieldProfile} (found : (SchemaProfile.infer documents).field path = some profile) :
    validateFieldShape path (SchemaProfile.infer documents) = .ok none ↔
      profile.Contested ∨ profile.observedTypes = {.null} := by
  have describes := SchemaProfile.describes_of_field_infer found
  obtain ⟨someType, someShape⟩ := describes.nonempty
  have shapes := Finset.card_pos.mpr someShape
  rw [validateFieldShape_eq_ok_iff, ← ObservedType.nonNull_eq_nil_iff someType]
  simp only [found, Option.some.injEq, exists_eq_left', FieldProfile.Contested]
  cases types : ObservedType.nonNull profile.observedTypes with
  | nil => simp
  | cons first others =>
      cases others with
      | cons second others => simp
      | nil =>
          by_cases collision : profile.hasDottedKeyCollision = true
          · simp [collision]
          · by_cases several : profile.observedShapes.card = 1
            · simp [collision, several]
            · have more : 1 < profile.observedShapes.card := by omega
              simp [collision, several, more]

/-- On an uncontested field a checked value has an observed type unless only null was seen. -/
theorem SqlValue.hasObservedType_iff {documents : List SampleDocument} {path : FieldPath}
    {profile : FieldProfile} {value : SqlValue}
    (found : (SchemaProfile.infer documents).field path = some profile)
    (uncontested : ¬ profile.Contested)
    (valid : validateWriteValue path value (SchemaProfile.infer documents) = .ok ())
    (written : value ≠ .null) (bound : ∀ name, value ≠ .placeholder name) :
    value.HasObservedType profile ↔ profile.observedTypes ≠ {.null} := by
  obtain ⟨observedType, literal, nonNull⟩ := SqlValue.exists_scalarType written bound
  obtain ⟨shape, checked, agrees⟩ := (validateValue_eq_ok_iff literal).mp valid
  constructor
  · rintro (null | ⟨other, membership, same⟩) onlyNull
    · exact written null
    · rw [literal, Option.some.injEq] at same
      rw [onlyNull, Finset.mem_singleton] at membership
      exact nonNull (same.trans membership)
  · intro someType
    cases shape with
    | none =>
        rcases (validateFieldShape_eq_none_iff found).mp checked with contested | onlyNull
        · exact absurd contested uncontested
        · exact absurd onlyNull someType
    | some clear =>
        obtain ⟨other, otherFound, single⟩ := nonNull_of_validateFieldShape checked
        cases Option.some.inj (found.symm.trans otherFound)
        cases agrees clear rfl
        have membership : observedType ∈ ObservedType.nonNull profile.observedTypes := by
          simp [single]
        exact .inr ⟨observedType, (ObservedType.mem_nonNull_iff.mp membership).1, literal⟩

/-! ## What a passed write assigns -/

/-- A resolved integer and string mix: one assignment, to a field of both types. -/
structure MixResolved (plan : StatementPlan) (schema : SchemaProfile) (resolved : StatementPlan)
    (path : FieldPath) (profile : FieldProfile) (value written : SqlValue) : Prop where
  profiled : schema.field path = some profile
  observedTypes : profile.observedTypes = {.integer, .string}
  assigns : plan.assigned = [(path, value)]
  resolves : resolved.assigned = [(path, written)]
  tagged : written.HasObservedType profile

theorem StatementPlan.AssignsOnly.assigned_eq {plan : StatementPlan} {path : FieldPath}
    {value : SqlValue} (assigns : plan.AssignsOnly path value) :
    plan.assigned = [(path, value)] ∧
      ∀ written, (plan.retag path written).assigned = [(path, written)] := by
  obtain ⟨update, rfl, single, _⟩ := assigns
  exact ⟨by simp [assigned, single], fun written => by simp [assigned, retag]⟩

/-- A mix that one of its candidates resolves. -/
theorem mixResolved_of_eligible {plan : StatementPlan} {schema : SchemaProfile}
    {path : FieldPath} {profile : FieldProfile} {value : SqlValue}
    (profiled : schema.field path = some profile)
    (eligible : mixedTypeAssignmentValue plan (profile.evidence path) = some value)
    {resolved : StatementPlan} {written : SqlValue}
    (effect : resolved = plan ∧ written = value ∨ resolved = plan.retag path written)
    (tag : written.scalarType = some .integer ∨ written.scalarType = some .string) :
    MixResolved plan schema resolved path profile value written := by
  obtain ⟨⟨mix, _⟩, assigns⟩ := (mixedTypeAssignmentValue_eq_some_iff _ _ _).mp eligible
  have types : profile.observedTypes = {.integer, .string} :=
    congrArg WriteAmbiguity.observedTypes mix
  obtain ⟨assigned, retagged⟩ := assigns.assigned_eq
  refine ⟨profiled, types, assigned, ?_, .inr ?_⟩
  · rcases effect with ⟨rfl, rfl⟩ | rfl
    · exact assigned
    · exact retagged written
  · rcases tag with integer | string
    · exact ⟨.integer, by simp [types], integer⟩
    · exact ⟨.string, by simp [types], string⟩

/-- What passes is the plan itself with no contested path, or a resolved mix. -/
theorem Passed.uncontested_or_mixResolved {plan : StatementPlan} {schema : SchemaProfile}
    {resolver : Resolver} {minimumConfidence : Float} {state after : GateState}
    {write : ResolvedWrite}
    (passed : Passed plan schema resolver minimumConfidence state write after) :
    (write.plan = plan ∧ ∀ path profile, plan.Mentions path →
        schema.field path = some profile → ¬ profile.Contested) ∨
      ∃ path profile value written,
        MixResolved plan schema write.plan path profile value written := by
  cases passed with
  | clear detected =>
      refine .inl ⟨rfl, ?_⟩
      intro path profile mentions profiled contested
      obtain ⟨other, otherProfiled, unambiguous⟩ :=
        (detected_of_eq_ok detected).isClear path mentions
      cases Option.some.inj (profiled.symm.trans otherProfiled)
      exact unambiguous (profile.ambiguous_iff.mpr (.inl contested))
  | resolved operation ambiguity response _ detected operates answered validated applies =>
      obtain ⟨path, profile, ambiguous, rfl, unique⟩ :=
        (detected_of_eq_ok detected).mentionsAmbiguous
      have offered : response.candidate.Offered plan (profile.evidence path) := by
        rw [validateResolverResponse, ite_error_eq_ok_iff, validateResolution_eq_ok_iff] at validated
        exact validated.2.1
      cases candidate : response.candidate with
      | reject =>
          rw [candidate] at applies
          exact applies.elim
      | useNestedPath =>
          rw [candidate] at offered applies
          refine .inl ⟨applies.2.2.2, ?_⟩
          intro other otherProfile mentions profiled contested
          have same := unique other otherProfile
            ⟨mentions, profiled, otherProfile.ambiguous_iff.mpr (.inl contested)⟩
          subst same
          cases Option.some.inj (profiled.symm.trans ambiguous.profiled)
          exact FieldProfile.not_contested_of_ambiguityKinds offered.1 contested
      | keepString =>
          rw [candidate] at offered applies
          obtain ⟨text, eligible⟩ := offered
          obtain ⟨_, _, unchanged⟩ := applies
          exact .inr ⟨path, profile, _, _, mixResolved_of_eligible ambiguous.profiled eligible
            (.inl ⟨unchanged, rfl⟩) (.inr rfl)⟩
      | keepInteger =>
          rw [candidate] at offered applies
          obtain ⟨integer, eligible⟩ := offered
          obtain ⟨_, _, unchanged⟩ := applies
          exact .inr ⟨path, profile, _, _, mixResolved_of_eligible ambiguous.profiled eligible
            (.inl ⟨unchanged, rfl⟩) (.inl rfl)⟩
      | parseIntegerLosslessly =>
          rw [candidate] at offered applies
          obtain ⟨_, _, eligible, _⟩ := offered
          obtain ⟨_, integer, _, _, retagged⟩ := applies
          exact .inr ⟨path, profile, _, .integer integer,
            mixResolved_of_eligible ambiguous.profiled eligible (.inr retagged) (.inl rfl)⟩
      | formatIntegerAsString =>
          rw [candidate] at offered applies
          obtain ⟨_, eligible⟩ := offered
          obtain ⟨integer, _, retagged⟩ := applies
          exact .inr ⟨path, profile, _, .string (Decimal.text integer),
            mixResolved_of_eligible ambiguous.profiled eligible (.inr retagged) (.inr rfl)⟩

/-! ## When no unobserved type is written -/

/-- Every value that a plan assigns has an observed type of its path, or is null. -/
def StatementPlan.AssignsObservedTypes (plan : StatementPlan) (schema : SchemaProfile) : Prop :=
  ∀ cell ∈ plan.assigned, ∃ profile, schema.field cell.1 = some profile ∧
    cell.2.HasObservedType profile

/-- No path that is assigned a value was only ever seen as null. -/
def StatementPlan.AvoidsNullOnly (plan : StatementPlan) (schema : SchemaProfile) : Prop :=
  ∀ cell ∈ plan.assigned, cell.2 ≠ .null → ∃ profile, schema.field cell.1 = some profile ∧
    profile.observedTypes ≠ {.null}

theorem mem_targets_of_mem_assigned {plan : StatementPlan} {cell : FieldPath × SqlValue}
    (membership : cell ∈ plan.assigned) : cell.1 ∈ plan.targets := by
  cases plan with
  | select plan => cases membership
  | delete plan => cases membership
  | insert plan =>
      obtain ⟨row, _, zipped⟩ := List.mem_flatMap.mp membership
      exact (List.of_mem_zip zipped).1
  | update plan =>
      obtain ⟨assignment, assignmentMembership, rfl⟩ := List.mem_map.mp membership
      exact List.mem_map_of_mem assignmentMembership

theorem assignsObservedTypes_iff_of_uncontested {documents : List SampleDocument}
    {plan : StatementPlan} (conforms : plan.Conforms (SchemaProfile.infer documents))
    (bound : plan.IsBound)
    (uncontested : ∀ path profile, plan.Mentions path →
      (SchemaProfile.infer documents).field path = some profile → ¬ profile.Contested) :
    plan.AssignsObservedTypes (SchemaProfile.infer documents) ↔
      plan.AvoidsNullOnly (SchemaProfile.infer documents) := by
  refine forall₂_congr fun cell membership => ?_
  have targeted := mem_targets_of_mem_assigned membership
  obtain ⟨profile, profiled⟩ := Option.isSome_iff_exists.mp (conforms.targets_listed _ targeted)
  simp only [profiled, Option.some.injEq, exists_eq_left']
  by_cases written : cell.2 = .null
  · simp [written, SqlValue.HasObservedType]
  · rw [SqlValue.hasObservedType_iff profiled
      (uncontested _ _ (.inl targeted) profiled) (conforms.assigned_valid cell membership) written
      (bound cell membership)]
    simp [written]

theorem MixResolved.assignsObservedTypes {plan resolved : StatementPlan} {schema : SchemaProfile}
    {path : FieldPath} {profile : FieldProfile} {value written : SqlValue}
    (mix : MixResolved plan schema resolved path profile value written) :
    resolved.AssignsObservedTypes schema ∧ plan.AvoidsNullOnly schema := by
  constructor
  · intro cell membership
    rw [mix.resolves, List.mem_singleton] at membership
    subst membership
    exact ⟨profile, mix.profiled, mix.tagged⟩
  · intro cell membership _
    rw [mix.assigns, List.mem_singleton] at membership
    subst membership
    refine ⟨profile, mix.profiled, ?_⟩
    rw [mix.observedTypes]
    decide

theorem FieldProfile.Describes.ambiguous_iff_of_null {profile : FieldProfile}
    {documents : List SampleDocument} {path : FieldPath}
    (describes : profile.Describes documents path) (onlyNull : profile.observedTypes = {.null}) :
    profile.Ambiguous ↔ profile.hasDottedKeyCollision = true ∨ 0 < profile.missingDocuments := by
  have scalars : profile.observedShapes ⊆ {.scalar} := by
    intro shape membership
    obtain ⟨value, held, rfl⟩ := (describes.mem_observedShapes_iff shape).mp membership
    have null : value.observedType ∈ profile.observedTypes :=
      (describes.mem_observedTypes_iff _).mpr ⟨value, held, rfl⟩
    rw [onlyNull, Finset.mem_singleton] at null
    cases value <;> simp [SampleValue.observedType] at null
    simp [SampleValue.observedShape]
  have few : ¬ 1 < profile.observedShapes.card := by
    have bound := Finset.card_le_card scalars
    rw [Finset.card_singleton] at bound
    omega
  have untyped : ObservedType.nonNull profile.observedTypes = [] :=
    (ObservedType.nonNull_eq_nil_iff describes.nonempty.1).mpr onlyNull
  simp [Ambiguous, untyped, few]

/-- A write that passes assigns observed types exactly when no path that it gives a
value was only ever seen as null.  The type policy skips a field that the ambiguity
policy does not report exactly when the field is null in every document. -/
theorem assignsObservedTypes_iff (documents : List SampleDocument) (plan : StatementPlan)
    (prepared : plan.Prepared (SchemaProfile.infer documents)) (bound : plan.IsBound)
    (resolver : Resolver) (minimumConfidence : Float) (state after : GateState)
    (write : ResolvedWrite)
    (passes : resolveWritePlan plan (SchemaProfile.infer documents) resolver minimumConfidence
      state = (.ok write, after)) :
    (write.plan.AssignsObservedTypes (SchemaProfile.infer documents) ↔
        plan.AvoidsNullOnly (SchemaProfile.infer documents)) ∧
      ∀ path profile, (SchemaProfile.infer documents).field path = some profile →
        ((validateFieldShape path (SchemaProfile.infer documents) = .ok none →
            profile.Ambiguous) ↔
          ¬ (profile.observedTypes = {.null} ∧ profile.hasDottedKeyCollision = false ∧
            profile.missingDocuments = 0)) := by
  constructor
  · rcases (passed_of_resolveWritePlan passes).uncontested_or_mixResolved with
      ⟨unchanged, uncontested⟩ | ⟨path, profile, value, written, mix⟩
    · rw [unchanged]
      exact assignsObservedTypes_iff_of_uncontested prepared.conforms bound uncontested
    · exact iff_of_true mix.assignsObservedTypes.1 mix.assignsObservedTypes.2
  · intro path profile profiled
    have contested : profile.Contested → profile.Ambiguous := fun contested =>
      profile.ambiguous_iff.mpr (.inl contested)
    rw [validateFieldShape_eq_none_iff profiled, or_imp, and_iff_right contested]
    by_cases onlyNull : profile.observedTypes = {.null}
    · have describes := SchemaProfile.describes_of_field_infer profiled
      rw [describes.ambiguous_iff_of_null onlyNull, Nat.pos_iff_ne_zero]
      cases profile.hasDottedKeyCollision <;> simp [onlyNull]
    · simp [onlyNull]

section Example

private def readings : List SampleDocument :=
  [{ fields := [("sensor", .string "door"), ("note", .null)] }]

private def sensorIsDoor : Ast.Expr :=
  .binaryOp (.identifier (.new "sensor")) .eq (.value (.singleQuotedString "door"))

private def setReading (column written : String) : Ast.Statement :=
  .updateWhere "readings"
    [{ target := .columnName [.new column], value := .value (.singleQuotedString written) }]
    sensorIsDoor

private def readingPlan (column written : String) : StatementPlan :=
  .update
    { collection := "readings"
      assignments := [{ path := ⟨[column]⟩, value := .string written }]
      filter := .compare ⟨["sensor"]⟩ .equal (.string "door") }

theorem assignsObservedTypes_sensor :
    (readingPlan "sensor" "gate").AssignsObservedTypes (SchemaProfile.infer readings) := by
  have lowered : lowerStatement (setReading "sensor" "gate") "readings"
      (SchemaProfile.infer readings) = .ok (readingPlan "sensor" "gate") := rfl
  have outcome := assignsObservedTypes_iff readings (readingPlan "sensor" "gate")
    ⟨_, _, _, lowered, .inl rfl⟩ (by simp [StatementPlan.IsBound, readingPlan,
      StatementPlan.assigned]) (fun _ => .error ⟨.dependency, "unavailable"⟩) 0.9 {} {}
    { plan := readingPlan "sensor" "gate", auditContext := none } rfl
  apply outcome.1.mpr
  simp only [StatementPlan.AvoidsNullOnly, readingPlan, StatementPlan.assigned, List.map_cons,
    List.map_nil, List.mem_singleton, forall_eq]
  exact fun _ => ⟨_, rfl, by decide⟩

/-- `note` was only seen as null: `UPDATE readings SET note = 'x'` stores its first string. -/
theorem not_assignsObservedTypes :
    ¬ ∀ (documents : List SampleDocument) (plan : StatementPlan),
      plan.Prepared (SchemaProfile.infer documents) → plan.IsBound →
      ∀ (resolver : Resolver) (minimumConfidence : Float) (state after : GateState)
        (write : ResolvedWrite),
        resolveWritePlan plan (SchemaProfile.infer documents) resolver minimumConfidence state =
          (.ok write, after) →
        write.plan.AssignsObservedTypes (SchemaProfile.infer documents) := by
  intro assigns
  have lowered : lowerStatement (setReading "note" "x") "readings"
      (SchemaProfile.infer readings) = .ok (readingPlan "note" "x") := rfl
  obtain ⟨profile, profiled, typed⟩ := assigns readings (readingPlan "note" "x")
    ⟨_, _, _, lowered, .inl rfl⟩ (by simp [StatementPlan.IsBound, readingPlan,
      StatementPlan.assigned]) (fun _ => .error ⟨.dependency, "unavailable"⟩) 0.9 {} {}
    { plan := readingPlan "note" "x", auditContext := none } rfl (⟨["note"]⟩, .string "x")
    (by simp [readingPlan, StatementPlan.assigned])
  have onlyNull : profile.observedTypes = {.null} := by
    cases profiled
    decide
  rcases typed with null | ⟨observedType, membership, tag⟩
  · cases null
  · cases tag
    rw [onlyNull] at membership
    revert membership
    decide

end Example

end Mongres
