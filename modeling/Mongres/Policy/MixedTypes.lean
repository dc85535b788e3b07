import Mongres.Policy.Ambiguity
import Mongres.Schema.FromBson

/-!
# Detection of mixed types

The evidence of a field passes through the sample model, which has one string type
for twelve BSON types.  A mix of these types alone leaves no trace.
-/

namespace Mongres

def ElementType.observedType : ElementType → ObservedType
  | .null => .null
  | .boolean => .boolean
  | .integer => .integer
  | .double => .floatingPoint
  | .dateTime => .dateTime
  | .objectId => .objectId
  | .document => .document
  | .array => .array
  | _ => .string

def ElementType.sampledAsString : List ElementType :=
  [.string, .regularExpression, .javaScriptCode, .javaScriptCodeWithScope, .timestamp, .binary,
    .symbol, .decimal128, .undefined, .maxKey, .minKey, .dbPointer]

theorem ElementType.observedType_eq_string_iff (elementType : ElementType) :
    elementType.observedType = .string ↔ elementType ∈ sampledAsString := by
  cases elementType <;> decide

theorem ElementType.observedType_eq_null_iff (elementType : ElementType) :
    elementType.observedType = .null ↔ elementType = .null := by
  cases elementType <;> decide

def ElementType.sampledAsThemselves : List ElementType :=
  [.null, .boolean, .integer, .double, .dateTime, .objectId, .document, .array]

theorem ElementType.eq_of_observedType {first second : ElementType}
    (same : first.observedType = second.observedType)
    (distinguished : first.observedType ≠ .string) : first = second := by
  have listed : ∀ elementType : ElementType, elementType.observedType ≠ .string →
      elementType ∈ sampledAsThemselves := by
    intro elementType
    cases elementType <;> decide
  have distinct : (sampledAsThemselves.map ElementType.observedType).Nodup := by decide
  exact List.inj_on_of_nodup_map distinct (listed first distinguished)
    (listed second (same ▸ distinguished)) same

theorem observedType_sampleValueFromBson (text : Bson → String) (value : Bson) :
    (sampleValueFromBson text value).observedType = value.elementType.observedType := by
  cases value <;> rfl

theorem observedShape_sampleValueFromBson (text : Bson → String) (value : Bson) :
    (sampleValueFromBson text value).observedShape ≠ .scalar →
      value.elementType ≠ .null ∧ value.elementType ∉ ElementType.sampledAsString := by
  cases value <;> simp [sampleValueFromBson, SampleValue.observedShape, Bson.elementType,
    ElementType.sampledAsString]

/-! ## Stored values and their evidence -/

def storedValuesAt (documents : List StoredDocument) (path : FieldPath) : List Bson :=
  documents.filterMap (StoredDocument.valueAt path.segments)

def profileOf (text : Bson → String) (documents : List StoredDocument) : SchemaProfile :=
  SchemaProfile.infer (documents.map (sampleDocumentFromBson text))

theorem valuesAt_sampleDocuments (text : Bson → String) (documents : List StoredDocument)
    (path : FieldPath) :
    SchemaProfile.valuesAt (documents.map (sampleDocumentFromBson text)) path =
      (storedValuesAt documents path).map (sampleValueFromBson text) := by
  rw [SchemaProfile.valuesAt, storedValuesAt, List.filterMap_map, List.map_filterMap]
  exact List.filterMap_congr fun document _ => valueAt_sampleDocumentFromBson text document path

def Bson.IsDistinguished (value : Bson) : Prop :=
  value.elementType ≠ .null ∧ value.elementType ∉ ElementType.sampledAsString

instance (value : Bson) : Decidable value.IsDistinguished :=
  inferInstanceAs (Decidable (_ ∧ _))

/-- Two values of different types, neither of them null. -/
def HoldsMixedTypes (documents : List StoredDocument) (path : FieldPath) : Prop :=
  ∃ first ∈ documents, ∃ second ∈ documents, ∃ value other,
    first.valueAt path.segments = some value ∧ second.valueAt path.segments = some other ∧
      value.elementType ≠ .null ∧ other.elementType ≠ .null ∧
      value.elementType ≠ other.elementType

theorem one_lt_length_iff {α : Type} {members : List α} (distinct : members.Nodup) :
    1 < members.length ↔ ∃ first ∈ members, ∃ second ∈ members, first ≠ second := by
  match members with
  | [] => simp
  | [only] => simp
  | first :: second :: others =>
      refine iff_of_true (by simp) ⟨first, by simp, second, by simp, ?_⟩
      rintro rfl
      simp at distinct

/-! ## What makes a path ambiguous -/

section Evidence

variable {text : Bson → String} {documents : List StoredDocument} {path : FieldPath}
  {profile : FieldProfile}

theorem mem_observedTypes_iff (found : (profileOf text documents).field path = some profile)
    (observedType : ObservedType) :
    observedType ∈ profile.observedTypes ↔
      ∃ value ∈ storedValuesAt documents path, value.elementType.observedType = observedType := by
  have describes := SchemaProfile.describes_of_field_infer found
  rw [describes.mem_observedTypes_iff, valuesAt_sampleDocuments]
  simp [observedType_sampleValueFromBson]

/-- Several types are observed only where one value has a type of its own. -/
theorem exists_distinguished_of_types (found : (profileOf text documents).field path = some profile)
    (several : 1 < (ObservedType.nonNull profile.observedTypes).length) :
    ∃ value ∈ storedValuesAt documents path, value.IsDistinguished := by
  obtain ⟨first, firstMembership, second, secondMembership, different⟩ :=
    (one_lt_length_iff (ObservedType.nodup_nonNull _)).mp several
  have held : ∀ observedType ∈ ObservedType.nonNull profile.observedTypes, observedType ≠ .string →
      ∃ value ∈ storedValuesAt documents path, value.IsDistinguished := by
    intro observedType membership named
    obtain ⟨observed, notNull⟩ := ObservedType.mem_nonNull_iff.mp membership
    obtain ⟨value, valueMembership, rfl⟩ := (mem_observedTypes_iff found observedType).mp observed
    exact ⟨value, valueMembership, (ElementType.observedType_eq_null_iff _).not.mp notNull,
      (ElementType.observedType_eq_string_iff _).not.mp named⟩
  by_cases string : first = .string
  · exact held second secondMembership (fun other => different (string.trans other.symm))
  · exact held first firstMembership string

theorem exists_distinguished_of_shapes (found : (profileOf text documents).field path = some profile)
    (several : 1 < profile.observedShapes.card) :
    ∃ value ∈ storedValuesAt documents path, value.IsDistinguished := by
  have describes := SchemaProfile.describes_of_field_infer found
  obtain ⟨first, firstMembership, second, secondMembership, different⟩ :=
    Finset.one_lt_card.mp several
  have held : ∀ shape ∈ profile.observedShapes, shape ≠ .scalar →
      ∃ value ∈ storedValuesAt documents path, value.IsDistinguished := by
    intro shape membership container
    rw [describes.mem_observedShapes_iff, valuesAt_sampleDocuments] at membership
    obtain ⟨sampled, sampledMembership, rfl⟩ := membership
    obtain ⟨value, valueMembership, rfl⟩ := List.mem_map.mp sampledMembership
    exact ⟨value, valueMembership, observedShape_sampleValueFromBson text value container⟩
  by_cases scalar : first = .scalar
  · exact held second secondMembership (fun other => different (scalar.trans other.symm))
  · exact held first firstMembership scalar

theorem one_lt_length_of_distinguished
    (found : (profileOf text documents).field path = some profile)
    (mixed : HoldsMixedTypes documents path) {value : Bson}
    (membership : value ∈ storedValuesAt documents path) (distinguished : value.IsDistinguished) :
    1 < (ObservedType.nonNull profile.observedTypes).length := by
  have observed : ∀ held ∈ storedValuesAt documents path, held.elementType ≠ .null →
      held.elementType.observedType ∈ ObservedType.nonNull profile.observedTypes := by
    intro held heldMembership notNull
    exact ObservedType.mem_nonNull_iff.mpr
      ⟨(mem_observedTypes_iff found _).mpr ⟨held, heldMembership, rfl⟩,
        (ElementType.observedType_eq_null_iff _).not.mpr notNull⟩
  obtain ⟨first, firstMembership, second, secondMembership, one, two, holdsOne, holdsTwo,
    oneNotNull, twoNotNull, different⟩ := mixed
  have oneMembership : one ∈ storedValuesAt documents path :=
    List.mem_filterMap.mpr ⟨first, firstMembership, holdsOne⟩
  have twoMembership : two ∈ storedValuesAt documents path :=
    List.mem_filterMap.mpr ⟨second, secondMembership, holdsTwo⟩
  have named := (ElementType.observedType_eq_string_iff value.elementType).not.mpr distinguished.2
  -- one of the two types differs from the distinguished one, or both would be equal to it
  obtain ⟨other, otherMembership, otherNotNull, unlike⟩ :
      ∃ other ∈ storedValuesAt documents path, other.elementType ≠ .null ∧
        other.elementType.observedType ≠ value.elementType.observedType := by
    by_cases same : one.elementType.observedType = value.elementType.observedType
    · refine ⟨two, twoMembership, twoNotNull, ?_⟩
      intro otherSame
      have equal := ElementType.eq_of_observedType same.symm named
      have otherEqual := ElementType.eq_of_observedType otherSame.symm named
      exact different (equal.symm.trans otherEqual)
    · exact ⟨one, oneMembership, oneNotNull, same⟩
  apply (one_lt_length_iff (ObservedType.nodup_nonNull _)).mpr
  exact ⟨_, observed other otherMembership otherNotNull, _,
    observed value membership distinguished.1, unlike⟩

theorem missingDocuments_pos_iff (found : (profileOf text documents).field path = some profile) :
    0 < profile.missingDocuments ↔
      ∃ document ∈ documents, document.valueAt path.segments = none := by
  have missing := (SchemaProfile.describes_of_field_infer found).missingDocuments_eq
  rw [valuesAt_sampleDocuments, List.length_map, List.length_map] at missing
  have bound : (storedValuesAt documents path).length ≤ documents.length :=
    List.length_filterMap_le _ _
  have complete : (storedValuesAt documents path).length = documents.length ↔
      ∀ document ∈ documents, (document.valueAt path.segments).isSome :=
    List.filterMap_length_eq_length
  constructor
  · intro positive
    by_contra every
    have full : ∀ document ∈ documents, (document.valueAt path.segments).isSome := by
      intro document membership
      rw [Option.isSome_iff_ne_none]
      exact fun absent => every ⟨document, membership, absent⟩
    have lengths := complete.mpr full
    omega
  · rintro ⟨document, membership, absent⟩
    have incomplete : (storedValuesAt documents path).length ≠ documents.length := by
      intro lengths
      have present := complete.mp lengths document membership
      simp [absent] at present
    omega

theorem observed_sampleDocuments_iff (other : FieldPath) :
    SchemaProfile.Observed (documents.map (sampleDocumentFromBson text)) other ↔
      other.segments ≠ [] ∧ storedValuesAt documents other ≠ [] := by
  rw [SchemaProfile.Observed, valuesAt_sampleDocuments]
  simp

end Evidence

/-! ## When a mix of types is reported -/

/-- Detection succeeds and returns an ambiguity for a path. -/
def StatementPlan.Reports (plan : StatementPlan) (schema : SchemaProfile) (path : FieldPath) :
    Prop :=
  ∃ ambiguities, detectWriteAmbiguities plan schema = .ok ambiguities ∧
    ∃ ambiguity ∈ ambiguities, ambiguity.fieldPath = path

theorem StatementPlan.reports_iff {plan : StatementPlan} {schema : SchemaProfile}
    {path : FieldPath} {profile : FieldProfile} (isWrite : plan.isWrite = true)
    (mentions : plan.Mentions path)
    (listed : ∀ other, plan.Mentions other → (schema.field other).isSome)
    (found : schema.field path = some profile) :
    plan.Reports schema path ↔ profile.Ambiguous := by
  constructor
  · rintro ⟨ambiguities, detected, ambiguity, membership, same⟩
    obtain ⟨reported, reportedProfile, _, profiled, ambiguous, evidence⟩ :=
      ((detected_of_eq_ok detected).mem_iff ambiguity).mp membership
    have paths : reported = path := by
      rw [evidence] at same
      exact same
    rw [paths] at profiled
    cases Option.some.inj (profiled.symm.trans found)
    exact ambiguous
  · intro ambiguous
    obtain ⟨ambiguities, detected⟩ := exists_detectWriteAmbiguities isWrite listed
    refine ⟨ambiguities, detected, profile.evidence path, ?_, rfl⟩
    exact ((detected_of_eq_ok detected).mem_iff _).mpr
      ⟨path, profile, mentions, found, ambiguous, rfl⟩

/-- A mix of types is reported exactly when some document lacks the path, some value
at it is not sampled as a string, or another sampled path has the same display name. -/
theorem reports_mixedTypes_iff (text : Bson → String) (documents : List StoredDocument)
    (path : FieldPath) (plan : StatementPlan) (isWrite : plan.isWrite = true)
    (mentions : plan.Mentions path)
    (listed : ∀ other, plan.Mentions other → ((profileOf text documents).field other).isSome)
    (mixed : HoldsMixedTypes documents path) :
    plan.Reports (profileOf text documents) path ↔
      (∃ document ∈ documents, document.valueAt path.segments = none) ∨
      (∃ value ∈ storedValuesAt documents path, value.IsDistinguished) ∨
      ∃ other, other ≠ path ∧ (other.segments ≠ [] ∧ storedValuesAt documents other ≠ []) ∧
        other.displayName = path.displayName := by
  obtain ⟨profile, found⟩ := Option.isSome_iff_exists.mp (listed path mentions)
  have collision := (SchemaProfile.describes_of_field_infer found).collision_iff
  simp only [observed_sampleDocuments_iff] at collision
  rw [StatementPlan.reports_iff isWrite mentions listed found, ← missingDocuments_pos_iff found,
    ← collision]
  constructor
  · rintro (types | shapes | collides | missing)
    · exact .inr (.inl (exists_distinguished_of_types found types))
    · exact .inr (.inl (exists_distinguished_of_shapes found shapes))
    · exact .inr (.inr collides)
    · exact .inl missing
  · rintro (missing | ⟨value, membership, distinguished⟩ | collides)
    · exact .inr (.inr (.inr missing))
    · exact .inl (one_lt_length_of_distinguished found mixed membership distinguished)
    · exact .inr (.inr (.inl collides))

section Example

private def setCode : StatementPlan :=
  .update
    { collection := "parts"
      assignments := [{ path := ⟨["code"]⟩, value := .string "a1" }]
      filter := .compare ⟨["code"]⟩ .equal (.string "a0") }

private def numbered : List StoredDocument :=
  [{ fields := [("code", .string "a0")] }, { fields := [("code", .int32 7)] }]

/-- Two documents of which one holds a symbol where the other holds a string. -/
private def symbolic : List StoredDocument :=
  [{ fields := [("code", .string "a0")] }, { fields := [("code", .symbol "a0")] }]

private theorem mentions_setCode (path : FieldPath) : setCode.Mentions path ↔ path = ⟨["code"]⟩ := by
  simp [setCode, StatementPlan.Mentions, StatementPlan.targets, StatementPlan.conditions,
    StatementPlan.filter?, Predicate.conditions, Condition.path, eq_comm]

theorem reports_numbered : setCode.Reports (profileOf (fun _ => "") numbered) ⟨["code"]⟩ := by
  refine (reports_mixedTypes_iff (fun _ => "") numbered ⟨["code"]⟩ setCode rfl
    ((mentions_setCode _).mpr rfl) ?_ ?_).mpr (.inr (.inl ⟨.int32 7, ?_, by decide⟩))
  · intro other mentions
    rw [(mentions_setCode other).mp mentions]
    rfl
  · exact ⟨_, List.mem_cons_self, _, List.mem_cons_of_mem _ List.mem_cons_self, .string "a0",
      .int32 7, rfl, rfl, by decide, by decide, by decide⟩
  · exact List.mem_cons_of_mem _ List.mem_cons_self

/-- A string and a symbol are sampled as two strings, and nothing is reported. -/
theorem not_reports_symbolic :
    ¬ ∀ (text : Bson → String) (documents : List StoredDocument) (path : FieldPath)
      (plan : StatementPlan), plan.isWrite = true → plan.Mentions path →
      (∀ other, plan.Mentions other → ((profileOf text documents).field other).isSome) →
      HoldsMixedTypes documents path → plan.Reports (profileOf text documents) path := by
  intro reports
  have reported := reports (fun _ => "") symbolic ⟨["code"]⟩ setCode rfl
    ((mentions_setCode _).mpr rfl)
    (by
      intro other mentions
      rw [(mentions_setCode other).mp mentions]
      rfl)
    ⟨_, List.mem_cons_self, _, List.mem_cons_of_mem _ List.mem_cons_self, .string "a0",
      .symbol "a0", rfl, rfl, by decide, by decide, by decide⟩
  obtain ⟨ambiguities, detected, ambiguity, membership, _⟩ := reported
  have none : detectWriteAmbiguities setCode (profileOf (fun _ => "") symbolic) = .ok [] := rfl
  cases Except.ok.inj (none.symm.trans detected)
  cases membership

end Example

end Mongres
