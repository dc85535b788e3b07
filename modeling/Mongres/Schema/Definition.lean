import Mongres.Schema.Infer

/-!
# What a profile is

`IsProfileOf` says what a profile of a sample contains, path by path, without the fold that
computes it.  It leaves no choice: two profiles of the same documents are equal, so inference
does not depend on their order.
-/

namespace Mongres

open Std (TreeMap)

def FieldProfile.Before (first second : FieldProfile) : Prop :=
  compare first.path second.path = .lt

instance : Std.Irrefl FieldProfile.Before where
  irrefl field before := by
    rw [FieldProfile.Before, Std.ReflOrd.compare_self] at before
    cases before

instance : Std.Antisymm FieldProfile.Before where
  antisymm first second before after := by
    rw [FieldProfile.Before, Std.OrientedCmp.gt_of_lt before] at after
    cases after

namespace SchemaProfile

def Holds (document : SampleDocument) (path : FieldPath) (value : SampleValue) : Prop :=
  path.segments ≠ [] ∧ document.valueAt path = some value

/-- The contents of a profile, in terms of the values that the documents hold. -/
structure IsProfileOf (profile : SchemaProfile) (documents : List SampleDocument) : Prop where
  profileVersion_eq : profile.profileVersion = 1
  sampledDocuments_eq : profile.sampledDocuments = documents.length
  increasing : (profile.fields.map FieldProfile.path).Pairwise fun first second =>
    compare first second = .lt
  listed_iff : ∀ path, (∃ field ∈ profile.fields, field.path = path) ↔
    ∃ document ∈ documents, ∃ value, Holds document path value
  presentDocuments_eq : ∀ field ∈ profile.fields, field.presentDocuments =
    documents.countP fun document => (document.valueAt field.path).isSome
  missingDocuments_eq : ∀ field ∈ profile.fields,
    field.presentDocuments + field.missingDocuments = documents.length
  mem_observedTypes_iff : ∀ field ∈ profile.fields, ∀ observedType,
    observedType ∈ field.observedTypes ↔
      ∃ document ∈ documents, ∃ value, Holds document field.path value ∧
        value.observedType = observedType
  mem_observedShapes_iff : ∀ field ∈ profile.fields, ∀ observedShape,
    observedShape ∈ field.observedShapes ↔
      ∃ document ∈ documents, ∃ value, Holds document field.path value ∧
        value.observedShape = observedShape
  collision_iff : ∀ field ∈ profile.fields, field.hasDottedKeyCollision = true ↔
    ∃ other ∈ profile.fields, other.path ≠ field.path ∧
      other.path.displayName = field.path.displayName

/-! ## Inference meets the definition -/

theorem mem_valuesAt_iff {documents : List SampleDocument} {path : FieldPath}
    {value : SampleValue} :
    value ∈ valuesAt documents path ↔
      ∃ document ∈ documents, document.valueAt path = some value :=
  List.mem_filterMap

theorem observed_iff {documents : List SampleDocument} {path : FieldPath} :
    Observed documents path ↔ ∃ document ∈ documents, ∃ value, Holds document path value := by
  constructor
  · rintro ⟨nonempty, someValue⟩
    obtain ⟨value, membership⟩ := List.exists_mem_of_ne_nil _ someValue
    obtain ⟨document, member, held⟩ := mem_valuesAt_iff.mp membership
    exact ⟨document, member, value, nonempty, held⟩
  · rintro ⟨document, member, value, nonempty, held⟩
    exact ⟨nonempty, List.ne_nil_of_mem (mem_valuesAt_iff.mpr ⟨document, member, held⟩)⟩

theorem length_valuesAt (documents : List SampleDocument) (path : FieldPath) :
    (valuesAt documents path).length =
      documents.countP fun document => (document.valueAt path).isSome :=
  List.length_filterMap_eq_countP ..

theorem listed_infer_iff (documents : List SampleDocument) (path : FieldPath) :
    (∃ field ∈ (infer documents).fields, field.path = path) ↔ Observed documents path := by
  rw [← mem_keys_observations_iff, ← map_path_infer, List.mem_map]

theorem isProfileOf_infer (documents : List SampleDocument) :
    (infer documents).IsProfileOf documents := by
  have describes : ∀ field ∈ (infer documents).fields, field.Describes documents field.path :=
    fun _ membership =>
      describes_of_field_infer (field_of_mem (nodup_path_infer documents) membership)
  have values : ∀ field ∈ (infer documents).fields, ∀ holds : SampleValue → Prop,
      (∃ value ∈ valuesAt documents field.path, holds value) ↔
        ∃ document ∈ documents, ∃ value, Holds document field.path value ∧ holds value := by
    intro field membership holds
    have nonempty := (describes field membership).observed.1
    simp only [mem_valuesAt_iff, Holds, nonempty, ne_eq, not_false_eq_true, true_and]
    constructor
    · rintro ⟨value, ⟨document, member, held⟩, property⟩
      exact ⟨document, member, value, held, property⟩
    · rintro ⟨document, member, value, held, property⟩
      exact ⟨value, ⟨document, member, held⟩, property⟩
  exact
    { profileVersion_eq := rfl
      sampledDocuments_eq := rfl
      increasing := by
        rw [map_path_infer]
        exact TreeMap.ordered_keys
      listed_iff := fun path => (listed_infer_iff documents path).trans observed_iff
      presentDocuments_eq := by
        intro field membership
        rw [← length_valuesAt]
        exact (describes field membership).presentDocuments_eq
      missingDocuments_eq := by
        intro field membership
        rw [(describes field membership).presentDocuments_eq,
          (describes field membership).missingDocuments_eq]
        exact Nat.add_sub_cancel' (length_valuesAt_le documents field.path)
      mem_observedTypes_iff := by
        intro field membership observedType
        rw [(describes field membership).mem_observedTypes_iff, values field membership]
      mem_observedShapes_iff := by
        intro field membership observedShape
        rw [(describes field membership).mem_observedShapes_iff, values field membership]
      collision_iff := by
        intro field membership
        rw [(describes field membership).collision_iff]
        constructor
        · rintro ⟨other, different, observed, named⟩
          obtain ⟨listed, listedMembership, rfl⟩ := (listed_infer_iff documents other).mpr observed
          exact ⟨listed, listedMembership, different, named⟩
        · rintro ⟨other, otherMembership, different, named⟩
          have observed := (listed_infer_iff documents other.path).mp ⟨other, otherMembership, rfl⟩
          exact ⟨other.path, different, observed, named⟩ }

/-! ## The definition leaves no choice -/

theorem IsProfileOf.perm {profile : SchemaProfile} {first second : List SampleDocument}
    (isProfile : profile.IsProfileOf first) (reordered : first.Perm second) :
    profile.IsProfileOf second where
  profileVersion_eq := isProfile.profileVersion_eq
  sampledDocuments_eq := isProfile.sampledDocuments_eq.trans reordered.length_eq
  increasing := isProfile.increasing
  listed_iff := by simpa only [reordered.mem_iff] using isProfile.listed_iff
  presentDocuments_eq := by
    intro field membership
    rw [isProfile.presentDocuments_eq field membership, reordered.countP_eq]
  missingDocuments_eq := by
    intro field membership
    rw [isProfile.missingDocuments_eq field membership, reordered.length_eq]
  mem_observedTypes_iff := by
    simpa only [reordered.mem_iff] using isProfile.mem_observedTypes_iff
  mem_observedShapes_iff := by
    simpa only [reordered.mem_iff] using isProfile.mem_observedShapes_iff
  collision_iff := isProfile.collision_iff

section Unique

variable {first second : SchemaProfile} {documents : List SampleDocument}

theorem IsProfileOf.listed_iff_listed (isFirst : first.IsProfileOf documents)
    (isSecond : second.IsProfileOf documents) (path : FieldPath) :
    (∃ field ∈ first.fields, field.path = path) ↔ ∃ field ∈ second.fields, field.path = path := by
  rw [isFirst.listed_iff, isSecond.listed_iff]

theorem IsProfileOf.entry_eq (isFirst : first.IsProfileOf documents)
    (isSecond : second.IsProfileOf documents) {field other : FieldProfile}
    (membership : field ∈ first.fields) (otherMembership : other ∈ second.fields)
    (same : field.path = other.path) : field = other := by
  have present : field.presentDocuments = other.presentDocuments := by
    rw [isFirst.presentDocuments_eq field membership,
      isSecond.presentDocuments_eq other otherMembership, same]
  have missing : field.missingDocuments = other.missingDocuments := by
    have total := isFirst.missingDocuments_eq field membership
    have otherTotal := isSecond.missingDocuments_eq other otherMembership
    omega
  have types : field.observedTypes = other.observedTypes := by
    apply Finset.ext
    intro observedType
    rw [isFirst.mem_observedTypes_iff field membership,
      isSecond.mem_observedTypes_iff other otherMembership, same]
  have shapes : field.observedShapes = other.observedShapes := by
    apply Finset.ext
    intro observedShape
    rw [isFirst.mem_observedShapes_iff field membership,
      isSecond.mem_observedShapes_iff other otherMembership, same]
  have collision : field.hasDottedKeyCollision = other.hasDottedKeyCollision := by
    rw [Bool.eq_iff_iff, isFirst.collision_iff field membership,
      isSecond.collision_iff other otherMembership, same]
    have namesakes (profile : SchemaProfile) :
        (∃ listed ∈ profile.fields, listed.path ≠ other.path ∧
          listed.path.displayName = other.path.displayName) ↔
        ∃ path, (∃ listed ∈ profile.fields, listed.path = path) ∧ path ≠ other.path ∧
          path.displayName = other.path.displayName := by
      constructor
      · rintro ⟨listed, listedMembership, different, named⟩
        exact ⟨listed.path, ⟨listed, listedMembership, rfl⟩, different, named⟩
      · rintro ⟨_, ⟨listed, listedMembership, rfl⟩, different, named⟩
        exact ⟨listed, listedMembership, different, named⟩
    simp only [namesakes, isFirst.listed_iff_listed isSecond]
  obtain ⟨path, presentDocuments, missingDocuments, observedTypes, observedShapes, _⟩ := field
  simp only at same present missing types shapes collision
  rw [same, present, missing, types, shapes, collision]

theorem IsProfileOf.unique (isFirst : first.IsProfileOf documents)
    (isSecond : second.IsProfileOf documents) : first = second := by
  have entries {one two : SchemaProfile} (isOne : one.IsProfileOf documents)
      (isTwo : two.IsProfileOf documents) {field : FieldProfile} (membership : field ∈ one.fields) :
      field ∈ two.fields := by
    obtain ⟨other, otherMembership, same⟩ :=
      (isOne.listed_iff_listed isTwo field.path).mp ⟨field, membership, rfl⟩
    rwa [isOne.entry_eq isTwo membership otherMembership same.symm]
  have ordered {one : SchemaProfile} (isOne : one.IsProfileOf documents) :
      one.fields.Pairwise FieldProfile.Before := by
    have increasing := List.pairwise_map.mp isOne.increasing
    exact increasing
  have fields : first.fields = second.fields :=
    (ordered isFirst).eq_of_mem_iff (ordered isSecond)
      fun field => ⟨entries isFirst isSecond, entries isSecond isFirst⟩
  obtain ⟨version, sampled, _⟩ := first
  have versions := isFirst.profileVersion_eq.trans isSecond.profileVersion_eq.symm
  have sizes := isFirst.sampledDocuments_eq.trans isSecond.sampledDocuments_eq.symm
  simp only at fields versions sizes
  rw [fields, versions, sizes]

end Unique

/-- Inference computes the profile of its sample, and the order of the sample is irrelevant. -/
theorem infer_eq_definition :
    (∀ documents, (infer documents).IsProfileOf documents) ∧
      (∀ documents profile, profile.IsProfileOf documents → profile = infer documents) ∧
      ∀ first second : List SampleDocument, first.Perm second → infer first = infer second := by
  refine ⟨isProfileOf_infer, fun documents profile isProfile => ?_, fun first second reordered => ?_⟩
  · exact isProfile.unique (isProfileOf_infer documents)
  · exact ((isProfileOf_infer first).perm reordered).unique (isProfileOf_infer second)

theorem infer_eq_definition_reversed :
    infer [{ fields := [("part", .null)] }, { fields := [] }] =
      infer [{ fields := [] }, { fields := [("part", .null)] }] :=
  infer_eq_definition.2.2 _ _ (List.Perm.swap _ _ [])

end SchemaProfile

end Mongres
