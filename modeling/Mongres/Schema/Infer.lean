import Mongres.Common
import Mongres.Schema.Sample
import Mathlib.Data.Finset.Image

/-!
# Schema inference

Inference folds the visit of every sampled document into one entry for each
path.  `FieldProfile.Describes` says what an entry means, and every field of an
inferred profile is described by the sample that produced it.
-/

namespace Mongres

open Std (TreeMap)

/-- Inferred information for one field path. -/
structure FieldProfile where
  path : FieldPath
  presentDocuments : Nat
  missingDocuments : Nat
  observedTypes : Finset ObservedType
  observedShapes : Finset ObservedShape
  hasDottedKeyCollision : Bool
  deriving DecidableEq

/-- The versionable schema profile produced from one collection sample. -/
structure SchemaProfile where
  profileVersion : UInt32
  sampledDocuments : Nat
  fields : List FieldProfile
  deriving DecidableEq

structure MutableFieldProfile where
  presentDocuments : Nat := 0
  observedTypes : Finset ObservedType := ∅
  observedShapes : Finset ObservedShape := ∅

namespace MutableFieldProfile

def finish (observation : MutableFieldProfile) (sampled : Nat) (path : FieldPath) :
    FieldProfile where
  path
  presentDocuments := observation.presentDocuments
  missingDocuments := sampled - observation.presentDocuments
  observedTypes := observation.observedTypes
  observedShapes := observation.observedShapes
  hasDottedKeyCollision := false

def observe (entry : MutableFieldProfile) (value : SampleValue) : MutableFieldProfile where
  presentDocuments := entry.presentDocuments + 1
  observedTypes := insert value.observedType entry.observedTypes
  observedShapes := insert value.observedShape entry.observedShapes

theorem foldl_observe (values : List SampleValue) (entry : MutableFieldProfile) :
    values.foldl observe entry =
      { presentDocuments := entry.presentDocuments + values.length
        observedTypes := entry.observedTypes ∪ (values.map SampleValue.observedType).toFinset
        observedShapes := entry.observedShapes ∪ (values.map SampleValue.observedShape).toFinset } := by
  induction values generalizing entry with
  | nil => simp
  | cons value values inductionHypothesis =>
      rw [List.foldl_cons, inductionHypothesis]
      simp only [observe, List.map_cons, List.toFinset_cons, List.length_cons,
        Finset.insert_union, Finset.union_insert, MutableFieldProfile.mk.injEq, and_self, and_true]
      omega

end MutableFieldProfile

abbrev Observations := TreeMap FieldPath MutableFieldProfile

mutual

def observeValue (observations : Observations) (path : FieldPath) : SampleValue → Observations
  | .document document =>
      observeFields (Tally.record .observe {} observations path (.document document)) path document
  | value => Tally.record .observe {} observations path value

def observeFields (observations : Observations) (path : FieldPath) :
    List (String × SampleValue) → Observations
  | [] => observations
  | (field, nestedValue) :: document =>
      observeFields (observeValue observations (path.child field) nestedValue) path document

end

theorem observeFields_eq_foldl (observations : Observations) (path : FieldPath)
    (document : List (String × SampleValue)) :
    observeFields observations path document =
      document.foldl (fun observations entry =>
        observeValue observations (path.child entry.1) entry.2) observations := by
  induction document generalizing observations with
  | nil => rfl
  | cons entry document inductionHypothesis =>
      rw [observeFields, inductionHypothesis, List.foldl_cons]

/-- The error that several crates give for a path that the profile does not list. -/
def absentField (path : FieldPath) : ProxyError :=
  invalidInput s!"field '{path.displayName}' is not present in the active schema profile"

namespace SchemaProfile

/-- The profile for an exact, segment-preserving field path. -/
def field (profile : SchemaProfile) (path : FieldPath) : Option FieldProfile :=
  profile.fields.find? fun field => decide (field.path = path)

def displayNameCounts (fields : List FieldProfile) : TreeMap String Nat :=
  (fields.map fun field => field.path.displayName).foldl
    (fun counts name => counts.alter name fun count => some (count.getD 0 + 1)) ∅

def markDottedKeyCollisions (profile : SchemaProfile) : SchemaProfile :=
  let displayNameCounts := displayNameCounts profile.fields
  { profile with
    fields := profile.fields.map fun field =>
      { field with
        hasDottedKeyCollision :=
          displayNameCounts[field.path.displayName]?.any fun count => count > 1 } }

def observations (documents : List SampleDocument) : Observations :=
  documents.foldl (fun observations document =>
    document.fields.foldl (fun observations entry =>
      observeValue observations (.topLevel entry.1) entry.2) observations) ∅

def infer (documents : List SampleDocument) : SchemaProfile :=
  let fields := (observations documents).toList.map fun (path, observation) =>
    observation.finish documents.length path
  markDottedKeyCollisions { profileVersion := 1, sampledDocuments := documents.length, fields }

end SchemaProfile

/-! ## The fold is a tally of the visits -/

private theorem foldl_observeValue (path : FieldPath) (fields : List (String × SampleValue))
    (each : ∀ entry ∈ fields, ∀ observations path, observeValue observations path entry.2 =
      Tally.recordAll .observe {} observations (SampleValue.occurrences path entry.2))
    (start : Observations) :
    fields.foldl (fun observations entry =>
        observeValue observations (path.child entry.1) entry.2) start =
      Tally.recordAll .observe {} start (SampleValue.occurrencesIn path fields) := by
  induction fields generalizing start with
  | nil => rfl
  | cons entry fields inductionHypothesis =>
      rw [List.foldl_cons, SampleValue.occurrencesIn, Tally.recordAll_append,
        each entry List.mem_cons_self]
      apply inductionHypothesis
      intro other membership
      exact each other (List.mem_cons_of_mem _ membership)

theorem observeValue_eq_recordAll (value : SampleValue) (observations : Observations)
    (path : FieldPath) :
    observeValue observations path value =
      Tally.recordAll .observe {} observations (SampleValue.occurrences path value) := by
  induction value using SampleValue.nestedInduction generalizing observations path with
  | document fields inductionHypothesis =>
      rw [observeValue, observeFields_eq_foldl, SampleValue.occurrences]
      apply foldl_observeValue
      intro entry membership observations path
      exact inductionHypothesis entry membership observations path
  | array values _ => rfl
  | scalar value scalar => cases value <;> first | rfl | simp [SampleValue.observedShape] at scalar

namespace SchemaProfile

theorem observations_eq_recordAll (documents : List SampleDocument) :
    observations documents =
      Tally.recordAll .observe {} ∅ (documents.flatMap SampleDocument.occurrences) := by
  unfold observations
  generalize (∅ : Observations) = start
  induction documents generalizing start with
  | nil => rfl
  | cons document documents inductionHypothesis =>
      rw [List.foldl_cons, List.flatMap_cons, Tally.recordAll_append, inductionHypothesis]
      congr 1
      apply foldl_observeValue ⟨[]⟩
      intro entry _ observations path
      exact observeValue_eq_recordAll entry.2 observations path

def valuesAt (documents : List SampleDocument) (path : FieldPath) : List SampleValue :=
  documents.filterMap fun document => document.valueAt path

theorem length_valuesAt_le (documents : List SampleDocument) (path : FieldPath) :
    (valuesAt documents path).length ≤ documents.length :=
  List.length_filterMap_le ..

private theorem eventsOf_flatMap_occurrences (documents : List SampleDocument) {path : FieldPath}
    (nonempty : path.segments ≠ []) :
    Tally.eventsOf path (documents.flatMap SampleDocument.occurrences) =
      valuesAt documents path := by
  rw [Tally.eventsOf_flatMap]
  simp only [SampleDocument.eventsOf_occurrences _ nonempty]
  induction documents with
  | nil => rfl
  | cons document documents inductionHypothesis =>
      rw [List.flatMap_cons, inductionHypothesis]
      cases held : document.valueAt path <;> simp [valuesAt, held]

def Observed (documents : List SampleDocument) (path : FieldPath) : Prop :=
  path.segments ≠ [] ∧ valuesAt documents path ≠ []

theorem getElem?_observations (documents : List SampleDocument) (path : FieldPath)
    [Decidable (Observed documents path)] :
    (observations documents)[path]? =
      if Observed documents path then
        some { presentDocuments := (valuesAt documents path).length
               observedTypes := ((valuesAt documents path).map SampleValue.observedType).toFinset
               observedShapes := ((valuesAt documents path).map SampleValue.observedShape).toFinset }
      else none := by
  rw [observations_eq_recordAll, Tally.getElem?_recordAll_empty]
  by_cases nonempty : path.segments = []
  · have root : path = ⟨[]⟩ := by
      cases path
      exact congrArg FieldPath.mk nonempty
    have quiet : Tally.eventsOf path (documents.flatMap SampleDocument.occurrences) = [] := by
      rw [root, Tally.eventsOf_flatMap, List.flatMap_eq_nil_iff]
      intro document _
      exact document.eventsOf_occurrences_root
    rw [if_pos quiet, if_neg]
    exact fun observed => observed.1 nonempty
  · rw [eventsOf_flatMap_occurrences documents nonempty, MutableFieldProfile.foldl_observe]
    by_cases silent : valuesAt documents path = []
    · rw [if_pos silent, if_neg]
      exact fun observed => observed.2 silent
    · rw [if_neg silent, if_pos ⟨nonempty, silent⟩]
      simp

end SchemaProfile

/-- What one entry of a profile says about the sample it was inferred from. -/
structure FieldProfile.Describes (profile : FieldProfile) (documents : List SampleDocument)
    (path : FieldPath) : Prop where
  path_eq : profile.path = path
  observed : SchemaProfile.Observed documents path
  presentDocuments_eq : profile.presentDocuments = (SchemaProfile.valuesAt documents path).length
  missingDocuments_eq :
    profile.missingDocuments = documents.length - (SchemaProfile.valuesAt documents path).length
  mem_observedTypes_iff : ∀ observedType, observedType ∈ profile.observedTypes ↔
    ∃ value ∈ SchemaProfile.valuesAt documents path, value.observedType = observedType
  mem_observedShapes_iff : ∀ observedShape, observedShape ∈ profile.observedShapes ↔
    ∃ value ∈ SchemaProfile.valuesAt documents path, value.observedShape = observedShape
  collision_iff : profile.hasDottedKeyCollision = true ↔
    ∃ other, other ≠ path ∧ SchemaProfile.Observed documents other ∧
      other.displayName = path.displayName

theorem FieldProfile.Describes.nonempty {profile : FieldProfile} {documents : List SampleDocument}
    {path : FieldPath} (describes : profile.Describes documents path) :
    profile.observedTypes.Nonempty ∧ profile.observedShapes.Nonempty := by
  obtain ⟨value, membership⟩ := List.exists_mem_of_ne_nil _ describes.observed.2
  exact ⟨⟨_, (describes.mem_observedTypes_iff _).mpr ⟨value, membership, rfl⟩⟩,
    ⟨_, (describes.mem_observedShapes_iff _).mpr ⟨value, membership, rfl⟩⟩⟩

namespace SchemaProfile

private theorem getElem?_displayNameCounts_any (fields : List FieldProfile) (name : String) :
    ((displayNameCounts fields)[name]?.any fun count => count > 1) = true ↔
      1 < (fields.map fun field => field.path.displayName).count name := by
  have tally : displayNameCounts fields = Tally.recordAll (fun count () => count + 1) 0 ∅
      ((fields.map fun field => field.path.displayName).map fun name => (name, ())) := by
    rw [Tally.recordAll, List.foldl_map]
    rfl
  have events : ∀ names : List String,
      (Tally.eventsOf name (names.map fun name => (name, ()))).length = names.count name := by
    intro names
    induction names with
    | nil => rfl
    | cons first names inductionHypothesis =>
        rw [List.map_cons, Tally.eventsOf_cons, List.count_cons, ← inductionHypothesis]
        by_cases same : first = name <;> simp [same]
  have total : ∀ (units : List Unit) (start : Nat),
      units.foldl (fun count () => count + 1) start = start + units.length := by
    intro units
    induction units with
    | nil => simp
    | cons _ units inductionHypothesis =>
        intro start
        rw [List.foldl_cons, inductionHypothesis, List.length_cons]
        omega
  rw [tally, Tally.getElem?_recordAll_empty, ← events]
  split
  · rename_i quiet
    rw [quiet]
    simp
  · simp [total]

/-- Among distinct paths, a display name repeats when two paths share it. -/
private theorem one_lt_count_displayName_iff {paths : List FieldPath} (distinct : paths.Nodup)
    {path : FieldPath} (listed : path ∈ paths) :
    1 < (paths.map FieldPath.displayName).count path.displayName ↔
      ∃ other ∈ paths, other ≠ path ∧ other.displayName = path.displayName := by
  have reordered := ((List.perm_cons_erase listed).map FieldPath.displayName).count_eq
    path.displayName
  rw [reordered, List.map_cons, List.count_cons_self, Nat.lt_add_left_iff_pos, List.count_pos_iff,
    List.mem_map]
  apply exists_congr
  intro other
  rw [distinct.mem_erase_iff]
  tauto

private theorem field_markDottedKeyCollisions (profile : SchemaProfile) (path : FieldPath) :
    (markDottedKeyCollisions profile).field path =
      (profile.field path).map fun field =>
        { field with
          hasDottedKeyCollision :=
            (displayNameCounts profile.fields)[field.path.displayName]?.any fun count =>
              count > 1 } := by
  simp [field, markDottedKeyCollisions, List.find?_map]

private theorem find?_finish (documents : List SampleDocument) (path : FieldPath) :
    (((observations documents).toList.map fun entry => entry.2.finish documents.length entry.1).find?
        fun field => decide (field.path = path)) =
      (observations documents)[path]?.map fun observation =>
        observation.finish documents.length path := by
  rw [List.find?_map]
  change Option.map _ ((observations documents).toList.find? fun entry =>
    decide (entry.1 = path)) = _
  rw [Tally.find?_toList, Option.map_map]
  rfl

private theorem map_path_finish (documents : List SampleDocument) :
    ((observations documents).toList.map fun entry =>
        entry.2.finish documents.length entry.1).map FieldProfile.path =
      (observations documents).keys := by
  rw [List.map_map, ← TreeMap.map_fst_toList_eq_keys]
  rfl

theorem mem_keys_observations_iff (documents : List SampleDocument) (path : FieldPath) :
    path ∈ (observations documents).keys ↔ Observed documents path := by
  classical
  rw [TreeMap.mem_keys, ← TreeMap.isSome_getElem?_iff_mem, getElem?_observations]
  by_cases observed : Observed documents path <;> simp [observed]

/-- An inferred profile lists exactly the observed paths. -/
theorem isSome_field_infer_iff (documents : List SampleDocument) (path : FieldPath) :
    ((infer documents).field path).isSome ↔ Observed documents path := by
  rw [← mem_keys_observations_iff, TreeMap.mem_keys, ← TreeMap.isSome_getElem?_iff_mem, infer,
    field_markDottedKeyCollisions, Option.isSome_map, field, find?_finish, Option.isSome_map]

/-- Every field of an inferred profile summarises the sample at its path. -/
theorem describes_of_field_infer {documents : List SampleDocument} {path : FieldPath}
    {profile : FieldProfile} (found : (infer documents).field path = some profile) :
    profile.Describes documents path := by
  classical
  have observed : Observed documents path :=
    (isSome_field_infer_iff documents path).mp (by simp [found])
  rw [infer, field_markDottedKeyCollisions, field, find?_finish, getElem?_observations,
    if_pos observed, Option.map_some, Option.map_some, Option.some.injEq] at found
  subst found
  have collision := getElem?_displayNameCounts_any
    ((observations documents).toList.map fun entry => entry.2.finish documents.length entry.1)
    path.displayName
  have names : ∀ fields : List FieldProfile,
      (fields.map fun field => field.path.displayName) =
        (fields.map FieldProfile.path).map FieldPath.displayName := by
    intro fields
    rw [List.map_map]
    rfl
  rw [names, map_path_finish, one_lt_count_displayName_iff TreeMap.nodup_keys
    ((mem_keys_observations_iff documents path).mpr observed)] at collision
  exact
    { path_eq := rfl
      observed
      presentDocuments_eq := rfl
      missingDocuments_eq := rfl
      mem_observedTypes_iff := by simp [MutableFieldProfile.finish]
      mem_observedShapes_iff := by simp [MutableFieldProfile.finish]
      collision_iff := by
        simp only [mem_keys_observations_iff] at collision
        exact collision.trans (exists_congr fun other => by tauto) }

theorem map_path_infer (documents : List SampleDocument) :
    (infer documents).fields.map FieldProfile.path = (observations documents).keys := by
  rw [← map_path_finish, infer, markDottedKeyCollisions, List.map_map]
  rfl

theorem nodup_path_infer (documents : List SampleDocument) :
    ((infer documents).fields.map FieldProfile.path).Nodup := by
  rw [map_path_infer]
  exact TreeMap.nodup_keys

theorem field_of_mem {profile : SchemaProfile} (distinct : (profile.fields.map FieldProfile.path).Nodup)
    {field : FieldProfile} (membership : field ∈ profile.fields) :
    profile.field field.path = some field := by
  have present : (profile.field field.path).isSome :=
    List.find?_isSome.mpr ⟨field, membership, decide_eq_true rfl⟩
  obtain ⟨other, found⟩ := Option.isSome_iff_exists.mp present
  have same : other.path = field.path := by simpa using List.find?_some found
  rw [found, List.inj_on_of_nodup_map distinct (List.mem_of_find?_eq_some found) membership same]

end SchemaProfile

end Mongres
