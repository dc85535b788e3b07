import Mongres.Sql.Lowering
import Mathlib.Data.List.ReduceOption
import Std.Data.TreeSet.Lemmas

/-!
# Detection of write ambiguities

Detection inspects every path that a write mentions, in a column list, an
assignment or a filter at any depth, and reports those whose evidence is not
clear.
-/

namespace Mongres

open Fallible
open Std (TreeSet)

inductive WriteOperation where
  | insert
  | update
  | delete
  deriving DecidableEq, Repr

/-- Why evidence is insufficient to execute a write without a policy decision. -/
inductive AmbiguityKind where
  | mixedBsonTypes
  | mixedShapes
  | dottedPathCollision
  | missingFromSampledDocuments
  deriving DecidableEq, Repr

structure WriteAmbiguity where
  fieldPath : FieldPath
  kinds : Finset AmbiguityKind
  observedTypes : Finset ObservedType
  observedShapes : Finset ObservedShape
  missingDocuments : Nat
  deriving DecidableEq

mutual

def collectPredicatePaths : Predicate → TreeSet FieldPath → TreeSet FieldPath
  | .compare path _ _, paths | .inList path _ _, paths | .isNull path _, paths => paths.insert path
  | .and predicates, paths | .or predicates, paths => collectPredicatesPaths predicates paths

def collectPredicatesPaths : List Predicate → TreeSet FieldPath → TreeSet FieldPath
  | [], paths => paths
  | predicate :: predicates, paths =>
      collectPredicatesPaths predicates (collectPredicatePaths predicate paths)

end

def ambiguityKinds (profile : FieldProfile) : Finset AmbiguityKind :=
  let nonNullTypeCount := (ObservedType.nonNull profile.observedTypes).length
  let kinds : Finset AmbiguityKind := ∅
  let kinds := if nonNullTypeCount > 1 then insert .mixedBsonTypes kinds else kinds
  let kinds := if profile.observedShapes.card > 1 then insert .mixedShapes kinds else kinds
  let kinds := if profile.hasDottedKeyCollision then insert .dottedPathCollision kinds else kinds
  if profile.missingDocuments > 0 then insert .missingFromSampledDocuments kinds else kinds

def FieldProfile.evidence (profile : FieldProfile) (path : FieldPath) : WriteAmbiguity where
  fieldPath := path
  kinds := ambiguityKinds profile
  observedTypes := profile.observedTypes
  observedShapes := profile.observedShapes
  missingDocuments := profile.missingDocuments

def ambiguityForPath (schema : SchemaProfile) (path : FieldPath) :
    Result (Option WriteAmbiguity) := do
  let profile ← okOr (schema.field path) (absentField path)
  .ok (if ambiguityKinds profile = ∅ then none else some (profile.evidence path))

/-- The paths a write mentions, or an error for a read plan. -/
def writePaths : StatementPlan → Result (TreeSet FieldPath)
  | .insert insert => .ok (TreeSet.insertMany ∅ insert.columns)
  | .update update =>
      .ok (collectPredicatePaths update.filter
        (TreeSet.insertMany ∅ (update.assignments.map AssignmentPlan.path)))
  | .delete delete => .ok (collectPredicatePaths delete.filter ∅)
  | .select _ => .error (invalidInput
      "write ambiguity detection requires an INSERT, UPDATE, or DELETE plan")

/-- Finds every field whose evidence makes a write unsafe to execute directly. -/
def detectWriteAmbiguities (plan : StatementPlan) (schema : SchemaProfile) :
    Result (List WriteAmbiguity) := do
  let paths ← writePaths plan
  (collect (ambiguityForPath schema) paths.toList).map List.reduceOption

/-! ## What detection reports -/

/-- An entry that policy must review. -/
def FieldProfile.Ambiguous (profile : FieldProfile) : Prop :=
  1 < (ObservedType.nonNull profile.observedTypes).length ∨ 1 < profile.observedShapes.card ∨
    profile.hasDottedKeyCollision = true ∨ 0 < profile.missingDocuments

/-- A kind is reported exactly when the entry meets its condition. -/
def AmbiguityKind.Met (profile : FieldProfile) : AmbiguityKind → Prop
  | .mixedBsonTypes => 1 < (ObservedType.nonNull profile.observedTypes).length
  | .mixedShapes => 1 < profile.observedShapes.card
  | .dottedPathCollision => profile.hasDottedKeyCollision = true
  | .missingFromSampledDocuments => 0 < profile.missingDocuments

theorem mem_ambiguityKinds_iff (profile : FieldProfile) (kind : AmbiguityKind) :
    kind ∈ ambiguityKinds profile ↔ kind.Met profile := by
  unfold ambiguityKinds
  cases kind <;> simp only [AmbiguityKind.Met] <;> split_ifs <;> simp_all

theorem ambiguityKinds_ne_empty_iff (profile : FieldProfile) :
    ambiguityKinds profile ≠ ∅ ↔ profile.Ambiguous := by
  rw [← Finset.nonempty_iff_ne_empty]
  constructor
  · rintro ⟨kind, membership⟩
    have met := (mem_ambiguityKinds_iff profile kind).mp membership
    cases kind with
    | mixedBsonTypes => exact .inl met
    | mixedShapes => exact .inr (.inl met)
    | dottedPathCollision => exact .inr (.inr (.inl met))
    | missingFromSampledDocuments => exact .inr (.inr (.inr met))
  · rintro (met | met | met | met)
    · exact ⟨.mixedBsonTypes, (mem_ambiguityKinds_iff profile _).mpr met⟩
    · exact ⟨.mixedShapes, (mem_ambiguityKinds_iff profile _).mpr met⟩
    · exact ⟨.dottedPathCollision, (mem_ambiguityKinds_iff profile _).mpr met⟩
    · exact ⟨.missingFromSampledDocuments, (mem_ambiguityKinds_iff profile _).mpr met⟩

theorem ambiguityForPath_eq_ok_iff {schema : SchemaProfile} {path : FieldPath}
    {found : Option WriteAmbiguity} :
    ambiguityForPath schema path = .ok found ↔
      ∃ profile, schema.field path = some profile ∧
        found = if ambiguityKinds profile = ∅ then none else some (profile.evidence path) := by
  rw [ambiguityForPath, bind_eq_ok_iff]
  simp [@eq_comm _ found]

namespace StatementPlan

def Mentions (plan : StatementPlan) (path : FieldPath) : Prop :=
  path ∈ plan.targets ∨ ∃ condition ∈ plan.conditions, condition.path = path

end StatementPlan

theorem mem_insertMany_iff (columns : List FieldPath) (paths : TreeSet FieldPath)
    (path : FieldPath) : path ∈ paths.insertMany columns ↔ path ∈ paths ∨ path ∈ columns := by
  rw [TreeSet.mem_insertMany_list, List.contains_iff_mem]

theorem mem_collectPredicatePaths_iff (predicate : Predicate) (paths : TreeSet FieldPath)
    (path : FieldPath) :
    path ∈ collectPredicatePaths predicate paths ↔
      path ∈ paths ∨ ∃ condition ∈ predicate.conditions, condition.path = path := by
  have lists : ∀ predicates : List Predicate,
      (∀ predicate ∈ predicates, ∀ paths, path ∈ collectPredicatePaths predicate paths ↔
        path ∈ paths ∨ ∃ condition ∈ predicate.conditions, condition.path = path) →
      ∀ paths, path ∈ collectPredicatesPaths predicates paths ↔
        path ∈ paths ∨ ∃ condition ∈ Predicate.conditionsOf predicates, condition.path = path := by
    intro predicates each
    induction predicates with
    | nil => simp [collectPredicatesPaths, Predicate.conditionsOf]
    | cons predicate predicates inductionHypothesis =>
        intro paths
        rw [List.forall_mem_cons] at each
        rw [collectPredicatesPaths, inductionHypothesis each.2, each.1, Predicate.conditionsOf,
          or_assoc]
        simp only [List.mem_append, or_and_right, exists_or]
  induction predicate using Predicate.listInduction generalizing paths with
  | compare other operator value =>
      simp [collectPredicatePaths, Predicate.conditions, Condition.path, or_comm]
  | inList other values negated =>
      simp [collectPredicatePaths, Predicate.conditions, Condition.path, or_comm]
  | isNull other negated =>
      simp [collectPredicatePaths, Predicate.conditions, Condition.path, or_comm]
  | and predicates inductionHypothesis => exact lists predicates inductionHypothesis paths
  | or predicates inductionHypothesis => exact lists predicates inductionHypothesis paths

theorem writePaths_eq_ok_iff {plan : StatementPlan} :
    (∃ paths, writePaths plan = .ok paths) ↔ plan.isWrite = true := by
  cases plan <;> simp [writePaths, StatementPlan.isWrite]

theorem mem_writePaths_iff {plan : StatementPlan} {paths : TreeSet FieldPath}
    (collected : writePaths plan = .ok paths) (path : FieldPath) :
    path ∈ paths ↔ plan.Mentions path := by
  cases plan with
  | select plan => cases collected
  | insert plan =>
      cases collected
      rw [mem_insertMany_iff]
      simp [StatementPlan.Mentions, StatementPlan.targets, StatementPlan.conditions,
        StatementPlan.filter?]
  | update plan =>
      cases collected
      rw [mem_collectPredicatePaths_iff, mem_insertMany_iff]
      simp [StatementPlan.Mentions, StatementPlan.targets, StatementPlan.conditions,
        StatementPlan.filter?]
  | delete plan =>
      cases collected
      rw [mem_collectPredicatePaths_iff]
      simp [StatementPlan.Mentions, StatementPlan.targets, StatementPlan.conditions,
        StatementPlan.filter?]

/-- What a successful detection says about a plan and its profile. -/
structure Detected (plan : StatementPlan) (schema : SchemaProfile)
    (ambiguities : List WriteAmbiguity) : Prop where
  isWrite : plan.isWrite = true
  listed : ∀ path, plan.Mentions path → (schema.field path).isSome
  mem_iff : ∀ ambiguity, ambiguity ∈ ambiguities ↔
    ∃ path profile, plan.Mentions path ∧ schema.field path = some profile ∧
      profile.Ambiguous ∧ ambiguity = profile.evidence path
  distinct : (ambiguities.map WriteAmbiguity.fieldPath).Nodup

private theorem map_fieldPath_sublist {schema : SchemaProfile} {paths : List FieldPath}
    {found : List (Option WriteAmbiguity)}
    (inspected : List.Forall₂ (fun path found => ambiguityForPath schema path = .ok found)
      paths found) :
    (found.reduceOption.map WriteAmbiguity.fieldPath).Sublist paths := by
  induction inspected with
  | nil => exact .slnil
  | @cons path first paths found inspectedFirst _ inductionHypothesis =>
      obtain ⟨profile, _, rfl⟩ := ambiguityForPath_eq_ok_iff.mp inspectedFirst
      split
      · exact inductionHypothesis.cons path
      · exact inductionHypothesis.cons_cons path

theorem detected_of_eq_ok {plan : StatementPlan} {schema : SchemaProfile}
    {ambiguities : List WriteAmbiguity}
    (detected : detectWriteAmbiguities plan schema = .ok ambiguities) :
    Detected plan schema ambiguities := by
  obtain ⟨paths, collected, detected⟩ := bind_eq_ok_iff.mp detected
  obtain ⟨found, inspected, rfl⟩ := map_eq_ok_iff.mp detected
  have mentioned : ∀ path, path ∈ paths.toList ↔ plan.Mentions path := by
    intro path
    rw [TreeSet.mem_toList, mem_writePaths_iff collected]
  refine ⟨writePaths_eq_ok_iff.mp ⟨paths, collected⟩, ?_, ?_, ?_⟩
  · intro path mentions
    obtain ⟨_, _, inspectedPath⟩ := exists_mem_of_collect inspected ((mentioned path).mpr mentions)
    obtain ⟨profile, held, _⟩ := ambiguityForPath_eq_ok_iff.mp inspectedPath
    simp [held]
  · intro ambiguity
    rw [List.reduceOption_mem_iff]
    constructor
    · intro membership
      obtain ⟨path, pathMembership, inspectedPath⟩ := exists_of_mem_collect inspected membership
      obtain ⟨profile, held, reported⟩ := ambiguityForPath_eq_ok_iff.mp inspectedPath
      split at reported
      · cases reported
      · rename_i evident
        exact ⟨path, profile, (mentioned path).mp pathMembership, held,
          (ambiguityKinds_ne_empty_iff profile).mp evident, Option.some.inj reported⟩
    · rintro ⟨path, profile, mentions, held, ambiguous, rfl⟩
      obtain ⟨reported, membership, inspectedPath⟩ :=
        exists_mem_of_collect inspected ((mentioned path).mpr mentions)
      obtain ⟨other, otherHeld, rfl⟩ := ambiguityForPath_eq_ok_iff.mp inspectedPath
      cases Option.some.inj (held.symm.trans otherHeld)
      rwa [if_neg ((ambiguityKinds_ne_empty_iff profile).mpr ambiguous)] at membership
  · have distinctPaths : paths.toList.Nodup :=
      TreeSet.distinct_toList.imp Std.ReflCmp.ne_of_cmp_ne_eq
    exact distinctPaths.sublist (map_fieldPath_sublist (collect_eq_ok_iff.mp inspected))

theorem exists_detectWriteAmbiguities {plan : StatementPlan} {schema : SchemaProfile}
    (isWrite : plan.isWrite = true)
    (listed : ∀ path, plan.Mentions path → (schema.field path).isSome) :
    ∃ ambiguities, detectWriteAmbiguities plan schema = .ok ambiguities := by
  obtain ⟨paths, collected⟩ := writePaths_eq_ok_iff.mpr isWrite
  have each : ∀ path ∈ paths.toList, ∃ found, ambiguityForPath schema path = .ok found := by
    intro path membership
    rw [TreeSet.mem_toList, mem_writePaths_iff collected] at membership
    obtain ⟨profile, held⟩ := Option.isSome_iff_exists.mp (listed path membership)
    exact ⟨_, ambiguityForPath_eq_ok_iff.mpr ⟨profile, held, rfl⟩⟩
  obtain ⟨found, inspected⟩ := exists_collect_iff.mpr each
  exact ⟨found.reduceOption, by simp [detectWriteAmbiguities, collected, inspected, bind,
    Except.bind, Except.map]⟩

/-- Lowered and bound writes are inspected without an error. -/
theorem StatementPlan.Conforms.listed {schema : SchemaProfile} {plan : StatementPlan}
    (conforms : plan.Conforms schema) (path : FieldPath) (mentions : plan.Mentions path) :
    (schema.field path).isSome := by
  rcases mentions with membership | ⟨condition, membership, rfl⟩
  · exact conforms.targets_listed path membership
  · exact conforms.conditions_listed condition membership

end Mongres
