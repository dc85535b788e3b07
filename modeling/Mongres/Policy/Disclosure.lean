import Mongres.Policy.Contract

/-!
# What a request discloses

A request to the resolver is built from a whole plan.  Two plans that assign the same value to
the ambiguous field, and differ in any of their other values, yield the same request.
-/

namespace Mongres

/-- A filter without its values: the paths, the operators and how they are combined. -/
inductive FilterShape where
  | compare (path : FieldPath) (operator : ComparisonOperator)
  | inList (path : FieldPath) (negated : Bool)
  | isNull (path : FieldPath) (negated : Bool)
  | and (shapes : List FilterShape)
  | or (shapes : List FilterShape)

namespace FilterShape

mutual

def paths : FilterShape → List FieldPath
  | .compare path _ | .inList path _ | .isNull path _ => [path]
  | .and shapes | .or shapes => pathsOf shapes

def pathsOf : List FilterShape → List FieldPath
  | [] => []
  | shape :: shapes => paths shape ++ pathsOf shapes

end

end FilterShape

namespace Predicate

mutual

def shape : Predicate → FilterShape
  | .compare path operator _ => .compare path operator
  | .inList path _ negated => .inList path negated
  | .isNull path negated => .isNull path negated
  | .and predicates => .and (shapesOf predicates)
  | .or predicates => .or (shapesOf predicates)

def shapesOf : List Predicate → List FilterShape
  | [] => []
  | predicate :: predicates => shape predicate :: shapesOf predicates

end

theorem map_path_conditions (predicate : Predicate) :
    predicate.conditions.map Condition.path = predicate.shape.paths := by
  have lists : ∀ predicates : List Predicate,
      (∀ predicate ∈ predicates,
        predicate.conditions.map Condition.path = predicate.shape.paths) →
      (conditionsOf predicates).map Condition.path = FilterShape.pathsOf (shapesOf predicates) := by
    intro predicates each
    induction predicates with
    | nil => rfl
    | cons predicate predicates inductionHypothesis =>
        rw [List.forall_mem_cons] at each
        rw [conditionsOf, List.map_append, each.1, inductionHypothesis each.2, shapesOf,
          FilterShape.pathsOf]
  induction predicate using listInduction with
  | compare path operator value => rfl
  | inList path values negated => rfl
  | isNull path negated => rfl
  | and predicates inductionHypothesis => exact lists predicates inductionHypothesis
  | or predicates inductionHypothesis => exact lists predicates inductionHypothesis

end Predicate

/-- Two assignments to one path, which give it the same value where it is the target. -/
def AssignmentPlan.AgreesOn (target : FieldPath) (first second : AssignmentPlan) : Prop :=
  first.path = second.path ∧ (first.path = target → first.value = second.value)

def firstRowValue (rows : List (List SqlValue)) (index : Nat) : Option SqlValue :=
  rows.head?.bind fun row => row[index]?

/-- Two writes that differ only in values other than those they assign to the target. -/
inductive StatementPlan.AgreesOn (target : FieldPath) : StatementPlan → StatementPlan → Prop where
  | insert {collection : String} {columns : List FieldPath} {rows others : List (List SqlValue)} :
      (∀ index, columns[index]? = some target →
        firstRowValue rows index = firstRowValue others index) →
      AgreesOn target (.insert { collection, columns, rows })
        (.insert { collection, columns, rows := others })
  | update {collection : String} {assignments others : List AssignmentPlan}
      {filter otherFilter : Predicate} :
      List.Forall₂ (AssignmentPlan.AgreesOn target) assignments others →
      filter.shape = otherFilter.shape →
      AgreesOn target (.update { collection, assignments, filter })
        (.update { collection, assignments := others, filter := otherFilter })
  | delete {collection : String} {filter otherFilter : Predicate} :
      filter.shape = otherFilter.shape →
      AgreesOn target (.delete { collection, filter })
        (.delete { collection, filter := otherFilter })

section Disclosure

variable {target : FieldPath} {first second : StatementPlan}

theorem AssignmentPlan.AgreesOn.symm {one two : AssignmentPlan} (agrees : one.AgreesOn target two) :
    two.AgreesOn target one :=
  ⟨agrees.1.symm, fun isTarget => (agrees.2 (agrees.1.trans isTarget)).symm⟩

theorem StatementPlan.AgreesOn.symm (agrees : first.AgreesOn target second) :
    second.AgreesOn target first := by
  cases agrees with
  | insert values => exact .insert fun index column => (values index column).symm
  | update assigned shaped =>
      exact .update (assigned.flip.imp fun _ _ => AssignmentPlan.AgreesOn.symm) shaped.symm
  | delete shaped => exact .delete shaped.symm

theorem writtenValue_eq_of_forall₂ {assignments others : List AssignmentPlan}
    (assigned : List.Forall₂ (AssignmentPlan.AgreesOn target) assignments others) :
    (assignments.find? fun assignment => assignment.path = target).map AssignmentPlan.value =
      (others.find? fun assignment => assignment.path = target).map AssignmentPlan.value := by
  induction assigned with
  | nil => rfl
  | @cons one two _ _ agrees _ inductionHypothesis =>
      rw [List.find?_cons, List.find?_cons, ← agrees.1]
      by_cases isTarget : one.path = target
      · simp [isTarget, agrees.2 isTarget]
      · simpa [isTarget] using inductionHypothesis

theorem writtenValue_eq (agrees : first.AgreesOn target second) :
    writtenValue first target = writtenValue second target := by
  cases agrees with
  | @insert collection columns rows others values =>
      unfold writtenValue
      dsimp only
      cases found : columns.findIdx? fun column => column = target with
      | none => rfl
      | some index =>
          obtain ⟨bound, isTarget, _⟩ := List.findIdx?_eq_some_iff_getElem.mp found
          apply values
          rw [List.getElem?_eq_getElem bound]
          exact congrArg some (of_decide_eq_true isTarget)
  | update assigned _ => exact writtenValue_eq_of_forall₂ assigned
  | delete _ => rfl

/-- Whether a plan assigns only to the target, and what, does not depend on its other values. -/
theorem StatementPlan.AssignsOnly.of_agreesOn {value : SqlValue}
    (assignsOnly : first.AssignsOnly target value) (agrees : first.AgreesOn target second) :
    second.AssignsOnly target value := by
  obtain ⟨written, rfl, only, free⟩ := assignsOnly
  cases agrees with
  | @update collection assignments others filter otherFilter assigned shaped =>
      dsimp only at only free
      subst only
      obtain ⟨⟨path, otherValue⟩, rest, agreed, nothing, rfl⟩ := List.forall₂_cons_left_iff.mp assigned
      cases List.forall₂_nil_left_iff.mp nothing
      obtain ⟨samePath, sameValue⟩ := agreed
      have sameTarget : target = path := samePath
      have assignedSame : value = otherValue := sameValue rfl
      subst sameTarget assignedSame
      refine ⟨_, rfl, rfl, fun condition membership isTarget => ?_⟩
      have mentioned : target ∈ otherFilter.conditions.map Condition.path :=
        List.mem_map.mpr ⟨condition, membership, isTarget⟩
      rw [Predicate.map_path_conditions, ← shaped, ← Predicate.map_path_conditions] at mentioned
      obtain ⟨other, otherMembership, otherTarget⟩ := List.mem_map.mp mentioned
      exact free other otherMembership otherTarget

theorem mixedTypeAssignmentValue_eq {ambiguity : WriteAmbiguity}
    (agrees : first.AgreesOn ambiguity.fieldPath second) :
    mixedTypeAssignmentValue first ambiguity = mixedTypeAssignmentValue second ambiguity := by
  apply Option.ext
  intro value
  rw [mixedTypeAssignmentValue_eq_some_iff, mixedTypeAssignmentValue_eq_some_iff]
  constructor
  · rintro ⟨mix, assignsOnly⟩
    exact ⟨mix, assignsOnly.of_agreesOn agrees⟩
  · rintro ⟨mix, assignsOnly⟩
    exact ⟨mix, assignsOnly.of_agreesOn agrees.symm⟩

theorem allowedCandidates_eq {ambiguity : WriteAmbiguity}
    (agrees : first.AgreesOn ambiguity.fieldPath second) :
    allowedCandidates first ambiguity = allowedCandidates second ambiguity := by
  unfold allowedCandidates
  rw [mixedTypeAssignmentValue_eq agrees]

/-- A request depends on no value of the plan but the one assigned to the ambiguous field. -/
theorem resolverRequest_eq {ambiguity : WriteAmbiguity} (operation : WriteOperation)
    (schemaProfileVersion : UInt32) (agrees : first.AgreesOn ambiguity.fieldPath second) :
    resolverRequest first operation schemaProfileVersion ambiguity =
      resolverRequest second operation schemaProfileVersion ambiguity := by
  unfold resolverRequest writeValueEvidence
  rw [writtenValue_eq agrees, allowedCandidates_eq agrees]

end Disclosure

section Example

private def mixedAge : WriteAmbiguity := mixedTypeAmbiguity (.topLevel "age")

private def ageByBadge (name : String) (ages : List SqlValue) : StatementPlan :=
  .update
    { collection := "people"
      assignments := [{ path := .topLevel "age", value := .integer 40 }]
      filter := .and [.compare (.topLevel "name") .equal (.string name),
        .inList (.topLevel "badge") ages false] }

/-- The request says nothing of the name or the badges that a filter compares with. -/
theorem resolverRequest_ageByBadge :
    resolverRequest (ageByBadge "ada" [.integer 7]) .update 1 mixedAge =
      resolverRequest (ageByBadge "grace" [.string "x", .null]) .update 1 mixedAge :=
  resolverRequest_eq .update 1 (.update (.cons ⟨rfl, fun _ => rfl⟩ .nil) rfl)

end Example

end Mongres
