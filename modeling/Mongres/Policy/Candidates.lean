import Mongres.Library.Decimal
import Mongres.Policy.Ambiguity

/-!
# Resolution candidates

The policy offers a closed set of candidates for one ambiguity, validates a
choice against that set, and applies it to the typed plan.  No candidate carries
a value, a path or an operator of its own.
-/

namespace Mongres

open Fallible

/-- The only candidate identifiers that can be represented and validated. -/
inductive ResolutionCandidate where
  | keepString
  | parseIntegerLosslessly
  | keepInteger
  | formatIntegerAsString
  | useNestedPath
  | reject
  deriving DecidableEq, Repr

structure ValidatedResolution where
  fieldPath : FieldPath
  candidate : ResolutionCandidate
  deriving DecidableEq

def ambiguousWrite (message : String) : ProxyError := ⟨.ambiguousWrite, message⟩

mutual

def predicateReferencesPath (target : FieldPath) : Predicate → Bool
  | .compare path _ _ | .inList path _ _ | .isNull path _ => decide (path = target)
  | .and predicates | .or predicates => predicatesReferencePath target predicates

def predicatesReferencePath (target : FieldPath) : List Predicate → Bool
  | [] => false
  | predicate :: predicates =>
      predicateReferencesPath target predicate || predicatesReferencePath target predicates

end

def writePlanReferencesPath (plan : StatementPlan) (target : FieldPath) : Bool :=
  match plan with
  | .insert insert => insert.columns.any fun path => path = target
  | .update update => update.assignments.any fun assignment => assignment.path = target
  | .delete _ | .select _ => false

/-- The sole scalar assignment eligible for a mixed-type candidate. -/
def mixedTypeAssignmentValue (plan : StatementPlan) (ambiguity : WriteAmbiguity) : Option SqlValue :=
  if ambiguity.kinds ≠ {.mixedBsonTypes} ∨ ambiguity.observedTypes ≠ {.integer, .string}
      ∨ ambiguity.observedShapes ≠ {.scalar} ∨ ambiguity.missingDocuments ≠ 0
      ∨ ambiguity.fieldPath.isLiteralDottedKey = true then none
  else
    match plan with
    | .update update =>
        if predicateReferencesPath ambiguity.fieldPath update.filter then none
        else
          match update.assignments with
          | [assignment] =>
              if assignment.path ≠ ambiguity.fieldPath then none else some assignment.value
          | _ => none
    | _ => none

def mixedTypeAmbiguity (fieldPath : FieldPath) : WriteAmbiguity where
  fieldPath
  kinds := {.mixedBsonTypes}
  observedTypes := {.integer, .string}
  observedShapes := {.scalar}
  missingDocuments := 0

/-- Parses only an integer whose canonical decimal text is the given string. -/
def parseIntegerLosslessly (value : String) : Option Int64 :=
  (Decimal.parseInt64 value).filter fun parsed => decide (Decimal.text parsed = value)

def nestedPathIsSafe (ambiguity : WriteAmbiguity) : Prop :=
  ambiguity.kinds = {.missingFromSampledDocuments} ∧
    ambiguity.fieldPath.isLiteralDottedKey = false ∧ 2 ≤ ambiguity.fieldPath.segments.length

instance (ambiguity : WriteAmbiguity) : Decidable (nestedPathIsSafe ambiguity) :=
  inferInstanceAs (Decidable (_ ∧ _ ∧ _))

def allowedCandidates (plan : StatementPlan) (ambiguity : WriteAmbiguity) :
    Finset ResolutionCandidate :=
  let candidates : Finset ResolutionCandidate := {.reject}
  let candidates :=
    if nestedPathIsSafe ambiguity then insert .useNestedPath candidates else candidates
  match mixedTypeAssignmentValue plan ambiguity with
  | some (.string value) =>
      let candidates := insert .keepString candidates
      if (parseIntegerLosslessly value).isSome then insert .parseIntegerLosslessly candidates
      else candidates
  | some (.integer _) => insert .formatIntegerAsString (insert .keepInteger candidates)
  | some .null | some (.boolean _) | some (.floatingPoint _) | some (.placeholder _) | none =>
      candidates

def validateResolution (plan : StatementPlan) (ambiguity : WriteAmbiguity)
    (candidate : ResolutionCandidate) : Result ValidatedResolution :=
  if candidate ∉ allowedCandidates plan ambiguity then
    .error (ambiguousWrite
      s!"resolver candidate is not allowed for ambiguous field '{ambiguity.fieldPath.displayName}'")
  else .ok { fieldPath := ambiguity.fieldPath, candidate }

/-- Replaces the value of a plan's sole assignment, which must be to the target
and hold a value of the expected kind. -/
def retypeAssignment (conversion : String) (expected : SqlValue → Bool) (plan : StatementPlan)
    (target : FieldPath) (value : SqlValue) : Result StatementPlan :=
  match plan with
  | .update update =>
      match update.assignments with
      | [assignment] =>
          if assignment.path ≠ target ∨ expected assignment.value = false then
            .error (ambiguousWrite
              s!"{conversion} candidate does not match the parsed assignment")
          else .ok (.update { update with assignments := [{ assignment with value }] })
      | _ => .error (ambiguousWrite s!"{conversion} candidate requires exactly one assignment")
  | _ => .error (ambiguousWrite s!"{conversion} candidate requires an UPDATE assignment")

def isString : SqlValue → Bool
  | .string _ => true
  | _ => false

def isInteger : SqlValue → Bool
  | .integer _ => true
  | _ => false

def retypeUpdateAssignment (plan : StatementPlan) (target : FieldPath) (value : Int64) :
    Result StatementPlan :=
  retypeAssignment "integer conversion" isString plan target (.integer value)

def retypeUpdateAssignmentAsString (plan : StatementPlan) (target : FieldPath) (value : Int64) :
    Result StatementPlan :=
  retypeAssignment "integer string formatting" isInteger plan target (.string (Decimal.text value))

def applyResolution (plan : StatementPlan) (resolution : ValidatedResolution) :
    Result StatementPlan :=
  let assigned := mixedTypeAssignmentValue plan (mixedTypeAmbiguity resolution.fieldPath)
  match resolution.candidate with
  | .reject => .error (ambiguousWrite
      s!"resolver selected rejection for ambiguous field '{resolution.fieldPath.displayName}'")
  | .useNestedPath =>
      if resolution.fieldPath.isLiteralDottedKey = true ∨ resolution.fieldPath.segments.length < 2
          ∨ writePlanReferencesPath plan resolution.fieldPath = false then
        .error (ambiguousWrite "nested-path resolution does not match a safe parsed write field")
      else .ok plan
  | .keepString =>
      match assigned with
      | some (.string _) => .ok plan
      | _ => .error (ambiguousWrite
          "string-preserving candidate does not match a safe typed assignment")
  | .parseIntegerLosslessly =>
      match assigned with
      | some (.string value) =>
          match parseIntegerLosslessly value with
          | some integer => retypeUpdateAssignment plan resolution.fieldPath integer
          | none => .error (ambiguousWrite
              "integer conversion candidate requires a canonical signed-decimal string")
      | _ => .error (ambiguousWrite
          "integer conversion candidate does not match a safe typed assignment")
  | .keepInteger =>
      match assigned with
      | some (.integer _) => .ok plan
      | _ => .error (ambiguousWrite
          "integer-preserving candidate does not match a safe typed assignment")
  | .formatIntegerAsString =>
      match assigned with
      | some (.integer value) => retypeUpdateAssignmentAsString plan resolution.fieldPath value
      | _ => .error (ambiguousWrite
          "string formatting candidate does not match a safe typed assignment")

def unresolvedWriteError (ambiguities : List WriteAmbiguity) : ProxyError :=
  let fields := ", ".intercalate (ambiguities.map fun ambiguity => ambiguity.fieldPath.displayName)
  ambiguousWrite s!"write requires a validated ambiguity resolution for field(s): {fields}"

def writeOperation : StatementPlan → Result WriteOperation
  | .insert _ => .ok .insert
  | .update _ => .ok .update
  | .delete _ => .ok .delete
  | .select _ => .error (invalidInput
      "resolver requests require an INSERT, UPDATE, or DELETE plan")

/-! ## Which candidates are offered, and what they do -/

theorem predicateReferencesPath_eq_true_iff (target : FieldPath) (predicate : Predicate) :
    predicateReferencesPath target predicate = true ↔
      ∃ condition ∈ predicate.conditions, condition.path = target := by
  have lists : ∀ predicates : List Predicate,
      (∀ predicate ∈ predicates, predicateReferencesPath target predicate = true ↔
        ∃ condition ∈ predicate.conditions, condition.path = target) →
      (predicatesReferencePath target predicates = true ↔
        ∃ condition ∈ Predicate.conditionsOf predicates, condition.path = target) := by
    intro predicates each
    induction predicates with
    | nil => simp [predicatesReferencePath, Predicate.conditionsOf]
    | cons predicate predicates inductionHypothesis =>
        rw [List.forall_mem_cons] at each
        rw [predicatesReferencePath, Bool.or_eq_true, each.1, inductionHypothesis each.2,
          Predicate.conditionsOf]
        simp only [List.mem_append, or_and_right, exists_or]
  induction predicate using Predicate.listInduction with
  | compare path operator value =>
      simp [predicateReferencesPath, Predicate.conditions, Condition.path]
  | inList path values negated =>
      simp [predicateReferencesPath, Predicate.conditions, Condition.path]
  | isNull path negated =>
      simp [predicateReferencesPath, Predicate.conditions, Condition.path]
  | and predicates inductionHypothesis => exact lists predicates inductionHypothesis
  | or predicates inductionHypothesis => exact lists predicates inductionHypothesis

theorem writePlanReferencesPath_eq_true_iff (plan : StatementPlan) (target : FieldPath) :
    writePlanReferencesPath plan target = true ↔ target ∈ plan.targets := by
  cases plan <;> simp [writePlanReferencesPath, StatementPlan.targets]

/-- Evidence of exactly an integer and string mix, on a path that is addressable. -/
def WriteAmbiguity.IsIntegerStringMix (ambiguity : WriteAmbiguity) : Prop :=
  ambiguity = mixedTypeAmbiguity ambiguity.fieldPath ∧
    ambiguity.fieldPath.isLiteralDottedKey = false

/-- A plan whose only assignment is to a path that its filter leaves alone. -/
def StatementPlan.AssignsOnly (plan : StatementPlan) (path : FieldPath) (value : SqlValue) : Prop :=
  ∃ update, plan = .update update ∧ update.assignments = [{ path, value }] ∧
    ∀ condition ∈ update.filter.conditions, condition.path ≠ path

private theorem isIntegerStringMix_iff (ambiguity : WriteAmbiguity) :
    ambiguity.IsIntegerStringMix ↔
      ¬ (ambiguity.kinds ≠ {.mixedBsonTypes} ∨ ambiguity.observedTypes ≠ {.integer, .string}
        ∨ ambiguity.observedShapes ≠ {.scalar} ∨ ambiguity.missingDocuments ≠ 0
        ∨ ambiguity.fieldPath.isLiteralDottedKey = true) := by
  obtain ⟨path, kinds, types, shapes, missing⟩ := ambiguity
  simp [WriteAmbiguity.IsIntegerStringMix, mixedTypeAmbiguity, and_assoc]

theorem mixedTypeAssignmentValue_eq_some_iff (plan : StatementPlan) (ambiguity : WriteAmbiguity)
    (value : SqlValue) :
    mixedTypeAssignmentValue plan ambiguity = some value ↔
      ambiguity.IsIntegerStringMix ∧ plan.AssignsOnly ambiguity.fieldPath value := by
  unfold mixedTypeAssignmentValue
  by_cases eligible : ambiguity.IsIntegerStringMix
  · rw [if_neg ((isIntegerStringMix_iff ambiguity).mp eligible), and_iff_right eligible]
    cases plan with
    | select plan => simp [StatementPlan.AssignsOnly]
    | insert plan => simp [StatementPlan.AssignsOnly]
    | delete plan => simp [StatementPlan.AssignsOnly]
    | update plan =>
        obtain ⟨collection, assignments, filter⟩ := plan
        have references := predicateReferencesPath_eq_true_iff ambiguity.fieldPath filter
        simp only [StatementPlan.AssignsOnly, StatementPlan.update.injEq, exists_eq_left']
        by_cases referenced : predicateReferencesPath ambiguity.fieldPath filter = true
        · obtain ⟨condition, membership, same⟩ := references.mp referenced
          rw [if_pos referenced]
          simp only [reduceCtorEq, false_iff, not_and, not_forall, not_not]
          exact fun _ => ⟨condition, membership, same⟩
        · have free : ∀ condition ∈ filter.conditions, condition.path ≠ ambiguity.fieldPath :=
            fun condition membership same => referenced (references.mpr ⟨condition, membership, same⟩)
          rw [if_neg referenced, and_iff_left free]
          match assignments with
          | [] => simp
          | [⟨path, assigned⟩] => by_cases same : path = ambiguity.fieldPath <;> simp [same]
          | first :: second :: rest => simp
  · rw [if_pos (not_not.mp (mt (isIntegerStringMix_iff ambiguity).mpr eligible))]
    simp [eligible]

/-- When a candidate is offered, in terms of the plan and the evidence. -/
def ResolutionCandidate.Offered (plan : StatementPlan) (ambiguity : WriteAmbiguity) :
    ResolutionCandidate → Prop
  | .reject => True
  | .useNestedPath => nestedPathIsSafe ambiguity
  | .keepString => ∃ text, mixedTypeAssignmentValue plan ambiguity = some (.string text)
  | .parseIntegerLosslessly => ∃ text integer,
      mixedTypeAssignmentValue plan ambiguity = some (.string text) ∧
        Mongres.parseIntegerLosslessly text = some integer
  | .keepInteger | .formatIntegerAsString =>
      ∃ integer, mixedTypeAssignmentValue plan ambiguity = some (.integer integer)

theorem mem_allowedCandidates_iff (plan : StatementPlan) (ambiguity : WriteAmbiguity)
    (candidate : ResolutionCandidate) :
    candidate ∈ allowedCandidates plan ambiguity ↔ candidate.Offered plan ambiguity := by
  unfold allowedCandidates
  cases assigned : mixedTypeAssignmentValue plan ambiguity with
  | none =>
      by_cases safe : nestedPathIsSafe ambiguity <;> cases candidate <;>
        simp [ResolutionCandidate.Offered, safe, assigned]
  | some value =>
      cases value with
      | string text =>
          cases parsed : parseIntegerLosslessly text <;>
            by_cases safe : nestedPathIsSafe ambiguity <;> cases candidate <;>
            simp [ResolutionCandidate.Offered, safe, assigned, parsed]
      | _ =>
          by_cases safe : nestedPathIsSafe ambiguity <;> cases candidate <;>
            simp [ResolutionCandidate.Offered, safe, assigned]

theorem validateResolution_eq_ok_iff {plan : StatementPlan} {ambiguity : WriteAmbiguity}
    {candidate : ResolutionCandidate} {resolution : ValidatedResolution} :
    validateResolution plan ambiguity candidate = .ok resolution ↔
      candidate.Offered plan ambiguity ∧
        resolution = { fieldPath := ambiguity.fieldPath, candidate } := by
  rw [validateResolution, ite_error_eq_ok_iff, not_not, mem_allowedCandidates_iff]
  simp [@eq_comm _ resolution]

/-- A plan with its sole assignment's value replaced. -/
def StatementPlan.retag (plan : StatementPlan) (path : FieldPath) (value : SqlValue) :
    StatementPlan :=
  match plan with
  | .update written => .update { written with assignments := [{ path, value }] }
  | other => other

/-- What applying a candidate does to the plan, and what it needs for that. -/
def ResolutionCandidate.Applies (plan : StatementPlan) (path : FieldPath) (resolved : StatementPlan) :
    ResolutionCandidate → Prop
  | .reject => False
  | .useNestedPath => path.isLiteralDottedKey = false ∧ 2 ≤ path.segments.length ∧
      path ∈ plan.targets ∧ resolved = plan
  | .keepString => ∃ text,
      mixedTypeAssignmentValue plan (mixedTypeAmbiguity path) = some (.string text) ∧
        resolved = plan
  | .parseIntegerLosslessly => ∃ text integer,
      mixedTypeAssignmentValue plan (mixedTypeAmbiguity path) = some (.string text) ∧
        Mongres.parseIntegerLosslessly text = some integer ∧
          resolved = plan.retag path (.integer integer)
  | .keepInteger => ∃ integer,
      mixedTypeAssignmentValue plan (mixedTypeAmbiguity path) = some (.integer integer) ∧
        resolved = plan
  | .formatIntegerAsString => ∃ integer,
      mixedTypeAssignmentValue plan (mixedTypeAmbiguity path) = some (.integer integer) ∧
        resolved = plan.retag path (.string (Decimal.text integer))

theorem retypeAssignment_eq_ok_iff {conversion : String} {expected : SqlValue → Bool}
    {plan resolved : StatementPlan} {path : FieldPath} {assigned value : SqlValue}
    (assigns : plan.AssignsOnly path assigned) (kind : expected assigned = true) :
    retypeAssignment conversion expected plan path value = .ok resolved ↔
      resolved = plan.retag path value := by
  obtain ⟨⟨collection, assignments, filter⟩, rfl, single, _⟩ := assigns
  cases single
  simp [retypeAssignment, StatementPlan.retag, kind, @eq_comm _ resolved]

theorem assignsOnly_of_eligible {plan : StatementPlan} {path : FieldPath} {value : SqlValue}
    (eligible : mixedTypeAssignmentValue plan (mixedTypeAmbiguity path) = some value) :
    plan.AssignsOnly path value :=
  ((mixedTypeAssignmentValue_eq_some_iff _ _ _).mp eligible).2

theorem applyResolution_eq_ok_iff {plan resolved : StatementPlan} {path : FieldPath}
    {candidate : ResolutionCandidate} :
    applyResolution plan { fieldPath := path, candidate } = .ok resolved ↔
      candidate.Applies plan path resolved := by
  unfold applyResolution
  cases candidate with
  | reject => simp [ResolutionCandidate.Applies]
  | useNestedPath =>
      simp only [ite_error_eq_ok_iff, ResolutionCandidate.Applies, not_or, not_lt,
        ← writePlanReferencesPath_eq_true_iff, Bool.not_eq_true, Bool.not_eq_false, and_assoc,
        Except.ok.injEq, @eq_comm _ resolved]
  | keepString =>
      dsimp only [ResolutionCandidate.Applies]
      split
      · rename_i text eligible
        simp [eligible, @eq_comm _ resolved]
      · rename_i ineligible
        simp only [reduceCtorEq, false_iff]
        rintro ⟨text, eligible, _⟩
        exact ineligible text eligible
  | parseIntegerLosslessly =>
      dsimp only [ResolutionCandidate.Applies]
      split
      · rename_i text eligible
        cases parsed : parseIntegerLosslessly text with
        | none => simp [eligible, parsed]
        | some integer =>
            simp only [eligible, Option.some.injEq, SqlValue.string.injEq, exists_and_left,
              exists_eq_left', parsed]
            exact retypeAssignment_eq_ok_iff (assignsOnly_of_eligible eligible) rfl
      · rename_i ineligible
        simp only [reduceCtorEq, false_iff]
        rintro ⟨text, _, eligible, _⟩
        exact ineligible text eligible
  | keepInteger =>
      dsimp only [ResolutionCandidate.Applies]
      split
      · rename_i integer eligible
        simp [eligible, @eq_comm _ resolved]
      · rename_i ineligible
        simp only [reduceCtorEq, false_iff]
        rintro ⟨integer, eligible, _⟩
        exact ineligible integer eligible
  | formatIntegerAsString =>
      dsimp only [ResolutionCandidate.Applies]
      split
      · rename_i integer eligible
        simp only [eligible, Option.some.injEq, SqlValue.integer.injEq, exists_eq_left']
        exact retypeAssignment_eq_ok_iff (assignsOnly_of_eligible eligible) rfl
      · rename_i ineligible
        simp only [reduceCtorEq, false_iff]
        rintro ⟨integer, eligible, _⟩
        exact ineligible integer eligible

theorem eligible_of_mixedTypeAssignmentValue {plan : StatementPlan} {ambiguity : WriteAmbiguity}
    {value : SqlValue} (assigned : mixedTypeAssignmentValue plan ambiguity = some value) :
    mixedTypeAssignmentValue plan (mixedTypeAmbiguity ambiguity.fieldPath) = some value := by
  have mix := ((mixedTypeAssignmentValue_eq_some_iff _ _ _).mp assigned).1
  rwa [← mix.1]

/-- Every offered type candidate applies; only the nested path needs its path
among the targets of the plan. -/
theorem ResolutionCandidate.Offered.exists_applies {plan : StatementPlan}
    {ambiguity : WriteAmbiguity} {candidate : ResolutionCandidate}
    (offered : candidate.Offered plan ambiguity) (notReject : candidate ≠ .reject) :
    (∃ resolved, candidate.Applies plan ambiguity.fieldPath resolved) ↔
      (candidate = .useNestedPath → ambiguity.fieldPath ∈ plan.targets) := by
  cases candidate with
  | reject => exact absurd rfl notReject
  | useNestedPath =>
      obtain ⟨_, plain, nested⟩ := offered
      simp [ResolutionCandidate.Applies, plain, nested]
  | keepString =>
      obtain ⟨text, assigned⟩ := offered
      have eligible := eligible_of_mixedTypeAssignmentValue assigned
      simp [ResolutionCandidate.Applies, eligible]
  | parseIntegerLosslessly =>
      obtain ⟨text, integer, assigned, parsed⟩ := offered
      have eligible := eligible_of_mixedTypeAssignmentValue assigned
      simp [ResolutionCandidate.Applies, eligible, parsed]
  | keepInteger =>
      obtain ⟨integer, assigned⟩ := offered
      have eligible := eligible_of_mixedTypeAssignmentValue assigned
      simp [ResolutionCandidate.Applies, eligible]
  | formatIntegerAsString =>
      obtain ⟨integer, assigned⟩ := offered
      have eligible := eligible_of_mixedTypeAssignmentValue assigned
      simp [ResolutionCandidate.Applies, eligible]

end Mongres
