import Mongres.Proxy.Gate

/-!
# Offered candidates and the plans they execute

The policy offers a candidate from the evidence, and applies it to the plan.  The
two tests agree on every candidate but the nested path, which is offered on the
evidence alone and applied only where the plan writes to the path.
-/

namespace Mongres

/-- A candidate that passes validation and yields a plan. -/
def Executes (plan : StatementPlan) (ambiguity : WriteAmbiguity)
    (candidate : ResolutionCandidate) : Prop :=
  ∃ resolution resolved, validateResolution plan ambiguity candidate = .ok resolution ∧
    applyResolution plan resolution = .ok resolved

theorem executes_iff (plan : StatementPlan) (ambiguity : WriteAmbiguity)
    (candidate : ResolutionCandidate) :
    Executes plan ambiguity candidate ↔
      candidate ∈ allowedCandidates plan ambiguity ∧
        ∃ resolved, candidate.Applies plan ambiguity.fieldPath resolved := by
  rw [mem_allowedCandidates_iff]
  constructor
  · rintro ⟨resolution, resolved, validated, applied⟩
    obtain ⟨offered, rfl⟩ := validateResolution_eq_ok_iff.mp validated
    exact ⟨offered, resolved, applyResolution_eq_ok_iff.mp applied⟩
  · rintro ⟨offered, resolved, applies⟩
    refine ⟨_, resolved, validateResolution_eq_ok_iff.mpr ⟨offered, rfl⟩, ?_⟩
    exact applyResolution_eq_ok_iff.mpr applies

/-- The offer is executable exactly as far as every candidate but rejection is one
that some answer can select. -/
theorem hasExecutableCandidate_iff (candidates : Finset ResolutionCandidate) :
    hasExecutableCandidate candidates ↔ ∃ candidate ∈ candidates, candidate ≠ .reject := by
  constructor
  · rintro (membership | membership | membership | membership | membership) <;>
      exact ⟨_, membership, by decide⟩
  · rintro ⟨candidate, membership, accepts⟩
    unfold hasExecutableCandidate
    cases candidate with
    | reject => exact absurd rfl accepts
    | _ => simp [membership]

/-! ## The gate accepts an executable candidate -/

def confidentAnswer (schema : SchemaProfile) (operation : WriteOperation)
    (ambiguity : WriteAmbiguity) (candidate : ResolutionCandidate) : ResolverResponse where
  contractVersion := resolutionContractVersion
  schemaProfileVersion := schema.profileVersion
  operation
  targetPath := ambiguity.fieldPath.segments
  candidate
  confidence := 1
  rationale := "selected"

theorem resolveWritePlan_confidentAnswer {plan : StatementPlan} {schema : SchemaProfile}
    {operation : WriteOperation} {ambiguity : WriteAmbiguity} {candidate : ResolutionCandidate}
    {minimumConfidence : Float} (state : GateState)
    (detected : detectWriteAmbiguities plan schema = .ok [ambiguity])
    (operates : writeOperation plan = .ok operation) (accepts : candidate ≠ .reject)
    (executes : Executes plan ambiguity candidate) (reachable : ¬ 1 < minimumConfidence) :
    ∃ write after,
      resolveWritePlan plan schema
        (fun _ => .ok (confidentAnswer schema operation ambiguity candidate))
        minimumConfidence state = (.ok write, after) := by
  obtain ⟨resolution, resolved, validated, applied⟩ := executes
  have offered := (executes_iff plan ambiguity candidate).mp
    ⟨resolution, resolved, validated, applied⟩
  have executable : hasExecutableCandidate
      (resolverRequest plan operation schema.profileVersion ambiguity).allowedCandidates :=
    (hasExecutableCandidate_iff _).mpr ⟨candidate, offered.1, accepts⟩
  have answered : validateResolverResponse
      (resolverRequest plan operation schema.profileVersion ambiguity) plan ambiguity
      (confidentAnswer schema operation ambiguity candidate) minimumConfidence =
        .ok resolution := by
    rw [validateResolverResponse, if_neg, confidentAnswer, validated]
    simp only [confidentAnswer, resolverRequest, ne_eq, not_true_eq_false, false_or, not_or]
    refine ⟨by decide, reachable, by decide, by decide, by decide⟩
  have ratio : ResolverConfidence.fromRatio (confidentAnswer schema operation ambiguity
      candidate).confidence = some ⟨10000, by decide⟩ := by
    change ResolverConfidence.fromRatio 1 = _
    decide
  simp only [resolveWritePlan, detected, operates, resolveSingleAmbiguity]
  rw [if_neg (not_not.mpr executable)]
  simp only [answered, applied, ratio]
  exact ⟨_, _, rfl⟩

/-! ## Consultations -/

theorem offered_of_consulted {plan : StatementPlan} {schema : SchemaProfile}
    {ambiguity : WriteAmbiguity} {resolver : Resolver} {minimumConfidence : Float}
    {state : GateState} (detected : detectWriteAmbiguities plan schema = .ok [ambiguity])
    (consulted : (resolveWritePlan plan schema resolver minimumConfidence state).2.consulted ≠
      state.consulted) :
    ∃ operation, writeOperation plan = .ok operation ∧
      hasExecutableCandidate (allowedCandidates plan ambiguity) := by
  cases operates : writeOperation plan with
  | error error => simp [resolveWritePlan, detected, operates] at consulted
  | ok operation =>
      refine ⟨operation, rfl, ?_⟩
      by_contra inexecutable
      simp only [resolveWritePlan, detected, operates, resolveSingleAmbiguity] at consulted
      rw [if_pos (by exact inexecutable)] at consulted
      exact consulted rfl

/-! ## When every offer is executable -/

/-- Every offered candidate executes, and the resolver is asked only when some
answer of it would be. -/
structure OffersExecutable (plan : StatementPlan) (schema : SchemaProfile)
    (ambiguity : WriteAmbiguity) : Prop where
  each : ∀ candidate ∈ allowedCandidates plan ambiguity, candidate ≠ .reject →
    Executes plan ambiguity candidate
  some : hasExecutableCandidate (allowedCandidates plan ambiguity) →
    ∃ candidate, Executes plan ambiguity candidate
  consulted : ∀ (resolver : Resolver) (minimumConfidence : Float) (state : GateState),
    0 ≤ minimumConfidence ∧ minimumConfidence ≤ 1 →
    (resolveWritePlan plan schema resolver minimumConfidence state).2.consulted ≠
      state.consulted →
    ∃ response write after,
      resolveWritePlan plan schema (fun _ => .ok response) minimumConfidence state =
        (.ok write, after)

theorem each_executes_iff (plan : StatementPlan) (ambiguity : WriteAmbiguity) :
    (∀ candidate ∈ allowedCandidates plan ambiguity, candidate ≠ .reject →
      Executes plan ambiguity candidate) ↔
    (nestedPathIsSafe ambiguity → ambiguity.fieldPath ∈ plan.targets) := by
  simp only [executes_iff, mem_allowedCandidates_iff]
  constructor
  · intro each safe
    have offered : ResolutionCandidate.useNestedPath.Offered plan ambiguity := safe
    have executes := (each .useNestedPath offered (by decide)).2
    exact (offered.exists_applies (by decide)).mp executes rfl
  · intro targeted candidate offered accepts
    refine ⟨offered, (offered.exists_applies accepts).mpr ?_⟩
    rintro rfl
    exact targeted offered

/-- A nested path is safe exactly when missing documents are its only evidence. -/
theorem nestedPathIsSafe_iff (ambiguity : WriteAmbiguity) :
    nestedPathIsSafe ambiguity ↔ ambiguity.kinds = {.missingFromSampledDocuments} ∧
      2 ≤ ambiguity.fieldPath.segments.length := by
  constructor
  · rintro ⟨kinds, _, nested⟩
    exact ⟨kinds, nested⟩
  · rintro ⟨kinds, nested⟩
    exact ⟨kinds, ambiguity.fieldPath.isLiteralDottedKey_of_two_le nested, nested⟩

/-- Everything that is offered executes unless a nested path is only filtered on. -/
theorem offersExecutable_iff {plan : StatementPlan} {schema : SchemaProfile}
    {ambiguity : WriteAmbiguity}
    (detected : detectWriteAmbiguities plan schema = .ok [ambiguity]) :
    OffersExecutable plan schema ambiguity ↔
      (ambiguity.kinds = {.missingFromSampledDocuments} →
        2 ≤ ambiguity.fieldPath.segments.length → ambiguity.fieldPath ∈ plan.targets) := by
  rw [← and_imp, ← nestedPathIsSafe_iff, ← each_executes_iff]
  constructor
  · exact OffersExecutable.each
  · intro each
    have someExecutes : hasExecutableCandidate (allowedCandidates plan ambiguity) →
        ∃ candidate, candidate ≠ .reject ∧ Executes plan ambiguity candidate := by
      intro executable
      obtain ⟨candidate, offered, accepts⟩ := (hasExecutableCandidate_iff _).mp executable
      exact ⟨candidate, accepts, each candidate offered accepts⟩
    refine ⟨each, ?_, ?_⟩
    · intro executable
      obtain ⟨candidate, _, executes⟩ := someExecutes executable
      exact ⟨candidate, executes⟩
    · intro resolver minimumConfidence state bounds consulted
      obtain ⟨operation, operates, executable⟩ := offered_of_consulted detected consulted
      obtain ⟨candidate, accepts, executes⟩ := someExecutes executable
      exact ⟨_, resolveWritePlan_confidentAnswer state detected operates accepts executes
        (Binary64.not_lt_of_le bounds.2)⟩

section Example

private def residents : List SampleDocument :=
  [{ fields := [("address", .document [("city", .string "york")])] },
    { fields := [("address", .document [])] }]

private def cityIsYork : Ast.Expr :=
  .binaryOp (.compoundIdentifier [.new "address", .new "city"]) .eq
    (.value (.singleQuotedString "york"))

private def deleteByCity : StatementPlan :=
  .delete { collection := "people", filter := .compare ⟨["address", "city"]⟩ .equal (.string "york") }

private def setCity : StatementPlan :=
  .update
    { collection := "people"
      assignments := [{ path := ⟨["address", "city"]⟩, value := .string "leeds" }]
      filter := .isNull ⟨["address"]⟩ true }

private def missingCity : WriteAmbiguity where
  fieldPath := ⟨["address", "city"]⟩
  kinds := {.missingFromSampledDocuments}
  observedTypes := {.string}
  observedShapes := {.scalar}
  missingDocuments := 1

theorem offersExecutable_setCity :
    OffersExecutable setCity (SchemaProfile.infer residents) missingCity := by
  have detected : detectWriteAmbiguities setCity (SchemaProfile.infer residents) =
      .ok [missingCity] := rfl
  exact (offersExecutable_iff detected).mpr (by decide)

/-- A `DELETE` that filters on the missing city is offered a nested path that
cannot be applied, and the resolver is consulted about it. -/
theorem not_offersExecutable :
    ¬ ∀ (statement : Ast.Statement) (collectionName : String) (schema : SchemaProfile)
      (plan : StatementPlan) (ambiguity : WriteAmbiguity),
      lowerStatement statement collectionName schema = .ok plan → plan.isWrite = true →
      detectWriteAmbiguities plan schema = .ok [ambiguity] →
      OffersExecutable plan schema ambiguity := by
  intro offers
  have lowered : lowerStatement (.deleteWhere "people" cityIsYork) "people"
      (SchemaProfile.infer residents) = .ok deleteByCity := rfl
  have detected : detectWriteAmbiguities deleteByCity (SchemaProfile.infer residents) =
      .ok [missingCity] := rfl
  have executes := (offers _ _ _ _ _ lowered rfl detected).each .useNestedPath (by decide)
    (by decide)
  obtain ⟨resolved, applies⟩ := ((executes_iff _ _ _).mp executes).2
  have targeted : missingCity.fieldPath ∈ deleteByCity.targets := applies.2.2.1
  cases targeted

end Example

end Mongres
