import Mongres.Proxy.Gate

/-!
# Reasons for blocked writes

Each record of a blocked write gives one reason.  The reason for a refused response is worked
out after the refusal, and one reason stands for every decision that could not be applied to
the plan.
-/

namespace Mongres

open Fallible

/-- The confidence is not a number that policy accepts. -/
def ResolverResponse.LowConfidence (response : ResolverResponse) (minimumConfidence : Float) :
    Prop :=
  response.confidence.isFinite = false ∨ response.confidence < minimumConfidence ∨
    response.confidence > 1

/-- The response breaks a rule other than those on its profile version and its confidence. -/
def ResolverResponse.Malformed (response : ResolverResponse) (request : ResolverRequest) : Prop :=
  response.contractVersion ≠ resolutionContractVersion ∨ response.operation ≠ request.operation ∨
    response.targetPath ≠ request.targetPath ∨ response.rationale.isEmpty = true ∨
    response.rationale.utf8ByteSize > 500 ∨ response.candidate ∉ request.allowedCandidates

/-- The condition that a reason names, for a request and what the resolver answered.  Two
reasons belong to other steps. -/
def AuditFailure.Held (request : ResolverRequest) (minimumConfidence : Float)
    (answer : Result ResolverResponse) : AuditFailure → Prop
  | .noSafeResolution => ¬ hasExecutableCandidate request.allowedCandidates
  | .resolverRejected => ∃ response, answer = .ok response ∧ response.candidate = .reject
  | .resolverUnavailable => ∃ error, answer = .error error
  | .staleSchemaProfile => ∃ response, answer = .ok response ∧
      response.schemaProfileVersion ≠ request.schemaProfileVersion
  | .lowConfidence => ∃ response, answer = .ok response ∧ response.LowConfidence minimumConfidence
  | .invalidResolverResponse => ∃ response, answer = .ok response ∧
      response.schemaProfileVersion = request.schemaProfileVersion ∧
      ¬ response.LowConfidence minimumConfidence ∧ response.Malformed request
  | .resolverTimedOut | .mongoExecutionFailed => False

section Reasons

variable (plan : StatementPlan) (schema : SchemaProfile) (resolver : Resolver)
  (minimumConfidence : Float) (operation : WriteOperation) (ambiguity : WriteAmbiguity)

/-- Every record that the step adds for a blocked write gives a reason that held. -/
def GivesTrueReasons : Prop :=
  ∀ state : GateState, ∃ added,
    (resolveSingleAmbiguity plan schema resolver minimumConfidence operation ambiguity
        state).2.auditRecords = state.auditRecords ++ added ∧
      ∀ record ∈ added, ∀ failure, record.outcome = .blocked failure →
        failure.Held (resolverRequest plan operation schema.profileVersion ambiguity)
          minimumConfidence
          (resolver (resolverRequest plan operation schema.profileVersion ambiguity))

/-- The resolver selects the nested path, validly, for a plan that does not write to it. -/
def SelectsUnwrittenPath : Prop :=
  ∃ response resolution,
    resolver (resolverRequest plan operation schema.profileVersion ambiguity) = .ok response ∧
      validateResolverResponse (resolverRequest plan operation schema.profileVersion ambiguity) plan
        ambiguity response minimumConfidence = .ok resolution ∧
      response.candidate = .useNestedPath ∧ ambiguity.fieldPath ∉ plan.targets

/-- How the step comes to record a reason. -/
inductive Blocks : AuditFailure → Prop where
  | notOffered :
      ¬ hasExecutableCandidate
        (resolverRequest plan operation schema.profileVersion ambiguity).allowedCandidates →
      Blocks .noSafeResolution
  | unavailable {error : ProxyError} :
      resolver (resolverRequest plan operation schema.profileVersion ambiguity) = .error error →
      Blocks .resolverUnavailable
  | invalid {response : ResolverResponse} {error : ProxyError} :
      resolver (resolverRequest plan operation schema.profileVersion ambiguity) = .ok response →
      validateResolverResponse (resolverRequest plan operation schema.profileVersion ambiguity) plan
        ambiguity response minimumConfidence = .error error →
      Blocks (validationFailure (resolverRequest plan operation schema.profileVersion ambiguity)
        response minimumConfidence)
  | inapplicable {response : ResolverResponse} {resolution : ValidatedResolution}
      {error : ProxyError} :
      resolver (resolverRequest plan operation schema.profileVersion ambiguity) = .ok response →
      validateResolverResponse (resolverRequest plan operation schema.profileVersion ambiguity) plan
        ambiguity response minimumConfidence = .ok resolution →
      applyResolution plan resolution = .error error → Blocks .resolverRejected

theorem blocks_of_resolveSingleAmbiguity (state : GateState) :
    let after := (resolveSingleAmbiguity plan schema resolver minimumConfidence operation ambiguity
      state).2
    after.auditRecords = state.auditRecords ∨
      ∃ record failure, after.auditRecords = state.auditRecords ++ [record] ∧
        record.outcome = .blocked failure ∧
        Blocks plan schema resolver minimumConfidence operation ambiguity failure := by
  unfold resolveSingleAmbiguity
  dsimp only
  split
  · rename_i notOffered
    exact .inr ⟨_, _, rfl, rfl, .notOffered notOffered⟩
  · split
    · rename_i error unavailable
      exact .inr ⟨_, _, rfl, rfl, .unavailable unavailable⟩
    · rename_i response answered
      split
      · rename_i error refused
        exact .inr ⟨_, _, rfl, rfl, .invalid answered refused⟩
      · rename_i resolution validated
        split
        · rename_i error failed
          exact .inr ⟨_, _, rfl, rfl, .inapplicable answered validated failed⟩
        · split
          · exact .inl rfl
          · exact .inl rfl

end Reasons

section Reasons

variable {plan : StatementPlan} {schema : SchemaProfile} {resolver : Resolver}
  {minimumConfidence : Float} {operation : WriteOperation} {ambiguity : WriteAmbiguity}

/-! ## Reasons that hold -/

/-- A refused response breaks a rule, and the reason says which kind of rule. -/
theorem held_validationFailure {request : ResolverRequest} {response : ResolverResponse}
    {error : ProxyError} (allowed : request.allowedCandidates = allowedCandidates plan ambiguity)
    (refused : validateResolverResponse request plan ambiguity response minimumConfidence =
      .error error) :
    (validationFailure request response minimumConfidence).Held request minimumConfidence
      (.ok response) := by
  unfold validationFailure
  split
  · rename_i stale
    exact ⟨response, rfl, stale⟩
  · rename_i current
    split
    · rename_i low
      exact ⟨response, rfl, low⟩
    · rename_i confident
      refine ⟨response, rfl, not_not.mp current, confident, ?_⟩
      by_contra wellFormed
      simp only [ResolverResponse.Malformed, not_or, not_not] at wellFormed
      obtain ⟨version, operates, target, rationale, short, offered⟩ := wellFormed
      obtain ⟨finite, above, below⟩ := not_or.mp confident |>.imp_right not_or.mp
      rw [validateResolverResponse, if_neg, validateResolution, if_neg] at refused
      · cases refused
      · rw [not_not, ← allowed]
        exact offered
      · simp only [not_or, not_not]
        exact ⟨version, not_not.mp current, operates, target, finite, above, below, rationale,
          short⟩

/-- A valid decision fails to apply when it rejects, or when it selects a nested path that the
plan does not write to. -/
theorem applyResolution_validated_iff {request : ResolverRequest} {response : ResolverResponse}
    {resolution : ValidatedResolution}
    (validated : validateResolverResponse request plan ambiguity response minimumConfidence =
      .ok resolution) :
    (∃ error, applyResolution plan resolution = .error error) ↔
      response.candidate = .reject ∨
        response.candidate = .useNestedPath ∧ ambiguity.fieldPath ∉ plan.targets := by
  rw [validateResolverResponse, ite_error_eq_ok_iff, validateResolution_eq_ok_iff] at validated
  obtain ⟨_, offered, rfl⟩ := validated
  have failsIff : (∃ error, applyResolution plan
        { fieldPath := ambiguity.fieldPath, candidate := response.candidate } = .error error) ↔
      ¬ ∃ resolved, response.candidate.Applies plan ambiguity.fieldPath resolved := by
    simp only [← applyResolution_eq_ok_iff]
    cases applyResolution plan
        { fieldPath := ambiguity.fieldPath, candidate := response.candidate } <;> simp
  rw [failsIff]
  by_cases rejects : response.candidate = .reject
  · simp [rejects, ResolutionCandidate.Applies]
  · rw [offered.exists_applies rejects]
    simp [rejects]

theorem held_of_blocks {failure : AuditFailure}
    (written : ¬ SelectsUnwrittenPath plan schema resolver minimumConfidence operation ambiguity)
    (blocks : Blocks plan schema resolver minimumConfidence operation ambiguity failure) :
    failure.Held (resolverRequest plan operation schema.profileVersion ambiguity) minimumConfidence
      (resolver (resolverRequest plan operation schema.profileVersion ambiguity)) := by
  cases blocks with
  | notOffered notOffered => exact notOffered
  | unavailable unavailable => exact ⟨_, unavailable⟩
  | invalid answered refused =>
      rw [answered]
      exact held_validationFailure rfl refused
  | inapplicable answered validated failed =>
      rcases (applyResolution_validated_iff validated).mp ⟨_, failed⟩ with rejects | unwritten
      · exact ⟨_, answered, rejects⟩
      · exact absurd ⟨_, _, answered, validated, unwritten⟩ written

theorem recordsRejection_of_selectsUnwrittenPath
    (unwritten : SelectsUnwrittenPath plan schema resolver minimumConfidence operation ambiguity)
    (state : GateState) :
    ∃ record, (resolveSingleAmbiguity plan schema resolver minimumConfidence operation ambiguity
        state).2.auditRecords = state.auditRecords ++ [record] ∧
      record.outcome = .blocked .resolverRejected := by
  obtain ⟨response, resolution, answered, validated, selected, notTarget⟩ := unwritten
  obtain ⟨error, failed⟩ :=
    (applyResolution_validated_iff validated).mpr (.inr ⟨selected, notTarget⟩)
  have offered : .useNestedPath ∈
      (resolverRequest plan operation schema.profileVersion ambiguity).allowedCandidates := by
    have accepted := validated
    rw [validateResolverResponse, ite_error_eq_ok_iff, validateResolution_eq_ok_iff,
      ← mem_allowedCandidates_iff, selected] at accepted
    exact accepted.2.1
  unfold resolveSingleAmbiguity
  dsimp only
  rw [if_neg (not_not.mpr (.inl offered)), answered]
  dsimp only
  rw [validated]
  dsimp only
  rw [failed]
  exact ⟨_, rfl, rfl⟩

/-- The reasons are true unless the resolver selects a nested path that is not written. -/
theorem givesTrueReasons_iff (plan : StatementPlan) (schema : SchemaProfile) (resolver : Resolver)
    (minimumConfidence : Float) (operation : WriteOperation) (ambiguity : WriteAmbiguity) :
    GivesTrueReasons plan schema resolver minimumConfidence operation ambiguity ↔
      ¬ SelectsUnwrittenPath plan schema resolver minimumConfidence operation ambiguity := by
  constructor
  · intro truthful unwritten
    obtain ⟨record, recorded, outcome⟩ := recordsRejection_of_selectsUnwrittenPath unwritten {}
    obtain ⟨added, grown, held⟩ := truthful {}
    have same : [record] = added := List.append_cancel_left (recorded.symm.trans grown)
    subst same
    obtain ⟨response, resolution, answered, _, selected, _⟩ := unwritten
    obtain ⟨other, otherAnswered, rejects⟩ := held record List.mem_cons_self _ outcome
    cases Except.ok.inj (answered.symm.trans otherAnswered)
    cases selected.symm.trans rejects
  · intro written state
    rcases blocks_of_resolveSingleAmbiguity plan schema resolver minimumConfidence operation
      ambiguity state with unchanged | ⟨record, failure, recorded, outcome, blocks⟩
    · exact ⟨[], by simpa using unchanged, by simp⟩
    · refine ⟨[record], recorded, fun other membership reason given => ?_⟩
      cases List.mem_singleton.mp membership
      cases outcome.symm.trans given
      exact held_of_blocks written blocks

end Reasons

section Example

private def shipments : List SampleDocument :=
  [{ fields := [("shipping", .document [("carrier", .string "rail"), ("fee", .integer 4)])] },
    { fields := [("shipping", .document [("fee", .integer 7)])] }]

private def deleteByCarrier : StatementPlan :=
  .delete { collection := "orders", filter := .isNull ⟨["shipping", "carrier"]⟩ false }

private def missingCarrier : WriteAmbiguity where
  fieldPath := ⟨["shipping", "carrier"]⟩
  kinds := {.missingFromSampledDocuments}
  observedTypes := {.string}
  observedShapes := {.scalar}
  missingDocuments := 1

private def nestedPathAnswer : ResolverResponse where
  contractVersion := "v2"
  schemaProfileVersion := 1
  operation := .delete
  targetPath := ["shipping", "carrier"]
  candidate := .useNestedPath
  confidence := 0.9
  rationale := "the carrier is a nested field"

/-- A resolver that accepts the offered nested path of a `DELETE` is recorded as rejecting. -/
theorem not_givesTrueReasons_deleteByCarrier :
    lowerStatement (.deleteWhere "orders"
        (.isNull (.compoundIdentifier [.new "shipping", .new "carrier"]))) "orders"
        (SchemaProfile.infer shipments) = .ok deleteByCarrier ∧
      detectWriteAmbiguities deleteByCarrier (SchemaProfile.infer shipments) =
        .ok [missingCarrier] ∧
      writeOperation deleteByCarrier = .ok .delete ∧
      ¬ GivesTrueReasons deleteByCarrier (SchemaProfile.infer shipments)
        (fun _ => .ok nestedPathAnswer) 0.8 .delete missingCarrier := by
  refine ⟨rfl, rfl, rfl, fun truthful => ?_⟩
  have validated : validateResolverResponse
      (resolverRequest deleteByCarrier .delete 1 missingCarrier) deleteByCarrier missingCarrier
      nestedPathAnswer 0.8 =
        .ok { fieldPath := missingCarrier.fieldPath, candidate := .useNestedPath } := by
    decide
  have unwritten : SelectsUnwrittenPath deleteByCarrier (SchemaProfile.infer shipments)
      (fun _ => .ok nestedPathAnswer) 0.8 .delete missingCarrier :=
    ⟨nestedPathAnswer, _, rfl, validated, rfl, List.not_mem_nil⟩
  obtain ⟨record, recorded, outcome⟩ := recordsRejection_of_selectsUnwrittenPath unwritten {}
  obtain ⟨added, grown, held⟩ := truthful {}
  have same : [record] = added := List.append_cancel_left (recorded.symm.trans grown)
  subst same
  obtain ⟨other, answered, rejects⟩ := held record List.mem_cons_self _ outcome
  cases answered
  cases rejects

end Example

end Mongres
