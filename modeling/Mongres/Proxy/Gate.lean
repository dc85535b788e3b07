import Mongres.Policy.Audit

/-!
# The write gate

Resolution of a write plan at the proxy boundary: detection, at most one call of
the resolver, strict validation of its response, and one audit record for every
refused write.
-/

namespace Mongres

open Fallible

/-- What the gate reads and appends to: the audit records, and the requests that
the resolver has received. -/
structure GateState where
  auditRecords : List AmbiguityAuditRecord := []
  consulted : List ResolverRequest := []
  deriving DecidableEq

/-- The behaviour of the resolver service: a response or a transport error. -/
abbrev Resolver := ResolverRequest → Result ResolverResponse

/-- Redacted state carried from a validated decision until the executor is done. -/
structure AuditContext where
  operation : AuditOperation
  ambiguities : List RedactedAmbiguity
  allowedCandidates : Finset ResolutionCandidate
  selectedCandidate : ResolutionCandidate
  confidence : ResolverConfidence
  deriving DecidableEq

/-- A typed write plan after any required decision has been validated. -/
structure ResolvedWrite where
  plan : StatementPlan
  auditContext : Option AuditContext

def auditOperation : WriteOperation → AuditOperation
  | .insert => .insert
  | .update => .update
  | .delete => .delete

def hasExecutableCandidate (candidates : Finset ResolutionCandidate) : Prop :=
  .useNestedPath ∈ candidates ∨ .keepString ∈ candidates ∨ .parseIntegerLosslessly ∈ candidates ∨
    .keepInteger ∈ candidates ∨ .formatIntegerAsString ∈ candidates

instance (candidates : Finset ResolutionCandidate) : Decidable (hasExecutableCandidate candidates) :=
  inferInstanceAs (Decidable (_ ∨ _ ∨ _ ∨ _ ∨ _))

def GateState.record (state : GateState) (entry : AmbiguityAuditRecord) : GateState :=
  { state with auditRecords := state.auditRecords ++ [entry] }

def recordBlocked (schema : SchemaProfile) (operation : AuditOperation)
    (ambiguities : List WriteAmbiguity) (allowedCandidates : Finset ResolutionCandidate)
    (failure : AuditFailure) (state : GateState) : GateState :=
  state.record
    { schemaProfileVersion := schema.profileVersion
      operation
      ambiguities := ambiguities.map WriteAmbiguity.redacted
      allowedCandidates
      selectedCandidate := none
      confidence := none
      outcome := .blocked failure }

def validationFailure (request : ResolverRequest) (response : ResolverResponse)
    (minimumConfidence : Float) : AuditFailure :=
  if response.schemaProfileVersion ≠ request.schemaProfileVersion then .staleSchemaProfile
  else if response.confidence.isFinite = false ∨ response.confidence < minimumConfidence
      ∨ response.confidence > 1 then .lowConfidence
  else .invalidResolverResponse

def resolveSingleAmbiguity (plan : StatementPlan) (schema : SchemaProfile) (resolver : Resolver)
    (minimumConfidence : Float) (operation : WriteOperation) (ambiguity : WriteAmbiguity)
    (state : GateState) : Result ResolvedWrite × GateState :=
  let request := resolverRequest plan operation schema.profileVersion ambiguity
  let blocked (failure : AuditFailure) : GateState → GateState :=
    recordBlocked schema (auditOperation operation) [ambiguity] request.allowedCandidates failure
  if ¬ hasExecutableCandidate request.allowedCandidates then
    (.error (unresolvedWriteError [ambiguity]), blocked .noSafeResolution state)
  else
    let state := { state with consulted := state.consulted ++ [request] }
    match resolver request with
    | .error error => (.error error, blocked .resolverUnavailable state)
    | .ok response =>
        match validateResolverResponse request plan ambiguity response minimumConfidence with
        | .error error =>
            (.error error, blocked (validationFailure request response minimumConfidence) state)
        | .ok resolution =>
            match applyResolution plan resolution with
            | .error error => (.error error, blocked .resolverRejected state)
            | .ok resolvedPlan =>
                match ResolverConfidence.fromRatio response.confidence with
                | none => (.error (ambiguousWrite
                    "validated resolver response has an invalid confidence value"), state)
                | some confidence =>
                    (.ok
                      { plan := resolvedPlan
                        auditContext := some
                          { operation := auditOperation operation
                            ambiguities := [ambiguity.redacted]
                            allowedCandidates := request.allowedCandidates
                            selectedCandidate := resolution.candidate
                            confidence } }, state)

/-- Resolves the one supported ambiguity of a write; any other is recorded and refused. -/
def resolveWritePlan (plan : StatementPlan) (schema : SchemaProfile) (resolver : Resolver)
    (minimumConfidence : Float) (state : GateState) : Result ResolvedWrite × GateState :=
  match detectWriteAmbiguities plan schema with
  | .error error => (.error error, state)
  | .ok [] => (.ok { plan, auditContext := none }, state)
  | .ok ambiguities =>
      match writeOperation plan with
      | .error error => (.error error, state)
      | .ok operation =>
          match ambiguities with
          | [ambiguity] =>
              resolveSingleAmbiguity plan schema resolver minimumConfidence operation ambiguity state
          | ambiguities =>
              (.error (unresolvedWriteError ambiguities),
                recordBlocked schema (auditOperation operation) ambiguities {.reject}
                  .noSafeResolution state)

/-! ## What passes the gate -/

/-- How a write passes the gate: it is clear and unchanged, or its one ambiguity
was resolved by a response that answers for it. -/
inductive Passed (plan : StatementPlan) (schema : SchemaProfile) (resolver : Resolver)
    (minimumConfidence : Float) (state : GateState) : ResolvedWrite → GateState → Prop
  | clear (detected : detectWriteAmbiguities plan schema = .ok []) :
      Passed plan schema resolver minimumConfidence state { plan, auditContext := none } state
  | resolved (operation : WriteOperation) (ambiguity : WriteAmbiguity) (response : ResolverResponse)
      (write : ResolvedWrite)
      (detected : detectWriteAmbiguities plan schema = .ok [ambiguity])
      (operates : writeOperation plan = .ok operation)
      (answered : resolver (resolverRequest plan operation schema.profileVersion ambiguity) =
        .ok response)
      (validated : validateResolverResponse
        (resolverRequest plan operation schema.profileVersion ambiguity) plan ambiguity response
        minimumConfidence = .ok { fieldPath := ambiguity.fieldPath, candidate := response.candidate })
      (applies : response.candidate.Applies plan ambiguity.fieldPath write.plan) :
      Passed plan schema resolver minimumConfidence state write
        { state with consulted := state.consulted ++
            [resolverRequest plan operation schema.profileVersion ambiguity] }

theorem passed_of_resolveSingleAmbiguity {plan : StatementPlan} {schema : SchemaProfile}
    {resolver : Resolver} {minimumConfidence : Float} {operation : WriteOperation}
    {ambiguity : WriteAmbiguity} {state after : GateState} {write : ResolvedWrite}
    (detected : detectWriteAmbiguities plan schema = .ok [ambiguity])
    (operates : writeOperation plan = .ok operation)
    (passes : resolveSingleAmbiguity plan schema resolver minimumConfidence operation ambiguity
      state = (.ok write, after)) :
    Passed plan schema resolver minimumConfidence state write after := by
  unfold resolveSingleAmbiguity at passes
  dsimp only at passes
  split at passes
  · cases passes
  · split at passes
    · cases passes
    · rename_i response answered
      split at passes
      · cases passes
      · rename_i resolution validated
        have selected : resolution =
            { fieldPath := ambiguity.fieldPath, candidate := response.candidate } := by
          rw [validateResolverResponse, ite_error_eq_ok_iff,
            validateResolution_eq_ok_iff] at validated
          exact validated.2.2
        subst selected
        split at passes
        · cases passes
        · rename_i resolvedPlan applied
          split at passes
          · cases passes
          · cases passes
            apply Passed.resolved operation ambiguity response _ detected operates answered validated
            exact applyResolution_eq_ok_iff.mp applied

theorem passed_of_resolveWritePlan {plan : StatementPlan} {schema : SchemaProfile}
    {resolver : Resolver} {minimumConfidence : Float} {state after : GateState}
    {write : ResolvedWrite}
    (passes : resolveWritePlan plan schema resolver minimumConfidence state = (.ok write, after)) :
    Passed plan schema resolver minimumConfidence state write after := by
  unfold resolveWritePlan at passes
  split at passes
  · cases passes
  · rename_i detected
    cases passes
    exact .clear detected
  · rename_i ambiguities someAmbiguities detected
    split at passes
    · cases passes
    · rename_i operation operates
      split at passes
      · exact passed_of_resolveSingleAmbiguity detected operates passes
      · cases passes

end Mongres
