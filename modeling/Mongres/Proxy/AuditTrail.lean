import Mongres.Library.Interleaving
import Mongres.Proxy.Backend
import Mongres.Proxy.FailClosed

/-!
# The audit trail of gated writes

A write with ambiguities leaves one record when it ends, whether it was executed or
blocked.  The exception is a response that is accepted with negative zero as its
confidence: it ends in an error without a record.
-/

namespace Mongres

/-! ## Decisions of the gate -/

def gated (plan : StatementPlan) (schema : SchemaProfile) : Bool :=
  match detectWriteAmbiguities plan schema with
  | .ok (_ :: _) => true
  | .ok [] | .error _ => false

/-- A response that resolves the only ambiguity of a write with negative zero as its
confidence. -/
def LosesRecord (plan : StatementPlan) (schema : SchemaProfile) (resolver : Resolver)
    (minimumConfidence : Float) : Prop :=
  ∃ ambiguity operation response resolution resolved,
    detectWriteAmbiguities plan schema = .ok [ambiguity] ∧ writeOperation plan = .ok operation ∧
      hasExecutableCandidate (allowedCandidates plan ambiguity) ∧
      resolver (resolverRequest plan operation schema.profileVersion ambiguity) = .ok response ∧
      validateResolverResponse (resolverRequest plan operation schema.profileVersion ambiguity) plan
        ambiguity response minimumConfidence = .ok resolution ∧
      applyResolution plan resolution = .ok resolved ∧ response.confidence = -0

/-- What the audit records show of a decision about a gated write: a record if it was blocked,
and a context for a later record if it was admitted. -/
inductive Decided (before after : GateState) : Result ResolvedWrite → Prop where
  | blocked {error : ProxyError} {record : AmbiguityAuditRecord} {failure : AuditFailure} :
      record.outcome = .blocked failure →
      after.auditRecords = before.auditRecords ++ [record] → Decided before after (.error error)
  | admitted {write : ResolvedWrite} {context : AuditContext} :
      write.auditContext = some context → after.auditRecords = before.auditRecords →
      Decided before after (.ok write)

section Decisions

variable {plan : StatementPlan} {schema : SchemaProfile} {resolver : Resolver}
  {minimumConfidence : Float}

/-- With one ambiguity, the response decides alone whether a record is lost. -/
theorem losesRecord_iff {operation : WriteOperation} {ambiguity : WriteAmbiguity}
    (detected : detectWriteAmbiguities plan schema = .ok [ambiguity])
    (operates : writeOperation plan = .ok operation) :
    LosesRecord plan schema resolver minimumConfidence ↔
      hasExecutableCandidate (allowedCandidates plan ambiguity) ∧
        ∃ response resolution resolved,
          resolver (resolverRequest plan operation schema.profileVersion ambiguity) =
            .ok response ∧
          validateResolverResponse
            (resolverRequest plan operation schema.profileVersion ambiguity) plan ambiguity response
            minimumConfidence = .ok resolution ∧
          applyResolution plan resolution = .ok resolved ∧ response.confidence = -0 := by
  constructor
  · rintro ⟨other, otherOperation, response, resolution, resolved, otherDetected, otherOperates,
      executable, rest⟩
    cases Except.ok.inj (detected.symm.trans otherDetected)
    cases Except.ok.inj (operates.symm.trans otherOperates)
    exact ⟨executable, response, resolution, resolved, rest⟩
  · rintro ⟨executable, response, resolution, resolved, rest⟩
    exact ⟨ambiguity, operation, response, resolution, resolved, detected, operates, executable,
      rest⟩

theorem decided_of_resolveSingleAmbiguity {operation : WriteOperation} {ambiguity : WriteAmbiguity}
    (bounds : 0 ≤ minimumConfidence ∧ minimumConfidence ≤ 1)
    (detected : detectWriteAmbiguities plan schema = .ok [ambiguity])
    (operates : writeOperation plan = .ok operation) (state : GateState) :
    let decision := resolveSingleAmbiguity plan schema resolver minimumConfidence operation
      ambiguity state
    (¬ LosesRecord plan schema resolver minimumConfidence ∧ Decided state decision.2 decision.1) ∨
      (LosesRecord plan schema resolver minimumConfidence ∧ (∃ error, decision.1 = .error error) ∧
        decision.2.auditRecords = state.auditRecords) := by
  rw [losesRecord_iff detected operates]
  unfold resolveSingleAmbiguity
  dsimp only
  split
  · rename_i notExecutable
    exact .inl ⟨fun lost => notExecutable lost.1, .blocked rfl rfl⟩
  · rename_i executable
    rw [not_not] at executable
    split
    · rename_i error unavailable
      refine .inl ⟨?_, .blocked rfl rfl⟩
      rintro ⟨_, response, _, _, answered, _⟩
      cases unavailable.symm.trans answered
    · rename_i response answered
      split
      · rename_i error rejected
        refine .inl ⟨?_, .blocked rfl rfl⟩
        rintro ⟨_, other, _, _, otherAnswered, validated, _⟩
        cases Except.ok.inj (answered.symm.trans otherAnswered)
        cases rejected.symm.trans validated
      · rename_i resolution validated
        split
        · rename_i error inapplicable
          refine .inl ⟨?_, .blocked rfl rfl⟩
          rintro ⟨_, other, _, _, otherAnswered, otherValidated, applied, _⟩
          cases Except.ok.inj (answered.symm.trans otherAnswered)
          cases Except.ok.inj (validated.symm.trans otherValidated)
          cases inapplicable.symm.trans applied
        · rename_i resolved applied
          have comparable : minimumConfidence.isNaN = false := (Binary64.isNaN_of_le bounds.1).2
          obtain ⟨answers, _⟩ := answers_of_validateResolverResponse operates comparable validated
          have invalid := ResolverConfidence.fromRatio_eq_none_iff answers.finite
            (Binary64.nonnegative_of_le bounds.1 answers.atLeast) answers.atMost
          split
          · rename_i missing
            exact .inr ⟨⟨executable, response, resolution, resolved, answered, validated, applied,
              invalid.mp missing⟩, ⟨_, rfl⟩, rfl⟩
          · rename_i confidence present
            refine .inl ⟨?_, .admitted rfl rfl⟩
            rintro ⟨_, other, _, _, otherAnswered, _, _, negative⟩
            cases Except.ok.inj (answered.symm.trans otherAnswered)
            cases present.symm.trans (invalid.mpr negative)

theorem exists_writeOperation (writes : plan.isWrite = true) :
    ∃ operation, writeOperation plan = .ok operation := by
  cases plan with
  | select plan => cases writes
  | insert plan => exact ⟨_, rfl⟩
  | update plan => exact ⟨_, rfl⟩
  | delete plan => exact ⟨_, rfl⟩

theorem resolveWritePlan_of_error {error : ProxyError}
    (failed : detectWriteAmbiguities plan schema = .error error) (state : GateState) :
    resolveWritePlan plan schema resolver minimumConfidence state = (.error error, state) := by
  unfold resolveWritePlan
  rw [failed]

theorem resolveWritePlan_of_clear (clear : detectWriteAmbiguities plan schema = .ok [])
    (state : GateState) :
    resolveWritePlan plan schema resolver minimumConfidence state =
      (.ok { plan, auditContext := none }, state) := by
  unfold resolveWritePlan
  rw [clear]

theorem decided_of_resolveWritePlan {first : WriteAmbiguity} {others : List WriteAmbiguity}
    (bounds : 0 ≤ minimumConfidence ∧ minimumConfidence ≤ 1) (writes : plan.isWrite = true)
    (detected : detectWriteAmbiguities plan schema = .ok (first :: others)) (state : GateState) :
    let decision := resolveWritePlan plan schema resolver minimumConfidence state
    (¬ LosesRecord plan schema resolver minimumConfidence ∧ Decided state decision.2 decision.1) ∨
      (LosesRecord plan schema resolver minimumConfidence ∧ (∃ error, decision.1 = .error error) ∧
        decision.2.auditRecords = state.auditRecords) := by
  obtain ⟨operation, operates⟩ := exists_writeOperation writes
  unfold resolveWritePlan
  rw [detected]
  dsimp only
  rw [operates]
  dsimp only
  cases others with
  | nil => exact decided_of_resolveSingleAmbiguity bounds detected operates state
  | cons second others =>
      refine .inl ⟨?_, .blocked rfl rfl⟩
      rintro ⟨_, _, _, _, _, single, _⟩
      cases detected.symm.trans single

end Decisions

/-! ## One run -/

/-- A record of how a run ended: with the counts that the executor answered, or blocked. -/
def AmbiguityAuditRecord.Reports (record : AmbiguityAuditRecord) (driver : Driver)
    (calls after : List DriverCall) : Result ExecutionResult → Prop
  | .ok result => ∃ plan outcome, executeWrite driver plan calls = (.ok outcome, after) ∧
      (commandResult plan outcome).map ExecutionResult.command = some result ∧
      record.outcome = .executed
        { matched := outcome.matched
          modified := outcome.modified
          inserted := outcome.inserted
          deleted := outcome.deleted }
  | .error _ => ∃ failure, record.outcome = .blocked failure

theorem isSome_commandResult {plan : StatementPlan} (writes : plan.isWrite = true)
    (outcome : WriteOutcome) : ∃ result, commandResult plan outcome = some result := by
  cases plan with
  | select plan => cases writes
  | insert plan => exact ⟨_, rfl⟩
  | update plan => exact ⟨_, rfl⟩
  | delete plan => exact ⟨_, rfl⟩

theorem isWrite_of_resolveWritePlan {plan : StatementPlan} {schema : SchemaProfile}
    {resolver : Resolver} {minimumConfidence : Float} {state after : GateState}
    {write : ResolvedWrite} (writes : plan.isWrite = true)
    (passes : resolveWritePlan plan schema resolver minimumConfidence state = (.ok write, after)) :
    write.plan.isWrite = true := by
  cases passed_of_resolveWritePlan passes with
  | clear detected => exact writes
  | resolved operation ambiguity response write detected operates answered validated applies =>
      have effect := applies.effect
      cases candidate : response.candidate with
      | reject =>
          rw [candidate] at effect
          exact effect.elim
      | parseIntegerLosslessly =>
          rw [candidate] at effect
          obtain ⟨_, _, _, _, same⟩ := effect
          rw [same]
          rfl
      | formatIntegerAsString =>
          rw [candidate] at effect
          obtain ⟨_, _, _, _, same⟩ := effect
          rw [same]
          rfl
      | _ =>
          rw [candidate] at effect
          exact (congrArg StatementPlan.isWrite effect).trans writes

def completed (plan : StatementPlan) (outcome : WriteOutcome) : Result ExecutionResult :=
  match commandResult plan outcome with
  | some result => .ok (.command result)
  | none => .error ⟨.featureNotSupported, "SELECT is not a command result"⟩

section Run

variable (backend : ProxyBackend) (services : Services) {plan : StatementPlan}
  {schema : SchemaProfile}

theorem executePlan_of_error {error : ProxyError} {gate : GateState} {state : BackendState}
    (writes : plan.isWrite = true)
    (found : backend.profiles[collectionFromPlan plan]? = some schema)
    (decided : resolveWritePlan plan schema services.resolver backend.resolverMinimumConfidence
      state.gate = (.error error, gate)) :
    backend.executePlan services plan state = (.error error, { state with gate }) := by
  have known : schemaForPlanFromProfiles plan backend.profiles = .ok schema :=
    Fallible.okOr_eq_ok_iff.mpr found
  cases plan with
  | select plan => cases writes
  | _ =>
      unfold ProxyBackend.executePlan
      dsimp only
      rw [known]
      dsimp only
      rw [decided]

theorem executePlan_of_ok {write : ResolvedWrite} {gate : GateState} {state : BackendState}
    (writes : plan.isWrite = true)
    (found : backend.profiles[collectionFromPlan plan]? = some schema)
    (decided : resolveWritePlan plan schema services.resolver backend.resolverMinimumConfidence
      state.gate = (.ok write, gate)) :
    backend.executePlan services plan state =
      match executeWrite services.driver write.plan state.calls with
      | (.error error, calls) => (.error error, { state with
          gate := recordMongoExecutionFailure schema write.auditContext gate
          calls })
      | (.ok outcome, calls) => (completed write.plan outcome, { state with
          gate := recordExecution schema write.auditContext outcome gate
          calls }) := by
  have known : schemaForPlanFromProfiles plan backend.profiles = .ok schema :=
    Fallible.okOr_eq_ok_iff.mpr found
  cases plan with
  | select plan => cases writes
  | _ =>
      unfold ProxyBackend.executePlan
      dsimp only
      rw [known]
      dsimp only
      rw [decided]
      dsimp only
      rcases executeWrite services.driver write.plan state.calls with ⟨error | outcome, calls⟩
      · rfl
      · unfold completed
        dsimp only
        cases commandResult write.plan outcome <;> rfl

theorem unrecorded_of_clear (writes : plan.isWrite = true)
    (found : backend.profiles[collectionFromPlan plan]? = some schema)
    (clear : detectWriteAmbiguities plan schema = .ok []) (state : BackendState) :
    (backend.executePlan services plan state).2.gate.auditRecords = state.gate.auditRecords := by
  rw [executePlan_of_ok backend services writes found (resolveWritePlan_of_clear clear state.gate)]
  rcases executeWrite services.driver plan state.calls with ⟨error | outcome, calls⟩ <;> rfl

theorem reports_of_admitted {write : ResolvedWrite} {gate : GateState} {state : BackendState}
    (writes : plan.isWrite = true)
    (found : backend.profiles[collectionFromPlan plan]? = some schema)
    (decided : resolveWritePlan plan schema services.resolver backend.resolverMinimumConfidence
      state.gate = (.ok write, gate))
    (outcome : Decided state.gate gate (.ok write)) :
    let ended := backend.executePlan services plan state
    ∃ record, ended.2.gate.auditRecords = state.gate.auditRecords ++ [record] ∧
      record.Reports services.driver state.calls ended.2.calls ended.1 := by
  rw [executePlan_of_ok backend services writes found decided]
  have stillWrites := isWrite_of_resolveWritePlan writes decided
  cases outcome with
  | admitted context unchanged =>
      rcases ran : executeWrite services.driver write.plan state.calls with
        ⟨error | outcome, calls⟩
      · rw [context]
        exact ⟨_, congrArg (· ++ _) unchanged, _, rfl⟩
      · obtain ⟨result, tagged⟩ := isSome_commandResult stillWrites outcome
        rw [context]
        dsimp only
        rw [completed, tagged]
        exact ⟨_, congrArg (· ++ _) unchanged, write.plan, outcome, ran,
          congrArg (Option.map _) tagged, rfl⟩

/-- A gated write appends exactly one record, of what it answered, unless it loses it; a clear
one appends none. -/
theorem executePlan_records {ambiguities : List WriteAmbiguity} (writes : plan.isWrite = true)
    (found : backend.profiles[collectionFromPlan plan]? = some schema)
    (detected : detectWriteAmbiguities plan schema = .ok ambiguities) (state : BackendState) :
    let ended := backend.executePlan services plan state
    (ambiguities = [] → ended.2.gate.auditRecords = state.gate.auditRecords) ∧
      (ambiguities ≠ [] →
        ((∃ record, ended.2.gate.auditRecords = state.gate.auditRecords ++ [record] ∧
            record.Reports services.driver state.calls ended.2.calls ended.1) ↔
          ¬ LosesRecord plan schema services.resolver backend.resolverMinimumConfidence)) := by
  dsimp only
  cases ambiguities with
  | nil =>
      exact ⟨fun _ => unrecorded_of_clear backend services writes found detected state,
        fun some => absurd rfl some⟩
  | cons first others =>
      refine ⟨fun none => absurd none (List.cons_ne_nil _ _), fun _ => ?_⟩
      have decision := @decided_of_resolveWritePlan plan schema services.resolver _ first others
        backend.confidenceBounds writes detected state.gate
      rcases decided : resolveWritePlan plan schema services.resolver
        backend.resolverMinimumConfidence state.gate with ⟨error | write, gate⟩
      · rw [executePlan_of_error backend services writes found decided]
        rw [decided] at decision
        rcases decision with ⟨kept, outcome⟩ | ⟨lost, _, unchanged⟩
        · cases outcome with
          | blocked failed recorded => exact iff_of_true ⟨_, recorded, _, failed⟩ kept
        · refine iff_of_false ?_ (not_not_intro lost)
          rintro ⟨record, recorded, _⟩
          rw [unchanged] at recorded
          exact List.cons_ne_nil _ _ (List.self_eq_append_right.mp recorded)
      · rw [decided] at decision
        rcases decision with ⟨kept, outcome⟩ | ⟨_, ⟨_, impossible⟩, _⟩
        · exact iff_of_true (reports_of_admitted backend services writes found decided outcome) kept
        · cases impossible

end Run

/-! ## Runs in any order -/

/-- A run of a write between two accesses of the shared records: before its decision, before
the answer of the executor, or at its end. -/
inductive WriteRun where
  | waiting (plan : StatementPlan) (schema : SchemaProfile)
  | writing (plan : StatementPlan) (schema : SchemaProfile) (write : ResolvedWrite)
      (audited : write.auditContext.isSome = gated plan schema)
  | finished (plan : StatementPlan) (schema : SchemaProfile) (result : Result ExecutionResult)

namespace WriteRun

def isGated : WriteRun → Bool
  | waiting plan schema => gated plan schema
  | writing plan schema _ _ => gated plan schema
  | finished plan schema _ => gated plan schema

def isFinished : WriteRun → Bool
  | finished _ _ _ => true
  | waiting _ _ | writing _ _ _ _ => false

/-- A move of a run, with any behaviour of the resolver that is allowed and any answer of the
executor.  Waiting for either of them touches nothing that is shared. -/
inductive Move (minimumConfidence : Float)
    (allowed : StatementPlan → SchemaProfile → Resolver → Prop) :
    WriteRun × GateState → WriteRun × GateState → Prop where
  | refuse {plan schema resolver error gate after} : plan.isWrite = true →
      allowed plan schema resolver →
      resolveWritePlan plan schema resolver minimumConfidence gate = (.error error, after) →
      Move minimumConfidence allowed (waiting plan schema, gate)
        (finished plan schema (.error error), after)
  | pass {plan schema resolver write gate after audited} : plan.isWrite = true →
      allowed plan schema resolver →
      resolveWritePlan plan schema resolver minimumConfidence gate = (.ok write, after) →
      Move minimumConfidence allowed (waiting plan schema, gate)
        (writing plan schema write audited, after)
  | fail {plan schema write audited gate} (error : ProxyError) :
      Move minimumConfidence allowed (writing plan schema write audited, gate)
        (finished plan schema (.error error),
          recordMongoExecutionFailure schema write.auditContext gate)
  | complete {plan schema write audited gate} (outcome : WriteOutcome) :
      Move minimumConfidence allowed (writing plan schema write audited, gate)
        (finished plan schema (completed write.plan outcome),
          recordExecution schema write.auditContext outcome gate)

/-- Whether a run has left its record: it was gated and has ended. -/
def isRecorded (run : WriteRun) : Bool := run.isFinished && run.isGated

end WriteRun

theorem length_recordCompletion (schema : SchemaProfile) (context : Option AuditContext)
    (outcome : AuditOutcome) (gate : GateState) :
    (recordCompletion schema context outcome gate).auditRecords.length =
      gate.auditRecords.length + context.isSome.toNat := by
  cases context with
  | none => rfl
  | some context => exact List.length_append

section Moves

variable {plan : StatementPlan} {schema : SchemaProfile} {resolver : Resolver}
  {minimumConfidence : Float} {gate after : GateState}

theorem audited_of_resolveWritePlan {write : ResolvedWrite}
    (bounds : 0 ≤ minimumConfidence ∧ minimumConfidence ≤ 1) (writes : plan.isWrite = true)
    (passes : resolveWritePlan plan schema resolver minimumConfidence gate = (.ok write, after)) :
    write.auditContext.isSome = gated plan schema ∧ after.auditRecords = gate.auditRecords := by
  cases detected : detectWriteAmbiguities plan schema with
  | error error =>
      cases (resolveWritePlan_of_error detected gate).symm.trans passes
  | ok ambiguities =>
      cases ambiguities with
      | nil =>
          cases (resolveWritePlan_of_clear detected gate).symm.trans passes
          rw [gated, detected]
          exact ⟨rfl, rfl⟩
      | cons first others =>
          have decision := @decided_of_resolveWritePlan plan schema resolver _ first others bounds
            writes detected gate
          rw [passes] at decision
          rw [gated, detected]
          rcases decision with ⟨_, outcome⟩ | ⟨_, ⟨_, impossible⟩, _⟩
          · cases outcome with
            | admitted context unchanged => exact ⟨by rw [context]; rfl, unchanged⟩
          · cases impossible

theorem length_of_resolveWritePlan {error : ProxyError}
    (bounds : 0 ≤ minimumConfidence ∧ minimumConfidence ≤ 1) (writes : plan.isWrite = true)
    (kept : ¬ LosesRecord plan schema resolver minimumConfidence)
    (refuses : resolveWritePlan plan schema resolver minimumConfidence gate = (.error error, after)) :
    after.auditRecords.length = gate.auditRecords.length + (gated plan schema).toNat := by
  cases detected : detectWriteAmbiguities plan schema with
  | error error =>
      cases (resolveWritePlan_of_error detected gate).symm.trans refuses
      rw [gated, detected]
      rfl
  | ok ambiguities =>
      cases ambiguities with
      | nil =>
          cases (resolveWritePlan_of_clear detected gate).symm.trans refuses
      | cons first others =>
          have decision := @decided_of_resolveWritePlan plan schema resolver _ first others bounds
            writes detected gate
          rw [refuses] at decision
          rw [gated, detected]
          rcases decision with ⟨_, outcome⟩ | ⟨lost, _⟩
          · cases outcome with
            | blocked failed recorded =>
                exact (congrArg List.length recorded).trans List.length_append
          · exact absurd lost kept

end Moves

/-- Every move changes the number of records by what its run leaves. -/
theorem WriteRun.Move.balanced {minimumConfidence : Float} {run next : WriteRun}
    {gate after : GateState} (bounds : 0 ≤ minimumConfidence ∧ minimumConfidence ≤ 1)
    (moved : Move minimumConfidence
      (fun plan schema resolver => ¬ LosesRecord plan schema resolver minimumConfidence)
      (run, gate) (next, after)) :
    after.auditRecords.length + run.isRecorded.toNat =
        gate.auditRecords.length + next.isRecorded.toNat ∧
      next.isGated = run.isGated := by
  cases moved with
  | refuse writes kept refuses =>
      exact ⟨length_of_resolveWritePlan bounds writes kept refuses, rfl⟩
  | pass writes _ passes =>
      exact ⟨congrArg List.length (audited_of_resolveWritePlan bounds writes passes).2, rfl⟩
  | @fail plan schema write audited _ error =>
      refine ⟨(length_recordCompletion schema _ _ _).trans ?_, rfl⟩
      rw [audited]
      rfl
  | @complete plan schema write audited _ outcome =>
      refine ⟨(length_recordCompletion schema _ _ _).trans ?_, rfl⟩
      rw [audited]
      rfl

/-- A call of `execute_plan` is a run of its write alone. -/
theorem ProxyBackend.executePlan_runs (backend : ProxyBackend) (services : Services)
    {plan : StatementPlan} {schema : SchemaProfile}
    {allowed : StatementPlan → SchemaProfile → Resolver → Prop} (writes : plan.isWrite = true)
    (found : backend.profiles[collectionFromPlan plan]? = some schema)
    (permitted : allowed plan schema services.resolver) (state : BackendState) :
    Interleaving.Runs (WriteRun.Move backend.resolverMinimumConfidence allowed)
      ([.waiting plan schema], state.gate)
      ([.finished plan schema (backend.executePlan services plan state).1],
        (backend.executePlan services plan state).2.gate) := by
  apply Interleaving.Runs.alone
  rcases decided : resolveWritePlan plan schema services.resolver backend.resolverMinimumConfidence
    state.gate with ⟨error | write, gate⟩
  · rw [executePlan_of_error backend services writes found decided]
    exact .single (.refuse writes permitted decided)
  · rw [executePlan_of_ok backend services writes found decided]
    have audited := (audited_of_resolveWritePlan backend.confidenceBounds writes decided).1
    have admitted : WriteRun.Move backend.resolverMinimumConfidence allowed
        (.waiting plan schema, state.gate) (.writing plan schema write audited, gate) :=
      .pass writes permitted decided
    apply Relation.ReflTransGen.head admitted
    rcases executeWrite services.driver write.plan state.calls with ⟨error | outcome, calls⟩
    · exact .single (.fail error)
    · exact .single (.complete outcome)

/-- However runs take turns, the records count the gated ones that have ended. -/
theorem records_of_runs {minimumConfidence : Float}
    (bounds : 0 ≤ minimumConfidence ∧ minimumConfidence ≤ 1) {runs reached : List WriteRun}
    {gate after : GateState} (waiting : ∀ run ∈ runs, run.isFinished = false)
    (run : Interleaving.Runs (WriteRun.Move minimumConfidence
      fun plan schema resolver => ¬ LosesRecord plan schema resolver minimumConfidence)
      (runs, gate) (reached, after)) :
    after.auditRecords.length = gate.auditRecords.length + reached.countP WriteRun.isRecorded ∧
      ((∀ run ∈ reached, run.isFinished = true) →
        after.auditRecords.length = gate.auditRecords.length + runs.countP WriteRun.isGated) := by
  have none : runs.countP WriteRun.isRecorded = 0 := by
    rw [List.countP_eq_zero]
    intro process membership
    simp [WriteRun.isRecorded, waiting process membership]
  have balance := @Interleaving.Runs.balanced _ _ _ _ _
    (fun state : GateState => state.auditRecords.length) WriteRun.isRecorded
    (fun _ _ _ _ moved => (WriteRun.Move.balanced bounds moved).1) run
  have kept := @Interleaving.Runs.map_eq _ _ _ _ _ _ WriteRun.isGated
    (fun _ _ _ _ moved => (WriteRun.Move.balanced bounds moved).2) run
  dsimp only at balance kept
  rw [none, Nat.add_zero] at balance
  refine ⟨balance, ?_⟩
  intro finished
  have all : reached.countP WriteRun.isRecorded = reached.countP WriteRun.isGated := by
    apply List.countP_congr
    intro process membership
    simp [WriteRun.isRecorded, finished process membership]
  have counts := congrArg (List.countP id) kept
  rw [List.countP_map, List.countP_map] at counts
  exact balance.trans (congrArg _ (all.trans counts))

/-- A run of a gated write appends exactly one record, of how it ended, unless it loses it, and a
clear one appends none.  So in any order of runs that lose none, the records count the gated
writes that have ended. -/
theorem recorded_of_gatedWrites (backend : ProxyBackend) :
    (∀ (services : Services) (plan : StatementPlan) (schema : SchemaProfile)
        (ambiguities : List WriteAmbiguity) (state : BackendState), plan.isWrite = true →
      backend.profiles[collectionFromPlan plan]? = some schema →
      detectWriteAmbiguities plan schema = .ok ambiguities →
      let ended := backend.executePlan services plan state
      (ambiguities = [] → ended.2.gate.auditRecords = state.gate.auditRecords) ∧
        (ambiguities ≠ [] →
          ((∃ record, ended.2.gate.auditRecords = state.gate.auditRecords ++ [record] ∧
              record.Reports services.driver state.calls ended.2.calls ended.1) ↔
            ¬ LosesRecord plan schema services.resolver backend.resolverMinimumConfidence))) ∧
      ∀ (runs reached : List WriteRun) (gate after : GateState),
        (∀ run ∈ runs, run.isFinished = false) →
        Interleaving.Runs (WriteRun.Move backend.resolverMinimumConfidence
            fun plan schema resolver =>
              ¬ LosesRecord plan schema resolver backend.resolverMinimumConfidence)
          (runs, gate) (reached, after) →
        after.auditRecords.length = gate.auditRecords.length + reached.countP WriteRun.isRecorded ∧
          ((∀ run ∈ reached, run.isFinished = true) →
            after.auditRecords.length =
              gate.auditRecords.length + runs.countP WriteRun.isGated) := by
  constructor
  · intro services plan schema ambiguities state writes found detected
    exact executePlan_records backend services writes found detected state
  · intro runs reached gate after waiting run
    exact records_of_runs backend.confidenceBounds waiting run

section Example

private def agedSchema : SchemaProfile :=
  SchemaProfile.infer
    [{ fields := [("age", .integer 36), ("name", .string "ada")] },
      { fields := [("age", .string "41"), ("name", .string "alan")] }]

private def agedProfiles : CollectionProfiles := Std.TreeMap.ofList [("people", agedSchema)]

private def agedBackend : ProxyBackend where
  databaseName := "app"
  profiles := agedProfiles
  catalog := projectPublicCollections agedProfiles
  resolverMinimumConfidence := 0
  projected := rfl
  confidenceBounds := by decide

/-- `UPDATE people SET age = '41' WHERE name = 'alan'` -/
private def keepAge : StatementPlan :=
  .update
    { collection := "people"
      assignments := [{ path := ⟨["age"]⟩, value := .string "41" }]
      filter := .compare ⟨["name"]⟩ .equal (.string "alan") }

/-- Every request is answered with one confidence, and every update matches one document. -/
private def agedServices (confidence : Float) : Services where
  parser := fun _ => .error "unused"
  driver :=
    { find := fun _ _ _ _ => .ok []
      insertOne := fun _ _ => .ok ()
      insertMany := fun _ _ => .ok 0
      updateMany := fun _ _ _ => .ok (1, 1)
      deleteMany := fun _ _ => .ok 0 }
  resolver := fun request => .ok
    { contractVersion := request.contractVersion
      schemaProfileVersion := request.schemaProfileVersion
      operation := request.operation
      targetPath := request.targetPath
      candidate := .keepString
      confidence
      rationale := "the text stays" }
  bsonText :=
    { display := fun _ => ""
      extendedJson := fun _ => ""
      hex := fun _ => "" }

theorem recorded_keepAge :
    ∃ record, (agedBackend.executePlan (agedServices 0.95) keepAge {}).2.gate.auditRecords =
        [] ++ [record] ∧
      record.Reports (agedServices 0.95).driver []
        (agedBackend.executePlan (agedServices 0.95) keepAge {}).2.calls
        (agedBackend.executePlan (agedServices 0.95) keepAge {}).1 := by
  obtain ⟨ambiguities, detected, gated⟩ : ∃ ambiguities,
      detectWriteAmbiguities keepAge agedSchema = .ok ambiguities ∧ ambiguities ≠ [] :=
    ⟨_, rfl, List.cons_ne_nil _ _⟩
  have recorded := ((recorded_of_gatedWrites agedBackend).1 (agedServices 0.95) keepAge agedSchema
    ambiguities {} rfl rfl detected).2 gated
  apply recorded.mpr
  rintro ⟨_, _, response, _, _, _, _, _, answered, _, _, negative⟩
  cases Except.ok.inj answered
  have positive : (0.95 : Float) ≠ -0 := by decide
  exact positive negative

/-- Negative zero passes as a confidence of at least zero, and leaves no record. -/
theorem not_recorded_keepAge :
    keepAge.isWrite = true ∧ agedBackend.profiles[collectionFromPlan keepAge]? = some agedSchema ∧
      gated keepAge agedSchema = true ∧
      ¬ ∃ record, (agedBackend.executePlan (agedServices (-0)) keepAge {}).2.gate.auditRecords =
          [] ++ [record] ∧
        record.Reports (agedServices (-0)).driver []
          (agedBackend.executePlan (agedServices (-0)) keepAge {}).2.calls
          (agedBackend.executePlan (agedServices (-0)) keepAge {}).1 := by
  refine ⟨rfl, rfl, rfl, ?_⟩
  rintro ⟨record, recorded, _⟩
  have unrecorded :
      (agedBackend.executePlan (agedServices (-0)) keepAge {}).2.gate.auditRecords = [] := rfl
  rw [unrecorded] at recorded
  cases recorded

end Example

end Mongres
