import Mongres.Library.Task
import Mongres.Proxy.AuditTrail

/-!
# Statements as tasks

The functions of the proxy that wait, as tasks: they ask the resolver, call the driver, and note
audit records and diagnostics.  On its own, each task does what the statement does that is
executed in one go.
-/

namespace Mongres

open Fallible

def DriverCall.Answer : DriverCall → Type
  | find _ _ _ _ => List Document
  | insertOne _ _ => Unit
  | insertMany _ _ => UInt64
  | updateMany _ _ _ => UInt64 × UInt64
  | deleteMany _ _ => UInt64

def Driver.answer (driver : Driver) : (call : DriverCall) → Except String call.Answer
  | .find collection filter projection limit => driver.find collection filter projection limit
  | .insertOne collection document => driver.insertOne collection document
  | .insertMany collection documents => driver.insertMany collection documents
  | .updateMany collection filter update => driver.updateMany collection filter update
  | .deleteMany collection filter => driver.deleteMany collection filter

/-- What a statement leaves behind beside its effects on the database. -/
inductive ProxyNote where
  | consulted (request : ResolverRequest)
  | audited (entry : AmbiguityAuditRecord)
  | logged (text : String)
  deriving DecidableEq

namespace ProxyNote

@[simp]
def consulted? : ProxyNote → Option ResolverRequest
  | consulted request => some request
  | audited _ | logged _ => none

@[simp]
def audited? : ProxyNote → Option AmbiguityAuditRecord
  | audited entry => some entry
  | consulted _ | logged _ => none

@[simp]
def logged? : ProxyNote → Option String
  | logged text => some text
  | consulted _ | audited _ => none

end ProxyNote

/-- A call of the driver is an action on the database; the resolver is asked. -/
abbrev outside : Interface where
  Question := ResolverRequest
  Answer := Result ResolverResponse
  Action := DriverCall
  Outcome call := Except String call.Answer
  Note := ProxyNote

namespace Async

/-! ## The write gate -/

def recordBlocked (schema : SchemaProfile) (operation : AuditOperation)
    (ambiguities : List WriteAmbiguity) (allowedCandidates : Finset ResolutionCandidate)
    (failure : AuditFailure) : ProxyNote :=
  .audited
    { schemaProfileVersion := schema.profileVersion
      operation
      ambiguities := ambiguities.map WriteAmbiguity.redacted
      allowedCandidates
      selectedCandidate := none
      confidence := none
      outcome := .blocked failure }

def resolveSingleAmbiguity (plan : StatementPlan) (schema : SchemaProfile)
    (minimumConfidence : Float) (operation : WriteOperation) (ambiguity : WriteAmbiguity) :
    Task outside (Result ResolvedWrite) :=
  let request := resolverRequest plan operation schema.profileVersion ambiguity
  let blocked (failure : AuditFailure) (error : ProxyError) :
      Task outside (Result ResolvedWrite) :=
    .note (recordBlocked schema (auditOperation operation) [ambiguity] request.allowedCandidates
      failure) (.done (.error error))
  if ¬ hasExecutableCandidate request.allowedCandidates then
    blocked .noSafeResolution (unresolvedWriteError [ambiguity])
  else
    .note (.consulted request) <| .ask request fun
      | .error error => blocked .resolverUnavailable error
      | .ok response =>
          match validateResolverResponse request plan ambiguity response minimumConfidence with
          | .error error => blocked (validationFailure request response minimumConfidence) error
          | .ok resolution =>
              match applyResolution plan resolution with
              | .error error => blocked .resolverRejected error
              | .ok resolvedPlan =>
                  match ResolverConfidence.fromRatio response.confidence with
                  | none => .done (.error (ambiguousWrite
                      "validated resolver response has an invalid confidence value"))
                  | some confidence => .done (.ok
                      { plan := resolvedPlan
                        auditContext := some
                          { operation := auditOperation operation
                            ambiguities := [ambiguity.redacted]
                            allowedCandidates := request.allowedCandidates
                            selectedCandidate := resolution.candidate
                            confidence } })

def resolveWritePlan (plan : StatementPlan) (schema : SchemaProfile) (minimumConfidence : Float) :
    Task outside (Result ResolvedWrite) :=
  match detectWriteAmbiguities plan schema with
  | .error error => .done (.error error)
  | .ok [] => .done (.ok { plan, auditContext := none })
  | .ok ambiguities =>
      match writeOperation plan with
      | .error error => .done (.error error)
      | .ok operation =>
          match ambiguities with
          | [ambiguity] =>
              resolveSingleAmbiguity plan schema minimumConfidence operation ambiguity
          | ambiguities =>
              .note (recordBlocked schema (auditOperation operation) ambiguities {.reject}
                .noSafeResolution) (.done (.error (unresolvedWriteError ambiguities)))

def recordCompletion (schema : SchemaProfile) (context : Option AuditContext)
    (outcome : AuditOutcome) (next : Task outside (Result ExecutionResult)) :
    Task outside (Result ExecutionResult) :=
  match context with
  | none => next
  | some context => .note (.audited
      { schemaProfileVersion := schema.profileVersion
        operation := context.operation
        ambiguities := context.ambiguities
        allowedCandidates := context.allowedCandidates
        selectedCandidate := some context.selectedCandidate
        confidence := some context.confidence
        outcome }) next

def recordExecution (schema : SchemaProfile) (context : Option AuditContext)
    (outcome : WriteOutcome) :
    Task outside (Result ExecutionResult) → Task outside (Result ExecutionResult) :=
  recordCompletion schema context (.executed
    { matched := outcome.matched
      modified := outcome.modified
      inserted := outcome.inserted
      deleted := outcome.deleted })

def recordMongoExecutionFailure (schema : SchemaProfile) (context : Option AuditContext) :
    Task outside (Result ExecutionResult) → Task outside (Result ExecutionResult) :=
  recordCompletion schema context (.blocked .mongoExecutionFailed)

/-! ## The executor -/

variable {α β : Type}

def prepared (attempt : Result α) (next : α → Task outside (Result β)) :
    Task outside (Result β) :=
  match attempt with
  | .ok value => next value
  | .error error => .done (.error error)

def answer (describe : String → ProxyError) (call : DriverCall) (convert : call.Answer → α) :
    Task outside (Result α) :=
  .act call fun reply => .done ((reply.map convert).mapError describe)

def executeSelect (plan : SelectPlan) : Task outside (Result (List Document)) :=
  prepared (filterDocument plan.filter) fun filter =>
    prepared (projectionDocument plan.projection) fun projection =>
      prepared (transpose selectLimit plan.limit) fun limit =>
        answer databaseError (.find plan.collection filter projection limit) id

def executeInsert (plan : InsertPlan) : Task outside (Result WriteOutcome) :=
  prepared (collect (buildInsertDocument plan.columns) plan.rows) fun documents =>
    match documents with
    | [] => .done (.error (invalidInput "INSERT requires at least one row"))
    | [document] =>
        answer writeError (.insertOne plan.collection document) fun () => { inserted := 1 }
    | documents =>
        answer writeError (.insertMany plan.collection documents) fun inserted => { inserted }

def executeUpdate (plan : UpdatePlan) : Task outside (Result WriteOutcome) :=
  prepared (predicateDocument plan.filter) fun filter =>
    prepared (updateDocument plan.assignments) fun update =>
      answer writeError (.updateMany plan.collection filter update) fun (matched, modified) =>
        { matched, modified }

def executeDelete (plan : DeletePlan) : Task outside (Result WriteOutcome) :=
  prepared (predicateDocument plan.filter) fun filter =>
    answer writeError (.deleteMany plan.collection filter) fun deleted => { deleted }

def executeWrite : StatementPlan → Task outside (Result WriteOutcome)
  | .insert insert => executeInsert insert
  | .update update => executeUpdate update
  | .delete delete => executeDelete delete
  | .select _ =>
      .done (.error ⟨.featureNotSupported, "SELECT plans must use the read executor"⟩)

end Async

/-! ## Statements -/

namespace ProxyBackend

variable (backend : ProxyBackend) (parser : Parser) (bsonText : BsonText)

def executeSelectTask (plan : SelectPlan) : Task outside (Result ExecutionResult) :=
  match backend.catalogForCollection plan.collection with
  | .error error => .done (.error error)
  | .ok catalog =>
      let fields := selectFields plan catalog
      let rows (documents : List Document) : List (List WireValue) :=
        documents.map fun document =>
          ((selectedPaths plan catalog).zip fields).map fun (path, field) =>
            valueFromDocument bsonText document path field.sqlType
      (Async.executeSelect plan).bind fun outcome =>
        .done (outcome.map fun documents => .query fields (rows documents))

def executeResolvedTask (schema : SchemaProfile) :
    Result ResolvedWrite → Task outside (Result ExecutionResult)
  | .error error => .done (.error error)
  | .ok resolved =>
      (Async.executeWrite resolved.plan).bind fun
        | .error error =>
            Async.recordMongoExecutionFailure schema resolved.auditContext (.done (.error error))
        | .ok outcome =>
            Async.recordExecution schema resolved.auditContext outcome
              (.done (completed resolved.plan outcome))

def executePlanTask (plan : StatementPlan) : Task outside (Result ExecutionResult) :=
  match plan with
  | .select plan => backend.executeSelectTask bsonText plan
  | plan =>
      match schemaForPlanFromProfiles plan backend.profiles with
      | .error error => .done (.error error)
      | .ok schema =>
          (Async.resolveWritePlan plan schema backend.resolverMinimumConfidence).bind
            (executeResolvedTask schema)

def withPlanTask {α : Type} (query : String) (next : StatementPlan → Task outside (Result α)) :
    Task outside (Result α) :=
  match parseSqlForProfiles parser query backend.profiles with
  | .error error => .note (.logged
      s!"rejected PostgreSQL client statement: sql={redactSqlLiterals query} error={error.message}")
      (.done (.error error))
  | .ok plan => next plan

def executeTask (query : String) : Task outside (Result ExecutionResult) :=
  match catalogOrSessionQuery backend.databaseName backend.catalog query with
  | some result => .done (.ok result)
  | none => backend.withPlanTask parser query (backend.executePlanTask bsonText)

def executeBoundTask (query : String) (parameters : List SqlValue) :
    Task outside (Result ExecutionResult) :=
  match catalogOrSessionQuery backend.databaseName backend.catalog query with
  | some result => .done (if parameters = [] then .ok result else .error parametersNotAllowed)
  | none =>
      backend.withPlanTask parser query fun plan =>
        match schemaForPlanFromProfiles plan backend.profiles with
        | .error error => .done (.error error)
        | .ok schema =>
            match bindParameters plan parameters schema with
            | .error error => .done (.error error)
            | .ok plan => backend.executePlanTask bsonText plan

end ProxyBackend

/-! ## The state after a task -/

def GateState.noted (state : GateState) (notes : List ProxyNote) : GateState where
  auditRecords := state.auditRecords ++ notes.filterMap ProxyNote.audited?
  consulted := state.consulted ++ notes.filterMap ProxyNote.consulted?

def BackendState.after (state : BackendState) (calls : List DriverCall) (notes : List ProxyNote) :
    BackendState where
  gate := state.gate.noted notes
  calls := state.calls ++ calls
  diagnostics := state.diagnostics ++ notes.filterMap ProxyNote.logged?

@[simp]
theorem BackendState.after_nil (state : BackendState) : state.after [] [] = state := by
  simp [BackendState.after, GateState.noted]

theorem BackendState.after_after (state : BackendState) (calls more : List DriverCall)
    (notes moreNotes : List ProxyNote) :
    (state.after calls notes).after more moreNotes =
      state.after (calls ++ more) (notes ++ moreNotes) := by
  simp [BackendState.after, GateState.noted]

namespace Async

/-! ## Tasks on their own -/

section Run

variable {resolver : Resolver} {outcomes : (call : DriverCall) → Except String call.Answer}

/-- What the gate decides, as a function and as a task on its own. -/
theorem run_resolveSingleAmbiguity (plan : StatementPlan) (schema : SchemaProfile)
    (minimumConfidence : Float) (operation : WriteOperation) (ambiguity : WriteAmbiguity)
    (state : BackendState) :
    let (result, calls, notes) := (resolveSingleAmbiguity plan schema minimumConfidence operation
      ambiguity).run resolver outcomes
    let (decision, gate) := Mongres.resolveSingleAmbiguity plan schema resolver minimumConfidence
      operation ambiguity state.gate
    (decision, { state with gate }) = (result, state.after calls notes) := by
  unfold resolveSingleAmbiguity Mongres.resolveSingleAmbiguity recordBlocked Mongres.recordBlocked
  dsimp only
  generalize resolverRequest plan operation schema.profileVersion ambiguity = request
  by_cases executable : hasExecutableCandidate request.allowedCandidates
  · simp only [executable, not_true_eq_false, if_false, Task.run]
    cases resolver request with
    | error error =>
        simp [Task.run, BackendState.after, GateState.noted, GateState.record,
          List.filterMap_cons]
    | ok response =>
        dsimp only
        cases validateResolverResponse request plan ambiguity response minimumConfidence with
        | error error =>
            simp [Task.run, BackendState.after, GateState.noted, GateState.record,
              List.filterMap_cons]
        | ok resolution =>
            dsimp only
            cases applyResolution plan resolution with
            | error error =>
                simp [Task.run, BackendState.after, GateState.noted, GateState.record,
                  List.filterMap_cons]
            | ok resolved =>
                dsimp only
                cases ResolverConfidence.fromRatio response.confidence with
                | none => simp [Task.run, BackendState.after, GateState.noted, List.filterMap_cons]
                | some confidence =>
                    simp [Task.run, BackendState.after, GateState.noted, List.filterMap_cons]
  · simp [executable, Task.run, BackendState.after, GateState.noted, GateState.record,
      List.filterMap_cons]

theorem run_resolveWritePlan (plan : StatementPlan) (schema : SchemaProfile)
    (minimumConfidence : Float) (state : BackendState) :
    let (result, calls, notes) := (resolveWritePlan plan schema minimumConfidence).run resolver
      outcomes
    let (decision, gate) := Mongres.resolveWritePlan plan schema resolver minimumConfidence
      state.gate
    (decision, { state with gate }) = (result, state.after calls notes) := by
  unfold resolveWritePlan Mongres.resolveWritePlan recordBlocked Mongres.recordBlocked
  cases detectWriteAmbiguities plan schema with
  | error error => simp [Task.run]
  | ok ambiguities =>
      cases ambiguities with
      | nil => simp [Task.run]
      | cons first others =>
          dsimp only
          cases writeOperation plan with
          | error error => simp [Task.run]
          | ok operation =>
              cases others with
              | nil =>
                  exact run_resolveSingleAmbiguity plan schema minimumConfidence operation first state
              | cons second others =>
                  simp [Task.run, BackendState.after, GateState.noted, GateState.record,
                    List.filterMap_cons]

def Executes {α : Type} (driver : Driver) (task : Task outside (Result α))
    (execute : List DriverCall → Result α × List DriverCall) : Prop :=
  ∀ (resolver : Resolver) (calls : List DriverCall),
    let (result, more, notes) := task.run resolver driver.answer
    execute calls = (result, calls ++ more) ∧ notes = []

theorem executes_prepared {α β : Type} {driver : Driver} {attempt : Result α}
    {next : α → Task outside (Result β)}
    {execute : List DriverCall → α → Result β × List DriverCall}
    (each : ∀ value, Executes driver (next value) fun calls => execute calls value) :
    Executes driver (prepared attempt next) fun calls =>
      Mongres.prepared calls attempt (execute calls) := by
  intro resolver calls
  cases attempt with
  | error error => simp [prepared, Mongres.prepared, Task.run]
  | ok value => exact each value resolver calls

theorem executes_answer {α : Type} {driver : Driver} {describe : String → ProxyError}
    {call : DriverCall} {convert : call.Answer → α} :
    Executes driver (answer describe call convert) fun calls =>
      Mongres.answer describe calls call ((driver.answer call).map convert) := by
  intro resolver calls
  simp [answer, Mongres.answer, Task.run]

theorem executes_executeSelect (driver : Driver) (plan : SelectPlan) :
    Executes driver (executeSelect plan) (Mongres.executeSelect driver plan) := by
  apply executes_prepared
  intro filter
  apply executes_prepared
  intro projection
  apply executes_prepared
  intro limit resolver calls
  have answered := @executes_answer _ driver databaseError
    (.find plan.collection filter projection limit) id resolver calls
  rwa [Except.map_id] at answered

theorem executes_executeWrite (driver : Driver) (plan : StatementPlan) :
    Executes driver (executeWrite plan) (Mongres.executeWrite driver plan) := by
  cases plan with
  | select plan =>
      intro resolver calls
      simp [executeWrite, Mongres.executeWrite, Task.run]
  | insert plan =>
      apply executes_prepared
      intro documents
      cases documents with
      | nil =>
          intro resolver calls
          simp [Task.run]
      | cons first others =>
          cases others with
          | nil => exact executes_answer
          | cons second others => exact executes_answer
  | update plan =>
      apply executes_prepared
      intro filter
      apply executes_prepared
      intro update
      exact executes_answer
  | delete plan =>
      apply executes_prepared
      intro filter
      exact executes_answer

/-! ## Orderly tasks -/

theorem acts_prepared {α β : Type} {attempt : Result α} {next : α → Task outside (Result β)}
    (each : ∀ value, (next value).Acts) : (prepared attempt next).Acts := by
  cases attempt with
  | error error => exact .done _
  | ok value => exact each value

theorem acts_answer {α : Type} (describe : String → ProxyError) (call : DriverCall)
    (convert : call.Answer → α) : (answer describe call convert).Acts :=
  @Task.Acts.act outside _ call _ fun _ => ⟨_, _, .done _⟩

theorem acts_executeSelect (plan : SelectPlan) : (executeSelect plan).Acts :=
  acts_prepared fun _ => acts_prepared fun _ => acts_prepared fun _ => acts_answer _ _ _

theorem acts_executeWrite (plan : StatementPlan) : (executeWrite plan).Acts := by
  cases plan with
  | select plan => exact .done _
  | insert plan =>
      apply acts_prepared
      intro documents
      split
      · exact .done _
      · exact acts_answer _ _ _
      · exact acts_answer _ _ _
  | update plan => exact acts_prepared fun _ => acts_prepared fun _ => acts_answer _ _ _
  | delete plan => exact acts_prepared fun _ => acts_answer _ _ _

theorem asks_resolveSingleAmbiguity (plan : StatementPlan) (schema : SchemaProfile)
    (minimumConfidence : Float) (operation : WriteOperation) (ambiguity : WriteAmbiguity) :
    (resolveSingleAmbiguity plan schema minimumConfidence operation ambiguity).Asks := by
  unfold resolveSingleAmbiguity
  dsimp only
  split
  · exact .note _ (.done _)
  · refine .note _ (.ask _ fun response => ?_)
    split
    · exact ⟨_, _, .note _ (.done _)⟩
    · split
      · exact ⟨_, _, .note _ (.done _)⟩
      · split
        · exact ⟨_, _, .note _ (.done _)⟩
        · split
          · exact ⟨_, _, .done _⟩
          · exact ⟨_, _, .done _⟩

theorem asks_resolveWritePlan (plan : StatementPlan) (schema : SchemaProfile)
    (minimumConfidence : Float) : (resolveWritePlan plan schema minimumConfidence).Asks := by
  unfold resolveWritePlan
  split
  · exact .done _
  · exact .done _
  · split
    · exact .done _
    · split
      · exact asks_resolveSingleAmbiguity plan schema minimumConfidence _ _
      · exact .note _ (.done _)

theorem settles_recordCompletion (schema : SchemaProfile) (context : Option AuditContext)
    (outcome : AuditOutcome) (result : Result ExecutionResult) :
    ∃ value notes, (recordCompletion schema context outcome (.done result)).Settles value notes := by
  cases context with
  | none => exact ⟨_, _, .done _⟩
  | some context => exact ⟨_, _, .note _ (.done _)⟩

end Run

end Async

namespace ProxyBackend

variable (backend : ProxyBackend) (services : Services)

/-! ## Statements on their own -/

def Does (task : Task outside (Result ExecutionResult))
    (execute : BackendState → Result ExecutionResult × BackendState) : Prop :=
  ∀ state, let (result, calls, notes) := task.run services.resolver services.driver.answer
    execute state = (result, state.after calls notes)

variable {services}

theorem does_done (result : Result ExecutionResult) :
    Does services (.done result) fun state => (result, state) := by
  intro state
  simp [Task.run]

theorem does_bind {α : Type} {task : Task outside α} {go : α → Task outside (Result ExecutionResult)}
    {execute : BackendState → Result ExecutionResult × BackendState}
    (each : ∀ state, let (value, calls, notes) := task.run services.resolver services.driver.answer
      ∃ next, Does services (go value) next ∧ execute state = next (state.after calls notes)) :
    Does services (task.bind go) execute := by
  intro state
  have first := each state
  rw [Task.run_bind]
  generalize task.run services.resolver services.driver.answer = ran at first ⊢
  obtain ⟨value, calls, notes⟩ := ran
  obtain ⟨next, does, same⟩ := first
  have rest := does (state.after calls notes)
  dsimp only at rest ⊢
  rw [same, rest, BackendState.after_after]

theorem does_executeSelectTask (plan : SelectPlan) :
    Does services (backend.executeSelectTask services.bsonText plan)
      (backend.executeSelect services plan) := by
  unfold executeSelectTask executeSelect
  cases backend.catalogForCollection plan.collection with
  | error error => exact does_done (.error error)
  | ok catalog =>
      apply does_bind
      intro state
      have executes := Async.executes_executeSelect services.driver plan services.resolver
        state.calls
      generalize (Async.executeSelect plan).run services.resolver services.driver.answer = ran
        at executes ⊢
      obtain ⟨result, calls, notes⟩ := ran
      obtain ⟨executed, rfl⟩ := executes
      refine ⟨_, does_done _, ?_⟩
      dsimp only
      rw [executed]
      simp [BackendState.after, GateState.noted]

theorem does_recordCompletion (schema : SchemaProfile) (context : Option AuditContext)
    (outcome : AuditOutcome) (result : Result ExecutionResult) :
    Does services (Async.recordCompletion schema context outcome (.done result)) fun state =>
      (result, { state with gate := recordCompletion schema context outcome state.gate }) := by
  intro state
  cases context with
  | none => simp [Async.recordCompletion, recordCompletion, Task.run]
  | some context =>
      simp [Async.recordCompletion, recordCompletion, Task.run, BackendState.after,
        GateState.noted, GateState.record, List.filterMap_cons]

def executeResolved (services : Services) (schema : SchemaProfile) (resolved : ResolvedWrite)
    (state : BackendState) : Result ExecutionResult × BackendState :=
  match executeWrite services.driver resolved.plan state.calls with
  | (.error error, calls) => (.error error, { state with
      gate := recordMongoExecutionFailure schema resolved.auditContext state.gate
      calls })
  | (.ok outcome, calls) => (completed resolved.plan outcome, { state with
      gate := recordExecution schema resolved.auditContext outcome state.gate
      calls })

theorem does_executeResolvedTask (schema : SchemaProfile) (resolved : ResolvedWrite) :
    Does services (executeResolvedTask schema (.ok resolved))
      (executeResolved services schema resolved) := by
  apply does_bind
  intro state
  have executes := Async.executes_executeWrite services.driver resolved.plan services.resolver
    state.calls
  generalize (Async.executeWrite resolved.plan).run services.resolver services.driver.answer = ran
    at executes ⊢
  obtain ⟨result, calls, notes⟩ := ran
  obtain ⟨executed, rfl⟩ := executes
  unfold executeResolved
  rw [executed]
  cases result with
  | error error =>
      refine ⟨_, does_recordCompletion schema resolved.auditContext _ _, ?_⟩
      simp [BackendState.after, GateState.noted, recordMongoExecutionFailure]
  | ok outcome =>
      refine ⟨_, does_recordCompletion schema resolved.auditContext _ _, ?_⟩
      simp [BackendState.after, GateState.noted, recordExecution]

theorem executePlanTask_of_isWrite (bsonText : BsonText) {plan : StatementPlan}
    (writes : plan.isWrite = true) :
    backend.executePlanTask bsonText plan =
      match schemaForPlanFromProfiles plan backend.profiles with
      | .error error => .done (.error error)
      | .ok schema =>
          (Async.resolveWritePlan plan schema backend.resolverMinimumConfidence).bind
            (executeResolvedTask schema) := by
  cases plan with
  | select plan => cases writes
  | _ => rfl

theorem does_executePlanTask (plan : StatementPlan) :
    Does services (backend.executePlanTask services.bsonText plan)
      (backend.executePlan services plan) := by
  cases writes : plan.isWrite with
  | false =>
      cases plan with
      | select plan => exact does_executeSelectTask backend plan
      | _ => cases writes
  | true =>
      rw [executePlanTask_of_isWrite backend services.bsonText writes]
      cases found : schemaForPlanFromProfiles plan backend.profiles with
      | error error =>
          intro state
          have refused : backend.executePlan services plan state = (.error error, state) := by
            cases plan with
            | select plan => cases writes
            | _ =>
                unfold executePlan
                dsimp only
                rw [found]
          rw [refused]
          exact @does_done services (.error error) state
      | ok schema =>
          have listed := okOr_eq_ok_iff.mp found
          apply does_bind
          intro state
          have decides := @Async.run_resolveWritePlan services.resolver services.driver.answer plan
            schema backend.resolverMinimumConfidence state
          generalize (Async.resolveWritePlan plan schema backend.resolverMinimumConfidence).run
            services.resolver services.driver.answer = ran at decides ⊢
          obtain ⟨result, calls, notes⟩ := ran
          rcases decided : resolveWritePlan plan schema services.resolver
            backend.resolverMinimumConfidence state.gate with ⟨decision, gate⟩
          rw [decided] at decides
          obtain ⟨rfl, after⟩ := Prod.mk.inj decides
          dsimp only
          rw [← after]
          cases decision with
          | error error =>
              refine ⟨_, does_done _, ?_⟩
              rw [executePlan_of_error backend services writes listed decided]
          | ok resolved =>
              refine ⟨_, does_executeResolvedTask schema resolved, ?_⟩
              rw [executePlan_of_ok backend services writes listed decided]
              rfl

theorem does_withPlanTask (query : String)
    {next : StatementPlan → Task outside (Result ExecutionResult)}
    {go : StatementPlan → BackendState → Result ExecutionResult × BackendState}
    (each : ∀ plan, Does services (next plan) (go plan)) :
    Does services (backend.withPlanTask services.parser query next) fun state =>
      backend.withPlan services query state go := by
  intro state
  unfold withPlanTask withPlan
  cases parseSqlForProfiles services.parser query backend.profiles with
  | error error =>
      simp [Task.run, logRejectedClientStatement, BackendState.after, GateState.noted,
        List.filterMap_cons]
  | ok plan => exact each plan state

theorem does_executeTask (query : String) :
    Does services (backend.executeTask services.parser services.bsonText query)
      (backend.execute services query) := by
  unfold executeTask execute
  cases catalogOrSessionQuery backend.databaseName backend.catalog query with
  | some result => exact does_done (.ok result)
  | none => exact does_withPlanTask backend query (does_executePlanTask backend)

theorem does_executeBoundTask (query : String) (parameters : List SqlValue) :
    Does services (backend.executeBoundTask services.parser services.bsonText query parameters)
      (backend.executeBound services query parameters) := by
  unfold executeBoundTask executeBound
  cases catalogOrSessionQuery backend.databaseName backend.catalog query with
  | some result => exact does_done _
  | none =>
      apply does_withPlanTask
      intro plan
      cases schemaForPlanFromProfiles plan backend.profiles with
      | error error => exact does_done (.error error)
      | ok schema =>
          dsimp only
          cases bindParameters plan parameters schema with
          | error error => exact does_done (.error error)
          | ok plan => exact does_executePlanTask backend plan

/-! ## Statements are orderly -/

theorem isOrderly_executePlanTask (bsonText : BsonText) (plan : StatementPlan) :
    (backend.executePlanTask bsonText plan).IsOrderly := by
  cases writes : plan.isWrite with
  | false =>
      cases plan with
      | select plan =>
          unfold executePlanTask executeSelectTask
          dsimp only
          split
          · exact .acts (.done _)
          · exact .acts ((Async.acts_executeSelect plan).bind fun _ => ⟨_, _, .done _⟩)
      | _ => cases writes
  | true =>
      rw [executePlanTask_of_isWrite backend bsonText writes]
      split
      · exact .acts (.done _)
      · apply (Async.asks_resolveWritePlan _ _ _).bind
        intro decision
        cases decision with
        | error error => exact .done _
        | ok resolved =>
            apply (Async.acts_executeWrite resolved.plan).bind
            intro outcome
            split
            · exact Async.settles_recordCompletion _ _ _ _
            · exact Async.settles_recordCompletion _ _ _ _

variable (parser : Parser) (bsonText : BsonText)

theorem isOrderly_withPlanTask (query : String)
    {next : StatementPlan → Task outside (Result ExecutionResult)}
    (each : ∀ plan, (next plan).IsOrderly) :
    (backend.withPlanTask parser query next).IsOrderly := by
  unfold withPlanTask
  split
  · exact .note _ (.acts (.done _))
  · exact each _

theorem isOrderly_executeTask (query : String) :
    (backend.executeTask parser bsonText query).IsOrderly := by
  unfold executeTask
  split
  · exact .acts (.done _)
  · exact isOrderly_withPlanTask backend parser query (isOrderly_executePlanTask backend bsonText)

theorem isOrderly_executeBoundTask (query : String) (parameters : List SqlValue) :
    (backend.executeBoundTask parser bsonText query parameters).IsOrderly := by
  unfold executeBoundTask
  split
  · exact .acts (.done _)
  · apply isOrderly_withPlanTask
    intro plan
    split
    · exact .acts (.done _)
    · split
      · exact .acts (.done _)
      · exact isOrderly_executePlanTask backend bsonText _

end ProxyBackend

end Mongres
