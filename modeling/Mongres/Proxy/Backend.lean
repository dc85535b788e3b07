import Mongres.Proxy.Gate
import Mongres.Proxy.Parameters
import Mongres.Proxy.Routing

/-!
# The proxy backend

Statements from their text to the driver: interception, parsing, binding, the
write gate and the executor, with the effects of each step.
-/

namespace Mongres

open Fallible

structure ProxyBackend where
  databaseName : String
  profiles : CollectionProfiles
  catalog : DatabaseCatalog
  resolverMinimumConfidence : Float
  projected : catalog = projectPublicCollections profiles
  confidenceBounds : 0 ≤ resolverMinimumConfidence ∧ resolverMinimumConfidence ≤ 1

/-- The code outside of the proxy that a statement reaches. -/
structure Services where
  parser : Parser
  driver : Driver
  resolver : Resolver
  bsonText : BsonText

structure BackendState where
  gate : GateState := {}
  calls : List DriverCall := []
  diagnostics : List String := []

structure PreparedStatement where
  sql : String
  parameterTypes : List PgType
  deriving DecidableEq

mutual

/-- Redaction inside a string literal, where two quotes stand for one. -/
def redactInside (redacted : String) : List Char → String
  | [] => redacted.push '\''
  | '\'' :: '\'' :: characters => redactInside redacted characters
  | '\'' :: characters => redactOutside (redacted.push '\'') characters
  | _ :: characters => redactInside redacted characters

/-- Redaction between string literals, cut after 1,024 bytes. -/
def redactOutside (redacted : String) : List Char → String
  | [] => redacted
  | '\'' :: characters =>
      let redacted := redacted ++ "'<redacted>"
      if redacted.utf8ByteSize ≥ 1024 then (redacted ++ "…").push '\''
      else redactInside redacted characters
  | character :: characters =>
      let redacted := redacted.push character
      if redacted.utf8ByteSize ≥ 1024 then redacted ++ "…"
      else redactOutside redacted characters

end

def redactSqlLiterals (query : String) : String := redactOutside "" query.toList

example : redactSqlLiterals "SELECT a FROM c WHERE b = 'it''s'" =
    "SELECT a FROM c WHERE b = '<redacted>'" := by decide

def logRejectedClientStatement (query : String) (error : ProxyError) (state : BackendState) :
    BackendState :=
  { state with
    diagnostics := state.diagnostics ++
      [s!"rejected PostgreSQL client statement: sql={redactSqlLiterals query} error={error.message}"] }

def schemaForPlanFromProfiles (plan : StatementPlan) (profiles : CollectionProfiles) :
    Result SchemaProfile :=
  okOr profiles[collectionFromPlan plan]? (invalidInput
    s!"collection '{collectionFromPlan plan}' is not in the configured collection allowlist")

def parametersNotAllowed : ProxyError := invalidInput
  "prepared statement parameters are not allowed for catalog or session queries"

/-! ## Audit of completed writes -/

def recordCompletion (schema : SchemaProfile) (context : Option AuditContext)
    (outcome : AuditOutcome) (state : GateState) : GateState :=
  match context with
  | none => state
  | some context => state.record
      { schemaProfileVersion := schema.profileVersion
        operation := context.operation
        ambiguities := context.ambiguities
        allowedCandidates := context.allowedCandidates
        selectedCandidate := some context.selectedCandidate
        confidence := some context.confidence
        outcome }

def recordExecution (schema : SchemaProfile) (context : Option AuditContext)
    (outcome : WriteOutcome) : GateState → GateState :=
  recordCompletion schema context (.executed
    { matched := outcome.matched
      modified := outcome.modified
      inserted := outcome.inserted
      deleted := outcome.deleted })

def recordMongoExecutionFailure (schema : SchemaProfile) (context : Option AuditContext) :
    GateState → GateState :=
  recordCompletion schema context (.blocked .mongoExecutionFailed)

namespace ProxyBackend

/-! ## Reads -/

def catalogForCollection (backend : ProxyBackend) (collection : String) :
    Result CollectionCatalog :=
  okOr backend.catalog[collection]? ⟨.dependency,
    s!"catalog projection is missing configured collection '{collection}'"⟩

/-- The columns that stand for one field path; the others cannot be selected by `*`. -/
def unambiguousColumns (catalog : CollectionCatalog) : List ColumnMetadata :=
  catalog.columns.filter fun column => column.sourcePaths.length = 1

def selectedPaths (plan : SelectPlan) (catalog : CollectionCatalog) : List (List String) :=
  match plan.projection with
  | .all => (unambiguousColumns catalog).flatMap fun column =>
      (column.sourcePaths.map FieldPath.segments).take 1
  | .fields fields => fields.map fun field => field.path.segments

def selectFields (plan : SelectPlan) (catalog : CollectionCatalog) : List WireField :=
  match plan.projection with
  | .all => (unambiguousColumns catalog).map fun column => ⟨column.columnName, column.sqlType⟩
  | .fields fields => fields.map fun field =>
      let column := catalog.columns.find? fun column =>
        column.columnName = field.path.displayName
      ⟨field.columnAlias.getD field.path.displayName,
        (column.map ColumnMetadata.sqlType).getD .jsonb⟩

variable (backend : ProxyBackend) (services : Services)

def executeSelect (plan : SelectPlan) (state : BackendState) :
    Result ExecutionResult × BackendState :=
  match backend.catalogForCollection plan.collection with
  | .error error => (.error error, state)
  | .ok catalog =>
      let fields := selectFields plan catalog
      let (outcome, calls) := Mongres.executeSelect services.driver plan state.calls
      let rows (documents : List Document) : List (List WireValue) :=
        documents.map fun document =>
          ((selectedPaths plan catalog).zip fields).map fun (path, field) =>
            valueFromDocument services.bsonText document path field.sqlType
      (outcome.map fun documents => .query fields (rows documents), { state with calls })

/-! ## Statements -/

/-- Runs a plan: a read goes to the driver, a write first through the gate. -/
def executePlan (plan : StatementPlan) (state : BackendState) :
    Result ExecutionResult × BackendState :=
  match plan with
  | .select plan => backend.executeSelect services plan state
  | plan =>
      match schemaForPlanFromProfiles plan backend.profiles with
      | .error error => (.error error, state)
      | .ok schema =>
          match resolveWritePlan plan schema services.resolver backend.resolverMinimumConfidence
              state.gate with
          | (.error error, gate) => (.error error, { state with gate })
          | (.ok resolved, gate) =>
              match executeWrite services.driver resolved.plan state.calls with
              | (.error error, calls) =>
                  (.error error, { state with
                    gate := recordMongoExecutionFailure schema resolved.auditContext gate
                    calls })
              | (.ok outcome, calls) =>
                  let state := { state with
                    gate := recordExecution schema resolved.auditContext outcome gate
                    calls }
                  match commandResult resolved.plan outcome with
                  | some result => (.ok (.command result), state)
                  -- never reached: the executor has already refused to write a `SELECT`
                  | none => (.error ⟨.featureNotSupported, "SELECT is not a command result"⟩, state)

/-- Sends a text to the parser and goes on with its plan, or logs the rejection. -/
def withPlan {α : Type} (query : String) (state : BackendState)
    (next : StatementPlan → BackendState → Result α × BackendState) : Result α × BackendState :=
  match parseSqlForProfiles services.parser query backend.profiles with
  | .error error => (.error error, logRejectedClientStatement query error state)
  | .ok plan => next plan state

def executeParsed (query : String) (state : BackendState) : Result ExecutionResult × BackendState :=
  backend.withPlan services query state (backend.executePlan services)

def execute (query : String) (state : BackendState) : Result ExecutionResult × BackendState :=
  match catalogOrSessionQuery backend.databaseName backend.catalog query with
  | some result => (.ok result, state)
  | none => backend.executeParsed services query state

def executeBoundParsed (query : String) (parameters : List SqlValue) (state : BackendState) :
    Result ExecutionResult × BackendState :=
  backend.withPlan services query state fun plan state =>
    match schemaForPlanFromProfiles plan backend.profiles with
    | .error error => (.error error, state)
    | .ok schema =>
        match bindParameters plan parameters schema with
        | .error error => (.error error, state)
        | .ok plan => backend.executePlan services plan state

def executeBound (query : String) (parameters : List SqlValue) (state : BackendState) :
    Result ExecutionResult × BackendState :=
  match catalogOrSessionQuery backend.databaseName backend.catalog query with
  | some result =>
      (if parameters = [] then .ok result else .error parametersNotAllowed, state)
  | none => backend.executeBoundParsed services query parameters state

def describeParsed (query : String) (state : BackendState) :
    Result (List WireField) × BackendState :=
  backend.withPlan services query state fun plan state =>
    match plan with
    | .select plan =>
        ((backend.catalogForCollection plan.collection).map (selectFields plan), state)
    | .insert _ | .update _ | .delete _ => (.ok [], state)

def describe (query : String) (state : BackendState) : Result (List WireField) × BackendState :=
  match catalogOrSessionQuery backend.databaseName backend.catalog query with
  | some result => (.ok result.fields, state)
  | none => backend.describeParsed services query state

end ProxyBackend

/-! ## Statements of clients -/

/-- A statement of the simple protocol, or one of the extended protocol with its parameters. -/
inductive ClientStatement where
  | simple (query : String)
  | bound (query : String) (parameters : List SqlValue)

def ClientStatement.query : ClientStatement → String
  | simple query | bound query _ => query

namespace ProxyBackend

def handle (backend : ProxyBackend) (services : Services) (statement : ClientStatement)
    (state : BackendState) : Result ExecutionResult × BackendState :=
  match statement with
  | .simple query => backend.execute services query state
  | .bound query parameters => backend.executeBound services query parameters state

/-- The plan that a statement is lowered and bound to. -/
inductive Plans (backend : ProxyBackend) (parser : Parser) :
    ClientStatement → StatementPlan → Prop where
  | simple {query : String} {plan : StatementPlan} :
      parseSqlForProfiles parser query backend.profiles = .ok plan →
      Plans backend parser (.simple query) plan
  | bound {query : String} {parameters : List SqlValue} {lowered plan : StatementPlan}
      {schema : SchemaProfile} :
      parseSqlForProfiles parser query backend.profiles = .ok lowered →
      backend.profiles[collectionFromPlan lowered]? = some schema →
      bindParameters lowered parameters schema = .ok plan →
      Plans backend parser (.bound query parameters) plan

end ProxyBackend

/-! ## Prepared statements -/

def prepareStatementParsed (parser : Parser) (query : String) (requestedTypes : List PgType)
    (profiles : CollectionProfiles) : Result PreparedStatement := do
  let plan ← parseSqlForProfiles parser query profiles
  let schema ← schemaForPlanFromProfiles plan profiles
  let inferredTypes ← inferParameterTypes plan schema
  let parameterTypes ← reconcileParameterTypes requestedTypes inferredTypes
  .ok { sql := query, parameterTypes }

def prepareStatement (parser : Parser) (query : String) (requestedTypes : List PgType)
    (profiles : CollectionProfiles) : Result PreparedStatement :=
  if isCatalogOrSessionQuery query then
    if requestedTypes = [] then .ok { sql := query, parameterTypes := [] }
    else .error parametersNotAllowed
  else prepareStatementParsed parser query requestedTypes profiles

end Mongres
