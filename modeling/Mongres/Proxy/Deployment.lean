import Mongres.Library.Labelled
import Mongres.Mongo.Server
import Mongres.Proxy.AuditTrail
import Mongres.Proxy.Description
import Mongres.Proxy.Isolation

/-!
# A deployed proxy

A proxy between its clients and a database: each statement is answered from the database as it
is, and what reaches the database is what the executor sends.  Between statements, the answers of
the resolver and the fate of the driver's calls are arbitrary.
-/

namespace Mongres

open Fallible

/-- What stays the same while a proxy serves its clients. -/
structure Deployment where
  backend : ProxyBackend
  parser : Parser
  bsonText : BsonText
  server : Server

/-- The database and what the proxy remembers. -/
structure SystemState where
  contents : Contents
  gate : GateState := {}
  diagnostics : List String := []

/-- A statement, what the world does while it is served, and its reply. -/
structure Exchange where
  statement : ClientStatement
  resolver : Resolver
  circumstances : Circumstances
  transmission : Transmission
  reply : Result ExecutionResult

namespace Deployment

variable (deployment : Deployment)

def services (resolver : Resolver) (circumstances : Circumstances) (transmission : Transmission)
    (contents : Contents) : Services where
  parser := deployment.parser
  driver := transmission.driver (deployment.server.driver circumstances contents)
  resolver
  bsonText := deployment.bsonText

def serve (statement : ClientStatement) (resolver : Resolver) (circumstances : Circumstances)
    (transmission : Transmission) (state : SystemState) : Result ExecutionResult × SystemState :=
  let services := deployment.services resolver circumstances transmission state.contents
  let (reply, after) := deployment.backend.handle services statement
    { gate := state.gate, diagnostics := state.diagnostics }
  (reply,
    { contents := deployment.server.effects circumstances transmission state.contents after.calls
      gate := after.gate
      diagnostics := after.diagnostics })

def Step (state : SystemState) (exchange : Exchange) (next : SystemState) : Prop :=
  deployment.serve exchange.statement exchange.resolver exchange.circumstances
    exchange.transmission state = (exchange.reply, next)

/-- What is handled for an exchange, from a state of the system. -/
def handledFor (exchange : Exchange) (state : SystemState) :
    Result ExecutionResult × BackendState :=
  deployment.backend.handle
    (deployment.services exchange.resolver exchange.circumstances exchange.transmission
      state.contents)
    exchange.statement { gate := state.gate, diagnostics := state.diagnostics }

theorem step_iff {state next : SystemState} {exchange : Exchange} :
    deployment.Step state exchange next ↔
      (deployment.handledFor exchange state).1 = exchange.reply ∧
        next =
          { contents := deployment.server.effects exchange.circumstances exchange.transmission
              state.contents (deployment.handledFor exchange state).2.calls
            gate := (deployment.handledFor exchange state).2.gate
            diagnostics := (deployment.handledFor exchange state).2.diagnostics } := by
  rw [Step, Prod.ext_iff, @eq_comm _ next]
  exact Iff.rfl

abbrev Plans : ClientStatement → StatementPlan → Prop :=
  deployment.backend.Plans deployment.parser

theorem Plans.wellFormed {deployment : Deployment} {statement : ClientStatement}
    {plan : StatementPlan} (plans : deployment.Plans statement plan) :
    ∃ schema, deployment.backend.profiles[collectionFromPlan plan]? = some schema ∧
      plan.WellFormed schema := by
  cases plans with
  | simple parsed =>
      obtain ⟨_, schema, _, listed, lowered⟩ := lowered_of_parseSqlForProfiles parsed
      exact ⟨schema, listed, lowerStatement_wellFormed lowered⟩
  | bound parsed listed binds =>
      obtain ⟨_, schema, _, found, lowered⟩ := lowered_of_parseSqlForProfiles parsed
      cases Option.some.inj (listed.symm.trans found)
      obtain ⟨wellFormed, same, _⟩ :=
        bindParameters_wellFormed (lowerStatement_wellFormed lowered) binds
      exact ⟨_, same ▸ listed, wellFormed⟩

/-! ## What serving a statement can do -/

/-- The ways in which a statement is served, with its reply and the driver's calls. -/
inductive Handled (services : Services) (gate : GateState) (statement : ClientStatement) :
    Result ExecutionResult → List DriverCall → Prop where
  | canned {query : String} {result : ExecutionResult} :
      statement = .simple query ∨ statement = .bound query [] →
      catalogOrSessionQuery deployment.backend.databaseName deployment.backend.catalog query =
        some result →
      Handled services gate statement (.ok result) []
  | refused (error : ProxyError) : Handled services gate statement (.error error) []
  | read {plan : SelectPlan} {table : CollectionCatalog} {outcome : Result (List Document)}
      {calls : List DriverCall} :
      deployment.Plans statement (.select plan) →
      deployment.backend.catalog[plan.collection]? = some table →
      executeSelect services.driver plan [] = (outcome, calls) →
      Handled services gate statement
        (outcome.map (ProxyBackend.selected services.bsonText plan table)) calls
  | failed {plan : StatementPlan} {schema : SchemaProfile} {write : ResolvedWrite}
      {after : GateState} {error : ProxyError} {calls : List DriverCall} :
      deployment.Plans statement plan → plan.isWrite = true →
      deployment.backend.profiles[collectionFromPlan plan]? = some schema →
      Passed plan schema services.resolver deployment.backend.resolverMinimumConfidence gate write
        after →
      executeWrite services.driver write.plan [] = (.error error, calls) →
      Handled services gate statement (.error error) calls
  | wrote {plan : StatementPlan} {schema : SchemaProfile} {write : ResolvedWrite}
      {after : GateState} {outcome : WriteOutcome} {calls : List DriverCall} :
      deployment.Plans statement plan → plan.isWrite = true →
      deployment.backend.profiles[collectionFromPlan plan]? = some schema →
      Passed plan schema services.resolver deployment.backend.resolverMinimumConfidence gate write
        after →
      executeWrite services.driver write.plan [] = (.ok outcome, calls) →
      Handled services gate statement (completed write.plan outcome) calls

variable {deployment}

theorem handled_of_plans {services : Services} {state : BackendState}
    {statement : ClientStatement} {plan : StatementPlan} (fresh : state.calls = [])
    (plans : deployment.Plans statement plan) :
    deployment.Handled services state.gate statement
      (deployment.backend.executePlan services plan state).1
      (deployment.backend.executePlan services plan state).2.calls := by
  obtain ⟨schema, listed, _⟩ := plans.wellFormed
  cases writes : plan.isWrite with
  | false =>
      cases plan with
      | select plan =>
          change deployment.Handled services state.gate statement
            (deployment.backend.executeSelect services plan state).1
            (deployment.backend.executeSelect services plan state).2.calls
          cases found : deployment.backend.catalog[plan.collection]? with
          | none =>
              rw [ProxyBackend.executeSelect, ProxyBackend.catalogForCollection, found]
              dsimp only [okOr]
              rw [fresh]
              exact .refused _
          | some table =>
              obtain ⟨answer, after⟩ := deployment.backend.executeSelect_of_catalog services
                (okOr_eq_ok_iff.mpr found) state
              rw [answer, after, fresh]
              exact .read plans found rfl
      | _ => cases writes
  | true =>
      rcases decided : resolveWritePlan plan schema services.resolver
        deployment.backend.resolverMinimumConfidence state.gate with ⟨error | write, gate⟩
      · rw [executePlan_of_error deployment.backend services writes listed decided]
        dsimp only
        rw [fresh]
        exact .refused error
      · rw [executePlan_of_ok deployment.backend services writes listed decided, fresh]
        have passed := passed_of_resolveWritePlan decided
        rcases ran : executeWrite services.driver write.plan [] with ⟨error | outcome, calls⟩
        · exact .failed plans writes listed passed ran
        · exact .wrote plans writes listed passed ran

/-- A statement is answered from the catalog, refused before a driver call, or executed. -/
theorem handled_of_handle (services : Services) (parses : services.parser = deployment.parser)
    (statement : ClientStatement) {state : BackendState} (fresh : state.calls = []) :
    deployment.Handled services state.gate statement
      (deployment.backend.handle services statement state).1
      (deployment.backend.handle services statement state).2.calls := by
  cases statement with
  | simple query =>
      unfold ProxyBackend.handle ProxyBackend.execute
      dsimp only
      split
      · rename_i result canned
        dsimp only
        rw [fresh]
        exact .canned (.inl rfl) canned
      · unfold ProxyBackend.executeParsed ProxyBackend.withPlan
        split
        · dsimp only [logRejectedClientStatement]
          rw [fresh]
          exact .refused _
        · rename_i plan parsed
          exact handled_of_plans fresh (.simple (parses ▸ parsed))
  | bound query parameters =>
      unfold ProxyBackend.handle ProxyBackend.executeBound
      dsimp only
      split
      · rename_i result canned
        dsimp only
        rw [fresh]
        split
        · rename_i none
          rw [none]
          exact .canned (.inr rfl) canned
        · exact .refused _
      · unfold ProxyBackend.executeBoundParsed ProxyBackend.withPlan
        split
        · dsimp only [logRejectedClientStatement]
          rw [fresh]
          exact .refused _
        · rename_i plan parsed
          dsimp only
          split
          · rw [fresh]
            exact .refused _
          · rename_i schema found
            split
            · rw [fresh]
              exact .refused _
            · rename_i bound binds
              have listed := okOr_eq_ok_iff.mp found
              exact handled_of_plans fresh (.bound (parses ▸ parsed) listed binds)

theorem handled_of_handledFor (exchange : Exchange) (state : SystemState) :
    deployment.Handled
      (deployment.services exchange.resolver exchange.circumstances exchange.transmission
        state.contents) state.gate exchange.statement (deployment.handledFor exchange state).1
      (deployment.handledFor exchange state).2.calls := by
  have fresh : ({ gate := state.gate, diagnostics := state.diagnostics } : BackendState).calls =
    [] := rfl
  exact handled_of_handle _ rfl exchange.statement fresh

/-- A step is one way to handle its statement, and the database after its calls. -/
theorem Step.handled {state next : SystemState} {exchange : Exchange}
    (step : deployment.Step state exchange next) :
    ∃ calls, deployment.Handled
        (deployment.services exchange.resolver exchange.circumstances exchange.transmission
          state.contents) state.gate exchange.statement exchange.reply calls ∧
      next.contents = deployment.server.effects exchange.circumstances exchange.transmission
        state.contents calls := by
  obtain ⟨reply, rfl⟩ := (step_iff deployment).mp step
  rw [← reply]
  exact ⟨_, handled_of_handledFor exchange state, rfl⟩

/-! ## The calls of a statement -/

/-- An integer and the string of its decimal digits. -/
inductive SameNumber : SqlValue → SqlValue → Prop where
  | parsed (integer : Int64) : SameNumber (.string (Decimal.text integer)) (.integer integer)
  | formatted (integer : Int64) : SameNumber (.integer integer) (.string (Decimal.text integer))

/-- The gate lets a plan through as it is, or with its only assigned integer as a string or the
other way round. -/
inductive Retagged (plan : StatementPlan) : StatementPlan → Prop where
  | unchanged : Retagged plan plan
  | retagged {update : UpdatePlan} {path : FieldPath} {value other : SqlValue} :
      plan = .update update → update.assignments = [{ path, value }] → SameNumber value other →
      Retagged plan (.update { update with assignments := [{ path, value := other }] })

theorem retagged_of_passed {plan : StatementPlan} {schema : SchemaProfile} {resolver : Resolver}
    {minimumConfidence : Float} {gate after : GateState} {write : ResolvedWrite}
    (passed : Passed plan schema resolver minimumConfidence gate write after) :
    Retagged plan write.plan := by
  cases passed with
  | clear _ => exact .unchanged
  | resolved operation ambiguity response _ _ _ _ _ applies =>
      have effect := applies.effect
      generalize write.plan = resolved at effect
      cases candidate : response.candidate with
      | reject =>
          rw [candidate] at effect
          exact effect.elim
      | parseIntegerLosslessly =>
          rw [candidate] at effect
          obtain ⟨_, integer, updates, single, rfl⟩ := effect
          exact .retagged updates single (.parsed integer)
      | formatIntegerAsString =>
          rw [candidate] at effect
          obtain ⟨_, integer, updates, single, rfl⟩ := effect
          exact .retagged updates single (.formatted integer)
      | _ =>
          rw [candidate] at effect
          cases effect
          exact .unchanged

theorem Retagged.collectionFromPlan_eq {plan resolved : StatementPlan}
    (retagged : Retagged plan resolved) : collectionFromPlan resolved = collectionFromPlan plan := by
  cases retagged with
  | unchanged => rfl
  | retagged updates _ _ =>
      rw [updates]
      rfl

theorem Retagged.isWrite_eq {plan resolved : StatementPlan} (retagged : Retagged plan resolved) :
    resolved.isWrite = plan.isWrite := by
  cases retagged with
  | unchanged => rfl
  | retagged updates _ _ =>
      rw [updates]
      rfl

/-- A result and its driver calls: no call, or one call on a collection whose failure is the
error. -/
inductive CallsOnce {α : Type} (collection : String) : Result α × List DriverCall → Prop where
  | none (result : Result α) : (∀ value, result ≠ .ok value) → CallsOnce collection (result, [])
  | once (result : Result α) (call : DriverCall) : call.collection = collection →
      (∀ error, result = .error error → error.kind = .database) →
      CallsOnce collection (result, [call])

theorem callsOnce_answer {α : Type} {describe : String → ProxyError} {call : DriverCall}
    {collection : String} (about : call.collection = collection)
    (describes : ∀ error, (describe error).kind = .database) (reply : Except String α) :
    CallsOnce collection (answer describe [] call reply) := by
  apply CallsOnce.once _ _ about
  intro error failed
  cases reply with
  | ok value => cases failed
  | error text =>
      cases failed
      exact describes text

theorem callsOnce_prepared {α β : Type} {collection : String} {attempt : Result α}
    {next : α → Result β × List DriverCall} (each : ∀ value, CallsOnce collection (next value)) :
    CallsOnce collection (prepared [] attempt next) := by
  cases attempt with
  | ok value => exact each value
  | error error => exact .none _ nofun

theorem callsOnce_executeSelect (driver : Driver) (plan : SelectPlan) :
    CallsOnce plan.collection (Mongres.executeSelect driver plan []) := by
  apply callsOnce_prepared
  intro filter
  apply callsOnce_prepared
  intro projection
  apply callsOnce_prepared
  intro limit
  apply callsOnce_answer
  · rfl
  · exact fun _ => rfl

/-- Every write makes at most one driver call, on the collection of its plan. -/
theorem callsOnce_executeWrite (driver : Driver) (plan : StatementPlan) :
    CallsOnce (collectionFromPlan plan) (executeWrite driver plan []) := by
  cases plan with
  | select plan => exact .none _ nofun
  | insert plan =>
      apply callsOnce_prepared
      intro documents
      split
      · exact .none _ nofun
      · apply callsOnce_answer
        · rfl
        · exact fun _ => rfl
      · apply callsOnce_answer
        · rfl
        · exact fun _ => rfl
  | update plan =>
      apply callsOnce_prepared
      intro filter
      apply callsOnce_prepared
      intro update
      apply callsOnce_answer
      · rfl
      · exact fun _ => rfl
  | delete plan =>
      apply callsOnce_prepared
      intro filter
      apply callsOnce_answer
      · rfl
      · exact fun _ => rfl

section Example

def peopleSchema : SchemaProfile where
  profileVersion := 1
  sampledDocuments := 1
  fields := [⟨⟨["name"]⟩, 1, 0, {.string}, {.scalar}, false⟩]

def peopleOnly : CollectionProfiles := .ofList [("people", peopleSchema)]

/-- A proxy whose clients delete people called Ada, and read all names. -/
def registry : Deployment where
  backend :=
    { databaseName := "app"
      profiles := peopleOnly
      catalog := projectPublicCollections peopleOnly
      resolverMinimumConfidence := 0.7
      projected := rfl
      confidenceBounds := by decide }
  parser query :=
    let name : Ast.Expr := .identifier (.new "name")
    if query = "DELETE FROM people WHERE name = 'ada'" then
      .ok [.deleteWhere "people" (.binaryOp name .eq (.value (.singleQuotedString "ada")))]
    else if query = "SELECT name FROM people" then
      .ok [.query (.limited (.select (.fromTable [.unnamedExpr name] "people" none)) none)]
    else .error "unexpected token"
  bsonText :=
    { display := fun _ => ""
      extendedJson := fun _ => ""
      hex := fun _ => "" }
  server := .ofDocuments

def person (name : String) : StoredDocument := ⟨[("name", .string name)], rfl⟩

/-- Two people, and a collection that is not exposed. -/
def registered (secret : String) : SystemState where
  contents collection :=
    if collection = "people" then [person "ada", person "grace"]
    else if collection = "secrets" then [⟨[("key", .string secret)], rfl⟩]
    else []

/-- A deletion of which only an error is heard, after it arrived or before. -/
def removeAda (arrived : Bool) : Exchange where
  statement := .simple "DELETE FROM people WHERE name = 'ada'"
  resolver _ := .error ⟨.dependency, "resolver unavailable"⟩
  circumstances := 0
  transmission := .lost "connection reset" arrived
  reply := .error (writeError "connection reset")

def readNames (names : List String) : Exchange where
  statement := .bound "SELECT name FROM people" []
  resolver _ := .error ⟨.dependency, "resolver unavailable"⟩
  circumstances := 0
  transmission := .answered
  reply := .ok (.query [⟨"name", .text⟩] (names.map fun name => [.text name]))

def dropPeople : Exchange where
  statement := .simple "DROP TABLE people"
  resolver _ := .error ⟨.dependency, "resolver unavailable"⟩
  circumstances := 0
  transmission := .answered
  reply := .error ⟨.invalidSyntax, "unexpected token"⟩

def registeredGrace (secret : String) : SystemState where
  contents := Function.update (registered secret).contents "people" [person "grace"]

end Example

end Deployment

end Mongres
