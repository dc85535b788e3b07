import Mongres.Proxy.Deployment

/-!
# Confinement

A proxy reads and writes the collections of its profiles only.  Whatever its clients send, every
other collection stays as it is and has no influence on any reply.
-/

namespace Mongres

open Fallible

/-- A collection that a proxy was configured for. -/
def ProxyBackend.Exposes (backend : ProxyBackend) (collection : String) : Prop :=
  ∃ schema, backend.profiles[collection]? = some schema

namespace Deployment

variable {deployment : Deployment}

theorem Plans.exposes {statement : ClientStatement} {plan : StatementPlan}
    (plans : deployment.Plans statement plan) :
    deployment.backend.Exposes (collectionFromPlan plan) := by
  obtain ⟨schema, listed, _⟩ := plans.wellFormed
  exact ⟨schema, listed⟩

theorem collection_of_callsOnce {α : Type} {collection : String} {run : Result α × List DriverCall}
    (once : CallsOnce collection run) : ∀ call ∈ run.2, call.collection = collection := by
  cases once with
  | none result failed => simp
  | once result call about described => exact List.forall_mem_singleton.mpr about

/-! ## What changes a database -/

theorem map_eq_error_iff {α β : Type} {result : Result α} {translate : α → β}
    {error : ProxyError} : result.map translate = .error error ↔ result = .error error := by
  cases result <;> simp [Except.map]

/-- Every call of a statement is on the one exposed collection of its plan. -/
theorem Handled.confined {services : Services} {gate : GateState} {statement : ClientStatement}
    {reply : Result ExecutionResult} {calls : List DriverCall}
    (handled : deployment.Handled services gate statement reply calls) :
    calls = [] ∨ ∃ collection, deployment.backend.Exposes collection ∧
      ∀ call ∈ calls, call.collection = collection := by
  cases handled with
  | canned _ _ => exact .inl rfl
  | refused _ => exact .inl rfl
  | @read plan table outcome _ plans _ ran =>
      have once := callsOnce_executeSelect services.driver plan
      rw [ran] at once
      exact .inr ⟨_, plans.exposes, collection_of_callsOnce once⟩
  | @failed plan schema write _ _ _ plans _ _ passed ran
  | @wrote plan schema write _ _ _ plans _ _ passed ran =>
      have once := callsOnce_executeWrite services.driver write.plan
      rw [ran, (retagged_of_passed passed).collectionFromPlan_eq] at once
      exact .inr ⟨_, plans.exposes, collection_of_callsOnce once⟩

theorem calls_executeSelect (driver : Driver) (plan : SelectPlan) :
    (executeSelect driver plan []).2 = [] ∨ ∃ filter projection limit,
      (executeSelect driver plan []).2 = [.find plan.collection filter projection limit] := by
  unfold executeSelect
  cases filterDocument plan.filter with
  | error error => exact .inl rfl
  | ok filter =>
      cases projectionDocument plan.projection with
      | error error => exact .inl rfl
      | ok projection =>
          cases transpose selectLimit plan.limit with
          | error error => exact .inl rfl
          | ok limit => exact .inr ⟨filter, projection, limit, rfl⟩

theorem effect_find (server : Server) (circumstances : Circumstances) (contents : Contents)
    (collection : String) (filter : Document) (projection : Option Document)
    (limit : Option Int64) :
    server.effect circumstances contents (.find collection filter projection limit) = contents :=
  Function.update_eq_self _ _

theorem effects_of_executeSelect {server : Server} {circumstances : Circumstances}
    {transmission : Transmission} {contents : Contents} {driver : Driver} {plan : SelectPlan}
    {outcome : Result (List Document)} {calls : List DriverCall}
    (ran : executeSelect driver plan [] = (outcome, calls)) :
    server.effects circumstances transmission contents calls = contents := by
  have made := calls_executeSelect driver plan
  rw [ran] at made
  rcases made with rfl | ⟨filter, projection, limit, rfl⟩
  · exact server.effects_nil circumstances transmission contents
  · unfold Server.effects
    split
    · exact effect_find _ _ _ _ _ _ _
    · rfl

theorem Handled.reply_of_effects_ne {services : Services} {gate : GateState}
    {statement : ClientStatement} {reply : Result ExecutionResult} {calls : List DriverCall}
    (handled : deployment.Handled services gate statement reply calls)
    {circumstances : Circumstances} {transmission : Transmission} {contents : Contents}
    (changed : deployment.server.effects circumstances transmission contents calls ≠ contents) :
    (∃ result, reply = .ok (.command result)) ∨
      ∃ error, reply = .error error ∧ error.kind = .database := by
  cases handled with
  | canned _ _ => exact absurd (deployment.server.effects_nil _ _ _) changed
  | refused _ => exact absurd (deployment.server.effects_nil _ _ _) changed
  | @read plan table outcome _ plans _ ran =>
      exact absurd (effects_of_executeSelect ran) changed
  | @failed plan schema write _ error _ plans _ _ passed ran =>
      right
      have once := callsOnce_executeWrite services.driver write.plan
      rw [ran] at once
      cases once with
      | none _ _ => exact absurd (deployment.server.effects_nil _ _ _) changed
      | once _ call _ described => exact ⟨error, rfl, described error rfl⟩
  | @wrote plan schema write _ outcome _ plans writes _ passed ran =>
      left
      obtain ⟨result, tagged⟩ :=
        isSome_commandResult ((retagged_of_passed passed).isWrite_eq.trans writes) outcome
      rw [completed, tagged]
      exact ⟨result, rfl⟩

/-! ## Runs -/

theorem Step.contents_elsewhere {state next : SystemState} {exchange : Exchange}
    (step : deployment.Step state exchange next) {collection : String}
    (hidden : ¬ deployment.backend.Exposes collection) :
    next.contents collection = state.contents collection := by
  obtain ⟨calls, handled, same⟩ := step.handled
  rw [same]
  apply Server.effects_elsewhere
  intro call membership
  rcases handled.confined with rfl | ⟨exposed, exposes, about⟩
  · cases membership
  · rw [about call membership]
    rintro rfl
    exact hidden exposes

/-- An exchange after which the database may have changed: it was answered with a command, or the
database reported an error. -/
def Exchange.MayWrite (exchange : Exchange) : Prop :=
  (∃ result, exchange.reply = .ok (.command result)) ∨
    ∃ error, exchange.reply = .error error ∧ error.kind = .database

theorem Step.contents_of_not_mayWrite {state next : SystemState} {exchange : Exchange}
    (step : deployment.Step state exchange next) (quiet : ¬ Exchange.MayWrite exchange) :
    next.contents = state.contents := by
  obtain ⟨calls, handled, same⟩ := step.handled
  rw [same]
  by_contra changed
  exact quiet (handled.reply_of_effects_ne changed)

/-- In every run, the collections that are not exposed keep their documents, and while no command
is answered and no error of the database reported, so do all collections. -/
theorem contents_of_run (deployment : Deployment) :
    (∀ start exchanges finish, Labelled.Run deployment.Step start exchanges finish →
      ∀ collection, ¬ deployment.backend.Exposes collection →
        finish.contents collection = start.contents collection) ∧
    ∀ start exchanges finish, Labelled.Run deployment.Step start exchanges finish →
      (∀ exchange ∈ exchanges, ¬ Exchange.MayWrite exchange) →
      finish.contents = start.contents := by
  constructor
  · intro start exchanges finish run collection hidden
    refine run.invariant
      (fun state => state.contents collection = start.contents collection) ?_ rfl
    intro state exchange next step before
    exact (step.contents_elsewhere hidden).trans before
  · intro start exchanges finish run quiet
    refine run.invariant_of_labels (fun state => state.contents = start.contents) ?_ quiet rfl
    intro state exchange next step silent before
    exact (step.contents_of_not_mayWrite silent).trans before

section Example

theorem step_removeAda (secret : String) :
    registry.Step (registered secret) (removeAda true) (registeredGrace secret) :=
  (step_iff registry).mpr ⟨rfl, rfl⟩

theorem step_readNames (secret : String) :
    registry.Step (registeredGrace secret) (readNames ["grace"]) (registeredGrace secret) := by
  apply (step_iff registry).mpr
  refine ⟨rfl, ?_⟩
  have same : registry.server.effects (readNames ["grace"]).circumstances
      (readNames ["grace"]).transmission
      (registeredGrace secret).contents
      (registry.handledFor (readNames ["grace"]) (registeredGrace secret)).2.calls =
        (registeredGrace secret).contents := effect_find _ _ _ _ _ _ _
  rw [same]
  rfl

theorem run_registry (secret : String) :
    Labelled.Run registry.Step (registered secret) [removeAda true, readNames ["grace"]]
      (registeredGrace secret) :=
  .next (step_removeAda secret) (.next (step_readNames secret) (.done _))

private theorem not_exposes_secrets : ¬ registry.backend.Exposes "secrets" := by
  rintro ⟨schema, listed⟩
  cases listed

private theorem run_dropPeople (secret : String) :
    Labelled.Run registry.Step (registered secret) [dropPeople]
      { registered secret with diagnostics := ["rejected PostgreSQL client statement: " ++
        "sql=DROP TABLE people error=unexpected token"] } :=
  .next ((step_iff registry).mpr ⟨rfl, rfl⟩) (.done _)

/-- A deletion of which only an error was heard leaves the secrets, and a refusal everything. -/
theorem contents_of_run_registry :
    (registeredGrace "key").contents "secrets" = (registered "key").contents "secrets" ∧
      ∃ finish, Labelled.Run registry.Step (registered "key") [dropPeople] finish ∧
        finish.contents = (registered "key").contents := by
  have frame := (contents_of_run registry).1 _ _ _ (run_registry "key") "secrets"
    not_exposes_secrets
  refine ⟨frame, _, run_dropPeople "key", ?_⟩
  apply (contents_of_run registry).2 _ _ _ (run_dropPeople "key")
  intro exchange membership
  cases List.mem_singleton.mp membership
  rintro (⟨result, same⟩ | ⟨error, same, kind⟩)
  · cases same
  · cases same
    cases kind

end Example

/-! ## Two runs -/

/-- Two drivers that answer every call on a collection alike. -/
structure AgreeOn (one other : Driver) (collection : String) : Prop where
  find : one.find collection = other.find collection
  insertOne : one.insertOne collection = other.insertOne collection
  insertMany : one.insertMany collection = other.insertMany collection
  updateMany : one.updateMany collection = other.updateMany collection
  deleteMany : one.deleteMany collection = other.deleteMany collection

theorem executeSelect_congr {one other : Driver} {plan : SelectPlan}
    (agree : AgreeOn one other plan.collection) (calls : List DriverCall) :
    executeSelect one plan calls = executeSelect other plan calls := by
  unfold executeSelect
  rw [agree.find]

theorem executeWrite_congr {one other : Driver} {plan : StatementPlan}
    (agree : AgreeOn one other (collectionFromPlan plan)) (calls : List DriverCall) :
    executeWrite one plan calls = executeWrite other plan calls := by
  cases plan with
  | select plan => rfl
  | insert plan =>
      change executeInsert one plan calls = executeInsert other plan calls
      have same : one.insertOne plan.collection = other.insertOne plan.collection := agree.insertOne
      have sameMany : one.insertMany plan.collection = other.insertMany plan.collection :=
        agree.insertMany
      unfold executeInsert
      rw [same, sameMany]
  | update plan =>
      change executeUpdate one plan calls = executeUpdate other plan calls
      have same : one.updateMany plan.collection = other.updateMany plan.collection :=
        agree.updateMany
      unfold executeUpdate
      rw [same]
  | delete plan =>
      change executeDelete one plan calls = executeDelete other plan calls
      have same : one.deleteMany plan.collection = other.deleteMany plan.collection :=
        agree.deleteMany
      unfold executeDelete
      rw [same]

theorem exposes_of_catalog {backend : ProxyBackend} {collection : String}
    {table : CollectionCatalog} (found : backend.catalog[collection]? = some table) :
    backend.Exposes collection := by
  rw [backend.projected, projectPublicCollections, Std.TreeMap.getElem?_map,
    Option.map_eq_some_iff] at found
  obtain ⟨schema, listed, _⟩ := found
  exact ⟨schema, listed⟩

section Drivers

variable {backend : ProxyBackend} {services : Services} {other : Driver}

theorem executePlan_congr
    (agree : ∀ collection, backend.Exposes collection → AgreeOn services.driver other collection)
    (plan : StatementPlan) (state : BackendState) :
    backend.executePlan services plan state =
      backend.executePlan { services with driver := other } plan state := by
  cases writes : plan.isWrite with
  | false =>
      cases plan with
      | select plan =>
          change backend.executeSelect services plan state =
            backend.executeSelect { services with driver := other } plan state
          unfold ProxyBackend.executeSelect ProxyBackend.catalogForCollection
          cases found : backend.catalog[plan.collection]? with
          | none => rfl
          | some table =>
              have same := executeSelect_congr (agree _ (exposes_of_catalog found)) state.calls
              dsimp only [okOr]
              rw [same]
      | _ => cases writes
  | true =>
      cases found : backend.profiles[collectionFromPlan plan]? with
      | none =>
          cases plan with
          | select plan => cases writes
          | _ =>
              unfold ProxyBackend.executePlan schemaForPlanFromProfiles
              dsimp only
              rw [found]
              rfl
      | some schema =>
          rcases decided : resolveWritePlan plan schema services.resolver
            backend.resolverMinimumConfidence state.gate with ⟨error | write, gate⟩
          · rw [executePlan_of_error backend services writes found decided]
            exact (executePlan_of_error backend { services with driver := other } writes found
              decided).symm
          · have retagged := retagged_of_passed (passed_of_resolveWritePlan decided)
            have exposed : backend.Exposes (collectionFromPlan write.plan) :=
              retagged.collectionFromPlan_eq ▸ ⟨schema, found⟩
            rw [executePlan_of_ok backend services writes found decided,
              executeWrite_congr (agree _ exposed) state.calls]
            exact (executePlan_of_ok backend { services with driver := other } writes found
              decided).symm

theorem withPlan_congr {α : Type} {next otherNext : StatementPlan → BackendState →
      Result α × BackendState} (same : ∀ plan state, next plan state = otherNext plan state)
    (query : String) (state : BackendState) :
    backend.withPlan services query state next =
      backend.withPlan { services with driver := other } query state otherNext := by
  unfold ProxyBackend.withPlan
  dsimp only
  cases parseSqlForProfiles services.parser query backend.profiles with
  | error error => rfl
  | ok plan => exact same plan state

theorem handle_congr
    (agree : ∀ collection, deployment.backend.Exposes collection →
      AgreeOn services.driver other collection)
    (statement : ClientStatement) (state : BackendState) :
    deployment.backend.handle services statement state =
      deployment.backend.handle { services with driver := other } statement state := by
  cases statement with
  | simple query =>
      unfold ProxyBackend.handle ProxyBackend.execute
      dsimp only
      split
      · rfl
      · exact withPlan_congr (executePlan_congr agree) query state
  | bound query parameters =>
      unfold ProxyBackend.handle ProxyBackend.executeBound
      dsimp only
      split
      · rfl
      · apply withPlan_congr
        intro plan state
        split
        · rfl
        · split
          · rfl
          · exact executePlan_congr agree _ _

end Drivers

/-- Two states between which no client can tell a difference: they agree on the exposed
collections and on what the proxy remembers. -/
structure Indistinguishable (deployment : Deployment) (one other : SystemState) : Prop where
  contents : ∀ collection, deployment.backend.Exposes collection →
    one.contents collection = other.contents collection
  gate : one.gate = other.gate
  diagnostics : one.diagnostics = other.diagnostics

theorem agreeOn_driver (server : Server) (circumstances : Circumstances)
    (transmission : Transmission) {one other : Contents} {collection : String}
    (same : one collection = other collection) :
    AgreeOn (transmission.driver (server.driver circumstances one))
      (transmission.driver (server.driver circumstances other)) collection where
  find := by simp only [Transmission.driver, Server.driver, same]
  insertOne := by simp only [Transmission.driver, Server.driver, same]
  insertMany := by simp only [Transmission.driver, Server.driver, same]
  updateMany := by simp only [Transmission.driver, Server.driver, same]
  deleteMany := by simp only [Transmission.driver, Server.driver, same]

theorem effects_congr (server : Server) (circumstances : Circumstances)
    (transmission : Transmission) {Exposed : String → Prop} {one other : Contents}
    {calls : List DriverCall}
    (same : ∀ collection, Exposed collection → one collection = other collection)
    (about : ∀ call ∈ calls, Exposed call.collection) :
    ∀ collection, Exposed collection →
      server.effects circumstances transmission one calls collection =
        server.effects circumstances transmission other calls collection := by
  unfold Server.effects
  split
  · induction calls generalizing one other with
    | nil => exact same
    | cons call calls inductionHypothesis =>
        rw [List.forall_mem_cons] at about
        apply inductionHypothesis _ about.2
        intro collection exposed
        by_cases target : collection = call.collection
        · subst target
          rw [Server.effect, Server.effect, Function.update_self, Function.update_self,
            same _ exposed]
        · rw [server.effect_of_ne target, server.effect_of_ne target, same _ exposed]
  · exact same

/-- From states that cannot be told apart, a statement has the same reply, and leads to such
states again. -/
theorem Step.follows {state other next : SystemState} {exchange : Exchange}
    (alike : deployment.Indistinguishable state other)
    (step : deployment.Step state exchange next) :
    ∃ otherNext, deployment.Step other exchange otherNext ∧
      deployment.Indistinguishable next otherNext := by
  obtain ⟨reply, rfl⟩ := (step_iff deployment).mp step
  have agree : ∀ collection, deployment.backend.Exposes collection →
      AgreeOn (deployment.services exchange.resolver exchange.circumstances exchange.transmission
          state.contents).driver
        (exchange.transmission.driver
          (deployment.server.driver exchange.circumstances other.contents)) collection :=
    fun collection exposes => agreeOn_driver _ _ _ (alike.contents collection exposes)
  have replies : deployment.handledFor exchange state = deployment.handledFor exchange other := by
    unfold handledFor
    rw [handle_congr agree, alike.gate, alike.diagnostics]
    rfl
  have confined := (@handled_of_handledFor deployment exchange state).confined
  refine ⟨_, (step_iff deployment).mpr ⟨replies ▸ reply, rfl⟩, ?_, ?_, ?_⟩
  · rw [← replies]
    apply effects_congr deployment.server _ exchange.transmission alike.contents
    intro call membership
    rcases confined with none | ⟨exposed, exposes, about⟩
    · rw [none] at membership
      cases membership
    · exact about call membership ▸ exposes
  · rw [replies]
  · rw [replies]

/-- What the hidden collections hold has no influence: from states that agree on the exposed
collections, the same statements have the same replies. -/
theorem noninterference (deployment : Deployment) {start finish other : SystemState}
    {exchanges : List Exchange} (alike : deployment.Indistinguishable start other)
    (run : Labelled.Run deployment.Step start exchanges finish) :
    ∃ otherFinish, Labelled.Run deployment.Step other exchanges otherFinish ∧
      deployment.Indistinguishable finish otherFinish :=
  run.simulates (fun _ _ _ _ related step => step.follows related) alike

section Example

/-- Another secret, and the same replies. -/
theorem noninterference_registry :
    ∃ finish, Labelled.Run registry.Step (registered "other") [removeAda true, readNames ["grace"]]
        finish ∧
      registry.Indistinguishable (registeredGrace "key") finish := by
  refine noninterference registry ?_ (run_registry "key")
  refine ⟨?_, rfl, rfl⟩
  intro collection exposed
  have visible : collection ≠ "secrets" := by
    rintro rfl
    exact not_exposes_secrets exposed
  simp [registered, visible]

end Example

end Deployment

end Mongres
