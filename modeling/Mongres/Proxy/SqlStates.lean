import Mongres.Proxy.AuditTrail
import Mongres.Proxy.InsertDocuments
import Mongres.Proxy.Protocol
import Mongres.Service.Resolver
import Mongres.Sql.Errors

/-!
# What the code of an error tells

Each kind of error has its own code, and a client can tell from it how far its statement has got:
whether it was parsed, whether the resolver was asked in vain, and whether the database was called.
-/

namespace Mongres

open Fallible

/-! ## Documents -/

@[simp]
theorem isRefusal_literalDottedKey : literalDottedKey.IsRefusal := .inr rfl

@[simp]
theorem refuses_mongoFieldName (path : FieldPath) : Refuses (mongoFieldName path) := by
  simp [mongoFieldName]

@[simp]
theorem refuses_bsonValue (value : SqlValue) : Refuses (bsonValue value) := by
  cases value <;> simp [bsonValue]

@[simp]
theorem refuses_logicalDocument (operator : String) (documents : List Document) :
    Refuses (logicalDocument operator documents) := by
  simp [logicalDocument]

mutual

theorem refuses_predicateDocument (predicate : Predicate) :
    Refuses (predicateDocument predicate) := by
  cases predicate with
  | compare path operator value => simp [predicateDocument]
  | inList path values negated => simp [predicateDocument, FailsOnlyWith.collect]
  | isNull path negated => simp [predicateDocument]
  | and predicates => simp [predicateDocument, refuses_predicateDocuments predicates]
  | or predicates => simp [predicateDocument, refuses_predicateDocuments predicates]

theorem refuses_predicateDocuments (predicates : List Predicate) :
    Refuses (predicateDocuments predicates) := by
  cases predicates with
  | nil => exact failsOnlyWith_ok
  | cons predicate predicates =>
      simp [predicateDocuments, refuses_predicateDocument predicate,
        refuses_predicateDocuments predicates]

end

theorem refuses_filterDocument (filter : Option Predicate) : Refuses (filterDocument filter) := by
  cases filter with
  | none => exact failsOnlyWith_ok
  | some predicate => exact refuses_predicateDocument predicate

theorem refuses_projectionDocument (projection : Projection) :
    Refuses (projectionDocument projection) := by
  cases projection with
  | all => exact failsOnlyWith_ok
  | fields fields => exact failsOnlyWith_bind.mpr ⟨.foldlM (by simp) fields [], by simp⟩

theorem refuses_insertNestedValue (document : Document) (segments : List String) (value : Bson) :
    Refuses (insertNestedValue document segments value) := by
  fun_induction insertNestedValue document segments value <;> simp_all

theorem refuses_buildInsertDocument (columns : List FieldPath) (row : List SqlValue) :
    Refuses (buildInsertDocument columns row) := by
  refine failsOnlyWith_ite.mpr ⟨by simp, fun _ => .foldlM (fun document cell => ?_) _ _⟩
  simp [refuses_insertNestedValue]

theorem refuses_updateDocument (assignments : List AssignmentPlan) :
    Refuses (updateDocument assignments) := by
  refine failsOnlyWith_ite.mpr ⟨by simp, fun _ => failsOnlyWith_bind.mpr ⟨?_, by simp⟩⟩
  refine .foldlM (fun progress assignment => ?_) _ _
  have validates : Refuses (validateUpdatePath assignment.path progress.2) := by
    simp [validateUpdatePath]
  simp [assign, validates]

/-! ## Driver calls -/

def Driver.Fails (driver : Driver) (message : String) : DriverCall → Prop
  | .find collection filter projection limit =>
      driver.find collection filter projection limit = .error message
  | .insertOne collection document => driver.insertOne collection document = .error message
  | .insertMany collection documents => driver.insertMany collection documents = .error message
  | .updateMany collection filter update =>
      driver.updateMany collection filter update = .error message
  | .deleteMany collection filter => driver.deleteMany collection filter = .error message

def DriverCall.failure (message : String) : DriverCall → ProxyError
  | .find _ _ _ _ => databaseError message
  | _ => writeError message

/-- The ways in which an execution ends, with the calls it has made. -/
inductive Ends (driver : Driver) (calls : List DriverCall) {α : Type} :
    Result α × List DriverCall → Prop where
  | refused (error : ProxyError) : error.IsRefusal → Ends driver calls (.error error, calls)
  | failed (call : DriverCall) (message : String) : driver.Fails message call →
      Ends driver calls (.error (call.failure message), calls ++ [call])
  | answered (value : α) (call : DriverCall) : (∀ message, ¬ driver.Fails message call) →
      Ends driver calls (.ok value, calls ++ [call])

section Ends

variable {driver : Driver} {calls : List DriverCall} {α β : Type}

theorem ends_prepared {attempt : Result α} {next : α → Result β × List DriverCall}
    (refuses : Refuses attempt) (each : ∀ value, Ends driver calls (next value)) :
    Ends driver calls (prepared calls attempt next) := by
  cases attempt with
  | ok value => exact each value
  | error error => exact .refused error (refuses error rfl)

theorem ends_answer {describe : String → ProxyError} {call : DriverCall} {reply : Except String α}
    (describes : ∀ message, describe message = call.failure message)
    (fails : ∀ message, reply = .error message ↔ driver.Fails message call) :
    Ends driver calls (answer describe calls call reply) := by
  cases reply with
  | ok value => exact .answered value call fun message failed => nomatch (fails message).mpr failed
  | error message =>
      have failed := (fails message).mp rfl
      rw [answer, Except.mapError, describes]
      exact .failed call message failed

theorem ends_executeSelect (plan : SelectPlan) :
    Ends driver calls (executeSelect driver plan calls) := by
  refine ends_prepared (refuses_filterDocument plan.filter) fun filter => ?_
  refine ends_prepared (refuses_projectionDocument plan.projection) fun projection => ?_
  refine ends_prepared (.transpose (by simp [selectLimit]) plan.limit) fun limit => ?_
  exact ends_answer (fun _ => rfl) fun _ => Iff.rfl

theorem ends_executeWrite (plan : StatementPlan) :
    Ends driver calls (executeWrite driver plan calls) := by
  cases plan with
  | select plan => exact .refused _ (.inr rfl)
  | insert plan =>
      refine ends_prepared (.collect fun row _ => refuses_buildInsertDocument plan.columns row) ?_
      intro documents
      split
      · exact .refused _ (.inl rfl)
      · exact ends_answer (fun _ => rfl) fun _ => map_eq_error_iff
      · exact ends_answer (fun _ => rfl) fun _ => map_eq_error_iff
  | update plan =>
      refine ends_prepared (refuses_predicateDocument plan.filter) fun filter => ?_
      refine ends_prepared (refuses_updateDocument plan.assignments) fun update => ?_
      exact ends_answer (fun _ => rfl) fun _ => map_eq_error_iff
  | delete plan =>
      refine ends_prepared (refuses_predicateDocument plan.filter) fun filter => ?_
      exact ends_answer (fun _ => rfl) fun _ => map_eq_error_iff

end Ends

/-! ## The write gate -/

/-- The attempt fails only because a write is ambiguous. -/
abbrev Disambiguates {α : Type} (attempt : Result α) : Prop :=
  FailsOnlyWith (fun error => error.kind = .ambiguousWrite) attempt

@[simp]
theorem kind_ambiguousWrite (message : String) :
    (ambiguousWrite message).kind = .ambiguousWrite := rfl

theorem disambiguates_validateResolverResponse (request : ResolverRequest) (plan : StatementPlan)
    (ambiguity : WriteAmbiguity) (response : ResolverResponse) (minimumConfidence : Float) :
    Disambiguates
      (validateResolverResponse request plan ambiguity response minimumConfidence) := by
  simp [validateResolverResponse, validateResolution]

theorem disambiguates_retypeAssignment (conversion : String) (expected : SqlValue → Bool)
    (plan : StatementPlan) (target : FieldPath) (value : SqlValue) :
    Disambiguates (retypeAssignment conversion expected plan target value) := by
  unfold retypeAssignment
  split
  · split <;> simp
  · simp

theorem disambiguates_applyResolution (plan : StatementPlan) (resolution : ValidatedResolution) :
    Disambiguates (applyResolution plan resolution) := by
  unfold applyResolution
  dsimp only
  split
  · simp
  · simp
  · split <;> simp
  · split
    · split <;> simp [retypeUpdateAssignment, disambiguates_retypeAssignment]
    · simp
  · split <;> simp
  · split <;> simp [retypeUpdateAssignmentAsString, disambiguates_retypeAssignment]

/-- The ways in which the gate blocks a write. -/
inductive BlocksWrite (plan : StatementPlan) (schema : SchemaProfile) (resolver : Resolver)
    (before after : GateState) (error : ProxyError) : Prop
  | refused : error.IsRefusal → BlocksWrite plan schema resolver before after error
  | ambiguous (ambiguity : WriteAmbiguity) (others : List WriteAmbiguity) :
      detectWriteAmbiguities plan schema = .ok (ambiguity :: others) →
      error.kind = .ambiguousWrite → BlocksWrite plan schema resolver before after error
  | unavailable (request : ResolverRequest) : resolver request = .error error →
      after.consulted = before.consulted ++ [request] →
      BlocksWrite plan schema resolver before after error

section Gate

variable {plan : StatementPlan} {schema : SchemaProfile} {resolver : Resolver}
  {minimumConfidence : Float} {before after : GateState} {error : ProxyError}

theorem refuses_detectWriteAmbiguities : Refuses (detectWriteAmbiguities plan schema) := by
  have paths : Refuses (writePaths plan) := by
    cases plan <;> simp [writePaths]
  refine failsOnlyWith_bind.mpr ⟨paths, fun found _ => failsOnlyWith_map.mpr (.collect ?_)⟩
  simp [ambiguityForPath]

theorem blocksWrite_of_resolveSingleAmbiguity {operation : WriteOperation}
    {ambiguity : WriteAmbiguity} (detected : detectWriteAmbiguities plan schema = .ok [ambiguity])
    (blocks : resolveSingleAmbiguity plan schema resolver minimumConfidence operation ambiguity
      before = (.error error, after)) : BlocksWrite plan schema resolver before after error := by
  unfold resolveSingleAmbiguity at blocks
  dsimp only at blocks
  split at blocks
  · cases blocks
    exact .ambiguous ambiguity [] detected rfl
  · split at blocks
    · rename_i unavailable
      cases blocks
      exact .unavailable _ unavailable rfl
    · split at blocks
      · rename_i rejects
        cases blocks
        exact .ambiguous ambiguity [] detected
          (disambiguates_validateResolverResponse _ _ _ _ _ _ rejects)
      · split at blocks
        · rename_i rejects
          cases blocks
          exact .ambiguous ambiguity [] detected (disambiguates_applyResolution _ _ _ rejects)
        · split at blocks
          · cases blocks
            exact .ambiguous ambiguity [] detected rfl
          · cases blocks

theorem blocksWrite_of_resolveWritePlan
    (blocks : resolveWritePlan plan schema resolver minimumConfidence before =
      (.error error, after)) : BlocksWrite plan schema resolver before after error := by
  unfold resolveWritePlan at blocks
  split at blocks
  · rename_i fails
    cases blocks
    exact .refused (refuses_detectWriteAmbiguities _ fails)
  · cases blocks
  · rename_i ambiguities nonempty detected
    split at blocks
    · rename_i fails
      have refuses : Refuses (writeOperation plan) := by
        cases plan <;> simp [writeOperation]
      cases blocks
      exact .refused (refuses _ fails)
    · split at blocks
      · exact blocksWrite_of_resolveSingleAmbiguity detected blocks
      · cases ambiguities with
        | nil => exact absurd rfl nonempty
        | cons ambiguity others =>
            cases blocks
            exact .ambiguous ambiguity others detected rfl

end Gate

/-! ## Parameters -/

section Parameters

variable (oid : PgType → Nat)

@[simp]
theorem isRefusal_unsupportedType (parameterType : PgType) :
    (unsupportedType oid parameterType).IsRefusal := .inr rfl

@[simp]
theorem isRefusal_invalidLength (typeName : String) : (invalidLength typeName).IsRefusal := .inl rfl

@[simp]
theorem refuses_parseBoolean (value : String) : Refuses (parseBoolean value) := by
  simp [parseBoolean]

@[simp]
theorem refuses_finiteFloat (value : Float) : Refuses (finiteFloat value) := by
  simp [finiteFloat]

@[simp]
theorem refuses_parseInteger (bits : Nat) (typeName value : String) :
    Refuses (parseInteger bits typeName value) := by
  unfold parseInteger
  split <;> simp

@[simp]
theorem refuses_decodeText (value : ByteArray) (parameterType : PgType) :
    Refuses (decodeText oid value parameterType) := by
  refine failsOnlyWith_bind.mpr ⟨by simp, fun text _ => ?_⟩
  cases parameterType <;> simp

@[simp]
theorem refuses_decodeBinary (value : ByteArray) (parameterType : PgType) :
    Refuses (decodeBinary oid value parameterType) := by
  unfold decodeBinary
  split
  · split <;> simp
  all_goals simp [fixedBinary, fixedBinaryFloat]

theorem refuses_portalParameters (ofCode : Int16 → FieldFormat) (portal : Portal) :
    Refuses (portalParameters oid ofCode portal) := by
  refine failsOnlyWith_ite.mpr ⟨by simp [parameterCountMismatch], fun _ => .collect ?_⟩
  rintro ⟨⟨value, parameterType⟩, index⟩ _
  refine failsOnlyWith_bind.mpr ⟨by simp [parameterFormat], fun format _ => ?_⟩
  cases value <;> cases format <;> simp [decodeParameter]

end Parameters

/-! ## Statements -/

/-- The plans of a text: the one it is lowered to, or that one with parameters bound to it. -/
inductive PlannedFrom (parser : Parser) (profiles : CollectionProfiles) (text : String) :
    StatementPlan → Prop where
  | lowered {plan : StatementPlan} : parseSqlForProfiles parser text profiles = .ok plan →
      PlannedFrom parser profiles text plan
  | bound {lowered plan : StatementPlan} {schema : SchemaProfile} {parameters : List SqlValue} :
      parseSqlForProfiles parser text profiles = .ok lowered →
      profiles[collectionFromPlan lowered]? = some schema →
      bindParameters lowered parameters schema = .ok plan → PlannedFrom parser profiles text plan

theorem PlannedFrom.listed {parser : Parser} {profiles : CollectionProfiles} {text : String}
    {plan : StatementPlan} (planned : PlannedFrom parser profiles text plan) :
    ∃ schema, profiles[collectionFromPlan plan]? = some schema := by
  cases planned with
  | lowered lowers =>
      obtain ⟨_, schema, _, listed, _⟩ := lowered_of_parseSqlForProfiles lowers
      exact ⟨schema, listed⟩
  | bound lowers listed binds =>
      obtain ⟨_, other, _, found, lowered⟩ := lowered_of_parseSqlForProfiles lowers
      cases Option.some.inj (listed.symm.trans found)
      obtain ⟨_, same, _⟩ := bindParameters_wellFormed (lowerStatement_wellFormed lowered) binds
      exact ⟨_, same ▸ listed⟩

section Served

variable (backend : ProxyBackend) (services : Services) (text : String)
  (before after : BackendState)

/-- What has happened when a statement is answered, or answered with an error of each kind. -/
inductive Served : Option ProxyError → Prop where
  | canned : after.calls = before.calls → Served none
  | executed (call : DriverCall) : after.calls = before.calls ++ [call] →
      (∀ message, ¬ services.driver.Fails message call) → Served none
  | unparsed (message : String) : services.parser text = .error message →
      after.calls = before.calls → after.gate = before.gate →
      Served (some ⟨.invalidSyntax, message⟩)
  | refused (error : ProxyError) : error.IsRefusal → after.calls = before.calls →
      Served (some error)
  | ambiguous (plan : StatementPlan) (schema : SchemaProfile) (ambiguity : WriteAmbiguity)
      (others : List WriteAmbiguity) (error : ProxyError) :
      PlannedFrom services.parser backend.profiles text plan →
      backend.profiles[collectionFromPlan plan]? = some schema →
      detectWriteAmbiguities plan schema = .ok (ambiguity :: others) →
      error.kind = .ambiguousWrite → after.calls = before.calls → Served (some error)
  | unavailable (request : ResolverRequest) (error : ProxyError) :
      services.resolver request = .error error → error.kind = .dependency →
      after.gate.consulted = before.gate.consulted ++ [request] → after.calls = before.calls →
      Served (some error)
  | failed (call : DriverCall) (message : String) : services.driver.Fails message call →
      after.calls = before.calls ++ [call] → Served (some (call.failure message))

end Served

section Handlers

variable {backend : ProxyBackend} {services : Services} {text : String}

theorem served_executeSelect {plan : SelectPlan} {state : BackendState} {schema : SchemaProfile}
    (listed : backend.profiles[plan.collection]? = some schema) :
    Served backend services text state (backend.executeSelect services plan state).2
      (errorOf (backend.executeSelect services plan state).1) := by
  unfold ProxyBackend.executeSelect
  -- The catalog has every listed collection, so that this dependency is never missing.
  rw [catalogForCollection_of_listed listed]
  dsimp only
  have ends : Ends services.driver state.calls
      (Mongres.executeSelect services.driver plan state.calls) := ends_executeSelect plan
  generalize Mongres.executeSelect services.driver plan state.calls = run at ends
  cases ends with
  | refused error refusal => exact .refused error refusal rfl
  | failed call message fails => exact .failed call message fails rfl
  | answered documents call answers => exact .executed call rfl answers

/-- What the resolver fails with is that it is a dependency. -/
def Resolver.IsDependency (resolver : Resolver) : Prop :=
  ∀ request, FailsOnlyWith (fun error => error.kind = .dependency) (resolver request)

theorem isDependency_resolve (decode : String → Option ResolverResponse)
    (send : Json → Option Service.HttpReply) :
    Resolver.IsDependency (Service.ResolverClient.resolve decode send) := by
  intro request
  unfold Service.ResolverClient.resolve
  split
  · simp
  · split <;> simp

theorem served_executePlan (depends : services.resolver.IsDependency) {plan : StatementPlan}
    (planned : PlannedFrom services.parser backend.profiles text plan) (state : BackendState) :
    Served backend services text state (backend.executePlan services plan state).2
      (errorOf (backend.executePlan services plan state).1) := by
  obtain ⟨schema, listed⟩ := planned.listed
  cases writes : plan.isWrite with
  | false =>
      cases plan with
      | select plan => exact served_executeSelect listed
      | _ => cases writes
  | true =>
      rcases decided : resolveWritePlan plan schema services.resolver
        backend.resolverMinimumConfidence state.gate with ⟨error | write, gate⟩
      · rw [executePlan_of_error backend services writes listed decided]
        cases blocksWrite_of_resolveWritePlan decided with
        | refused refusal => exact .refused error refusal rfl
        | ambiguous ambiguity others detected kind =>
            exact .ambiguous plan schema ambiguity others error planned listed detected kind rfl
        | unavailable request fails consulted =>
            exact .unavailable request error fails (depends request error fails) consulted rfl
      · rw [executePlan_of_ok backend services writes listed decided]
        have ends : Ends services.driver state.calls
            (executeWrite services.driver write.plan state.calls) := ends_executeWrite write.plan
        generalize executeWrite services.driver write.plan state.calls = run at ends
        cases ends with
        | refused error refusal => exact .refused error refusal rfl
        | failed call message fails => exact .failed call message fails rfl
        | answered outcome call answers =>
            obtain ⟨result, tagged⟩ :=
              isSome_commandResult (isWrite_of_resolveWritePlan writes decided) outcome
            dsimp only
            rw [completed, tagged]
            exact .executed call rfl answers

theorem served_withPlan {state : BackendState}
    {next : StatementPlan → BackendState → Result ExecutionResult × BackendState}
    (each : ∀ plan, parseSqlForProfiles services.parser text backend.profiles = .ok plan →
      Served backend services text state (next plan state).2 (errorOf (next plan state).1)) :
    Served backend services text state (backend.withPlan services text state next).2
      (errorOf (backend.withPlan services text state next).1) := by
  unfold ProxyBackend.withPlan
  split
  · rename_i error fails
    rcases parseSqlForProfiles_eq_error fails with ⟨message, unparsed, rfl⟩ | refusal
    · exact .unparsed message unparsed rfl rfl
    · exact .refused error refusal rfl
  · rename_i plan lowers
    exact each plan lowers

theorem served_execute (depends : services.resolver.IsDependency) (state : BackendState) :
    Served backend services text state (backend.execute services text state).2
      (errorOf (backend.execute services text state).1) := by
  unfold ProxyBackend.execute
  split
  · exact .canned rfl
  · exact served_withPlan fun plan lowers => served_executePlan depends (.lowered lowers) state

theorem served_executeBound (depends : services.resolver.IsDependency)
    (parameters : List SqlValue) (state : BackendState) :
    Served backend services text state (backend.executeBound services text parameters state).2
      (errorOf (backend.executeBound services text parameters state).1) := by
  unfold ProxyBackend.executeBound
  split
  · dsimp only
    split
    · exact .canned rfl
    · exact .refused _ (.inl rfl) rfl
  · refine served_withPlan fun lowered lowers => ?_
    obtain ⟨_, schema, _, listed, _⟩ := lowered_of_parseSqlForProfiles lowers
    have found : schemaForPlanFromProfiles lowered backend.profiles = .ok schema :=
      okOr_eq_ok_iff.mpr listed
    rw [found]
    dsimp only
    split
    · rename_i error fails
      exact .refused error (refuses_bindParameters _ _ _ _ fails) rfl
    · rename_i plan binds
      exact served_executePlan depends (.bound lowers listed binds) state

end Handlers

/-! ## Replies -/

/-- A reply says what has happened to its statement; the code of a failed call is its own. -/
structure Accounted (backend : ProxyBackend) (services : Services) (text : String)
    (before : BackendState) (reply : Except ErrorInfo (Option Response) × BackendState) :
    Prop where
  served : ∃ error, Served backend services text before reply.2 error ∧
    errorOf reply.1 = error.map proxyErrorToPgwire
  failedCall_iff : (errorOf reply.1).map ErrorInfo.code = some "XX000" ↔
    ∃ call message, services.driver.Fails message call ∧
      reply.2.calls = before.calls ++ [call]

theorem errorOf_wireReply (ofCode : Int16 → FieldFormat) (format : Format)
    (result : Result ExecutionResult) :
    errorOf (wireReply ofCode format result) = (errorOf result).map proxyErrorToPgwire := by
  cases result <;> rfl

theorem DriverCall.kind_failure (message : String) (call : DriverCall) :
    (call.failure message).kind = .database := by
  cases call <;> rfl

section Accounts

variable {backend : ProxyBackend} {services : Services} {text : String}
  {before after : BackendState}

/-- Only a failed call has the code of an internal error, and every failed call has it. -/
theorem Served.failedCall_iff {error : Option ProxyError}
    (served : Served backend services text before after error) :
    error.map (fun error => error.kind.sqlState) = some "XX000" ↔
      ∃ call message, services.driver.Fails message call ∧
        after.calls = before.calls ++ [call] := by
  constructor
  · intro code
    cases served with
    | refused error refusal _ =>
        rcases refusal with kind | kind <;> simp [kind, ErrorKind.sqlState] at code
    | ambiguous plan schema ambiguity others error _ _ _ kind _ =>
        simp [kind, ErrorKind.sqlState] at code
    | unavailable request error _ kind _ _ => simp [kind, ErrorKind.sqlState] at code
    | failed call message fails made => exact ⟨call, message, fails, made⟩
    | _ => simp [ErrorKind.sqlState] at code
  · intro called
    obtain ⟨call, message, fails, made⟩ := called
    have touched : after.calls ≠ before.calls := by simp [made]
    cases served with
    | failed other text _ _ => simp [DriverCall.kind_failure, ErrorKind.sqlState]
    | executed other same answers =>
        cases List.singleton_inj.mp (List.append_cancel_left (same.symm.trans made))
        exact absurd fails (answers message)
    | _ => contradiction

theorem accounted_of_served {reply : Except ErrorInfo (Option Response)}
    {error : Option ProxyError} (served : Served backend services text before after error)
    (same : errorOf reply = error.map proxyErrorToPgwire) :
    Accounted backend services text before (reply, after) where
  served := ⟨error, served, same⟩
  failedCall_iff := by
    rw [← served.failedCall_iff, same, Option.map_map]
    rfl

end Accounts

def Services.overHttp (services : Services) (decode : String → Option ResolverResponse)
    (send : Json → Option Service.HttpReply) : Services :=
  { services with resolver := Service.ResolverClient.resolve decode send }

/-- The handlers of both protocols account for every reply. -/
theorem accounted_of_handlers (backend : ProxyBackend) (services : Services)
    (decode : String → Option ResolverResponse) (send : Json → Option Service.HttpReply)
    (oid : PgType → Nat) (ofCode : Int16 → FieldFormat) (state : BackendState) :
    (∀ query, Accounted backend (services.overHttp decode send) query state
      (backend.doQuery (services.overHttp decode send) ofCode query state)) ∧
    ∀ portal : Portal,
      Accounted backend (services.overHttp decode send) portal.statement.sql state
        (backend.doQueryPortal (services.overHttp decode send) oid ofCode portal state) := by
  have depends : (services.overHttp decode send).resolver.IsDependency :=
    isDependency_resolve decode send
  constructor
  · intro query
    have served := @served_execute backend _ query depends state
    unfold ProxyBackend.doQuery
    generalize backend.execute (services.overHttp decode send) query state = run at served ⊢
    exact accounted_of_served served (errorOf_wireReply ofCode .unifiedText run.1)
  · intro portal
    cases decodes : portalParameters oid ofCode portal with
    | error error =>
        rw [doQueryPortal_of_undecoded decodes]
        have refusal : error.IsRefusal := refuses_portalParameters oid ofCode portal error decodes
        exact accounted_of_served (.refused error refusal rfl) rfl
    | ok parameters =>
        rw [doQueryPortal_of_decoded decodes]
        have served := @served_executeBound backend _ portal.statement.sql depends parameters state
        exact accounted_of_served served (errorOf_wireReply ofCode portal.resultColumnFormat _)

end Mongres
