import Mongres.Library.Overlap
import Mongres.Proxy.Async
import Mongres.Proxy.Confinement

/-!
# Clients at the same time

Clients whose statements are executed at the same time, on one backend, with driver calls that
overlap.  MongoDB need not take a call at one moment.  But where it answers the calls as if it did,
the clients get the replies that they would get if each statement was served at one moment between
its arrival and its reply.
-/

namespace Mongres

open Linearization

/-- The state of a system after a statement that left notes. -/
def SystemState.after (state : SystemState) (notes : List ProxyNote) (contents : Contents) :
    SystemState where
  contents
  gate := state.gate.noted notes
  diagnostics := state.diagnostics ++ notes.filterMap ProxyNote.logged?

namespace Deployment

variable (deployment : Deployment)

def program : ClientStatement → Task outside (Result ExecutionResult)
  | .simple query => deployment.backend.executeTask deployment.parser deployment.bsonText query
  | .bound query parameters =>
      deployment.backend.executeBoundTask deployment.parser deployment.bsonText query parameters

/-- A call that nothing else runs into: it is answered, or lost on its way to the database or
back. -/
def Performs (contents : Contents) (call : DriverCall) (outcome : Except String call.Answer)
    (after : Contents) : Prop :=
  ∃ (circumstances : Circumstances) (transmission : Transmission),
    outcome = (transmission.driver (deployment.server.driver circumstances contents)).answer call ∧
      after = deployment.server.effects circumstances transmission contents [call]

theorem isOrderly_program (statement : ClientStatement) :
    (deployment.program statement).IsOrderly := by
  cases statement with
  | simple query =>
      exact ProxyBackend.isOrderly_executeTask deployment.backend deployment.parser
        deployment.bsonText query
  | bound query parameters =>
      exact ProxyBackend.isOrderly_executeBoundTask deployment.backend deployment.parser
        deployment.bsonText query parameters

/-- A statement that is served at one moment, whatever was noted before. -/
def ServesAt (statement : ClientStatement) (contents : Contents)
    (reply : Result ExecutionResult) (notes : List ProxyNote) (after : Contents) : Prop :=
  ∃ resolver circumstances transmission, ∀ state : SystemState, state.contents = contents →
    deployment.serve statement resolver circumstances transmission state =
      (reply, state.after notes after)

theorem serve_eq (statement : ClientStatement) (resolver : Resolver)
    (circumstances : Circumstances) (transmission : Transmission) (state : SystemState) :
    let (reply, calls, notes) := (deployment.program statement).run resolver
      (transmission.driver (deployment.server.driver circumstances state.contents)).answer
    deployment.serve statement resolver circumstances transmission state =
      (reply, state.after notes
        (deployment.server.effects circumstances transmission state.contents calls)) := by
  let services := deployment.services resolver circumstances transmission state.contents
  have does : ProxyBackend.Does services (deployment.program statement)
      (deployment.backend.handle services statement) := by
    cases statement with
    | simple query => exact @ProxyBackend.does_executeTask deployment.backend services query
    | bound query parameters =>
        exact @ProxyBackend.does_executeBoundTask deployment.backend services query parameters
  have handled := does { gate := state.gate, diagnostics := state.diagnostics }
  dsimp only at handled ⊢
  unfold serve
  dsimp only
  rw [handled]
  rfl

theorem servesAt_of_serves {statement : ClientStatement} {contents after : Contents}
    {reply : Result ExecutionResult} {notes : List ProxyNote}
    (serves : (deployment.program statement).Serves deployment.Performs contents reply notes after) :
    deployment.ServesAt statement contents reply notes after := by
  have answers : Nonempty outside.Answer := ⟨.error ⟨.dependency, ""⟩⟩
  obtain ⟨answer, runs⟩ := (deployment.isOrderly_program statement).runsTo serves
  cases runs with
  | unchanged runs =>
      refine ⟨fun _ => answer, 0, .answered, ?_⟩
      rintro state rfl
      have served := deployment.serve_eq statement (fun _ => answer) 0 .answered state
      rw [runs] at served
      exact served.trans (by rw [Server.effects_nil])
  | @performed call outcome _ performed runs =>
      obtain ⟨circumstances, transmission, rfl, rfl⟩ := performed
      refine ⟨fun _ => answer, circumstances, transmission, ?_⟩
      rintro state rfl
      have served :=
        deployment.serve_eq statement (fun _ => answer) circumstances transmission state
      rw [runs _ rfl] at served
      exact served

/-! ## The order of the statements -/

section Sessions

variable {Session : Type}

def clients : Overlapping outside Session (Result ExecutionResult) where
  rest _ := none
  calling _ := false
  notes := []

/-- Clients whose statements or calls are served at one moment. -/
def turns {Request Answer : Type} (contents : Contents) :
    Atomic outside Session Request Answer Contents where
  standing _ := .idle
  shared := contents
  notes := []

def observed (contents : Contents) (notes : List (Session × ProxyNote)) : SystemState :=
  SystemState.after { contents } (notes.map Prod.snd) contents

theorem observed_append (contents after : Contents) (notes : List (Session × ProxyNote))
    (session : Session) (more : List ProxyNote) :
    (observed contents notes).after more after =
      observed after (notes ++ more.map (session, ·)) := by
  simp [observed, SystemState.after, GateState.noted, Function.comp_def]

/-- The statements that are served at one moment each are exchanges, one after another. -/
theorem steps_of_services {start finish : Contents × List (Session × ProxyNote)}
    {services : List (Session × ClientStatement × Result ExecutionResult)}
    (run : Labelled.Run (Service fun statement =>
      (deployment.program statement).Serves deployment.Performs) start services finish) :
    ∃ exchanges, Labelled.Run deployment.Step (observed start.1 start.2) exchanges
        (observed finish.1 finish.2) ∧
      exchanges.map (fun exchange => (exchange.statement, exchange.reply)) =
        services.map Prod.snd := by
  induction run with
  | done state => exact ⟨[], .done _, rfl⟩
  | @next state middle finish service services first _ inductionHypothesis =>
      obtain ⟨notes, serves, same⟩ := first
      obtain ⟨resolver, circumstances, transmission, served⟩ :=
        deployment.servesAt_of_serves serves
      obtain ⟨exchanges, rest, replies⟩ := inductionHypothesis
      have step : deployment.Step (observed state.1 state.2)
          { statement := service.2.1, resolver, circumstances, transmission,
            reply := service.2.2 }
          (observed middle.1 middle.2) := by
        unfold Step
        rw [served _ rfl, observed_append _ _ _ service.1, ← same]
      exact ⟨_ :: exchanges, .next step rest, congrArg (_ :: ·) replies⟩

variable [DecidableEq Session]

/-- If the driver's calls are answered as if the database took each at one moment between its
sending and its answer, then the statements of clients could have been served one after another,
each at a moment between its arrival and its reply: with the same replies, the same contents of the
database, and the same notes of each client that waits for nothing. -/
theorem linearizable
    (occurrences : List (Occurrence outside Session ClientStatement (Result ExecutionResult)))
    (finish : Overlapping outside Session (Result ExecutionResult))
    (run : Labelled.Run (Overlapping.Step deployment.program) clients occurrences finish)
    (contents : Contents) (calls : List (Moment Session DriverCall (Answered outside)))
    (called : Atomic outside Session DriverCall (Answered outside) Contents)
    (performed : Labelled.Run (Atomic.Step (Performed deployment.Performs)) (turns contents) calls
      called)
    (same : calls.filterMap Moment.event = occurrences.filterMap Occurrence.call?) :
    ∃ moments after exchanges,
      Labelled.Run (Atomic.Step fun statement =>
        (deployment.program statement).Serves deployment.Performs) (turns contents) moments after ∧
      moments.filterMap Moment.event = occurrences.filterMap Occurrence.event? ∧
      after.shared = called.shared ∧
      (∀ session, finish.rest session = none → after.standing session = .idle ∧
        notesOf session finish.notes = notesOf session after.notes) ∧
      Labelled.Run deployment.Step { contents } exchanges (observed after.shared after.notes) ∧
      exchanges.map (fun exchange => (exchange.statement, exchange.reply)) =
        (moments.filterMap Moment.service).map Prod.snd := by
  obtain ⟨moments, after, atomic, shown, contents, free⟩ :=
    linearizes_of_calls deployment.isOrderly_program run (fun _ => ⟨rfl, rfl⟩) performed same
  obtain ⟨exchanges, steps, replies⟩ :=
    deployment.steps_of_services (services_of_moments atomic)
  exact ⟨moments, after, exchanges, atomic, shown, contents, free, steps, replies⟩

end Sessions

section Example

private def deletionOfAda : DriverCall :=
  .deleteMany "people" [("name", .string "ada")]

private def findsNames : DriverCall :=
  .find "people" [] (some [("name", .int32 1)]) none

private def lost : Answered outside := ⟨deletionOfAda, .error "connection reset"⟩

private def found : Answered outside := ⟨findsNames, .ok [[("name", .string "grace")]]⟩

/-- One client deletes a person while another one asks for the names, and is answered last. -/
private def deletesMeanwhile :
    List (Occurrence outside Bool ClientStatement (Result ExecutionResult)) :=
  [.shown (.received true (removeAda true).statement), .call (.received true deletionOfAda),
    .shown (.received false (readNames ["grace"]).statement), .call (.received false findsNames),
    .call (.replied false found), .shown (.replied false (readNames ["grace"]).reply),
    .call (.replied true lost), .shown (.replied true (removeAda true).reply)]

private theorem run_deletesMeanwhile :
    ∃ finish, Labelled.Run (Overlapping.Step registry.program) clients deletesMeanwhile finish :=
  ⟨_, .next (.receive _ rfl) (.next (.send rfl rfl) (.next (.receive _ rfl) (.next (.send rfl rfl)
    (.next (.answer _ rfl rfl) (.next (.reply rfl) (.next (.answer _ rfl rfl)
      (.next (.reply rfl) (.done _))))))))⟩

/-- The deletion arrived before the names were read. -/
private theorem performed_deletesMeanwhile :
    ∃ called : Atomic outside Bool DriverCall (Answered outside) Contents,
      Labelled.Run (Atomic.Step (Performed registry.Performs)) (turns (registered "key").contents)
        [.received true deletionOfAda, .received false findsNames, .served true deletionOfAda lost,
          .served false findsNames found, .replied false found, .replied true lost] called ∧
      called.shared "people" = [person "grace"] := by
  have deletes : registry.Performs (registered "key").contents deletionOfAda
      (.error "connection reset") (registeredGrace "key").contents :=
    ⟨0, .lost "connection reset" true, rfl, rfl⟩
  have finds : registry.Performs (registeredGrace "key").contents findsNames
      (.ok [[("name", .string "grace")]]) (registeredGrace "key").contents :=
    ⟨0, .answered, rfl, (effect_find _ _ _ _ _ _ _).symm⟩
  exact ⟨_, .next (.receive _ rfl) (.next (.receive _ rfl) (.next (.serve rfl (.once deletes))
    (.next (.serve rfl (.once finds)) (.next (.reply rfl) (.next (.reply rfl) (.done _)))))), rfl⟩

theorem linearizable_registry :
    ∃ exchanges system,
      Labelled.Run registry.Step { contents := (registered "key").contents } exchanges system ∧
        system.contents "people" = [person "grace"] := by
  obtain ⟨finish, run⟩ := run_deletesMeanwhile
  obtain ⟨called, performed, left⟩ := performed_deletesMeanwhile
  obtain ⟨_, _, exchanges, _, _, contents, _, steps, _⟩ :=
    linearizable registry deletesMeanwhile finish run _ _ called performed rfl
  exact ⟨exchanges, _, steps, (congrFun contents "people").trans left⟩

end Example

end Deployment

end Mongres
