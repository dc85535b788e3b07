import Mongres.Discovery.Discover
import Mongres.Library.Labelled
import Mongres.Proxy.Authentication
import Mongres.Proxy.Confinement

/-!
# Startup

A proxy starts from its environment and from the profiles that discovery has persisted.  The
collection of metadata is never exposed, so no statement of a client disturbs what a restart
will find.
-/

namespace Mongres

open Fallible Discovery

namespace ProxyConfig

def requiredEnvironment (environment : Environment) (name : String) : Result String :=
  (Discovery.requiredEnvironment environment name).mapError invalidInput

def optionalEnvironment (environment : Environment) (name : String) (default : Nat) :
    Result Nat :=
  (Discovery.optionalEnvironment environment name default).mapError invalidInput

end ProxyConfig

/-! ## The endpoint of the resolver -/

namespace ProxyConfig

end ProxyConfig

/-! ## Starting -/

def ProxyBackend.new (databaseName : String) (profiles : CollectionProfiles)
    (resolverMinimumConfidence : Float)
    (confidenceBounds : 0 ≤ resolverMinimumConfidence ∧ resolverMinimumConfidence ≤ 1) :
    ProxyBackend where
  databaseName
  profiles
  catalog := projectPublicCollections profiles
  resolverMinimumConfidence
  projected := rfl
  confidenceBounds

section Started

variable {server : Server} {library : DocumentLibrary} {contents : Contents}
  {config : ProxyConfig}

end Started

section Example

end Example

/-! ## Discovery while a proxy serves -/

inductive Event where
  | statement (exchange : Exchange)
  | persisted (collection : String) (profile : SchemaProfile) (transmission : Transmission)
      (reply : Except String Unit)

def Event.Persists (event : Event) (collection : String) (profile : SchemaProfile) : Prop :=
  ∃ transmission reply, event = .persisted collection profile transmission reply

namespace Deployment

variable (deployment : Deployment) (library : DocumentLibrary)

def database : Database where
  name := deployment.backend.databaseName
  server := deployment.server
  library

/-- A statement of a client, or the persisting of one profile. -/
inductive SharedStep : SystemState → Event → SystemState → Prop where
  | statement {state next : SystemState} {exchange : Exchange} :
      deployment.Step state exchange next → SharedStep state (.statement exchange) next
  | persisted {state : SystemState} {collection : String} {profile : SchemaProfile}
      {transmission : Transmission} {reply : Except String Unit}
      {documents : List StoredDocument} :
      (deployment.database library).persistProfile transmission
        (state.contents metadataCollection) collection profile = (reply, documents) →
      SharedStep state (.persisted collection profile transmission reply)
        { state with contents := Function.update state.contents metadataCollection documents }

variable {deployment library}

/-- A step sets at most the profile that it persists, and certainly if it says so. -/
theorem SharedStep.holds (hidden : ¬ deployment.backend.Exposes metadataCollection)
    {state next : SystemState} {event : Event} {entries : List ProfileEntry}
    (step : deployment.SharedStep library state event next)
    (holds : Holds library.narrow (state.contents metadataCollection) entries) :
    Holds library.narrow (next.contents metadataCollection) entries ∧
        (∀ collection profile transmission,
          event ≠ .persisted collection profile transmission (.ok ())) ∨
      ∃ collection profile, event.Persists collection profile ∧
        Holds library.narrow (next.contents metadataCollection)
          (setEntry entries ((deployment.database library).source collection) profile) := by
  cases step with
  | statement served =>
      refine .inl ⟨?_, nofun⟩
      rw [served.contents_elsewhere hidden]
      exact holds
  | @persisted collection profile transmission reply documents persists =>
      have outcome := Database.persistProfile_of_holds (deployment.database library) holds
        transmission collection profile
      rw [persists] at outcome
      dsimp only
      rw [Function.update_self]
      rcases outcome with set | ⟨rfl, failed⟩
      · exact .inr ⟨collection, profile, ⟨_, _, rfl⟩, set⟩
      · refine .inl ⟨holds, ?_⟩
        rintro _ _ _ ⟨⟩
        exact failed rfl

section Example

end Example

end Deployment

end Mongres
