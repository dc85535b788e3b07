import Mongres.Discovery.Collections
import Mongres.Discovery.Metadata
import Mongres.Schema.Definition
import Mongres.Schema.FromBson

/-!
# Discovery

Every configured collection is sampled, and its profile is persisted before the next one is
sampled.  The proxy loads what was persisted and infers nothing.
-/

namespace Mongres

open Fallible Discovery

/-- What happens to the calls that are made for each collection. -/
structure Network where
  sampling : String → Transmission
  persisting : String → Transmission

namespace Database

variable (database : Database)

def discoverCollection (transmission : Transmission) (contents : Contents)
    (collectionName : String) (sampleSize : Nat) : Except String SchemaProfile :=
  if sampleSize = 0 then .error "schema discovery sample size must be greater than zero"
  else do
    let documents ← transmission.reply (database.server.acceptedIn (contents collectionName) [])
    .ok (.infer ((documents.take sampleSize).map (sampleDocumentFromBson database.library.text)))

def discoverAndPersistCollection (network : Network) (contents : Contents)
    (collectionName : String) (sampleSize : Nat) : Except String SchemaProfile × Contents :=
  match database.discoverCollection (network.sampling collectionName) contents collectionName
    sampleSize with
  | .error error => (.error error, contents)
  | .ok profile =>
      let (reply, documents) := database.persistProfile (network.persisting collectionName)
        (contents metadataCollection) collectionName profile
      (reply.map fun () => profile, Function.update contents metadataCollection documents)

def discoverEach (network : Network) (sampleSize : Nat) :
    List String → CollectionProfiles → Contents → Except String CollectionProfiles × Contents
  | [], profiles, contents => (.ok profiles, contents)
  | collectionName :: rest, profiles, contents =>
      match database.discoverAndPersistCollection network contents collectionName sampleSize with
      | (.error error, contents) => (.error error, contents)
      | (.ok profile, contents) =>
          discoverEach network sampleSize rest (profiles.insert collectionName profile) contents

def discoverAndPersistCollections (network : Network) (contents : Contents)
    (collectionNames : List String) (sampleSize : Nat) :
    Except String CollectionProfiles × Contents :=
  match validatedCollectionNames collectionNames with
  | .error error => (.error error, contents)
  | .ok collectionNames =>
      database.discoverEach network sampleSize collectionNames ∅ contents

end Database

namespace Discovery

def report (database : String) (profiles : CollectionProfiles) : List String :=
  profiles.toList.map fun (collection, profile) =>
    s!"discovered {profile.fields.length} fields from {profile.sampledDocuments} sampled documents in {database}.{collection}"

def settings (environment : Environment) (connects : String → Except String Unit) :
    Except String (String × List String × Nat) := do
  let uri ← requiredEnvironment environment "MONGO_URI"
  let database ← requiredEnvironment environment "MONGO_DATABASE"
  let collections ← configuredCollections environment
  let sampleSize ← optionalEnvironment environment "MONGO_SAMPLE_SIZE" 100
  connects uri
  .ok (database, collections, sampleSize)

def run (environment : Environment) (connects : String → Except String Unit) (server : Server)
    (library : DocumentLibrary) (network : Network) (contents : Contents) :
    Except String (List String) × Contents :=
  match settings environment connects with
  | .error error => (.error error, contents)
  | .ok (name, collections, sampleSize) =>
      let database : Database := { name, server, library }
      let (reply, contents) :=
        database.discoverAndPersistCollections network contents collections sampleSize
      (reply.map (report name), contents)

end Discovery

namespace Database

variable (database : Database)

/-! ## What is discovered -/

def sampled (documents : List StoredDocument) (sampleSize : Nat) : SchemaProfile :=
  .infer ((documents.take sampleSize).map (sampleDocumentFromBson database.library.text))

variable {database} {contents : Contents} {entries : List ProfileEntry} {sampleSize : Nat}

/-- The persisted profiles of named collections, beside others. -/
def persisted (database : Database) (entries : List ProfileEntry) (profiles : CollectionProfiles)
    (collectionNames : List String) : CollectionProfiles :=
  collectionNames.foldl (fun profiles name =>
    (entries.lookup (database.source name)).elim profiles (profiles.insert name)) profiles

section Example

end Example

end Database

end Mongres
