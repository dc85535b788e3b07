import Mongres.Discovery.Stored
import Mongres.Mongo.Server

/-!
# The collection of metadata

Its documents stand for a map from databases and collections to profiles.  Persisting a profile
sets one entry of the map, and loading a profile looks one up.
-/

namespace Mongres

open Fallible Text

/-- The library that writes and reads documents. -/
structure DocumentLibrary where
  /-- Whether a number that fits is written as a narrow integer. -/
  narrow : Nat → Bool
  /-- The text of a value that inference has no counterpart for. -/
  text : Bson → String
  unwritable : StoredSchemaProfile → String
  unreadable : Document → String

structure Database where
  name : String
  server : Server
  library : DocumentLibrary

def recordFilter (database collection : String) : Document :=
  [("database", .string database), ("collection", .string collection)]

namespace Database

variable (database : Database)

/-- Puts the profile of a collection into the collection of metadata, in the place of an older
one. -/
def persistProfile (transmission : Transmission) (documents : List StoredDocument)
    (sourceCollection : String) (profile : SchemaProfile) :
    Except String Unit × List StoredDocument :=
  let stored : StoredSchemaProfile :=
    { database := database.name, collection := sourceCollection, profile }
  match stored.toDocument database.library.narrow with
  | none => (.error (database.library.unwritable stored), documents)
  | some record =>
      let (answer, replaced) :=
        database.server.replaceOneIn documents (recordFilter database.name sourceCollection) record
      (transmission.reply answer, if transmission.arrives then replaced else documents)

end Database

/-! ## What the documents stand for -/

structure Source where
  database : String
  collection : String
  deriving DecidableEq

abbrev ProfileEntry := Source × SchemaProfile

def ProfileEntry.stored (entry : ProfileEntry) : StoredSchemaProfile where
  database := entry.1.database
  collection := entry.1.collection
  profile := entry.2

/-- The profiles that the documents of the metadata stand for, one for each collection. -/
structure Holds (narrow : Nat → Bool) (documents : List StoredDocument)
    (entries : List ProfileEntry) : Prop where
  each : List.Forall₂ (fun document (entry : ProfileEntry) =>
    StoredSchemaProfile.fromDocument narrow document.fields = some entry.stored) documents entries
  distinct : (entries.map Prod.fst).Nodup

theorem ProfileEntry.stored_injective : Function.Injective ProfileEntry.stored := by
  rintro ⟨⟨database, collection⟩, profile⟩ ⟨⟨otherDatabase, otherCollection⟩, other⟩ same
  cases same
  rfl

theorem Holds.unique {narrow : Nat → Bool} {documents : List StoredDocument}
    {first second : List ProfileEntry} (holds : Holds narrow documents first)
    (other : Holds narrow documents second) : first = second := by
  have each := holds.each
  have others := other.each
  clear holds other
  induction each generalizing second with
  | nil => exact (List.forall₂_nil_left_iff.mp others).symm
  | cons read _ inductionHypothesis =>
      obtain ⟨entry, rest, readAgain, readRest, rfl⟩ := List.forall₂_cons_left_iff.mp others
      rw [ProfileEntry.stored_injective (Option.some.inj (read.symm.trans readAgain)),
        inductionHypothesis readRest]

theorem valueAt_singleton (document : StoredDocument) (key : String) :
    document.valueAt [key] = document.fields.lookup key := by
  rw [StoredDocument.valueAt, Nested.descend_cons, Bson.fields_document, Option.bind_some]
  cases document.fields.lookup key with
  | none => rfl
  | some value => exact Nested.descend_nil value

theorem eq_of_read_textCodec {held : Option Bson} {text : String}
    (read : held.bind Bson.textCodec.read = some text) : held = some (.string text) := by
  obtain ⟨value, rfl, reads⟩ := Option.bind_eq_some_iff.mp read
  cases value with
  | string value =>
      cases reads
      rfl
  | _ => cases reads

theorem valueAt_of_fromDocument {narrow : Nat → Bool} {document : StoredDocument}
    {stored : StoredSchemaProfile}
    (read : StoredSchemaProfile.fromDocument narrow document.fields = some stored) :
    document.valueAt ["database"] = some (.string stored.database) ∧
      document.valueAt ["collection"] = some (.string stored.collection) := by
  simp only [StoredSchemaProfile.fromDocument, StoredSchemaProfile.record, RecordCodec.convert,
    RecordCodec.also, Option.bind_eq_bind, Option.map_eq_some_iff, Option.bind_eq_some_iff] at read
  obtain ⟨_, ⟨_, ⟨database, readDatabase, collection, readCollection, names⟩, _, _, same⟩, rfl⟩ :=
    read
  cases names
  cases same
  rw [valueAt_singleton, valueAt_singleton]
  exact ⟨eq_of_read_textCodec readDatabase, eq_of_read_textCodec readCollection⟩

/-! ## Filters of records -/

theorem reads_of_string {document : StoredDocument} {name text : String}
    (whole : splitOn '.' name = [name]) (found : document.valueAt [name] = some (.string text)) :
    document.Reads name (some (.string text)) where
  found := by rw [whole, found]
  noArray := by
    rw [whole]
    intro start leads values reached
    rcases List.prefix_cons_iff.mp leads with rfl | ⟨rest, rfl, empty⟩
    · rw [StoredDocument.valueAt, Nested.descend_nil] at reached
      cases reached
    · cases List.prefix_nil.mp empty
      cases found.symm.trans reached
  defined := by
    intro same
    cases same

theorem matches_text_iff (mongo : FilterSemantics) {document : StoredDocument} {name text : String}
    (reads : document.Reads name (some (.string text))) (operand : String) :
    mongo.Matches document (.field name "$eq" (.string operand)) ↔ text = operand := by
  have compared := mongo.ordered document name (.string text) reads (.string operand)
    (compare text operand) rfl _ List.mem_cons_self
  rw [compared, beq_iff_eq, Std.LawfulEqOrd.compare_eq_iff_eq]

theorem Server.exists_compileFilter_recordFilter (server : Server) (database collection : String) :
    ∃ accepts, server.compileFilter (recordFilter database collection) = .ok accepts ∧
      ∀ document first second, document.valueAt ["database"] = some (.string first) →
        document.valueAt ["collection"] = some (.string second) →
        (accepts document = true ↔ first = database ∧ second = collection) := by
  have read : readFilter (recordFilter database collection) =
      .allOf [.field "database" "$eq" (.string database),
        .field "collection" "$eq" (.string collection)] := rfl
  have documented : (readFilter (recordFilter database collection)).Documented := by
    rw [read]
    apply MatchExpression.Documented.allOf
    rw [List.forall_mem_cons, List.forall_mem_singleton]
    exact ⟨.ordered List.mem_cons_self, .ordered List.mem_cons_self⟩
  obtain ⟨accepts, compiled, reads⟩ := server.filters_documented _ documented
  refine ⟨accepts, compiled, ?_⟩
  intro document first second foundFirst foundSecond
  rw [reads, read, server.filters.allOf, List.forall_mem_cons, List.forall_mem_singleton,
    matches_text_iff _ (reads_of_string rfl foundFirst),
    matches_text_iff _ (reads_of_string rfl foundSecond)]

/-! ## Loading and persisting -/

section Operations

variable {narrow : Nat → Bool} {documents : List StoredDocument} {entries : List ProfileEntry}
  {accepts : StoredDocument → Bool} {key : Source}

/-- A document that holds what was written is read back, whatever its `_id` is. -/
theorem fromDocument_of_holds {document : StoredDocument} {stored : StoredSchemaProfile}
    {record : Document} (written : stored.toDocument narrow = some record)
    (held : ∀ path, path ≠ [] → path.head? ≠ some "_id" →
      document.valueAt path = Nested.descend (Bson.document record) path) :
    StoredSchemaProfile.fromDocument narrow document.fields = some stored := by
  apply StoredSchemaProfile.fromDocument_of_agrees narrow written
  intro key membership
  have other : [key].head? ≠ some "_id" := by
    rintro ⟨⟩
    simp at membership
  have found := held [key] (List.cons_ne_nil _ _) other
  rw [valueAt_singleton, Nested.descend_cons, Bson.fields_document, Option.bind_some] at found
  rw [found]
  cases record.lookup key with
  | none => rfl
  | some value => exact Nested.descend_nil value

theorem untimed_of_toDocument {stored : StoredSchemaProfile} {record : Document}
    (written : stored.toDocument narrow = some record) : Untimed record := by
  obtain ⟨profile, wroteProfile, same⟩ := Option.bind_eq_some_iff.mp written
  obtain ⟨value, wrote, rfl⟩ := Option.map_eq_some_iff.mp wroteProfile
  obtain ⟨fields, _, rfl⟩ := Option.map_eq_some_iff.mp wrote
  cases same
  rw [Untimed, List.forall_mem_append, List.forall_mem_append]
  simp

theorem forall₂_setEntry_of_replaceFirst {server : Server} {record : Document}
    {held after : List StoredDocument} {profile : SchemaProfile}
    (each : List.Forall₂ (fun document (entry : ProfileEntry) =>
      StoredSchemaProfile.fromDocument narrow document.fields = some entry.stored)
        documents entries)
    (selects : ∀ document first second, document.valueAt ["database"] = some (.string first) →
      document.valueAt ["collection"] = some (.string second) →
      (accepts document = true ↔ (⟨first, second⟩ : Source) = key))
    (written : (ProfileEntry.stored (key, profile)).toDocument narrow = some record)
    (replaced : server.replaceFirst accepts record held documents = .ok after) :
    List.Forall₂ (fun document (entry : ProfileEntry) =>
      StoredSchemaProfile.fromDocument narrow document.fields = some entry.stored)
        after (setEntry entries key profile) := by
  have untimed := untimed_of_toDocument written
  induction each generalizing after with
  | nil =>
      obtain ⟨stored, admitted, rfl⟩ := map_eq_ok_iff.mp replaced
      refine .cons ?_ .nil
      exact fromDocument_of_holds written (server.accept_documented _ _ _ untimed admitted).elsewhere
  | @cons document entry documents entries read rest inductionHypothesis =>
      obtain ⟨entryKey, entryProfile⟩ := entry
      obtain ⟨database, collection⟩ := valueAt_of_fromDocument read
      have accepted := selects document _ _ database collection
      rw [Server.replaceFirst] at replaced
      rw [setEntry]
      by_cases same : entryKey = key
      · rw [if_pos (accepted.mpr same)] at replaced
        obtain ⟨stored, put, rfl⟩ := map_eq_ok_iff.mp replaced
        rw [if_pos same]
        refine .cons ?_ rest
        exact fromDocument_of_holds written (server.replace_elsewhere _ _ _ untimed put)
      · rw [if_neg fun accepts => same (accepted.mp accepts)] at replaced
        obtain ⟨others, replacedOthers, rfl⟩ := map_eq_ok_iff.mp replaced
        rw [if_neg same]
        exact .cons read (inductionHypothesis replacedOthers)

end Operations

namespace Database

variable (database : Database) {documents : List StoredDocument} {entries : List ProfileEntry}

def source (collection : String) : Source := { database := database.name, collection }

theorem replaceOneIn_of_holds (holds : Holds database.library.narrow documents entries)
    {collection : String} {profile : SchemaProfile} {record : Document}
    (written : (ProfileEntry.stored (database.source collection, profile)).toDocument
      database.library.narrow = some record) :
    (∃ error, database.server.replaceOneIn documents (recordFilter database.name collection)
        record = (.error error, documents)) ∨
      ∃ replaced, database.server.replaceOneIn documents (recordFilter database.name collection)
          record = (.ok (), replaced) ∧
        Holds database.library.narrow replaced
          (setEntry entries (database.source collection) profile) := by
  obtain ⟨accepts, compiled, selects⟩ :=
    database.server.exists_compileFilter_recordFilter database.name collection
  rw [Server.replaceOneIn, compiled]
  dsimp only
  cases replaces : database.server.replaceFirst accepts record documents documents with
  | error error => exact .inl ⟨error, rfl⟩
  | ok replaced =>
      refine .inr ⟨replaced, rfl, ?_, nodup_setEntry holds.distinct _ _⟩
      refine forall₂_setEntry_of_replaceFirst holds.each ?_ written replaces
      intro document first second foundFirst foundSecond
      rw [selects document first second foundFirst foundSecond, source, Source.mk.injEq]

/-- Persisting sets a profile.  When it fails, it may also have left the metadata as they were. -/
theorem persistProfile_of_holds (holds : Holds database.library.narrow documents entries)
    (transmission : Transmission) (collection : String) (profile : SchemaProfile) :
    Holds database.library.narrow
        (database.persistProfile transmission documents collection profile).2
        (setEntry entries (database.source collection) profile) ∨
      (database.persistProfile transmission documents collection profile).2 = documents ∧
        (database.persistProfile transmission documents collection profile).1 ≠ .ok () := by
  unfold persistProfile
  dsimp only
  split
  · exact .inr ⟨rfl, nofun⟩
  · rename_i record written
    rcases database.replaceOneIn_of_holds holds written with ⟨error, failed⟩ | ⟨after, done, set⟩
    · rw [failed]
      cases transmission with
      | answered => exact .inr ⟨rfl, nofun⟩
      | lost text arrived => exact .inr ⟨ite_self _, nofun⟩
    · rw [done]
      cases transmission with
      | answered => exact .inl set
      | lost text arrived =>
          cases arrived with
          | true => exact .inl set
          | false => exact .inr ⟨rfl, nofun⟩

end Database

end Mongres
