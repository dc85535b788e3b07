import Mongres.Executor.Execute
import Mongres.Mongo.Matching
import Mongres.Mongo.Projection
import Mongres.Mongo.Update

/-!
# A database server

The contents of a database and what the calls of the driver do with them.  A server reads
filters, updates and projections as it documents for plain names.  It is free in everything else:
in which order it finds documents, how far a write gets before it fails, which `_id` a new
document gets, and what it refuses.
-/

namespace Mongres

open Text

/-- The documents of every collection, in their natural order. -/
abbrev Contents := String → List StoredDocument

/-- Whatever else decides how a call goes: the order of a scan, an interruption. -/
abbrev Circumstances := Nat

/-- The filters whose reading is documented: comparisons of fields, and lists of filters. -/
inductive MatchExpression.Documented : MatchExpression → Prop where
  | allOf {conditions : List MatchExpression} :
      (∀ condition ∈ conditions, Documented condition) → Documented (.allOf conditions)
  | ordered {name operator : String} {operand : Bson} :
      operator ∈ orderOperators.map Prod.fst → Documented (.field name operator operand)
  | notEqual {name : String} {operand : Bson} : Documented (.field name "$ne" operand)
  | membership {name operator : String} {operands : List Bson} : operator ∈ ["$in", "$nin"] →
      Documented (.field name operator (.array operands))
  | present {name : String} {expected : Bool} :
      Documented (.field name "$exists" (.boolean expected))
  | logical {operator : String} {operands : List MatchExpression} : operator ∈ ["$and", "$or"] →
      operands ≠ [] → (∀ operand ∈ operands, Documented operand) →
      Documented (.logical operator operands)

/-- A document is stored with all that it holds, and with an `_id`. -/
structure StoredAs (document : Document) (stored : StoredDocument) : Prop where
  held : ∀ path leaf, path ≠ [] → Nested.descend (Bson.document document) path = some leaf →
    stored.valueAt path = some leaf
  elsewhere : ∀ path, path ≠ [] → path.head? ≠ some "_id" →
    stored.valueAt path = Nested.descend (Bson.document document) path

/-- Without the empty timestamps that a server fills in. -/
def Untimed (document : Document) : Prop := ∀ entry ∈ document, entry.2 ≠ .timestamp 0 0

/-- The first documents that a limit asks for; zero is no limit. -/
def bounded {α : Type} (limit : Option Int64) (documents : List α) : List α :=
  match limit with
  | none => documents
  | some limit => if limit = 0 then documents else documents.take limit.toInt.natAbs

/-- A server that reads what it is sent as documented. -/
structure Server where
  filters : FilterSemantics
  projections : ProjectionSemantics
  sets : SetSemantics
  compileFilter : Document → Except String (StoredDocument → Bool)
  find : Circumstances → List StoredDocument → Document → Option Document → Option Int64 →
    Except String (List Document)
  insert : Circumstances → List StoredDocument → List Document →
    Except String Nat × List StoredDocument
  /-- The counts are of the documents that matched and of those that changed. -/
  update : Circumstances → List StoredDocument → Document → Document →
    Except String (Nat × Nat) × List StoredDocument
  delete : Circumstances → List StoredDocument → Document → Except String Nat × List StoredDocument
  /-- Takes a new document into a collection, with an `_id`, or refuses it. -/
  accept : List StoredDocument → Document → Except String StoredDocument
  /-- Puts a document in the place of another, whose `_id` stays, or refuses it. -/
  replace : StoredDocument → Document → Except String StoredDocument
  filters_documented : ∀ filter, (readFilter filter).Documented →
    ∃ accepts, compileFilter filter = .ok accepts ∧
      ∀ document, accepts document = true ↔ filters.Matches document (readFilter filter)
  /-- Documents are found in any order, and a limit asks for any of them. -/
  find_documented : ∀ circumstances documents filter projection limit accepts keeps found,
    compileFilter filter = .ok accepts →
    projection.elim (.ok StoredDocument.fields) projections.project = .ok keeps →
    find circumstances documents filter projection limit = .ok found →
    ∃ scanned : List StoredDocument, scanned.Perm (documents.filter accepts) ∧
      found = (bounded limit scanned).map keeps
  /-- Documents are inserted in order, up to the first that fails. -/
  insert_documented : ∀ circumstances documents inserted,
    (∀ document ∈ inserted, Untimed document) →
    ∃ count added,
      (insert circumstances documents inserted).2 = documents ++ added ∧
      List.Forall₂ StoredAs (inserted.take count) added ∧
      ∀ answered, (insert circumstances documents inserted).1 = .ok answered →
        answered = inserted.length ∧ count = inserted.length
  /-- Accepted documents are updated one at a time, and an update that fails may have updated any
  of them. -/
  update_documented : ∀ circumstances documents filter accepts set,
    compileFilter filter = .ok accepts →
    List.Forall₂ (fun before after => after = before ∨
        accepts before = true ∧ sets.set set before = some after)
      documents (update circumstances documents filter [("$set", .document set)]).2 ∧
    ∀ counts, (update circumstances documents filter [("$set", .document set)]).1 = .ok counts →
      counts.1 = documents.countP accepts ∧
        List.Forall₂ (fun before after =>
            if accepts before then sets.set set before = some after else after = before)
          documents (update circumstances documents filter [("$set", .document set)]).2
  /-- Accepted documents are removed one at a time, and a removal that fails may have removed any
  of them. -/
  delete_documented : ∀ circumstances documents filter accepts,
    compileFilter filter = .ok accepts →
    (delete circumstances documents filter).2.Sublist documents ∧
      ((delete circumstances documents filter).2.filter fun document => !accepts document) =
        documents.filter (fun document => !accepts document) ∧
      ∀ count, (delete circumstances documents filter).1 = .ok count →
        count = documents.countP accepts ∧
          (delete circumstances documents filter).2 =
            documents.filter fun document => !accepts document
  accept_documented : ∀ held document stored, Untimed document →
    accept held document = .ok stored → StoredAs document stored
  replace_elsewhere : ∀ before document stored, Untimed document →
    replace before document = .ok stored → ∀ path, path ≠ [] → path.head? ≠ some "_id" →
      stored.valueAt path = Nested.descend (Bson.document document) path

namespace Server

variable (server : Server)

/-! ## One collection -/

def acceptedIn (documents : List StoredDocument) (filter : Document) :
    Except String (List StoredDocument) :=
  (server.compileFilter filter).map fun accepts => documents.filter accepts

/-- Replaces the first document that is accepted, or adds one to those that are held. -/
def replaceFirst (accepts : StoredDocument → Bool) (replacement : Document)
    (held : List StoredDocument) : List StoredDocument → Except String (List StoredDocument)
  | [] => (server.accept held replacement).map fun stored => [stored]
  | document :: documents =>
      if accepts document then
        (server.replace document replacement).map fun stored => stored :: documents
      else (replaceFirst accepts replacement held documents).map (document :: ·)

def replaceOneIn (documents : List StoredDocument) (filter replacement : Document) :
    Except String Unit × List StoredDocument :=
  match server.compileFilter filter with
  | .error error => (.error error, documents)
  | .ok accepts =>
      match server.replaceFirst accepts replacement documents documents with
      | .error error => (.error error, documents)
      | .ok replaced => (.ok (), replaced)

theorem exists_compileFilter_nil :
    ∃ accepts, server.compileFilter [] = .ok accepts ∧
      ∀ document, accepts document = true := by
  obtain ⟨accepts, compiled, reads⟩ := server.filters_documented [] (.allOf (by simp [readEntries]))
  refine ⟨accepts, compiled, ?_⟩
  intro document
  rw [reads, readFilter, server.filters.allOf]
  simp [readEntries]

end Server

/-! ## The calls of a driver -/

def DriverCall.collection : DriverCall → String
  | .find collection _ _ _ | .insertOne collection _ | .insertMany collection _
  | .updateMany collection _ _ | .deleteMany collection _ => collection

namespace Server

variable (server : Server) (circumstances : Circumstances)

def leaves (documents : List StoredDocument) : DriverCall → List StoredDocument
  | .find _ _ _ _ => documents
  | .insertOne _ document => (server.insert circumstances documents [document]).2
  | .insertMany _ inserted => (server.insert circumstances documents inserted).2
  | .updateMany _ filter update => (server.update circumstances documents filter update).2
  | .deleteMany _ filter => (server.delete circumstances documents filter).2

def effect (contents : Contents) (call : DriverCall) : Contents :=
  Function.update contents call.collection
    (server.leaves circumstances (contents call.collection) call)

def driver (contents : Contents) : Driver where
  find collection filter projection limit :=
    server.find circumstances (contents collection) filter projection limit
  insertOne collection document :=
    (server.insert circumstances (contents collection) [document]).1.map fun _ => ()
  insertMany collection documents :=
    (server.insert circumstances (contents collection) documents).1.map UInt64.ofNat
  updateMany collection filter update :=
    (server.update circumstances (contents collection) filter update).1.map
      fun (matched, modified) => (UInt64.ofNat matched, UInt64.ofNat modified)
  deleteMany collection filter :=
    (server.delete circumstances (contents collection) filter).1.map UInt64.ofNat

end Server

/-- What the network does with a call and its answer.  Of a call that fails, the client does not
learn whether it arrived. -/
inductive Transmission where
  | answered
  | lost (error : String) (arrived : Bool)
  deriving DecidableEq

namespace Transmission

def arrives : Transmission → Bool
  | answered => true
  | lost _ arrived => arrived

def reply {α : Type} (transmission : Transmission) (answer : Except String α) : Except String α :=
  match transmission with
  | answered => answer
  | lost error _ => .error error

def driver (transmission : Transmission) (driver : Driver) : Driver where
  find collection filter projection limit :=
    transmission.reply (driver.find collection filter projection limit)
  insertOne collection document := transmission.reply (driver.insertOne collection document)
  insertMany collection documents := transmission.reply (driver.insertMany collection documents)
  updateMany collection filter update :=
    transmission.reply (driver.updateMany collection filter update)
  deleteMany collection filter := transmission.reply (driver.deleteMany collection filter)

theorem reply_eq_ok_iff {α : Type} {transmission : Transmission} {answer : Except String α}
    {value : α} :
    transmission.reply answer = .ok value ↔ transmission = .answered ∧ answer = .ok value := by
  cases transmission <;> simp [reply]

end Transmission

namespace Server

variable (server : Server)

def effects (circumstances : Circumstances) (transmission : Transmission) (contents : Contents)
    (calls : List DriverCall) : Contents :=
  if transmission.arrives then calls.foldl (server.effect circumstances) contents else contents

theorem effect_of_ne {circumstances : Circumstances} {contents : Contents} {call : DriverCall}
    {collection : String} (other : collection ≠ call.collection) :
    server.effect circumstances contents call collection = contents collection :=
  Function.update_of_ne other _ _

/-- A call touches its own collection only. -/
theorem effects_elsewhere {circumstances : Circumstances} {transmission : Transmission}
    {contents : Contents} {calls : List DriverCall} {collection : String}
    (others : ∀ call ∈ calls, call.collection ≠ collection) :
    server.effects circumstances transmission contents calls collection = contents collection := by
  unfold effects
  split
  · induction calls generalizing contents with
    | nil => rfl
    | cons call calls inductionHypothesis =>
        rw [List.forall_mem_cons] at others
        rw [List.foldl_cons, inductionHypothesis others.2]
        exact server.effect_of_ne (Ne.symm others.1)
  · rfl

@[simp]
theorem effects_nil (circumstances : Circumstances) (transmission : Transmission)
    (contents : Contents) : server.effects circumstances transmission contents [] = contents := by
  unfold effects
  split <;> rfl

end Server

/-! ## A server of embedded documents -/

namespace Server

/-- A new document with an `_id`, which is the number of documents before it unless the document
has one. -/
def identified (held : List StoredDocument) (document : Document) : Document :=
  if document.containsKey "_id" then document
  else ("_id", .int64 (Int64.ofNat held.length)) :: document

theorem descend_identified (held : List StoredDocument) (document : Document) {key : String}
    (path : List String) (otherwise : key ≠ "_id" ∨ document.containsKey "_id" = true) :
    Nested.descend (Bson.document (identified held document)) (key :: path) =
      Nested.descend (Bson.document document) (key :: path) := by
  unfold identified
  split
  · rfl
  · rename_i absent
    rw [Nested.descend_cons, Nested.descend_cons, Bson.fields_document, Bson.fields_document,
      Option.bind_some, Option.bind_some, lookup_cons_eq_if,
      if_neg (otherwise.resolve_right absent)]

def acceptIdentified (held : List StoredDocument) (document : Document) :
    Except String StoredDocument :=
  if keyed : (Bson.document (identified held document)).wellKeyed = true then
    .ok ⟨identified held document, keyed⟩
  else .error "duplicate field name"

theorem valueAt_of_acceptIdentified {held : List StoredDocument} {document : Document}
    {stored : StoredDocument} (admitted : acceptIdentified held document = .ok stored)
    {key : String} (path : List String)
    (otherwise : key ≠ "_id" ∨ document.containsKey "_id" = true) :
    stored.valueAt (key :: path) = Nested.descend (Bson.document document) (key :: path) := by
  unfold acceptIdentified at admitted
  split at admitted
  · cases admitted
    exact descend_identified held document path otherwise
  · cases admitted

/-- A document in the place of another, with the other's `_id` unless it has one. -/
def replacement (before : StoredDocument) (document : Document) : Document :=
  if document.containsKey "_id" then document
  else (before.fields.filter fun entry => entry.1 = "_id") ++ document

theorem descend_replacement (before : StoredDocument) (document : Document) {key : String}
    (path : List String) (other : key ≠ "_id") :
    Nested.descend (Bson.document (replacement before document)) (key :: path) =
      Nested.descend (Bson.document document) (key :: path) := by
  unfold replacement
  split
  · rfl
  · have absent : (before.fields.filter fun entry => entry.1 = "_id").lookup key = none := by
      rw [List.lookup_eq_none_iff]
      intro entry membership
      have identifier := of_decide_eq_true (List.mem_filter.mp membership).2
      rw [identifier]
      exact bne_iff_ne.mpr other
    rw [Nested.descend_cons, Nested.descend_cons, Bson.fields_document, Bson.fields_document,
      Option.bind_some, Option.bind_some, List.lookup_append, absent]
    rfl

def replaceIdentified (before : StoredDocument) (document : Document) :
    Except String StoredDocument :=
  if keyed : (Bson.document (replacement before document)).wellKeyed = true then
    .ok ⟨replacement before document, keyed⟩
  else .error "duplicate field name"

theorem valueAt_of_replaceIdentified {before stored : StoredDocument} {document : Document}
    (replaced : replaceIdentified before document = .ok stored) {key : String}
    (path : List String) (other : key ≠ "_id") :
    stored.valueAt (key :: path) = Nested.descend (Bson.document document) (key :: path) := by
  unfold replaceIdentified at replaced
  split at replaced
  · cases replaced
    exact descend_replacement before document path other
  · cases replaced

theorem storedAs_of_acceptIdentified {held : List StoredDocument} {document : Document}
    {stored : StoredDocument} (admitted : acceptIdentified held document = .ok stored) :
    StoredAs document stored where
  held := by
    intro path leaf nonempty reached
    obtain ⟨key, rest, rfl⟩ := List.exists_cons_of_ne_nil nonempty
    rw [← reached]
    apply valueAt_of_acceptIdentified admitted
    by_cases identifier : key = "_id"
    · right
      rw [Nested.descend_cons, Bson.fields_document, Option.bind_some,
        Option.bind_eq_some_iff] at reached
      obtain ⟨child, found, _⟩ := reached
      rw [Document.containsKey, ← identifier, found]
      rfl
    · exact .inl identifier
  elsewhere := by
    intro path nonempty other
    obtain ⟨key, rest, rfl⟩ := List.exists_cons_of_ne_nil nonempty
    apply valueAt_of_acceptIdentified admitted
    left
    rintro rfl
    exact other rfl

def insertEach (documents : List StoredDocument) :
    List Document → Except String Nat × List StoredDocument
  | [] => (.ok 0, documents)
  | document :: rest =>
      match acceptIdentified documents document with
      | .error error => (.error error, documents)
      | .ok stored =>
          let (count, documents) := insertEach (documents ++ [stored]) rest
          (count.map (· + 1), documents)

theorem insertEach_documented (documents : List StoredDocument) (inserted : List Document) :
    ∃ count added,
      (insertEach documents inserted).2 = documents ++ added ∧
      List.Forall₂ StoredAs (inserted.take count) added ∧
      ∀ answered, (insertEach documents inserted).1 = .ok answered →
        answered = inserted.length ∧ count = inserted.length := by
  induction inserted generalizing documents with
  | nil =>
      refine ⟨0, [], (List.append_nil documents).symm, .nil, ?_⟩
      intro answered same
      cases same
      exact ⟨rfl, rfl⟩
  | cons document rest inductionHypothesis =>
      rw [insertEach]
      cases admitted : acceptIdentified documents document with
      | error error => exact ⟨0, [], (List.append_nil documents).symm, .nil, nofun⟩
      | ok stored =>
          obtain ⟨count, added, left, taken, all⟩ := inductionHypothesis (documents ++ [stored])
          refine ⟨count + 1, stored :: added, ?_,
            .cons (storedAs_of_acceptIdentified admitted) taken, ?_⟩
          · exact left.trans (by rw [List.append_assoc]; rfl)
          · intro answered same
            obtain ⟨inner, answeredInner, rfl⟩ := Fallible.map_eq_ok_iff.mp same
            obtain ⟨rfl, whole⟩ := all inner answeredInner
            exact ⟨rfl, congrArg (· + 1) whole⟩

/-- Updates the documents that are accepted, in order, up to the first that cannot be updated. -/
def updateEach (accepts : StoredDocument → Bool) (set : StoredDocument → Option StoredDocument) :
    List StoredDocument → Except String Nat × List StoredDocument
  | [] => (.ok 0, [])
  | document :: documents =>
      if accepts document then
        match set document with
        | none => (.error "cannot update document", document :: documents)
        | some after =>
            let (count, rest) := updateEach accepts set documents
            (count.map (· + 1), after :: rest)
      else
        let (count, rest) := updateEach accepts set documents
        (count, document :: rest)

theorem updateEach_documented (accepts : StoredDocument → Bool)
    (set : StoredDocument → Option StoredDocument) (documents : List StoredDocument) :
    List.Forall₂ (fun before after => after = before ∨
        accepts before = true ∧ set before = some after)
      documents (updateEach accepts set documents).2 ∧
    ∀ count, (updateEach accepts set documents).1 = .ok count →
      count = documents.countP accepts ∧
        List.Forall₂ (fun before after =>
            if accepts before then set before = some after else after = before)
          documents (updateEach accepts set documents).2 := by
  induction documents with
  | nil =>
      refine ⟨.nil, ?_⟩
      intro count same
      cases same
      exact ⟨rfl, .nil⟩
  | cons document documents inductionHypothesis =>
      obtain ⟨partly, wholly⟩ := inductionHypothesis
      rw [updateEach]
      cases accepted : accepts document with
      | true =>
          rw [if_pos rfl]
          cases made : set document with
          | none => exact ⟨.cons (.inl rfl) (List.forall₂_same.mpr fun _ _ => .inl rfl), nofun⟩
          | some after =>
              refine ⟨.cons (.inr ⟨accepted, made⟩) partly, ?_⟩
              intro count same
              obtain ⟨inner, counted, rfl⟩ := Fallible.map_eq_ok_iff.mp same
              obtain ⟨rfl, updated⟩ := wholly inner counted
              refine ⟨(List.countP_cons_of_pos accepted).symm, .cons ?_ updated⟩
              rw [if_pos accepted]
              exact made
      | false =>
          refine ⟨.cons (.inl rfl) partly, ?_⟩
          intro count same
          obtain ⟨rfl, updated⟩ := wholly count same
          rw [← Bool.not_eq_true] at accepted
          refine ⟨(List.countP_cons_of_neg accepted).symm, .cons ?_ updated⟩
          rw [if_neg accepted]

def accepts (filter : Document) (document : StoredDocument) : Bool :=
  FilterSemantics.evaluate document (readFilter filter)

/-- What an update sets, if it is a `$set`. -/
def setOf : Document → Option Document
  | [("$set", .document set)] => some set
  | _ => none

/-- A write to documents, which gets to the first ones only if it is interrupted. -/
def interruptible {α : Type} (circumstances : Circumstances)
    (write : List StoredDocument → Except String α × List StoredDocument)
    (documents : List StoredDocument) : Except String α × List StoredDocument :=
  match circumstances with
  | 0 => write documents
  | count + 1 => (.error "interrupted", (write (documents.take count)).2 ++ documents.drop count)

def updateIn (circumstances : Circumstances) (documents : List StoredDocument)
    (filter update : Document) : Except String (Nat × Nat) × List StoredDocument :=
  match setOf update with
  | none => (.error "unknown modifier", documents)
  | some set =>
      let (count, left) := interruptible circumstances
        (updateEach (accepts filter) (SetSemantics.ofDocuments.set set)) documents
      (count.map fun count => (count, count), left)

def deleteIn (circumstances : Circumstances) (documents : List StoredDocument) (filter : Document) :
    Except String Nat × List StoredDocument :=
  interruptible circumstances (fun documents => (.ok (documents.countP (accepts filter)),
    documents.filter fun document => !accepts filter document)) documents

/-- A server that looks for values in embedded documents only, and refuses nothing that it is
documented to take.  Its scans start anywhere, and its writes can be interrupted. -/
def ofDocuments : Server where
  filters := .ofDocuments
  projections := .ofDocuments
  sets := .ofDocuments
  compileFilter filter := .ok (accepts filter)
  find circumstances documents filter projection limit :=
    (projection.elim (.ok StoredDocument.fields) ProjectionSemantics.ofDocuments.project).map
      (bounded limit ((documents.filter (accepts filter)).rotate circumstances)).map
  insert circumstances documents inserted :=
    match circumstances with
    | 0 => insertEach documents inserted
    | count + 1 => (.error "interrupted", (insertEach documents (inserted.take count)).2)
  update := updateIn
  delete := deleteIn
  accept := acceptIdentified
  replace := replaceIdentified
  filters_documented filter _ := ⟨_, rfl, fun _ => Iff.rfl⟩
  find_documented := by
    intro circumstances documents filter projection limit accepts keeps found compiled projects
      answered
    cases compiled
    refine ⟨_, List.rotate_perm _ circumstances, ?_⟩
    rw [projects] at answered
    exact (Except.ok.inj answered).symm
  insert_documented := by
    intro circumstances documents inserted _
    cases circumstances with
    | zero => exact insertEach_documented documents inserted
    | succ count =>
        obtain ⟨taken, added, left, stored, _⟩ :=
          insertEach_documented documents (inserted.take count)
        rw [List.take_take] at stored
        exact ⟨_, added, left, stored, nofun⟩
  update_documented := by
    intro circumstances documents filter accepts set compiled
    cases compiled
    cases circumstances with
    | zero =>
        obtain ⟨partly, wholly⟩ := updateEach_documented (Server.accepts filter)
          (SetSemantics.ofDocuments.set set) documents
        refine ⟨partly, ?_⟩
        intro counts answered
        obtain ⟨count, counted, rfl⟩ := Fallible.map_eq_ok_iff.mp answered
        exact wholly count counted
    | succ count =>
        refine ⟨?_, nofun⟩
        have partly := (updateEach_documented (Server.accepts filter)
          (SetSemantics.ofDocuments.set set) (documents.take count)).1
        have whole := List.rel_append partly
          (List.forall₂_same.mpr fun document (_ : document ∈ documents.drop count) => .inl rfl)
        beta_reduce at whole
        rw [List.take_append_drop] at whole
        exact whole
  delete_documented := by
    intro circumstances documents filter accepts compiled
    cases compiled
    cases circumstances with
    | zero =>
        refine ⟨List.filter_sublist, ?_, ?_⟩
        · exact List.filter_eq_self.mpr fun document membership => (List.mem_filter.mp membership).2
        · intro count answered
          exact ⟨(Except.ok.inj answered).symm, rfl⟩
    | succ count =>
        refine ⟨?_, ?_, nofun⟩
        · conv_rhs => rw [← List.take_append_drop count documents]
          exact List.filter_sublist.append (List.Sublist.refl _)
        · change (List.filter _ _ ++ documents.drop count).filter _ = _
          rw [List.filter_append, List.filter_filter]
          simp only [Bool.and_self]
          rw [← List.filter_append, List.take_append_drop]
  accept_documented _ _ _ _ := storedAs_of_acceptIdentified
  replace_elsewhere := by
    intro before document stored _ replaced path nonempty other
    obtain ⟨key, rest, rfl⟩ := List.exists_cons_of_ne_nil nonempty
    apply valueAt_of_replaceIdentified replaced
    rintro rfl
    exact other rfl

end Server

end Mongres
