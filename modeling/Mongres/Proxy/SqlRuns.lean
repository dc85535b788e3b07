import Mongres.Proxy.Confinement
import Mongres.Proxy.ServerReads
import Mongres.Proxy.Tables

/-!
# A proxy is a server of tables

Where filters, paths and limits mean the same in SQL and in MongoDB, the statements that a proxy
serves do to the rows of its tables what SQL says, whatever the server decides on its own and
whatever gets lost on the way.
-/

namespace Mongres

open Fallible Nesting

/-! ## Rows of documents -/

def StoredDocument.row (document : StoredDocument) : Row := valueAtPath document.fields

def Contents.tables (contents : Contents) : Tables := fun collection =>
  (contents collection).map StoredDocument.row

theorem Contents.tables_update (contents : Contents) (collection : String)
    (documents : List StoredDocument) :
    Contents.tables (Function.update contents collection documents) =
      Function.update contents.tables collection (documents.map StoredDocument.row) := by
  funext other
  unfold Contents.tables
  by_cases same : other = collection
  · subst same
    rw [Function.update_self, Function.update_self]
  · rw [Function.update_of_ne same, Function.update_of_ne same]

theorem StoredDocument.row_of_ne_nil (document : StoredDocument) {path : List String}
    (nonempty : path ≠ []) : document.row path = document.valueAt path := if_neg nonempty

theorem Predicate.eval_congr {predicate : Predicate} {one other : Condition → Truth}
    (same : ∀ condition ∈ predicate.conditions, one condition = other condition) :
    predicate.formula.eval one = predicate.formula.eval other := by
  have lists {predicates : List Predicate}
      (same : ∀ condition ∈ Predicate.conditionsOf predicates, one condition = other condition)
      (each : ∀ predicate ∈ predicates,
        (∀ condition ∈ predicate.conditions, one condition = other condition) →
          predicate.formula.eval one = predicate.formula.eval other) :
      Formula.evalList one (Predicate.formulas predicates) =
        Formula.evalList other (Predicate.formulas predicates) := by
    rw [Predicate.forall_mem_conditionsOf_iff] at same
    rw [Predicate.formulas_eq_map, Formula.evalList_eq_map, Formula.evalList_eq_map, List.map_map,
      List.map_map]
    apply List.map_congr_left
    intro predicate membership
    exact each predicate membership (same predicate membership)
  induction predicate using Predicate.listInduction with
  | compare path operator value => exact same _ List.mem_cons_self
  | inList path values negated => exact same _ List.mem_cons_self
  | isNull path negated => exact same _ List.mem_cons_self
  | and predicates inductionHypothesis =>
      exact congrArg Truth.all (lists same inductionHypothesis)
  | or predicates inductionHypothesis =>
      exact congrArg Truth.any (lists same inductionHypothesis)

theorem Predicate.truthOn_row {predicate : Predicate}
    (plain : ∀ condition ∈ predicate.conditions, condition.path.IsPlain)
    (document : StoredDocument) : predicate.truthOn document.row = predicate.truth document := by
  apply Predicate.eval_congr
  intro condition membership
  rw [document.row_of_ne_nil (plain condition membership).nonempty]

theorem SqlValue.isStoredAs_of_bsonValue {value : SqlValue} {stored : Bson}
    (converted : bsonValue value = .ok stored) : value.IsStoredAs stored := by
  cases value <;> cases converted <;> rfl

/-! ## Reading -/

section Filters

variable {documents : List StoredDocument} {predicate : Predicate}
  {accepts : StoredDocument → Bool}

theorem selects_row (plain : ∀ condition ∈ predicate.conditions, condition.path.IsPlain)
    (reads : ∀ document ∈ documents,
      (accepts document = true ↔ predicate.truth document = .true)) :
    ∀ document ∈ documents, decide (predicate.Selects document.row) = accepts document := by
  intro document membership
  rw [Bool.eq_iff_iff, decide_eq_true_iff, reads document membership, Predicate.Selects,
    Predicate.truthOn_row plain]

theorem filter_rows (same : ∀ document ∈ documents,
      decide (predicate.Selects document.row) = accepts document) :
    (documents.map StoredDocument.row).filter predicate.Selects =
      (documents.filter accepts).map StoredDocument.row := by
  rw [List.filter_map]
  congr 1
  exact List.filter_congr same

theorem filter_rows_not (same : ∀ document ∈ documents,
      decide (predicate.Selects document.row) = accepts document) :
    (documents.map StoredDocument.row).filter (fun row => ¬ predicate.Selects row) =
      (documents.filter fun document => !accepts document).map StoredDocument.row := by
  rw [List.filter_map]
  congr 1
  apply List.filter_congr
  intro document membership
  rw [Function.comp_apply, decide_not, same document membership]

theorem countP_rows (same : ∀ document ∈ documents,
      decide (predicate.Selects document.row) = accepts document) :
    (documents.map StoredDocument.row).countP predicate.Selects = documents.countP accepts := by
  rw [List.countP_eq_length_filter, filter_rows same, List.length_map,
    ← List.countP_eq_length_filter]

end Filters

/-! ## Statements that mean the same -/

/-- A `SELECT` that SQL and MongoDB understand alike: its filter means the same, its limit is not
zero, and no selected field is above another. -/
structure SelectPlan.WithinSql (plan : SelectPlan) (documents : List StoredDocument) : Prop where
  filtered : ∀ predicate ∈ plan.filter, predicate.HasSqlMeaning documents
  limited : plan.limit ≠ some 0
  sendable : ∀ path ∈ plan.projection.paths, path.Sendable
  apart : ∀ one ∈ plan.projection.paths, ∀ two ∈ plan.projection.paths, ¬ one.IsAncestor two

/-- An `UPDATE` that assigns to paths that are free in every row it selects. -/
structure UpdatePlan.WithinSql (plan : UpdatePlan) (documents : List StoredDocument) : Prop where
  filtered : plan.filter.HasSqlMeaning documents
  undotted : ∀ assignment ∈ plan.assignments, assignment.path.Undotted
  named : ∀ assignment ∈ plan.assignments, assignment.path.segments ≠ [] ∧
    assignment.path.segments.head? ≠ some "_id"
  free : ∀ document ∈ documents, plan.filter.truth document = .true →
    ∀ assignment ∈ plan.assignments,
      Passable (Bson.document document.fields) assignment.path.segments

/-- A statement that SQL and MongoDB understand alike on the documents of its collection. -/
def StatementPlan.WithinSql (plan : StatementPlan) (documents : List StoredDocument) : Prop :=
  match plan with
  | .select plan => plan.WithinSql documents
  | .insert plan => ∀ column ∈ plan.columns, column.segments ≠ []
  | .update plan => plan.WithinSql documents
  | .delete plan => plan.filter.HasSqlMeaning documents

theorem Deployment.Retagged.withinSql {plan resolved : StatementPlan}
    (retagged : Deployment.Retagged plan resolved) {documents : List StoredDocument}
    (within : plan.WithinSql documents) : resolved.WithinSql documents := by
  cases retagged with
  | unchanged => exact within
  | @retagged update path value other updates single _ =>
      rw [updates] at within
      obtain ⟨filtered, undotted, named, free⟩ := within
      rw [single] at undotted named
      have paths : ∀ document ∈ documents, update.filter.truth document = .true →
          Passable (Bson.document document.fields) path.segments := by
        intro document membership selected
        apply free document membership selected { path, value }
        rw [single]
        exact List.mem_singleton_self _
      rw [List.forall_mem_singleton] at undotted named
      exact
        { filtered
          undotted := List.forall_mem_singleton.mpr undotted
          named := List.forall_mem_singleton.mpr named
          free := fun document membership selected =>
            List.forall_mem_singleton.mpr (paths document membership selected) }

/-! ## One statement -/

section Statements

variable {server : Server} {circumstances : Circumstances} {transmission : Transmission}
  {contents : Contents}

theorem bounded_of_selectLimit {limit : Option UInt64} {sent : Option Int64}
    (nonzero : limit ≠ some 0) (translated : transpose selectLimit limit = .ok sent)
    {α : Type} (documents : List α) :
    bounded sent documents = limit.elim documents fun limit => documents.take limit.toNat := by
  rcases transpose_eq_ok_iff.mp translated with ⟨rfl, rfl⟩ | ⟨limit, number, rfl, selected, rfl⟩
  · rfl
  · unfold selectLimit at selected
    split at selected
    · rename_i bound
      cases selected
      have value : (Int64.ofNat limit.toNat).toInt = limit.toNat := Int64.toInt_ofNat_of_lt bound
      have positive : Int64.ofNat limit.toNat ≠ 0 := by
        intro zero
        rw [zero] at value
        apply nonzero
        have none : limit.toNat = 0 := by
          have : (0 : Int64).toInt = 0 := rfl
          omega
        rw [UInt64.toNat_inj.mp (none.trans rfl : limit.toNat = (0 : UInt64).toNat)]
      rw [bounded, if_neg positive, value]
      rfl
    · cases selected

theorem exists_keeps (mongo : ProjectionSemantics) {plan : SelectPlan}
    {documents : List StoredDocument} (within : plan.WithinSql documents)
    {projection : Option Document}
    (projected : projectionDocument plan.projection = .ok projection) :
    ∃ keeps, projection.elim (.ok StoredDocument.fields) mongo.project = .ok keeps ∧
      ∀ (table : CollectionCatalog) (document : StoredDocument),
        ∀ derived ∈ derivedFields table plan.projection,
          valueAtPath (keeps document) derived.1.segments = document.row derived.1.segments := by
  cases listed : plan.projection with
  | all =>
      rw [listed] at projected
      cases projected
      exact ⟨_, rfl, fun _ _ _ _ => rfl⟩
  | fields fields =>
      obtain ⟨_, _, sendable, apart⟩ := within
      rw [listed, Projection.paths, List.forall_mem_map] at sendable
      rw [listed] at projected apart
      simp only [Projection.paths, List.forall_mem_map] at apart
      obtain ⟨document, rfl⟩ : ∃ document, projection = some document := by
        obtain ⟨_, same⟩ := projectionDocument_fields_eq_ok_iff.mp projected
        exact ⟨_, same⟩
      obtain ⟨keeps, accepted, values⟩ :=
        exists_project_of_sendable mongo sendable apart projected
      refine ⟨keeps, accepted, ?_⟩
      intro table document derived membership
      obtain ⟨field, fieldMembership, rfl⟩ := List.mem_map.mp membership
      exact values document field fieldMembership

theorem exists_accepts {filter : Option Predicate} {documents : List StoredDocument}
    {sent : Document} (translated : filterDocument filter = .ok sent)
    (means : ∀ predicate ∈ filter, predicate.HasSqlMeaning documents) :
    ∃ accepts, server.compileFilter sent = .ok accepts ∧
      (documents.filter accepts).map StoredDocument.row =
        filter.elim (documents.map StoredDocument.row) fun predicate =>
          (documents.map StoredDocument.row).filter predicate.Selects := by
  cases filter with
  | none =>
      cases translated
      obtain ⟨accepts, compiled, all⟩ := server.exists_compileFilter_nil
      refine ⟨accepts, compiled, ?_⟩
      rw [List.filter_eq_self.mpr fun document _ => all document]
      rfl
  | some predicate =>
      obtain ⟨accepts, compiled, reads⟩ :=
        server.accepts_of_hasSqlMeaning translated (means predicate rfl)
      exact ⟨accepts, compiled, (filter_rows (selects_row (means predicate rfl).plain reads)).symm⟩

theorem selected_eq {bsonText : BsonText} {plan : SelectPlan} {table : CollectionCatalog}
    {keeps : StoredDocument → Document}
    (cells : ∀ document : StoredDocument, ∀ derived ∈ derivedFields table plan.projection,
      valueAtPath (keeps document) derived.1.segments = document.row derived.1.segments)
    (documents : List StoredDocument) :
    ProxyBackend.selected bsonText plan table (documents.map keeps) =
      .query ((derivedFields table plan.projection).map Prod.snd)
        ((documents.map StoredDocument.row).map fun row =>
          (derivedFields table plan.projection).map fun (path, field) =>
            cellOf bsonText row path.segments field) := by
  rw [ProxyBackend.selected, derivedRows, List.map_map, List.map_map]
  congr 1
  apply List.map_congr_left
  intro document _
  apply List.map_congr_left
  intro derived membership
  dsimp only
  rw [valueFromDocument, cells document derived membership, cellOf]
  cases document.row derived.1.segments <;> rfl

theorem sqlStep_select {bsonText : BsonText} {catalog : DatabaseCatalog} {plan : SelectPlan}
    {table : CollectionCatalog} {documents : List Document}
    (within : plan.WithinSql (contents plan.collection))
    (found : catalog[plan.collection]? = some table)
    (read : (executeSelect (transmission.driver (server.driver circumstances contents)) plan
      []).1 = .ok documents) :
    SqlStep bsonText catalog contents.tables (.select plan)
      (ProxyBackend.selected bsonText plan table documents) contents.tables := by
  obtain ⟨sent, projection, limit, filtered, projected, limited, answered⟩ :=
    executeSelect_eq_ok_iff.mp read
  obtain ⟨_, answered⟩ := Transmission.reply_eq_ok_iff.mp answered
  obtain ⟨accepts, compiled, rows⟩ := @exists_accepts server _ _ _ filtered within.filtered
  obtain ⟨keeps, accepted, cells⟩ := exists_keeps server.projections within projected
  obtain ⟨scanned, reordered, rfl⟩ :=
    server.find_documented _ _ _ _ _ _ _ _ compiled accepted answered
  rw [selected_eq (cells table)]
  apply SqlStep.select found
  refine ⟨scanned.map StoredDocument.row, ?_, ?_⟩
  · unfold Contents.tables
    rw [← rows]
    exact reordered.map _
  · rw [bounded_of_selectLimit within.limited limited]
    cases plan.limit with
    | none => rfl
    | some limit => exact List.map_take

/-- What a failed write may have left: the first rows of an `INSERT`, and any of the rows of an
`UPDATE` or a `DELETE` as SQL says, the others as they were. -/
inductive SqlPart (tables : Tables) : StatementPlan → Tables → Prop where
  | inserted {plan : InsertPlan} {added : List Row} (count : Nat) :
      List.Forall₂ (HoldsValues plan.columns) (plan.rows.take count) added →
      SqlPart tables (.insert plan)
        (Function.update tables plan.collection (tables plan.collection ++ added))
  | updated {plan : UpdatePlan} {rows : List Row} :
      List.Forall₂ (fun before after => after = before ∨
          plan.filter.Selects before ∧ Updates plan.assignments before after)
        (tables plan.collection) rows →
      SqlPart tables (.update plan) (Function.update tables plan.collection rows)
  | deleted {plan : DeletePlan} {rows : List Row} :
      rows.Sublist (tables plan.collection) →
      (rows.filter fun row => ¬ plan.filter.Selects row) =
        (tables plan.collection).filter (fun row => ¬ plan.filter.Selects row) →
      SqlPart tables (.delete plan) (Function.update tables plan.collection rows)

/-- What a write leaves of the tables, with its reply: all that SQL says if it was completed,
and otherwise a part of it or nothing. -/
def Leaves (bsonText : BsonText) (catalog : DatabaseCatalog) (tables : Tables)
    (plan : StatementPlan) (after : Tables) : Result ExecutionResult → Prop
  | .ok result => SqlStep bsonText catalog tables plan result after
  | .error _ => after = tables ∨ SqlPart tables plan after

variable {bsonText : BsonText} {catalog : DatabaseCatalog}

/-- One call on a network leaves what it leaves when it arrives, or nothing. -/
theorem leaves_of_call {α : Type} {plan : StatementPlan} {call : DriverCall}
    {answer : Except String α} {translate : α → WriteOutcome}
    (completes : ∀ value, answer = .ok value → ∃ result,
      commandResult plan (translate value) = some result ∧
        SqlStep bsonText catalog contents.tables plan (.command result)
          (Contents.tables (server.effect circumstances contents call)))
    (part : SqlPart contents.tables plan
      (Contents.tables (server.effect circumstances contents call))) :
    Leaves bsonText catalog contents.tables plan
      (Contents.tables (server.effects circumstances transmission contents [call]))
      ((((transmission.reply answer).map translate).mapError writeError).bind
        (completed plan)) := by
  cases transmission with
  | answered =>
      cases answered : answer with
      | error error => exact .inr part
      | ok value =>
          obtain ⟨result, tagged, step⟩ := completes value answered
          change Leaves _ _ _ _ _ (completed plan (translate value))
          rw [completed, tagged]
          exact step
  | lost error reached =>
      cases reached with
      | true => exact .inr part
      | false => exact .inl rfl

theorem tables_effect (call : DriverCall) :
    Contents.tables (server.effect circumstances contents call) =
      Function.update contents.tables call.collection
        ((server.leaves circumstances (contents call.collection) call).map StoredDocument.row) :=
  contents.tables_update _ _

theorem leaves_delete {plan : DeletePlan}
    (means : plan.filter.HasSqlMeaning (contents plan.collection))
    {outcome : Result WriteOutcome} {calls : List DriverCall}
    (ran : executeDelete (transmission.driver (server.driver circumstances contents)) plan [] =
      (outcome, calls)) :
    Leaves bsonText catalog contents.tables (.delete plan)
      (Contents.tables (server.effects circumstances transmission contents calls))
      (outcome.bind (completed (.delete plan))) := by
  unfold executeDelete at ran
  cases translated : predicateDocument plan.filter with
  | error error =>
      rw [translated] at ran
      cases ran
      exact .inl (by rw [server.effects_nil])
  | ok filter =>
      obtain ⟨accepts, compiled, reads⟩ := server.accepts_of_hasSqlMeaning translated means
      have same := selects_row means.plain reads
      obtain ⟨fewer, kept, complete⟩ :=
        server.delete_documented circumstances (contents plan.collection) filter accepts compiled
      rw [translated] at ran
      cases ran
      apply leaves_of_call
      · intro value answered
        obtain ⟨count, counted, rfl⟩ := map_eq_ok_iff.mp answered
        obtain ⟨rfl, left⟩ := complete count counted
        refine ⟨_, rfl, ?_⟩
        rw [tables_effect]
        change SqlStep _ _ _ _ _ (Function.update _ _ (((server.delete circumstances
          (contents plan.collection) filter).2).map _))
        rw [left, ← filter_rows_not same, ← countP_rows same]
        exact .delete
      · rw [tables_effect]
        apply SqlPart.deleted (fewer.map _)
        have sameLeft := fun document membership => same document (fewer.subset membership)
        exact (filter_rows_not sameLeft).trans
          ((congrArg _ kept).trans (filter_rows_not same).symm)

theorem updates_row {assignments : List AssignmentPlan} {before after : StoredDocument}
    (proper : ∀ assignment ∈ assignments, assignment.path.segments ≠ [])
    (assigned : Assigned assignments before after) :
    Updates assignments before.row after.row where
  held := by
    intro assignment membership
    obtain ⟨value, converted, holds⟩ := assigned.held assignment membership
    refine ⟨value, SqlValue.isStoredAs_of_bsonValue converted, ?_⟩
    rw [after.row_of_ne_nil (proper assignment membership)]
    exact holds
  elsewhere := by
    intro path apart
    by_cases root : path = []
    · rw [root]
      rfl
    · rw [after.row_of_ne_nil root, before.row_of_ne_nil root]
      exact assigned.elsewhere path apart

section Rows

variable {filter : Predicate} {assignments : List AssignmentPlan}
  {accepts : StoredDocument → Bool} {set : StoredDocument → Option StoredDocument}
  {documents updated : List StoredDocument}

theorem forall₂_updates_part
    (same : ∀ document ∈ documents, decide (filter.Selects document.row) = accepts document)
    (makes : ∀ document ∈ documents, accepts document = true →
      ∀ after, set document = some after → Updates assignments document.row after.row)
    (related : List.Forall₂ (fun before after => after = before ∨
      accepts before = true ∧ set before = some after) documents updated) :
    List.Forall₂ (fun before after => after = before ∨
      filter.Selects before ∧ Updates assignments before after)
      (documents.map StoredDocument.row) (updated.map StoredDocument.row) := by
  rw [List.forall₂_map_left_iff, List.forall₂_map_right_iff]
  apply ((List.forall₂_and_left _ _).mpr ⟨fun document membership =>
    And.intro (same document membership) (makes document membership), related⟩).imp
  rintro before after ⟨⟨selects, becomes⟩, rfl | ⟨accepted, made⟩⟩
  · exact .inl rfl
  · rw [accepted, decide_eq_true_iff] at selects
    exact .inr ⟨selects, becomes accepted after made⟩

theorem forall₂_updates_row
    (same : ∀ document ∈ documents, decide (filter.Selects document.row) = accepts document)
    (makes : ∀ document ∈ documents, accepts document = true →
      ∀ after, set document = some after → Updates assignments document.row after.row)
    (related : List.Forall₂ (fun before after => if accepts before then set before = some after
      else after = before) documents updated) :
    List.Forall₂ (fun before after => if filter.Selects before then
      Updates assignments before after else after = before)
      (documents.map StoredDocument.row) (updated.map StoredDocument.row) := by
  rw [List.forall₂_map_left_iff, List.forall₂_map_right_iff]
  apply ((List.forall₂_and_left _ _).mpr ⟨fun document membership =>
    And.intro (same document membership) (makes document membership), related⟩).imp
  rintro before after ⟨⟨selects, becomes⟩, made⟩
  by_cases accepted : accepts before = true
  · rw [accepted, decide_eq_true_iff] at selects
    rw [if_pos accepted] at made
    rw [if_pos selects]
    exact becomes accepted after made
  · rw [if_neg accepted] at made
    rw [Bool.not_eq_true] at accepted
    rw [accepted, decide_eq_false_iff_not] at selects
    rw [if_neg selects, made]

end Rows

theorem leaves_update {plan : UpdatePlan} (within : plan.WithinSql (contents plan.collection))
    {outcome : Result WriteOutcome} {calls : List DriverCall}
    (ran : executeUpdate (transmission.driver (server.driver circumstances contents)) plan [] =
      (outcome, calls)) :
    Leaves bsonText catalog contents.tables (.update plan)
      (Contents.tables (server.effects circumstances transmission contents calls))
      (outcome.bind (completed (.update plan))) := by
  unfold executeUpdate at ran
  cases translated : predicateDocument plan.filter with
  | error error =>
      rw [translated] at ran
      cases ran
      exact .inl (by rw [server.effects_nil])
  | ok filter =>
      rw [translated] at ran
      cases updated : updateDocument plan.assignments with
      | error error =>
          rw [updated] at ran
          cases ran
          exact .inl (by rw [server.effects_nil])
      | ok update =>
          rw [updated] at ran
          cases ran
          obtain ⟨accepts, compiled, reads⟩ :=
            server.accepts_of_hasSqlMeaning translated within.filtered
          obtain ⟨set, rfl, assigns⟩ := assigned_of_updateDocument server.sets within.undotted
            (fun assignment membership => (within.named assignment membership).2) updated
          have makes : ∀ document ∈ contents plan.collection, accepts document = true →
              ∀ after, server.sets.set set document = some after →
                Updates plan.assignments document.row after.row := by
            intro document membership accepted after made
            have free := within.free document membership ((reads document membership).mp accepted)
            exact updates_row (fun assignment listed => (within.named assignment listed).1)
              (assigns document after free made)
          have same := selects_row within.filtered.plain reads
          obtain ⟨partly, wholly⟩ := server.update_documented circumstances
            (contents plan.collection) filter accepts set compiled
          apply leaves_of_call
          · rintro ⟨matched, modified⟩ answered
            obtain ⟨counts, reply, sameCounts⟩ := map_eq_ok_iff.mp answered
            cases sameCounts
            obtain ⟨counted, related⟩ := wholly counts reply
            refine ⟨_, rfl, ?_⟩
            rw [tables_effect, counted, ← countP_rows same]
            exact .update (forall₂_updates_row same makes related)
          · rw [tables_effect]
            exact .updated (forall₂_updates_part same makes partly)

theorem holdsValues_row {columns : List FieldPath} {values : List SqlValue} {document : Document}
    {stored : StoredDocument} (proper : ∀ column ∈ columns, column.segments ≠ [])
    (built : buildInsertDocument columns values = .ok document)
    (admitted : StoredAs document stored) :
    HoldsValues columns values stored.row := by
  obtain ⟨sameLength, inserted⟩ := buildInsertDocument_eq_ok_iff.mp built
  have cells : ∀ cell ∈ columns.zip values, cell.1.segments ≠ [] :=
    (forall_mem_zip_fst_iff sameLength fun column => column.segments ≠ []).mpr proper
  have holds := holdsRow_of_buildInsertDocument cells inserted
  constructor
  · intro cell membership
    obtain ⟨value, converted, reached⟩ := holds.held cell membership
    refine ⟨value, SqlValue.isStoredAs_of_bsonValue converted, ?_⟩
    rw [valueAtPath, if_neg (cells cell membership)] at reached
    rw [stored.row_of_ne_nil (cells cell membership)]
    exact admitted.held _ _ (cells cell membership) reached
  · intro path leaf reached noDocument
    by_cases root : path = []
    · rw [root] at reached
      cases reached
    · rw [stored.row_of_ne_nil root] at reached
      by_cases identifier : path.head? = some "_id"
      · exact .inl identifier
      · right
        apply holds.leaves path leaf _ noDocument
        rw [valueAtPath, if_neg root, ← admitted.elsewhere path root identifier]
        exact reached

theorem untimed_of_buildInsertDocument {columns : List FieldPath} {values : List SqlValue}
    {document : Document} (proper : ∀ column ∈ columns, column.segments ≠ [])
    (built : buildInsertDocument columns values = .ok document) : Untimed document := by
  obtain ⟨sameLength, inserted⟩ := buildInsertDocument_eq_ok_iff.mp built
  have cells : ∀ cell ∈ columns.zip values, cell.1.segments ≠ [] :=
    (forall_mem_zip_fst_iff sameLength fun column => column.segments ≠ []).mpr proper
  have holds := holdsRow_of_buildInsertDocument cells inserted
  obtain ⟨distinct, _⟩ := (Bson.wellKeyed_document_iff document).mp holds.keyed
  rintro ⟨key, value⟩ membership timestamp
  have reached : valueAtPath document [key] = some (.timestamp 0 0) := by
    rw [valueAtPath, if_neg (List.cons_ne_nil key []), Nested.descend_cons, Bson.fields_document,
      Option.bind_some, (lookup_eq_some_iff_mem distinct key value).mpr membership]
    exact congrArg some timestamp
  obtain ⟨column, listed, path⟩ := holds.leaves [key] _ reached (by simp)
  have elsewhere : ∀ cell ∈ columns.zip values, cell.1.segments ≠ [key] := by
    intro cell inside same
    obtain ⟨stored, converted, held⟩ := holds.held cell inside
    rw [same, reached] at held
    cases held
    generalize cell.2 = written at converted
    cases written <;> cases converted
  exact (forall_mem_zip_fst_iff sameLength fun column => column.segments ≠ [key]).mp elsewhere
    column listed path

theorem forall₂_holdsValues {columns : List FieldPath} {rows : List (List SqlValue)}
    {documents : List Document} {added : List StoredDocument}
    (proper : ∀ column ∈ columns, column.segments ≠ [])
    (built : List.Forall₂ (fun values document => buildInsertDocument columns values = .ok document)
      rows documents)
    (taken : List.Forall₂ StoredAs documents added) :
    List.Forall₂ (HoldsValues columns) rows (added.map StoredDocument.row) := by
  induction built generalizing added with
  | nil =>
      cases taken
      exact .nil
  | cons first _ inductionHypothesis =>
      obtain ⟨stored, rest, admitted, takenRest, rfl⟩ := List.forall₂_cons_left_iff.mp taken
      exact .cons (holdsValues_row proper first admitted) (inductionHypothesis takenRest)

theorem leaves_insert {plan : InsertPlan} (proper : ∀ column ∈ plan.columns, column.segments ≠ [])
    {outcome : Result WriteOutcome} {calls : List DriverCall}
    (ran : executeInsert (transmission.driver (server.driver circumstances contents)) plan [] =
      (outcome, calls)) :
    Leaves bsonText catalog contents.tables (.insert plan)
      (Contents.tables (server.effects circumstances transmission contents calls))
      (outcome.bind (completed (.insert plan))) := by
  unfold executeInsert at ran
  cases collected : collect (buildInsertDocument plan.columns) plan.rows with
  | error error =>
      rw [collected] at ran
      cases ran
      exact .inl (by rw [server.effects_nil])
  | ok documents =>
      have built := collect_eq_ok_iff.mp collected
      have untimed : ∀ document ∈ documents, Untimed document := by
        intro document membership
        obtain ⟨values, _, builds⟩ := exists_of_mem_collect collected membership
        exact untimed_of_buildInsertDocument proper builds
      obtain ⟨count, added, left, taken, all⟩ :=
        server.insert_documented circumstances (contents plan.collection) documents untimed
      have rows := forall₂_holdsValues proper (List.forall₂_take count built) taken
      let after := Function.update contents.tables plan.collection
        (contents.tables plan.collection ++ added.map StoredDocument.row)
      have part : SqlPart contents.tables (.insert plan) after := .inserted count rows
      have whole {call : DriverCall} (about : call.collection = plan.collection)
          (leaves : server.leaves circumstances (contents call.collection) call =
            (server.insert circumstances (contents plan.collection) documents).2) :
          Contents.tables (server.effect circumstances contents call) = after := by
        rw [tables_effect, leaves, about, left, List.map_append]
        rfl
      have complete {answered : Nat} (answer : (server.insert circumstances
            (contents plan.collection) documents).1 = .ok answered) :
          SqlStep bsonText catalog contents.tables (.insert plan)
            (.command ⟨"INSERT 0", UInt64.ofNat answered⟩) after := by
        obtain ⟨rfl, all⟩ := all answered answer
        have sameLength : plan.rows.length = documents.length := (length_of_collect collected).symm
        rw [all, ← sameLength, List.take_length] at rows
        rw [← sameLength]
        exact .insert rows
      rw [collected] at ran
      match documents with
      | [] =>
          cases ran
          exact .inl (by rw [server.effects_nil])
      | [document] =>
          cases ran
          apply leaves_of_call
          · intro value answered
            obtain ⟨count, answer, _⟩ := map_eq_ok_iff.mp answered
            refine ⟨_, rfl, ?_⟩
            have one : count = 1 := (all count answer).1
            rw [whole rfl rfl]
            have step := complete answer
            rw [one] at step
            exact step
          · rw [whole rfl rfl]
            exact part
      | first :: second :: rest =>
          cases ran
          apply leaves_of_call
          · intro value answered
            obtain ⟨count, answer, rfl⟩ := map_eq_ok_iff.mp answered
            refine ⟨_, rfl, ?_⟩
            rw [whole rfl rfl]
            exact complete answer
          · rw [whole rfl rfl]
            exact part

theorem leaves_write {plan : StatementPlan} (writes : plan.isWrite = true)
    (within : plan.WithinSql (contents (collectionFromPlan plan)))
    {outcome : Result WriteOutcome} {calls : List DriverCall}
    (ran : executeWrite (transmission.driver (server.driver circumstances contents)) plan [] =
      (outcome, calls)) :
    Leaves bsonText catalog contents.tables plan
      (Contents.tables (server.effects circumstances transmission contents calls))
      (outcome.bind (completed plan)) := by
  cases plan with
  | select plan => cases writes
  | insert plan => exact leaves_insert within ran
  | update plan => exact leaves_update within ran
  | delete plan => exact leaves_delete within ran

end Statements

/-! ## Runs -/

namespace Deployment

/-- What SQL says about an exchange: a catalog answer or a refusal changes nothing, a completed
statement is a step of its plan, and a failed write has left a part of it or nothing. -/
inductive SqlExchange (deployment : Deployment) : Tables → Exchange → Tables → Prop where
  | canned {tables : Tables} {exchange : Exchange} {query : String} {result : ExecutionResult} :
      exchange.statement = .simple query ∨ exchange.statement = .bound query [] →
      catalogOrSessionQuery deployment.backend.databaseName deployment.backend.catalog query =
        some result →
      exchange.reply = .ok result → SqlExchange deployment tables exchange tables
  | refused {tables : Tables} {exchange : Exchange} {error : ProxyError} :
      exchange.reply = .error error → SqlExchange deployment tables exchange tables
  | read {tables after : Tables} {exchange : Exchange} {plan : SelectPlan}
      {result : ExecutionResult} :
      deployment.Plans exchange.statement (.select plan) → exchange.reply = .ok result →
      SqlStep deployment.bsonText deployment.backend.catalog tables (.select plan) result after →
      SqlExchange deployment tables exchange after
  | wrote {tables after : Tables} {exchange : Exchange} {plan resolved : StatementPlan} :
      deployment.Plans exchange.statement plan → plan.isWrite = true → Retagged plan resolved →
      Leaves deployment.bsonText deployment.backend.catalog tables resolved after
        exchange.reply →
      SqlExchange deployment tables exchange after

/-- A statement whose plan, if it has one, SQL and MongoDB understand alike in a state. -/
def WithinSql (deployment : Deployment) (state : SystemState) (exchange : Exchange) : Prop :=
  ∀ plan, deployment.Plans exchange.statement plan →
    plan.WithinSql (state.contents (collectionFromPlan plan))

/-- An exchange that SQL and MongoDB understand alike does to the tables what SQL says. -/
theorem sqlExchange_of_step {deployment : Deployment} {state next : SystemState}
    {exchange : Exchange} (within : deployment.WithinSql state exchange)
    (step : deployment.Step state exchange next) :
    deployment.SqlExchange state.contents.tables exchange next.contents.tables := by
  obtain ⟨calls, handled, same⟩ := step.handled
  rw [same]
  generalize replied : exchange.reply = reply at handled
  cases handled with
  | canned asks answered =>
      rw [Server.effects_nil]
      exact .canned asks answered replied
  | refused error =>
      rw [Server.effects_nil]
      exact .refused replied
  | @read plan table outcome _ plans found ran =>
      rw [effects_of_executeSelect ran]
      cases outcome with
      | error error => exact .refused replied
      | ok documents =>
          have read : (executeSelect (exchange.transmission.driver (deployment.server.driver
              exchange.circumstances state.contents)) plan []).1 = .ok documents :=
            congrArg Prod.fst ran
          exact .read plans replied (sqlStep_select (within _ plans) found read)
  | @failed plan schema write after error _ plans writes _ passed ran =>
      have retagged := retagged_of_passed passed
      have stillWrites := retagged.isWrite_eq.trans writes
      have stillWithin := retagged.withinSql (within plan plans)
      rw [← retagged.collectionFromPlan_eq] at stillWithin
      refine .wrote plans writes retagged ?_
      rw [replied]
      exact leaves_write stillWrites stillWithin ran
  | @wrote plan schema write after outcome _ plans writes _ passed ran =>
      have retagged := retagged_of_passed passed
      have stillWrites := retagged.isWrite_eq.trans writes
      have stillWithin := retagged.withinSql (within plan plans)
      rw [← retagged.collectionFromPlan_eq] at stillWithin
      refine .wrote plans writes retagged ?_
      rw [replied]
      exact leaves_write stillWrites stillWithin ran

/-- A run of statements that SQL and MongoDB understand alike is a run of SQL on the tables that
the database holds, with the same replies. -/
theorem sqlRun_of_run (deployment : Deployment) {start finish : SystemState}
    {exchanges : List Exchange}
    (run : Labelled.Run (fun state exchange next =>
      deployment.WithinSql state exchange ∧ deployment.Step state exchange next)
      start exchanges finish) :
    Labelled.Run deployment.SqlExchange start.contents.tables exchanges
      finish.contents.tables :=
  run.abstracts (fun state => state.contents.tables) fun _ _ _ step =>
    sqlExchange_of_step step.1 step.2

section Example

/-- `DELETE FROM people WHERE name = 'ada'` -/
private def deletesAda : StatementPlan :=
  .delete ⟨"people", .compare ⟨["name"]⟩ .equal (.string "ada")⟩

private def selectsNames : StatementPlan :=
  .select ⟨"people", .fields [⟨⟨["name"]⟩, none⟩], none, none⟩

private theorem eq_of_plans_removeAda {plan : StatementPlan}
    (plans : registry.Plans (removeAda true).statement plan) : plan = deletesAda := by
  cases plans with
  | simple parsed => exact (Except.ok.inj parsed).symm

private theorem eq_of_plans_readNames {plan : StatementPlan}
    (plans : registry.Plans (readNames ["grace"]).statement plan) : plan = selectsNames := by
  cases plans with
  | bound parsed listed binds =>
      cases Except.ok.inj parsed
      cases Option.some.inj listed
      exact (Except.ok.inj binds).symm

private theorem valueAt_name {secret : String} {document : StoredDocument}
    (membership : document ∈ (registered secret).contents "people") :
    ∃ name, document.valueAt ["name"] = some (.string name) := by
  rcases List.mem_cons.mp membership with rfl | others
  · exact ⟨_, rfl⟩
  · cases List.mem_singleton.mp others
    exact ⟨_, rfl⟩

private theorem withinSql_deletesAda (secret : String) :
    deletesAda.WithinSql ((registered secret).contents "people") := by
  constructor
  · intro condition membership
    cases List.mem_singleton.mp membership
    exact ⟨by decide, by decide, by decide⟩
  · intro document membership condition conditionMembership
    cases List.mem_singleton.mp conditionMembership
    obtain ⟨name, found⟩ := valueAt_name membership
    refine ⟨⟨by decide, by decide, by decide⟩, by decide, ?_, ?_, ?_⟩
    · intro start leads values reached
      rcases List.prefix_cons_iff.mp leads with rfl | ⟨rest, rfl, empty⟩
      · rw [StoredDocument.valueAt, Nested.descend_nil] at reached
        cases reached
      · cases List.prefix_nil.mp empty
        cases found.symm.trans reached
    · intro undefined
      cases found.symm.trans undefined
    · intro stored reached _ literal literalMembership
      cases List.mem_singleton.mp literalMembership
      cases found.symm.trans reached
      trivial
  · intro document membership widened
    obtain ⟨name, found⟩ := valueAt_name membership
    obtain ⟨loose, strict⟩ := (Formula.widened_leaf _ _ _).mp widened
    apply strict
    apply loose.resolve_right
    rintro ⟨tells, _⟩
    cases tells

private theorem withinSql_selectsNames (documents : List StoredDocument) :
    selectsNames.WithinSql documents where
  filtered := nofun
  limited := nofun
  sendable := by decide
  apart := by
    intro one oneMembership two twoMembership above
    cases List.mem_singleton.mp oneMembership
    cases List.mem_singleton.mp twoMembership
    obtain ⟨_, rest, nonempty, same⟩ := above
    exact nonempty (List.append_right_eq_self.mp same.symm)

/-- The deletion of which only an error is heard is a step of SQL, and so is the reading after. -/
theorem sqlRun_of_run_registry :
    Labelled.Run registry.SqlExchange (registered "key").contents.tables
      [removeAda true, readNames ["grace"]] (registeredGrace "key").contents.tables := by
  apply sqlRun_of_run registry
  refine .next ⟨?_, step_removeAda "key"⟩ (.next ⟨?_, step_readNames "key"⟩ (.done _))
  · intro plan plans
    cases eq_of_plans_removeAda plans
    exact withinSql_deletesAda "key"
  · intro plan plans
    cases eq_of_plans_readNames plans
    exact withinSql_selectsNames _

end Example

end Deployment

end Mongres
