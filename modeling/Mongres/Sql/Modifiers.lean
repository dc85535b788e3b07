import Mongres.Sql.Lowering

/-!
# Clauses that a plan does not represent

A plan represents the table, the projection, the values, the filter and the limit of a
statement.  Everything else that a statement can carry is a modifier: lowering refuses
some of them, and drops the others without an error.
-/

namespace Mongres

open Fallible Ast

inductive QueryClause where
  | with_
  | orderBy
  | limit
  | limitBy
  | offset
  | fetch
  | locks
  | forClause
  | settings
  | formatClause
  deriving DecidableEq, Repr

inductive SelectClause where
  | distinct
  | top
  | into
  | lateralViews
  | prewhere
  | groupBy
  | clusterBy
  | distributeBy
  | sortBy
  | having
  | namedWindow
  | qualify
  | valueTableMode
  | connectBy
  | wildcardOptions
  deriving DecidableEq, Repr

inductive TableClause where
  | tableAlias
  | args
  | withHints
  | version
  | withOrdinality
  | partitions
  | jsonPath
  | joins
  deriving DecidableEq, Repr

inductive InsertClause where
  | or
  | ignore
  | tableAlias
  | overwrite
  | partitioned
  | afterColumns
  | table
  | on
  | returning
  | replaceInto
  | priority
  | insertAlias
  deriving DecidableEq, Repr

inductive WriteClause where
  | tables
  | fromTable
  | usingTables
  | returning
  | orderBy
  | limit
  | or
  deriving DecidableEq, Repr

/-- What a statement carries besides the parts that a plan represents. -/
inductive Modifier where
  | query (clause : QueryClause)
  | select (clause : SelectClause)
  | table (clause : TableClause)
  | insert (clause : InsertClause)
  | source (clause : QueryClause)
  | update (clause : WriteClause)
  | delete (clause : WriteClause)
  deriving DecidableEq, Repr

/-- The modifiers that no function of lowering looks at. -/
def Modifier.unchecked : Modifier → Bool
  | .select clause => clause = .valueTableMode || clause = .wildcardOptions
  | .table clause => clause ≠ .args && clause ≠ .joins
  | .insert clause => clause = .or
  | .source clause => clause = .forClause || clause = .settings || clause = .formatClause
  | .query _ | .update _ | .delete _ => false

/-! ## The modifiers of a statement -/

def present (modifier : Modifier) (flag : Bool) : List Modifier := if flag then [modifier] else []

theorem forall_mem_present_iff {holds : Modifier → Prop} {modifier : Modifier} {flag : Bool} :
    (∀ other ∈ present modifier flag, holds other) ↔ (flag = true → holds modifier) := by
  cases flag <;> simp [present]

namespace Ast

def TableFactor.modifiers : TableFactor → List Modifier
  | .table _ tableAlias args withHints version withOrdinality partitions jsonPath =>
      present (.table .tableAlias) tableAlias.isSome ++ present (.table .args) args.isSome
        ++ present (.table .withHints) (!withHints.isEmpty)
        ++ present (.table .version) version.isSome
        ++ present (.table .withOrdinality) withOrdinality
        ++ present (.table .partitions) (!partitions.isEmpty)
        ++ present (.table .jsonPath) jsonPath.isSome
  | .other _ => []

def TableWithJoins.modifiers (table : TableWithJoins) : List Modifier :=
  table.relation.modifiers ++ present (.table .joins) (!table.joins.isEmpty)

/-- The options of a wildcard; their text is empty where there are none. -/
def SelectItem.modifiers : SelectItem → List Modifier
  | .wildcard options | .qualifiedWildcard _ options =>
      present (.select .wildcardOptions) (decide (options ≠ ""))
  | .unnamedExpr _ | .exprWithAlias _ _ => []

def GroupByExpr.isPresent : GroupByExpr → Bool
  | .all _ => true
  | .expressions listed modifiers => !listed.isEmpty || !modifiers.isEmpty

/-- The flags on the order of two clauses mean nothing without the clauses. -/
def Select.modifiers (select : Select) : List Modifier :=
  present (.select .distinct) select.distinct.isSome ++ present (.select .top) select.top.isSome
    ++ present (.select .into) select.into.isSome
    ++ present (.select .lateralViews) (!select.lateralViews.isEmpty)
    ++ present (.select .prewhere) select.prewhere.isSome
    ++ present (.select .groupBy) select.groupBy.isPresent
    ++ present (.select .clusterBy) (!select.clusterBy.isEmpty)
    ++ present (.select .distributeBy) (!select.distributeBy.isEmpty)
    ++ present (.select .sortBy) (!select.sortBy.isEmpty)
    ++ present (.select .having) select.having.isSome
    ++ present (.select .namedWindow) (!select.namedWindow.isEmpty)
    ++ present (.select .qualify) select.qualify.isSome
    ++ present (.select .valueTableMode) select.valueTableMode.isSome
    ++ present (.select .connectBy) select.connectBy.isSome
    ++ select.projection.flatMap SelectItem.modifiers
    ++ select.fromTables.flatMap TableWithJoins.modifiers

/-- The clauses around the body of a query, but for its limit. -/
def Query.clauses (query : Query) (located : QueryClause → Modifier) : List Modifier :=
  present (located .with_) query.withClause.isSome
    ++ present (located .orderBy) query.orderBy.isSome
    ++ present (located .limitBy) (!query.limitBy.isEmpty)
    ++ present (located .offset) query.offset.isSome
    ++ present (located .fetch) query.fetch.isSome
    ++ present (located .locks) (!query.locks.isEmpty)
    ++ present (located .forClause) query.forClause.isSome
    ++ present (located .settings) query.settings.isSome
    ++ present (located .formatClause) query.formatClause.isSome

def Query.modifiers (query : Query) : List Modifier :=
  query.clauses .query ++
    match query.body with
    | .select select => select.modifiers
    | .values _ _ | .other _ => []

/-- The rows of an `INSERT` have no place for a limit either. -/
def Query.sourceModifiers (source : Query) : List Modifier :=
  source.clauses .source ++ present (.source .limit) source.limit.isSome

def Insert.modifiers (insert : Insert) : List Modifier :=
  present (.insert .or) insert.or.isSome ++ present (.insert .ignore) insert.ignore
    ++ present (.insert .tableAlias) insert.tableAlias.isSome
    ++ present (.insert .overwrite) insert.overwrite
    ++ present (.insert .partitioned) insert.partitioned.isSome
    ++ present (.insert .afterColumns) (!insert.afterColumns.isEmpty)
    ++ present (.insert .table) insert.table
    ++ present (.insert .on) insert.on.isSome
    ++ present (.insert .returning) insert.returning.isSome
    ++ present (.insert .replaceInto) insert.replaceInto
    ++ present (.insert .priority) insert.priority.isSome
    ++ present (.insert .insertAlias) insert.insertAlias.isSome
    ++ insert.source.toList.flatMap Query.sourceModifiers

def Update.modifiers (update : Update) : List Modifier :=
  update.table.modifiers ++ present (.update .fromTable) update.fromTable.isSome
    ++ present (.update .returning) update.returning.isSome
    ++ present (.update .or) update.or.isSome

def Delete.modifiers (delete : Delete) : List Modifier :=
  present (.delete .tables) (!delete.tables.isEmpty)
    ++ present (.delete .usingTables) delete.usingTables.isSome
    ++ present (.delete .returning) delete.returning.isSome
    ++ present (.delete .orderBy) (!delete.orderBy.isEmpty)
    ++ present (.delete .limit) delete.limit.isSome
    ++ (deleteTables delete.fromTable).flatMap TableWithJoins.modifiers

def Statement.modifiers : Statement → List Modifier
  | .query selected => selected.modifiers
  | .insert inserted => inserted.modifiers
  | .update updated => updated.modifiers
  | .delete deleted => deleted.modifiers
  | .other _ => []

end Ast

/-! ## What lowering refuses -/

section Refused

variable {collection : String} {schema : SchemaProfile} {plan : StatementPlan}

theorem unchecked_of_collectionName {table : TableWithJoins} {name : String}
    (named : collectionNameFromTableWithJoins table = .ok name) :
    ∀ modifier ∈ table.modifiers, modifier.unchecked = true := by
  unfold collectionNameFromTableWithJoins at named
  rw [ite_error_eq_ok_iff, not_not] at named
  obtain ⟨single, named⟩ := named
  cases relation : table.relation with
  | other text =>
      rw [relation] at named
      cases named
  | table name tableAlias args withHints version withOrdinality partitions jsonPath =>
      rw [relation] at named
      dsimp only at named
      rw [ite_error_eq_ok_iff] at named
      have noArguments := Bool.eq_false_of_not_eq_true named.1
      simp only [TableWithJoins.modifiers, relation, TableFactor.modifiers, List.forall_mem_append,
        forall_mem_present_iff]
      simp [Modifier.unchecked, single, noArguments]

theorem unchecked_of_parseProjectionItem {item : SelectItem} {field : ProjectedField}
    (parsed : parseProjectionItem collection schema item = .ok field) :
    ∀ modifier ∈ item.modifiers, modifier.unchecked = true := by
  cases item with
  | unnamedExpr expression => simp [SelectItem.modifiers]
  | exprWithAlias expr columnAlias => simp [SelectItem.modifiers]
  | qualifiedWildcard name options => cases parsed
  | wildcard options => cases parsed

theorem unchecked_of_parseProjection {items : List SelectItem} {projection : Projection}
    (parsed : parseProjection items collection schema = .ok projection) :
    ∀ modifier ∈ items.flatMap SelectItem.modifiers, modifier.unchecked = true := by
  unfold parseProjection at parsed
  split at parsed
  · rename_i options
    rw [List.flatMap_singleton, SelectItem.modifiers, forall_mem_present_iff]
    exact fun _ => rfl
  · obtain ⟨fields, collected, _⟩ := map_eq_ok_iff.mp parsed
    intro modifier membership
    obtain ⟨item, itemMembership, carried⟩ := List.mem_flatMap.mp membership
    obtain ⟨field, _, parsedItem⟩ := exists_mem_of_collect collected itemMembership
    exact unchecked_of_parseProjectionItem parsedItem modifier carried

theorem unchecked_of_validateSelectShape {select : Select}
    (shape : validateSelectShape select = .ok ()) {table : TableWithJoins}
    (single : select.fromTables = [table])
    (named : collectionNameFromTableWithJoins table = .ok collection) {projection : Projection}
    (projected : parseProjection select.projection collection schema = .ok projection) :
    ∀ modifier ∈ select.modifiers, modifier.unchecked = true := by
  have items := unchecked_of_parseProjection projected
  have tables : ∀ modifier ∈ select.fromTables.flatMap TableWithJoins.modifiers,
      modifier.unchecked = true := by
    rw [single, List.flatMap_singleton]
    exact unchecked_of_collectionName named
  have ungrouped : select.groupBy.isPresent = false := by
    unfold validateSelectShape at shape
    cases grouped : select.groupBy with
    | all modifiers => simp [grouped] at shape
    | expressions listed modifiers =>
        simp only [grouped, ite_error_eq_ok_iff, Bool.or_eq_true, not_or, Bool.not_eq_true] at shape
        simp [GroupByExpr.isPresent, shape]
  unfold validateSelectShape at shape
  dsimp only at shape
  rw [ite_error_eq_ok_iff] at shape
  simp only [Bool.or_eq_true, not_or, Bool.not_eq_true] at shape
  obtain ⟨shape, _⟩ := shape
  simp only [Select.modifiers, List.forall_mem_append, forall_mem_present_iff]
  refine ⟨⟨?_, items⟩, tables⟩
  simp [Modifier.unchecked, shape, ungrouped]

theorem unchecked_of_parseSelect {query : Query}
    (lowered : parseSelect query collection schema = .ok plan) :
    ∀ modifier ∈ query.modifiers, modifier.unchecked = true := by
  obtain ⟨noModifiers, select, body, shape, ⟨table, single, named⟩, projection, _, _, projected, _⟩ :=
    parseSelect_eq_ok_iff.mp lowered
  rw [Query.modifiers, body, List.forall_mem_append]
  refine ⟨?_, unchecked_of_validateSelectShape shape single named projected⟩
  simp only [Query.hasModifiers, Bool.or_eq_false_iff] at noModifiers
  simp only [Query.clauses, List.forall_mem_append, forall_mem_present_iff]
  simp [noModifiers]

theorem unchecked_of_parseInsert {insert : Insert}
    (lowered : parseInsert insert collection schema = .ok plan) :
    ∀ modifier ∈ insert.modifiers, modifier.unchecked = true := by
  obtain ⟨_, noModifiers, _, _, source, _, _, _, _, given, noClauses, _⟩ :=
    parseInsert_eq_ok_iff.mp lowered
  simp only [Insert.hasModifiers, Query.hasSourceModifiers, Bool.or_eq_false_iff]
    at noModifiers noClauses
  simp only [Insert.modifiers, given, Option.toList_some, List.flatMap_singleton,
    Query.sourceModifiers, Query.clauses, List.forall_mem_append, forall_mem_present_iff]
  simp [Modifier.unchecked, noModifiers, noClauses]

theorem unchecked_of_parseUpdate {update : Update}
    (lowered : parseUpdate update collection schema = .ok plan) :
    ∀ modifier ∈ update.modifiers, modifier.unchecked = true := by
  obtain ⟨noModifiers, named, _⟩ := parseUpdate_eq_ok_iff.mp lowered
  have table := unchecked_of_collectionName named
  simp only [Update.modifiers, List.forall_mem_append, forall_mem_present_iff]
  refine ⟨⟨⟨table, ?_⟩, ?_⟩, ?_⟩ <;> simp [noModifiers]

theorem unchecked_of_parseDelete {delete : Delete}
    (lowered : parseDelete delete collection schema = .ok plan) :
    ∀ modifier ∈ delete.modifiers, modifier.unchecked = true := by
  obtain ⟨noModifiers, ⟨table, single, named⟩, _⟩ := parseDelete_eq_ok_iff.mp lowered
  have tables : ∀ modifier ∈ (deleteTables delete.fromTable).flatMap TableWithJoins.modifiers,
      modifier.unchecked = true := by
    rw [single, List.flatMap_singleton]
    exact unchecked_of_collectionName named
  simp only [Delete.modifiers, List.forall_mem_append, forall_mem_present_iff]
  refine ⟨?_, tables⟩
  simp [noModifiers]

/-- A statement that lowering accepts carries no modifier but those that nothing checks. -/
theorem unchecked_of_lowerStatement {statement : Statement}
    (lowered : lowerStatement statement collection schema = .ok plan) :
    ∀ modifier ∈ statement.modifiers, modifier.unchecked = true := by
  cases statement with
  | query query => exact unchecked_of_parseSelect lowered
  | insert insert => exact unchecked_of_parseInsert lowered
  | update update => exact unchecked_of_parseUpdate lowered
  | delete delete => exact unchecked_of_parseDelete lowered
  | other text => cases lowered

/-- An accepted statement loses nothing exactly when it carries no modifier that goes
unchecked. -/
theorem modifiers_eq_nil_iff {statement : Statement}
    (lowered : lowerStatement statement collection schema = .ok plan) :
    statement.modifiers = [] ↔
      ∀ modifier ∈ statement.modifiers, modifier.unchecked = false := by
  constructor
  · intro nothing modifier membership
    rw [nothing] at membership
    cases membership
  · intro checked
    apply List.eq_nil_iff_forall_not_mem.mpr
    intro modifier membership
    have accepted := unchecked_of_lowerStatement lowered modifier membership
    rw [checked modifier membership] at accepted
    cases accepted

end Refused

/-! ## Accepted statements -/

section Example

private def customers : SchemaProfile where
  profileVersion := 1
  sampledDocuments := 1
  fields := [⟨⟨["name"]⟩, 1, 0, {.string}, {.scalar}, false⟩]

/-- `SELECT name FROM customers`, with the alias of the table as it is written. -/
private def selectName (tableAlias : Option Clause) : Statement :=
  .query (.limited (.select
    { Select.fromTable [.unnamedExpr (.identifier (.new "name"))] "customers" none with
      fromTables :=
        [⟨.table [.new "customers"] tableAlias none [] none false [] none, []⟩] }) none)

private def selectedName : StatementPlan :=
  .select ⟨"customers", .fields [⟨⟨["name"]⟩, none⟩], none, none⟩

/-- `INSERT INTO customers (name) VALUES ('Amina')`, with its conflict clause. -/
private def insertName (or : Option Clause) : Statement :=
  .insert
    { or
      ignore := false
      into := true
      tableName := [.new "customers"]
      tableAlias := none
      columns := [.new "name"]
      overwrite := false
      source := some (.limited (.values false [[.value (.singleQuotedString "Amina")]]) none)
      partitioned := none
      afterColumns := []
      table := false
      on := none
      returning := none
      replaceInto := false
      priority := none
      insertAlias := none }

private def insertedName : StatementPlan :=
  .insert ⟨"customers", [⟨["name"]⟩], [[.string "Amina"]]⟩

theorem modifiers_selectName :
    (selectName none).modifiers = [] ↔
      ∀ modifier ∈ (selectName none).modifiers, modifier.unchecked = false :=
  @modifiers_eq_nil_iff "customers" customers selectedName (selectName none) rfl

/-- `SELECT name FROM customers AS c(email, name)` gives the column `name` another meaning, and
lowers to the plan of `SELECT name FROM customers`. -/
theorem not_modifiers_eq_nil :
    ¬ ∀ (statement : Statement) (collection : String) (schema : SchemaProfile)
        (plan : StatementPlan),
        lowerStatement statement collection schema = .ok plan → statement.modifiers = [] := by
  intro dropsNothing
  have renamed := dropsNothing (selectName (some "c(email, name)")) "customers" customers
    selectedName rfl
  cases renamed

/-- `INSERT OR REPLACE` lowers to the plan of `INSERT`. -/
example :
    lowerStatement (insertName (some "REPLACE")) "customers" customers = .ok insertedName :=
  rfl

end Example

end Mongres
