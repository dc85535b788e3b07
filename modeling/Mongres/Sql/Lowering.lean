import Mongres.Sql.Resolve
import Mongres.Sql.TypePolicy

/-!
# Statement validation and lowering

Lowering turns a parsed statement into a plan over one collection's profile.
`StatementPlan.Conforms` is what every lowered plan satisfies: its paths are
listed, and each value it assigns has passed the type policy.
-/

namespace Mongres

open Fallible Ast

def collectionFromSelect (select : Select) (collectionName : String) : Result String :=
  match select.fromTables with
  | [table] => collectionFromTableWithJoins table collectionName
  | _ => .error (unsupportedFeature "queries without exactly one FROM table")

def validateSelectShape (select : Select) : Result Unit :=
  let hasGroupBy := match select.groupBy with
    | .all _ => true
    | .expressions expressions modifiers => !expressions.isEmpty || !modifiers.isEmpty
  if select.distinct.isSome || select.top.isSome || select.into.isSome
      || !select.lateralViews.isEmpty || select.prewhere.isSome || hasGroupBy
      || !select.clusterBy.isEmpty || !select.distributeBy.isEmpty || !select.sortBy.isEmpty
      || select.having.isSome || !select.namedWindow.isEmpty || select.qualify.isSome
      || select.connectBy.isSome then
    .error (unsupportedFeature "SELECT clause")
  else .ok ()

def parseProjectionItem (collection : String) (schema : SchemaProfile) :
    SelectItem → Result ProjectedField
  | .unnamedExpr expression => do
      let path ← resolveExpressionField expression collection schema
      .ok { path, columnAlias := none }
  | .exprWithAlias expr columnAlias => do
      let path ← resolveExpressionField expr collection schema
      .ok { path, columnAlias := some columnAlias.value }
  | .wildcard _ | .qualifiedWildcard _ _ =>
      .error (unsupportedFeature "mixed or qualified wildcard projection")

def parseProjection (projection : List SelectItem) (collection : String) (schema : SchemaProfile) :
    Result Projection :=
  match projection with
  | [.wildcard _] => .ok .all
  | items => (collect (parseProjectionItem collection schema) items).map .fields

def parseSelect (query : Query) (collectionName : String) (schema : SchemaProfile) :
    Result StatementPlan :=
  if query.withClause.isSome || query.orderBy.isSome || query.offset.isSome || query.fetch.isSome
      || !query.limitBy.isEmpty || !query.locks.isEmpty || query.forClause.isSome
      || query.settings.isSome || query.formatClause.isSome then
    .error (unsupportedFeature "query modifiers")
  else
    match query.body with
    | .select select => do
        validateSelectShape select
        let collection ← collectionFromSelect select collectionName
        let projection ← parseProjection select.projection collection schema
        let filter ← transpose (parsePredicate collection schema) select.selection
        tryForEach (validateReadPredicate schema) filter.toList
        let limit ← transpose parseLimit query.limit
        .ok (.select { collection, projection, filter, limit })
    | _ => .error (unsupportedFeature "subqueries, VALUES, or set operations")

def parseInsertRow (columns : List FieldPath) (schema : SchemaProfile) (row : List Expr) :
    Result (List SqlValue) :=
  if row.length ≠ columns.length then
    .error (invalidInput "each INSERT VALUES row must match the number of columns")
  else do
    let values ← collect parseValue row
    tryForEach (fun cell => validateWriteValue cell.1 cell.2 schema) (columns.zip values)
    .ok values

def parseInsert (insert : Insert) (collectionName : String) (schema : SchemaProfile) :
    Result StatementPlan := do
  let collection ← collectionFromObjectName insert.tableName collectionName
  if insert.tableAlias.isSome || insert.ignore || insert.overwrite || insert.partitioned.isSome
      || !insert.afterColumns.isEmpty || insert.table || insert.on.isSome
      || insert.returning.isSome || insert.replaceInto || insert.priority.isSome
      || insert.insertAlias.isSome then
    .error (unsupportedFeature "INSERT modifier")
  else if insert.columns = [] then
    .error (invalidInput "INSERT requires an explicit column list")
  else do
    let columns ← collect (fun column => resolveInsertColumn column collection schema) insert.columns
    let source ← okOr insert.source (invalidInput "INSERT requires a VALUES clause")
    if source.withClause.isSome || source.orderBy.isSome || source.limit.isSome
        || source.offset.isSome || source.fetch.isSome || !source.limitBy.isEmpty
        || !source.locks.isEmpty then
      .error (unsupportedFeature "INSERT query modifier")
    else
      match source.body with
      | .values _ rows =>
          if rows = [] then .error (invalidInput "INSERT requires at least one VALUES row")
          else do
            let rows ← collect (parseInsertRow columns schema) rows
            .ok (.insert { collection, columns, rows })
      | _ => .error (unsupportedFeature "INSERT ... SELECT")

def parseAssignment (collection : String) (schema : SchemaProfile) (assignment : Assignment) :
    Result AssignmentPlan :=
  match assignment.target with
  | .columnName target => do
      let path ← resolveField target collection schema
      let value ← parseValue assignment.value
      .ok { path, value }
  | .tuple _ => .error (unsupportedFeature "tuple UPDATE assignment")

def parseUpdate (update : Update) (collectionName : String) (schema : SchemaProfile) :
    Result StatementPlan :=
  if update.fromTable.isSome || update.returning.isSome || update.or.isSome then
    .error (unsupportedFeature "UPDATE modifier")
  else do
    let collection ← collectionFromTableWithJoins update.table collectionName
    if update.assignments.isEmpty then
      .error (invalidInput "UPDATE requires at least one assignment")
    else do
      let assignments ← collect (parseAssignment collection schema) update.assignments
      let expression ← okOr update.selection
        (invalidInput "UPDATE requires a WHERE clause in the MVP")
      let filter ← parsePredicate collection schema expression
      tryForEach (fun assignment : AssignmentPlan =>
        validateWriteValue assignment.path assignment.value schema) assignments
      validateWritePredicate schema filter
      .ok (.update { collection, assignments, filter })

def deleteTables : FromTable → List TableWithJoins
  | .withFromKeyword tables | .withoutKeyword tables => tables

def parseDelete (delete : Delete) (collectionName : String) (schema : SchemaProfile) :
    Result StatementPlan :=
  if !delete.tables.isEmpty || delete.usingTables.isSome || delete.returning.isSome
      || !delete.orderBy.isEmpty || delete.limit.isSome then
    .error (unsupportedFeature "DELETE modifier")
  else
    match deleteTables delete.fromTable with
    | [table] => do
        let collection ← collectionFromTableWithJoins table collectionName
        let expression ← okOr delete.selection
          (invalidInput "DELETE requires a WHERE clause in the MVP")
        let filter ← parsePredicate collection schema expression
        validateWritePredicate schema filter
        .ok (.delete { collection, filter })
    | _ => .error (unsupportedFeature "multi-table DELETE")

def lowerStatement (statement : Statement) (collectionName : String) (schema : SchemaProfile) :
    Result StatementPlan :=
  match statement with
  | .query query => parseSelect query collectionName schema
  | .insert insert => parseInsert insert collectionName schema
  | .update update => parseUpdate update collectionName schema
  | .delete delete => parseDelete delete collectionName schema
  | .other _ => .error (unsupportedFeature "statement type")

def collectionNameFromQuery (query : Query) : Result String :=
  match query.body with
  | .select select =>
      match select.fromTables with
      | [table] => collectionNameFromTableWithJoins table
      | _ => .error (unsupportedFeature "queries without exactly one FROM table")
  | _ => .error (unsupportedFeature "subqueries, VALUES, or set operations")

def collectionNameFromStatement : Statement → Result String
  | .query query => collectionNameFromQuery query
  | .insert insert => collectionNameFromObjectName insert.tableName
  | .update update => collectionNameFromTableWithJoins update.table
  | .delete delete =>
      match deleteTables delete.fromTable with
      | [table] => collectionNameFromTableWithJoins table
      | _ => .error (unsupportedFeature "multi-table DELETE")
  | .other _ => .error (unsupportedFeature "statement type")

/-- The profiles of the configured collections, by collection name. -/
abbrev CollectionProfiles := Std.TreeMap String SchemaProfile

/-- The SQL parser: the statements of a text, or the parser's error message. -/
abbrev Parser := String → Except String (List Statement)

def parseOneStatement (parser : Parser) (sql : String) : Result Statement :=
  match parser sql with
  | .error message => .error ⟨.invalidSyntax, message⟩
  | .ok [statement] => .ok statement
  | .ok _ => .error (invalidInput "exactly one SQL statement is required")

/-- Lowers one statement over the profile of the table it names. -/
def parseSqlForProfiles (parser : Parser) (sql : String) (profiles : CollectionProfiles) :
    Result StatementPlan := do
  let statement ← parseOneStatement parser sql
  let collectionName ← collectionNameFromStatement statement
  let schema ← okOr profiles[collectionName]? (invalidInput
    s!"collection '{collectionName}' is not in the configured collection allowlist")
  lowerStatement statement collectionName schema

/-! ## When lowering succeeds -/

theorem activeCollection_eq_ok_iff {collection expected found : String} :
    activeCollection collection expected = .ok found ↔ collection = expected ∧ found = expected := by
  rw [activeCollection, ite_error_eq_ok_iff, not_not]
  constructor
  · rintro ⟨same, found⟩
    cases found
    exact ⟨same, same⟩
  · rintro ⟨rfl, rfl⟩
    exact ⟨rfl, rfl⟩

theorem collectionFromTableWithJoins_eq_ok_iff {table : TableWithJoins} {expected found : String} :
    collectionFromTableWithJoins table expected = .ok found ↔
      collectionNameFromTableWithJoins table = .ok expected ∧ found = expected := by
  rw [collectionFromTableWithJoins, bind_eq_ok_iff]
  simp only [activeCollection_eq_ok_iff, ← and_assoc, exists_and_right, exists_eq_right]

theorem collectionFromSelect_eq_ok_iff {select : Select} {expected found : String} :
    collectionFromSelect select expected = .ok found ↔
      (∃ table, select.fromTables = [table] ∧
        collectionNameFromTableWithJoins table = .ok expected) ∧ found = expected := by
  unfold collectionFromSelect
  split
  · rename_i table single
    simp [single, collectionFromTableWithJoins_eq_ok_iff]
  · rename_i several
    constructor
    · intro refused
      cases refused
    · rintro ⟨⟨table, single, _⟩, _⟩
      exact absurd single (several table)

/-- The clauses that `parseSelect` refuses around a `SELECT`. -/
def Ast.Query.hasModifiers (query : Query) : Bool :=
  query.withClause.isSome || query.orderBy.isSome || query.offset.isSome || query.fetch.isSome
    || !query.limitBy.isEmpty || !query.locks.isEmpty || query.forClause.isSome
    || query.settings.isSome || query.formatClause.isSome

theorem parseSelect_eq_ok_iff {query : Query} {collection : String} {schema : SchemaProfile}
    {plan : StatementPlan} :
    parseSelect query collection schema = .ok plan ↔
      query.hasModifiers = false ∧ ∃ select, query.body = .select select ∧
        validateSelectShape select = .ok () ∧
        (∃ table, select.fromTables = [table] ∧
          collectionNameFromTableWithJoins table = .ok collection) ∧
        ∃ projection filter limit,
          parseProjection select.projection collection schema = .ok projection ∧
          transpose (parsePredicate collection schema) select.selection = .ok filter ∧
          tryForEach (validateReadPredicate schema) filter.toList = .ok () ∧
          transpose parseLimit query.limit = .ok limit ∧
          plan = .select { collection, projection, filter, limit } := by
  unfold parseSelect
  rw [ite_error_eq_ok_iff]
  apply and_congr (iff_of_eq (Bool.not_eq_true _))
  split
  · rename_i select body
    simp only [body, SetExpr.select.injEq, exists_eq_left', bind_eq_ok_iff,
      collectionFromSelect_eq_ok_iff, Except.ok.injEq, @eq_comm _ plan]
    constructor
    · rintro ⟨⟨⟩, shape, found, ⟨named, rfl⟩, projection, projected, filter, filtered, ⟨⟩,
        validated, limit, limited, same⟩
      exact ⟨shape, named, projection, filter, limit, projected, filtered, validated, limited, same⟩
    · rintro ⟨shape, named, projection, filter, limit, projected, filtered, validated, limited,
        same⟩
      exact ⟨(), shape, _, ⟨named, rfl⟩, projection, projected, filter, filtered, (), validated,
        limit, limited, same⟩
  · rename_i otherwise
    constructor
    · intro refused
      cases refused
    · rintro ⟨select, body, _⟩
      exact absurd body (otherwise select)

theorem parseInsertRow_eq_ok_iff {columns : List FieldPath} {schema : SchemaProfile}
    {row : List Expr} {values : List SqlValue} :
    parseInsertRow columns schema row = .ok values ↔
      row.length = columns.length ∧ collect parseValue row = .ok values ∧
        ∀ cell ∈ columns.zip values, validateWriteValue cell.1 cell.2 schema = .ok () := by
  rw [parseInsertRow, ite_error_eq_ok_iff, not_not, ← tryForEach_eq_ok_iff]
  apply and_congr_right
  intro _
  simp only [bind_eq_ok_iff]
  constructor
  · rintro ⟨found, parsed, ⟨⟩, validated, same⟩
    cases same
    exact ⟨parsed, validated⟩
  · rintro ⟨parsed, validated⟩
    exact ⟨values, parsed, (), validated, rfl⟩

/-- The clauses that `parseInsert` refuses. -/
def Ast.Insert.hasModifiers (insert : Insert) : Bool :=
  insert.tableAlias.isSome || insert.ignore || insert.overwrite || insert.partitioned.isSome
    || !insert.afterColumns.isEmpty || insert.table || insert.on.isSome
    || insert.returning.isSome || insert.replaceInto || insert.priority.isSome
    || insert.insertAlias.isSome

/-- The clauses that `parseInsert` refuses around the rows. -/
def Ast.Query.hasSourceModifiers (source : Query) : Bool :=
  source.withClause.isSome || source.orderBy.isSome || source.limit.isSome
    || source.offset.isSome || source.fetch.isSome || !source.limitBy.isEmpty
    || !source.locks.isEmpty

theorem parseInsert_eq_ok_iff {insert : Insert} {collection : String} {schema : SchemaProfile}
    {plan : StatementPlan} :
    parseInsert insert collection schema = .ok plan ↔
      collectionNameFromObjectName insert.tableName = .ok collection ∧
        insert.hasModifiers = false ∧ insert.columns ≠ [] ∧
        ∃ columns source explicitRow expressions rows,
          collect (fun column => resolveInsertColumn column collection schema) insert.columns =
            .ok columns ∧
          insert.source = some source ∧ source.hasSourceModifiers = false ∧
          source.body = .values explicitRow expressions ∧ expressions ≠ [] ∧
          collect (parseInsertRow columns schema) expressions = .ok rows ∧
          plan = .insert { collection, columns, rows } := by
  constructor
  · intro lowered
    obtain ⟨found, active, continued⟩ := bind_eq_ok_iff.mp lowered
    obtain ⟨name, named, checked⟩ := bind_eq_ok_iff.mp active
    obtain ⟨rfl, rfl⟩ := activeCollection_eq_ok_iff.mp checked
    rw [ite_error_eq_ok_iff, ite_error_eq_ok_iff] at continued
    obtain ⟨noModifiers, someColumns, continued⟩ := continued
    obtain ⟨columns, resolved, continued⟩ := bind_eq_ok_iff.mp continued
    obtain ⟨source, given, continued⟩ := bind_eq_ok_iff.mp continued
    rw [ite_error_eq_ok_iff] at continued
    obtain ⟨noClauses, continued⟩ := continued
    split at continued
    · rename_i explicitRow expressions body
      rw [ite_error_eq_ok_iff] at continued
      obtain ⟨someRows, continued⟩ := continued
      obtain ⟨rows, parsed, same⟩ := bind_eq_ok_iff.mp continued
      cases same
      exact ⟨named, Bool.eq_false_of_not_eq_true noModifiers, someColumns, columns, source,
        explicitRow, expressions, rows, resolved, okOr_eq_ok_iff.mp given,
        Bool.eq_false_of_not_eq_true noClauses, body, someRows, parsed, rfl⟩
    · cases continued
  · rintro ⟨named, noModifiers, someColumns, columns, source, explicitRow, expressions, rows,
      resolved, given, noClauses, body, someRows, parsed, rfl⟩
    have active : collectionFromObjectName insert.tableName collection = .ok collection :=
      bind_eq_ok_iff.mpr ⟨collection, named, activeCollection_eq_ok_iff.mpr ⟨rfl, rfl⟩⟩
    refine bind_eq_ok_iff.mpr ⟨collection, active, ?_⟩
    rw [ite_error_eq_ok_iff, ite_error_eq_ok_iff]
    refine ⟨Bool.not_eq_true _ ▸ noModifiers, someColumns, ?_⟩
    refine bind_eq_ok_iff.mpr ⟨columns, resolved, ?_⟩
    refine bind_eq_ok_iff.mpr ⟨source, okOr_eq_ok_iff.mpr given, ?_⟩
    rw [ite_error_eq_ok_iff, body]
    refine ⟨Bool.not_eq_true _ ▸ noClauses, ?_⟩
    dsimp only
    rw [ite_error_eq_ok_iff]
    exact ⟨someRows, bind_eq_ok_iff.mpr ⟨rows, parsed, rfl⟩⟩

theorem parseUpdate_eq_ok_iff {update : Update} {collection : String} {schema : SchemaProfile}
    {plan : StatementPlan} :
    parseUpdate update collection schema = .ok plan ↔
      (update.fromTable = none ∧ update.returning = none ∧ update.or = none) ∧
        collectionNameFromTableWithJoins update.table = .ok collection ∧
        update.assignments ≠ [] ∧
        ∃ assignments expression filter,
          collect (parseAssignment collection schema) update.assignments = .ok assignments ∧
          update.selection = some expression ∧
          parsePredicate collection schema expression = .ok filter ∧
          tryForEach (fun assignment : AssignmentPlan =>
            validateWriteValue assignment.path assignment.value schema) assignments = .ok () ∧
          validateWritePredicate schema filter = .ok () ∧
          plan = .update { collection, assignments, filter } := by
  unfold parseUpdate
  simp only [ite_error_eq_ok_iff, bind_eq_ok_iff, collectionFromTableWithJoins_eq_ok_iff,
    okOr_eq_ok_iff, Except.ok.injEq, @eq_comm _ plan, Bool.or_eq_true, not_or,
    Option.not_isSome_iff_eq_none, and_assoc, List.isEmpty_iff]
  constructor
  · rintro ⟨noFrom, noReturning, noConflict, _, named, rfl, someAssignments, assignments, parsed,
      expression, given, filter, filtered, ⟨⟩, assigned, ⟨⟩, compared, same⟩
    exact ⟨noFrom, noReturning, noConflict, named, someAssignments, assignments, expression, filter,
      parsed, given, filtered, assigned, compared, same⟩
  · rintro ⟨noFrom, noReturning, noConflict, named, someAssignments, assignments, expression,
      filter, parsed, given, filtered, assigned, compared, same⟩
    exact ⟨noFrom, noReturning, noConflict, _, named, rfl, someAssignments, assignments, parsed,
      expression, given, filter, filtered, (), assigned, (), compared, same⟩

theorem parseDelete_eq_ok_iff {delete : Delete} {collection : String} {schema : SchemaProfile}
    {plan : StatementPlan} :
    parseDelete delete collection schema = .ok plan ↔
      (delete.tables = [] ∧ delete.usingTables = none ∧ delete.returning = none ∧
        delete.orderBy = [] ∧ delete.limit = none) ∧
        (∃ table, deleteTables delete.fromTable = [table] ∧
          collectionNameFromTableWithJoins table = .ok collection) ∧
        ∃ expression filter,
          delete.selection = some expression ∧
          parsePredicate collection schema expression = .ok filter ∧
          validateWritePredicate schema filter = .ok () ∧
          plan = .delete { collection, filter } := by
  unfold parseDelete
  rw [ite_error_eq_ok_iff]
  apply and_congr
  · simp [and_assoc]
  · split
    · rename_i table single
      simp only [bind_eq_ok_iff, collectionFromTableWithJoins_eq_ok_iff, okOr_eq_ok_iff,
        Except.ok.injEq, @eq_comm _ plan, single, List.cons.injEq, and_true, exists_eq_left']
      constructor
      · rintro ⟨_, ⟨named, rfl⟩, expression, given, filter, filtered, ⟨⟩, compared, same⟩
        exact ⟨named, expression, filter, given, filtered, compared, same⟩
      · rintro ⟨named, expression, filter, given, filtered, compared, same⟩
        exact ⟨_, ⟨named, rfl⟩, expression, given, filter, filtered, (), compared, same⟩
    · rename_i several
      constructor
      · intro refused
        cases refused
      · rintro ⟨⟨table, single, _⟩, _⟩
        exact absurd single (several table)

theorem parseOneStatement_eq_ok_iff {parser : Parser} {sql : String} {statement : Statement} :
    parseOneStatement parser sql = .ok statement ↔ parser sql = .ok [statement] := by
  unfold parseOneStatement
  cases parser sql with
  | error message => simp
  | ok statements =>
      rcases statements with _ | ⟨first, _ | ⟨second, others⟩⟩ <;> simp

/-! ## What lowering guarantees -/

namespace StatementPlan

def filter? : StatementPlan → Option Predicate
  | .select plan => plan.filter
  | .insert _ => none
  | .update plan => some plan.filter
  | .delete plan => some plan.filter

def conditions (plan : StatementPlan) : List Condition :=
  match plan.filter? with
  | none => []
  | some predicate => predicate.conditions

def targets : StatementPlan → List FieldPath
  | .select _ | .delete _ => []
  | .insert plan => plan.columns
  | .update plan => plan.assignments.map AssignmentPlan.path

/-- A write plan has targets and rows of their width. -/
def Shaped : StatementPlan → Prop
  | .select _ | .delete _ => True
  | .insert plan => plan.columns ≠ [] ∧ plan.rows ≠ [] ∧
      ∀ row ∈ plan.rows, row.length = plan.columns.length
  | .update plan => plan.assignments ≠ []

/-- What lowering over a profile establishes for every plan. -/
structure Conforms (schema : SchemaProfile) (plan : StatementPlan) : Prop where
  targets_listed : ∀ path ∈ plan.targets, (schema.field path).isSome
  conditions_listed : ∀ condition ∈ plan.conditions, (schema.field condition.path).isSome
  assigned_valid : ∀ cell ∈ plan.assigned, validateWriteValue cell.1 cell.2 schema = .ok ()
  shaped : plan.Shaped

end StatementPlan

theorem parseSelect_conforms {query : Query} {collectionName : String} {schema : SchemaProfile}
    {plan : StatementPlan} (lowered : parseSelect query collectionName schema = .ok plan) :
    plan.Conforms schema := by
  obtain ⟨_, select, _, _, _, projection, filter, limit, _, filtered, _, _, rfl⟩ :=
    parseSelect_eq_ok_iff.mp lowered
  refine ⟨by simp [StatementPlan.targets], ?_, by simp [StatementPlan.assigned], trivial⟩
  intro condition membership
  rcases transpose_eq_ok_iff.mp filtered with ⟨_, rfl⟩ | ⟨expression, predicate, _, found, rfl⟩
  · simp [StatementPlan.conditions, StatementPlan.filter?] at membership
  · exact parsePredicate_listed found condition membership

theorem parseInsert_conforms {insert : Insert} {collectionName : String} {schema : SchemaProfile}
    {plan : StatementPlan} (lowered : parseInsert insert collectionName schema = .ok plan) :
    plan.Conforms schema := by
  obtain ⟨_, _, someColumns, columns, source, _, expressions, rows, resolved, _, _, _, someRows,
    parsed, rfl⟩ := parseInsert_eq_ok_iff.mp lowered
  have eachRow : ∀ row ∈ rows, row.length = columns.length ∧
      ∀ cell ∈ columns.zip row, validateWriteValue cell.1 cell.2 schema = .ok () := by
    intro row membership
    obtain ⟨expressions, _, parsedRow⟩ := exists_of_mem_collect parsed membership
    obtain ⟨width, collected, valid⟩ := parseInsertRow_eq_ok_iff.mp parsedRow
    exact ⟨(length_of_collect collected).trans width, valid⟩
  constructor
  · intro path membership
    obtain ⟨column, _, found⟩ := exists_of_mem_collect resolved membership
    exact resolveInsertColumn_listed found
  · simp [StatementPlan.conditions, StatementPlan.filter?]
  · intro cell membership
    obtain ⟨row, rowMembership, cellMembership⟩ := List.mem_flatMap.mp membership
    exact (eachRow row rowMembership).2 cell cellMembership
  · refine ⟨?_, ?_, fun row membership => (eachRow row membership).1⟩
    · rwa [Ne, ← List.length_eq_zero_iff, length_of_collect resolved, List.length_eq_zero_iff]
    · rwa [Ne, ← List.length_eq_zero_iff, length_of_collect parsed, List.length_eq_zero_iff]

theorem parseAssignment_listed {collection : String} {schema : SchemaProfile}
    {assignment : Assignment} {plan : AssignmentPlan}
    (parsed : parseAssignment collection schema assignment = .ok plan) :
    (schema.field plan.path).isSome := by
  unfold parseAssignment at parsed
  split at parsed
  · simp only [bind_eq_ok_iff] at parsed
    obtain ⟨path, resolved, value, _, same⟩ := parsed
    cases same
    exact resolveField_listed resolved
  · cases parsed

theorem parseUpdate_conforms {update : Update} {collectionName : String} {schema : SchemaProfile}
    {plan : StatementPlan} (lowered : parseUpdate update collectionName schema = .ok plan) :
    plan.Conforms schema := by
  obtain ⟨_, _, someAssignments, assignments, expression, filter, parsed, _, filtered, assigned, _,
    rfl⟩ := parseUpdate_eq_ok_iff.mp lowered
  constructor
  · intro path membership
    obtain ⟨plan, planMembership, rfl⟩ := List.mem_map.mp membership
    obtain ⟨assignment, _, parsedAssignment⟩ := exists_of_mem_collect parsed planMembership
    exact parseAssignment_listed parsedAssignment
  · exact parsePredicate_listed filtered
  · intro cell membership
    obtain ⟨plan, planMembership, rfl⟩ := List.mem_map.mp membership
    exact tryForEach_eq_ok_iff.mp assigned plan planMembership
  · change assignments ≠ []
    rwa [Ne, ← List.length_eq_zero_iff, length_of_collect parsed, List.length_eq_zero_iff]

theorem parseDelete_conforms {delete : Delete} {collectionName : String} {schema : SchemaProfile}
    {plan : StatementPlan} (lowered : parseDelete delete collectionName schema = .ok plan) :
    plan.Conforms schema := by
  obtain ⟨_, _, expression, filter, _, filtered, _, rfl⟩ := parseDelete_eq_ok_iff.mp lowered
  refine ⟨by simp [StatementPlan.targets], ?_, by simp [StatementPlan.assigned], trivial⟩
  exact parsePredicate_listed filtered

/-- Every lowered plan conforms to the profile it was lowered over. -/
theorem lowerStatement_conforms {statement : Statement} {collectionName : String}
    {schema : SchemaProfile} {plan : StatementPlan}
    (lowered : lowerStatement statement collectionName schema = .ok plan) :
    plan.Conforms schema := by
  cases statement with
  | query query => exact parseSelect_conforms lowered
  | insert insert => exact parseInsert_conforms lowered
  | update update => exact parseUpdate_conforms lowered
  | delete delete => exact parseDelete_conforms lowered
  | other text => cases lowered

end Mongres
