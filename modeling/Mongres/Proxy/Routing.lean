import Mongres.Library.Text
import Mongres.Proxy.Wire

/-!
# Interception of catalog and session queries

Some query texts are answered from the catalog before they are parsed.  The test
reads the lower-cased text, and two functions of the proxy repeat it.
-/

namespace Mongres

open Text

/-- The phrases whose presence anywhere in a text intercepts it. -/
def interceptedPhrases : List String :=
  ["current_database()", "current_schema()", "version()", "information_schema.tables",
    "information_schema.columns", "pg_catalog.pg_tables", "pg_catalog.pg_class"]

def normalize (query : String) : String :=
  asciiLowercase (trimEndMatches ';' (trim query))

def isCatalogOrSessionQuery (query : String) : Bool :=
  let normalized := normalize query
  decide (normalized = "select 1")
    || contains normalized "current_database()"
    || contains normalized "current_schema()"
    || contains normalized "version()"
    || startsWith normalized "show server_version"
    || contains normalized "information_schema.tables"
    || contains normalized "information_schema.columns"
    || contains normalized "pg_catalog.pg_tables"
    || contains normalized "pg_catalog.pg_class"

def informationSchemaTables (catalog : DatabaseCatalog) : ExecutionResult :=
  .query
    [⟨"table_schema", .text⟩, ⟨"table_name", .text⟩, ⟨"table_type", .text⟩]
    (catalog.values.map fun table =>
      [.text table.table.schemaName, .text table.table.tableName, .text "BASE TABLE"])

def informationSchemaColumns (catalog : DatabaseCatalog) : ExecutionResult :=
  .query
    [⟨"table_schema", .text⟩, ⟨"table_name", .text⟩, ⟨"column_name", .text⟩,
      ⟨"ordinal_position", .bigInt⟩, ⟨"is_nullable", .text⟩, ⟨"data_type", .text⟩,
      ⟨"udt_name", .text⟩]
    ((catalog.values.flatMap CollectionCatalog.columns).map fun column =>
      [.text column.table.schemaName, .text column.table.tableName, .text column.columnName,
        .integer (Int64.ofNat column.ordinalPosition),
        .text (if column.isNullable then "YES" else "NO"),
        .text column.sqlType.informationSchemaName, .text column.sqlType.udtName])

def pgTables (catalog : DatabaseCatalog) : ExecutionResult :=
  .query
    [⟨"schemaname", .text⟩, ⟨"tablename", .text⟩, ⟨"tableowner", .text⟩, ⟨"tablespace", .text⟩,
      ⟨"hasindexes", .boolean⟩, ⟨"hasrules", .boolean⟩, ⟨"hastriggers", .boolean⟩,
      ⟨"rowsecurity", .boolean⟩]
    (catalog.values.map fun table =>
      [.text table.table.schemaName, .text table.table.tableName, .text "mongo-pg-proxy", .null,
        .boolean false, .boolean false, .boolean false, .boolean false])

def psqlRelationListing (catalog : DatabaseCatalog) : ExecutionResult :=
  .query
    [⟨"Schema", .text⟩, ⟨"Name", .text⟩, ⟨"Type", .text⟩, ⟨"Owner", .text⟩]
    (catalog.values.map fun table =>
      [.text table.table.schemaName, .text table.table.tableName, .text "table",
        .text "mongo-pg-proxy"])

def catalogOrSessionQuery (databaseName : String) (catalog : DatabaseCatalog) (query : String) :
    Option ExecutionResult :=
  let normalized := normalize query
  if normalized = "select 1" then some (.query [⟨"?column?", .bigInt⟩] [[.integer 1]])
  else if contains normalized "current_database()" then
    some (.query [⟨"current_database", .text⟩] [[.text databaseName]])
  else if contains normalized "current_schema()" then
    some (.query [⟨"current_schema", .text⟩] [[.text "public"]])
  else if contains normalized "version()" then
    some (.query [⟨"version", .text⟩] [[.text "PostgreSQL 16.0 (mongo-pg-proxy)"]])
  else if startsWith normalized "show server_version" then
    some (.query [⟨"server_version", .text⟩] [[.text "16.0"]])
  else if contains normalized "information_schema.tables" then some (informationSchemaTables catalog)
  else if contains normalized "information_schema.columns" then
    some (informationSchemaColumns catalog)
  else if contains normalized "pg_catalog.pg_tables" then some (pgTables catalog)
  else if contains normalized "pg_catalog.pg_class" then some (psqlRelationListing catalog)
  else none

/-! ## The two tests agree -/

/-- A text that the interception tests for. -/
def Intercepted (query : String) : Prop :=
  normalize query = "select 1" ∨ startsWith (normalize query) "show server_version" = true ∨
    ∃ phrase ∈ interceptedPhrases, contains (normalize query) phrase = true

theorem ite_some_eq_none_iff {α : Type} {condition : Prop} [Decidable condition] {value : α}
    {rest : Option α} :
    (if condition then some value else rest) = none ↔ ¬ condition ∧ rest = none := by
  by_cases holds : condition <;> simp [holds]

/-- The test of the catalog answers, and what it leaves to the parser. -/
theorem catalogOrSessionQuery_eq_none_iff (databaseName : String) (catalog : DatabaseCatalog)
    (query : String) :
    catalogOrSessionQuery databaseName catalog query = none ↔ ¬ Intercepted query := by
  unfold catalogOrSessionQuery Intercepted
  simp only [ite_some_eq_none_iff, interceptedPhrases, List.mem_cons, List.not_mem_nil, or_false,
    exists_eq_or_imp, exists_eq_left, not_or, and_true]
  constructor
  · rintro ⟨session, database, schema, version, server, tables, columns, pgTables, pgClass⟩
    exact ⟨session, server, database, schema, version, tables, columns, pgTables, pgClass⟩
  · rintro ⟨session, server, database, schema, version, tables, columns, pgTables, pgClass⟩
    exact ⟨session, database, schema, version, server, tables, columns, pgTables, pgClass⟩

theorem isCatalogOrSessionQuery_eq_false_iff (query : String) :
    isCatalogOrSessionQuery query = false ↔ ¬ Intercepted query := by
  unfold isCatalogOrSessionQuery Intercepted
  simp only [interceptedPhrases, List.mem_cons, List.not_mem_nil, or_false, exists_eq_or_imp,
    exists_eq_left, not_or, Bool.or_eq_false_iff, decide_eq_false_iff_not, Bool.not_eq_true,
    and_assoc]
  constructor
  · rintro ⟨session, database, schema, version, server, tables, columns, pgTables, pgClass⟩
    exact ⟨session, server, database, schema, version, tables, columns, pgTables, pgClass⟩
  · rintro ⟨session, server, database, schema, version, tables, columns, pgTables, pgClass⟩
    exact ⟨session, database, schema, version, server, tables, columns, pgTables, pgClass⟩

end Mongres
