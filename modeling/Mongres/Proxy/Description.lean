import Mongres.Proxy.Backend

/-!
# Row descriptions

A statement is described before it is bound, and its rows are built from two lists
that are filtered apart.  Description, fields and cells agree.
-/

namespace Mongres

open Fallible

/-- The field of a column that stands for one path, with that path. -/
def ColumnMetadata.derived? (column : ColumnMetadata) : Option (FieldPath × WireField) :=
  match column.sourcePaths with
  | [path] => some (path, ⟨column.columnName, column.sqlType⟩)
  | _ => none

/-- The paths that a `SELECT` reads, each with the field that is derived from it, in the order of
the cells of a row. -/
def derivedFields (catalog : CollectionCatalog) : Projection → List (FieldPath × WireField)
  | .all => catalog.columns.filterMap ColumnMetadata.derived?
  | .fields projected => projected.map fun field =>
      let column := catalog.columns.find? fun column => column.columnName = field.path.displayName
      (field.path, ⟨field.columnAlias.getD field.path.displayName,
        (column.map ColumnMetadata.sqlType).getD .jsonb⟩)

def derivedRows (bsonText : BsonText) (catalog : CollectionCatalog) (projection : Projection)
    (documents : List Document) : List (List WireValue) :=
  documents.map fun document => (derivedFields catalog projection).map fun (path, field) =>
    valueFromDocument bsonText document path.segments field.sqlType

/-- The documents that the driver finds when it is sent the documents of a plan. -/
def Driver.Finds (driver : Driver) (plan : SelectPlan) (documents : List Document) : Prop :=
  ∃ filter projection limit, filterDocument plan.filter = .ok filter ∧
    projectionDocument plan.projection = .ok projection ∧
    transpose selectLimit plan.limit = .ok limit ∧
    driver.find plan.collection filter projection limit = .ok documents

namespace ProxyBackend

theorem unambiguous_cons (column : ColumnMetadata) (columns : List ColumnMetadata) :
    (∃ path, column.sourcePaths = [path] ∧
        column.derived? = some (path, ⟨column.columnName, column.sqlType⟩) ∧
        ((column :: columns).filter fun column => column.sourcePaths.length = 1) =
          column :: columns.filter fun column => column.sourcePaths.length = 1) ∨
      column.derived? = none ∧
        ((column :: columns).filter fun column => column.sourcePaths.length = 1) =
          columns.filter fun column => column.sourcePaths.length = 1 := by
  unfold ColumnMetadata.derived?
  split
  · rename_i path single
    refine .inl ⟨path, single, rfl, List.filter_cons_of_pos ?_⟩
    simp [single]
  · rename_i several
    refine .inr ⟨rfl, List.filter_cons_of_neg ?_⟩
    intro single
    obtain ⟨path, paths⟩ := List.length_eq_one_iff.mp (of_decide_eq_true single)
    exact several path paths

theorem selectFields_eq (plan : SelectPlan) (catalog : CollectionCatalog) :
    selectFields plan catalog = (derivedFields catalog plan.projection).map Prod.snd := by
  obtain ⟨collection, projection, filter, limit⟩ := plan
  cases projection with
  | all =>
      obtain ⟨table, columns⟩ := catalog
      change (columns.filter _).map _ = (columns.filterMap _).map _
      induction columns with
      | nil => rfl
      | cons column columns inductionHypothesis =>
          rcases unambiguous_cons column columns with ⟨path, _, derived, kept⟩ | ⟨derived, kept⟩
          · rw [kept, List.filterMap_cons_some derived, List.map_cons, List.map_cons,
              inductionHypothesis]
          · rw [kept, List.filterMap_cons_none derived, inductionHypothesis]
  | fields projected =>
      change projected.map _ = (projected.map _).map _
      rw [List.map_map]
      rfl

theorem selectedPaths_eq (plan : SelectPlan) (catalog : CollectionCatalog) :
    selectedPaths plan catalog =
      (derivedFields catalog plan.projection).map fun derived => derived.1.segments := by
  obtain ⟨collection, projection, filter, limit⟩ := plan
  cases projection with
  | all =>
      obtain ⟨table, columns⟩ := catalog
      change (columns.filter _).flatMap _ = (columns.filterMap _).map _
      induction columns with
      | nil => rfl
      | cons column columns inductionHypothesis =>
          rcases unambiguous_cons column columns with
            ⟨path, single, derived, kept⟩ | ⟨derived, kept⟩
          · rw [kept, List.filterMap_cons_some derived, List.flatMap_cons, List.map_cons,
              inductionHypothesis, single]
            rfl
          · rw [kept, List.filterMap_cons_none derived, inductionHypothesis]
  | fields projected =>
      change projected.map _ = (projected.map _).map _
      rw [List.map_map]
      rfl

theorem length_of_mem_derivedRows {bsonText : BsonText} {catalog : CollectionCatalog}
    {projection : Projection} {documents : List Document} {row : List WireValue}
    (membership : row ∈ derivedRows bsonText catalog projection documents) :
    row.length = ((derivedFields catalog projection).map Prod.snd).length := by
  obtain ⟨document, _, rfl⟩ := List.mem_map.mp membership
  rw [List.length_map, List.length_map]

/-- The answer of a `SELECT` that has read some documents. -/
def selected (bsonText : BsonText) (plan : SelectPlan) (catalog : CollectionCatalog)
    (documents : List Document) : ExecutionResult :=
  .query ((derivedFields catalog plan.projection).map Prod.snd)
    (derivedRows bsonText catalog plan.projection documents)

variable (backend : ProxyBackend) (services : Services)

/-- The paths and the fields of a `SELECT` stay in step. -/
theorem executeSelect_of_catalog {plan : SelectPlan} {catalog : CollectionCatalog}
    (found : backend.catalogForCollection plan.collection = .ok catalog) (state : BackendState) :
    (backend.executeSelect services plan state).1 =
        (Mongres.executeSelect services.driver plan state.calls).1.map
          (selected services.bsonText plan catalog) ∧
      (backend.executeSelect services plan state).2 =
        { state with calls := (Mongres.executeSelect services.driver plan state.calls).2 } := by
  unfold executeSelect
  rw [found]
  refine ⟨?_, rfl⟩
  dsimp only
  congr 1
  funext documents
  rw [selected, selectedPaths_eq, selectFields_eq, List.zip_map', derivedRows]
  simp only [List.map_map, Function.comp_def]

theorem executeSelect_eq_ok {plan : SelectPlan} {state : BackendState} {result : ExecutionResult}
    (executed : (backend.executeSelect services plan state).1 = .ok result) :
    ∃ catalog documents,
      backend.catalogForCollection plan.collection = .ok catalog ∧
        services.driver.Finds plan documents ∧
        result = selected services.bsonText plan catalog documents := by
  cases found : backend.catalogForCollection plan.collection with
  | error error =>
      unfold executeSelect at executed
      rw [found] at executed
      cases executed
  | ok catalog =>
      rw [(backend.executeSelect_of_catalog services found state).1] at executed
      obtain ⟨documents, read, rfl⟩ := map_eq_ok_iff.mp executed
      exact ⟨catalog, documents, rfl, executeSelect_eq_ok_iff.mp read, rfl⟩

theorem executePlan_eq_ok_query {plan : StatementPlan} {state : BackendState}
    {fields : List WireField} {rows : List (List WireValue)}
    (executed : (backend.executePlan services plan state).1 = .ok (.query fields rows)) :
    ∃ select catalog documents, plan = .select select ∧
      backend.catalogForCollection select.collection = .ok catalog ∧
      services.driver.Finds select documents ∧
      fields = (derivedFields catalog select.projection).map Prod.snd ∧
      rows = derivedRows services.bsonText catalog select.projection documents := by
  cases plan with
  | select plan =>
      obtain ⟨catalog, documents, found, read, same⟩ :=
        backend.executeSelect_eq_ok services executed
      cases same
      exact ⟨plan, catalog, documents, rfl, found, read, rfl, rfl⟩
  | _ =>
      unfold executePlan at executed
      dsimp only at executed
      split at executed
      · cases executed
      · split at executed
        · cases executed
        · split at executed
          · cases executed
          · split at executed <;> cases executed

theorem bindParameters_eq_ok_select {plan : StatementPlan} {parameters : List SqlValue}
    {schema : SchemaProfile} {bound : SelectPlan}
    (binds : bindParameters plan parameters schema = .ok (.select bound)) :
    ∃ select, plan = .select select ∧ bound.collection = select.collection ∧
      bound.projection = select.projection := by
  obtain ⟨_, _, substitutes, _⟩ := bindParameters_eq_ok_iff.mp binds
  cases plan with
  | select plan =>
      obtain ⟨filter, _, same⟩ := bind_eq_ok_iff.mp substitutes
      cases same
      exact ⟨plan, rfl, rfl, rfl⟩
  | insert plan =>
      obtain ⟨rows, _, same⟩ := bind_eq_ok_iff.mp substitutes
      cases same
  | update plan =>
      obtain ⟨assignments, _, substitutes⟩ := bind_eq_ok_iff.mp substitutes
      obtain ⟨filter, _, same⟩ := bind_eq_ok_iff.mp substitutes
      cases same
  | delete plan =>
      obtain ⟨filter, _, same⟩ := bind_eq_ok_iff.mp substitutes
      cases same

theorem length_eq_of_catalogOrSessionQuery {databaseName : String} {catalog : DatabaseCatalog}
    {query : String} {result : ExecutionResult}
    (canned : catalogOrSessionQuery databaseName catalog query = some result) :
    ∃ fields rows, result = .query fields rows ∧ ∀ row ∈ rows, row.length = fields.length := by
  unfold catalogOrSessionQuery at canned
  dsimp only at canned
  split_ifs at canned <;> cases canned <;> refine ⟨_, _, rfl, ?_⟩
  -- Constants have one row, and listings build a row for each table or column.
  all_goals first
    | exact List.forall_mem_singleton.mpr rfl
    | exact List.forall_mem_map.mpr fun _ _ => rfl

theorem describeParsed_select {query : String} {plan : SelectPlan} {catalog : CollectionCatalog}
    (parsed : parseSqlForProfiles services.parser query backend.profiles = .ok (.select plan))
    (found : backend.catalogForCollection plan.collection = .ok catalog) (state : BackendState) :
    (backend.describeParsed services query state).1 = .ok (selectFields plan catalog) := by
  unfold describeParsed withPlan
  rw [parsed]
  dsimp only
  rw [found]
  rfl

/-- A statement that is not intercepted answers with the rows of its plan, which differs from the
lowered one in its filter alone. -/
theorem planned_of_query {statement : ClientStatement} {state : BackendState}
    {fields : List WireField} {rows : List (List WireValue)}
    (ordinary :
      catalogOrSessionQuery backend.databaseName backend.catalog statement.query = none)
    (answered : (backend.handle services statement state).1 = .ok (.query fields rows)) :
    ∃ lowered plan catalog documents,
      parseSqlForProfiles services.parser statement.query backend.profiles =
          .ok (.select lowered) ∧
        plan.collection = lowered.collection ∧ plan.projection = lowered.projection ∧
        backend.Plans services.parser statement (.select plan) ∧
        backend.catalogForCollection plan.collection = .ok catalog ∧
        services.driver.Finds plan documents ∧
        fields = (derivedFields catalog plan.projection).map Prod.snd ∧
        rows = derivedRows services.bsonText catalog plan.projection documents := by
  cases statement with
  | simple query =>
      change (backend.execute services query state).1 = _ at answered
      rw [ClientStatement.query] at ordinary
      unfold execute at answered
      rw [ordinary] at answered
      unfold executeParsed withPlan at answered
      dsimp only at answered
      split at answered
      · cases answered
      · rename_i lowered parsed
        obtain ⟨plan, catalog, documents, rfl, rest⟩ :=
          backend.executePlan_eq_ok_query services answered
        exact ⟨plan, plan, catalog, documents, parsed, rfl, rfl, .simple parsed, rest⟩
  | bound query parameters =>
      change (backend.executeBound services query parameters state).1 = _ at answered
      rw [ClientStatement.query] at ordinary
      unfold executeBound at answered
      rw [ordinary] at answered
      unfold executeBoundParsed withPlan at answered
      dsimp only at answered
      split at answered
      · cases answered
      · rename_i lowered parsed
        split at answered
        · cases answered
        · rename_i schema listed
          split at answered
          · cases answered
          · rename_i bound binds
            obtain ⟨plan, catalog, documents, rfl, rest⟩ :=
              backend.executePlan_eq_ok_query services answered
            obtain ⟨original, rfl, collection, projection⟩ := bindParameters_eq_ok_select binds
            exact ⟨original, plan, catalog, documents, parsed, collection, projection,
              .bound parsed (okOr_eq_ok_iff.mp listed) binds, rest⟩

/-- A query result has the fields of the description, and each of its rows has one cell for each:
the value that a found document holds at the path of the field. -/
theorem describe_of_query {statement : ClientStatement} {state : BackendState}
    {fields : List WireField} {rows : List (List WireValue)}
    (answered : (backend.handle services statement state).1 = .ok (.query fields rows))
    (other : BackendState) :
    (backend.describe services statement.query other).1 = .ok fields ∧
      (∀ row ∈ rows, row.length = fields.length) ∧
      (catalogOrSessionQuery backend.databaseName backend.catalog statement.query =
          some (.query fields rows) ∨
        ∃ plan catalog documents, backend.Plans services.parser statement (.select plan) ∧
          backend.catalogForCollection plan.collection = .ok catalog ∧
          services.driver.Finds plan documents ∧
          fields = (derivedFields catalog plan.projection).map Prod.snd ∧
          rows = derivedRows services.bsonText catalog plan.projection documents) := by
  unfold describe
  cases canned : catalogOrSessionQuery backend.databaseName backend.catalog statement.query with
  | some result =>
      have same : result = .query fields rows := by
        cases statement with
        | simple query =>
            rw [ClientStatement.query] at canned
            change (backend.execute services query state).1 = _ at answered
            unfold execute at answered
            rw [canned] at answered
            exact Except.ok.inj answered
        | bound query parameters =>
            rw [ClientStatement.query] at canned
            change (backend.executeBound services query parameters state).1 = _ at answered
            unfold executeBound at answered
            rw [canned] at answered
            dsimp only at answered
            split_ifs at answered
            exact Except.ok.inj answered
      subst same
      obtain ⟨_, _, same, widths⟩ := length_eq_of_catalogOrSessionQuery canned
      cases same
      exact ⟨rfl, widths, .inl rfl⟩
  | none =>
      obtain ⟨lowered, plan, catalog, documents, parsed, collection, projection, plans, found,
        read, rfl, rfl⟩ := backend.planned_of_query services canned answered
      have described := backend.describeParsed_select services parsed (collection ▸ found) other
      rw [selectFields_eq, ← projection] at described
      exact ⟨described, fun _ => length_of_mem_derivedRows,
        .inr ⟨plan, catalog, documents, plans, found, read, rfl, rfl⟩⟩

end ProxyBackend

section Example

private def peopleNames : SchemaProfile :=
  SchemaProfile.infer [{ fields := [("name", .string "grace"), ("age", .integer 84)] }]

private def peopleProfiles : CollectionProfiles := .ofList [("people", peopleNames)]

private def peopleBackend : ProxyBackend where
  databaseName := "app"
  profiles := peopleProfiles
  catalog := projectPublicCollections peopleProfiles
  resolverMinimumConfidence := 0.5
  projected := rfl
  confidenceBounds := by decide

/-- Every text is parsed as `SELECT age AS x, name AS x, age FROM people`. -/
private def peopleServices : Services where
  parser := fun _ =>
    let age : Ast.Expr := .identifier (.new "age")
    let name : Ast.Expr := .identifier (.new "name")
    .ok [.query (.limited (.select (.fromTable [.exprWithAlias age (.new "x"),
      .exprWithAlias name (.new "x"), .unnamedExpr age] "people" none)) none)]
  driver :=
    { find := fun _ _ _ _ => .ok [[("name", .string "grace"), ("age", .int32 85)]]
      insertOne := fun _ _ => .ok ()
      insertMany := fun _ _ => .ok 0
      updateMany := fun _ _ _ => .ok (0, 0)
      deleteMany := fun _ _ => .ok 0 }
  resolver := fun _ => .error ⟨.dependency, "resolver unavailable"⟩
  bsonText :=
    { display := fun _ => ""
      extendedJson := fun _ => ""
      hex := fun _ => "" }

private def selectTwice : ClientStatement :=
  .simple "SELECT age AS x, name AS x, age FROM people"

/-- Two columns of one name have the cells of their own fields. -/
theorem describe_selectTwice :
    (peopleBackend.describe peopleServices selectTwice.query {}).1 =
        .ok [⟨"x", .bigInt⟩, ⟨"x", .text⟩, ⟨"age", .bigInt⟩] ∧
      ∃ plan catalog documents,
        peopleBackend.Plans peopleServices.parser selectTwice (.select plan) ∧
          peopleServices.driver.Finds plan documents ∧
          [[.integer 85, .text "grace", .integer 85]] =
            derivedRows peopleServices.bsonText catalog plan.projection documents := by
  have answered : (peopleBackend.handle peopleServices selectTwice {}).1 =
      .ok (.query [⟨"x", .bigInt⟩, ⟨"x", .text⟩, ⟨"age", .bigInt⟩]
        [[.integer 85, .text "grace", .integer 85]]) := rfl
  obtain ⟨described, _, canned | ⟨plan, catalog, documents, plans, _, read, _, rows⟩⟩ :=
    peopleBackend.describe_of_query peopleServices answered {}
  · cases canned
  · exact ⟨described, plan, catalog, documents, plans, read, rows⟩

end Example

end Mongres
