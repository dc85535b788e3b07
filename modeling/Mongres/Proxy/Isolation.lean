import Mongres.Proxy.Backend
import Mongres.Sql.Substitution

/-!
# Well-formed plans over one collection

Whatever is lowered stays inside the profile of the one table that its statement
names, and binding keeps it there.
-/

namespace Mongres

open Fallible Ast

/-! ## The table of a statement -/

namespace Ast

/-- An unqualified name. -/
def ObjectName.IsPlain (objectName : ObjectName) (name : String) : Prop :=
  ∃ identifier : Ident, objectName = [identifier] ∧ identifier.value = name

/-- A reference to a table by its unqualified name, without joins. -/
def TableWithJoins.IsNamed (table : TableWithJoins) (name : String) : Prop :=
  table.joins = [] ∧
    match table.relation with
    | .table tableName _ _ _ _ _ _ _ => ObjectName.IsPlain tableName name
    | .other _ => False

/-- A statement whose only table is the named one. -/
def Statement.IsOver (name : String) : Statement → Prop
  | .query selected => ∃ select table,
      selected.body = .select select ∧ select.fromTables = [table] ∧ table.IsNamed name
  | .insert inserted => ObjectName.IsPlain inserted.tableName name
  | .update updated => updated.table.IsNamed name ∧ updated.fromTable = none
  | .delete deleted => ∃ table,
      deleteTables deleted.fromTable = [table] ∧ table.IsNamed name ∧ deleted.tables = [] ∧
        deleted.usingTables = none
  | .other _ => False

end Ast

theorem isPlain_of_collectionName {objectName : ObjectName} {name : String}
    (named : collectionNameFromObjectName objectName = .ok name) :
    ObjectName.IsPlain objectName name := by
  match objectName, named with
  | [identifier], named =>
      cases named
      exact ⟨identifier, rfl, rfl⟩

theorem isNamed_of_collectionName {table : TableWithJoins} {name : String}
    (named : collectionNameFromTableWithJoins table = .ok name) : table.IsNamed name := by
  unfold collectionNameFromTableWithJoins at named
  rw [ite_error_eq_ok_iff, not_not] at named
  obtain ⟨single, named⟩ := named
  refine ⟨single, ?_⟩
  cases relation : table.relation with
  | other text =>
      rw [relation] at named
      cases named
  | table tableName tableAlias args withHints version withOrdinality partitions jsonPath =>
      rw [relation] at named
      dsimp only at named
      rw [ite_error_eq_ok_iff] at named
      exact isPlain_of_collectionName named.2

theorem isOver_of_lowerStatement {statement : Statement} {collection : String}
    {schema : SchemaProfile} {plan : StatementPlan}
    (lowered : lowerStatement statement collection schema = .ok plan) :
    statement.IsOver collection ∧ collectionFromPlan plan = collection := by
  cases statement with
  | other text => cases lowered
  | query query =>
      obtain ⟨_, select, body, _, ⟨table, single, named⟩, _, _, _, _, _, _, _, rfl⟩ :=
        parseSelect_eq_ok_iff.mp lowered
      exact ⟨⟨select, table, body, single, isNamed_of_collectionName named⟩, rfl⟩
  | insert insert =>
      obtain ⟨named, _, _, _, _, _, _, _, _, _, _, _, _, _, rfl⟩ :=
        parseInsert_eq_ok_iff.mp lowered
      exact ⟨isPlain_of_collectionName named, rfl⟩
  | update update =>
      obtain ⟨⟨noFrom, _⟩, named, _, _, _, _, _, _, _, _, _, rfl⟩ :=
        parseUpdate_eq_ok_iff.mp lowered
      exact ⟨⟨isNamed_of_collectionName named, noFrom⟩, rfl⟩
  | delete delete =>
      obtain ⟨⟨noTables, noUsing, _⟩, ⟨table, single, named⟩, _, _, _, _, _, rfl⟩ :=
        parseDelete_eq_ok_iff.mp lowered
      exact ⟨⟨table, single, isNamed_of_collectionName named, noTables, noUsing⟩, rfl⟩

/-! ## Well-formed plans -/

mutual

/-- Every conjunction and disjunction has a part. -/
def Predicate.Populated : Predicate → Prop
  | .compare _ _ _ | .inList _ _ _ | .isNull _ _ => True
  | .and predicates | .or predicates => predicates ≠ [] ∧ Predicate.AllPopulated predicates

def Predicate.AllPopulated : List Predicate → Prop
  | [] => True
  | predicate :: predicates => predicate.Populated ∧ Predicate.AllPopulated predicates

end

/-- One type besides null, one shape and a display name of its own. -/
def FieldProfile.ClearlyTyped (field : FieldProfile) (observedType : ObservedType) : Prop :=
  field.hasDottedKeyCollision = false ∧ field.observedShapes.card = 1 ∧
    field.observedTypes.erase .null = {observedType}

/-- A placeholder, or a value of the clear type of its field, if the field has one. -/
def SqlValue.FitsField (schema : SchemaProfile) (path : FieldPath) (value : SqlValue) : Prop :=
  value.isPlaceholder = true ∨ ∀ field observedType, schema.field path = some field →
    field.ClearlyTyped observedType → value.scalarType = some observedType

namespace StatementPlan

def projected : StatementPlan → List FieldPath
  | .select plan => plan.projection.paths
  | .insert _ | .update _ | .delete _ => []

def limit? : StatementPlan → Option UInt64
  | .select plan => plan.limit
  | .insert _ | .update _ | .delete _ => none

def needsFilter : StatementPlan → Bool
  | .select _ | .insert _ => false
  | .update _ | .delete _ => true

/-- What the executor and the gate rely on. -/
structure WellFormed (schema : SchemaProfile) (plan : StatementPlan) : Prop where
  projected_listed : ∀ path ∈ plan.projected, (schema.field path).isSome
  targets_listed : ∀ path ∈ plan.targets, (schema.field path).isSome
  conditions_listed : ∀ condition ∈ plan.conditions, (schema.field condition.path).isSome
  shaped : plan.Shaped
  filtered : plan.needsFilter = true → plan.filter?.isSome
  populated : ∀ filter ∈ plan.filter?, filter.Populated
  compared_fit : ∀ cell ∈ plan.compared, cell.2 ≠ .null ∧ cell.2.FitsField schema cell.1
  assigned_fit : ∀ cell ∈ plan.assigned, cell.2 = .null ∨ cell.2.FitsField schema cell.1
  limit_bounded : ∀ limit ∈ plan.limit?, limit.toNat ≤ 2 ^ 63 - 1

end StatementPlan

theorem StatementPlan.isSome_filter? (plan : StatementPlan) :
    plan.needsFilter = true → plan.filter?.isSome := by
  intro needs
  cases plan with
  | select plan => cases needs
  | insert plan => cases needs
  | update plan => rfl
  | delete plan => rfl

/-! ## Validated values fit -/

theorem ObservedType.nonNull_eq_singleton {observedTypes : Finset ObservedType}
    {observedType : ObservedType} (one : observedTypes.erase .null = {observedType}) :
    ObservedType.nonNull observedTypes = [observedType] := by
  have members : ∀ other, other ∈ ObservedType.nonNull observedTypes ↔ other = observedType := by
    intro other
    rw [mem_nonNull_iff, ← Finset.mem_singleton, ← one, Finset.mem_erase, and_comm]
  apply List.perm_singleton.mp
  rw [List.perm_ext_iff_of_nodup (nodup_nonNull observedTypes) (List.nodup_singleton _)]
  simpa using members

theorem SqlValue.fitsField_of_validateValue {schema : SchemaProfile} {path : FieldPath}
    {value : SqlValue} {nullIsAllowed : Bool}
    (valid : validateValue path value schema nullIsAllowed = .ok ()) :
    (value = .null ∧ nullIsAllowed = true) ∨ (value ≠ .null ∧ value.FitsField schema path) := by
  have literal : ∀ observedType, value.scalarType = some observedType →
      value.FitsField schema path := by
    intro observedType typed
    refine .inr fun field clearType found clear => ?_
    obtain ⟨distinct, oneShape, oneType⟩ := clear
    have single := ObservedType.nonNull_eq_singleton oneType
    have shape : validateFieldShape path schema = .ok (some clearType) :=
      validateFieldShape_eq_ok_iff.mpr ⟨field, found, by simp [single, distinct, oneShape]⟩
    obtain ⟨_, shaped, same⟩ := (validateValue_eq_ok_iff typed).mp valid
    rw [shape] at shaped
    cases shaped
    rw [typed, same clearType rfl]
  cases value with
  | null =>
      rw [validateValue, ite_eq_left_iff] at valid
      cases nullIsAllowed with
      | true => exact .inl ⟨rfl, rfl⟩
      | false => cases valid (by decide)
  | placeholder name => exact .inr ⟨by simp, .inl rfl⟩
  | boolean value => exact .inr ⟨by simp, literal _ rfl⟩
  | integer value => exact .inr ⟨by simp, literal _ rfl⟩
  | floatingPoint value => exact .inr ⟨by simp, literal _ rfl⟩
  | string value => exact .inr ⟨by simp, literal _ rfl⟩

theorem StatementPlan.fit_of_validated {schema : SchemaProfile} {plan : StatementPlan}
    (listed : ∀ condition ∈ plan.conditions, (schema.field condition.path).isSome)
    (validated : validateBoundPlan plan schema = .ok ()) :
    (∀ cell ∈ plan.compared, cell.2 ≠ .null ∧ cell.2.FitsField schema cell.1) ∧
      ∀ cell ∈ plan.assigned, cell.2 = .null ∨ cell.2.FitsField schema cell.1 := by
  obtain ⟨assigned, compared⟩ := (validateBoundPlan_eq_ok_iff listed).mp validated
  constructor
  · intro cell membership
    rcases SqlValue.fitsField_of_validateValue (compared cell membership) with ⟨_, allowed⟩ | fits
    · cases allowed
    · exact fits
  · intro cell membership
    rcases SqlValue.fitsField_of_validateValue (assigned cell membership) with ⟨null, _⟩ | fits
    · exact .inl null
    · exact .inr fits.2

/-! ## Lowered plans are well formed -/

theorem populated_of_parsePredicate {collection : String} {schema : SchemaProfile}
    {expression : Expr} {predicate : Predicate}
    (parsed : parsePredicate collection schema expression = .ok predicate) :
    predicate.Populated := by
  replace parsed := parsesTo_of_parsePredicate parsed
  induction parsed with
  | nested _ inductionHypothesis => exact inductionHypothesis
  | and _ _ first second => exact ⟨List.cons_ne_nil _ _, first, second, trivial⟩
  | or _ _ first second => exact ⟨List.cons_ne_nil _ _, first, second, trivial⟩
  | compare _ _ _ => trivial
  | inList _ _ => trivial
  | isNull _ => trivial
  | isNotNull _ => trivial

theorem listed_of_parseProjection {items : List SelectItem} {collection : String}
    {schema : SchemaProfile} {projection : Projection}
    (parsed : parseProjection items collection schema = .ok projection) :
    ∀ path ∈ projection.paths, (schema.field path).isSome := by
  unfold parseProjection at parsed
  split at parsed
  · cases parsed
    simp [Projection.paths]
  · obtain ⟨fields, collected, rfl⟩ := map_eq_ok_iff.mp parsed
    intro path membership
    obtain ⟨field, listed, rfl⟩ := List.mem_map.mp membership
    obtain ⟨item, _, parsedItem⟩ := exists_of_mem_collect collected listed
    cases item with
    | unnamedExpr expression =>
        obtain ⟨path, resolved, same⟩ := bind_eq_ok_iff.mp parsedItem
        cases same
        exact resolveExpressionField_listed resolved
    | exprWithAlias expr columnAlias =>
        obtain ⟨path, resolved, same⟩ := bind_eq_ok_iff.mp parsedItem
        cases same
        exact resolveExpressionField_listed resolved
    | qualifiedWildcard name options => cases parsedItem
    | wildcard options => cases parsedItem

theorem parseLimit_bounded {expression : Expr} {limit : UInt64}
    (parsed : parseLimit expression = .ok limit) : limit.toNat ≤ 2 ^ 63 - 1 := by
  obtain ⟨value, _, parsed⟩ := bind_eq_ok_iff.mp parsed
  cases value with
  | integer number =>
      dsimp only at parsed
      rw [ite_error_eq_ok_iff, not_lt] at parsed
      obtain ⟨nonnegative, same⟩ := parsed
      cases same
      have bounded := number.toInt_lt
      rw [UInt64.toNat_ofNat']
      omega
  | null => cases parsed
  | boolean value => cases parsed
  | floatingPoint value => cases parsed
  | string value => cases parsed
  | placeholder name => cases parsed

theorem lowerStatement_wellFormed {statement : Statement} {collection : String}
    {schema : SchemaProfile} {plan : StatementPlan}
    (lowered : lowerStatement statement collection schema = .ok plan) : plan.WellFormed schema := by
  have conforms := lowerStatement_conforms lowered
  obtain ⟨compared, assigned⟩ := StatementPlan.fit_of_validated conforms.conditions_listed
    (validateBoundPlan_of_lowerStatement lowered)
  have ofFilter : (∀ path ∈ plan.projected, (schema.field path).isSome) →
      (∀ filter ∈ plan.filter?, filter.Populated) →
      (∀ limit ∈ plan.limit?, limit.toNat ≤ 2 ^ 63 - 1) → plan.WellFormed schema :=
    fun projected populated limited =>
      { projected_listed := projected
        targets_listed := conforms.targets_listed
        conditions_listed := conforms.conditions_listed
        shaped := conforms.shaped
        filtered := plan.isSome_filter?
        populated
        compared_fit := compared
        assigned_fit := assigned
        limit_bounded := limited }
  cases statement with
  | other text => cases lowered
  | query query =>
      obtain ⟨_, _, _, _, _, _, filter, limit, projected, filtered, _, limited, rfl⟩ :=
        parseSelect_eq_ok_iff.mp lowered
      apply ofFilter (listed_of_parseProjection projected)
      · intro predicate found
        rcases transpose_eq_ok_iff.mp filtered with ⟨_, rfl⟩ | ⟨_, _, _, parsed, rfl⟩
        · cases found
        · cases found
          exact populated_of_parsePredicate parsed
      · intro bound found
        rcases transpose_eq_ok_iff.mp limited with ⟨_, rfl⟩ | ⟨_, _, _, parsed, rfl⟩
        · cases found
        · cases found
          exact parseLimit_bounded parsed
  | insert insert =>
      obtain ⟨_, _, _, _, _, _, _, _, _, _, _, _, _, _, rfl⟩ := parseInsert_eq_ok_iff.mp lowered
      exact ofFilter nofun nofun nofun
  | update update =>
      obtain ⟨_, _, _, _, _, filter, _, _, parsed, _, _, rfl⟩ := parseUpdate_eq_ok_iff.mp lowered
      apply ofFilter nofun _ nofun
      intro predicate found
      cases found
      exact populated_of_parsePredicate parsed
  | delete delete =>
      obtain ⟨_, _, _, filter, _, parsed, _, rfl⟩ := parseDelete_eq_ok_iff.mp lowered
      apply ofFilter nofun _ nofun
      intro predicate found
      cases found
      exact populated_of_parsePredicate parsed

/-! ## Binding keeps a plan well formed -/

theorem Predicate.populated_mapValues {replace : SqlValue → SqlValue} {predicate : Predicate}
    (populated : predicate.Populated) : (predicate.mapValues replace).Populated := by
  have lists : ∀ predicates : List Predicate,
      (∀ predicate ∈ predicates, predicate.Populated → (predicate.mapValues replace).Populated) →
      predicates ≠ [] ∧ Predicate.AllPopulated predicates →
      Predicate.mapValuesOf replace predicates ≠ [] ∧
        Predicate.AllPopulated (Predicate.mapValuesOf replace predicates) := by
    rintro predicates each ⟨nonempty, all⟩
    refine ⟨by simpa [Predicate.mapValuesOf_eq_map] using nonempty, ?_⟩
    clear nonempty
    induction predicates with
    | nil => trivial
    | cons predicate predicates inductionHypothesis =>
        rw [List.forall_mem_cons] at each
        exact ⟨each.1 all.1, inductionHypothesis each.2 all.2⟩
  induction predicate using Predicate.listInduction with
  | compare path operator value => trivial
  | inList path values negated => trivial
  | isNull path negated => trivial
  | and predicates inductionHypothesis => exact lists predicates inductionHypothesis populated
  | or predicates inductionHypothesis => exact lists predicates inductionHypothesis populated

namespace StatementPlan

variable (replace : SqlValue → SqlValue) (plan : StatementPlan)

theorem projected_mapValues : (plan.mapValues replace).projected = plan.projected := by
  cases plan <;> rfl

theorem limit?_mapValues : (plan.mapValues replace).limit? = plan.limit? := by
  cases plan <;> rfl

theorem collectionFromPlan_mapValues :
    collectionFromPlan (plan.mapValues replace) = collectionFromPlan plan := by
  cases plan <;> rfl

theorem filter?_mapValues :
    (plan.mapValues replace).filter? = plan.filter?.map (Predicate.mapValues replace) := by
  cases plan <;> rfl

end StatementPlan

theorem bindParameters_wellFormed {schema : SchemaProfile} {plan bound : StatementPlan}
    {parameters : List SqlValue} (wellFormed : plan.WellFormed schema)
    (binds : bindParameters plan parameters schema = .ok bound) :
    bound.WellFormed schema ∧ collectionFromPlan bound = collectionFromPlan plan ∧
      ∀ value ∈ bound.values, value.isPlaceholder = false := by
  obtain ⟨values, _, substitutes, validated⟩ := bindParameters_eq_ok_iff.mp binds
  obtain ⟨bindable, rfl⟩ := bindPlan_eq_ok_iff.mp substitutes
  have listed := StatementPlan.listed_mapValues (boundValue parameters)
    wellFormed.conditions_listed
  obtain ⟨compared, assigned⟩ := StatementPlan.fit_of_validated listed validated
  refine ⟨?_, StatementPlan.collectionFromPlan_mapValues _ _, ?_⟩
  · constructor
    · rw [StatementPlan.projected_mapValues]
      exact wellFormed.projected_listed
    · rw [StatementPlan.targets_mapValues]
      exact wellFormed.targets_listed
    · exact listed
    · exact wellFormed.shaped.mapValues _
    · exact StatementPlan.isSome_filter? _
    · rw [StatementPlan.filter?_mapValues]
      intro filter found
      obtain ⟨predicate, original, rfl⟩ := Option.mem_map.mp found
      exact Predicate.populated_mapValues (wellFormed.populated predicate original)
    · exact compared
    · exact assigned
    · rw [StatementPlan.limit?_mapValues]
      exact wellFormed.limit_bounded
  · rw [StatementPlan.values_mapValues, List.forall_mem_map]
    intro value membership
    exact isPlaceholder_boundValue (bindable value membership) values

/-- A text is lowered over the profile of the collection of its plan. -/
theorem lowered_of_parseSqlForProfiles {parser : Parser} {sql : String}
    {profiles : CollectionProfiles} {plan : StatementPlan}
    (lowered : parseSqlForProfiles parser sql profiles = .ok plan) :
    ∃ statement schema, parser sql = .ok [statement] ∧
      profiles[collectionFromPlan plan]? = some schema ∧
      lowerStatement statement (collectionFromPlan plan) schema = .ok plan := by
  obtain ⟨statement, parsed, lowered⟩ := bind_eq_ok_iff.mp lowered
  obtain ⟨collection, _, lowered⟩ := bind_eq_ok_iff.mp lowered
  obtain ⟨schema, allowed, lowered⟩ := bind_eq_ok_iff.mp lowered
  obtain ⟨_, rfl⟩ := isOver_of_lowerStatement lowered
  exact ⟨statement, schema, parseOneStatement_eq_ok_iff.mp parsed, okOr_eq_ok_iff.mp allowed,
    lowered⟩

/-- A lowered plan is well formed over the profile of the one table of its statement, and so is
every plan that it binds to. -/
theorem wellFormed_of_parseSqlForProfiles {parser : Parser} {sql : String}
    {profiles : CollectionProfiles} {plan : StatementPlan}
    (lowered : parseSqlForProfiles parser sql profiles = .ok plan) :
    ∃ statement schema, parser sql = .ok [statement] ∧
      profiles[collectionFromPlan plan]? = some schema ∧
      statement.IsOver (collectionFromPlan plan) ∧ plan.WellFormed schema ∧
      ∀ parameters bound, bindParameters plan parameters schema = .ok bound →
        bound.WellFormed schema ∧ collectionFromPlan bound = collectionFromPlan plan ∧
          ∀ value ∈ bound.values, value.isPlaceholder = false := by
  obtain ⟨statement, schema, parsed, allowed, lowered⟩ := lowered_of_parseSqlForProfiles lowered
  have wellFormed := lowerStatement_wellFormed lowered
  exact ⟨statement, schema, parsed, allowed, (isOver_of_lowerStatement lowered).1, wellFormed,
    fun _ _ binds => bindParameters_wellFormed wellFormed binds⟩

section Example

private def customerNames : SchemaProfile where
  profileVersion := 1
  sampledDocuments := 1
  fields := [⟨⟨["name"]⟩, 1, 0, {.string}, {.scalar}, false⟩]

/-- `DELETE FROM customers WHERE name = $1` -/
private def deleteNamed : Statement :=
  .deleteWhere "customers"
    (.binaryOp (.identifier (.new "name")) .eq (.value (.placeholder "$1")))

private def deletedNamed : StatementPlan :=
  .delete ⟨"customers", .compare ⟨["name"]⟩ .equal (.placeholder "$1")⟩

theorem wellFormed_deletedNamed :
    ∃ statement schema, Except.ok [deleteNamed] = (.ok [statement] : Except String _) ∧
      (Std.TreeMap.ofList [("customers", customerNames)] : CollectionProfiles)[
        collectionFromPlan deletedNamed]? = some schema ∧
      statement.IsOver (collectionFromPlan deletedNamed) ∧ deletedNamed.WellFormed schema ∧
      ∀ parameters bound, bindParameters deletedNamed parameters schema = .ok bound →
        bound.WellFormed schema ∧ collectionFromPlan bound = collectionFromPlan deletedNamed ∧
          ∀ value ∈ bound.values, value.isPlaceholder = false :=
  @wellFormed_of_parseSqlForProfiles (fun _ => .ok [deleteNamed]) ""
    (.ofList [("customers", customerNames)]) deletedNamed rfl

end Example

end Mongres
