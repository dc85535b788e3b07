import Mongres.Common
import Mongres.Library.Binary64
import Mongres.Library.Fallible
import Mongres.Schema.Infer
import Mongres.Sql.Ast
import Mongres.Sql.Plan

/-!
# Lowering of expressions, literals, collections and field paths
-/

namespace Mongres

open Fallible Ast

/-- Extracts an exact unqualified collection name from an object name. -/
def collectionNameFromObjectName : ObjectName → Result String
  | [identifier] => .ok identifier.value
  | _ => .error (unsupportedFeature "qualified collection name")

/-- Extracts the collection name of one supported table reference. -/
def collectionNameFromTableWithJoins (table : TableWithJoins) : Result String :=
  if table.joins ≠ [] then .error (unsupportedFeature "JOIN")
  else
    match table.relation with
    | .table name _ args _ _ _ _ _ =>
        if args.isSome then .error (unsupportedFeature "table-valued function")
        else collectionNameFromObjectName name
    | .other _ => .error (unsupportedFeature "non-table FROM source")

def activeCollection (collection expectedCollection : String) : Result String :=
  if collection ≠ expectedCollection then
    .error (invalidInput
      s!"collection '{collection}' does not match the active collection '{expectedCollection}'")
  else .ok collection

def collectionFromObjectName (name : ObjectName) (expectedCollection : String) : Result String := do
  let collection ← collectionNameFromObjectName name
  activeCollection collection expectedCollection

def collectionFromTableWithJoins (table : TableWithJoins) (collectionName : String) :
    Result String := do
  let collection ← collectionNameFromTableWithJoins table
  activeCollection collection collectionName

def parseValue : Expr → Result SqlValue
  | .value .null => .ok .null
  | .value (.boolean value) => .ok (.boolean value)
  | .value (.singleQuotedString value) | .value (.escapedStringLiteral value)
  | .value (.unicodeStringLiteral value) | .value (.nationalStringLiteral value) =>
      .ok (.string value)
  | .value (.placeholder name) => .ok (.placeholder name)
  | .value (.number text _) =>
      if text.toList.any fun letter => letter = '.' ∨ letter = 'e' ∨ letter = 'E' then
        (okOr (Binary64.parse text)
          (invalidInput s!"numeric value is outside supported range: {text}")).map .floatingPoint
      else
        (okOr (Decimal.parseInt64 text)
          (invalidInput s!"integer value is outside supported range: {text}")).map .integer
  | .value (.other _) => .error (unsupportedFeature "SQL literal type")
  | _ => .error (unsupportedFeature "non-literal value expression")

def parseLimit (expression : Expr) : Result UInt64 := do
  match ← parseValue expression with
  | .integer limit =>
      if limit.toInt < 0 then .error (invalidInput "LIMIT must be non-negative")
      else .ok (UInt64.ofNat limit.toInt.natAbs)
  | _ => .error (invalidInput "LIMIT must be a non-negative integer literal")

/-- The path that identifiers spell, segment by segment. -/
def fieldPathOf (first : Ident) (rest : List Ident) : FieldPath :=
  rest.foldl (fun path part => path.child part.value) (.topLevel first.value)

/-- The identifiers behind an unquoted collection qualifier, if there is one. -/
def stripCollection (collection : String) : List Ident → List Ident
  | [] => []
  | first :: rest => if first = Ident.new collection then rest else first :: rest

def resolveField (identifiers : List Ident) (collection : String) (schema : SchemaProfile) :
    Result FieldPath :=
  match stripCollection collection identifiers with
  | [] => .error (invalidInput "field path cannot be empty")
  | first :: rest =>
      let path := fieldPathOf first rest
      if (schema.field path).isNone then .error (absentField path) else .ok path

def resolveExpressionField (expression : Expr) (collection : String) (schema : SchemaProfile) :
    Result FieldPath :=
  match expression with
  | .identifier identifier => resolveField [identifier] collection schema
  | .compoundIdentifier identifiers => resolveField identifiers collection schema
  | _ => .error (unsupportedFeature "field expression")

/-- Resolves one `INSERT` column name: an exact top-level key first, then the
nested path that its dots spell. -/
def resolveInsertColumn (identifier : Ident) (collection : String) (schema : SchemaProfile) :
    Result FieldPath :=
  let exact := FieldPath.topLevel identifier.value
  if (schema.field exact).isSome then .ok exact
  else
    match Text.splitOn '.' identifier.value with
    | [] => .error (invalidInput "field path cannot be empty")
    | first :: rest =>
        let path := rest.foldl FieldPath.child (.topLevel first)
        if (schema.field path).isSome then .ok path
        else resolveField [identifier] collection schema

def parseComparisonOperator : BinaryOperator → Result ComparisonOperator
  | .eq => .ok .equal
  | .notEq => .ok .notEqual
  | .gt => .ok .greaterThan
  | .gtEq => .ok .greaterThanOrEqual
  | .lt => .ok .lessThan
  | .ltEq => .ok .lessThanOrEqual
  | .and | .or | .other _ => .error (unsupportedFeature "comparison operator")

def parsePredicate (collection : String) (schema : SchemaProfile) : Expr → Result Predicate
  | .nested expression => parsePredicate collection schema expression
  | .binaryOp left op right =>
      match op with
      | .and => do
          let first ← parsePredicate collection schema left
          let second ← parsePredicate collection schema right
          .ok (.and [first, second])
      | .or => do
          let first ← parsePredicate collection schema left
          let second ← parsePredicate collection schema right
          .ok (.or [first, second])
      | op => do
          let path ← resolveExpressionField left collection schema
          let operator ← parseComparisonOperator op
          let value ← parseValue right
          .ok (.compare path operator value)
  | .inList expr list negated => do
      let path ← resolveExpressionField expr collection schema
      let values ← collect parseValue list
      .ok (.inList path values negated)
  | .isNull expression => do
      let path ← resolveExpressionField expression collection schema
      .ok (.isNull path false)
  | .isNotNull expression => do
      let path ← resolveExpressionField expression collection schema
      .ok (.isNull path true)
  | _ => .error (unsupportedFeature "WHERE expression")

/-! ## Resolution stays inside the profile -/

theorem resolveField_listed {identifiers : List Ident} {collection : String}
    {schema : SchemaProfile} {path : FieldPath}
    (resolved : resolveField identifiers collection schema = .ok path) :
    (schema.field path).isSome := by
  unfold resolveField at resolved
  split at resolved
  · cases resolved
  · dsimp only at resolved
    rw [ite_error_eq_ok_iff] at resolved
    obtain ⟨listed, same⟩ := resolved
    cases same
    simpa [Option.isSome_iff_ne_none] using listed

theorem resolveExpressionField_listed {expression : Expr} {collection : String}
    {schema : SchemaProfile} {path : FieldPath}
    (resolved : resolveExpressionField expression collection schema = .ok path) :
    (schema.field path).isSome := by
  unfold resolveExpressionField at resolved
  split at resolved
  · exact resolveField_listed resolved
  · exact resolveField_listed resolved
  · cases resolved

theorem resolveInsertColumn_listed {identifier : Ident} {collection : String}
    {schema : SchemaProfile} {path : FieldPath}
    (resolved : resolveInsertColumn identifier collection schema = .ok path) :
    (schema.field path).isSome := by
  unfold resolveInsertColumn at resolved
  dsimp only at resolved
  split at resolved
  · rename_i listed
    cases resolved
    exact listed
  · split at resolved
    · cases resolved
    · split at resolved
      · rename_i listed
        cases resolved
        exact listed
      · exact resolveField_listed resolved

/-! ## What a filter is parsed to -/

section Parsed

variable {collection : String} {schema : SchemaProfile}

/-- The forms of a filter and the predicates they are parsed to. -/
inductive ParsesTo (collection : String) (schema : SchemaProfile) : Expr → Predicate → Prop where
  | nested {expression predicate} : ParsesTo collection schema expression predicate →
      ParsesTo collection schema (.nested expression) predicate
  | and {left right first second} : ParsesTo collection schema left first →
      ParsesTo collection schema right second →
      ParsesTo collection schema (.binaryOp left .and right) (.and [first, second])
  | or {left right first second} : ParsesTo collection schema left first →
      ParsesTo collection schema right second →
      ParsesTo collection schema (.binaryOp left .or right) (.or [first, second])
  | compare {left right op path operator value} :
      resolveExpressionField left collection schema = .ok path →
      parseComparisonOperator op = .ok operator → parseValue right = .ok value →
      ParsesTo collection schema (.binaryOp left op right) (.compare path operator value)
  | inList {expression list negated path values} :
      resolveExpressionField expression collection schema = .ok path →
      collect parseValue list = .ok values →
      ParsesTo collection schema (.inList expression list negated) (.inList path values negated)
  | isNull {expression path} : resolveExpressionField expression collection schema = .ok path →
      ParsesTo collection schema (.isNull expression) (.isNull path false)
  | isNotNull {expression path} : resolveExpressionField expression collection schema = .ok path →
      ParsesTo collection schema (.isNotNull expression) (.isNull path true)

theorem parsesTo_of_parsePredicate {expression : Expr} {predicate : Predicate}
    (parsed : parsePredicate collection schema expression = .ok predicate) :
    ParsesTo collection schema expression predicate := by
  fun_induction parsePredicate collection schema expression generalizing predicate with
  | case1 expression inductionHypothesis => exact .nested (inductionHypothesis parsed)
  | case2 left right first second =>
      simp only [bind_eq_ok_iff] at parsed
      obtain ⟨a, parsedFirst, b, parsedSecond, same⟩ := parsed
      cases same
      exact .and (first parsedFirst) (second parsedSecond)
  | case3 left right first second =>
      simp only [bind_eq_ok_iff] at parsed
      obtain ⟨a, parsedFirst, b, parsedSecond, same⟩ := parsed
      cases same
      exact .or (first parsedFirst) (second parsedSecond)
  | case4 left right op =>
      simp only [bind_eq_ok_iff] at parsed
      obtain ⟨path, resolved, operator, compares, value, parsedValue, same⟩ := parsed
      cases same
      exact .compare resolved compares parsedValue
  | case5 expr list negated =>
      simp only [bind_eq_ok_iff] at parsed
      obtain ⟨path, resolved, values, parsedValues, same⟩ := parsed
      cases same
      exact .inList resolved parsedValues
  | case6 expression =>
      simp only [bind_eq_ok_iff] at parsed
      obtain ⟨path, resolved, same⟩ := parsed
      cases same
      exact .isNull resolved
  | case7 expression =>
      simp only [bind_eq_ok_iff] at parsed
      obtain ⟨path, resolved, same⟩ := parsed
      cases same
      exact .isNotNull resolved
  | case8 expression => cases parsed

theorem parsePredicate_listed {expression : Expr} {predicate : Predicate}
    (parsed : parsePredicate collection schema expression = .ok predicate) :
    ∀ condition ∈ predicate.conditions, (schema.field condition.path).isSome := by
  have single {condition : Condition} (listed : (schema.field condition.path).isSome) :
      ∀ other ∈ [condition], (schema.field other.path).isSome :=
    List.forall_mem_singleton.mpr listed
  have both {first second : Predicate}
      (firstListed : ∀ condition ∈ first.conditions, (schema.field condition.path).isSome)
      (secondListed : ∀ condition ∈ second.conditions, (schema.field condition.path).isSome) :
      ∀ condition ∈ Predicate.conditionsOf [first, second],
        (schema.field condition.path).isSome := by
    intro condition membership
    simp only [Predicate.conditionsOf, List.append_nil, List.mem_append] at membership
    rcases membership with membership | membership
    · exact firstListed condition membership
    · exact secondListed condition membership
  replace parsed := parsesTo_of_parsePredicate parsed
  induction parsed with
  | nested _ inductionHypothesis => exact inductionHypothesis
  | and _ _ first second => exact both first second
  | or _ _ first second => exact both first second
  | compare resolved _ _ => exact single (resolveExpressionField_listed resolved)
  | inList resolved _ => exact single (resolveExpressionField_listed resolved)
  | isNull resolved => exact single (resolveExpressionField_listed resolved)
  | isNotNull resolved => exact single (resolveExpressionField_listed resolved)

end Parsed

end Mongres
