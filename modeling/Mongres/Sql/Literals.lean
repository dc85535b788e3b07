import Mongres.Sql.Substitution

/-!
# Parameters and literals

A literal and a parameter of the same value lead to the same plan: lowering a
statement with its placeholders written out is lowering it and binding them.
-/

namespace Mongres

open Fallible

/-- A value that SQL text can spell.  A minus sign is an operator, not part of a number. -/
inductive Literal where
  | null
  | boolean (value : Bool)
  | integer (magnitude : Nat) (fits : magnitude < 2 ^ 63)
  | string (value : String)

namespace Literal

def value : Literal → SqlValue
  | .null => .null
  | .boolean value => .boolean value
  | .integer magnitude _ => .integer (Int64.ofInt magnitude)
  | .string value => .string value

def written : Literal → Ast.Value
  | .null => .null
  | .boolean value => .boolean value
  | .integer magnitude _ => .number (toString magnitude) false
  | .string value => .singleQuotedString value

theorem isPlaceholder_value (literal : Literal) : literal.value.isPlaceholder = false := by
  cases literal <;> rfl

theorem parseValue_written (literal : Literal) :
    parseValue (.value literal.written) = .ok literal.value := by
  cases literal with
  | null => rfl
  | boolean value => rfl
  | string value => rfl
  | integer magnitude fits =>
      have whole : (toString magnitude).toList.any
          (fun letter => letter = '.' ∨ letter = 'e' ∨ letter = 'E') = false := by
        rw [Nat.toString_eq_repr, Nat.toList_repr, List.any_eq_false]
        intro letter membership
        have digit := Nat.isDigit_of_mem_toDigits (by omega) (by omega) membership
        rw [decide_eq_true_iff]
        rintro (rfl | rfl | rfl) <;> cases digit
      have read : Decimal.parseInt64 (toString magnitude) = some (Int64.ofInt magnitude) := by
        rw [Nat.toString_eq_ofList_toDigits, Decimal.parseInt64_toDigits fits]
      rw [written, parseValue, whole, read]
      rfl

end Literal

/-! ## Substitution in a statement -/

def placeholderName (index : Nat) : String := "$" ++ toString index

def literalFor (literals : List Literal) (name : String) : Option Literal :=
  ((literals.zipIdx 1).find? fun numbered => name = placeholderName numbered.2).map Prod.fst

namespace Ast

def Value.substitute (literals : List Literal) : Value → Value
  | .placeholder name => ((literalFor literals name).map Literal.written).getD (.placeholder name)
  | literal => literal

mutual

/-- A placeholder that is not on the right of a comparison or in a list is refused with its
literal too. -/
def Expr.substitute (literals : List Literal) : Expr → Expr
  | .value literal => .value (literal.substitute literals)
  | .nested expression => .nested (expression.substitute literals)
  | .binaryOp left op right => .binaryOp (left.substitute literals) op (right.substitute literals)
  | .inList expr list negated =>
      .inList (expr.substitute literals) (Expr.substituteAll literals list) negated
  | .isNull expression => .isNull (expression.substitute literals)
  | .isNotNull expression => .isNotNull (expression.substitute literals)
  | expression => expression

def Expr.substituteAll (literals : List Literal) : List Expr → List Expr
  | [] => []
  | expression :: expressions =>
      expression.substitute literals :: Expr.substituteAll literals expressions

end

theorem Expr.length_substituteAll (literals : List Literal) (expressions : List Expr) :
    (Expr.substituteAll literals expressions).length = expressions.length := by
  induction expressions with
  | nil => rfl
  | cons expression expressions inductionHypothesis =>
      rw [Expr.substituteAll, List.length_cons, List.length_cons, inductionHypothesis]

def SetExpr.substitute (literals : List Literal) : SetExpr → SetExpr
  | .select selected =>
      .select { selected with selection := selected.selection.map (Expr.substitute literals) }
  | .values explicitRow rows => .values explicitRow (rows.map (Expr.substituteAll literals))
  | .other text => .other text

def Query.substitute (literals : List Literal) (query : Query) : Query :=
  { query with body := query.body.substitute literals }

def Assignment.substitute (literals : List Literal) (assignment : Assignment) : Assignment :=
  { assignment with value := assignment.value.substitute literals }

/-- Writes the literals for the placeholders in value positions. -/
def Statement.substitute (literals : List Literal) : Statement → Statement
  | .query selected => .query (selected.substitute literals)
  | .insert inserted =>
      .insert { inserted with source := inserted.source.map (Query.substitute literals) }
  | .update updated =>
      .update
        { updated with
          assignments := updated.assignments.map (Assignment.substitute literals)
          selection := updated.selection.map (Expr.substitute literals) }
  | .delete deleted =>
      .delete { deleted with selection := deleted.selection.map (Expr.substitute literals) }
  | .other text => .other text

mutual

def Expr.placeholders : Expr → List String
  | .value (.placeholder name) => [name]
  | .value _ => []
  | .nested expression => expression.placeholders
  | .binaryOp left _ right => left.placeholders ++ right.placeholders
  | .inList expr list _ => expr.placeholders ++ Expr.placeholdersOf list
  | .isNull expression => expression.placeholders
  | .isNotNull expression => expression.placeholders
  | .identifier _ | .compoundIdentifier _ | .other _ => []

def Expr.placeholdersOf : List Expr → List String
  | [] => []
  | expression :: expressions => expression.placeholders ++ Expr.placeholdersOf expressions

end

theorem Expr.placeholdersOf_eq_flatMap (expressions : List Expr) :
    Expr.placeholdersOf expressions = expressions.flatMap Expr.placeholders := by
  induction expressions with
  | nil => rfl
  | cons expression expressions inductionHypothesis =>
      rw [Expr.placeholdersOf, inductionHypothesis, List.flatMap_cons]

def SetExpr.placeholders : SetExpr → List String
  | .select selected => selected.selection.toList.flatMap Expr.placeholders
  | .values _ rows => rows.flatMap Expr.placeholdersOf
  | .other _ => []

/-- The placeholders of a statement, in the order of its text. -/
def Statement.placeholders : Statement → List String
  | .query selected => selected.body.placeholders
  | .insert inserted => inserted.source.toList.flatMap fun source => source.body.placeholders
  | .update updated =>
      (updated.assignments.flatMap fun assignment => assignment.value.placeholders)
        ++ updated.selection.toList.flatMap Expr.placeholders
  | .delete deleted => deleted.selection.toList.flatMap Expr.placeholders
  | .other _ => []

/-- A statement whose placeholders are among `$1` to `$count`, with `$count` among them. -/
structure Statement.Numbered (statement : Statement) (count : Nat) : Prop where
  within : ∀ name ∈ statement.placeholders,
    ∃ index, 1 ≤ index ∧ index ≤ count ∧ name = placeholderName index
  largest : count ≠ 0 → placeholderName count ∈ statement.placeholders

end Ast

/-! ## Lowering what was written -/

namespace Literal

def replace (literals : List Literal) : SqlValue → SqlValue
  | .placeholder name => ((literalFor literals name).map value).getD (.placeholder name)
  | other => other

end Literal

section Lowering

variable (literals : List Literal)

theorem parseValue_substitute (expression : Ast.Expr) :
    parseValue (expression.substitute literals) =
      (parseValue expression).map (Literal.replace literals) := by
  cases expression with
  | value value =>
      cases value with
      | placeholder name =>
          rw [Ast.Expr.substitute, Ast.Value.substitute, parseValue, Except.map, Literal.replace]
          cases literalFor literals name with
          | none => rfl
          | some literal => exact literal.parseValue_written
      | number text long =>
          change parseValue (.value (.number text long)) = _
          rw [parseValue]
          split
          · cases Binary64.parse text <;> rfl
          · cases Decimal.parseInt64 text <;> rfl
      | _ => rfl
  | _ => rfl

theorem resolveExpressionField_substitute (expression : Ast.Expr) (collection : String)
    (schema : SchemaProfile) :
    resolveExpressionField (expression.substitute literals) collection schema =
      resolveExpressionField expression collection schema := by
  cases expression <;> rfl

theorem collect_parseValue_substituteAll (expressions : List Ast.Expr) :
    collect parseValue (Ast.Expr.substituteAll literals expressions) =
      (collect parseValue expressions).map (List.map (Literal.replace literals)) := by
  induction expressions with
  | nil => rfl
  | cons expression expressions inductionHypothesis =>
      rw [Ast.Expr.substituteAll, collect, parseValue_substitute, inductionHypothesis, collect]
      cases parseValue expression with
      | error error => rfl
      | ok value => cases collect parseValue expressions <;> rfl

theorem parsePredicate_substitute (collection : String) (schema : SchemaProfile)
    (expression : Ast.Expr) :
    parsePredicate collection schema (expression.substitute literals) =
      (parsePredicate collection schema expression).map
        (Predicate.mapValues (Literal.replace literals)) := by
  fun_induction parsePredicate collection schema expression with
  | case1 expression inductionHypothesis => exact inductionHypothesis
  | case2 left right first second =>
      rw [Ast.Expr.substitute, parsePredicate, first, second]
      cases parsePredicate collection schema left with
      | error error => rfl
      | ok left => cases parsePredicate collection schema right <;> rfl
  | case3 left right first second =>
      rw [Ast.Expr.substitute, parsePredicate, first, second]
      cases parsePredicate collection schema left with
      | error error => rfl
      | ok left => cases parsePredicate collection schema right <;> rfl
  | case4 left right op notAnd notOr =>
      rw [Ast.Expr.substitute, parsePredicate, resolveExpressionField_substitute,
        parseValue_substitute]
      · cases resolveExpressionField left collection schema with
        | error error => rfl
        | ok path =>
            cases parseComparisonOperator op with
            | error error => rfl
            | ok operator => cases parseValue right <;> rfl
      · exact notAnd
      · exact notOr
  | case5 expr list negated =>
      rw [Ast.Expr.substitute, parsePredicate, resolveExpressionField_substitute,
        collect_parseValue_substituteAll]
      cases resolveExpressionField expr collection schema with
      | error error => rfl
      | ok path => cases collect parseValue list <;> rfl
  | case6 expression =>
      rw [Ast.Expr.substitute, parsePredicate, resolveExpressionField_substitute]
      cases resolveExpressionField expression collection schema <;> rfl
  | case7 expression =>
      rw [Ast.Expr.substitute, parsePredicate, resolveExpressionField_substitute]
      cases resolveExpressionField expression collection schema <;> rfl
  | case8 expression notNested notBinary notInList notIsNull notIsNotNull =>
      cases expression with
      | nested expression => exact absurd rfl (notNested expression)
      | binaryOp left op right => exact absurd rfl (notBinary left op right)
      | inList expr list negated => exact absurd rfl (notInList expr list negated)
      | isNull expression => exact absurd rfl (notIsNull expression)
      | isNotNull expression => exact absurd rfl (notIsNotNull expression)
      | _ => rfl

theorem collect_substituteAll_rows (rows : List (List Ast.Expr)) :
    collect (collect parseValue) (rows.map (Ast.Expr.substituteAll literals)) =
      (collect (collect parseValue) rows).map
        (List.map (List.map (Literal.replace literals))) := by
  induction rows with
  | nil => rfl
  | cons row rows inductionHypothesis =>
      rw [List.map_cons, collect, collect_parseValue_substituteAll, inductionHypothesis, collect]
      cases collect parseValue row with
      | error error => rfl
      | ok values => cases collect (collect parseValue) rows <;> rfl

theorem collect_parseAssignment_substitute (collection : String) (schema : SchemaProfile)
    (assignments : List Ast.Assignment) :
    collect (parseAssignment collection schema)
        (assignments.map (Ast.Assignment.substitute literals)) =
      (collect (parseAssignment collection schema) assignments).map
        (List.map (AssignmentPlan.mapValue (Literal.replace literals))) := by
  have each : ∀ assignment : Ast.Assignment,
      parseAssignment collection schema (assignment.substitute literals) =
        (parseAssignment collection schema assignment).map
          (AssignmentPlan.mapValue (Literal.replace literals)) := by
    rintro ⟨target | names, value⟩
    · rw [Ast.Assignment.substitute, parseAssignment, parseAssignment, parseValue_substitute]
      dsimp only
      cases resolveField target collection schema with
      | error error => rfl
      | ok path => cases parseValue value <;> rfl
    · rfl
  induction assignments with
  | nil => rfl
  | cons assignment assignments inductionHypothesis =>
      rw [List.map_cons, collect, each, inductionHypothesis, collect]
      cases parseAssignment collection schema assignment with
      | error error => rfl
      | ok plan => cases collect (parseAssignment collection schema) assignments <;> rfl

end Lowering

/-! ## The statement as a whole -/

theorem collect_parseInsertRow_eq_ok_iff {columns : List FieldPath} {schema : SchemaProfile}
    {expressions : List (List Ast.Expr)} {rows : List (List SqlValue)} :
    collect (parseInsertRow columns schema) expressions = .ok rows ↔
      (∀ row ∈ expressions, row.length = columns.length) ∧
        collect (collect parseValue) expressions = .ok rows ∧
        ∀ cell ∈ rows.flatMap columns.zip, validateWriteValue cell.1 cell.2 schema = .ok () := by
  induction expressions generalizing rows with
  | nil =>
      constructor
      · intro collected
        cases collected
        exact ⟨nofun, rfl, nofun⟩
      · exact fun collected => collected.2.1
  | cons row expressions inductionHypothesis =>
      simp only [collect, bind_eq_ok_iff, parseInsertRow_eq_ok_iff, inductionHypothesis,
        List.forall_mem_cons]
      constructor
      · rintro ⟨values, ⟨width, parsed, valid⟩, others, ⟨widths, parsedOthers, validOthers⟩, same⟩
        cases same
        refine ⟨⟨width, widths⟩, ⟨values, parsed, others, parsedOthers, rfl⟩, ?_⟩
        rw [List.flatMap_cons, List.forall_mem_append]
        exact ⟨valid, validOthers⟩
      · rintro ⟨⟨width, widths⟩, ⟨values, parsed, others, parsedOthers, same⟩, valid⟩
        cases same
        rw [List.flatMap_cons, List.forall_mem_append] at valid
        exact ⟨values, ⟨width, parsed, valid.1⟩, others, ⟨widths, parsedOthers, valid.2⟩, rfl⟩

theorem validateBoundPlan_of_mapValues {schema : SchemaProfile} {plan : StatementPlan}
    (listed : ∀ condition ∈ plan.conditions, (schema.field condition.path).isSome)
    (literals : List Literal)
    (validated : validateBoundPlan (plan.mapValues (Literal.replace literals)) schema = .ok ()) :
    validateBoundPlan plan schema = .ok () := by
  have listedAlso := StatementPlan.listed_mapValues (Literal.replace literals) listed
  have each : ∀ (path : FieldPath) (value : SqlValue) (nullIsAllowed : Bool),
      validateValue path (Literal.replace literals value) schema nullIsAllowed = .ok () →
        validateValue path value schema nullIsAllowed = .ok () := by
    intro path value nullIsAllowed valid
    cases value with
    | placeholder name => rfl
    | _ => exact valid
  rw [validateBoundPlan_eq_ok_iff listedAlso, StatementPlan.assigned_mapValues,
    StatementPlan.compared_mapValues, List.forall_mem_map, List.forall_mem_map] at validated
  rw [validateBoundPlan_eq_ok_iff listed]
  exact ⟨fun cell membership => each _ _ _ (validated.1 cell membership),
    fun cell membership => each _ _ _ (validated.2 cell membership)⟩

theorem transpose_parsePredicate_substitute (literals : List Literal) (collection : String)
    (schema : SchemaProfile) (selection : Option Ast.Expr) :
    transpose (parsePredicate collection schema) (selection.map (Ast.Expr.substitute literals)) =
      (transpose (parsePredicate collection schema) selection).map
        (Option.map (Predicate.mapValues (Literal.replace literals))) := by
  cases selection with
  | none => rfl
  | some expression =>
      rw [Option.map_some, transpose, parsePredicate_substitute, transpose]
      cases parsePredicate collection schema expression <;> rfl

section Statement

variable {literals : List Literal} {collection : String} {schema : SchemaProfile}
  {plan : StatementPlan}

theorem parseSelect_substitute_eq_ok_iff {query : Ast.Query} :
    parseSelect (query.substitute literals) collection schema = .ok plan ↔
      ∃ lowered, parseSelect query collection schema = .ok lowered ∧
        plan = lowered.mapValues (Literal.replace literals) ∧
        validateBoundPlan plan schema = .ok () := by
  constructor
  · intro lowers
    obtain ⟨noModifiers, written, body, shape, named, projection, filter, limit, projected, filtered,
      validated, limited, rfl⟩ := parseSelect_eq_ok_iff.mp lowers
    cases original : query.body with
    | values explicitRow rows => simp [Ast.Query.substitute, Ast.SetExpr.substitute, original] at body
    | other text => simp [Ast.Query.substitute, Ast.SetExpr.substitute, original] at body
    | select select =>
        simp only [Ast.Query.substitute, Ast.SetExpr.substitute, original,
          Ast.SetExpr.select.injEq] at body
        subst body
        rw [transpose_parsePredicate_substitute, map_eq_ok_iff] at filtered
        obtain ⟨filter, filtered, rfl⟩ := filtered
        have listed : ∀ condition ∈ StatementPlan.conditions
            (.select { collection, projection, filter, limit }),
            (schema.field condition.path).isSome := by
          rcases transpose_eq_ok_iff.mp filtered with ⟨_, rfl⟩ | ⟨_, predicate, _, parsed, rfl⟩
          · simp [StatementPlan.conditions, StatementPlan.filter?]
          · exact parsePredicate_listed parsed
        have unbound := validateBoundPlan_of_mapValues listed literals validated
        exact ⟨_, parseSelect_eq_ok_iff.mpr ⟨noModifiers, select, original, shape, named, projection,
          filter, limit, projected, filtered, unbound, limited, rfl⟩, rfl, validated⟩
  · rintro ⟨lowered, lowers, rfl, validated⟩
    obtain ⟨noModifiers, select, body, shape, named, projection, filter, limit, projected, filtered,
      _, limited, rfl⟩ := parseSelect_eq_ok_iff.mp lowers
    refine parseSelect_eq_ok_iff.mpr ⟨noModifiers,
      { select with selection := select.selection.map (Ast.Expr.substitute literals) }, ?_, shape,
      named, projection, filter.map (Predicate.mapValues (Literal.replace literals)), limit,
      projected, ?_, validated, limited, rfl⟩
    · rw [Ast.Query.substitute, body]
      rfl
    · rw [transpose_parsePredicate_substitute, filtered]
      rfl

theorem parseInsert_substitute_eq_ok_iff {insert : Ast.Insert} :
    parseInsert { insert with source := insert.source.map (Ast.Query.substitute literals) }
        collection schema = .ok plan ↔
      ∃ lowered, parseInsert insert collection schema = .ok lowered ∧
        plan = lowered.mapValues (Literal.replace literals) ∧
        validateBoundPlan plan schema = .ok () := by
  have noConditions : ∀ written : InsertPlan, ∀ condition ∈ (StatementPlan.insert written).conditions,
      (schema.field condition.path).isSome := by
    simp [StatementPlan.conditions, StatementPlan.filter?]
  constructor
  · intro lowers
    have validated := @validateBoundPlan_of_lowerStatement (.insert _) _ _ _ lowers
    obtain ⟨named, noModifiers, someColumns, columns, written, explicitRow, expressions, rows,
      resolved, given, noClauses, body, someRows, parsed, rfl⟩ := parseInsert_eq_ok_iff.mp lowers
    obtain ⟨source, found, rfl⟩ := Option.map_eq_some_iff.mp given
    cases original : source.body with
    | select select => simp [Ast.Query.substitute, Ast.SetExpr.substitute, original] at body
    | other text => simp [Ast.Query.substitute, Ast.SetExpr.substitute, original] at body
    | values explicit listed =>
        simp only [Ast.Query.substitute, Ast.SetExpr.substitute, original,
          Ast.SetExpr.values.injEq] at body
        obtain ⟨rfl, rfl⟩ := body
        rw [collect_parseInsertRow_eq_ok_iff, collect_substituteAll_rows, map_eq_ok_iff] at parsed
        obtain ⟨widths, ⟨rows, parsed, rfl⟩, _⟩ := parsed
        rw [List.forall_mem_map] at widths
        simp only [Ast.Expr.length_substituteAll] at widths
        rw [Ne, List.map_eq_nil_iff] at someRows
        have unbound := validateBoundPlan_of_mapValues (noConditions ⟨collection, columns, rows⟩)
          literals validated
        have assigned := ((validateBoundPlan_eq_ok_iff (noConditions _)).mp unbound).1
        have lowered := collect_parseInsertRow_eq_ok_iff.mpr ⟨widths, parsed, assigned⟩
        exact ⟨_, parseInsert_eq_ok_iff.mpr ⟨named, noModifiers, someColumns, columns, source,
          explicit, listed, rows, resolved, found, noClauses, original, someRows, lowered, rfl⟩, rfl,
          validated⟩
  · rintro ⟨lowered, lowers, rfl, validated⟩
    obtain ⟨named, noModifiers, someColumns, columns, source, explicitRow, expressions, rows,
      resolved, given, noClauses, body, someRows, parsed, rfl⟩ := parseInsert_eq_ok_iff.mp lowers
    obtain ⟨widths, parsed, _⟩ := collect_parseInsertRow_eq_ok_iff.mp parsed
    refine parseInsert_eq_ok_iff.mpr ⟨named, noModifiers, someColumns, columns,
      source.substitute literals, explicitRow, expressions.map (Ast.Expr.substituteAll literals),
      rows.map (List.map (Literal.replace literals)), resolved, ?_, noClauses, ?_, ?_, ?_, rfl⟩
    · rw [given]
      rfl
    · rw [Ast.Query.substitute, body]
      rfl
    · simpa using someRows
    · rw [collect_parseInsertRow_eq_ok_iff, collect_substituteAll_rows, parsed, List.forall_mem_map]
      simp only [Ast.Expr.length_substituteAll]
      exact ⟨widths, rfl, ((validateBoundPlan_eq_ok_iff (noConditions _)).mp validated).1⟩

theorem parseUpdate_substitute_eq_ok_iff {update : Ast.Update} :
    parseUpdate
        { update with
          assignments := update.assignments.map (Ast.Assignment.substitute literals)
          selection := update.selection.map (Ast.Expr.substitute literals) }
        collection schema = .ok plan ↔
      ∃ lowered, parseUpdate update collection schema = .ok lowered ∧
        plan = lowered.mapValues (Literal.replace literals) ∧
        validateBoundPlan plan schema = .ok () := by
  constructor
  · intro lowers
    have validated := @validateBoundPlan_of_lowerStatement (.update _) _ _ _ lowers
    obtain ⟨noModifiers, named, someAssignments, assignments, expression, filter, parsed, given,
      filtered, _, _, rfl⟩ := parseUpdate_eq_ok_iff.mp lowers
    obtain ⟨expression, found, rfl⟩ := Option.map_eq_some_iff.mp given
    rw [collect_parseAssignment_substitute, map_eq_ok_iff] at parsed
    rw [parsePredicate_substitute, map_eq_ok_iff] at filtered
    obtain ⟨assignments, parsed, rfl⟩ := parsed
    obtain ⟨filter, filtered, rfl⟩ := filtered
    rw [Ne, List.map_eq_nil_iff] at someAssignments
    have unbound := @validateBoundPlan_of_mapValues schema
      (.update { collection, assignments, filter }) (parsePredicate_listed filtered) literals
      validated
    obtain ⟨_, assigned, compared⟩ := bind_eq_ok_iff.mp unbound
    exact ⟨_, parseUpdate_eq_ok_iff.mpr ⟨noModifiers, named, someAssignments, assignments, expression,
      filter, parsed, found, filtered, assigned, compared, rfl⟩, rfl, validated⟩
  · rintro ⟨lowered, lowers, rfl, validated⟩
    obtain ⟨noModifiers, named, someAssignments, assignments, expression, filter, parsed, given,
      filtered, _, _, rfl⟩ := parseUpdate_eq_ok_iff.mp lowers
    obtain ⟨_, assigned, compared⟩ := bind_eq_ok_iff.mp validated
    refine parseUpdate_eq_ok_iff.mpr ⟨noModifiers, named, ?_,
      assignments.map (AssignmentPlan.mapValue (Literal.replace literals)),
      expression.substitute literals, filter.mapValues (Literal.replace literals), ?_, ?_, ?_,
      assigned, compared, rfl⟩
    · simpa using someAssignments
    · rw [collect_parseAssignment_substitute, parsed]
      rfl
    · rw [given]
      rfl
    · rw [parsePredicate_substitute, filtered]
      rfl

theorem parseDelete_substitute_eq_ok_iff {delete : Ast.Delete} :
    parseDelete
        { delete with selection := delete.selection.map (Ast.Expr.substitute literals) }
        collection schema = .ok plan ↔
      ∃ lowered, parseDelete delete collection schema = .ok lowered ∧
        plan = lowered.mapValues (Literal.replace literals) ∧
        validateBoundPlan plan schema = .ok () := by
  constructor
  · intro lowers
    obtain ⟨noModifiers, named, expression, filter, given, filtered, validated, rfl⟩ :=
      parseDelete_eq_ok_iff.mp lowers
    obtain ⟨expression, found, rfl⟩ := Option.map_eq_some_iff.mp given
    rw [parsePredicate_substitute, map_eq_ok_iff] at filtered
    obtain ⟨filter, filtered, rfl⟩ := filtered
    have unbound := @validateBoundPlan_of_mapValues schema (.delete { collection, filter })
      (parsePredicate_listed filtered) literals validated
    exact ⟨_, parseDelete_eq_ok_iff.mpr ⟨noModifiers, named, expression, filter, found, filtered,
      unbound, rfl⟩, rfl, validated⟩
  · rintro ⟨lowered, lowers, rfl, validated⟩
    obtain ⟨noModifiers, named, expression, filter, given, filtered, _, rfl⟩ :=
      parseDelete_eq_ok_iff.mp lowers
    refine parseDelete_eq_ok_iff.mpr ⟨noModifiers, named, expression.substitute literals,
      filter.mapValues (Literal.replace literals), ?_, ?_, validated, rfl⟩
    · rw [given]
      rfl
    · rw [parsePredicate_substitute, filtered]
      rfl

/-- Lowering what was written out is lowering the placeholders, replacing them and validating
the result. -/
theorem lowerStatement_substitute_eq_ok_iff {statement : Ast.Statement} :
    lowerStatement (statement.substitute literals) collection schema = .ok plan ↔
      ∃ lowered, lowerStatement statement collection schema = .ok lowered ∧
        plan = lowered.mapValues (Literal.replace literals) ∧
        validateBoundPlan plan schema = .ok () := by
  cases statement with
  | query query => exact parseSelect_substitute_eq_ok_iff
  | insert insert => exact parseInsert_substitute_eq_ok_iff
  | update update => exact parseUpdate_substitute_eq_ok_iff
  | delete delete => exact parseDelete_substitute_eq_ok_iff
  | other text => simp [Ast.Statement.substitute, lowerStatement]

end Statement

/-! ## The placeholders of a lowered plan -/

def SqlValue.placeholders : SqlValue → List String
  | .placeholder name => [name]
  | _ => []

theorem placeholders_of_parseValue {expression : Ast.Expr} {value : SqlValue}
    (parsed : parseValue expression = .ok value) :
    value.placeholders = expression.placeholders := by
  cases expression with
  | value literal =>
      cases literal with
      | number text long =>
          rw [parseValue] at parsed
          split at parsed
          · obtain ⟨number, _, rfl⟩ := map_eq_ok_iff.mp parsed
            rfl
          · obtain ⟨number, _, rfl⟩ := map_eq_ok_iff.mp parsed
            rfl
      | _ =>
          cases parsed
          try rfl
  | _ => cases parsed

theorem placeholders_of_collect_parseValue {expressions : List Ast.Expr} {values : List SqlValue}
    (parsed : collect parseValue expressions = .ok values) :
    values.flatMap SqlValue.placeholders = Ast.Expr.placeholdersOf expressions := by
  rw [Ast.Expr.placeholdersOf_eq_flatMap]
  exact flatMap_of_collect parsed fun _ _ => placeholders_of_parseValue

theorem placeholders_of_parsePredicate {collection : String} {schema : SchemaProfile}
    {expression : Ast.Expr} {predicate : Predicate}
    (parsed : parsePredicate collection schema expression = .ok predicate) :
    predicate.values.flatMap SqlValue.placeholders = expression.placeholders := by
  have noField : ∀ {field : Ast.Expr} {path : FieldPath},
      resolveExpressionField field collection schema = .ok path → field.placeholders = [] := by
    intro field path resolved
    cases field <;> first | rfl | cases resolved
  replace parsed := parsesTo_of_parsePredicate parsed
  induction parsed with
  | nested _ inductionHypothesis => exact inductionHypothesis
  | and _ _ first second =>
      rw [Ast.Expr.placeholders, ← first, ← second]
      simp
  | or _ _ first second =>
      rw [Ast.Expr.placeholders, ← first, ← second]
      simp
  | compare resolved _ parsedValue =>
      rw [Ast.Expr.placeholders, noField resolved, ← placeholders_of_parseValue parsedValue]
      exact List.append_nil _
  | inList resolved parsedValues =>
      rw [Ast.Expr.placeholders, noField resolved, Predicate.values_inList,
        placeholders_of_collect_parseValue parsedValues]
      rfl
  | isNull resolved =>
      rw [Ast.Expr.placeholders, noField resolved]
      rfl
  | isNotNull resolved =>
      rw [Ast.Expr.placeholders, noField resolved]
      rfl

theorem placeholders_of_parseAssignment {collection : String} {schema : SchemaProfile}
    {assignment : Ast.Assignment} {plan : AssignmentPlan}
    (parsed : parseAssignment collection schema assignment = .ok plan) :
    plan.value.placeholders = assignment.value.placeholders := by
  unfold parseAssignment at parsed
  split at parsed
  · simp only [bind_eq_ok_iff] at parsed
    obtain ⟨path, _, value, parsedValue, same⟩ := parsed
    cases same
    exact placeholders_of_parseValue parsedValue
  · cases parsed

theorem placeholders_of_lowerStatement {statement : Ast.Statement} {collection : String}
    {schema : SchemaProfile} {plan : StatementPlan}
    (lowered : lowerStatement statement collection schema = .ok plan) :
    plan.values.flatMap SqlValue.placeholders = statement.placeholders := by
  cases statement with
  | other text => cases lowered
  | query query =>
      obtain ⟨_, select, body, _, _, _, _, _, _, filtered, _, _, rfl⟩ :=
        parseSelect_eq_ok_iff.mp lowered
      rw [Ast.Statement.placeholders, body, Ast.SetExpr.placeholders]
      rcases transpose_eq_ok_iff.mp filtered with ⟨absent, rfl⟩ | ⟨_, _, present, parsed, rfl⟩
      · rw [absent]
        rfl
      · rw [present, Option.toList_some, List.flatMap_singleton,
          ← placeholders_of_parsePredicate parsed]
        simp [StatementPlan.values]
  | insert insert =>
      obtain ⟨_, _, _, columns, source, _, expressions, rows, _, given, _, body, _, parsed, rfl⟩ :=
        parseInsert_eq_ok_iff.mp lowered
      obtain ⟨_, parsed, _⟩ := collect_parseInsertRow_eq_ok_iff.mp parsed
      rw [Ast.Statement.placeholders, given, Option.toList_some, List.flatMap_singleton, body,
        Ast.SetExpr.placeholders, StatementPlan.values, ← @List.flatMap_id _ rows,
        List.flatMap_assoc]
      exact flatMap_of_collect parsed fun _ _ => placeholders_of_collect_parseValue
  | update update =>
      obtain ⟨_, _, _, assignments, expression, filter, parsed, given, filtered, _, _, rfl⟩ :=
        parseUpdate_eq_ok_iff.mp lowered
      rw [Ast.Statement.placeholders, given, Option.toList_some, List.flatMap_singleton,
        ← placeholders_of_parsePredicate filtered, StatementPlan.values, List.flatMap_append,
        List.flatMap_map, flatMap_of_collect parsed fun _ _ => placeholders_of_parseAssignment]
  | delete delete =>
      obtain ⟨_, _, expression, filter, given, filtered, _, rfl⟩ :=
        parseDelete_eq_ok_iff.mp lowered
      rw [Ast.Statement.placeholders, given, Option.toList_some, List.flatMap_singleton,
        ← placeholders_of_parsePredicate filtered]
      rfl

/-! ## Numbered placeholders -/

theorem parsePlaceholderIndex_placeholderName {index : Nat} (positive : 1 ≤ index)
    (fits : index < 2 ^ 64) : parsePlaceholderIndex (placeholderName index) = .ok index := by
  have letters : (placeholderName index).toList = '$' :: Nat.toDigits 10 index := by
    rw [placeholderName, String.toList_append, Nat.toString_eq_repr, Nat.toList_repr]
    rfl
  have read : Decimal.parseUnsigned (2 ^ 64 - 1) (String.ofList (Nat.toDigits 10 index)) =
      some index :=
    Decimal.parseUnsigned_toDigits (by omega)
  unfold parsePlaceholderIndex
  rw [letters]
  exact bind_eq_ok_iff.mpr ⟨index, okOr_eq_ok_iff.mpr read, if_neg (by omega)⟩

theorem placeholderName_injective {first second : Nat}
    (same : placeholderName first = placeholderName second) : first = second := by
  have digits : Nat.toDigits 10 first = Nat.toDigits 10 second := by
    have letters := congrArg String.toList same
    simpa [placeholderName, Nat.toList_repr] using letters
  rw [← @Nat.ofDigitChars_ten_toDigits first, digits, Nat.ofDigitChars_ten_toDigits]

theorem find?_zipIdx_placeholderName (literals : List Literal) (start index : Nat) :
    ((literals.zipIdx start).find? fun numbered =>
        placeholderName index = placeholderName numbered.2).map Prod.fst =
      if start ≤ index then literals[index - start]? else none := by
  induction literals generalizing start with
  | nil => simp
  | cons literal literals inductionHypothesis =>
      rw [List.zipIdx_cons, List.find?_cons]
      by_cases here : index = start
      · simp [here]
      · have other : placeholderName index ≠ placeholderName start :=
          fun same => here (placeholderName_injective same)
        rw [decide_eq_false other, inductionHypothesis]
        by_cases later : start + 1 ≤ index
        · rw [if_pos later, if_pos (by omega), ← List.getElem?_cons_succ]
          congr 1
          omega
        · rw [if_neg later, if_neg (by omega)]

theorem literalFor_placeholderName (literals : List Literal) {index : Nat} (positive : 1 ≤ index) :
    literalFor literals (placeholderName index) = literals[index - 1]? := by
  rw [literalFor, find?_zipIdx_placeholderName, if_pos positive]

section Numbered

variable {statement : Ast.Statement} {literals : List Literal} {collection : String}
  {schema : SchemaProfile} {lowered : StatementPlan}

theorem exists_index_of_mem_values (numbered : statement.Numbered literals.length)
    (lowers : lowerStatement statement collection schema = .ok lowered) {name : String}
    (membership : SqlValue.placeholder name ∈ lowered.values) :
    ∃ index, 1 ≤ index ∧ index ≤ literals.length ∧ name = placeholderName index := by
  apply numbered.within
  rw [← placeholders_of_lowerStatement lowers]
  exact List.mem_flatMap.mpr ⟨_, membership, List.mem_singleton_self name⟩

theorem boundValue_eq_replace (numbered : statement.Numbered literals.length)
    (fits : literals.length < 2 ^ 64)
    (lowers : lowerStatement statement collection schema = .ok lowered) :
    ∀ value ∈ lowered.values, Bindable (literals.map Literal.value) value ∧
      boundValue (literals.map Literal.value) value = Literal.replace literals value := by
  intro value membership
  rw [← @eq_comm _ (Literal.replace literals value), ← bindValue_eq_ok_iff]
  cases value with
  | placeholder name =>
      obtain ⟨index, positive, bounded, rfl⟩ :=
        exists_index_of_mem_values numbered lowers membership
      have found : literals[index - 1]? = some literals[index - 1] :=
        List.getElem?_eq_getElem (by omega)
      rw [bindValue, parsePlaceholderIndex_placeholderName positive (by omega), Literal.replace,
        literalFor_placeholderName literals positive, found]
      apply okOr_eq_ok_iff.mpr
      rw [List.getElem?_map, found]
      rfl
  | _ => rfl

theorem maximumPlaceholderIndex_of_numbered (numbered : statement.Numbered literals.length)
    (fits : literals.length < 2 ^ 64)
    (lowers : lowerStatement statement collection schema = .ok lowered) :
    maximumPlaceholderIndex lowered = .ok literals.length := by
  rw [maximumPlaceholderIndex_eq, tryMaximum_eq_ok_iff]
  constructor
  · intro value membership
    cases value with
    | placeholder name =>
        obtain ⟨index, positive, bounded, rfl⟩ :=
          exists_index_of_mem_values numbered lowers membership
        exact ⟨index, bounded, parsePlaceholderIndex_placeholderName positive (by omega)⟩
    | _ => exact ⟨0, Nat.zero_le _, rfl⟩
  · by_cases none : literals.length = 0
    · exact .inl none
    · right
      have last := numbered.largest none
      rw [← placeholders_of_lowerStatement lowers, List.mem_flatMap] at last
      obtain ⟨value, membership, named⟩ := last
      cases value with
      | placeholder name =>
          rw [SqlValue.placeholders, List.mem_singleton] at named
          subst named
          exact ⟨_, membership, parsePlaceholderIndex_placeholderName (by omega) fits⟩
      | _ => cases named

/-- Binding parameters to a lowered statement is lowering it with the literals written out: one
succeeds when the other does, with the same plan.  The list of parameters is no longer than a
slice can be. -/
theorem lowerStatement_substitute_iff_bindParameters
    (numbered : statement.Numbered literals.length) (fits : literals.length < 2 ^ 64)
    (plan : StatementPlan) :
    lowerStatement (statement.substitute literals) collection schema = .ok plan ↔
      ∃ lowered, lowerStatement statement collection schema = .ok lowered ∧
        bindParameters lowered (literals.map Literal.value) schema = .ok plan := by
  rw [lowerStatement_substitute_eq_ok_iff]
  apply exists_congr
  intro lowered
  apply and_congr_right
  intro lowers
  have values : (literals.map Literal.value).any SqlValue.isPlaceholder = false := by
    simp [Literal.isPlaceholder_value]
  have bound := boundValue_eq_replace numbered fits lowers
  have replaced : lowered.mapValues (boundValue (literals.map Literal.value)) =
      lowered.mapValues (Literal.replace literals) :=
    StatementPlan.mapValues_congr fun value membership => (bound value membership).2
  rw [bindParameters_eq_ok_iff, bindPlan_eq_ok_iff, replaced, List.length_map,
    maximumPlaceholderIndex_of_numbered numbered fits lowers]
  constructor
  · rintro ⟨same, validated⟩
    exact ⟨values, rfl, ⟨fun value membership => (bound value membership).1, same⟩, validated⟩
  · rintro ⟨_, _, ⟨_, same⟩, validated⟩
    exact ⟨same, validated⟩

end Numbered

section Example

private def named : SchemaProfile where
  profileVersion := 1
  sampledDocuments := 1
  fields := [⟨⟨["name"]⟩, 1, 0, {.string}, {.scalar}, false⟩]

/-- `UPDATE customers SET name = $2 WHERE name = $1` -/
private def renameNamed : Ast.Statement :=
  .updateWhere "customers" [⟨.columnName [.new "name"], .value (.placeholder "$2")⟩]
    (.binaryOp (.identifier (.new "name")) .eq (.value (.placeholder "$1")))

private theorem numbered_renameNamed : renameNamed.Numbered 2 where
  within := by
    change ∀ name ∈ ["$2", "$1"], _
    rw [List.forall_mem_cons, List.forall_mem_singleton]
    exact ⟨⟨2, by omega, by omega, rfl⟩, ⟨1, by omega, by omega, rfl⟩⟩
  largest := fun _ => List.mem_cons_self

/-- `UPDATE customers SET name = NULL WHERE name = 'Amina'` -/
private def renamedNamed : StatementPlan :=
  .update ⟨"customers", [⟨⟨["name"]⟩, .null⟩], .compare ⟨["name"]⟩ .equal (.string "Amina")⟩

theorem lowerStatement_substitute_renameNamed :
    lowerStatement (renameNamed.substitute [.string "Amina", .null]) "customers" named =
        .ok renamedNamed ↔
      ∃ lowered, lowerStatement renameNamed "customers" named = .ok lowered ∧
        bindParameters lowered [.string "Amina", .null] named = .ok renamedNamed :=
  @lowerStatement_substitute_iff_bindParameters renameNamed [.string "Amina", .null] "customers"
    named numbered_renameNamed (by decide) renamedNamed

example : lowerStatement (renameNamed.substitute [.string "Amina", .null]) "customers" named =
    .ok renamedNamed := rfl

end Example

end Mongres
