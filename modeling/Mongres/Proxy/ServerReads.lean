import Mongres.Executor.Limits
import Mongres.Executor.SqlMeaning
import Mongres.Mongo.Server
import Mongres.Proxy.Projections
import Mongres.Proxy.UpdateDocuments

/-!
# What a server reads

Every filter, projection and update that the executor builds over plain names is one whose
reading a server documents, so the server reads it as the plan means it.
-/

namespace Mongres

open Fallible Nesting Text

/-! ## Filters -/

theorem ComparisonOperator.documented (operator : ComparisonOperator) (name : String)
    (operand : Bson) : (MatchExpression.field name operator.mongoName operand).Documented := by
  by_cases negative : operator = .notEqual
  · subst negative
    exact .notEqual
  · apply MatchExpression.Documented.ordered
    exact List.mem_map.mpr ⟨_, ComparisonOperator.mem_orderOperators negative, rfl⟩

theorem documented_of_allReadAs {predicates : List Predicate} {expressions : List MatchExpression}
    (trees : Predicate.AllReadAs predicates expressions)
    (each : ∀ predicate ∈ predicates, ∀ expression, predicate.ReadAs expression →
      expression.Documented) : ∀ expression ∈ expressions, expression.Documented := by
  have paired := (List.forall₂_and_left _ _).mpr ⟨each, allReadAs_iff_forall₂.mp trees⟩
  induction paired with
  | nil => simp
  | cons first _ inductionHypothesis =>
      rw [List.forall_mem_cons] at each
      rw [List.forall_mem_cons]
      exact ⟨first.1 _ first.2, inductionHypothesis trees.2 each.2⟩

theorem documented_of_readAs {predicate : Predicate} {expression : MatchExpression}
    (translates : predicate.Translates) (tree : predicate.ReadAs expression) :
    expression.Documented := by
  have joined {predicates : List Predicate} {expressions : List MatchExpression} {operator : String}
      (known : operator ∈ ["$and", "$or"]) (nonempty : predicates ≠ [])
      (trees : Predicate.AllReadAs predicates expressions)
      (each : ∀ expression ∈ expressions, expression.Documented) :
      (MatchExpression.allOf [.logical operator expressions]).Documented := by
    apply MatchExpression.Documented.allOf
    rw [List.forall_mem_singleton]
    apply MatchExpression.Documented.logical known _ each
    rintro rfl
    exact nonempty (List.forall₂_nil_right_iff.mp (allReadAs_iff_forall₂.mp trees))
  induction predicate using Predicate.listInduction generalizing expression with
  | compare path operator value =>
      obtain ⟨operand, _, rfl⟩ := tree
      apply MatchExpression.Documented.allOf
      rw [List.forall_mem_singleton]
      exact operator.documented path.displayName operand
  | inList path values negated =>
      obtain ⟨operands, _, rfl⟩ := tree
      apply MatchExpression.Documented.allOf
      rw [List.forall_mem_singleton]
      apply MatchExpression.Documented.membership
      cases negated <;> decide
  | isNull path negated =>
      cases tree
      have checked : (MatchExpression.field path.displayName
          (if negated then "$ne" else "$eq") .null).Documented := by
        cases negated with
        | true => exact .notEqual
        | false => exact .ordered (by decide)
      apply MatchExpression.Documented.allOf
      rw [List.forall_mem_singleton]
      apply MatchExpression.Documented.logical (by decide) (List.cons_ne_nil _ _)
      rw [List.forall_mem_cons, List.forall_mem_singleton]
      constructor
      · exact .allOf (List.forall_mem_singleton.mpr checked)
      · exact .allOf (List.forall_mem_singleton.mpr .present)
  | and predicates inductionHypothesis =>
      obtain ⟨operands, rfl, trees⟩ := tree
      obtain ⟨nonempty, each⟩ := Predicate.translates_and_iff.mp translates
      apply joined (by decide) nonempty trees
      apply documented_of_allReadAs trees
      intro predicate membership expression tree
      exact inductionHypothesis predicate membership (each predicate membership) tree
  | or predicates inductionHypothesis =>
      obtain ⟨operands, rfl, trees⟩ := tree
      obtain ⟨nonempty, each⟩ := Predicate.translates_or_iff.mp translates
      apply joined (by decide) nonempty trees
      apply documented_of_allReadAs trees
      intro predicate membership expression tree
      exact inductionHypothesis predicate membership (each predicate membership) tree

/-- A predicate that means the same in SQL and in MongoDB for the documents of a collection: its
paths are plain, every document can be compared, and no `<>` or `NOT IN` on a null or missing
field decides it. -/
structure Predicate.HasSqlMeaning (predicate : Predicate) (documents : List StoredDocument) :
    Prop where
  plain : ∀ condition ∈ predicate.conditions, condition.path.IsPlain
  comparable : ∀ document ∈ documents, ∀ condition ∈ predicate.conditions,
    condition.IsComparable document
  strict : ∀ document ∈ documents, ¬ predicate.IsWidened document

section Filters

variable (server : Server) {documents : List StoredDocument}

/-- The filter of a predicate over plain names is compiled to a test that matches as MongoDB
matches the predicate's conditions. -/
theorem Server.exists_compileFilter {predicate : Predicate} {filter : Document}
    (translated : predicateDocument predicate = .ok filter)
    (plain : ∀ condition ∈ predicate.conditions, condition.path.IsPlain) :
    ∃ accepts, server.compileFilter filter = .ok accepts ∧
      ∀ document, (∀ condition ∈ predicate.conditions, condition.IsComparable document) →
        (accepts document = true ↔ predicate.MatchedOn document) := by
  have tree : predicate.ReadAs (readFilter filter) :=
    (readAs_readFilter_iff translated).mpr fun condition membership =>
      (plain condition membership).isOperatorKey_displayName
  have translates := (exists_predicateDocument_iff_translates predicate).mp ⟨filter, translated⟩
  obtain ⟨accepts, compiled, reads⟩ :=
    server.filters_documented filter (documented_of_readAs translates tree)
  refine ⟨accepts, compiled, ?_⟩
  intro document comparable
  rw [reads, matches_of_readAs server.filters tree comparable]

theorem Predicate.matchedOn_iff_of_not_isWidened {predicate : Predicate}
    {document : StoredDocument} (strict : ¬ predicate.IsWidened document) :
    predicate.MatchedOn document ↔ predicate.truth document = .true := by
  have same := (Formula.holds_iff_holds_iff (fun _ => .inl) predicate.formula).mpr strict
  rw [Predicate.MatchedOn, same, Predicate.truth, Formula.eval_eq_true_iff]

theorem Server.accepts_of_hasSqlMeaning {predicate : Predicate} {filter : Document}
    (translated : predicateDocument predicate = .ok filter)
    (means : predicate.HasSqlMeaning documents) :
    ∃ accepts, server.compileFilter filter = .ok accepts ∧
      ∀ document ∈ documents, (accepts document = true ↔ predicate.truth document = .true) := by
  obtain ⟨accepts, compiled, reads⟩ := server.exists_compileFilter translated means.plain
  refine ⟨accepts, compiled, ?_⟩
  intro document membership
  rw [reads document (means.comparable document membership)]
  exact Predicate.matchedOn_iff_of_not_isWidened (means.strict document membership)

end Filters

/-! ## Names -/

/-- A path that can be sent by its dotted name: of named parts, without dots and operators. -/
def FieldPath.Sendable (path : FieldPath) : Prop := path.Undotted ∧ path.Settable

instance (path : FieldPath) : Decidable path.Sendable :=
  inferInstanceAs (Decidable (_ ∧ _ ∧ ∀ segment ∈ path.segments, _ ∧ _))

theorem FieldPath.Sendable.isFieldPath {path : FieldPath} (sendable : path.Sendable) :
    IsFieldPath path.segments := by
  intro segment membership
  obtain ⟨nonempty, plain⟩ := sendable.2.2 segment membership
  exact ⟨nonempty, fun operator => absurd operator plain⟩

/-- Selected fields of which none is above another are projected to what keeps the values at
their paths. -/
theorem exists_project_of_sendable (mongo : ProjectionSemantics) {fields : List ProjectedField}
    (sendable : ∀ field ∈ fields, field.path.Sendable)
    (apart : ∀ one ∈ fields, ∀ two ∈ fields, ¬ one.path.IsAncestor two.path)
    {projection : Document}
    (projected : projectionDocument (.fields fields) = .ok (some projection)) :
    ∃ keeps, mongo.project projection = .ok keeps ∧
      ∀ document : StoredDocument, ∀ field ∈ fields,
        valueAtPath (keeps document) field.path.segments =
          valueAtPath document.fields field.path.segments :=
  exists_project mongo (fun field membership => (sendable field membership).1)
    (fun field membership => (sendable field membership).2.1)
    (fun field membership => (sendable field membership).isFieldPath) apart projected

theorem assigned_of_updateDocument (mongo : SetSemantics) {assignments : List AssignmentPlan}
    (undotted : ∀ assignment ∈ assignments, assignment.path.Undotted)
    (others : ∀ assignment ∈ assignments, assignment.path.segments.head? ≠ some "_id")
    {update : Document} (updated : updateDocument assignments = .ok update) :
    ∃ set, update = [("$set", .document set)] ∧
      ∀ before after : StoredDocument,
        (∀ assignment ∈ assignments,
          Passable (Bson.document before.fields) assignment.path.segments) →
        mongo.set set before = some after → Assigned assignments before after := by
  obtain ⟨nonempty, settable, apart, set, names, rfl⟩ :=
    (updateDocument_eq_ok_iff undotted).mp updated
  refine ⟨set, rfl, ?_⟩
  intro before after passable applied
  have admits : Admits assignments before := ⟨passable, fun assignment membership within =>
    absurd within (others assignment membership)⟩
  obtain ⟨expected, applies, places⟩ :=
    exists_set_of_admits mongo nonempty undotted settable apart names admits
  cases Option.some.inj (applied.symm.trans applies)
  exact assigned_of_places undotted settable names places

end Mongres
