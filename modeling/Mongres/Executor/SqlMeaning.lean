import Mongres.Executor.FieldNames
import Mongres.Executor.FilterGrammar
import Mongres.Mongo.Matching
import Mongres.Sql.Truth

/-!
# Filters and the SQL meaning of their predicates

A filter matches the documents on which its predicate is true, and also those on
which a `<>` or a `NOT IN` meets a null or missing field and decides the predicate.
-/

namespace Mongres

open Fallible Text

/-- A path whose name is read back as its segments and never as an operator. -/
structure FieldPath.IsPlain (path : FieldPath) : Prop where
  nonempty : path.segments ≠ []
  noDots : ∀ segment ∈ path.segments, '.' ∉ segment.toList
  noDollars : ∀ segment ∈ path.segments, segment.toList.head? ≠ some '$'

theorem FieldPath.IsPlain.splitOn_displayName {path : FieldPath} (plain : path.IsPlain) :
    splitOn '.' path.displayName = path.segments :=
  (splitOn_join_iff '.' plain.nonempty).mpr plain.noDots

theorem FieldPath.IsPlain.isOperatorKey_displayName {path : FieldPath} (plain : path.IsPlain) :
    isOperatorKey path.displayName = false := by
  rw [← Bool.not_eq_true, isOperatorKey_displayName_iff]
  rintro ⟨key, first, dollar⟩
  apply plain.noDollars key (List.mem_of_mem_head? first)
  exact (isOperatorKey_eq_true_iff key).mp dollar

/-- A document in which a condition's field is missing, null, or of the type of the
condition's literals, and is not reached through an array. -/
structure Condition.Suits (condition : Condition) (document : StoredDocument) : Prop where
  noArray : ∀ start, start <+: condition.path.segments → ∀ values,
    document.valueAt start ≠ some (.array values)
  defined : document.valueAt condition.path.segments ≠ some .undefined
  typed : ∀ stored, document.valueAt condition.path.segments = some stored → stored ≠ .null →
    ∀ literal ∈ condition.values, stored.HasTypeOf literal

theorem Condition.Suits.reads {condition : Condition} {document : StoredDocument}
    (suits : condition.Suits document) (plain : condition.path.IsPlain) :
    document.Reads condition.path.displayName (document.valueAt condition.path.segments) where
  found := by rw [plain.splitOn_displayName]
  noArray := by
    rw [plain.splitOn_displayName]
    exact suits.noArray
  defined := suits.defined

/-! ## Operands -/

theorem isLiteral_of_bsonValue {literal : SqlValue} {operand : Bson}
    (converted : bsonValue literal = .ok operand) (nonNull : literal ≠ .null) :
    operand.IsLiteral := by
  cases literal with
  | null => exact absurd rfl nonNull
  | placeholder name => cases converted
  | _ =>
      cases converted
      simp [Bson.IsLiteral, Bson.elementType]

/-- MongoDB orders a stored value and a translated literal as SQL does. -/
theorem order_bsonValue {literal : SqlValue} {operand : Bson}
    (converted : bsonValue literal = .ok operand) (stored : Bson) :
    stored.order operand = stored.sqlOrder literal := by
  cases literal with
  | placeholder name => cases converted
  | _ =>
      cases converted
      cases stored <;> simp [Bson.order, Bson.sqlOrder, Bson.sqlValue, SqlValue.order]

theorem ComparisonOperator.mem_orderOperators {operator : ComparisonOperator}
    (positive : operator ≠ .notEqual) :
    (operator.mongoName, operator.admits) ∈ orderOperators := by
  cases operator with
  | notEqual => exact absurd rfl positive
  | equal => exact List.mem_cons_self
  | greaterThan => exact List.mem_cons_of_mem _ List.mem_cons_self
  | greaterThanOrEqual => exact List.mem_of_getElem? (i := 2) rfl
  | lessThan => exact List.mem_of_getElem? (i := 3) rfl
  | lessThanOrEqual => exact List.mem_of_getElem? (i := 4) rfl

/-! ## Conditions -/

section Conditions

variable {held : Option Bson} {literal : SqlValue}

theorem truth_compare_of_lacksValue (lacks : lacksValue held = true) (path : FieldPath)
    (operator : ComparisonOperator) (literal : SqlValue) :
    (Condition.compare path operator literal).truth held = .unknown := by
  cases held with
  | none => rfl
  | some stored => cases stored <;> first | rfl | cases lacks

theorem truth_inList_of_lacksValue (lacks : lacksValue held = true) (path : FieldPath)
    (literals : List SqlValue) (negated : Bool) :
    (Condition.inList path literals negated).truth held = .unknown := by
  cases held with
  | none => rfl
  | some stored => cases stored <;> first | rfl | cases lacks

theorem exists_stored_of_not_lacksValue (holds : lacksValue held = false) :
    ∃ stored, held = some stored ∧ stored ≠ .null := by
  cases held with
  | none => cases holds
  | some stored =>
      refine ⟨stored, rfl, ?_⟩
      rintro rfl
      cases holds

theorem truth_compare_of_stored {stored : Bson} (notNull : stored ≠ .null) (path : FieldPath)
    (operator : ComparisonOperator) (literal : SqlValue) :
    (Condition.compare path operator literal).truth (some stored) =
      stored.compares operator literal := by
  cases stored with
  | null => exact absurd rfl notNull
  | _ => rfl

theorem truth_inList_of_stored {stored : Bson} (notNull : stored ≠ .null) {path : FieldPath}
    {literals : List SqlValue} (typed : ∀ literal ∈ literals, stored.HasTypeOf literal)
    (negated : Bool) :
    (Condition.inList path literals negated).truth (some stored) =
      .ofBool (literals.any (fun literal => stored.sqlOrder literal == some .eq) != negated) := by
  have known : literals.map (stored.compares .equal) =
      literals.map fun literal => Truth.ofBool (stored.sqlOrder literal == some .eq) := by
    apply List.map_congr_left
    intro literal membership
    obtain ⟨order, ordered⟩ := (typed literal membership).exists_sqlOrder
    rw [Bson.compares_of_sqlOrder ordered, ordered]
    cases order <;> rfl
  have found : (Condition.inList path literals negated).truth (some stored) =
      if negated then (Truth.any (literals.map (stored.compares .equal))).not
      else Truth.any (literals.map (stored.compares .equal)) := by
    cases stored with
    | null => exact absurd rfl notNull
    | _ => rfl
  rw [found, known, Truth.any_map_ofBool]
  cases negated <;> simp

end Conditions

/-- What MongoDB matches for a condition: the fields on which it is true, and every
null or missing field for a condition that tells values apart. -/
def Condition.MatchedOn (held : Option Bson) (condition : Condition) : Prop :=
  condition.truth held = .true ∨ (condition.tellsApart = true ∧ lacksValue held = true)

section Matching

variable (mongo : FilterSemantics) {document : StoredDocument} {path : FieldPath}
  {held : Option Bson}

theorem matches_comparison_iff (reads : document.Reads path.displayName held)
    {literal : SqlValue} {operand : Bson} (converted : bsonValue literal = .ok operand)
    (nonNull : literal ≠ .null)
    (typed : ∀ stored, held = some stored → stored ≠ .null → stored.HasTypeOf literal)
    {operator : ComparisonOperator} (positive : operator ≠ .notEqual) :
    mongo.Matches document (.field path.displayName operator.mongoName operand) ↔
      (Condition.compare path operator literal).truth held = .true := by
  have comparison := ComparisonOperator.mem_orderOperators positive
  cases lacks : lacksValue held with
  | true =>
      rw [truth_compare_of_lacksValue lacks]
      refine iff_of_false ?_ (by decide)
      exact mongo.lacking document _ held reads lacks _ comparison operand
        (isLiteral_of_bsonValue converted nonNull)
  | false =>
      obtain ⟨stored, rfl, notNull⟩ := exists_stored_of_not_lacksValue lacks
      obtain ⟨order, ordered⟩ := (typed stored rfl notNull).exists_sqlOrder
      have stands := (order_bsonValue converted stored).trans ordered
      rw [truth_compare_of_stored notNull, Bson.compares_of_sqlOrder ordered, Truth.ofBool_eq_true]
      exact mongo.ordered document _ stored reads operand order stands _ comparison

theorem matches_compare_iff (reads : document.Reads path.displayName held)
    {literal : SqlValue} {operand : Bson} (converted : bsonValue literal = .ok operand)
    (nonNull : literal ≠ .null)
    (typed : ∀ stored, held = some stored → stored ≠ .null → stored.HasTypeOf literal)
    (operator : ComparisonOperator) :
    mongo.Matches document (.field path.displayName operator.mongoName operand) ↔
      (Condition.compare path operator literal).MatchedOn held := by
  by_cases negative : operator = .notEqual
  · subst negative
    rw [ComparisonOperator.mongoName, mongo.notEqual]
    have equal := matches_comparison_iff mongo reads converted nonNull typed
      (by decide : ComparisonOperator.equal ≠ .notEqual)
    rw [ComparisonOperator.mongoName] at equal
    rw [equal, Condition.MatchedOn]
    cases lacks : lacksValue held with
    | true => simp [truth_compare_of_lacksValue lacks, Condition.tellsApart]
    | false =>
        obtain ⟨stored, rfl, notNull⟩ := exists_stored_of_not_lacksValue lacks
        obtain ⟨order, ordered⟩ := (typed stored rfl notNull).exists_sqlOrder
        rw [truth_compare_of_stored notNull, truth_compare_of_stored notNull,
          Bson.compares_of_sqlOrder ordered, Bson.compares_of_sqlOrder ordered]
        cases order <;> simp [ComparisonOperator.admits]
  · rw [matches_comparison_iff mongo reads converted nonNull typed negative, Condition.MatchedOn]
    have positive : (Condition.compare path operator literal).tellsApart = false := by
      cases operator <;> first | rfl | exact absurd rfl negative
    simp [positive]

theorem matches_oneOf_iff (reads : document.Reads path.displayName held)
    {literals : List SqlValue} {operands : List Bson}
    (converted : collect bsonValue literals = .ok operands) (nonNull : .null ∉ literals)
    (typed : ∀ stored, held = some stored → stored ≠ .null →
      ∀ literal ∈ literals, stored.HasTypeOf literal) :
    mongo.Matches document (.field path.displayName "$in" (.array operands)) ↔
      ∃ literal ∈ literals, (Condition.compare path .equal literal).truth held = .true := by
  have literal : ∀ operand ∈ operands, operand.IsLiteral := by
    intro operand membership
    obtain ⟨literal, literalMembership, translated⟩ := exists_of_mem_collect converted membership
    apply isLiteral_of_bsonValue translated
    rintro rfl
    exact nonNull literalMembership
  have equal {literal : SqlValue} {operand : Bson} (membership : literal ∈ literals)
      (translated : bsonValue literal = .ok operand) :
      mongo.Matches document (.field path.displayName "$eq" operand) ↔
        (Condition.compare path .equal literal).truth held = .true := by
    refine matches_comparison_iff mongo reads translated (ne_of_mem_of_not_mem membership nonNull)
      ?_ (by decide : ComparisonOperator.equal ≠ .notEqual)
    intro stored same notNull
    exact typed stored same notNull literal membership
  rw [mongo.oneOf document _ operands literal]
  constructor
  · rintro ⟨operand, membership, matched⟩
    obtain ⟨literal, literalMembership, translated⟩ := exists_of_mem_collect converted membership
    exact ⟨literal, literalMembership, (equal literalMembership translated).mp matched⟩
  · rintro ⟨literal, literalMembership, holds⟩
    obtain ⟨operand, membership, translated⟩ := exists_mem_of_collect converted literalMembership
    exact ⟨operand, membership, (equal literalMembership translated).mpr holds⟩

theorem matchedOn_inList_iff {literals : List SqlValue}
    (typed : ∀ stored, held = some stored → stored ≠ .null →
      ∀ literal ∈ literals, stored.HasTypeOf literal) (negated : Bool) :
    (Condition.inList path literals negated).MatchedOn held ↔
      ((∃ literal ∈ literals, (Condition.compare path .equal literal).truth held = .true) ↔
        negated = false) := by
  rw [Condition.MatchedOn]
  cases lacks : lacksValue held with
  | true =>
      simp only [truth_compare_of_lacksValue lacks, truth_inList_of_lacksValue lacks]
      cases negated <;> simp [Condition.tellsApart]
  | false =>
      obtain ⟨stored, rfl, notNull⟩ := exists_stored_of_not_lacksValue lacks
      have each := typed stored rfl notNull
      have equal : (∃ literal ∈ literals,
          (Condition.compare path .equal literal).truth (some stored) = .true) ↔
          literals.any (fun literal => stored.sqlOrder literal == some .eq) = true := by
        rw [List.any_eq_true]
        apply exists_congr
        intro literal
        apply and_congr_right
        intro membership
        obtain ⟨order, ordered⟩ := (each literal membership).exists_sqlOrder
        rw [truth_compare_of_stored notNull, Bson.compares_of_sqlOrder ordered, ordered]
        cases order <;> decide
      rw [equal, truth_inList_of_stored notNull each]
      cases literals.any fun literal => stored.sqlOrder literal == some .eq <;>
        cases negated <;> simp

theorem matches_inList_iff (reads : document.Reads path.displayName held)
    {literals : List SqlValue} {operands : List Bson}
    (converted : collect bsonValue literals = .ok operands) (nonNull : .null ∉ literals)
    (typed : ∀ stored, held = some stored → stored ≠ .null →
      ∀ literal ∈ literals, stored.HasTypeOf literal) (negated : Bool) :
    mongo.Matches document
        (.field path.displayName (if negated then "$nin" else "$in") (.array operands)) ↔
      (Condition.inList path literals negated).MatchedOn held := by
  have found := matches_oneOf_iff mongo reads converted nonNull typed
  rw [matchedOn_inList_iff typed, ← found]
  cases negated with
  | true => simp [mongo.noneOf]
  | false => simp

theorem matches_isNull_iff (reads : document.Reads path.displayName held) (negated : Bool) :
    mongo.Matches document
        (.allOf [.logical "$and"
          [.allOf [.field path.displayName (if negated then "$ne" else "$eq") .null],
            .allOf [.field path.displayName "$exists" (.boolean true)]]]) ↔
      (Condition.isNull path negated).MatchedOn held := by
  have isNull := mongo.equalNull document _ held reads
  have present := mongo.present document _ held reads
  have checked : mongo.Matches document
      (.field path.displayName (if negated then "$ne" else "$eq") .null) ↔
      lacksValue held = !negated := by
    cases negated with
    | true =>
        rw [if_pos rfl, mongo.notEqual, isNull]
        simp
    | false => simpa using isNull
  simp only [mongo.allOf, mongo.conjunction, List.forall_mem_cons, checked, present,
    Condition.MatchedOn, Condition.tellsApart, Bool.false_eq_true, false_and, or_false]
  cases held with
  | none => simp [Condition.truth]
  | some stored => cases stored <;> cases negated <;> simp [Condition.truth, lacksValue]

end Matching

/-! ## Predicates -/

/-- A condition of a predicate that can be translated and evaluated on a document. -/
structure Condition.IsComparable (condition : Condition) (document : StoredDocument) : Prop where
  plain : condition.path.IsPlain
  nonNull : .null ∉ condition.values
  suits : condition.Suits document

section Lists

variable {Left Right : Type} {first : Left → Prop} {second : Right → Prop} {left : List Left}
  {right : List Right}

theorem forall_mem_iff_of_forall₂
    (related : List.Forall₂ (fun a b => first a ↔ second b) left right) :
    (∀ item ∈ left, first item) ↔ ∀ item ∈ right, second item := by
  induction related with
  | nil => simp
  | cons same _ inductionHypothesis =>
      rw [List.forall_mem_cons, List.forall_mem_cons, same, inductionHypothesis]

theorem exists_mem_iff_of_forall₂
    (related : List.Forall₂ (fun a b => first a ↔ second b) left right) :
    (∃ item ∈ left, first item) ↔ ∃ item ∈ right, second item := by
  induction related with
  | nil => simp
  | cons same _ inductionHypothesis =>
      rw [List.exists_mem_cons_iff, List.exists_mem_cons_iff, same, inductionHypothesis]

end Lists

/-- What MongoDB matches for a predicate, given what it matches for the conditions. -/
def Predicate.MatchedOn (document : StoredDocument) (predicate : Predicate) : Prop :=
  predicate.formula.Holds fun condition =>
    condition.MatchedOn (document.valueAt condition.path.segments)

theorem forall₂_matches {mongo : FilterSemantics} {document : StoredDocument}
    {predicates : List Predicate} {expressions : List MatchExpression}
    (trees : Predicate.AllReadAs predicates expressions)
    (each : ∀ predicate ∈ predicates, ∀ expression, predicate.ReadAs expression →
      (mongo.Matches document expression ↔ predicate.MatchedOn document)) :
    List.Forall₂ (fun expression predicate =>
      mongo.Matches document expression ↔ predicate.MatchedOn document) expressions predicates := by
  have paired := (List.forall₂_and_left _ _).mpr ⟨each, allReadAs_iff_forall₂.mp trees⟩
  apply List.Forall₂.flip
  apply paired.imp
  rintro predicate expression ⟨matched, tree⟩
  exact matched expression tree

/-- A filter with the tree of a predicate matches as its conditions do. -/
theorem matches_of_readAs (mongo : FilterSemantics) {document : StoredDocument}
    {predicate : Predicate} {expression : MatchExpression} (tree : predicate.ReadAs expression)
    (comparable : ∀ condition ∈ predicate.conditions, condition.IsComparable document) :
    mongo.Matches document expression ↔ predicate.MatchedOn document := by
  induction predicate using Predicate.listInduction generalizing expression with
  | compare path operator literal =>
      obtain ⟨operand, converted, rfl⟩ := tree
      obtain ⟨plain, nonNull, suits⟩ := comparable _ List.mem_cons_self
      rw [mongo.allOf, List.forall_mem_singleton, Predicate.MatchedOn, Predicate.formula,
        Formula.holds_leaf]
      refine matches_compare_iff mongo (suits.reads plain) converted ?_ ?_ operator
      · rintro rfl
        exact nonNull List.mem_cons_self
      · intro stored found notNull
        exact suits.typed stored found notNull literal List.mem_cons_self
  | inList path literals negated =>
      obtain ⟨operands, converted, rfl⟩ := tree
      obtain ⟨plain, nonNull, suits⟩ := comparable _ List.mem_cons_self
      rw [mongo.allOf, List.forall_mem_singleton, Predicate.MatchedOn, Predicate.formula,
        Formula.holds_leaf]
      exact matches_inList_iff mongo (suits.reads plain) converted nonNull suits.typed negated
  | isNull path negated =>
      obtain ⟨plain, _, suits⟩ := comparable _ List.mem_cons_self
      cases tree
      rw [Predicate.MatchedOn, Predicate.formula, Formula.holds_leaf]
      exact matches_isNull_iff mongo (suits.reads plain) negated
  | and predicates inductionHypothesis =>
      obtain ⟨expressions, rfl, trees⟩ := tree
      rw [Predicate.conditions, Predicate.forall_mem_conditionsOf_iff] at comparable
      rw [mongo.allOf, List.forall_mem_singleton, mongo.conjunction, Predicate.MatchedOn,
        Predicate.formula, Predicate.formulas_eq_map, Formula.holds_all, List.forall_mem_map]
      apply forall_mem_iff_of_forall₂
      apply forall₂_matches trees
      intro predicate membership expression tree
      exact inductionHypothesis predicate membership tree (comparable predicate membership)
  | or predicates inductionHypothesis =>
      obtain ⟨expressions, rfl, trees⟩ := tree
      rw [Predicate.conditions, Predicate.forall_mem_conditionsOf_iff] at comparable
      rw [mongo.allOf, List.forall_mem_singleton, mongo.disjunction, Predicate.MatchedOn,
        Predicate.formula, Predicate.formulas_eq_map, Formula.holds_any]
      simp only [List.mem_map, exists_exists_and_eq_and]
      apply exists_mem_iff_of_forall₂
      apply forall₂_matches trees
      intro predicate membership expression tree
      exact inductionHypothesis predicate membership tree (comparable predicate membership)

/-- A `<>` or `NOT IN` on a null or missing field decides a predicate that is not true. -/
def Predicate.IsWidened (predicate : Predicate) (document : StoredDocument) : Prop :=
  predicate.formula.Widened
    (fun condition => condition.truth (document.valueAt condition.path.segments) = .true)
    (fun condition => condition.MatchedOn (document.valueAt condition.path.segments))

/-- The filter of a predicate matches exactly the documents on which the predicate is
true, unless a `<>` or `NOT IN` on a null or missing field decides it. -/
theorem matches_predicateDocument_iff (mongo : FilterSemantics) (document : StoredDocument)
    (predicate : Predicate) (filter : Document)
    (translated : predicateDocument predicate = .ok filter)
    (comparable : ∀ condition ∈ predicate.conditions, condition.IsComparable document) :
    (mongo.Matches document (readFilter filter) ↔ predicate.truth document = .true) ↔
      ¬ predicate.IsWidened document := by
  have tree : predicate.ReadAs (readFilter filter) :=
    (readAs_readFilter_iff translated).mpr fun condition membership =>
      (comparable condition membership).plain.isOperatorKey_displayName
  rw [matches_of_readAs mongo tree comparable, Predicate.MatchedOn, Predicate.truth,
    Formula.eval_eq_true_iff]
  exact Formula.holds_iff_holds_iff (fun _ => .inl) _

section Example

private def statusDiffers : Predicate := .compare ⟨["status"]⟩ .notEqual (.string "closed")

private def withoutStatus : StoredDocument where
  fields := [("id", .int32 1)]

private def openStatus : StoredDocument where
  fields := [("id", .int32 1), ("status", .string "open")]

private theorem isComparable_statusDiffers {document : StoredDocument}
    (text : ∀ stored, document.valueAt ["status"] = some stored →
      ∃ status, stored = .string status) :
    ∀ condition ∈ statusDiffers.conditions, condition.IsComparable document := by
  intro condition membership
  cases List.mem_singleton.mp membership
  refine ⟨⟨by decide, by decide, by decide⟩, by decide, ?_, ?_, ?_⟩
  · intro start leads values found
    rcases List.prefix_cons_iff.mp leads with rfl | ⟨rest, rfl, empty⟩
    · rw [StoredDocument.valueAt, Nested.descend_nil] at found
      cases found
    · cases List.prefix_nil.mp empty
      obtain ⟨status, same⟩ := text _ found
      cases same
  · intro undefined
    obtain ⟨status, same⟩ := text _ undefined
    cases same
  · intro stored found _ literal membership
    obtain ⟨status, rfl⟩ := text stored found
    cases List.mem_singleton.mp membership
    trivial

theorem matches_predicateDocument_open :
    (FilterSemantics.ofDocuments.Matches openStatus
        (readFilter [("status", .document [("$ne", .string "closed")])]) ↔
      statusDiffers.truth openStatus = .true) ↔ ¬ statusDiffers.IsWidened openStatus := by
  apply matches_predicateDocument_iff _ openStatus statusDiffers _ rfl
  apply isComparable_statusDiffers
  intro stored found
  cases found
  exact ⟨_, rfl⟩

/-- A document without a status is selected by `status <> 'closed'`, which is unknown on it. -/
theorem not_matches_predicateDocument :
    ¬ ∀ (mongo : FilterSemantics) (document : StoredDocument) (predicate : Predicate)
      (filter : Document), predicateDocument predicate = .ok filter →
      (∀ condition ∈ predicate.conditions, condition.IsComparable document) →
      (mongo.Matches document (readFilter filter) ↔ predicate.truth document = .true) := by
  intro preserves
  have comparable : ∀ condition ∈ statusDiffers.conditions,
      condition.IsComparable withoutStatus := by
    apply isComparable_statusDiffers
    rintro stored ⟨⟩
  have same := preserves .ofDocuments withoutStatus statusDiffers
    [("status", .document [("$ne", .string "closed")])] rfl comparable
  have truth : statusDiffers.truth withoutStatus = .unknown := rfl
  rw [truth] at same
  exact absurd (same.mp rfl) (by decide)

end Example

end Mongres
