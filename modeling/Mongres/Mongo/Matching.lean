import Mongres.Library.Binary64
import Mongres.Mongo.Filter

/-!
# What filters match

The documented behaviour of filters on fields that are missing, null or scalar.
Negated operators are the negations of the others, so they match a field that is
missing or null.  Nothing is said of a name that leads into an array, where MongoDB
matches elements, or of the deprecated `undefined`.
-/

namespace Mongres

open Text

def Bson.order : Bson → Bson → Option Ordering
  | .boolean first, .boolean second => some (compare first second)
  | .int32 first, .int32 second => some (compare first.toInt second.toInt)
  | .int32 first, .int64 second => some (compare first.toInt second.toInt)
  | .int64 first, .int32 second => some (compare first.toInt second.toInt)
  | .int64 first, .int64 second => some (compare first.toInt second.toInt)
  | .double first, .double second => Binary64.compare first second
  | .string first, .string second => some (compare first second)
  | _, _ => none

theorem Bson.eq_of_order_self {value : Bson} {order : Ordering}
    (compared : value.order value = some order) : order = .eq := by
  cases value with
  | double number => exact Binary64.eq_of_compare_self compared
  | boolean flag =>
      rw [← Option.some.inj compared]
      exact Std.ReflCmp.compare_self
  | string text =>
      rw [← Option.some.inj compared]
      exact Std.ReflCmp.compare_self
  | int32 number =>
      rw [← Option.some.inj compared]
      exact Std.ReflCmp.compare_self
  | int64 number =>
      rw [← Option.some.inj compared]
      exact Std.ReflCmp.compare_self
  | _ => cases compared

/-- The operators that compare a field's value with their operand, each with the
orders that it admits. -/
def orderOperators : List (String × (Ordering → Bool)) :=
  [("$eq", (· == .eq)), ("$gt", (· == .gt)), ("$gte", (· != .lt)), ("$lt", (· == .lt)),
    ("$lte", (· != .gt))]

/-- An operand that is compared by its own type only. -/
def Bson.IsLiteral (operand : Bson) : Prop :=
  operand.elementType ∈ ([.boolean, .integer, .double, .string] : List ElementType)

instance (operand : Bson) : Decidable operand.IsLiteral :=
  inferInstanceAs (Decidable (_ ∈ _))

def lacksValue : Option Bson → Bool
  | none | some .null => true
  | some _ => false

/-- A document holds a value, or nothing, under a dotted name that leads to and
through no array. -/
structure StoredDocument.Reads (document : StoredDocument) (name : String) (held : Option Bson) :
    Prop where
  found : document.valueAt (splitOn '.' name) = held
  noArray : ∀ start, start <+: splitOn '.' name → ∀ values,
    document.valueAt start ≠ some (.array values)
  defined : held ≠ some .undefined

/-- A reading of filters that has the documented behaviour. -/
structure FilterSemantics where
  Matches : StoredDocument → MatchExpression → Prop
  allOf : ∀ document expressions,
    Matches document (.allOf expressions) ↔ ∀ expression ∈ expressions, Matches document expression
  conjunction : ∀ document operands,
    Matches document (.logical "$and" operands) ↔ ∀ operand ∈ operands, Matches document operand
  disjunction : ∀ document operands,
    Matches document (.logical "$or" operands) ↔ ∃ operand ∈ operands, Matches document operand
  equalNull : ∀ document name held, document.Reads name held →
    (Matches document (.field name "$eq" .null) ↔ lacksValue held = true)
  present : ∀ document name held, document.Reads name held →
    (Matches document (.field name "$exists" (.boolean true)) ↔ held.isSome = true)
  lacking : ∀ document name held, document.Reads name held → lacksValue held = true →
    ∀ comparison ∈ orderOperators, ∀ operand, operand.IsLiteral →
      ¬ Matches document (.field name comparison.1 operand)
  ordered : ∀ document name stored, document.Reads name (some stored) →
    ∀ operand order, stored.order operand = some order → ∀ comparison ∈ orderOperators,
      (Matches document (.field name comparison.1 operand) ↔ comparison.2 order = true)
  notEqual : ∀ document name operand,
    Matches document (.field name "$ne" operand) ↔ ¬ Matches document (.field name "$eq" operand)
  oneOf : ∀ document name operands, (∀ operand ∈ operands, operand.IsLiteral) →
    (Matches document (.field name "$in" (.array operands)) ↔
      ∃ operand ∈ operands, Matches document (.field name "$eq" operand))
  noneOf : ∀ document name operand,
    Matches document (.field name "$nin" operand) ↔ ¬ Matches document (.field name "$in" operand)

/-! ## A reading on embedded documents -/

namespace FilterSemantics

/-- Whether what a field holds compares with an operand as an operator asks. -/
def comparesField (held : Option Bson) (operator : String) (operand : Bson) : Bool :=
  match operand with
  | .null => operator == "$eq" && lacksValue held
  | operand =>
      ((held.bind fun stored => stored.order operand).bind fun order =>
        (orderOperators.lookup operator).map fun admits => admits order).getD false

def isOneOf (held : Option Bson) : Bson → Bool
  | .array operands => operands.any fun operand => comparesField held "$eq" operand
  | _ => false

def meets (held : Option Bson) (operator : String) (operand : Bson) : Bool :=
  if operator = "$ne" then !comparesField held "$eq" operand
  else if operator = "$in" then isOneOf held operand
  else if operator = "$nin" then !isOneOf held operand
  else if operator = "$exists" then held.isSome
  else comparesField held operator operand

mutual

def evaluate (document : StoredDocument) : MatchExpression → Bool
  | .allOf conditions => evaluateAll document conditions
  | .field name operator operand =>
      meets (document.valueAt (splitOn '.' name)) operator operand
  | .logical operator operands =>
      if operator = "$and" then evaluateAll document operands
      else if operator = "$or" then evaluateAny document operands
      else !evaluateAny document operands
  | .operator _ _ => false

def evaluateAll (document : StoredDocument) : List MatchExpression → Bool
  | [] => true
  | expression :: expressions => evaluate document expression && evaluateAll document expressions

def evaluateAny (document : StoredDocument) : List MatchExpression → Bool
  | [] => false
  | expression :: expressions => evaluate document expression || evaluateAny document expressions

end

theorem evaluateAll_eq_true_iff (document : StoredDocument) (expressions : List MatchExpression) :
    evaluateAll document expressions = true ↔
      ∀ expression ∈ expressions, evaluate document expression = true := by
  induction expressions with
  | nil => simp [evaluateAll]
  | cons expression expressions inductionHypothesis =>
      rw [evaluateAll, Bool.and_eq_true, inductionHypothesis, List.forall_mem_cons]

theorem evaluateAny_eq_true_iff (document : StoredDocument) (expressions : List MatchExpression) :
    evaluateAny document expressions = true ↔
      ∃ expression ∈ expressions, evaluate document expression = true := by
  induction expressions with
  | nil => simp [evaluateAny]
  | cons expression expressions inductionHypothesis =>
      rw [evaluateAny, Bool.or_eq_true, inductionHypothesis, List.exists_mem_cons_iff]

theorem order_eq_none_of_lacksValue {held : Option Bson} (lacks : lacksValue held = true)
    (operand : Bson) : (held.bind fun stored => stored.order operand) = none := by
  cases held with
  | none => rfl
  | some stored =>
      cases stored with
      | null => cases operand <;> rfl
      | _ => cases lacks

theorem comparesField_of_lacksValue {held : Option Bson} (lacks : lacksValue held = true)
    {operand : Bson} (literal : operand.IsLiteral) (operator : String) :
    comparesField held operator operand = false := by
  have unordered := order_eq_none_of_lacksValue lacks operand
  cases operand with
  | null => exact absurd literal (by decide)
  | _ => simp [comparesField, unordered]

theorem comparesField_of_order {stored operand : Bson} {order : Ordering}
    (ordered : stored.order operand = some order) {operator : String} {admits : Ordering → Bool}
    (known : orderOperators.lookup operator = some admits) :
    comparesField (some stored) operator operand = admits order := by
  cases operand with
  | null => cases stored <;> cases ordered
  | _ => simp [comparesField, ordered, known]

theorem meets_of_mem_orderOperators {comparison : String × (Ordering → Bool)}
    (membership : comparison ∈ orderOperators) :
    orderOperators.lookup comparison.1 = some comparison.2 ∧
      ∀ held operand,
        meets held comparison.1 operand = comparesField held comparison.1 operand := by
  simp only [orderOperators, List.mem_cons, List.not_mem_nil, or_false] at membership
  rcases membership with rfl | rfl | rfl | rfl | rfl <;> exact ⟨rfl, fun _ _ => rfl⟩

/-- The reading that looks for values in embedded documents only. -/
def ofDocuments : FilterSemantics where
  Matches document expression := evaluate document expression = true
  allOf document expressions := by rw [evaluate, evaluateAll_eq_true_iff]
  conjunction document operands := by rw [evaluate, if_pos rfl, evaluateAll_eq_true_iff]
  disjunction document operands := by
    rw [evaluate, if_neg (by decide), if_pos rfl, evaluateAny_eq_true_iff]
  equalNull := by
    rintro document name _ ⟨rfl, _, _⟩
    rw [evaluate]
    rfl
  present := by
    rintro document name _ ⟨rfl, _, _⟩
    rw [evaluate]
    rfl
  lacking := by
    rintro document name _ ⟨rfl, _, _⟩ lacks comparison membership operand literal
    rw [evaluate, (meets_of_mem_orderOperators membership).2,
      comparesField_of_lacksValue lacks literal]
    exact Bool.false_ne_true
  ordered := by
    rintro document name stored ⟨found, _, _⟩ operand order ordered comparison membership
    obtain ⟨known, compares⟩ := meets_of_mem_orderOperators membership
    rw [evaluate, found, compares, comparesField_of_order ordered known]
  notEqual document name operand := by
    rw [Bool.not_eq_true, ← Bool.not_eq_true', evaluate, evaluate]
    rfl
  oneOf document name operands _ := by
    simp only [evaluate]
    exact List.any_eq_true
  noneOf document name operand := by
    rw [Bool.not_eq_true, ← Bool.not_eq_true', evaluate, evaluate]
    rfl

end FilterSemantics

end Mongres
