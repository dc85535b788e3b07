import Mongres.Bson
import Mongres.Library.Binary64
import Mongres.Sql.Plan

/-!
# The SQL meaning of a predicate

What a predicate says of a stored document in three-valued logic.  A comparison and
a membership test are unknown on a null and on a missing field; a null test is true
only on a field that is there.
-/

namespace Mongres

/-- The SQL value of a stored scalar. -/
def Bson.sqlValue : Bson → Option SqlValue
  | .boolean value => some (.boolean value)
  | .int32 value => some (.integer value.toInt64)
  | .int64 value => some (.integer value)
  | .double value => some (.floatingPoint value)
  | .string value => some (.string value)
  | _ => none

def SqlValue.order : SqlValue → SqlValue → Option Ordering
  | .boolean first, .boolean second => some (compare first second)
  | .integer first, .integer second => some (compare first.toInt second.toInt)
  | .floatingPoint first, .floatingPoint second => Binary64.compare first second
  | .string first, .string second => some (compare first second)
  | _, _ => none

/-- Whether a comparison is true of two values in the given order. -/
def ComparisonOperator.admits : ComparisonOperator → Ordering → Bool
  | .equal, order => order == .eq
  | .notEqual, order => order != .eq
  | .greaterThan, order => order == .gt
  | .greaterThanOrEqual, order => order != .lt
  | .lessThan, order => order == .lt
  | .lessThanOrEqual, order => order != .gt

namespace Bson

def sqlOrder (stored : Bson) (literal : SqlValue) : Option Ordering :=
  stored.sqlValue.bind fun value => value.order literal

/-- The truth of a comparison of a stored value with a literal. -/
def compares (stored : Bson) (operator : ComparisonOperator) (literal : SqlValue) : Truth :=
  match stored.sqlOrder literal with
  | some order => .ofBool (operator.admits order)
  | none => .unknown

end Bson

namespace Condition

/-- The truth of a condition on what its field holds, if anything. -/
def truth (held : Option Bson) : Condition → Truth
  | .compare _ operator literal =>
      match held with
      | none | some .null => .unknown
      | some stored => stored.compares operator literal
  | .inList _ literals negated =>
      match held with
      | none | some .null => .unknown
      | some stored =>
          let found := Truth.any (literals.map (stored.compares .equal))
          if negated then found.not else found
  | .isNull _ negated =>
      match held with
      | none => .unknown
      | some .null => .ofBool !negated
      | some _ => .ofBool negated

/-- A condition that says that values differ: `<>` or `NOT IN`. -/
def tellsApart : Condition → Bool
  | .compare _ .notEqual _ | .inList _ _ true => true
  | _ => false

end Condition

def Predicate.truth (predicate : Predicate) (document : StoredDocument) : Truth :=
  predicate.formula.eval fun condition =>
    condition.truth (document.valueAt condition.path.segments)

/-! ## Literals and fields of one type -/

/-- A stored value with the type of a literal; floating-point numbers are not NaN. -/
def Bson.HasTypeOf : Bson → SqlValue → Prop
  | .boolean _, .boolean _ | .int32 _, .integer _ | .int64 _, .integer _
  | .string _, .string _ => True
  | .double stored, .floatingPoint literal => stored.isNaN = false ∧ literal.isNaN = false
  | _, _ => False

theorem Bson.HasTypeOf.exists_sqlOrder {stored : Bson} {literal : SqlValue}
    (typed : stored.HasTypeOf literal) : ∃ order, stored.sqlOrder literal = some order := by
  cases stored <;> cases literal <;> first | exact typed.elim | exact ⟨_, rfl⟩ | skip
  exact Option.isSome_iff_exists.mp (Binary64.compare_isSome typed.1 typed.2)

theorem Bson.compares_of_sqlOrder {stored : Bson} {literal : SqlValue} {order : Ordering}
    (ordered : stored.sqlOrder literal = some order) (operator : ComparisonOperator) :
    stored.compares operator literal = .ofBool (operator.admits order) := by
  rw [compares, ordered]

end Mongres
