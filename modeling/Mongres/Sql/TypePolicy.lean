import Mongres.Common
import Mongres.Library.Fallible
import Mongres.Schema.Infer
import Mongres.Sql.Plan

/-!
# Schema-backed validation of SQL literals

A literal is checked against the one non-null type of a field whose evidence is
clear.  A field without such a type is left to the ambiguity policy.
-/

namespace Mongres

open Fallible

namespace ObservedType

/-- The observed types in declaration order, as a `BTreeSet` iterates them. -/
def all : List ObservedType :=
  [.null, .boolean, .integer, .floatingPoint, .string, .dateTime, .objectId, .document, .array]

theorem mem_all (observedType : ObservedType) : observedType ∈ all := by
  cases observedType <;> decide

/-- The non-null members of a set, in order. -/
def nonNull (observedTypes : Finset ObservedType) : List ObservedType :=
  all.filter fun observedType => decide (observedType ∈ observedTypes ∧ observedType ≠ .null)

theorem mem_nonNull_iff {observedTypes : Finset ObservedType} {observedType : ObservedType} :
    observedType ∈ nonNull observedTypes ↔ observedType ∈ observedTypes ∧ observedType ≠ .null := by
  simp [nonNull, mem_all]

theorem nodup_nonNull (observedTypes : Finset ObservedType) : (nonNull observedTypes).Nodup :=
  List.Nodup.filter _ (by decide)

end ObservedType

/-- The observed type that a literal would add to its field. -/
def SqlValue.scalarType : SqlValue → Option ObservedType
  | .null | .placeholder _ => none
  | .boolean _ => some .boolean
  | .integer _ => some .integer
  | .floatingPoint _ => some .floatingPoint
  | .string _ => some .string

def observedTypeName : ObservedType → String
  | .null => "null"
  | .boolean => "boolean"
  | .integer => "integer"
  | .floatingPoint => "floating-point"
  | .string => "string"
  | .dateTime => "datetime"
  | .objectId => "object-id"
  | .document => "document"
  | .array => "array"

def isCompatible : SqlValue → ObservedType → Bool
  | .boolean _, .boolean | .integer _, .integer | .floatingPoint _, .floatingPoint
  | .string _, .string => true
  | _, _ => false

theorem isCompatible_eq_true_iff (value : SqlValue) (observedType : ObservedType) :
    isCompatible value observedType = true ↔ value.scalarType = some observedType := by
  cases value <;> cases observedType <;> simp [isCompatible, SqlValue.scalarType]

/-- The one non-null type of a field with clear evidence, if it has one. -/
def validateFieldShape (path : FieldPath) (schema : SchemaProfile) :
    Result (Option ObservedType) := do
  let profile ← okOr (schema.field path) (absentField path)
  let nonNullTypes := ObservedType.nonNull profile.observedTypes
  match nonNullTypes with
  | [observedType] =>
      if profile.hasDottedKeyCollision ∨ profile.observedShapes.card ≠ 1 then .ok none
      else .ok (some observedType)
  | _ => .ok none

def validateValue (path : FieldPath) (value : SqlValue) (schema : SchemaProfile)
    (nullIsAllowed : Bool) : Result Unit :=
  match value with
  -- Binding validates the values that replace placeholders.
  | .placeholder _ => .ok ()
  | .null =>
      if nullIsAllowed then .ok ()
      else .error (invalidInput
        "SQL NULL cannot be used in a comparison or IN list; use IS NULL or IS NOT NULL")
  | value => do
      match ← validateFieldShape path schema with
      | none => .ok ()
      | some observedType =>
          if isCompatible value observedType then .ok ()
          else .error (invalidInput
            s!"value for field '{path.displayName}' is not compatible with inferred BSON type '{observedTypeName observedType}'")

mutual

/-- Validates the values that select documents for a write. -/
def validateWritePredicate (schema : SchemaProfile) : Predicate → Result Unit
  | .compare path _ value => validateValue path value schema false
  | .inList path values _ => tryForEach (fun value => validateValue path value schema false) values
  | .isNull path _ => (validateFieldShape path schema).map fun _ => ()
  | .and predicates | .or predicates => validateWritePredicates schema predicates

def validateWritePredicates (schema : SchemaProfile) : List Predicate → Result Unit
  | [] => .ok ()
  | predicate :: predicates =>
      validateWritePredicate schema predicate >>= fun () => validateWritePredicates schema predicates

end

/-- Validates a value assigned by `INSERT` or `UPDATE`, where NULL is permitted. -/
def validateWriteValue (path : FieldPath) (value : SqlValue) (schema : SchemaProfile) : Result Unit :=
  validateValue path value schema true

/-- The read path repeats the walk of `validateWritePredicate` over the same checks. -/
def validateReadPredicate (schema : SchemaProfile) (predicate : Predicate) : Result Unit :=
  validateWritePredicate schema predicate

/-! ## What the checks establish -/

theorem validateFieldShape_eq_ok_iff {path : FieldPath} {schema : SchemaProfile}
    {shape : Option ObservedType} :
    validateFieldShape path schema = .ok shape ↔
      ∃ profile, schema.field path = some profile ∧
        shape = match ObservedType.nonNull profile.observedTypes with
          | [observedType] =>
              if profile.hasDottedKeyCollision ∨ profile.observedShapes.card ≠ 1 then none
              else some observedType
          | _ => none := by
  rw [validateFieldShape, bind_eq_ok_iff]
  apply exists_congr
  intro profile
  rw [okOr_eq_ok_iff]
  apply and_congr_right
  intro _
  dsimp only
  split
  · split <;> simp [eq_comm]
  · simp [eq_comm]

theorem nonNull_of_validateFieldShape {path : FieldPath} {schema : SchemaProfile}
    {observedType : ObservedType}
    (shape : validateFieldShape path schema = .ok (some observedType)) :
    ∃ profile, schema.field path = some profile ∧
      ObservedType.nonNull profile.observedTypes = [observedType] := by
  obtain ⟨profile, found, equal⟩ := validateFieldShape_eq_ok_iff.mp shape
  refine ⟨profile, found, ?_⟩
  split at equal
  · rename_i only single
    split at equal
    · exact absurd equal (by simp)
    · rw [single, Option.some.inj equal]
  · exact absurd equal (by simp)

/-- A literal passes exactly when the field has no clear type or has its own. -/
theorem validateValue_eq_ok_iff {path : FieldPath} {value : SqlValue} {schema : SchemaProfile}
    {nullIsAllowed : Bool} {observedType : ObservedType}
    (literal : value.scalarType = some observedType) :
    validateValue path value schema nullIsAllowed = .ok () ↔
      ∃ shape, validateFieldShape path schema = .ok shape ∧
        ∀ clear ∈ shape, clear = observedType := by
  have unfolded : validateValue path value schema nullIsAllowed =
      validateFieldShape path schema >>= fun shape =>
        match shape with
        | none => .ok ()
        | some observedType =>
            if isCompatible value observedType then .ok ()
            else .error (invalidInput
              s!"value for field '{path.displayName}' is not compatible with inferred BSON type '{observedTypeName observedType}'") := by
    cases value <;> first | rfl | simp [SqlValue.scalarType] at literal
  rw [unfolded, bind_eq_ok_iff]
  apply exists_congr
  intro shape
  apply and_congr_right
  intro _
  cases shape with
  | none => simp
  | some clear =>
      simp only [isCompatible_eq_true_iff, literal, Option.some.injEq, Option.mem_def, forall_eq']
      by_cases same : observedType = clear <;> simp [same, eq_comm]

end Mongres
