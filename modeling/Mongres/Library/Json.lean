import Mongres.Library.Fallible
import Mathlib.Tactic

/-!
# Reading JSON into models

Readers for the fields of a declared model.  An object may hold declared fields
only, a list and a string have bounded lengths, and a name stands for one member of
an enumeration.  A value of another kind than the declared one is refused.
-/

namespace Mongres

/-- A JSON value whose numbers are integers. -/
inductive Json where
  | null
  | boolean (value : Bool)
  | number (value : Int)
  | string (value : String)
  | array (values : List Json)
  | object (fields : List (String × Json))

namespace Json

open Fallible

variable {Member : Type} {Item : Type}

/-- The fields of an object that declares no others. -/
def readObject (declared : List String) : Json → Except String (List (String × Json))
  | .object fields =>
      if ∃ field ∈ fields, field.1 ∉ declared then .error "Extra inputs are not permitted"
      else .ok fields
  | _ => .error "Input should be a valid dictionary or object to extract fields from"

def readField (fields : List (String × Json)) (name : String) (read : Json → Except String Item) :
    Except String Item :=
  match fields.lookup name with
  | some value => read value
  | none => .error "Field required"

def readFieldOr (fields : List (String × Json)) (name : String) (default : Item)
    (read : Json → Except String Item) : Except String Item :=
  match fields.lookup name with
  | some value => read value
  | none => .ok default

def readInteger (minimum : Int) : Json → Except String Int
  | .number value =>
      if value < minimum then .error s!"Input should be greater than or equal to {minimum}"
      else .ok value
  | _ => .error "Input should be a valid integer"

def readString : Json → Except String String
  | .string value => .ok value
  | _ => .error "Input should be a valid string"

def readStringUpTo (maximum : Nat) (value : Json) : Except String String := do
  let text ← readString value
  if text.length > maximum then .error s!"String should have at most {maximum} characters"
  else .ok text

def readOptional (read : Json → Except String Item) : Json → Except String (Option Item)
  | .null => .ok none
  | value => (read value).map some

def readOneOf (members : List (String × Member)) (value : Json) : Except String Member := do
  let name ← readString value
  okOr (members.lookup name) "Input should be one of the permitted values"

/-- A list of a bounded number of items. -/
def readList (minimum maximum : Nat) (read : Json → Except String Item) :
    Json → Except String (List Item)
  | .array values => do
      let items ← collect read values
      if items.length < minimum then
        .error s!"List should have at least {minimum} items after validation"
      else if items.length > maximum then
        .error s!"List should have at most {maximum} items after validation"
      else .ok items
  | _ => .error "Input should be a valid list"

/-! ## Reading what was written -/

@[simp]
theorem readField_cons_self (name : String) (value : Json) (fields : List (String × Json))
    (read : Json → Except String Item) :
    readField ((name, value) :: fields) name read = read value := by
  simp [readField]

theorem readField_cons_of_ne {name other : String} (distinct : name ≠ other) (value : Json)
    (fields : List (String × Json)) (read : Json → Except String Item) :
    readField ((other, value) :: fields) name read = readField fields name read := by
  rw [readField, List.lookup_cons, beq_false_of_ne distinct, readField]

@[simp]
theorem readFieldOr_cons_self (name : String) (value : Json) (fields : List (String × Json))
    (default : Item) (read : Json → Except String Item) :
    readFieldOr ((name, value) :: fields) name default read = read value := by
  simp [readFieldOr]

theorem readFieldOr_cons_of_ne {name other : String} (distinct : name ≠ other) (value : Json)
    (fields : List (String × Json)) (default : Item) (read : Json → Except String Item) :
    readFieldOr ((other, value) :: fields) name default read =
      readFieldOr fields name default read := by
  rw [readFieldOr, List.lookup_cons, beq_false_of_ne distinct, readFieldOr]

theorem readObject_object {declared : List String} {fields : List (String × Json)}
    (known : ∀ field ∈ fields, field.1 ∈ declared) :
    readObject declared (.object fields) = .ok fields := by
  apply if_neg
  rintro ⟨field, membership, undeclared⟩
  exact undeclared (known field membership)

theorem collect_map {Value : Type} {read : Json → Except String Item} {write : Value → Json}
    {meaning : Value → Item} {values : List Value}
    (each : ∀ value ∈ values, read (write value) = .ok (meaning value)) :
    collect read (values.map write) = .ok (values.map meaning) := by
  induction values with
  | nil => rfl
  | cons value values inductionHypothesis =>
      rw [List.forall_mem_cons] at each
      rw [List.map_cons, collect, each.1, inductionHypothesis each.2]
      rfl

theorem readList_map {Value : Type} {read : Json → Except String Item} {write : Value → Json}
    {meaning : Value → Item} {values : List Value} {minimum maximum : Nat}
    (each : ∀ value ∈ values, read (write value) = .ok (meaning value))
    (enough : minimum ≤ values.length) (bounded : values.length ≤ maximum) :
    readList minimum maximum read (.array (values.map write)) = .ok (values.map meaning) := by
  rw [readList, collect_map each]
  change (if _ then _ else if _ then _ else _) = _
  rw [List.length_map, if_neg (Nat.not_lt.mpr enough), if_neg (Nat.not_lt.mpr bounded)]

theorem readList_names {members : List (String × Member)} {name : Member → String}
    (agrees : ∀ member, members.lookup (name member) = some member) {listed : List Member}
    {minimum maximum : Nat} (enough : minimum ≤ listed.length)
    (bounded : listed.length ≤ maximum) :
    readList minimum maximum (readOneOf members)
      (.array (listed.map fun member => .string (name member))) = .ok listed := by
  have each : ∀ member ∈ listed, readOneOf members (.string (name member)) = .ok member := by
    intro member _
    rw [readOneOf, readString]
    exact okOr_eq_ok_iff.mpr (agrees member)
  simpa using readList_map each enough bounded

theorem eq_of_readInteger {minimum number result : Int}
    (read : readInteger minimum (.number number) = .ok result) : result = number := by
  rw [readInteger, ite_error_eq_ok_iff] at read
  exact (Except.ok.inj read.2).symm

theorem eq_of_readList_map {Value : Type} {read : Json → Except String Item} {write : Value → Json}
    {meaning : Value → Item} {values : List Value} {minimum maximum : Nat} {items : List Item}
    (each : ∀ value ∈ values, read (write value) = .ok (meaning value))
    (readItems : readList minimum maximum read (.array (values.map write)) = .ok items) :
    items = values.map meaning := by
  rw [readList, collect_map each] at readItems
  change (if _ then _ else if _ then _ else _) = _ at readItems
  rw [ite_error_eq_ok_iff, ite_error_eq_ok_iff] at readItems
  exact (Except.ok.inj readItems.2.2).symm

theorem length_of_readList {read : Json → Except String Item} {values : List Json}
    {minimum maximum : Nat} {items : List Item}
    (readItems : readList minimum maximum read (.array values) = .ok items) :
    minimum ≤ items.length ∧ items.length ≤ maximum := by
  rw [readList, bind_eq_ok_iff] at readItems
  obtain ⟨collected, _, bounded⟩ := readItems
  rw [ite_error_eq_ok_iff, ite_error_eq_ok_iff] at bounded
  obtain ⟨enough, short, same⟩ := bounded
  cases same
  exact ⟨not_lt.mp enough, not_lt.mp short⟩

theorem readStringUpTo_eq_ok_iff {maximum : Nat} {text result : String} :
    readStringUpTo maximum (.string text) = .ok result ↔
      text.length ≤ maximum ∧ result = text := by
  rw [readStringUpTo, bind_eq_ok_iff]
  simp [readString, ite_error_eq_ok_iff, @eq_comm _ text]

end Json

end Mongres
