import Mongres.Library.Nested
import Mongres.Library.Tally
import Mongres.Schema.FieldPath
import Mathlib.Tactic

/-!
# Sampled documents

A sampled document is a map from keys to values, represented by its entries.
The visit of `observe_value` lists every value that a path reaches through
embedded documents; arrays are opaque to it.
-/

namespace Mongres

/-- The values understood by the inference engine. -/
inductive SampleValue where
  | null
  | boolean (value : Bool)
  | integer (value : Int64)
  | floatingPoint (value : Float)
  | string (value : String)
  | dateTime (value : String)
  | objectId (value : String)
  | document (fields : List (String × SampleValue))
  | array (values : List SampleValue)

/-- A BSON-compatible scalar or container type observed for a field. -/
inductive ObservedType where
  | null
  | boolean
  | integer
  | floatingPoint
  | string
  | dateTime
  | objectId
  | document
  | array
  deriving DecidableEq, Repr

/-- The field shapes that influence path and write decisions. -/
inductive ObservedShape where
  | scalar
  | document
  | array
  deriving DecidableEq, Repr

namespace SampleValue

def observedType : SampleValue → ObservedType
  | .null => .null
  | .boolean _ => .boolean
  | .integer _ => .integer
  | .floatingPoint _ => .floatingPoint
  | .string _ => .string
  | .dateTime _ => .dateTime
  | .objectId _ => .objectId
  | .document _ => .document
  | .array _ => .array

def observedShape : SampleValue → ObservedShape
  | .document _ => .document
  | .array _ => .array
  | .null | .boolean _ | .integer _ | .floatingPoint _ | .string _ | .dateTime _ | .objectId _ =>
      .scalar

@[elab_as_elim]
theorem nestedInduction {motive : SampleValue → Prop}
    (document : ∀ fields, (∀ entry ∈ fields, motive entry.2) → motive (.document fields))
    (array : ∀ values, (∀ value ∈ values, motive value) → motive (.array values))
    (scalar : ∀ value : SampleValue, value.observedShape = .scalar → motive value)
    (value : SampleValue) : motive value :=
  @SampleValue.rec motive (fun fields => ∀ entry ∈ fields, motive entry.2)
    (fun values => ∀ value ∈ values, motive value) (fun entry => motive entry.2)
    (scalar _ rfl) (fun _ => scalar _ rfl) (fun _ => scalar _ rfl) (fun _ => scalar _ rfl)
    (fun _ => scalar _ rfl) (fun _ => scalar _ rfl) (fun _ => scalar _ rfl)
    document array (by simp) (fun _ _ head tail => List.forall_mem_cons.mpr ⟨head, tail⟩)
    (by simp) (fun _ _ head tail => List.forall_mem_cons.mpr ⟨head, tail⟩)
    (fun _ _ value => value) value

instance : Nested String SampleValue where
  fields
    | .document fields => some fields
    | _ => none

@[simp]
theorem fields_document (fields : List (String × SampleValue)) :
    Nested.fields (SampleValue.document fields) = some fields := rfl

theorem fields_eq_none_iff (value : SampleValue) :
    Nested.fields value = none ↔ value.observedShape ≠ .document := by
  cases value <;> simp [Nested.fields, observedShape]

mutual

/-- Whether the keys of every document inside a value are distinct. -/
def wellKeyed : SampleValue → Bool
  | .document fields => decide (fields.map Prod.fst).Nodup && wellKeyedFields fields
  | .array values => wellKeyedValues values
  | _ => true

def wellKeyedFields : List (String × SampleValue) → Bool
  | [] => true
  | (_, value) :: fields => wellKeyed value && wellKeyedFields fields

def wellKeyedValues : List SampleValue → Bool
  | [] => true
  | value :: values => wellKeyed value && wellKeyedValues values

end

theorem wellKeyedFields_iff (fields : List (String × SampleValue)) :
    wellKeyedFields fields = true ↔ ∀ entry ∈ fields, entry.2.wellKeyed = true := by
  induction fields with
  | nil => simp [wellKeyedFields]
  | cons entry fields inductionHypothesis =>
      simp [wellKeyedFields, inductionHypothesis]

theorem wellKeyedValues_iff (values : List SampleValue) :
    wellKeyedValues values = true ↔ ∀ value ∈ values, value.wellKeyed = true := by
  induction values with
  | nil => simp [wellKeyedValues]
  | cons value values inductionHypothesis =>
      simp [wellKeyedValues, inductionHypothesis]

theorem wellKeyed_document_iff (fields : List (String × SampleValue)) :
    (document fields).wellKeyed = true ↔
      (fields.map Prod.fst).Nodup ∧ ∀ entry ∈ fields, entry.2.wellKeyed = true := by
  simp [wellKeyed, wellKeyedFields_iff]

mutual

/-- The paths and values that `observe_value` visits, parents first. -/
def occurrences (path : FieldPath) : SampleValue → List (FieldPath × SampleValue)
  | .document fields => (path, .document fields) :: occurrencesIn path fields
  | value => [(path, value)]

def occurrencesIn (path : FieldPath) :
    List (String × SampleValue) → List (FieldPath × SampleValue)
  | [] => []
  | (field, value) :: fields =>
      occurrences (path.child field) value ++ occurrencesIn path fields

end

theorem occurrencesIn_eq_flatMap (path : FieldPath) (fields : List (String × SampleValue)) :
    occurrencesIn path fields =
      fields.flatMap fun entry => occurrences (path.child entry.1) entry.2 := by
  induction fields with
  | nil => rfl
  | cons entry fields inductionHypothesis =>
      simp [occurrencesIn, inductionHypothesis]

theorem occurrences_of_not_document (path : FieldPath) {value : SampleValue}
    (shape : value.observedShape ≠ .document) :
    occurrences path value = [(path, value)] := by
  cases value <;> simp_all [observedShape, occurrences]

/-- Every visited path extends the path of the visit. -/
theorem segments_prefix_of_mem_occurrences (value : SampleValue) (path : FieldPath)
    {visited : FieldPath × SampleValue} (membership : visited ∈ occurrences path value) :
    path.segments <+: visited.1.segments := by
  induction value using nestedInduction generalizing path with
  | document fields inductionHypothesis =>
      rw [occurrences, List.mem_cons, occurrencesIn_eq_flatMap, List.mem_flatMap] at membership
      rcases membership with rfl | ⟨entry, entryMembership, visitedBelow⟩
      · exact List.prefix_rfl
      · have extends' := inductionHypothesis entry entryMembership _ visitedBelow
        rw [FieldPath.segments_child] at extends'
        exact (List.prefix_append _ _).trans extends'
  | array values _ =>
      simp only [occurrences, List.mem_singleton] at membership
      exact membership ▸ List.prefix_rfl
  | scalar value scalar =>
      rw [occurrences_of_not_document path (by simp [scalar]), List.mem_singleton] at membership
      exact membership ▸ List.prefix_rfl

section Events

open Tally

theorem eventsOf_occurrences_eq_nil (value : SampleValue) (path target : FieldPath)
    (elsewhere : ¬ path.segments <+: target.segments) :
    eventsOf target (occurrences path value) = [] := by
  rw [eventsOf, List.filterMap_eq_nil_iff]
  intro visited membership
  have extension := segments_prefix_of_mem_occurrences value path membership
  rw [if_neg]
  rintro rfl
  exact elsewhere extension

private theorem child_not_extended (path : FieldPath) {field : String} {rest : List String}
    (different : rest.head? ≠ some field) :
    ¬ (path.child field).segments <+: path.segments ++ rest := by
  rw [FieldPath.segments_child, List.prefix_append_right_inj]
  rintro ⟨tail, rfl⟩
  exact different rfl

private theorem eventsOf_occurrencesIn (path : FieldPath) (fields : List (String × SampleValue))
    (distinct : (fields.map Prod.fst).Nodup) (field : String) (rest : List String) :
    eventsOf ⟨path.segments ++ field :: rest⟩ (occurrencesIn path fields) =
      ((fields.lookup field).map fun value =>
        eventsOf ⟨(path.child field).segments ++ rest⟩
          (occurrences (path.child field) value)).getD [] := by
  induction fields with
  | nil => rfl
  | cons entry fields inductionHypothesis =>
      obtain ⟨name, value⟩ := entry
      rw [List.map_cons, List.nodup_cons] at distinct
      have remaining := inductionHypothesis distinct.2
      rw [occurrencesIn, eventsOf_append, remaining, lookup_cons_eq_if]
      by_cases same : field = name
      · subst same
        have absent : fields.lookup field = none := by
          rw [List.lookup_eq_none_iff]
          intro entry membership
          have fresh : field ≠ entry.1 := fun equal =>
            distinct.1 (List.mem_map.mpr ⟨entry, membership, equal.symm⟩)
          simpa using fresh
        simp [absent]
      · have head : eventsOf ⟨path.segments ++ field :: rest⟩
            (occurrences (path.child name) value) = [] :=
          eventsOf_occurrences_eq_nil _ _ _ (child_not_extended path (by simpa using same))
        rw [head, if_neg same, List.nil_append]

/-- A visit meets a path once if the value has one there, and never otherwise. -/
theorem eventsOf_occurrences (value : SampleValue) (keyed : value.wellKeyed = true)
    (path : FieldPath) (rest : List String) :
    eventsOf ⟨path.segments ++ rest⟩ (occurrences path value) =
      (Nested.descend value rest).toList := by
  induction value using nestedInduction generalizing path rest with
  | document fields inductionHypothesis =>
      obtain ⟨distinct, keyedBelow⟩ := (wellKeyed_document_iff fields).mp keyed
      rw [occurrences, eventsOf_cons]
      cases rest with
      | nil =>
          have below : eventsOf ⟨path.segments ++ []⟩ (occurrencesIn path fields) = [] := by
            rw [occurrencesIn_eq_flatMap, eventsOf_flatMap, List.flatMap_eq_nil_iff]
            intro entry _
            exact eventsOf_occurrences_eq_nil _ _ _ (child_not_extended path (by simp))
          have here : path = ⟨path.segments ++ []⟩ := by simp
          rw [if_pos here, below, Nested.descend_nil, Option.toList_some]
      | cons field rest =>
          have elsewhere : path ≠ ⟨path.segments ++ field :: rest⟩ := by
            intro equal
            have lengths := congrArg (fun path => path.segments.length) equal
            simp at lengths
          rw [if_neg elsewhere, eventsOf_occurrencesIn path fields distinct, Nested.descend_cons,
            fields_document, Option.bind_some]
          cases found : fields.lookup field with
          | none => rfl
          | some child =>
              have membership := (lookup_eq_some_iff_mem distinct field child).mp found
              rw [Option.map_some, Option.getD_some, Option.bind_some]
              exact inductionHypothesis _ membership (keyedBelow _ membership) _ rest
  | array values _ => exact eventsOf_leaf (by simp [observedShape]) path rest
  | scalar value scalar => exact eventsOf_leaf (by simp [scalar]) path rest
where
  eventsOf_leaf {value : SampleValue} (shape : value.observedShape ≠ .document)
      (path : FieldPath) (rest : List String) :
      eventsOf ⟨path.segments ++ rest⟩ (occurrences path value) =
        (Nested.descend value rest).toList := by
    rw [occurrences_of_not_document path shape, eventsOf_cons]
    cases rest with
    | nil =>
        rw [if_pos (by simp), Nested.descend_nil]
        rfl
    | cons field rest =>
        have elsewhere : path ≠ ⟨path.segments ++ field :: rest⟩ := by
          intro equal
          have lengths := congrArg (fun path => path.segments.length) equal
          simp at lengths
        rw [if_neg elsewhere, Nested.descend_cons, (fields_eq_none_iff value).mpr shape]
        rfl

end Events

end SampleValue

/-- A sampled document: a map, so that its keys are distinct at every level. -/
structure SampleDocument where
  fields : List (String × SampleValue)
  wellKeyed : (SampleValue.document fields).wellKeyed = true := by decide

namespace SampleDocument

/-- The value a document holds at a path, reached through embedded documents. -/
def valueAt (path : FieldPath) (document : SampleDocument) : Option SampleValue :=
  Nested.descend (SampleValue.document document.fields) path.segments

def occurrences (document : SampleDocument) : List (FieldPath × SampleValue) :=
  SampleValue.occurrencesIn ⟨[]⟩ document.fields

theorem eventsOf_occurrences (document : SampleDocument) {path : FieldPath}
    (nonempty : path.segments ≠ []) :
    Tally.eventsOf path document.occurrences = (document.valueAt path).toList := by
  have visit := SampleValue.eventsOf_occurrences _ document.wellKeyed ⟨[]⟩ path.segments
  rw [SampleValue.occurrences, Tally.eventsOf_cons] at visit
  have elsewhere : (⟨[]⟩ : FieldPath) ≠ ⟨[] ++ path.segments⟩ := by
    intro equal
    exact nonempty (by simpa using equal.symm)
  rw [if_neg elsewhere] at visit
  exact visit

theorem eventsOf_occurrences_root (document : SampleDocument) :
    Tally.eventsOf ⟨[]⟩ document.occurrences = [] := by
  rw [occurrences, SampleValue.occurrencesIn_eq_flatMap, Tally.eventsOf_flatMap,
    List.flatMap_eq_nil_iff]
  intro entry _
  exact SampleValue.eventsOf_occurrences_eq_nil _ _ _ (by simp)

end SampleDocument

end Mongres
