import Mongres.Bson
import Mongres.Schema.Infer

/-!
# From driver documents to sampled documents

The conversion keeps keys, nesting and arrays.  Kinds without a counterpart in
the sample model become strings.
-/

namespace Mongres

open SampleValue

section

/- The driver's text of a value, which inference never inspects. -/
variable (text : Bson → String)

mutual

def sampleValueFromBson : Bson → SampleValue
  | .null => .null
  | .boolean value => .boolean value
  | .int32 value => .integer value.toInt64
  | .int64 value => .integer value
  | .double value => .floatingPoint value
  | .string value => .string value
  | .dateTime milliseconds => .dateTime (text (.dateTime milliseconds))
  | .objectId bytes => .objectId (text (.objectId bytes))
  | .document fields => .document (sampleFieldsFromBson fields)
  | .array values => .array (sampleValuesFromBson values)
  | value => .string (text value)

def sampleFieldsFromBson : List (String × Bson) → List (String × SampleValue)
  | [] => []
  | (key, value) :: fields => (key, sampleValueFromBson value) :: sampleFieldsFromBson fields

def sampleValuesFromBson : List Bson → List SampleValue
  | [] => []
  | value :: values => sampleValueFromBson value :: sampleValuesFromBson values

end

theorem sampleFieldsFromBson_eq_map (fields : Document) :
    sampleFieldsFromBson text fields =
      fields.map fun entry => (entry.1, sampleValueFromBson text entry.2) := by
  induction fields with
  | nil => rfl
  | cons entry fields inductionHypothesis =>
      rw [sampleFieldsFromBson, inductionHypothesis, List.map_cons]

theorem sampleValuesFromBson_eq_map (values : List Bson) :
    sampleValuesFromBson text values = values.map (sampleValueFromBson text) := by
  induction values with
  | nil => rfl
  | cons value values inductionHypothesis =>
      rw [sampleValuesFromBson, inductionHypothesis, List.map_cons]

theorem map_fst_sampleFieldsFromBson (fields : Document) :
    (sampleFieldsFromBson text fields).map Prod.fst = fields.map Prod.fst := by
  rw [sampleFieldsFromBson_eq_map, List.map_map]
  rfl

theorem wellKeyed_sampleValueFromBson (value : Bson) (keyed : value.wellKeyed = true) :
    (sampleValueFromBson text value).wellKeyed = true := by
  induction value using Bson.nestedInduction with
  | document fields inductionHypothesis =>
      simp only [Bson.wellKeyed, Bool.and_eq_true, decide_eq_true_eq,
        Bson.wellKeyedFields_iff] at keyed
      rw [sampleValueFromBson, wellKeyed_document_iff, map_fst_sampleFieldsFromBson]
      refine ⟨keyed.1, ?_⟩
      rw [sampleFieldsFromBson_eq_map, List.forall_mem_map]
      intro entry membership
      exact inductionHypothesis entry membership (keyed.2 entry membership)
  | array values inductionHypothesis =>
      simp only [Bson.wellKeyed, Bson.wellKeyedValues_iff] at keyed
      rw [sampleValueFromBson, SampleValue.wellKeyed, wellKeyedValues_iff,
        sampleValuesFromBson_eq_map, List.forall_mem_map]
      intro value membership
      exact inductionHypothesis value membership (keyed value membership)
  | leaf value notDocument notArray =>
      cases value with
      | document fields => exact absurd rfl (notDocument fields)
      | array values => exact absurd rfl (notArray values)
      | _ => rfl

/-- Converts a driver document into the input model of inference. -/
def sampleDocumentFromBson (document : StoredDocument) : SampleDocument where
  fields := sampleFieldsFromBson text document.fields
  wellKeyed := wellKeyed_sampleValueFromBson text (.document document.fields) document.wellKeyed

theorem fields_sampleValueFromBson (value : Bson) :
    Nested.fields (sampleValueFromBson text value) =
      (Nested.fields value).map
        (List.map fun entry => (entry.1, sampleValueFromBson text entry.2)) := by
  cases value with
  | document fields =>
      rw [sampleValueFromBson, fields_document, Bson.fields_document, Option.map_some,
        sampleFieldsFromBson_eq_map]
  | _ => rfl

theorem valueAt_sampleDocumentFromBson (document : StoredDocument) (path : FieldPath) :
    (sampleDocumentFromBson text document).valueAt path =
      (document.valueAt path.segments).map (sampleValueFromBson text) :=
  Nested.descend_map (sampleValueFromBson text) (fields_sampleValueFromBson text)
    (.document document.fields) path.segments

end

end Mongres
