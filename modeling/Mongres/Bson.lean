import Mongres.Library.Placing

/-!
# BSON values and documents

Every kind of value that a driver document can hold.  A document is an ordered
map; inserting an existing key replaces its value in place.
-/

namespace Mongres

inductive Bson where
  | double (value : Float)
  | string (value : String)
  | array (values : List Bson)
  | document (fields : List (String × Bson))
  | boolean (value : Bool)
  | null
  | regularExpression (pattern options : String)
  | javaScriptCode (code : String)
  | javaScriptCodeWithScope (code : String) (scope : List (String × Bson))
  | int32 (value : Int32)
  | int64 (value : Int64)
  | timestamp (time increment : UInt32)
  | binary (subtype : UInt8) (bytes : List UInt8)
  | objectId (bytes : List UInt8)
  | dateTime (milliseconds : Int64)
  | symbol (value : String)
  | decimal128 (bytes : List UInt8)
  | undefined
  | maxKey
  | minKey
  | dbPointer (collection : String) (id : List UInt8)

/-- The element types of BSON, with both widths of integers as one type. -/
inductive ElementType where
  | double
  | string
  | array
  | document
  | boolean
  | null
  | regularExpression
  | javaScriptCode
  | javaScriptCodeWithScope
  | integer
  | timestamp
  | binary
  | objectId
  | dateTime
  | symbol
  | decimal128
  | undefined
  | maxKey
  | minKey
  | dbPointer
  deriving DecidableEq, Repr

def Bson.elementType : Bson → ElementType
  | .double _ => .double
  | .string _ => .string
  | .array _ => .array
  | .document _ => .document
  | .boolean _ => .boolean
  | .null => .null
  | .regularExpression _ _ => .regularExpression
  | .javaScriptCode _ => .javaScriptCode
  | .javaScriptCodeWithScope _ _ => .javaScriptCodeWithScope
  | .int32 _ | .int64 _ => .integer
  | .timestamp _ _ => .timestamp
  | .binary _ _ => .binary
  | .objectId _ => .objectId
  | .dateTime _ => .dateTime
  | .symbol _ => .symbol
  | .decimal128 _ => .decimal128
  | .undefined => .undefined
  | .maxKey => .maxKey
  | .minKey => .minKey
  | .dbPointer _ _ => .dbPointer

/-- The entries of a driver document, in order. -/
abbrev Document := List (String × Bson)

namespace Bson

@[elab_as_elim]
theorem nestedInduction {motive : Bson → Prop}
    (document : ∀ fields, (∀ entry ∈ fields, motive entry.2) → motive (.document fields))
    (array : ∀ values, (∀ value ∈ values, motive value) → motive (.array values))
    (leaf : ∀ value : Bson, (∀ fields, value ≠ .document fields) → (∀ values, value ≠ .array values) →
      motive value)
    (value : Bson) : motive value :=
  @Bson.rec motive (fun values => ∀ value ∈ values, motive value)
    (fun fields => ∀ entry ∈ fields, motive entry.2) (fun entry => motive entry.2)
    (fun _ => leaf _ nofun nofun) (fun _ => leaf _ nofun nofun) array document
    (fun _ => leaf _ nofun nofun) (leaf _ nofun nofun) (fun _ _ => leaf _ nofun nofun)
    (fun _ => leaf _ nofun nofun) (fun _ _ _ => leaf _ nofun nofun) (fun _ => leaf _ nofun nofun)
    (fun _ => leaf _ nofun nofun) (fun _ _ => leaf _ nofun nofun) (fun _ _ => leaf _ nofun nofun)
    (fun _ => leaf _ nofun nofun) (fun _ => leaf _ nofun nofun) (fun _ => leaf _ nofun nofun)
    (fun _ => leaf _ nofun nofun) (leaf _ nofun nofun) (leaf _ nofun nofun) (leaf _ nofun nofun)
    (fun _ _ => leaf _ nofun nofun)
    (by simp) (fun _ _ head tail => List.forall_mem_cons.mpr ⟨head, tail⟩)
    (by simp) (fun _ _ head tail => List.forall_mem_cons.mpr ⟨head, tail⟩)
    (fun _ _ value => value) value

instance : Nested String Bson where
  fields
    | .document fields => some fields
    | _ => none

@[simp]
theorem fields_document (fields : Document) :
    Nested.fields (Bson.document fields) = some fields := rfl

instance : Nesting String Bson where
  document := .document
  fields_document _ := rfl

@[simp]
theorem nesting_document (fields : Document) : Nesting.document fields = Bson.document fields := rfl

theorem fields_eq_some_iff {value : Bson} {fields : Document} :
    Nested.fields value = some fields ↔ value = .document fields := by
  cases value <;> simp [Nested.fields]

mutual

/-- Whether the keys of every document inside a value are distinct. -/
def wellKeyed : Bson → Bool
  | .document fields => decide (fields.map Prod.fst).Nodup && wellKeyedFields fields
  | .array values => wellKeyedValues values
  | _ => true

def wellKeyedFields : List (String × Bson) → Bool
  | [] => true
  | (_, value) :: fields => wellKeyed value && wellKeyedFields fields

def wellKeyedValues : List Bson → Bool
  | [] => true
  | value :: values => wellKeyed value && wellKeyedValues values

end

theorem wellKeyedFields_iff (fields : Document) :
    wellKeyedFields fields = true ↔ ∀ entry ∈ fields, entry.2.wellKeyed = true := by
  induction fields with
  | nil => simp [wellKeyedFields]
  | cons entry fields inductionHypothesis => simp [wellKeyedFields, inductionHypothesis]

theorem wellKeyed_document_iff (fields : Document) :
    (Bson.document fields).wellKeyed = true ↔
      (fields.map Prod.fst).Nodup ∧ ∀ entry ∈ fields, entry.2.wellKeyed = true := by
  rw [wellKeyed, Bool.and_eq_true, decide_eq_true_iff, wellKeyedFields_iff]

theorem wellKeyedValues_iff (values : List Bson) :
    wellKeyedValues values = true ↔ ∀ value ∈ values, value.wellKeyed = true := by
  induction values with
  | nil => simp [wellKeyedValues]
  | cons value values inductionHypothesis => simp [wellKeyedValues, inductionHypothesis]

theorem exists_document_of_setAt {held placed result : Bson} {path : List String}
    (proper : path ≠ []) (set : Nesting.setAt held path placed = some result) :
    ∃ fields, result = .document fields := by
  obtain ⟨key, rest, rfl⟩ := List.exists_cons_of_ne_nil proper
  obtain ⟨entries, below, _, _, rfl⟩ := Nesting.setAt_cons_eq_some_iff.mp set
  exact ⟨_, rfl⟩

theorem wellKeyed_of_setAt {held placed result : Bson} {path : List String}
    (keyed : held.wellKeyed = true) (placedKeyed : placed.wellKeyed = true)
    (set : Nesting.setAt held path placed = some result) : result.wellKeyed = true := by
  induction path generalizing held result with
  | nil =>
      cases set
      exact placedKeyed
  | cons key path inductionHypothesis =>
      obtain ⟨entries, child, isDocument, setBelow, rfl⟩ := Nesting.setAt_cons_eq_some_iff.mp set
      cases fields_eq_some_iff.mp isDocument
      obtain ⟨distinct, each⟩ := (wellKeyed_document_iff entries).mp keyed
      have belowKeyed : ((entries.lookup key).getD (Bson.document [])).wellKeyed = true := by
        cases found : entries.lookup key with
        | none => rfl
        | some below => exact each _ ((lookup_eq_some_iff_mem distinct key below).mp found)
      refine (wellKeyed_document_iff _).mpr ⟨nodup_setEntry distinct key child, ?_⟩
      intro entry membership
      rcases mem_setEntry membership with rfl | listed
      · exact inductionHypothesis belowKeyed setBelow
      · exact each entry listed

end Bson

namespace Document

/-- Sets a key, in place if the document has it and at the end otherwise. -/
def insert (document : Document) (key : String) (value : Bson) : Document :=
  match document with
  | [] => [(key, value)]
  | (name, held) :: rest =>
      if name = key then (key, value) :: rest else (name, held) :: insert rest key value

theorem insert_eq_setEntry (document : Document) (key : String) (value : Bson) :
    document.insert key value = setEntry document key value := by
  induction document with
  | nil => rfl
  | cons entry rest inductionHypothesis => rw [insert, setEntry, inductionHypothesis]

def containsKey (document : Document) (key : String) : Bool := (document.lookup key).isSome

end Document

/-- A stored document: its keys are distinct at every level. -/
structure StoredDocument where
  fields : Document
  wellKeyed : (Bson.document fields).wellKeyed = true := by decide

namespace StoredDocument

/-- The value a document holds at a path, reached through embedded documents. -/
def valueAt (segments : List String) (document : StoredDocument) : Option Bson :=
  Nested.descend (Bson.document document.fields) segments

end StoredDocument

/-- A document can hold a value at any path. -/
theorem StoredDocument.exists_valueAt {path : List String} (nonempty : path ≠ []) :
    ∃ document : StoredDocument, document.valueAt path = some .null := by
  obtain ⟨result, set⟩ := Nesting.exists_setAt_empty path Bson.null
  obtain ⟨fields, rfl⟩ := Bson.exists_document_of_setAt nonempty set
  exact ⟨⟨fields, Bson.wellKeyed_of_setAt (by rfl) (by rfl) set⟩, Nesting.descend_setAt set⟩

end Mongres
