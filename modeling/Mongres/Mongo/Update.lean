import Mongres.Mongo.Matching
import Mathlib.Tactic

/-!
# Applying `$set`

`$set` walks a dotted path through embedded documents and creates what is missing.
It fails where the path goes on behind a null or a scalar, and where it would change the `_id`.
Nothing is said of what it does inside an array.
-/

namespace Mongres

universe u v

variable {Key : Type u} {Value : Type v} [DecidableEq Key] [Nested Key Value]

def canSet (value : Value) : List Key → Bool
  | [] => true
  | key :: path =>
      match Nested.fields value with
      | none => false
      | some entries =>
          match entries.lookup key with
          | none => true
          | some child => canSet child path

/-- A value can be set exactly when every value met on the way is a document. -/
theorem canSet_eq_true_iff (value : Value) (path : List Key) :
    canSet value path = true ↔
      ∀ first rest, path = first ++ rest → rest ≠ [] →
        ∀ ancestor, Nested.descend value first = some ancestor →
          (Nested.fields ancestor).isSome := by
  induction path generalizing value with
  | nil =>
      apply iff_of_true rfl
      intro first rest split proper
      exact absurd (List.append_eq_nil_iff.mp split.symm).2 proper
  | cons key path inductionHypothesis =>
      rw [canSet]
      cases document : Nested.fields value with
      | none =>
          apply iff_of_false (by simp)
          intro ancestors
          have root := ancestors [] (key :: path) rfl (by simp) value (Nested.descend_nil value)
          simp [document] at root
      | some entries =>
          dsimp only
          constructor
          · intro settable first rest split proper ancestor reached
            cases first with
            | nil =>
                cases reached
                simp [document]
            | cons other first =>
                obtain ⟨rfl, below⟩ := List.cons_eq_cons.mp split
                rw [Nested.descend_cons, document, Option.bind_some,
                  Option.bind_eq_some_iff] at reached
                obtain ⟨child, held, reached⟩ := reached
                rw [held] at settable
                exact (inductionHypothesis child).mp settable first rest below proper ancestor
                  reached
          · intro ancestors
            split
            · rfl
            · rename_i child held
              apply (inductionHypothesis child).mpr
              intro first rest split proper ancestor reached
              apply ancestors (key :: first) rest (by rw [split, List.cons_append]) proper ancestor
              rw [Nested.descend_cons, document, Option.bind_some, held, Option.bind_some]
              exact reached

theorem canSet_of_descend {value leaf : Value} {path : List Key}
    (reached : Nested.descend value path = some leaf) : canSet value path = true := by
  apply (canSet_eq_true_iff value path).mpr
  intro first rest split proper ancestor found
  rw [split] at reached
  obtain ⟨document, same, isDocument⟩ := Nested.descend_document proper reached
  cases Option.some.inj (found.symm.trans same)
  exact isDocument

/-! ## Documents -/

open Nesting Text

/-- A dotted name without empty parts and without parts that look like operators. -/
def IsPlainName (name : String) : Prop :=
  ∀ segment ∈ splitOn '.' name, segment ≠ "" ∧ segment.toList.head? ≠ some '$'

instance (name : String) : Decidable (IsPlainName name) :=
  inferInstanceAs (Decidable (∀ segment ∈ splitOn '.' name, _ ∧ _))

/-- A value that is neither a document nor an array. -/
def Bson.IsScalar (value : Bson) : Prop :=
  (∀ fields, value ≠ .document fields) ∧ ∀ values, value ≠ .array values

theorem Bson.IsScalar.wellKeyed {value : Bson} (scalar : value.IsScalar) :
    value.wellKeyed = true := by
  obtain ⟨noDocument, noArray⟩ := scalar
  cases value with
  | document fields => exact absurd rfl (noDocument fields)
  | array values => exact absurd rfl (noArray values)
  | _ => rfl

/-- The way to a path is free, and what is set within the `_id` is there already. -/
structure StoredDocument.Takes (document : StoredDocument) (path : List String) (value : Bson) :
    Prop where
  passable : Passable (Bson.document document.fields) path
  identifier : path.head? = some "_id" → document.valueAt path = some value

/-- What the entries of a `$set` place. -/
def placedCells (set : Document) : List (List String × Bson) :=
  set.map fun entry => (splitOn '.' entry.1, entry.2)

abbrev StoredDocument.Places (before after : StoredDocument) (cells : List (List String × Bson)) :
    Prop :=
  Nesting.Places (Bson.document before.fields) (.document after.fields) cells

/-- A `$set` that has the documented behaviour: an entry is placed where it is taken, the entries
are set one after another in an order of the server's own, and the `_id` never gets another value. -/
structure SetSemantics where
  set : Document → StoredDocument → Option StoredDocument
  single : ∀ name value before, IsPlainName name → value.IsScalar →
    before.Takes (splitOn '.' name) value →
    ∃ after, set [(name, value)] before = some after ∧
      before.Places after [(splitOn '.' name, value)]
  several : ∀ entries : Document, entries ≠ [] → (∀ entry ∈ entries, IsPlainName entry.1) →
    ((placedCells entries).Pairwise fun one two => Apart one.1 two.1) →
    ∃ ordered : Document, ordered.Perm entries ∧
      ∀ before, set entries before =
        ordered.foldlM (fun document entry => set [entry] document) before
  identifier : ∀ entries before after, set entries before = some after → ∀ held kept order,
    before.valueAt ["_id"] = some held → after.valueAt ["_id"] = some kept →
    held.order kept = some order → order = .eq

theorem StoredDocument.Takes.of_places {before after : StoredDocument}
    {cells : List (List String × Bson)} (places : before.Places after cells) {path : List String}
    {value : Bson} (apart : ∀ cell ∈ cells, Apart cell.1 path) (takes : before.Takes path value) :
    after.Takes path value where
  passable := places.passable apart takes.passable
  identifier within := (places.elsewhere path apart).trans (takes.identifier within)

namespace SetSemantics

variable (mongo : SetSemantics)

theorem exists_foldlM_set {entries : Document} (plain : ∀ entry ∈ entries, IsPlainName entry.1)
    (scalars : ∀ entry ∈ entries, entry.2.IsScalar)
    (apart : (placedCells entries).Pairwise fun one two => Apart one.1 two.1)
    {before : StoredDocument} (takes : ∀ cell ∈ placedCells entries, before.Takes cell.1 cell.2) :
    ∃ after, entries.foldlM (fun document entry => mongo.set [entry] document) before =
        some after ∧ before.Places after (placedCells entries) := by
  induction entries generalizing before with
  | nil => exact ⟨before, rfl, places_nil _⟩
  | cons entry entries inductionHypothesis =>
      rw [List.forall_mem_cons] at plain scalars
      rw [placedCells, List.map_cons, List.forall_mem_cons] at takes
      rw [placedCells, List.map_cons, List.pairwise_cons] at apart
      obtain ⟨middle, set, places⟩ :=
        mongo.single entry.1 entry.2 before plain.1 scalars.1 takes.1
      obtain ⟨after, setRest, placesRest⟩ := inductionHypothesis plain.2 scalars.2 apart.2
        fun cell membership => (takes.2 cell membership).of_places places
          (List.forall_mem_singleton.mpr (apart.1 cell membership))
      refine ⟨after, ?_, places.append placesRest (List.forall_mem_singleton.mpr apart.1)⟩
      rw [List.foldlM_cons, set]
      exact setRest

/-- A `$set` of entries that are apart from each other places all of them. -/
theorem exists_set {entries : Document} (nonempty : entries ≠ [])
    (plain : ∀ entry ∈ entries, IsPlainName entry.1)
    (scalars : ∀ entry ∈ entries, entry.2.IsScalar)
    (apart : (placedCells entries).Pairwise fun one two => Apart one.1 two.1)
    {before : StoredDocument} (takes : ∀ cell ∈ placedCells entries, before.Takes cell.1 cell.2) :
    ∃ after, mongo.set entries before = some after ∧
      before.Places after (placedCells entries) := by
  obtain ⟨ordered, reordered, sets⟩ := mongo.several entries nonempty plain apart
  have cells : (placedCells ordered).Perm (placedCells entries) := reordered.map _
  obtain ⟨after, set, places⟩ := mongo.exists_foldlM_set
    (fun entry membership => plain entry (reordered.mem_iff.mp membership))
    (fun entry membership => scalars entry (reordered.mem_iff.mp membership))
    ((cells.pairwise_iff Apart.symm).mpr apart)
    fun cell membership => takes cell (cells.mem_iff.mp membership)
  refine ⟨after, (sets before).trans set, ?_⟩
  exact
    { held := fun cell membership => places.held cell (cells.mem_iff.mpr membership)
      elsewhere := fun path disjoint => places.elsewhere path fun cell membership =>
        disjoint cell (cells.mem_iff.mp membership) }

end SetSemantics

/-! ## A `$set` on embedded documents -/

namespace Bson

mutual

def identical : Bson → Bson → Bool
  | .double one, .double two => one.toBits == two.toBits
  | .string one, .string two => one == two
  | .array one, .array two => identicalValues one two
  | .document one, .document two => identicalFields one two
  | .boolean one, .boolean two => one == two
  | .regularExpression one options, .regularExpression two others => one == two && options == others
  | .javaScriptCode one, .javaScriptCode two => one == two
  | .javaScriptCodeWithScope one scope, .javaScriptCodeWithScope two other =>
      one == two && identicalFields scope other
  | .int32 one, .int32 two => one == two
  | .int64 one, .int64 two => one == two
  | .timestamp one increment, .timestamp two other => one == two && increment == other
  | .binary one bytes, .binary two others => one == two && bytes == others
  | .objectId one, .objectId two => one == two
  | .dateTime one, .dateTime two => one == two
  | .symbol one, .symbol two => one == two
  | .decimal128 one, .decimal128 two => one == two
  | .dbPointer one id, .dbPointer two other => one == two && id == other
  | .null, .null | .undefined, .undefined | .maxKey, .maxKey | .minKey, .minKey => true
  | _, _ => false

def identicalFields : List (String × Bson) → List (String × Bson) → Bool
  | [], [] => true
  | (key, one) :: fields, (name, two) :: others =>
      key == name && identical one two && identicalFields fields others
  | _, _ => false

def identicalValues : List Bson → List Bson → Bool
  | [], [] => true
  | one :: values, two :: others => identical one two && identicalValues values others
  | _, _ => false

end

mutual

@[simp]
theorem identical_self (value : Bson) : identical value value = true := by
  cases value with
  | array values => exact identicalValues_self values
  | document fields => exact identicalFields_self fields
  | javaScriptCodeWithScope code scope => simp [identical, identicalFields_self scope]
  | _ => simp [identical]

theorem identicalFields_self (fields : Document) : identicalFields fields fields = true := by
  cases fields with
  | nil => rfl
  | cons entry fields =>
      obtain ⟨key, value⟩ := entry
      simp [identicalFields, identical_self value, identicalFields_self fields]

theorem identicalValues_self (values : List Bson) : identicalValues values values = true := by
  cases values with
  | nil => rfl
  | cons value values => simp [identicalValues, identical_self value, identicalValues_self values]

end

end Bson

namespace SetSemantics

/-- Sets one value.  The `_id` can be set to what it is. -/
def setOne (before : StoredDocument) (entry : String × Bson) : Option StoredDocument :=
  let path := splitOn '.' entry.1
  if path.head? = some "_id" then
    if (before.valueAt path).any entry.2.identical then some before else none
  else
    match setAt (Bson.document before.fields) path entry.2 with
    | some (.document fields) =>
        if keyed : (Bson.document fields).wellKeyed = true then some ⟨fields, keyed⟩ else none
    | _ => none

theorem exists_setOne {name : String} {value : Bson} {before : StoredDocument}
    (keyed : value.wellKeyed = true) (takes : before.Takes (splitOn '.' name) value) :
    ∃ after, setOne before (name, value) = some after ∧
      before.Places after [(splitOn '.' name, value)] := by
  unfold setOne
  dsimp only
  split
  · rename_i within
    have held := takes.identifier within
    rw [held, Option.any_some, Bson.identical_self, if_pos rfl]
    exact ⟨before, rfl, List.forall_mem_singleton.mpr held, fun _ _ => rfl⟩
  · obtain ⟨result, set⟩ := exists_setAt takes.passable value
    obtain ⟨fields, rfl⟩ := Bson.exists_document_of_setAt (splitOn_ne_nil '.' name) set
    rw [set]
    dsimp only
    rw [dif_pos (Bson.wellKeyed_of_setAt before.wellKeyed keyed set)]
    exact ⟨_, rfl, places_setAt set⟩

theorem valueAt_id_of_setOne {before after : StoredDocument} {entry : String × Bson}
    (set : setOne before entry = some after) : after.valueAt ["_id"] = before.valueAt ["_id"] := by
  unfold setOne at set
  dsimp only at set
  split at set
  · split at set
    · cases set
      rfl
    · cases set
  · rename_i elsewhere
    split at set
    · rename_i fields placed
      split at set
      · cases set
        obtain ⟨key, rest, split⟩ := List.exists_cons_of_ne_nil (splitOn_ne_nil '.' entry.1)
        apply descend_setAt_of_apart placed
        rw [split, apart_cons_cons_iff]
        left
        rintro rfl
        exact elsewhere (by rw [split]; rfl)
      · cases set
    · cases set

theorem valueAt_id_of_foldlM {entries : Document} {before after : StoredDocument}
    (set : entries.foldlM setOne before = some after) :
    after.valueAt ["_id"] = before.valueAt ["_id"] := by
  induction entries generalizing before with
  | nil =>
      cases set
      rfl
  | cons entry entries inductionHypothesis =>
      rw [List.foldlM_cons, Option.bind_eq_bind, Option.bind_eq_some_iff] at set
      obtain ⟨middle, first, rest⟩ := set
      exact (inductionHypothesis rest).trans (valueAt_id_of_setOne first)

/-- A server that sets the entries in the order in which they are sent. -/
def ofDocuments : SetSemantics where
  set entries before := entries.foldlM setOne before
  single name value before _ scalar takes := by
    obtain ⟨after, set, places⟩ := exists_setOne scalar.wellKeyed takes
    refine ⟨after, ?_, places⟩
    rw [List.foldlM_cons, set]
    rfl
  several entries _ _ _ := by
    refine ⟨entries, .refl _, ?_⟩
    intro before
    congr 1
    funext document entry
    rw [List.foldlM_cons]
    cases setOne document entry <;> rfl
  identifier entries before after set held kept order wasHeld isKept compared := by
    cases isKept.symm.trans ((valueAt_id_of_foldlM set).trans wasHeld)
    exact Bson.eq_of_order_self compared

end SetSemantics

end Mongres
