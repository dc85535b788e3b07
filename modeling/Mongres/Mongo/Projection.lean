import Mongres.Bson
import Mongres.Library.Text

/-!
# Including fields

An inclusion keeps the values at the paths that its keys designate.  Keys of which one leads to
another collide, and are refused, as are keys that do not name fields.
-/

namespace Mongres

open Text

def pathsBelow (key : String) (paths : List (List String)) : List (List String) :=
  paths.filterMap fun
    | [] => none
    | first :: rest => if first = key then some rest else none

theorem mem_pathsBelow_iff {key : String} {paths : List (List String)} {rest : List String} :
    rest ∈ pathsBelow key paths ↔ key :: rest ∈ paths := by
  rw [pathsBelow, List.mem_filterMap]
  constructor
  · rintro ⟨path, membership, found⟩
    cases path with
    | nil => cases found
    | cons first others =>
        dsimp only at found
        split at found
        · rename_i same
          cases found
          exact same ▸ membership
        · cases found
  · intro membership
    exact ⟨key :: rest, membership, if_pos rfl⟩

namespace Bson

mutual

def keep (paths : List (List String)) (value : Bson) : Option Bson :=
  if [] ∈ paths then some value
  else if paths = [] then none
  else
    match value with
    | .document fields => some (.document (keepFields paths fields))
    | .array values => some (.array (keepValues paths values))
    | _ => none

def keepFields (paths : List (List String)) : List (String × Bson) → List (String × Bson)
  | [] => []
  | (key, value) :: fields =>
      match keep (pathsBelow key paths) value with
      | some kept => (key, kept) :: keepFields paths fields
      | none => keepFields paths fields

def keepValues (paths : List (List String)) : List Bson → List Bson
  | [] => []
  | value :: values =>
      match keep paths value with
      | some kept => kept :: keepValues paths values
      | none => keepValues paths values

end

theorem keep_of_mem {paths : List (List String)} (whole : [] ∈ paths) (value : Bson) :
    keep paths value = some value := by
  cases value <;> simp [keep, whole]

/-- A key that is kept holds what the paths below it keep. -/
theorem lookup_keepFields {fields : Document} (distinct : (fields.map Prod.fst).Nodup)
    (paths : List (List String)) (key : String) :
    (keepFields paths fields).lookup key =
      (fields.lookup key).bind (keep (pathsBelow key paths)) := by
  induction fields with
  | nil => rfl
  | cons entry fields inductionHypothesis =>
      obtain ⟨name, value⟩ := entry
      rw [List.map_cons, List.nodup_cons] at distinct
      rw [keepFields, lookup_cons_eq_if]
      by_cases same : key = name
      · subst same
        have absent : fields.lookup key = none := by
          rw [List.lookup_eq_none_iff]
          intro entry membership
          simp only [bne_iff_ne]
          rintro rfl
          exact distinct.1 (List.mem_map.mpr ⟨entry, membership, rfl⟩)
        rw [if_pos rfl, Option.bind_some]
        cases kept : keep (pathsBelow key paths) value with
        | some result => simp
        | none =>
            dsimp only
            rw [inductionHypothesis distinct.2, absent]
            rfl
      · rw [if_neg same, ← inductionHypothesis distinct.2]
        cases keep (pathsBelow name paths) value with
        | some result => rw [lookup_cons_eq_if, if_neg same]
        | none => rfl

theorem descend_keep {value : Bson} (keyed : value.wellKeyed = true) {paths : List (List String)}
    {path : List String} (membership : path ∈ paths) :
    ((keep paths value).bind fun kept => Nested.descend kept path) = Nested.descend value path := by
  induction path generalizing value paths with
  | nil =>
      rw [keep_of_mem membership]
      rfl
  | cons key path inductionHypothesis =>
      by_cases whole : [] ∈ paths
      · rw [keep_of_mem whole]
        rfl
      · have proper : paths ≠ [] := List.ne_nil_of_mem membership
        cases value with
        | document fields =>
            obtain ⟨distinct, each⟩ := (wellKeyed_document_iff fields).mp keyed
            rw [keep, if_neg whole, if_neg proper, Option.bind_some, Nested.descend_cons,
              Nested.descend_cons, fields_document, fields_document, Option.bind_some,
              Option.bind_some, lookup_keepFields distinct paths key, Option.bind_assoc]
            apply Option.bind_congr
            intro child found
            apply inductionHypothesis _ (mem_pathsBelow_iff.mpr membership)
            exact each _ ((lookup_eq_some_iff_mem distinct key child).mp found)
        | array values =>
            rw [keep, if_neg whole, if_neg proper]
            rfl
        | _ =>
            rw [keep, if_neg whole, if_neg proper]
            · rfl
            · nofun
            · nofun

end Bson

/-- The paths that the keys of an inclusion designate. -/
def includedPaths (projection : Document) : List (List String) :=
  projection.map fun entry => splitOn '.' entry.1

/-- Paths of which one leads to another. -/
def PathsCollide (paths : List (List String)) : Prop :=
  ∃ one ∈ paths, ∃ two ∈ paths, one <+: two ∧ one ≠ two

instance (paths : List (List String)) : Decidable (PathsCollide paths) :=
  inferInstanceAs (Decidable (∃ one ∈ paths, ∃ two ∈ paths, one <+: two ∧ one ≠ two))

/-- The keys that a server takes for a path to a field: no part is empty, and only the parts of a
reference start like an operator. -/
def IsFieldPath (path : List String) : Prop :=
  ∀ segment ∈ path, segment ≠ "" ∧
    (segment.toList.head? = some '$' → segment ∈ ["$ref", "$id", "$db"])

instance (path : List String) : Decidable (IsFieldPath path) :=
  inferInstanceAs (Decidable (∀ segment ∈ path, _ ∧ _))

/-- The operator that takes one element of the array before it. -/
def IsPositional (path : List String) : Prop := 2 ≤ path.length ∧ path.getLast? = some "$"

/-- A projection that has the documented behaviour: an inclusion of fields that do not collide
keeps the value at every one of them.  A positional operator leaves no more than an array before
it, and any other inclusion is refused. -/
structure ProjectionSemantics where
  project : Document → Except String (StoredDocument → Document)
  included : ∀ projection : Document, (∀ entry ∈ projection, entry.2 = .int32 1) →
    (∀ path ∈ includedPaths projection, IsFieldPath path) →
    ¬ PathsCollide (includedPaths projection) →
    ∃ keeps, project projection = .ok keeps ∧
      ∀ document : StoredDocument, ∀ path ∈ includedPaths projection,
        Nested.descend (Bson.document (keeps document)) path = document.valueAt path
  positional : ∀ projection keeps, (∀ entry ∈ projection, entry.2 = .int32 1) →
    project projection = .ok keeps → ∀ path ∈ includedPaths projection, IsPositional path →
      ∀ document, Nested.descend (Bson.document (keeps document)) path = none
  refused : ∀ projection : Document, (∀ entry ∈ projection, entry.2 = .int32 1) →
    (∃ path ∈ includedPaths projection, ¬ IsFieldPath path ∧ ¬ IsPositional path) ∨
      PathsCollide (includedPaths projection) →
    ∀ keeps, project projection ≠ .ok keeps

/-! ## A projection of embedded documents -/

theorem nil_not_mem_includedPaths (projection : Document) : [] ∉ includedPaths projection := by
  simp [includedPaths, splitOn, List.splitOn_ne_nil]

theorem descend_keepFields {document : StoredDocument} {paths : List (List String)}
    (keys : [] ∉ paths) {path : List String} (membership : path ∈ paths) :
    Nested.descend (Bson.document (Bson.keepFields paths document.fields)) path =
      document.valueAt path := by
  have kept := Bson.descend_keep document.wellKeyed membership
  rw [Bson.keep, if_neg keys, if_neg (List.ne_nil_of_mem membership), Option.bind_some] at kept
  exact kept

namespace ProjectionSemantics

/-- What an inclusion keeps of a document.  The `_id` is kept even when it is not mentioned, and
an empty inclusion keeps the whole document. -/
def keepIncluded (paths : List (List String)) (document : StoredDocument) : Document :=
  if paths = [] then document.fields
  else if paths.any fun path => path.head? == some "_id" then
    Bson.keepFields paths document.fields
  else Bson.keepFields (["_id"] :: paths) document.fields

theorem descend_keepIncluded {document : StoredDocument} {paths : List (List String)}
    (keys : [] ∉ paths) {path : List String} (membership : path ∈ paths) :
    Nested.descend (Bson.document (keepIncluded paths document)) path = document.valueAt path := by
  unfold keepIncluded
  rw [if_neg (List.ne_nil_of_mem membership)]
  split
  · exact descend_keepFields keys membership
  · apply descend_keepFields _ (List.mem_cons_of_mem _ membership)
    simp [keys]

/-- A projection that goes through embedded documents and through the elements of arrays, and
drops every other value on the way. -/
def ofDocuments : ProjectionSemantics where
  project projection :=
    let paths := includedPaths projection
    if (∀ path ∈ paths, IsFieldPath path) ∧ ¬ PathsCollide paths then .ok (keepIncluded paths)
    else .error "invalid field path"
  included := by
    intro projection _ fieldPaths apart
    refine ⟨_, if_pos ⟨fieldPaths, apart⟩, ?_⟩
    intro document path membership
    exact descend_keepIncluded (nil_not_mem_includedPaths projection) membership
  positional := by
    rintro projection keeps _ accepted path membership ⟨_, last⟩
    dsimp only at accepted
    split at accepted
    · rename_i fine
      have operator := (fine.1 path membership "$" (List.mem_of_getLast? last)).2 (by decide)
      exact absurd operator (by decide)
    · cases accepted
  refused := by
    rintro projection _ bad keeps accepted
    dsimp only at accepted
    split at accepted
    · rename_i fine
      rcases bad with ⟨path, membership, nameless, _⟩ | collide
      · exact nameless (fine.1 path membership)
      · exact fine.2 collide
    · cases accepted

end ProjectionSemantics

end Mongres
