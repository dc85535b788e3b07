import Mongres.Executor.Documents
import Mongres.Schema.Infer

/-!
# Dotted names and the paths they designate

MongoDB reads a dotted name as the path of its pieces.  The guard against literal
dots looks at top-level keys only, so a dot inside a nested key is read as nesting.
-/

namespace Mongres

open Fallible Text

/-- The name sent for a path, if any, is read back as the path's own segments. -/
def FieldPath.AddressedFaithfully (path : FieldPath) : Prop :=
  ∀ name, mongoFieldName path = .ok name → splitOn '.' name = path.segments

def FieldPath.HasPlainKeys (path : FieldPath) : Prop :=
  path.segments.length = 1 ∨ ∀ segment ∈ path.segments, '.' ∉ segment.toList

instance (path : FieldPath) : Decidable path.HasPlainKeys :=
  inferInstanceAs (Decidable (_ ∨ _))

theorem FieldPath.addressedFaithfully_iff {path : FieldPath} (nonempty : path.segments ≠ []) :
    path.AddressedFaithfully ↔ path.HasPlainKeys := by
  have recovered : splitOn '.' path.displayName = path.segments ↔
      ∀ segment ∈ path.segments, '.' ∉ segment.toList :=
    splitOn_join_iff '.' nonempty
  have named : path.AddressedFaithfully ↔
      (path.isLiteralDottedKey = false → splitOn '.' path.displayName = path.segments) := by
    simp only [AddressedFaithfully, mongoFieldName_eq_ok_iff, and_imp, forall_eq_apply_imp_iff]
  rw [named, recovered]
  constructor
  · intro faithful
    rcases Nat.lt_or_ge path.segments.length 2 with short | nested
    · have positive := List.length_pos_iff.mpr nonempty
      exact .inl (by omega)
    · exact .inr (faithful (path.isLiteralDottedKey_of_two_le nested))
  · rintro (single | plain) accepted
    · obtain ⟨key, shape⟩ := List.length_eq_one_iff.mp single
      rw [shape, List.forall_mem_singleton]
      intro dotted
      have literal := path.isLiteralDottedKey_eq_true_iff.mpr ⟨key, shape, dotted⟩
      rw [accepted] at literal
      cases literal
    · exact plain

def FieldPath.Undotted (path : FieldPath) : Prop := ∀ segment ∈ path.segments, '.' ∉ segment.toList

instance (path : FieldPath) : Decidable path.Undotted :=
  inferInstanceAs (Decidable (∀ segment ∈ path.segments, '.' ∉ segment.toList))

theorem FieldPath.Undotted.isLiteralDottedKey {path : FieldPath} (undotted : path.Undotted) :
    path.isLiteralDottedKey = false := by
  rw [← Bool.not_eq_true, path.isLiteralDottedKey_eq_true_iff]
  rintro ⟨segment, single, dotted⟩
  exact undotted segment (by simp [single]) dotted

theorem FieldPath.Undotted.splitOn_displayName {path : FieldPath} (undotted : path.Undotted)
    (nonempty : path.segments ≠ []) : splitOn '.' path.displayName = path.segments :=
  (splitOn_join_iff '.' nonempty).mpr undotted

/-- Paths that are addressed faithfully are told apart by their names. -/
theorem FieldPath.AddressedFaithfully.eq_of_name {path other : FieldPath} {name : String}
    (faithful : path.AddressedFaithfully) (otherFaithful : other.AddressedFaithfully)
    (named : mongoFieldName path = .ok name) (otherNamed : mongoFieldName other = .ok name) :
    path = other := by
  have segments : path.segments = other.segments :=
    (faithful name named).symm.trans (otherFaithful name otherNamed)
  cases path
  cases other
  exact congrArg FieldPath.mk segments

/-- The names of an inferred profile are faithful exactly on paths with plain keys,
and no two of these paths share a name. -/
theorem mongoFieldName_faithful_iff (documents : List SampleDocument) (path : FieldPath)
    (listed : ((SchemaProfile.infer documents).field path).isSome) :
    (path.AddressedFaithfully ↔ path.HasPlainKeys) ∧
      ∀ other name, ((SchemaProfile.infer documents).field other).isSome →
        path.HasPlainKeys → other.HasPlainKeys →
        mongoFieldName path = .ok name → mongoFieldName other = .ok name → path = other := by
  have exact (target : FieldPath)
      (profiled : ((SchemaProfile.infer documents).field target).isSome) :
      target.AddressedFaithfully ↔ target.HasPlainKeys := by
    have observed := (SchemaProfile.isSome_field_infer_iff documents target).mp profiled
    exact FieldPath.addressedFaithfully_iff observed.1
  refine ⟨exact path listed, ?_⟩
  intro other name otherListed plain otherPlain named otherNamed
  have faithful := (exact path listed).mpr plain
  exact faithful.eq_of_name ((exact other otherListed).mpr otherPlain) named otherNamed

/-! ## The names of an update -/

theorem mem_keys_insert_iff (document : Document) (key name : String) (value : Bson) :
    name ∈ (document.insert key value).map Prod.fst ↔ name = key ∨ name ∈ document.map Prod.fst := by
  induction document with
  | nil => simp [Document.insert]
  | cons entry document inductionHypothesis =>
      obtain ⟨held, heldValue⟩ := entry
      rw [Document.insert]
      split
      · rename_i same
        simp [same]
      · rw [List.map_cons, List.mem_cons, inductionHypothesis, List.map_cons, List.mem_cons]
        exact or_left_comm

private theorem mem_keys_assign_iff {assignments : List AssignmentPlan}
    {start final : Document × List (List String)}
    (assigned : assignments.foldlM assign start = .ok final) (name : String) :
    name ∈ final.1.map Prod.fst ↔ name ∈ start.1.map Prod.fst ∨
      ∃ assignment ∈ assignments, mongoFieldName assignment.path = .ok name := by
  induction assignments generalizing start with
  | nil =>
      cases assigned
      simp
  | cons assignment assignments inductionHypothesis =>
      rw [List.foldlM_cons] at assigned
      obtain ⟨next, first, rest⟩ := bind_eq_ok_iff.mp assigned
      obtain ⟨field, named, first⟩ := bind_eq_ok_iff.mp first
      obtain ⟨_, _, first⟩ := bind_eq_ok_iff.mp first
      obtain ⟨value, _, same⟩ := bind_eq_ok_iff.mp first
      cases same
      rw [inductionHypothesis rest, mem_keys_insert_iff]
      simp only [List.exists_mem_cons_iff, named, Except.ok.injEq, @eq_comm _ field]
      rw [or_assoc, or_left_comm]

private theorem exists_name_of_assign {assignments : List AssignmentPlan}
    {start final : Document × List (List String)}
    (assigned : assignments.foldlM assign start = .ok final) :
    ∀ assignment ∈ assignments, ∃ name, mongoFieldName assignment.path = .ok name := by
  induction assignments generalizing start with
  | nil => simp
  | cons assignment assignments inductionHypothesis =>
      rw [List.foldlM_cons] at assigned
      obtain ⟨next, first, rest⟩ := bind_eq_ok_iff.mp assigned
      obtain ⟨field, named, _⟩ := bind_eq_ok_iff.mp first
      exact List.forall_mem_cons.mpr ⟨⟨field, named⟩, inductionHypothesis rest⟩

theorem exists_set_of_updateDocument {assignments : List AssignmentPlan} {update : Document}
    (built : updateDocument assignments = .ok update) :
    (∀ assignment ∈ assignments, ∃ name, mongoFieldName assignment.path = .ok name) ∧
      ∃ set : Document, update = [("$set", .document set)] ∧
        ∀ name, name ∈ set.map Prod.fst ↔
          ∃ assignment ∈ assignments, mongoFieldName assignment.path = .ok name := by
  unfold updateDocument at built
  rw [ite_error_eq_ok_iff] at built
  obtain ⟨final, assigned, same⟩ := bind_eq_ok_iff.mp built.2
  cases same
  refine ⟨exists_name_of_assign assigned, final.1, rfl, ?_⟩
  intro name
  simpa using mem_keys_assign_iff assigned name

section Example

private def releases : List SampleDocument :=
  [{ fields := [("versions", .document [("1.2", .string "stable"), ("next", .string "2")])] }]

/-- A nested path of plain keys is addressed faithfully, and has its name for itself. -/
theorem mongoFieldName_faithful_name :
    FieldPath.AddressedFaithfully ⟨["versions", "next"]⟩ ∧
      ∀ other, ((SchemaProfile.infer releases).field other).isSome → other.HasPlainKeys →
        mongoFieldName other = .ok "versions.next" → ⟨["versions", "next"]⟩ = other := by
  have exact := mongoFieldName_faithful_iff releases ⟨["versions", "next"]⟩ (by decide)
  have plain : FieldPath.HasPlainKeys ⟨["versions", "next"]⟩ := by decide
  refine ⟨exact.1.mpr plain, ?_⟩
  intro other listed otherPlain named
  exact exact.2 other "versions.next" listed plain otherPlain rfl named

/-- The key `1.2` below `versions` is sent as `versions.1.2`, which has three pieces. -/
theorem not_addressedFaithfully :
    ¬ ∀ (documents : List SampleDocument) (path : FieldPath),
      ((SchemaProfile.infer documents).field path).isSome → path.AddressedFaithfully := by
  intro faithful
  have split := faithful releases ⟨["versions", "1.2"]⟩ (by decide) "versions.1.2" (by decide)
  exact absurd split (by decide)

end Example

end Mongres
