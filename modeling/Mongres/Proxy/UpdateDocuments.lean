import Mongres.Executor.FieldNames
import Mongres.Executor.FilterGrammar
import Mongres.Mongo.Update
import Mongres.Proxy.InsertDocuments

/-!
# Update documents

An update assigns to paths that are apart from each other, so its `$set` has an entry for each
assignment, and applying it places every value without disturbing anything else.
-/

namespace Mongres

open Fallible Nesting Text

/-! ## Paths that an update accepts -/

/-- A path of at least one segment, none of them empty or like an operator. -/
def FieldPath.Settable (path : FieldPath) : Prop :=
  path.segments ≠ [] ∧ ∀ segment ∈ path.segments, segment ≠ "" ∧ segment.toList.head? ≠ some '$'

theorem pathsOverlap_eq_true_iff (left right : List String) :
    pathsOverlap left right = true ↔ ¬ Apart left right := by
  rw [pathsOverlap, decide_eq_true_iff, not_apart_iff]
  rcases Nat.le_total left.length right.length with shorter | shorter
  · rw [Nat.min_eq_left shorter, List.take_length, List.prefix_iff_eq_take]
    constructor
    · exact .inl
    · rintro (leads | leads)
      · exact leads
      · have same := List.IsPrefix.eq_of_length_le leads shorter
        rw [same, List.take_length]
  · rw [Nat.min_eq_right shorter, List.take_length, @List.prefix_iff_eq_take _ right]
    constructor
    · exact fun same => .inr same.symm
    · rintro (leads | leads)
      · have same := List.IsPrefix.eq_of_length_le leads shorter
        rw [same, List.take_length]
      · exact leads.symm

theorem validateUpdatePath_eq_ok_iff {path : FieldPath} {assigned : List (List String)} :
    validateUpdatePath path assigned = .ok () ↔
      path.Settable ∧ ∀ other ∈ assigned, Apart other path.segments := by
  unfold validateUpdatePath
  simp only [ite_error_eq_ok_iff, FieldPath.Settable, Bool.or_eq_true, not_or, List.isEmpty_iff,
    List.any_eq_true, not_exists, not_and, pathsOverlap_eq_true_iff, not_not, and_true,
    decide_eq_true_iff, String.isEmpty_iff]
  constructor
  · rintro ⟨⟨nonempty, named⟩, plain, apart⟩
    exact ⟨⟨nonempty, fun segment membership => ⟨named segment membership, plain segment membership⟩⟩,
      fun other membership => (apart other membership).symm⟩
  · rintro ⟨⟨nonempty, plain⟩, apart⟩
    exact ⟨⟨nonempty, fun segment membership => (plain segment membership).1⟩,
      fun segment membership => (plain segment membership).2,
      fun other membership => (apart other membership).symm⟩

/-! ## The entries of an update -/

def Names (assignment : AssignmentPlan) (entry : String × Bson) : Prop :=
  entry.1 = assignment.path.displayName ∧ bsonValue assignment.value = .ok entry.2

theorem assign_eq_ok_iff {start final : Document × List (List String)}
    {assignment : AssignmentPlan} :
    assign start assignment = .ok final ↔
      assignment.path.isLiteralDottedKey = false ∧ assignment.path.Settable ∧
        (∀ other ∈ start.2, Apart other assignment.path.segments) ∧
        ∃ entry, Names assignment entry ∧
          final = (start.1.insert entry.1 entry.2, start.2 ++ [assignment.path.segments]) := by
  unfold assign
  rw [bind_eq_ok_iff_of fun _ => mongoFieldName_eq_ok_iff]
  simp only [bind_eq_ok_iff, Except.ok.injEq]
  constructor
  · rintro ⟨plain, _, valid, value, converted, same⟩
    obtain ⟨settable, apart⟩ := validateUpdatePath_eq_ok_iff.mp valid
    exact ⟨plain, settable, apart, (_, value), ⟨rfl, converted⟩, same.symm⟩
  · rintro ⟨plain, settable, apart, ⟨_, value⟩, ⟨rfl, converted⟩, same⟩
    have valid := validateUpdatePath_eq_ok_iff.mpr ⟨settable, apart⟩
    exact ⟨plain, (), valid, value, converted, same.symm⟩

/-- The conditions on the assignments of an update, apart from those on what came before. -/
def Assignable (assignments : List AssignmentPlan) : Prop :=
  (∀ assignment ∈ assignments, assignment.path.isLiteralDottedKey = false ∧
    assignment.path.Settable) ∧
  assignments.Pairwise fun one two => Apart one.path.segments two.path.segments

theorem foldlM_assign_eq_ok_iff {assignments : List AssignmentPlan}
    {start final : Document × List (List String)} :
    assignments.foldlM assign start = .ok final ↔
      Assignable assignments ∧
        (∀ other ∈ start.2, ∀ assignment ∈ assignments, Apart other assignment.path.segments) ∧
        ∃ entries, List.Forall₂ Names assignments entries ∧
          final =
            (entries.foldl (fun (set : Document) entry => set.insert entry.1 entry.2) start.1,
              start.2 ++ assignments.map fun assignment => assignment.path.segments) := by
  induction assignments generalizing start with
  | nil => simp [Assignable, pure, Except.pure, @eq_comm _ final]
  | cons assignment assignments inductionHypothesis =>
      rw [List.foldlM_cons, bind_eq_ok_iff]
      constructor
      · rintro ⟨next, first, rest⟩
        obtain ⟨plain, settable, apart, entry, names, rfl⟩ := assign_eq_ok_iff.mp first
        obtain ⟨⟨each, pairs⟩, disjoint, entries, namesAll, rfl⟩ := inductionHypothesis.mp rest
        rw [List.forall_mem_append, List.forall_mem_singleton] at disjoint
        refine ⟨⟨List.forall_mem_cons.mpr ⟨⟨plain, settable⟩, each⟩,
          List.pairwise_cons.mpr ⟨disjoint.2, pairs⟩⟩, ?_, entry :: entries,
          .cons names namesAll, ?_⟩
        · intro other membership
          exact List.forall_mem_cons.mpr ⟨apart other membership, disjoint.1 other membership⟩
        · simp
      · rintro ⟨⟨each, pairs⟩, disjoint, entries, names, rfl⟩
        obtain ⟨entry, rest, namesFirst, namesRest, rfl⟩ := List.forall₂_cons_left_iff.mp names
        rw [List.forall_mem_cons] at each
        rw [List.pairwise_cons] at pairs
        refine ⟨_, assign_eq_ok_iff.mpr ⟨each.1.1, each.1.2, fun other membership =>
          disjoint other membership assignment List.mem_cons_self, entry, namesFirst, rfl⟩, ?_⟩
        apply inductionHypothesis.mpr
        refine ⟨⟨each.2, pairs.2⟩, ?_, rest, namesRest, ?_⟩
        · rw [List.forall_mem_append, List.forall_mem_singleton]
          exact ⟨fun other membership one oneMembership =>
            disjoint other membership one (List.mem_cons_of_mem _ oneMembership), pairs.1⟩
        · simp

theorem map_fst_of_names {assignments : List AssignmentPlan} {entries : List (String × Bson)}
    (names : List.Forall₂ Names assignments entries) :
    entries.map Prod.fst = assignments.map fun assignment => assignment.path.displayName := by
  induction names with
  | nil => rfl
  | cons first _ inductionHypothesis =>
      rw [List.map_cons, List.map_cons, first.1, inductionHypothesis]

theorem exists_names_iff (assignments : List AssignmentPlan) :
    (∃ entries, List.Forall₂ Names assignments entries) ↔
      ∀ assignment ∈ assignments, assignment.value.isPlaceholder = false := by
  rw [exists_forall₂_iff]
  apply forall₂_congr
  intro assignment _
  rw [← exists_bsonValue_iff]
  simp [Names]

theorem insert_of_not_mem {document : Document} {key : String}
    (fresh : key ∉ document.map Prod.fst) (value : Bson) :
    document.insert key value = document ++ [(key, value)] := by
  induction document with
  | nil => rfl
  | cons entry rest inductionHypothesis =>
      rw [List.map_cons, List.mem_cons, not_or] at fresh
      rw [Document.insert, if_neg (Ne.symm fresh.1), inductionHypothesis fresh.2, List.cons_append]

theorem foldl_insert_of_nodup {entries : List (String × Bson)} {start : Document}
    (distinct : ((start ++ entries).map Prod.fst).Nodup) :
    entries.foldl (fun (set : Document) entry => set.insert entry.1 entry.2) start =
      start ++ entries := by
  induction entries generalizing start with
  | nil => rw [List.foldl_nil, List.append_nil]
  | cons entry entries inductionHypothesis =>
      have fresh : entry.1 ∉ start.map Prod.fst := by
        intro membership
        rw [List.map_append, List.map_cons, List.nodup_append] at distinct
        exact distinct.2.2 entry.1 membership entry.1 List.mem_cons_self rfl
      rw [List.append_cons] at distinct
      rw [List.foldl_cons, insert_of_not_mem fresh, inductionHypothesis distinct, ← List.append_cons]

section Undotted

variable {assignments : List AssignmentPlan}

theorem nodup_displayName (assignable : Assignable assignments)
    (undotted : ∀ assignment ∈ assignments, assignment.path.Undotted) :
    (assignments.map fun assignment => assignment.path.displayName).Nodup := by
  have nonempty : ∀ assignment ∈ assignments, assignment.path.segments ≠ [] :=
    fun assignment membership => (assignable.1 assignment membership).2.1
  apply List.pairwise_map.mpr
  apply List.Pairwise.imp_of_mem _ assignable.2
  intro one two oneMembership twoMembership apart same
  have segments : one.path.segments = two.path.segments := by
    rw [← (undotted one oneMembership).splitOn_displayName (nonempty one oneMembership), same,
      (undotted two twoMembership).splitOn_displayName (nonempty two twoMembership)]
  exact apart.1 (segments ▸ List.prefix_rfl)

theorem foldl_insert_of_names {entries : List (String × Bson)} (assignable : Assignable assignments)
    (undotted : ∀ assignment ∈ assignments, assignment.path.Undotted)
    (names : List.Forall₂ Names assignments entries) :
    entries.foldl (fun (set : Document) entry => set.insert entry.1 entry.2) [] = entries := by
  apply foldl_insert_of_nodup
  rw [List.nil_append, map_fst_of_names names]
  exact nodup_displayName assignable undotted

/-- An update document has exactly one entry for each assignment, in their order. -/
theorem updateDocument_eq_ok_iff
    (undotted : ∀ assignment ∈ assignments, assignment.path.Undotted) {update : Document} :
    updateDocument assignments = .ok update ↔
      assignments ≠ [] ∧ (∀ assignment ∈ assignments, assignment.path.Settable) ∧
        (assignments.Pairwise fun one two => Apart one.path.segments two.path.segments) ∧
        ∃ set, List.Forall₂ Names assignments set ∧ update = [("$set", .document set)] := by
  have plain : ∀ assignment ∈ assignments, assignment.path.isLiteralDottedKey = false :=
    fun assignment membership => (undotted assignment membership).isLiteralDottedKey
  unfold updateDocument
  simp only [ite_error_eq_ok_iff, List.isEmpty_iff, bind_eq_ok_iff, foldlM_assign_eq_ok_iff]
  apply and_congr_right
  intro _
  constructor
  · rintro ⟨final, ⟨assignable, _, entries, names, rfl⟩, same⟩
    dsimp only at same
    rw [foldl_insert_of_names assignable undotted names, Except.ok.injEq] at same
    exact ⟨fun assignment membership => (assignable.1 assignment membership).2, assignable.2,
      entries, names, same.symm⟩
  · rintro ⟨settable, apart, entries, names, rfl⟩
    have assignable : Assignable assignments :=
      ⟨fun assignment membership => ⟨plain assignment membership, settable assignment membership⟩,
        apart⟩
    refine ⟨_, ⟨assignable, by simp, entries, names, rfl⟩, ?_⟩
    dsimp only
    rw [foldl_insert_of_names assignable undotted names]
    rfl

/-! ## Applying an update -/

def AssignmentPlan.cell (assignment : AssignmentPlan) : FieldPath × SqlValue :=
  (assignment.path, assignment.value)

theorem converts_of_names {set : List (String × Bson)}
    (undotted : ∀ assignment ∈ assignments, assignment.path.Undotted)
    (settable : ∀ assignment ∈ assignments, assignment.path.Settable)
    (names : List.Forall₂ Names assignments set) :
    List.Forall₂ Converts (assignments.map AssignmentPlan.cell) (placedCells set) := by
  induction names with
  | nil => exact .nil
  | @cons assignment entry assignments set first _ inductionHypothesis =>
      rw [List.forall_mem_cons] at undotted settable
      apply List.Forall₂.cons
      · refine ⟨?_, first.2⟩
        dsimp only
        rw [first.1]
        exact undotted.1.splitOn_displayName settable.1.1
      · exact inductionHypothesis undotted.2 settable.2

theorem mem_placedCells_iff {set : List (String × Bson)}
    (undotted : ∀ assignment ∈ assignments, assignment.path.Undotted)
    (settable : ∀ assignment ∈ assignments, assignment.path.Settable)
    (names : List.Forall₂ Names assignments set) (cell : List String × Bson) :
    cell ∈ placedCells set ↔ ∃ assignment ∈ assignments, Converts assignment.cell cell := by
  rw [mem_of_converts_iff (converts_of_names undotted settable names)]
  simp

theorem exists_bsonValue_of_names {set : List (String × Bson)}
    (names : List.Forall₂ Names assignments set) {assignment : AssignmentPlan}
    (membership : assignment ∈ assignments) : ∃ value, bsonValue assignment.value = .ok value :=
  (exists_bsonValue_iff assignment.value).mpr
    ((exists_names_iff assignments).mp ⟨set, names⟩ assignment membership)

/-- What the assignments make of a document: every value is at its path, and a path apart from
theirs leads where it led before. -/
structure Assigned (assignments : List AssignmentPlan) (before after : StoredDocument) : Prop where
  held : ∀ assignment ∈ assignments, ∃ value, bsonValue assignment.value = .ok value ∧
    after.valueAt assignment.path.segments = some value
  elsewhere : ∀ path, (∀ assignment ∈ assignments, Apart assignment.path.segments path) →
    after.valueAt path = before.valueAt path

/-- The ways to the assigned paths are free, and what is assigned within the `_id` is there
already. -/
structure Admits (assignments : List AssignmentPlan) (before : StoredDocument) : Prop where
  passable : ∀ assignment ∈ assignments,
    Passable (Bson.document before.fields) assignment.path.segments
  identifier : ∀ assignment ∈ assignments, assignment.path.segments.head? = some "_id" →
    ∃ value, bsonValue assignment.value = .ok value ∧
      before.valueAt assignment.path.segments = some value

section Applying

variable {set : List (String × Bson)} (mongo : SetSemantics)

theorem assigned_of_places (undotted : ∀ assignment ∈ assignments, assignment.path.Undotted)
    (settable : ∀ assignment ∈ assignments, assignment.path.Settable)
    (names : List.Forall₂ Names assignments set) {before after : StoredDocument}
    (places : before.Places after (placedCells set)) : Assigned assignments before after where
  held := by
    intro assignment membership
    obtain ⟨value, converted⟩ := exists_bsonValue_of_names names membership
    refine ⟨value, converted, ?_⟩
    apply places.held (assignment.path.segments, value)
    exact (mem_placedCells_iff undotted settable names _).mpr
      ⟨assignment, membership, rfl, converted⟩
  elsewhere := by
    intro path disjoint
    apply places.elsewhere path
    intro cell membership
    obtain ⟨assignment, assignmentMembership, converted⟩ :=
      (mem_placedCells_iff undotted settable names cell).mp membership
    rw [converted.1]
    exact disjoint assignment assignmentMembership

theorem Admits.takes {before : StoredDocument} (admits : Admits assignments before)
    (undotted : ∀ assignment ∈ assignments, assignment.path.Undotted)
    (settable : ∀ assignment ∈ assignments, assignment.path.Settable)
    (names : List.Forall₂ Names assignments set) :
    ∀ cell ∈ placedCells set, before.Takes cell.1 cell.2 := by
  intro cell membership
  obtain ⟨assignment, assignmentMembership, same, converted⟩ :=
    (mem_placedCells_iff undotted settable names cell).mp membership
  rw [same]
  constructor
  · exact admits.passable assignment assignmentMembership
  · intro within
    obtain ⟨value, convertedAgain, held⟩ :=
      admits.identifier assignment assignmentMembership within
    cases converted.symm.trans convertedAgain
    exact held

theorem isPlainName_of_names (undotted : ∀ assignment ∈ assignments, assignment.path.Undotted)
    (settable : ∀ assignment ∈ assignments, assignment.path.Settable)
    (names : List.Forall₂ Names assignments set) : ∀ entry ∈ set, IsPlainName entry.1 := by
  intro entry membership
  have listed : entry.1 ∈ set.map Prod.fst := List.mem_map.mpr ⟨entry, membership, rfl⟩
  rw [map_fst_of_names names] at listed
  obtain ⟨assignment, assignmentMembership, same⟩ := List.mem_map.mp listed
  rw [← same, IsPlainName, (undotted assignment assignmentMembership).splitOn_displayName
    (settable assignment assignmentMembership).1]
  exact (settable assignment assignmentMembership).2

theorem pairwise_placedCells (undotted : ∀ assignment ∈ assignments, assignment.path.Undotted)
    (settable : ∀ assignment ∈ assignments, assignment.path.Settable)
    (apart : assignments.Pairwise fun one two => Apart one.path.segments two.path.segments)
    (names : List.Forall₂ Names assignments set) :
    (placedCells set).Pairwise fun one two => Apart one.1 two.1 :=
  (pairwise_apart_of_converts_iff (converts_of_names undotted settable names)).mpr
    (List.pairwise_map.mpr apart)

/-- Wherever a document admits the assignments, the `$set` places its cells. -/
theorem exists_set_of_admits (nonempty : assignments ≠ [])
    (undotted : ∀ assignment ∈ assignments, assignment.path.Undotted)
    (settable : ∀ assignment ∈ assignments, assignment.path.Settable)
    (apart : assignments.Pairwise fun one two => Apart one.path.segments two.path.segments)
    (names : List.Forall₂ Names assignments set) {before : StoredDocument}
    (admits : Admits assignments before) :
    ∃ after, mongo.set set before = some after ∧ before.Places after (placedCells set) := by
  apply mongo.exists_set
  · rintro rfl
    exact nonempty (List.forall₂_nil_right_iff.mp names)
  · exact isPlainName_of_names undotted settable names
  · intro entry membership
    obtain ⟨_, _, converted⟩ := (mem_placedCells_iff undotted settable names _).mp
      (List.mem_map.mpr ⟨entry, membership, rfl⟩)
    exact bsonValue_leaf converted.2
  · exact pairwise_placedCells undotted settable apart names
  · exact admits.takes undotted settable names

end Applying

theorem exists_updateDocument_iff
    (undotted : ∀ assignment ∈ assignments, assignment.path.Undotted) :
    (∃ update, updateDocument assignments = .ok update) ↔
      assignments ≠ [] ∧ (∀ assignment ∈ assignments, assignment.path.Settable) ∧
        (∀ assignment ∈ assignments, assignment.value.isPlaceholder = false) ∧
        assignments.Pairwise fun one two => Apart one.path.segments two.path.segments := by
  simp only [updateDocument_eq_ok_iff undotted, ← exists_names_iff]
  constructor
  · rintro ⟨_, nonempty, settable, apart, set, names, _⟩
    exact ⟨nonempty, settable, ⟨set, names⟩, apart⟩
  · rintro ⟨nonempty, settable, ⟨set, names⟩, apart⟩
    exact ⟨_, nonempty, settable, apart, set, names, rfl⟩

theorem exists_set_of_perm (mongo : SetSemantics) {others : List AssignmentPlan}
    {set : List (String × Bson)} {before after : StoredDocument}
    (reordered : others.Perm assignments) (nonempty : assignments ≠ [])
    (undotted : ∀ assignment ∈ assignments, assignment.path.Undotted)
    (settable : ∀ assignment ∈ assignments, assignment.path.Settable)
    (apart : assignments.Pairwise fun one two => Apart one.path.segments two.path.segments)
    (names : List.Forall₂ Names assignments set) (admits : Admits assignments before)
    (places : before.Places after (placedCells set)) :
    ∃ otherSet, updateDocument others = .ok [("$set", .document otherSet)] ∧
      ∃ other, mongo.set otherSet before = some other ∧
        SameUpToOrder (Bson.document after.fields) (.document other.fields) := by
  have member (assignment : AssignmentPlan) : assignment ∈ others ↔ assignment ∈ assignments :=
    reordered.mem_iff
  have cells := mem_placedCells_iff undotted settable names
  have bound := (exists_names_iff assignments).mp ⟨set, names⟩
  obtain ⟨passable, identifier⟩ := admits
  simp only [← member] at undotted settable passable identifier bound cells
  have nonemptyOthers : others ≠ [] := by
    rintro rfl
    exact nonempty (List.nil_perm.mp reordered)
  have apartOthers := (reordered.pairwise_iff Apart.symm).mpr apart
  obtain ⟨otherSet, namesOthers⟩ := (exists_names_iff others).mpr bound
  have cellsOthers := mem_placedCells_iff undotted settable namesOthers
  obtain ⟨other, applied, placesOthers⟩ := exists_set_of_admits mongo nonemptyOthers undotted
    settable apartOthers namesOthers ⟨passable, identifier⟩
  refine ⟨otherSet, (updateDocument_eq_ok_iff undotted).mpr ⟨nonemptyOthers, settable,
    apartOthers, otherSet, namesOthers, rfl⟩, other, applied, ?_⟩
  apply places.sameUpToOrder placesOthers
  exact fun cell => (cells cell).trans (cellsOthers cell).symm

/-- The documents of an `UPDATE` are exact: which assignments have one, what it makes of a
document that admits them, and that the order of the assignments makes no difference. -/
theorem updateDocument_exact (mongo : SetSemantics) (assignments : List AssignmentPlan)
    (undotted : ∀ assignment ∈ assignments, assignment.path.Undotted) :
    ((∃ update, updateDocument assignments = .ok update) ↔
        assignments ≠ [] ∧ (∀ assignment ∈ assignments, assignment.path.Settable) ∧
          (∀ assignment ∈ assignments, assignment.value.isPlaceholder = false) ∧
          assignments.Pairwise fun one two => Apart one.path.segments two.path.segments) ∧
      ∀ update, updateDocument assignments = .ok update →
        ∃ set, update = [("$set", .document set)] ∧ List.Forall₂ Names assignments set ∧
          (set.map Prod.fst).Nodup ∧
          ∀ before, Admits assignments before →
            ∃ after, mongo.set set before = some after ∧ Assigned assignments before after ∧
              ∀ others : List AssignmentPlan, others.Perm assignments →
                ∃ otherSet, updateDocument others = .ok [("$set", .document otherSet)] ∧
                  ∃ other, mongo.set otherSet before = some other ∧
                    SameUpToOrder (Bson.document after.fields) (.document other.fields) := by
  refine ⟨exists_updateDocument_iff undotted, ?_⟩
  intro update updated
  obtain ⟨nonempty, settable, apart, set, names, rfl⟩ :=
    (updateDocument_eq_ok_iff undotted).mp updated
  have assignable : Assignable assignments :=
    ⟨fun assignment membership =>
      ⟨(undotted assignment membership).isLiteralDottedKey, settable assignment membership⟩, apart⟩
  refine ⟨set, rfl, names, ?_, ?_⟩
  · rw [map_fst_of_names names]
    exact nodup_displayName assignable undotted
  · intro before admits
    obtain ⟨after, applied, places⟩ :=
      exists_set_of_admits mongo nonempty undotted settable apart names admits
    refine ⟨after, applied, assigned_of_places undotted settable names places, ?_⟩
    intro others reordered
    exact exists_set_of_perm mongo reordered nonempty undotted settable apart names admits places

end Undotted

section Example

private def addressAssignments : List AssignmentPlan :=
  [⟨⟨["_id"]⟩, .integer 1⟩, ⟨⟨["address", "city"]⟩, .string "york"⟩,
    ⟨⟨["address", "zip"]⟩, .null⟩]

private def ada : StoredDocument := ⟨[("_id", .int64 1), ("address", .document [])], by decide⟩

theorem updateDocument_exact_address :
    ∃ set after, updateDocument addressAssignments = .ok [("$set", .document set)] ∧
      (set.map Prod.fst).Nodup ∧ SetSemantics.ofDocuments.set set ada = some after ∧
      Assigned addressAssignments ada after := by
  have exact := updateDocument_exact .ofDocuments addressAssignments (by decide)
  have updated : ∃ update, updateDocument addressAssignments = .ok update :=
    ⟨[("$set", .document [("_id", .int64 1), ("address.city", .string "york"),
      ("address.zip", .null)])], rfl⟩
  obtain ⟨update, updated⟩ := updated
  obtain ⟨set, rfl, _, distinct, sets⟩ := exact.2 update updated
  have admits : Admits addressAssignments ada := by
    constructor
    · intro assignment membership
      have set : (setAt (Bson.document ada.fields) assignment.path.segments .null).isSome := by
        revert assignment
        decide
      obtain ⟨_, set⟩ := Option.isSome_iff_exists.mp set
      exact passable_of_setAt set
    · rintro assignment membership within
      fin_cases membership
      · exact ⟨.int64 1, rfl, rfl⟩
      · exact absurd within (by decide)
      · exact absurd within (by decide)
  obtain ⟨after, applied, assigned, _⟩ := sets ada admits
  exact ⟨set, after, updated, distinct, applied, assigned⟩

/-- The `_id` can be assigned, but no `$set` changes it. -/
theorem not_updateDocument_exact :
    ¬ ∃ mongo : SetSemantics, ∀ assignments : List AssignmentPlan,
      (∀ assignment ∈ assignments, assignment.path.Undotted) →
      ∀ set, updateDocument assignments = .ok [("$set", .document set)] →
        ∀ before : StoredDocument,
          (∀ assignment ∈ assignments,
            Passable (Bson.document before.fields) assignment.path.segments) →
          ∃ after, mongo.set set before = some after ∧ Assigned assignments before after := by
  rintro ⟨mongo, exact⟩
  have set : ∃ result, setAt (Bson.document ada.fields) ["_id"] .null = some result := ⟨_, rfl⟩
  obtain ⟨_, set⟩ := set
  have passable := passable_of_setAt set
  obtain ⟨after, applied, assigned⟩ := exact [⟨⟨["_id"]⟩, .integer 5⟩] (by decide)
    [("_id", .int64 5)] rfl ada (List.forall_mem_singleton.mpr passable)
  obtain ⟨value, converted, held⟩ := assigned.held _ List.mem_cons_self
  cases converted
  have same := mongo.identifier _ _ _ applied (.int64 1) (.int64 5) .lt rfl held rfl
  cases same

/-- An assignment that leads through another one is refused, in either order. -/
example :
    (updateDocument [⟨⟨["address"]⟩, .null⟩, ⟨⟨["address", "city"]⟩, .null⟩]).isOk = false ∧
      (updateDocument [⟨⟨["address", "city"]⟩, .null⟩, ⟨⟨["address"]⟩, .null⟩]).isOk = false :=
  ⟨by decide, by decide⟩

end Example

end Mongres
