import Mongres.Proxy.Wire

/-!
# Inserted documents

The document of a row is built one column after another.  It holds the value of each column
at the column's own path, and nothing else; a column that another one leads to or through is
refused.
-/

namespace Mongres

open Fallible Nesting

/-! ## One column -/

theorem setAt_document_cons_iff {document result : Document} {field : String}
    {path : List String} {value : Bson} :
    setAt (Bson.document document) (field :: path) value = some (.document result) ↔
      ∃ child, setAt ((document.lookup field).getD (.document [])) path value = some child ∧
        result = document.insert field child := by
  simp [setAt_cons_eq_some_iff, Document.insert_eq_setEntry]

private theorem insertBelow_eq_ok_iff {document below result : Document} {field : String}
    {remaining : List String} {value : Bson} (proper : remaining ≠ [])
    (child : (document.lookup field).getD (.document []) = .document below)
    (inserts : ∀ {nested}, insertNestedValue below remaining value = .ok nested ↔
      remaining ≠ [] ∧ Nested.descend (Bson.document below) remaining = none ∧
        setAt (Bson.document below) remaining value = some (.document nested)) :
    (insertNestedValue below remaining value >>= fun nested =>
        Except.ok (document.insert field (.document nested))) = .ok result ↔
      field :: remaining ≠ [] ∧
        Nested.descend (Bson.document document) (field :: remaining) = none ∧
        setAt (Bson.document document) (field :: remaining) value = some (.document result) := by
  have held : Nested.descend (Bson.document document) (field :: remaining) =
      Nested.descend (Bson.document below) remaining := by
    rw [← child]
    exact (descend_document_cons document field remaining).trans
      (descend_getD_lookup document field proper).symm
  rw [bind_eq_ok_iff, held, setAt_document_cons_iff, child]
  constructor
  · rintro ⟨nested, inserted, same⟩
    obtain ⟨_, free, set⟩ := inserts.mp inserted
    cases same
    exact ⟨List.cons_ne_nil field remaining, free, _, set, rfl⟩
  · rintro ⟨_, free, placed, set, rfl⟩
    obtain ⟨nested, rfl⟩ := Bson.exists_document_of_setAt proper set
    exact ⟨nested, inserts.mpr ⟨proper, free, set⟩, rfl⟩

theorem insertNestedValue_eq_ok_iff {document result : Document} {segments : List String}
    {value : Bson} :
    insertNestedValue document segments value = .ok result ↔
      segments ≠ [] ∧ Nested.descend (Bson.document document) segments = none ∧
        setAt (Bson.document document) segments value = some (.document result) := by
  have last (document : Document) (field : String) :
      Nested.descend (Bson.document document) [field] = document.lookup field := by
    rw [Nested.descend_cons, Bson.fields_document, Option.bind_some]
    simp
  fun_induction insertNestedValue document segments value generalizing result with
  | case1 document value => simp
  | case2 document field value taken =>
      rw [Document.containsKey] at taken
      rw [last]
      refine iff_of_false (fun refused => by cases refused) fun inserted => ?_
      rw [inserted.2.1] at taken
      cases taken
  | case3 document field value free =>
      rw [Document.containsKey, Bool.not_eq_true, Option.isSome_eq_false_iff,
        Option.isNone_iff_eq_none] at free
      rw [last, setAt_document_cons_iff]
      simp [free, setAt, @eq_comm _ result]
  | case4 document field remaining value proper nested found inductionHypothesis =>
      apply insertBelow_eq_ok_iff proper _ inductionHypothesis
      rw [found]
      rfl
  | case5 document field remaining value proper other leaf found =>
      refine iff_of_false (fun refused => by cases refused) fun inserted => ?_
      obtain ⟨child, set, _⟩ := setAt_document_cons_iff.mp inserted.2.2
      obtain ⟨key, rest, rfl⟩ := List.exists_cons_of_ne_nil proper
      rw [found] at set
      obtain ⟨entries, _, isDocument, _⟩ := setAt_cons_eq_some_iff.mp set
      exact leaf entries (Bson.fields_eq_some_iff.mp isDocument)
  | case6 document field remaining value proper missing inductionHypothesis =>
      apply insertBelow_eq_ok_iff proper _ inductionHypothesis
      rw [missing]
      rfl

section Rows

variable {document : Document} {earlier : List (List String × Bson)}

/-- Among placed scalars, a value finds room exactly at a path apart from theirs. -/
theorem exists_insertNestedValue_iff
    (places : Places (Bson.document []) (.document document) earlier)
    (scalars : ∀ cell ∈ earlier, Nested.fields cell.2 = none) {segments : List String}
    (nonempty : segments ≠ []) (value : Bson) :
    (∃ next, insertNestedValue document segments value = .ok next) ↔
      ∀ cell ∈ earlier, Apart cell.1 segments := by
  simp only [insertNestedValue_eq_ok_iff]
  constructor
  · rintro ⟨next, _, free, set⟩ cell membership
    by_contra meets
    rcases not_apart_iff.mp meets with ⟨rest, reaches⟩ | ⟨rest, reaches⟩
    · by_cases ends : rest = []
      · rw [← reaches, ends, List.append_nil, places.held cell membership] at free
        cases free
      · have isDocument := passable_of_setAt set cell.1 rest reaches.symm ends cell.2
          (places.held cell membership)
        rw [scalars cell membership] at isDocument
        cases isDocument
    · by_cases ends : rest = []
      · rw [ends, List.append_nil] at reaches
        rw [reaches, places.held cell membership] at free
        cases free
      · obtain ⟨above, found, _⟩ := places.above membership reaches.symm ends
        cases free.symm.trans found
  · intro apart
    have free : Nested.descend (Bson.document document) segments = none := by
      obtain ⟨key, rest, rfl⟩ := List.exists_cons_of_ne_nil nonempty
      exact places.elsewhere _ apart
    have passable : Passable (Bson.document []) segments := by
      intro first rest _ _ above reached
      cases first with
      | nil =>
          cases reached
          rfl
      | cons key first => cases reached
    obtain ⟨result, set⟩ := exists_setAt (places.passable apart passable) value
    obtain ⟨next, rfl⟩ := Bson.exists_document_of_setAt nonempty set
    exact ⟨next, nonempty, free, set⟩

/-! ## A row -/

def insertCell (document : Document) (cell : FieldPath × SqlValue) : Result Document :=
  if cell.1.isLiteralDottedKey then .error literalDottedKey
  else do
    let value ← bsonValue cell.2
    insertNestedValue document cell.1.segments value

theorem buildInsertDocument_eq_ok_iff {columns : List FieldPath} {row : List SqlValue} :
    buildInsertDocument columns row = .ok document ↔
      columns.length = row.length ∧ (columns.zip row).foldlM insertCell [] = .ok document := by
  rw [← @not_not (columns.length = row.length)]
  exact ite_error_eq_ok_iff

def Converts (cell : FieldPath × SqlValue) (placed : List String × Bson) : Prop :=
  placed.1 = cell.1.segments ∧ bsonValue cell.2 = .ok placed.2

theorem insertCell_eq_ok_iff {cell : FieldPath × SqlValue} {next : Document} :
    insertCell document cell = .ok next ↔
      cell.1.isLiteralDottedKey = false ∧
        ∃ placed, Converts cell placed ∧ insertNestedValue document placed.1 placed.2 = .ok next := by
  rw [insertCell, ite_error_eq_ok_iff, Bool.not_eq_true, bind_eq_ok_iff]
  apply and_congr_right
  intro _
  constructor
  · rintro ⟨value, converted, inserted⟩
    exact ⟨(cell.1.segments, value), ⟨rfl, converted⟩, inserted⟩
  · rintro ⟨⟨_, value⟩, ⟨rfl, converted⟩, inserted⟩
    exact ⟨value, converted, inserted⟩

theorem fields_of_converts {cell : FieldPath × SqlValue} {placed : List String × Bson}
    (converts : Converts cell placed) : Nested.fields placed.2 = none := by
  obtain ⟨path, value⟩ := cell
  obtain ⟨segments, stored⟩ := placed
  obtain ⟨_, converted⟩ := converts
  dsimp only at converted
  cases value <;> cases converted <;> rfl

theorem wellKeyed_of_converts {cell : FieldPath × SqlValue} {placed : List String × Bson}
    (converts : Converts cell placed) : placed.2.wellKeyed = true := by
  obtain ⟨path, value⟩ := cell
  obtain ⟨segments, stored⟩ := placed
  obtain ⟨_, converted⟩ := converts
  dsimp only at converted
  cases value <;> cases converted <;> rfl

/-- A document that was built by placing scalars at paths apart from each other. -/
structure Built (document : Document) (placed : List (List String × Bson)) : Prop where
  places : Places (Bson.document []) (.document document) placed
  scalars : ∀ cell ∈ placed, Nested.fields cell.2 = none
  apart : placed.Pairwise fun one two => Apart one.1 two.1
  keyed : (Bson.document document).wellKeyed = true

theorem built_nil : Built [] [] where
  places := places_nil _
  scalars := by simp
  apart := .nil
  keyed := rfl

theorem Built.insertCell {cell : FieldPath × SqlValue} {next : Document}
    (built : Built document earlier) (nonempty : cell.1.segments ≠ [])
    (inserted : Mongres.insertCell document cell = .ok next) :
    ∃ placed, Converts cell placed ∧ Built next (earlier ++ [placed]) := by
  obtain ⟨_, placed, converts, inserts⟩ := insertCell_eq_ok_iff.mp inserted
  have proper : placed.1 ≠ [] := converts.1 ▸ nonempty
  have apart := (exists_insertNestedValue_iff built.places built.scalars proper placed.2).mp
    ⟨next, inserts⟩
  obtain ⟨_, _, set⟩ := insertNestedValue_eq_ok_iff.mp inserts
  refine ⟨placed, converts, ?_⟩
  exact
    { places := built.places.append (places_setAt set) fun one membership =>
        List.forall_mem_singleton.mpr (apart one membership)
      scalars := List.forall_mem_append.mpr
        ⟨built.scalars, List.forall_mem_singleton.mpr (fields_of_converts converts)⟩
      apart := List.pairwise_append.mpr ⟨built.apart, List.pairwise_singleton _ _,
        fun one membership two single => List.mem_singleton.mp single ▸ apart one membership⟩
      keyed := Bson.wellKeyed_of_setAt built.keyed (wellKeyed_of_converts converts) set }

theorem Built.foldlM {cells : List (FieldPath × SqlValue)} {start : Document}
    (built : Built start earlier) (nonempty : ∀ cell ∈ cells, cell.1.segments ≠ [])
    (inserted : cells.foldlM Mongres.insertCell start = .ok document) :
    ∃ placed, List.Forall₂ Converts cells placed ∧ Built document (earlier ++ placed) ∧
      ∀ cell ∈ cells, cell.1.isLiteralDottedKey = false := by
  induction cells generalizing start earlier with
  | nil =>
      cases inserted
      exact ⟨[], .nil, by rwa [List.append_nil], by simp⟩
  | cons cell cells inductionHypothesis =>
      rw [List.forall_mem_cons] at nonempty
      rw [List.foldlM_cons] at inserted
      obtain ⟨next, first, rest⟩ := bind_eq_ok_iff.mp inserted
      obtain ⟨placed, converts, builtNext⟩ := built.insertCell nonempty.1 first
      obtain ⟨others, convertsOthers, builtAll, plain⟩ :=
        inductionHypothesis builtNext nonempty.2 rest
      refine ⟨placed :: others, .cons converts convertsOthers, ?_, ?_⟩
      · rwa [List.append_cons]
      · exact List.forall_mem_cons.mpr ⟨(insertCell_eq_ok_iff.mp first).1, plain⟩

theorem Built.exists_foldlM {cells : List (FieldPath × SqlValue)} {start : Document}
    {placed : List (List String × Bson)} (built : Built start earlier)
    (nonempty : ∀ cell ∈ cells, cell.1.segments ≠ [])
    (plain : ∀ cell ∈ cells, cell.1.isLiteralDottedKey = false)
    (converts : List.Forall₂ Converts cells placed)
    (apart : (earlier ++ placed).Pairwise fun one two => Apart one.1 two.1) :
    ∃ document, cells.foldlM Mongres.insertCell start = .ok document := by
  induction converts generalizing start earlier with
  | nil => exact ⟨start, rfl⟩
  | @cons cell placedCell cells placed convertsFirst _ inductionHypothesis =>
      rw [List.forall_mem_cons] at nonempty plain
      have proper : placedCell.1 ≠ [] := convertsFirst.1 ▸ nonempty.1
      obtain ⟨next, inserts⟩ :=
        (exists_insertNestedValue_iff built.places built.scalars proper placedCell.2).mpr
          fun one membership =>
            (List.pairwise_append.mp apart).2.2 one membership placedCell List.mem_cons_self
      have first : Mongres.insertCell start cell = .ok next :=
        insertCell_eq_ok_iff.mpr ⟨plain.1, placedCell, convertsFirst, inserts⟩
      obtain ⟨other, otherConverts, builtNext⟩ := built.insertCell nonempty.1 first
      have same : other = placedCell :=
        Prod.ext (otherConverts.1.trans convertsFirst.1.symm)
          (Except.ok.inj (otherConverts.2.symm.trans convertsFirst.2))
      subst same
      rw [List.append_cons] at apart
      obtain ⟨document, rest⟩ := inductionHypothesis builtNext nonempty.2 plain.2 apart
      refine ⟨document, ?_⟩
      rw [List.foldlM_cons]
      exact bind_eq_ok_iff.mpr ⟨next, first, rest⟩

theorem map_fst_of_converts {cells : List (FieldPath × SqlValue)}
    {placed : List (List String × Bson)} (converts : List.Forall₂ Converts cells placed) :
    placed.map Prod.fst = cells.map fun cell => cell.1.segments := by
  induction converts with
  | nil => rfl
  | cons first _ inductionHypothesis =>
      rw [List.map_cons, List.map_cons, first.1, inductionHypothesis]

theorem mem_of_converts_iff {cells : List (FieldPath × SqlValue)}
    {placed : List (List String × Bson)} (converts : List.Forall₂ Converts cells placed)
    (cell : List String × Bson) : cell ∈ placed ↔ ∃ source ∈ cells, Converts source cell := by
  induction converts with
  | nil => simp
  | @cons source image cells placed first _ inductionHypothesis =>
      rw [List.mem_cons, List.exists_mem_cons_iff, inductionHypothesis]
      apply or_congr_left
      constructor
      · rintro rfl
        exact first
      · rintro ⟨path, converted⟩
        exact Prod.ext (path.trans first.1.symm) (Except.ok.inj (converted.symm.trans first.2))

theorem pairwise_apart_of_converts_iff {cells : List (FieldPath × SqlValue)}
    {placed : List (List String × Bson)} (converts : List.Forall₂ Converts cells placed) :
    (placed.Pairwise fun one two => Apart one.1 two.1) ↔
      cells.Pairwise fun one two => Apart one.1.segments two.1.segments := by
  have paths := map_fst_of_converts converts
  rw [← @List.pairwise_map _ _ Prod.fst Apart, paths, List.pairwise_map]

theorem exists_converts_iff (cells : List (FieldPath × SqlValue)) :
    (∃ placed, List.Forall₂ Converts cells placed) ↔
      ∀ cell ∈ cells, cell.2.isPlaceholder = false := by
  rw [exists_forall₂_iff]
  apply forall₂_congr
  intro cell _
  rw [← exists_bsonValue_iff]
  simp [Converts]

/-- When the cells of a row make a document. -/
def Insertable (cells : List (FieldPath × SqlValue)) : Prop :=
  (∀ cell ∈ cells, cell.1.isLiteralDottedKey = false) ∧
    (∀ cell ∈ cells, cell.2.isPlaceholder = false) ∧
    cells.Pairwise fun one two => Apart one.1.segments two.1.segments

theorem Insertable.perm {cells others : List (FieldPath × SqlValue)}
    (insertable : Insertable cells) (reordered : cells.Perm others) : Insertable others := by
  obtain ⟨plain, bound, apart⟩ := insertable
  refine ⟨?_, ?_, (reordered.pairwise_iff Apart.symm).mp apart⟩
  · exact fun cell membership => plain cell (reordered.mem_iff.mpr membership)
  · exact fun cell membership => bound cell (reordered.mem_iff.mpr membership)

theorem exists_foldlM_insertCell_iff {cells : List (FieldPath × SqlValue)}
    (nonempty : ∀ cell ∈ cells, cell.1.segments ≠ []) :
    (∃ document, cells.foldlM insertCell [] = .ok document) ↔ Insertable cells := by
  constructor
  · rintro ⟨document, inserted⟩
    obtain ⟨placed, converts, built, plain⟩ := built_nil.foldlM nonempty inserted
    exact ⟨plain, (exists_converts_iff cells).mp ⟨placed, converts⟩, (pairwise_apart_of_converts_iff converts).mp built.apart⟩
  · rintro ⟨plain, bound, apart⟩
    obtain ⟨placed, converts⟩ := (exists_converts_iff cells).mpr bound
    exact built_nil.exists_foldlM nonempty plain converts ((pairwise_apart_of_converts_iff converts).mpr apart)

/-- A value that is no document lies at the path of a placed cell. -/
theorem Built.leaf {placed : List (List String × Bson)} (built : Built document placed)
    {path : List String} {leaf : Bson} (held : valueAtPath document path = some leaf)
    (scalar : Nested.fields leaf = none) : ∃ cell ∈ placed, cell.1 = path := by
  unfold valueAtPath at held
  split at held
  · cases held
  · rename_i nonempty
    by_contra unplaced
    push Not at unplaced
    by_cases disjoint : ∀ cell ∈ placed, Apart cell.1 path
    · rw [built.places.elsewhere path disjoint] at held
      obtain ⟨key, rest, rfl⟩ := List.exists_cons_of_ne_nil nonempty
      cases held
    · push Not at disjoint
      obtain ⟨cell, membership, meets⟩ := disjoint
      rcases not_apart_iff.mp meets with ⟨rest, reaches⟩ | ⟨rest, reaches⟩
      · have proper : rest ≠ [] := by
          rintro rfl
          exact unplaced cell membership (by rw [← reaches, List.append_nil])
        obtain ⟨key, below, rfl⟩ := List.exists_cons_of_ne_nil proper
        rw [← reaches, Nested.descend_append, built.places.held cell membership, Option.bind_some,
          Nested.descend_cons, built.scalars cell membership] at held
        cases held
      · have proper : rest ≠ [] := by
          rintro rfl
          exact unplaced cell membership (by rw [← reaches, List.append_nil])
        obtain ⟨above, found, isDocument⟩ :=
          built.places.above membership reaches.symm proper
        cases Option.some.inj (found.symm.trans held)
        rw [scalar] at isDocument
        cases isDocument

end Rows

/-! ## The document of a row -/

/-- A document holds the values of a row at the paths of the columns, and nothing else, and
does not depend on the order of the columns except for the order of its keys. -/
structure HoldsRow (columns : List FieldPath) (row : List SqlValue) (document : Document) :
    Prop where
  keyed : (Bson.document document).wellKeyed = true
  held : ∀ cell ∈ columns.zip row, ∃ value, bsonValue cell.2 = .ok value ∧
    valueAtPath document cell.1.segments = some value
  leaves : ∀ path leaf, valueAtPath document path = some leaf →
    (∀ fields, leaf ≠ .document fields) → ∃ column ∈ columns, column.segments = path
  reordered : ∀ cells : List (FieldPath × SqlValue), cells.Perm (columns.zip row) → ∃ other,
    buildInsertDocument (cells.map Prod.fst) (cells.map Prod.snd) = .ok other ∧
      SameUpToOrder (Bson.document document) (Bson.document other)

section Row

variable {columns : List FieldPath} {row : List SqlValue}

theorem buildInsertDocument_cells {cells : List (FieldPath × SqlValue)} {document : Document} :
    buildInsertDocument (cells.map Prod.fst) (cells.map Prod.snd) = .ok document ↔
      cells.foldlM insertCell [] = .ok document := by
  have zipped : (cells.map Prod.fst).zip (cells.map Prod.snd) = cells :=
    (List.zip_of_prod rfl rfl).symm
  rw [buildInsertDocument_eq_ok_iff, zipped]
  simp

theorem forall_mem_zip_fst_iff (sameLength : columns.length = row.length)
    (holds : FieldPath → Prop) :
    (∀ cell ∈ columns.zip row, holds cell.1) ↔ ∀ column ∈ columns, holds column := by
  conv_rhs => rw [← List.map_fst_zip sameLength.le]
  rw [List.forall_mem_map]

theorem insertable_zip_iff (sameLength : columns.length = row.length) :
    Insertable (columns.zip row) ↔
      (∀ column ∈ columns, column.isLiteralDottedKey = false) ∧
        (∀ value ∈ row, value.isPlaceholder = false) ∧
        columns.Pairwise fun one two => Apart one.segments two.segments := by
  have values : (∀ cell ∈ columns.zip row, cell.2.isPlaceholder = false) ↔
      ∀ value ∈ row, value.isPlaceholder = false := by
    conv_rhs => rw [← List.map_snd_zip sameLength.ge]
    rw [List.forall_mem_map]
  have paths : ((columns.zip row).Pairwise fun one two => Apart one.1.segments two.1.segments) ↔
      columns.Pairwise fun one two => Apart one.segments two.segments := by
    conv_rhs => rw [← List.map_fst_zip sameLength.le]
    rw [List.pairwise_map]
  rw [Insertable, values, paths,
    forall_mem_zip_fst_iff sameLength fun column => column.isLiteralDottedKey = false]

theorem holdsRow_of_buildInsertDocument {document : Document}
    (nonempty : ∀ cell ∈ columns.zip row, cell.1.segments ≠ [])
    (inserted : (columns.zip row).foldlM insertCell [] = .ok document) :
    HoldsRow columns row document := by
  obtain ⟨placed, converts, built, _⟩ := built_nil.foldlM nonempty inserted
  rw [List.nil_append] at built
  have member := mem_of_converts_iff converts
  exact
    { keyed := built.keyed
      held := by
        intro cell membership
        have bound := (exists_converts_iff (columns.zip row)).mp ⟨placed, converts⟩ cell membership
        obtain ⟨value, converted⟩ := (exists_bsonValue_iff cell.2).mpr bound
        refine ⟨value, converted, ?_⟩
        rw [valueAtPath, if_neg (nonempty cell membership)]
        exact built.places.held (cell.1.segments, value)
          ((member _).mpr ⟨cell, membership, rfl, converted⟩)
      leaves := by
        intro path leaf held noDocument
        have scalar : Nested.fields leaf = none := by
          rw [Option.eq_none_iff_forall_ne_some]
          intro fields isDocument
          exact noDocument fields (Bson.fields_eq_some_iff.mp isDocument)
        obtain ⟨cell, membership, reaches⟩ := built.leaf held scalar
        obtain ⟨source, sourceMembership, converted⟩ := (member cell).mp membership
        refine ⟨source.1, (List.of_mem_zip sourceMembership).1, ?_⟩
        rw [← converted.1, reaches]
      reordered := by
        intro cells reordered
        have nonemptyCells : ∀ cell ∈ cells, cell.1.segments ≠ [] := fun cell membership =>
          nonempty cell (reordered.mem_iff.mp membership)
        have insertable := (exists_foldlM_insertCell_iff nonempty).mp ⟨document, inserted⟩
        obtain ⟨other, insertedOther⟩ :=
          (exists_foldlM_insertCell_iff nonemptyCells).mpr (insertable.perm reordered.symm)
        obtain ⟨placedOther, convertsOther, builtOther, _⟩ :=
          built_nil.foldlM nonemptyCells insertedOther
        refine ⟨other, buildInsertDocument_cells.mpr insertedOther, ?_⟩
        apply built.places.sameUpToOrder builtOther.places
        intro cell
        rw [List.nil_append, member, mem_of_converts_iff convertsOther]
        simp only [reordered.mem_iff] }

theorem executeInsert_of_error {plan : InsertPlan} {error : ProxyError}
    (membership : row ∈ plan.rows) (failed : buildInsertDocument plan.columns row = .error error)
    (driver : Driver) (calls : List DriverCall) :
    ∃ reported, executeInsert driver plan calls = (.error reported, calls) := by
  unfold executeInsert
  cases collected : collect (buildInsertDocument plan.columns) plan.rows with
  | error reported => exact ⟨reported, rfl⟩
  | ok documents =>
      obtain ⟨document, _, built⟩ := exists_mem_of_collect collected membership
      cases failed.symm.trans built

/-- The documents of an `INSERT` are exact: which rows have one, what it holds, and that no
driver call is made for a row without one. -/
theorem buildInsertDocument_exact (columns : List FieldPath) (row : List SqlValue)
    (nonempty : ∀ column ∈ columns, column.segments ≠ [])
    (sameLength : columns.length = row.length) :
    ((∃ document, buildInsertDocument columns row = .ok document) ↔
        (∀ column ∈ columns, column.isLiteralDottedKey = false) ∧
          (∀ value ∈ row, value.isPlaceholder = false) ∧
          columns.Pairwise fun one two => Apart one.segments two.segments) ∧
      (∀ document, buildInsertDocument columns row = .ok document →
        HoldsRow columns row document) ∧
      ∀ error, buildInsertDocument columns row = .error error →
        ∀ (plan : InsertPlan) (driver : Driver) (calls : List DriverCall),
          plan.columns = columns → row ∈ plan.rows →
            ∃ reported, executeInsert driver plan calls = (.error reported, calls) := by
  have nonemptyCells : ∀ cell ∈ columns.zip row, cell.1.segments ≠ [] :=
    (forall_mem_zip_fst_iff sameLength fun column => column.segments ≠ []).mpr nonempty
  refine ⟨?_, ?_, ?_⟩
  · simp only [buildInsertDocument_eq_ok_iff, sameLength, true_and]
    rw [exists_foldlM_insertCell_iff nonemptyCells, insertable_zip_iff sameLength]
  · intro document built
    exact holdsRow_of_buildInsertDocument nonemptyCells (buildInsertDocument_eq_ok_iff.mp built).2
  · intro error failed plan driver calls sameColumns membership
    subst sameColumns
    exact executeInsert_of_error membership failed driver calls

end Row

section Example

private def addressColumns : List FieldPath :=
  [⟨["name"]⟩, ⟨["address", "city"]⟩, ⟨["address", "zip"]⟩]

private def addressRow : List SqlValue := [.string "ada", .string "york", .null]

theorem buildInsertDocument_exact_address :
    (∃ document, buildInsertDocument addressColumns addressRow = .ok document) ∧
      ∀ document, buildInsertDocument addressColumns addressRow = .ok document →
        HoldsRow addressColumns addressRow document := by
  have exact := buildInsertDocument_exact addressColumns addressRow (by decide) rfl
  exact ⟨⟨_, rfl⟩, exact.2.1⟩

/-- A column that leads through another one is refused, in either order. -/
example :
    (buildInsertDocument [⟨["address"]⟩, ⟨["address", "city"]⟩] [.null, .null]).isOk = false ∧
      (buildInsertDocument [⟨["address", "city"]⟩, ⟨["address"]⟩] [.null, .null]).isOk = false :=
  ⟨rfl, rfl⟩

end Example

end Mongres
