import Mongres.Executor.Refusals

/-!
# Limits

The limit of a `SELECT` reaches the driver as the same number.  SQL and the driver agree on
every number but zero, which bounds a result to nothing in SQL and does not bound it at all for
the driver.
-/

namespace Mongres

open Fallible Ast

/-! ## Which plans translate -/

/-- A condition that has a MongoDB form: on a name that can be sent, with known values. -/
def Condition.Translates (condition : Condition) : Prop :=
  condition.path.isLiteralDottedKey = false ∧
    ∀ value ∈ condition.values, value.isPlaceholder = false

theorem translates_iff_of_parsesTo {collection : String} {schema : SchemaProfile}
    {expression : Expr} {predicate : Predicate}
    (parsed : ParsesTo collection schema expression predicate) :
    predicate.Translates ↔ ∀ condition ∈ predicate.conditions, condition.Translates := by
  have both {left right : Predicate}
      (leftIff : left.Translates ↔ ∀ condition ∈ left.conditions, condition.Translates)
      (rightIff : right.Translates ↔ ∀ condition ∈ right.conditions, condition.Translates) :
      ([left, right] ≠ [] ∧ ∀ predicate ∈ [left, right], predicate.Translates) ↔
        ∀ condition ∈ Predicate.conditionsOf [left, right], condition.Translates := by
    rw [and_iff_right (List.cons_ne_nil _ _), Predicate.forall_mem_conditionsOf_iff]
    simp [leftIff, rightIff]
  induction parsed with
  | nested _ inductionHypothesis => exact inductionHypothesis
  | and _ _ first second =>
      rw [Predicate.translates_and_iff, Predicate.conditions]
      exact both first second
  | or _ _ first second =>
      rw [Predicate.translates_or_iff, Predicate.conditions]
      exact both first second
  | compare _ _ _ =>
      rw [Predicate.translates_compare_iff, and_comm]
      simp [Predicate.conditions, Condition.Translates, Condition.path, Condition.values]
  | inList _ _ =>
      rw [Predicate.translates_inList_iff, and_comm]
      simp [Predicate.conditions, Condition.Translates, Condition.path, Condition.values]
  | isNull _ =>
      rw [Predicate.translates_isNull_iff]
      simp [Predicate.conditions, Condition.Translates, Condition.path, Condition.values]
  | isNotNull _ =>
      rw [Predicate.translates_isNull_iff]
      simp [Predicate.conditions, Condition.Translates, Condition.path, Condition.values]

theorem exists_filterDocument_iff {collection : String} {schema : SchemaProfile}
    {selection : Option Expr} {filter : Option Predicate}
    (parsed : transpose (parsePredicate collection schema) selection = .ok filter) :
    (∃ document, filterDocument filter = .ok document) ↔
      ∀ predicate ∈ filter, ∀ condition ∈ predicate.conditions, condition.Translates := by
  rcases transpose_eq_ok_iff.mp parsed with ⟨_, rfl⟩ | ⟨expression, predicate, _, found, rfl⟩
  · simp [filterDocument]
  · simp only [filterDocument, Option.mem_some_iff, forall_eq',
      exists_predicateDocument_iff_translates,
      translates_iff_of_parsesTo (parsesTo_of_parsePredicate found)]

theorem exists_projectionDocument_iff (projection : Projection) :
    (∃ document, projectionDocument projection = .ok document) ↔
      ∀ path ∈ projection.paths, path.isLiteralDottedKey = false := by
  cases projection with
  | all => simp [projectionDocument, Projection.paths]
  | fields fields => simp [projectionDocument_fields_eq_ok_iff, Projection.paths]

/-! ## Limits that reach the driver -/

theorem toNat_lt_of_parseLimit {expression : Expr} {limit : UInt64}
    (parsed : parseLimit expression = .ok limit) : limit.toNat < 2 ^ 63 := by
  obtain ⟨value, _, parsed⟩ := bind_eq_ok_iff.mp parsed
  cases value with
  | integer value =>
      obtain ⟨nonnegative, same⟩ := ite_error_eq_ok_iff.mp parsed
      cases same
      have bound := value.toInt_lt
      rw [UInt64.toNat_ofNat', Nat.mod_eq_of_lt (by omega)]
      omega
  | _ => cases parsed

theorem selectLimit_of_lt {limit : UInt64} (bound : limit.toNat < 2 ^ 63) :
    selectLimit limit = .ok (Int64.ofNat limit.toNat) ∧
      (Int64.ofNat limit.toNat).toInt = limit.toNat := by
  refine ⟨if_pos bound, ?_⟩
  exact Int64.toInt_ofNat_of_lt bound

/-- How many rows SQL gives a statement for the number of documents that match. -/
def SelectPlan.rows (plan : SelectPlan) (matching : Nat) : Nat :=
  match plan.limit with
  | none => matching
  | some limit => min limit.toNat matching

/-- What `find` does with its limit: a positive one gives the first matches, and zero is no
limit. -/
structure Driver.FindsIn (driver : Driver) (accepts : Document → Document → Bool)
    (contents : String → List Document) : Prop where
  unlimited : ∀ {collection filter projection documents},
    driver.find collection filter projection none = .ok documents →
      documents.length = (contents collection).countP (accepts filter)
  zero : ∀ collection filter projection,
    driver.find collection filter projection (some 0) =
      driver.find collection filter projection none
  positive : ∀ collection filter projection (limit : Int64), 0 < limit.toInt →
    driver.find collection filter projection (some limit) =
      (driver.find collection filter projection none).map (List.take limit.toInt.toNat)

/-- The statement is answered with as many documents as its limit and the matches allow. -/
def ReturnsRows (driver : Driver) (accepts : Document → Document → Bool)
    (contents : String → List Document) (plan : SelectPlan) (calls : List DriverCall) : Prop :=
  ∃ filter documents, filterDocument plan.filter = .ok filter ∧
    (executeSelect driver plan calls).1 = .ok documents ∧
    documents.length = plan.rows ((contents plan.collection).countP (accepts filter))

/-- The filter and the projection have MongoDB forms, and the driver answers them without a
limit. -/
structure SelectPlan.Answerable (plan : SelectPlan) (driver : Driver) : Prop where
  conditions : ∀ predicate ∈ plan.filter, ∀ condition ∈ predicate.conditions, condition.Translates
  projected : ∀ path ∈ plan.projection.paths, path.isLiteralDottedKey = false
  answered : ∀ filter projection, filterDocument plan.filter = .ok filter →
    projectionDocument plan.projection = .ok projection →
    ∃ documents, driver.find plan.collection filter projection none = .ok documents

/-- What the driver keeps of the matches for a limit. -/
def kept (limit : Option UInt64) (documents : List Document) : List Document :=
  match limit with
  | none => documents
  | some limit => if limit = 0 then documents else documents.take limit.toNat

/-- The driver keeps as many rows as SQL asks for, unless it is asked for none. -/
theorem length_kept_eq_rows_iff (plan : SelectPlan) (documents : List Document) :
    (kept plan.limit documents).length = plan.rows documents.length ↔
      (plan.limit = some 0 → documents.length = 0) := by
  unfold kept SelectPlan.rows
  cases plan.limit with
  | none => simp
  | some limit =>
      by_cases zero : limit = 0
      · subst zero
        simp
      · simp [zero]

section Limits

variable {driver : Driver} {accepts : Document → Document → Bool}
  {contents : String → List Document}

theorem find_eq_ok_iff (finds : driver.FindsIn accepts contents) {limit : Option UInt64}
    (bounds : ∀ value ∈ limit, value.toNat < 2 ^ 63) (collection : String) (filter : Document)
    (projection : Option Document) :
    ∃ sent, transpose selectLimit limit = .ok sent ∧
      ∀ documents, driver.find collection filter projection sent = .ok documents ↔
        ∃ all, driver.find collection filter projection none = .ok all ∧
          documents = kept limit all := by
  cases limit with
  | none => exact ⟨none, rfl, fun documents => by simp [kept]⟩
  | some limit =>
      obtain ⟨selected, number⟩ := selectLimit_of_lt (bounds limit rfl)
      refine ⟨some (Int64.ofNat limit.toNat), by rw [transpose, selected]; rfl, fun documents => ?_⟩
      by_cases zero : limit = 0
      · subst zero
        have unbounded := finds.zero collection filter projection
        rw [show Int64.ofNat (0 : UInt64).toNat = 0 from rfl, unbounded]
        simp [kept]
      · have nonzero : limit.toNat ≠ 0 := fun none => zero (UInt64.toNat_inj.mp none)
        have positive := finds.positive collection filter projection (Int64.ofNat limit.toNat)
          (by omega)
        rw [positive, map_eq_ok_iff, number]
        simp [kept, zero, @eq_comm _ documents]

theorem lowered_select {statement : Statement} {collectionName : String} {schema : SchemaProfile}
    {plan : SelectPlan}
    (lowered : lowerStatement statement collectionName schema = .ok (.select plan)) :
    ((∃ document, filterDocument plan.filter = .ok document) ↔
        ∀ predicate ∈ plan.filter, ∀ condition ∈ predicate.conditions, condition.Translates) ∧
      ∀ limit ∈ plan.limit, limit.toNat < 2 ^ 63 := by
  obtain ⟨query, rfl⟩ : ∃ query, statement = .query query := by
    cases statement with
    | query query => exact ⟨query, rfl⟩
    | insert insert =>
        obtain ⟨_, _, _, _, _, _, _, _, _, _, _, _, _, _, same⟩ := parseInsert_eq_ok_iff.mp lowered
        cases same
    | update update =>
        obtain ⟨_, _, _, _, _, _, _, _, _, _, _, same⟩ := parseUpdate_eq_ok_iff.mp lowered
        cases same
    | delete delete =>
        obtain ⟨_, _, _, _, _, _, _, same⟩ := parseDelete_eq_ok_iff.mp lowered
        cases same
    | other text => cases lowered
  obtain ⟨_, select, _, _, _, projection, filter, limit, _, filtered, _, limited, same⟩ :=
    parseSelect_eq_ok_iff.mp lowered
  cases same
  refine ⟨exists_filterDocument_iff filtered, fun value present => ?_⟩
  rcases transpose_eq_ok_iff.mp limited with ⟨_, rfl⟩ | ⟨expression, parsed, _, found, rfl⟩
  · cases present
  · cases Option.mem_some_iff.mp present
    exact toNat_lt_of_parseLimit found

/-- A limit bounds the rows as SQL says exactly when the query can be answered and the limit is
not zero, or nothing matches. -/
theorem executeSelect_rows_iff {statement : Statement} {collectionName : String}
    {schema : SchemaProfile} {plan : SelectPlan}
    (lowered : lowerStatement statement collectionName schema = .ok (.select plan))
    (finds : driver.FindsIn accepts contents) (calls : List DriverCall) :
    ReturnsRows driver accepts contents plan calls ↔
      plan.Answerable driver ∧ (plan.limit = some 0 → ∀ filter,
        filterDocument plan.filter = .ok filter →
          (contents plan.collection).countP (accepts filter) = 0) := by
  obtain ⟨translates, bounds⟩ := lowered_select lowered
  constructor
  · rintro ⟨filter, documents, filtered, read, rows⟩
    obtain ⟨_, projection, sent, same, projected, selected, found⟩ :=
      executeSelect_eq_ok_iff.mp read
    cases Except.ok.inj (filtered.symm.trans same)
    obtain ⟨_, sentSame, keptIff⟩ := find_eq_ok_iff finds bounds plan.collection filter projection
    cases Except.ok.inj (selected.symm.trans sentSame)
    obtain ⟨all, foundAll, rfl⟩ := (keptIff documents).mp found
    rw [← finds.unlimited foundAll, length_kept_eq_rows_iff] at rows
    refine ⟨⟨translates.mp ⟨filter, filtered⟩,
      (exists_projectionDocument_iff _).mp ⟨projection, projected⟩, ?_⟩, ?_⟩
    · intro other otherProjection otherFiltered otherProjected
      cases Except.ok.inj (filtered.symm.trans otherFiltered)
      cases Except.ok.inj (projected.symm.trans otherProjected)
      exact ⟨all, foundAll⟩
    · intro zero other otherFiltered
      cases Except.ok.inj (filtered.symm.trans otherFiltered)
      rw [← finds.unlimited foundAll]
      exact rows zero
  · rintro ⟨answerable, nothing⟩
    obtain ⟨filter, filtered⟩ := translates.mpr answerable.conditions
    obtain ⟨projection, projected⟩ := (exists_projectionDocument_iff _).mpr answerable.projected
    obtain ⟨all, foundAll⟩ := answerable.answered filter projection filtered projected
    obtain ⟨sent, selected, keptIff⟩ := find_eq_ok_iff finds bounds plan.collection filter projection
    refine ⟨filter, kept plan.limit all, filtered, ?_, ?_⟩
    · rw [executeSelect_eq_ok_iff]
      exact ⟨filter, projection, sent, filtered, projected, selected,
        (keptIff _).mpr ⟨all, foundAll, rfl⟩⟩
    · have count := finds.unlimited foundAll
      rw [← count, length_kept_eq_rows_iff, count]
      exact fun zero => nothing zero filter filtered

end Limits

section Example

/-- `SELECT * FROM parts LIMIT n`. -/
private def selectParts (limit : String) : Statement :=
  .query (.limited (.select (.fromTable [.wildcard ""] "parts" none))
    (some (.value (.number limit false))))

private def selectedParts (limit : UInt64) : SelectPlan := ⟨"parts", .all, none, some limit⟩

private def parts : List Document :=
  [[("name", .string "axle")], [("name", .string "brake")], [("name", .string "clutch")]]

private def partsDriver : Driver where
  find _ _ _ limit := .ok (kept (limit.map fun limit => UInt64.ofNat limit.toInt.toNat) parts)
  insertOne _ _ := .error "read-only"
  insertMany _ _ := .error "read-only"
  updateMany _ _ _ := .error "read-only"
  deleteMany _ _ := .error "read-only"

private theorem findsIn_partsDriver :
    partsDriver.FindsIn (fun _ _ => true) (fun _ => parts) where
  unlimited := by
    intro _ _ _ documents found
    cases found
    rfl
  zero := by
    intro _ _ _
    rfl
  positive := by
    intro _ _ _ limit positive
    have bound := limit.toInt_lt
    have number : (UInt64.ofNat limit.toInt.toNat).toNat = limit.toInt.toNat := by
      rw [UInt64.toNat_ofNat', Nat.mod_eq_of_lt (by omega)]
    have nonzero : UInt64.ofNat limit.toInt.toNat ≠ 0 := by
      intro zero
      rw [zero] at number
      have none : (0 : UInt64).toNat = 0 := rfl
      omega
    change Except.ok (if UInt64.ofNat limit.toInt.toNat = 0 then parts
      else parts.take (UInt64.ofNat limit.toInt.toNat).toNat) = _
    rw [if_neg nonzero, number]
    rfl

/-- Two of three parts are asked for and found. -/
theorem executeSelect_rows_two :
    ReturnsRows partsDriver (fun _ _ => true) (fun _ => parts) (selectedParts 2) [] := by
  have lowered : lowerStatement (selectParts "2") "parts" (SchemaProfile.infer []) =
      .ok (.select (selectedParts 2)) := rfl
  apply (executeSelect_rows_iff lowered findsIn_partsDriver []).mpr
  refine ⟨⟨by simp [selectedParts], by simp [selectedParts, Projection.paths], ?_⟩, ?_⟩
  · intro filter projection _ _
    exact ⟨parts, rfl⟩
  · intro zero
    exact absurd (Option.some.inj zero) (by decide)

/-- `LIMIT 0` asks for no part and is answered with all of them. -/
theorem not_executeSelect_rows_zero :
    lowerStatement (selectParts "0") "parts" (SchemaProfile.infer []) =
        .ok (.select (selectedParts 0)) ∧
      partsDriver.FindsIn (fun _ _ => true) (fun _ => parts) ∧
      ¬ ReturnsRows partsDriver (fun _ _ => true) (fun _ => parts) (selectedParts 0) [] := by
  refine ⟨rfl, findsIn_partsDriver, ?_⟩
  rintro ⟨filter, documents, _, read, rows⟩
  cases read
  cases rows

end Example

end Mongres
