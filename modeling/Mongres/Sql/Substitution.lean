import Mongres.Sql.Binding

/-!
# The values of a plan

Counting, binding and validating placeholders are walks over the values of a
plan, and binding replaces each of them without touching the rest.
-/

namespace Mongres

open Fallible

/-! ## Replacing values -/

def Condition.mapValues (replace : SqlValue → SqlValue) : Condition → Condition
  | .compare path operator value => .compare path operator (replace value)
  | .inList path values negated => .inList path (values.map replace) negated
  | .isNull path negated => .isNull path negated

@[simp]
theorem Condition.path_mapValues (replace : SqlValue → SqlValue) (condition : Condition) :
    (condition.mapValues replace).path = condition.path := by
  cases condition <;> rfl

@[simp]
theorem Condition.values_mapValues (replace : SqlValue → SqlValue) (condition : Condition) :
    (condition.mapValues replace).values = condition.values.map replace := by
  cases condition <;> rfl

namespace Predicate

def values (predicate : Predicate) : List SqlValue := predicate.conditions.flatMap Condition.values

@[simp]
theorem values_compare (path : FieldPath) (operator : ComparisonOperator) (value : SqlValue) :
    (compare path operator value).values = [value] := rfl

@[simp]
theorem values_inList (path : FieldPath) (values : List SqlValue) (negated : Bool) :
    (inList path values negated).values = values :=
  List.append_nil values

@[simp]
theorem values_isNull (path : FieldPath) (negated : Bool) : (isNull path negated).values = [] := rfl

@[simp]
theorem values_and (predicates : List Predicate) :
    (and predicates).values = predicates.flatMap values := by
  rw [values, conditions, conditionsOf_eq_flatMap, List.flatMap_assoc]
  rfl

@[simp]
theorem values_or (predicates : List Predicate) :
    (or predicates).values = predicates.flatMap values :=
  values_and predicates

mutual

def mapValues (replace : SqlValue → SqlValue) : Predicate → Predicate
  | .compare path operator value => .compare path operator (replace value)
  | .inList path values negated => .inList path (values.map replace) negated
  | .isNull path negated => .isNull path negated
  | .and predicates => .and (mapValuesOf replace predicates)
  | .or predicates => .or (mapValuesOf replace predicates)

def mapValuesOf (replace : SqlValue → SqlValue) : List Predicate → List Predicate
  | [] => []
  | predicate :: predicates => mapValues replace predicate :: mapValuesOf replace predicates

end

theorem mapValuesOf_eq_map (replace : SqlValue → SqlValue) (predicates : List Predicate) :
    mapValuesOf replace predicates = predicates.map (mapValues replace) := by
  induction predicates with
  | nil => rfl
  | cons predicate predicates inductionHypothesis => simp [mapValuesOf, inductionHypothesis]

theorem conditions_mapValues (replace : SqlValue → SqlValue) (predicate : Predicate) :
    (predicate.mapValues replace).conditions =
      predicate.conditions.map (Condition.mapValues replace) := by
  have lists : ∀ predicates : List Predicate,
      (∀ predicate ∈ predicates, (predicate.mapValues replace).conditions =
        predicate.conditions.map (Condition.mapValues replace)) →
      conditionsOf (mapValuesOf replace predicates) =
        (conditionsOf predicates).map (Condition.mapValues replace) := by
    intro predicates each
    rw [conditionsOf_eq_flatMap, conditionsOf_eq_flatMap, mapValuesOf_eq_map, List.flatMap_map,
      List.map_flatMap]
    exact List.flatMap_congr each
  induction predicate using Predicate.listInduction with
  | compare path operator value => rfl
  | inList path values negated => rfl
  | isNull path negated => rfl
  | and predicates inductionHypothesis => exact lists predicates inductionHypothesis
  | or predicates inductionHypothesis => exact lists predicates inductionHypothesis

theorem values_mapValues (replace : SqlValue → SqlValue) (predicate : Predicate) :
    (predicate.mapValues replace).values = predicate.values.map replace := by
  rw [values, conditions_mapValues, List.flatMap_map, values, List.map_flatMap]
  simp only [Condition.values_mapValues]

theorem mapValues_congr {first second : SqlValue → SqlValue} {predicate : Predicate}
    (same : ∀ value ∈ predicate.values, first value = second value) :
    predicate.mapValues first = predicate.mapValues second := by
  have lists : ∀ predicates : List Predicate,
      (∀ predicate ∈ predicates, (∀ value ∈ predicate.values, first value = second value) →
        predicate.mapValues first = predicate.mapValues second) →
      (∀ value ∈ predicates.flatMap values, first value = second value) →
      mapValuesOf first predicates = mapValuesOf second predicates := by
    intro predicates each same
    rw [List.forall_mem_flatMap] at same
    rw [mapValuesOf_eq_map, mapValuesOf_eq_map]
    exact List.map_congr_left fun predicate membership =>
      each predicate membership (same predicate membership)
  induction predicate using Predicate.listInduction with
  | compare path operator value =>
      rw [values_compare, List.forall_mem_singleton] at same
      rw [mapValues, mapValues, same]
  | inList path values negated =>
      rw [values_inList] at same
      rw [mapValues, mapValues, List.map_congr_left same]
  | isNull path negated => rfl
  | and predicates inductionHypothesis =>
      rw [values_and] at same
      rw [mapValues, mapValues, lists predicates inductionHypothesis same]
  | or predicates inductionHypothesis =>
      rw [values_or] at same
      rw [mapValues, mapValues, lists predicates inductionHypothesis same]

end Predicate

def AssignmentPlan.mapValue (replace : SqlValue → SqlValue) (assignment : AssignmentPlan) :
    AssignmentPlan where
  path := assignment.path
  value := replace assignment.value

namespace StatementPlan

def values : StatementPlan → List SqlValue
  | .select plan => plan.filter.toList.flatMap Predicate.values
  | .insert plan => plan.rows.flatten
  | .update plan => plan.assignments.map AssignmentPlan.value ++ plan.filter.values
  | .delete plan => plan.filter.values

def mapValues (replace : SqlValue → SqlValue) : StatementPlan → StatementPlan
  | .select plan => .select { plan with filter := plan.filter.map (Predicate.mapValues replace) }
  | .insert plan => .insert { plan with rows := plan.rows.map (List.map replace) }
  | .update plan => .update
      { plan with
        assignments := plan.assignments.map (AssignmentPlan.mapValue replace)
        filter := plan.filter.mapValues replace }
  | .delete plan => .delete { plan with filter := plan.filter.mapValues replace }

def compared (plan : StatementPlan) : List (FieldPath × SqlValue) :=
  plan.conditions.flatMap fun condition =>
    condition.values.map fun value => (condition.path, value)

theorem values_mapValues (replace : SqlValue → SqlValue) (plan : StatementPlan) :
    (plan.mapValues replace).values = plan.values.map replace := by
  cases plan with
  | select plan =>
      obtain ⟨collection, projection, _ | predicate, limit⟩ := plan
      · rfl
      · simp [values, mapValues, Predicate.values_mapValues]
  | insert plan => simp [values, mapValues, List.map_flatten]
  | update plan =>
      simp only [values, mapValues, Predicate.values_mapValues, List.map_append, List.map_map]
      rfl
  | delete plan => exact plan.filter.values_mapValues replace

theorem mapValues_congr {first second : SqlValue → SqlValue} {plan : StatementPlan}
    (same : ∀ value ∈ plan.values, first value = second value) :
    plan.mapValues first = plan.mapValues second := by
  cases plan with
  | select plan =>
      obtain ⟨collection, projection, _ | predicate, limit⟩ := plan
      · rfl
      · rw [values, Option.toList_some, List.flatMap_singleton] at same
        rw [mapValues, mapValues, Option.map_some, Option.map_some,
          Predicate.mapValues_congr same]
  | insert plan =>
      rw [values, List.forall_mem_flatten] at same
      rw [mapValues, mapValues,
        List.map_congr_left fun row membership => List.map_congr_left (same row membership)]
  | update plan =>
      rw [values, List.forall_mem_append, List.forall_mem_map] at same
      have assignments := List.map_congr_left
        (fun assignment membership => congrArg (AssignmentPlan.mk assignment.path)
          (same.1 assignment membership))
      rw [mapValues, mapValues, Predicate.mapValues_congr same.2]
      exact congrArg (fun assignments => StatementPlan.update { plan with assignments, filter := _ })
        assignments
  | delete plan =>
      rw [mapValues, mapValues, Predicate.mapValues_congr same]

theorem conditions_mapValues (replace : SqlValue → SqlValue) (plan : StatementPlan) :
    (plan.mapValues replace).conditions =
      plan.conditions.map (Condition.mapValues replace) := by
  cases plan with
  | select plan =>
      obtain ⟨collection, projection, _ | predicate, limit⟩ := plan
      · rfl
      · exact predicate.conditions_mapValues replace
  | insert plan => rfl
  | update plan => exact plan.filter.conditions_mapValues replace
  | delete plan => exact plan.filter.conditions_mapValues replace

theorem listed_mapValues {schema : SchemaProfile} {plan : StatementPlan}
    (replace : SqlValue → SqlValue)
    (listed : ∀ condition ∈ plan.conditions, (schema.field condition.path).isSome) :
    ∀ condition ∈ (plan.mapValues replace).conditions, (schema.field condition.path).isSome := by
  rw [conditions_mapValues, List.forall_mem_map]
  simpa using listed

theorem targets_mapValues (replace : SqlValue → SqlValue) (plan : StatementPlan) :
    (plan.mapValues replace).targets = plan.targets := by
  cases plan with
  | update plan => exact List.map_map
  | select plan => rfl
  | insert plan => rfl
  | delete plan => rfl

theorem Shaped.mapValues {plan : StatementPlan} (shaped : plan.Shaped)
    (replace : SqlValue → SqlValue) : (plan.mapValues replace).Shaped := by
  cases plan with
  | select plan => exact trivial
  | delete plan => exact trivial
  | insert plan =>
      obtain ⟨someColumns, someRows, widths⟩ := shaped
      refine ⟨someColumns, mt List.map_eq_nil_iff.mp someRows, ?_⟩
      rw [List.forall_mem_map]
      intro row membership
      rw [List.length_map]
      exact widths row membership
  | update plan => exact mt List.map_eq_nil_iff.mp shaped

theorem compared_mapValues (replace : SqlValue → SqlValue) (plan : StatementPlan) :
    (plan.mapValues replace).compared =
      plan.compared.map fun cell => (cell.1, replace cell.2) := by
  rw [compared, conditions_mapValues, List.flatMap_map, compared, List.map_flatMap]
  simp only [Condition.path_mapValues, Condition.values_mapValues, List.map_map]
  rfl

theorem assigned_mapValues (replace : SqlValue → SqlValue) (plan : StatementPlan) :
    (plan.mapValues replace).assigned =
      plan.assigned.map fun cell => (cell.1, replace cell.2) := by
  cases plan with
  | select plan => rfl
  | delete plan => rfl
  | update plan =>
      change (plan.assignments.map (AssignmentPlan.mapValue replace)).map _ = List.map _ _
      rw [List.map_map, assigned, List.map_map]
      rfl
  | insert plan =>
      change (plan.rows.map (List.map replace)).flatMap plan.columns.zip = List.map _ _
      rw [List.flatMap_map, assigned, List.map_flatMap]
      congr
      funext row
      rw [List.zip_map_right]
      rfl

end StatementPlan

/-! ## Binding replaces -/

def boundValue (parameters : List SqlValue) (value : SqlValue) : SqlValue :=
  match bindValue parameters value with
  | .ok bound => bound
  | .error _ => value

def Bindable (parameters : List SqlValue) (value : SqlValue) : Prop :=
  ∃ bound, bindValue parameters value = .ok bound

theorem bindValue_eq_ok_iff {parameters : List SqlValue} {value bound : SqlValue} :
    bindValue parameters value = .ok bound ↔
      Bindable parameters value ∧ bound = boundValue parameters value := by
  constructor
  · intro binds
    exact ⟨⟨bound, binds⟩, by rw [boundValue, binds]⟩
  · rintro ⟨⟨other, binds⟩, rfl⟩
    rw [boundValue, binds]

theorem isPlaceholder_boundValue {parameters : List SqlValue} {value : SqlValue}
    (bindable : Bindable parameters value)
    (values : parameters.any SqlValue.isPlaceholder = false) :
    (boundValue parameters value).isPlaceholder = false := by
  obtain ⟨bound, binds⟩ := bindable
  rw [boundValue, binds]
  rw [List.any_eq_false] at values
  cases value with
  | placeholder name =>
      obtain ⟨index, _, found⟩ := bind_eq_ok_iff.mp binds
      exact Bool.eq_false_of_not_eq_true
        (values bound (List.mem_of_getElem? (okOr_eq_ok_iff.mp found)))
  | null => cases binds; rfl
  | boolean value => cases binds; rfl
  | integer value => cases binds; rfl
  | floatingPoint value => cases binds; rfl
  | string value => cases binds; rfl

theorem bindAssignment_eq_ok_iff {parameters : List SqlValue} {assignment bound : AssignmentPlan} :
    bindAssignment parameters assignment = .ok bound ↔
      Bindable parameters assignment.value ∧
        bound = assignment.mapValue (boundValue parameters) := by
  rw [bindAssignment, bind_eq_ok_iff_of (fun _ => bindValue_eq_ok_iff), Except.ok.injEq,
    @eq_comm _ bound]
  rfl

theorem bindPredicate_eq_ok_iff {parameters : List SqlValue} {predicate bound : Predicate} :
    bindPredicate parameters predicate = .ok bound ↔
      (∀ value ∈ predicate.values, Bindable parameters value) ∧
        bound = predicate.mapValues (boundValue parameters) := by
  have lists : ∀ (predicates bounds : List Predicate),
      (∀ predicate ∈ predicates, ∀ bound : Predicate,
        bindPredicate parameters predicate = .ok bound ↔
          (∀ value ∈ predicate.values, Bindable parameters value) ∧
            bound = predicate.mapValues (boundValue parameters)) →
      (bindPredicates parameters predicates = .ok bounds ↔
        (∀ value ∈ predicates.flatMap Predicate.values, Bindable parameters value) ∧
          bounds = Predicate.mapValuesOf (boundValue parameters) predicates) := by
    intro predicates bounds each
    rw [bindPredicates_eq_collect, collect_eq_ok_map_iff each, Predicate.mapValuesOf_eq_map,
      List.forall_mem_flatMap]
  induction predicate using Predicate.listInduction generalizing bound with
  | compare path operator value =>
      rw [bindPredicate, bind_eq_ok_iff_of (fun _ => bindValue_eq_ok_iff), Predicate.values_compare,
        Predicate.mapValues, List.forall_mem_singleton, Except.ok.injEq, @eq_comm _ bound]
  | inList path values negated =>
      have each := fun bounds => @collect_eq_ok_map_iff _ _ _ _ _ _ values
        (fun value _ bound => @bindValue_eq_ok_iff parameters value bound) bounds
      rw [bindPredicate, bind_eq_ok_iff_of each, Predicate.values_inList, Predicate.mapValues,
        Except.ok.injEq, @eq_comm _ bound]
  | isNull path negated => simp [bindPredicate, Predicate.mapValues, @eq_comm _ bound]
  | and predicates inductionHypothesis =>
      have each := fun bounds => lists predicates bounds
        (fun predicate membership bound => inductionHypothesis predicate membership)
      rw [bindPredicate, map_eq_ok_iff_of each, Predicate.values_and, Predicate.mapValues]
  | or predicates inductionHypothesis =>
      have each := fun bounds => lists predicates bounds
        (fun predicate membership bound => inductionHypothesis predicate membership)
      rw [bindPredicate, map_eq_ok_iff_of each, Predicate.values_or, Predicate.mapValues]

theorem bindPlan_eq_ok_iff {parameters : List SqlValue} {plan bound : StatementPlan} :
    bindPlan parameters plan = .ok bound ↔
      (∀ value ∈ plan.values, Bindable parameters value) ∧
        bound = plan.mapValues (boundValue parameters) := by
  cases plan with
  | select plan =>
      obtain ⟨collection, projection, _ | predicate, limit⟩ := plan
      · simp [bindPlan, transpose, StatementPlan.values, StatementPlan.mapValues, bind,
          Except.bind, @eq_comm _ bound]
      · have filtered := fun filter => @map_eq_ok_iff_of _ _ _ _ _ _
          (fun bound => @bindPredicate_eq_ok_iff parameters predicate bound) some filter
        rw [bindPlan, transpose, bind_eq_ok_iff_of filtered, Except.ok.injEq, @eq_comm _ bound]
        simp [StatementPlan.values, StatementPlan.mapValues]
  | insert plan =>
      have rows := fun rows => @collect_eq_ok_map_iff _ _ _ _ _ _ plan.rows
        (fun row _ bound => @collect_eq_ok_map_iff _ _ _ _ _ _ row
          (fun value _ bound => @bindValue_eq_ok_iff parameters value bound) bound) rows
      rw [bindPlan, bind_eq_ok_iff_of rows, Except.ok.injEq, @eq_comm _ bound]
      simp only [StatementPlan.values, StatementPlan.mapValues, List.forall_mem_flatten]
  | update plan =>
      have assignments := fun assignments => @collect_eq_ok_map_iff _ _ _ _ _ _ plan.assignments
        (fun assignment _ bound => @bindAssignment_eq_ok_iff parameters assignment bound)
        assignments
      rw [bindPlan, bind_eq_ok_iff_of assignments,
        bind_eq_ok_iff_of (fun _ => bindPredicate_eq_ok_iff), Except.ok.injEq, @eq_comm _ bound]
      simp only [StatementPlan.values, StatementPlan.mapValues, List.forall_mem_append,
        List.forall_mem_map, and_assoc]
  | delete plan =>
      rw [bindPlan, bind_eq_ok_iff_of (fun _ => bindPredicate_eq_ok_iff), Except.ok.injEq,
        @eq_comm _ bound]
      rfl

/-! ## Counting placeholders -/

section Maximum

variable {Element : Type} {index : Element → Result Nat} {elements : List Element}

theorem le_tryMaximum {maximum : Nat} (counted : tryMaximum index elements = .ok maximum) :
    ∀ element ∈ elements, ∃ found ≤ maximum, index element = .ok found := by
  induction elements generalizing maximum with
  | nil => exact nofun
  | cons element elements inductionHypothesis =>
      obtain ⟨first, indexed, rest⟩ := bind_eq_ok_iff.mp counted
      obtain ⟨others, countedOthers, same⟩ := bind_eq_ok_iff.mp rest
      cases same
      rw [List.forall_mem_cons]
      refine ⟨⟨first, le_max_left _ _, indexed⟩, ?_⟩
      intro other membership
      obtain ⟨found, bounded, indexed⟩ := inductionHypothesis countedOthers other membership
      exact ⟨found, le_max_of_le_right bounded, indexed⟩

theorem tryMaximum_attained {maximum : Nat} (counted : tryMaximum index elements = .ok maximum) :
    maximum = 0 ∨ ∃ element ∈ elements, index element = .ok maximum := by
  induction elements generalizing maximum with
  | nil =>
      cases counted
      exact .inl rfl
  | cons element elements inductionHypothesis =>
      obtain ⟨first, indexed, rest⟩ := bind_eq_ok_iff.mp counted
      obtain ⟨others, countedOthers, same⟩ := bind_eq_ok_iff.mp rest
      cases same
      rcases le_total first others with below | above
      · rw [max_eq_right below]
        rcases inductionHypothesis countedOthers with zero | ⟨other, membership, attains⟩
        · exact .inl zero
        · exact .inr ⟨other, List.mem_cons_of_mem _ membership, attains⟩
      · rw [max_eq_left above]
        exact .inr ⟨element, List.mem_cons_self, indexed⟩

theorem exists_tryMaximum (each : ∀ element ∈ elements, ∃ found, index element = .ok found) :
    ∃ maximum, tryMaximum index elements = .ok maximum := by
  induction elements with
  | nil => exact ⟨0, rfl⟩
  | cons element elements inductionHypothesis =>
      rw [List.forall_mem_cons] at each
      obtain ⟨⟨first, indexed⟩, each⟩ := each
      obtain ⟨others, counted⟩ := inductionHypothesis each
      exact ⟨max first others, bind_eq_ok_iff.mpr ⟨first, indexed,
        bind_eq_ok_iff.mpr ⟨others, counted, rfl⟩⟩⟩

theorem tryMaximum_eq_ok_iff {maximum : Nat} :
    tryMaximum index elements = .ok maximum ↔
      (∀ element ∈ elements, ∃ found ≤ maximum, index element = .ok found) ∧
        (maximum = 0 ∨ ∃ element ∈ elements, index element = .ok maximum) := by
  constructor
  · intro counted
    exact ⟨le_tryMaximum counted, tryMaximum_attained counted⟩
  · rintro ⟨each, attained⟩
    have indexed : ∀ element ∈ elements, ∃ found, index element = .ok found := by
      intro element membership
      obtain ⟨found, _, indexed⟩ := each element membership
      exact ⟨found, indexed⟩
    obtain ⟨other, counted⟩ := exists_tryMaximum indexed
    -- Each of the two is an index of some element, or zero, and the other bounds it.
    have same : other = maximum := by
      apply le_antisymm
      · rcases tryMaximum_attained counted with rfl | ⟨element, membership, attains⟩
        · exact Nat.zero_le _
        · obtain ⟨found, bounded, indexed⟩ := each element membership
          exact Except.ok.inj (attains.symm.trans indexed) ▸ bounded
      · rcases attained with rfl | ⟨element, membership, attains⟩
        · exact Nat.zero_le _
        · obtain ⟨found, bounded, indexed⟩ := le_tryMaximum counted element membership
          exact Except.ok.inj (attains.symm.trans indexed) ▸ bounded
    rw [counted, same]

end Maximum

theorem tryMaximum_append {Element : Type} (index : Element → Result Nat)
    (first second : List Element) :
    tryMaximum index (first ++ second) =
      tryMaximum index first >>= fun left =>
        tryMaximum index second >>= fun right => .ok (max left right) := by
  induction first with
  | nil => cases counted : tryMaximum index second <;> simp [tryMaximum, counted, bind, Except.bind]
  | cons element elements inductionHypothesis =>
      rw [List.cons_append, tryMaximum, inductionHypothesis, tryMaximum]
      simp only [bind_assoc]
      congr
      funext found
      congr
      funext others
      cases tryMaximum index second with
      | error error => rfl
      | ok right => simp [bind, Except.bind, max_assoc]

theorem tryMaximum_map {Element Image : Type} (index : Image → Result Nat)
    (translate : Element → Image) (elements : List Element) :
    tryMaximum index (elements.map translate) = tryMaximum (index ∘ translate) elements := by
  induction elements with
  | nil => rfl
  | cons element elements inductionHypothesis =>
      rw [List.map_cons, tryMaximum, tryMaximum, inductionHypothesis]
      rfl

theorem maximumPredicateIndex_eq (predicate : Predicate) :
    maximumPredicateIndex predicate = tryMaximum placeholderIndex predicate.values := by
  have lists : ∀ predicates : List Predicate,
      (∀ predicate ∈ predicates,
        maximumPredicateIndex predicate = tryMaximum placeholderIndex predicate.values) →
      maximumPredicatesIndex predicates =
        tryMaximum placeholderIndex (predicates.flatMap Predicate.values) := by
    intro predicates each
    induction predicates with
    | nil => rfl
    | cons predicate predicates inductionHypothesis =>
        rw [List.forall_mem_cons] at each
        rw [maximumPredicatesIndex, each.1, inductionHypothesis each.2, List.flatMap_cons,
          tryMaximum_append]
  induction predicate using Predicate.listInduction with
  | compare path operator value =>
      rw [maximumPredicateIndex, Predicate.values_compare]
      cases indexed : placeholderIndex value <;> simp [tryMaximum, indexed, bind, Except.bind]
  | inList path values negated => rw [maximumPredicateIndex, Predicate.values_inList]
  | isNull path negated => rfl
  | and predicates inductionHypothesis =>
      rw [maximumPredicateIndex, Predicate.values_and, lists predicates inductionHypothesis]
  | or predicates inductionHypothesis =>
      rw [maximumPredicateIndex, Predicate.values_or, lists predicates inductionHypothesis]

/-- The largest index of a plan is that of its values. -/
theorem maximumPlaceholderIndex_eq (plan : StatementPlan) :
    maximumPlaceholderIndex plan = tryMaximum placeholderIndex plan.values := by
  cases plan with
  | select plan =>
      obtain ⟨collection, projection, _ | predicate, limit⟩ := plan
      · rfl
      · simp only [maximumPlaceholderIndex, StatementPlan.values, Option.toList_some,
          List.flatMap_singleton]
        rw [← maximumPredicateIndex_eq]
        cases indexed : maximumPredicateIndex predicate <;>
          simp [tryMaximum, indexed, bind, Except.bind]
  | insert plan => rfl
  | update plan =>
      simp only [maximumPlaceholderIndex, StatementPlan.values, tryMaximum_append, tryMaximum_map,
        maximumPredicateIndex_eq]
      rfl
  | delete plan => exact maximumPredicateIndex_eq plan.filter

/-! ## Validation -/

theorem validateWritePredicate_eq_ok_iff {schema : SchemaProfile} {predicate : Predicate}
    (listed : ∀ condition ∈ predicate.conditions, (schema.field condition.path).isSome) :
    validateWritePredicate schema predicate = .ok () ↔
      ∀ condition ∈ predicate.conditions, ∀ value ∈ condition.values,
        validateValue condition.path value schema false = .ok () := by
  have lists : ∀ predicates : List Predicate,
      (∀ predicate ∈ predicates,
        (∀ condition ∈ predicate.conditions, (schema.field condition.path).isSome) →
        (validateWritePredicate schema predicate = .ok () ↔
          ∀ condition ∈ predicate.conditions, ∀ value ∈ condition.values,
            validateValue condition.path value schema false = .ok ())) →
      (∀ condition ∈ Predicate.conditionsOf predicates, (schema.field condition.path).isSome) →
      (validateWritePredicates schema predicates = .ok () ↔
        ∀ condition ∈ Predicate.conditionsOf predicates, ∀ value ∈ condition.values,
          validateValue condition.path value schema false = .ok ()) := by
    intro predicates each listed
    induction predicates with
    | nil => simp [validateWritePredicates, Predicate.conditionsOf]
    | cons predicate predicates inductionHypothesis =>
        rw [Predicate.conditionsOf, List.forall_mem_append] at listed
        rw [List.forall_mem_cons] at each
        rw [validateWritePredicates, bind_eq_ok_iff, Predicate.conditionsOf,
          List.forall_mem_append, ← each.1 listed.1, ← inductionHypothesis each.2 listed.2]
        constructor
        · rintro ⟨_, first, others⟩
          exact ⟨first, others⟩
        · rintro ⟨first, others⟩
          exact ⟨(), first, others⟩
  induction predicate using Predicate.listInduction with
  | compare path operator value => simp [validateWritePredicate, Predicate.conditions,
      Condition.values, Condition.path]
  | inList path values negated => simp [validateWritePredicate, Predicate.conditions,
      Condition.values, Condition.path, tryForEach_eq_ok_iff]
  | isNull path negated =>
      simp only [Predicate.conditions, List.forall_mem_singleton, Condition.path,
        Option.isSome_iff_exists] at listed
      obtain ⟨profile, found⟩ := listed
      have shaped := validateFieldShape_eq_ok_iff.mpr ⟨profile, found, rfl⟩
      simp [validateWritePredicate, Predicate.conditions, Condition.values, shaped, Except.map]
  | and predicates inductionHypothesis => exact lists predicates inductionHypothesis listed
  | or predicates inductionHypothesis => exact lists predicates inductionHypothesis listed

theorem validateBoundPlan_eq_ok_iff {schema : SchemaProfile} {plan : StatementPlan}
    (listed : ∀ condition ∈ plan.conditions, (schema.field condition.path).isSome) :
    validateBoundPlan plan schema = .ok () ↔
      (∀ cell ∈ plan.assigned, validateValue cell.1 cell.2 schema true = .ok ()) ∧
        ∀ cell ∈ plan.compared, validateValue cell.1 cell.2 schema false = .ok () := by
  simp only [StatementPlan.compared, List.forall_mem_flatMap, List.forall_mem_map]
  cases plan with
  | select plan =>
      obtain ⟨collection, projection, _ | predicate, limit⟩ := plan
      · simp [validateBoundPlan, tryForEach, StatementPlan.assigned, StatementPlan.conditions,
          StatementPlan.filter?]
      · simp only [validateBoundPlan, tryForEach_eq_ok_iff, Option.toList_some,
          List.forall_mem_singleton, StatementPlan.assigned, List.not_mem_nil, false_implies,
          implies_true, true_and]
        exact validateWritePredicate_eq_ok_iff listed
  | insert plan =>
      simp only [validateBoundPlan, tryForEach_eq_ok_iff, StatementPlan.assigned,
        List.forall_mem_flatMap, StatementPlan.conditions, StatementPlan.filter?,
        List.not_mem_nil, false_implies, implies_true, and_true]
      rfl
  | update plan =>
      have filtered := validateWritePredicate_eq_ok_iff listed
      simp only [StatementPlan.assigned, List.forall_mem_map]
      constructor
      · intro validated
        obtain ⟨_, assigned, compared⟩ := bind_eq_ok_iff.mp validated
        exact ⟨tryForEach_eq_ok_iff.mp assigned, filtered.mp compared⟩
      · rintro ⟨assigned, compared⟩
        exact bind_eq_ok_iff.mpr ⟨(), tryForEach_eq_ok_iff.mpr assigned, filtered.mpr compared⟩
  | delete plan =>
      simp only [validateBoundPlan, StatementPlan.assigned, List.not_mem_nil, false_implies,
        implies_true, true_and]
      exact validateWritePredicate_eq_ok_iff listed

/-! ## Binding keeps what lowering established -/

theorem bindParameters_conforms {plan bound : StatementPlan} {parameters : List SqlValue}
    {schema : SchemaProfile} (conforms : plan.Conforms schema)
    (binds : bindParameters plan parameters schema = .ok bound) : bound.Conforms schema := by
  obtain ⟨_, _, substitutes, validated⟩ := bindParameters_eq_ok_iff.mp binds
  obtain ⟨_, rfl⟩ := bindPlan_eq_ok_iff.mp substitutes
  have listed := StatementPlan.listed_mapValues (boundValue parameters) conforms.conditions_listed
  exact
    { targets_listed := by
        rw [StatementPlan.targets_mapValues]
        exact conforms.targets_listed
      conditions_listed := listed
      assigned_valid := ((validateBoundPlan_eq_ok_iff listed).mp validated).1
      shaped := conforms.shaped.mapValues _ }

theorem StatementPlan.Prepared.conforms {schema : SchemaProfile} {plan : StatementPlan}
    (prepared : plan.Prepared schema) : plan.Conforms schema := by
  obtain ⟨statement, collection, lowered, lowers, rfl | ⟨parameters, binds⟩⟩ := prepared
  · exact lowerStatement_conforms lowers
  · exact bindParameters_conforms (lowerStatement_conforms lowers) binds

/-- Lowering has made the checks that binding makes. -/
theorem validateBoundPlan_of_lowerStatement {statement : Ast.Statement} {collection : String}
    {schema : SchemaProfile} {plan : StatementPlan}
    (lowered : lowerStatement statement collection schema = .ok plan) :
    validateBoundPlan plan schema = .ok () := by
  have conforms := lowerStatement_conforms lowered
  cases statement with
  | other text => cases lowered
  | query query =>
      obtain ⟨_, _, _, _, _, _, _, _, _, _, validated, _, rfl⟩ := parseSelect_eq_ok_iff.mp lowered
      exact validated
  | insert insert =>
      obtain ⟨_, _, _, _, _, _, _, _, _, _, _, _, _, _, rfl⟩ := parseInsert_eq_ok_iff.mp lowered
      rw [validateBoundPlan_eq_ok_iff conforms.conditions_listed]
      exact ⟨conforms.assigned_valid, by simp [StatementPlan.compared, StatementPlan.conditions,
        StatementPlan.filter?]⟩
  | update update =>
      obtain ⟨_, _, _, _, _, _, _, _, _, assigned, compared, rfl⟩ :=
        parseUpdate_eq_ok_iff.mp lowered
      exact bind_eq_ok_iff.mpr ⟨(), assigned, compared⟩
  | delete delete =>
      obtain ⟨_, _, _, _, _, _, compared, rfl⟩ := parseDelete_eq_ok_iff.mp lowered
      exact compared

end Mongres
