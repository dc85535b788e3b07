import Mathlib.Tactic

/-!
# Formulas without negation, and their two readings

A formula is built from leaves by conjunction and disjunction.  Evaluated in
Kleene's three-valued logic it is `TRUE` exactly when it holds over the leaves
that are `TRUE`, so `UNKNOWN` may be read as a plain failure there.

A second reading of the leaves may be more permissive than the first.  The two
readings of a formula part exactly where a widened leaf decides it.
-/

namespace Mongres

universe u

/-- The truth values of a logic with missing information. -/
inductive Truth where
  | true
  | unknown
  | false
  deriving DecidableEq, Repr

namespace Truth

def and : Truth → Truth → Truth
  | .false, _ | _, .false => .false
  | .true, .true => .true
  | _, _ => .unknown

def or : Truth → Truth → Truth
  | .true, _ | _, .true => .true
  | .false, .false => .false
  | _, _ => .unknown

def not : Truth → Truth
  | .true => .false
  | .unknown => .unknown
  | .false => .true

def all (truths : List Truth) : Truth := truths.foldr and .true

def any (truths : List Truth) : Truth := truths.foldr or .false

def ofBool (value : Bool) : Truth := if value then .true else .false

@[simp]
theorem ofBool_eq_true (value : Bool) : ofBool value = .true ↔ value = Bool.true := by
  cases value <;> simp [ofBool]

@[simp]
theorem and_eq_true (a b : Truth) : a.and b = .true ↔ a = .true ∧ b = .true := by
  cases a <;> cases b <;> simp [and]

@[simp]
theorem or_eq_true (a b : Truth) : a.or b = .true ↔ a = .true ∨ b = .true := by
  cases a <;> cases b <;> simp [or]

@[simp]
theorem all_eq_true (truths : List Truth) : all truths = .true ↔ ∀ truth ∈ truths, truth = .true := by
  induction truths with
  | nil => simp [all]
  | cons truth truths inductionHypothesis =>
      change truth.and (all truths) = .true ↔ _
      simp [inductionHypothesis]

@[simp]
theorem any_eq_true (truths : List Truth) : any truths = .true ↔ ∃ truth ∈ truths, truth = .true := by
  induction truths with
  | nil => simp [any]
  | cons truth truths inductionHypothesis =>
      change truth.or (any truths) = .true ↔ _
      rw [or_eq_true, inductionHypothesis, List.exists_mem_cons_iff]

@[simp]
theorem not_ofBool (value : Bool) : (ofBool value).not = ofBool !value := by
  cases value <;> rfl

theorem any_map_ofBool {Item : Type u} (value : Item → Bool) (items : List Item) :
    any (items.map fun item => ofBool (value item)) = ofBool (items.any value) := by
  induction items with
  | nil => rfl
  | cons item items inductionHypothesis =>
      change (ofBool (value item)).or (any _) = _
      rw [inductionHypothesis, List.any_cons]
      cases value item <;> cases items.any value <;> rfl

end Truth

inductive Formula (Leaf : Type u) where
  | leaf (leaf : Leaf)
  | all (formulas : List (Formula Leaf))
  | any (formulas : List (Formula Leaf))

namespace Formula

variable {Leaf : Type u}

@[elab_as_elim]
theorem listInduction {motive : Formula Leaf → Prop}
    (leaf : ∀ leaf, motive (.leaf leaf))
    (all : ∀ formulas, (∀ formula ∈ formulas, motive formula) → motive (.all formulas))
    (any : ∀ formulas, (∀ formula ∈ formulas, motive formula) → motive (.any formulas))
    (formula : Formula Leaf) : motive formula :=
  @Formula.rec Leaf motive (fun formulas => ∀ formula ∈ formulas, motive formula)
    leaf all any (by simp)
    (fun _ _ head tail => by simpa using ⟨head, tail⟩) formula

mutual

def eval (value : Leaf → Truth) : Formula Leaf → Truth
  | .leaf atom => value atom
  | .all formulas => Truth.all (evalList value formulas)
  | .any formulas => Truth.any (evalList value formulas)

def evalList (value : Leaf → Truth) : List (Formula Leaf) → List Truth
  | [] => []
  | formula :: formulas => eval value formula :: evalList value formulas

end

theorem evalList_eq_map (value : Leaf → Truth) (formulas : List (Formula Leaf)) :
    evalList value formulas = formulas.map (eval value) := by
  induction formulas with
  | nil => rfl
  | cons formula formulas inductionHypothesis => simp [evalList, inductionHypothesis]

/-- Two-valued validity over the leaves that satisfy a predicate. -/
def Holds (reading : Leaf → Prop) : Formula Leaf → Prop
  | .leaf atom => reading atom
  | .all formulas => ∀ formula ∈ formulas, Holds reading formula
  | .any formulas => ∃ formula, ∃ _ : formula ∈ formulas, Holds reading formula

@[simp]
theorem holds_leaf (reading : Leaf → Prop) (leaf : Leaf) :
    Holds reading (.leaf leaf) ↔ reading leaf := by
  rw [Holds]

@[simp]
theorem holds_all (reading : Leaf → Prop) (formulas : List (Formula Leaf)) :
    Holds reading (.all formulas) ↔ ∀ formula ∈ formulas, Holds reading formula := by
  rw [Holds]

@[simp]
theorem holds_any (reading : Leaf → Prop) (formulas : List (Formula Leaf)) :
    Holds reading (.any formulas) ↔ ∃ formula ∈ formulas, Holds reading formula := by
  rw [Holds]
  simp

theorem eval_eq_true_iff (value : Leaf → Truth) (formula : Formula Leaf) :
    formula.eval value = .true ↔ formula.Holds fun leaf => value leaf = .true := by
  induction formula using listInduction with
  | leaf leaf => simp [eval]
  | all formulas inductionHypothesis =>
      simp only [eval, evalList_eq_map, Truth.all_eq_true, List.forall_mem_map, holds_all]
      exact forall₂_congr inductionHypothesis
  | any formulas inductionHypothesis =>
      simp only [eval, evalList_eq_map, Truth.any_eq_true, List.mem_map, exists_exists_and_eq_and,
        holds_any]
      exact exists_congr fun formula => and_congr_right (inductionHypothesis formula)

theorem Holds.mono {strict loose : Leaf → Prop} (weaker : ∀ leaf, strict leaf → loose leaf)
    (formula : Formula Leaf) (holds : formula.Holds strict) : formula.Holds loose := by
  induction formula using listInduction with
  | leaf leaf => simpa using weaker leaf (by simpa using holds)
  | all formulas inductionHypothesis =>
      simp only [holds_all] at holds ⊢
      exact fun formula membership =>
        inductionHypothesis formula membership (holds formula membership)
  | any formulas inductionHypothesis =>
      simp only [holds_any] at holds ⊢
      obtain ⟨formula, membership, holds⟩ := holds
      exact ⟨formula, membership, inductionHypothesis formula membership holds⟩

/-- A leaf that only the looser reading admits decides the formula: every other
conjunct holds or is widened too, and no disjunct holds strictly. -/
def Widened (strict loose : Leaf → Prop) : Formula Leaf → Prop
  | .leaf atom => loose atom ∧ ¬ strict atom
  | .all formulas =>
      (∃ formula, ∃ _ : formula ∈ formulas, Widened strict loose formula) ∧
        ∀ formula ∈ formulas, Widened strict loose formula ∨ Holds strict formula
  | .any formulas =>
      (∃ formula, ∃ _ : formula ∈ formulas, Widened strict loose formula) ∧
        ∀ formula ∈ formulas, ¬ Holds strict formula

@[simp]
theorem widened_leaf (strict loose : Leaf → Prop) (leaf : Leaf) :
    Widened strict loose (.leaf leaf) ↔ loose leaf ∧ ¬ strict leaf := by
  rw [Widened]

@[simp]
theorem widened_all (strict loose : Leaf → Prop) (formulas : List (Formula Leaf)) :
    Widened strict loose (.all formulas) ↔
      (∃ formula ∈ formulas, Widened strict loose formula) ∧
        ∀ formula ∈ formulas, Widened strict loose formula ∨ Holds strict formula := by
  rw [Widened]
  simp

@[simp]
theorem widened_any (strict loose : Leaf → Prop) (formulas : List (Formula Leaf)) :
    Widened strict loose (.any formulas) ↔
      (∃ formula ∈ formulas, Widened strict loose formula) ∧
        ∀ formula ∈ formulas, ¬ Holds strict formula := by
  rw [Widened]
  simp

/-- A formula is widened exactly when it holds loosely and not strictly. -/
theorem widened_iff {strict loose : Leaf → Prop} (weaker : ∀ leaf, strict leaf → loose leaf)
    (formula : Formula Leaf) :
    formula.Widened strict loose ↔ formula.Holds loose ∧ ¬ formula.Holds strict := by
  induction formula using listInduction with
  | leaf leaf => simp
  | all formulas inductionHypothesis =>
      simp only [widened_all, holds_all, not_forall]
      constructor
      · rintro ⟨⟨formula, membership, widened⟩, each⟩
        refine ⟨fun other otherMembership => ?_, formula, membership,
          ((inductionHypothesis formula membership).mp widened).2⟩
        rcases each other otherMembership with widened | holds
        · exact ((inductionHypothesis other otherMembership).mp widened).1
        · exact holds.mono weaker
      · rintro ⟨loosely, formula, membership, fails⟩
        refine ⟨⟨formula, membership, (inductionHypothesis formula membership).mpr
          ⟨loosely formula membership, fails⟩⟩, fun other otherMembership => ?_⟩
        by_cases holds : other.Holds strict
        · exact .inr holds
        · exact .inl ((inductionHypothesis other otherMembership).mpr
            ⟨loosely other otherMembership, holds⟩)
  | any formulas inductionHypothesis =>
      simp only [widened_any, holds_any, not_exists, not_and]
      constructor
      · rintro ⟨⟨formula, membership, widened⟩, none⟩
        exact ⟨⟨formula, membership, ((inductionHypothesis formula membership).mp widened).1⟩, none⟩
      · rintro ⟨⟨formula, membership, loosely⟩, none⟩
        exact ⟨⟨formula, membership, (inductionHypothesis formula membership).mpr
          ⟨loosely, none formula membership⟩⟩, none⟩

/-- The two readings agree on a formula exactly when nothing widens it. -/
theorem holds_iff_holds_iff {strict loose : Leaf → Prop}
    (weaker : ∀ leaf, strict leaf → loose leaf) (formula : Formula Leaf) :
    (formula.Holds loose ↔ formula.Holds strict) ↔ ¬ formula.Widened strict loose := by
  rw [widened_iff weaker, not_and, not_not]
  exact ⟨Iff.mp, fun strictly => ⟨strictly, Holds.mono weaker formula⟩⟩

end Formula

end Mongres
