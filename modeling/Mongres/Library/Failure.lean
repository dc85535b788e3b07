import Mongres.Library.Fallible

/-!
# The errors of computations that may fail

A sequenced or traversed computation fails only with the errors of its parts.
-/

namespace Mongres.Fallible

universe u v

variable {ε : Type u} {α β : Type v} {expected : ε → Prop}

/-- Whatever error an attempt fails with is expected. -/
def FailsOnlyWith (expected : ε → Prop) (attempt : Except ε α) : Prop :=
  ∀ error, attempt = .error error → expected error

@[simp]
theorem failsOnlyWith_ok {value : α} : FailsOnlyWith expected (.ok value : Except ε α) := nofun

@[simp]
theorem failsOnlyWith_error {error : ε} :
    FailsOnlyWith expected (.error error : Except ε α) ↔ expected error := by
  simp [FailsOnlyWith]

@[simp]
theorem failsOnlyWith_bind {attempt : Except ε α} {next : α → Except ε β} :
    FailsOnlyWith expected (attempt >>= next) ↔
      FailsOnlyWith expected attempt ∧
        ∀ value, attempt = .ok value → FailsOnlyWith expected (next value) := by
  cases attempt <;> simp [bind, Except.bind]

@[simp]
theorem failsOnlyWith_map {attempt : Except ε α} {translate : α → β} :
    FailsOnlyWith expected (attempt.map translate) ↔ FailsOnlyWith expected attempt := by
  cases attempt <;> simp [Except.map]

@[simp]
theorem failsOnlyWith_ite {condition : Prop} [Decidable condition] {first second : Except ε α} :
    FailsOnlyWith expected (if condition then first else second) ↔
      (condition → FailsOnlyWith expected first) ∧
        (¬ condition → FailsOnlyWith expected second) := by
  split_ifs with holds <;> simp [holds]

@[simp]
theorem failsOnlyWith_okOr {option : Option α} {error : ε} :
    FailsOnlyWith expected (okOr option error) ↔ (option = none → expected error) := by
  cases option <;> simp [okOr]

theorem map_eq_error_iff {attempt : Except ε α} {translate : α → β} {error : ε} :
    attempt.map translate = .error error ↔ attempt = .error error := by
  cases attempt <;> simp [Except.map]

def errorOf : Except ε α → Option ε
  | .ok _ => none
  | .error error => some error

section Traversals

variable {γ : Type*}

theorem FailsOnlyWith.transpose {translate : γ → Except ε α}
    (each : ∀ value, FailsOnlyWith expected (translate value)) (option : Option γ) :
    FailsOnlyWith expected (transpose translate option) := by
  cases option with
  | none => exact failsOnlyWith_ok
  | some value => exact failsOnlyWith_map.mpr (each value)

theorem FailsOnlyWith.tryForEach {check : γ → Except ε Unit}
    (each : ∀ element, FailsOnlyWith expected (check element)) (elements : List γ) :
    FailsOnlyWith expected (tryForEach check elements) := by
  induction elements with
  | nil => exact failsOnlyWith_ok
  | cons element elements inductionHypothesis =>
      exact failsOnlyWith_bind.mpr ⟨each element, fun _ _ => inductionHypothesis⟩

theorem FailsOnlyWith.collect {translate : γ → Except ε α} {elements : List γ}
    (each : ∀ element ∈ elements, FailsOnlyWith expected (translate element)) :
    FailsOnlyWith expected (collect translate elements) := by
  induction elements with
  | nil => exact failsOnlyWith_ok
  | cons element elements inductionHypothesis =>
      rw [List.forall_mem_cons] at each
      refine failsOnlyWith_bind.mpr ⟨each.1, fun _ _ => ?_⟩
      exact failsOnlyWith_bind.mpr ⟨inductionHypothesis each.2, fun _ _ => failsOnlyWith_ok⟩

theorem FailsOnlyWith.foldlM {step : α → γ → Except ε α}
    (each : ∀ value element, FailsOnlyWith expected (step value element)) (elements : List γ)
    (start : α) : FailsOnlyWith expected (elements.foldlM step start) := by
  induction elements generalizing start with
  | nil => exact failsOnlyWith_ok
  | cons element elements inductionHypothesis =>
      rw [List.foldlM_cons]
      exact failsOnlyWith_bind.mpr ⟨each start element, fun value _ => inductionHypothesis value⟩

end Traversals

end Mongres.Fallible
