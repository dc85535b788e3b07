import Mathlib.Data.List.Forall2

/-!
# Computations that may fail, and their traversals

Success of a sequenced or traversed computation is success of its parts.
-/

namespace Mongres.Fallible

universe u v

variable {ε : Type u} {α β : Type v}

theorem bind_eq_ok_iff {attempt : Except ε α} {next : α → Except ε β} {result : β} :
    (attempt >>= next) = .ok result ↔ ∃ value, attempt = .ok value ∧ next value = .ok result := by
  cases attempt <;> simp [bind, Except.bind]

theorem map_eq_ok_iff {attempt : Except ε α} {translate : α → β} {result : β} :
    attempt.map translate = .ok result ↔ ∃ value, attempt = .ok value ∧ translate value = result := by
  cases attempt <;> simp [Except.map]

theorem mapError_eq_ok_iff {ε' : Type u} {attempt : Except ε α} {translate : ε → ε'} {result : α} :
    attempt.mapError translate = .ok result ↔ attempt = .ok result := by
  cases attempt <;> simp [Except.mapError]

theorem bind_eq_ok_iff_of {attempt : Except ε α} {succeeds : Prop} {image : α}
    (known : ∀ value, attempt = .ok value ↔ succeeds ∧ value = image) {next : α → Except ε β}
    {result : β} :
    (attempt >>= next) = .ok result ↔ succeeds ∧ next image = .ok result := by
  rw [bind_eq_ok_iff]
  simp only [known, and_assoc, exists_and_left, exists_eq_left]

theorem map_eq_ok_iff_of {attempt : Except ε α} {succeeds : Prop} {image : α}
    (known : ∀ value, attempt = .ok value ↔ succeeds ∧ value = image) {translate : α → β}
    {result : β} :
    attempt.map translate = .ok result ↔ succeeds ∧ result = translate image := by
  rw [map_eq_ok_iff]
  simp only [known, and_assoc, exists_and_left, exists_eq_left, @eq_comm _ result]

theorem ite_error_eq_ok_iff {refused : Prop} [Decidable refused] {error : ε}
    {attempt : Except ε α} {result : α} :
    (if refused then .error error else attempt) = .ok result ↔ ¬ refused ∧ attempt = .ok result := by
  by_cases fails : refused <;> simp [fails]

/-- The value of an option, or the error that its absence means. -/
def okOr (value : Option α) (error : ε) : Except ε α :=
  match value with
  | some value => .ok value
  | none => .error error

@[simp]
theorem okOr_eq_ok_iff {option : Option α} {error : ε} {value : α} :
    okOr option error = .ok value ↔ option = some value := by
  cases option <;> simp [okOr]

def transpose {γ : Type*} (translate : γ → Except ε α) : Option γ → Except ε (Option α)
  | none => .ok none
  | some value => (translate value).map some

theorem transpose_eq_ok_iff {γ : Type*} {translate : γ → Except ε α} {option : Option γ}
    {result : Option α} :
    transpose translate option = .ok result ↔
      (option = none ∧ result = none) ∨
        ∃ value image, option = some value ∧ translate value = .ok image ∧ result = some image := by
  cases option with
  | none => simp [transpose, eq_comm]
  | some value => simp [transpose, map_eq_ok_iff, @eq_comm _ result]

def tryForEach {γ : Type*} (check : γ → Except ε Unit) : List γ → Except ε Unit
  | [] => .ok ()
  | element :: rest => check element >>= fun () => tryForEach check rest

theorem tryForEach_eq_ok_iff {γ : Type*} {check : γ → Except ε Unit} {elements : List γ} :
    tryForEach check elements = .ok () ↔ ∀ element ∈ elements, check element = .ok () := by
  induction elements with
  | nil => simp [tryForEach]
  | cons element elements inductionHypothesis =>
      rw [tryForEach, bind_eq_ok_iff, List.forall_mem_cons, ← inductionHypothesis]
      constructor
      · rintro ⟨⟨⟩, first, rest⟩
        exact ⟨first, rest⟩
      · rintro ⟨first, rest⟩
        exact ⟨(), first, rest⟩

/-- Translate every element, stopping at the first failure. -/
def collect {γ : Type*} (translate : γ → Except ε α) : List γ → Except ε (List α)
  | [] => .ok []
  | element :: rest => do
      let value ← translate element
      let values ← collect translate rest
      .ok (value :: values)

theorem collect_eq_ok_iff {γ : Type*} {translate : γ → Except ε α} {elements : List γ}
    {values : List α} :
    collect translate elements = .ok values ↔
      List.Forall₂ (fun element value => translate element = .ok value) elements values := by
  induction elements generalizing values with
  | nil => cases values <;> simp [collect]
  | cons element elements inductionHypothesis =>
      simp only [collect, bind_eq_ok_iff, List.forall₂_cons_left_iff, inductionHypothesis]
      constructor
      · rintro ⟨value, first, rest, others, same⟩
        cases same
        exact ⟨value, rest, first, others, rfl⟩
      · rintro ⟨value, rest, first, others, rfl⟩
        exact ⟨value, first, rest, others, rfl⟩

theorem exists_of_mem_collect {γ : Type*} {translate : γ → Except ε α} {elements : List γ}
    {values : List α} (collected : collect translate elements = .ok values) {value : α}
    (membership : value ∈ values) : ∃ element ∈ elements, translate element = .ok value := by
  rw [collect_eq_ok_iff] at collected
  induction collected with
  | nil => simp at membership
  | cons translated _ inductionHypothesis =>
      rcases List.mem_cons.mp membership with rfl | later
      · exact ⟨_, List.mem_cons_self, translated⟩
      · obtain ⟨element, elementMembership, found⟩ := inductionHypothesis later
        exact ⟨element, List.mem_cons_of_mem _ elementMembership, found⟩

theorem exists_mem_of_collect {γ : Type*} {translate : γ → Except ε α} {elements : List γ}
    {values : List α} (collected : collect translate elements = .ok values) {element : γ}
    (membership : element ∈ elements) : ∃ value ∈ values, translate element = .ok value := by
  rw [collect_eq_ok_iff] at collected
  induction collected with
  | nil => simp at membership
  | cons translated _ inductionHypothesis =>
      rcases List.mem_cons.mp membership with rfl | later
      · exact ⟨_, List.mem_cons_self, translated⟩
      · obtain ⟨value, valueMembership, found⟩ := inductionHypothesis later
        exact ⟨value, List.mem_cons_of_mem _ valueMembership, found⟩

theorem flatMap_of_collect {γ δ : Type*} {translate : γ → Except ε α} {elements : List γ}
    {values : List α} {ofValue : α → List δ} {ofElement : γ → List δ}
    (collected : collect translate elements = .ok values)
    (each : ∀ element value, translate element = .ok value → ofValue value = ofElement element) :
    values.flatMap ofValue = elements.flatMap ofElement := by
  rw [collect_eq_ok_iff] at collected
  induction collected with
  | nil => rfl
  | cons translated _ inductionHypothesis =>
      rw [List.flatMap_cons, List.flatMap_cons, each _ _ translated, inductionHypothesis]

theorem exists_forall₂_iff {γ δ : Type*} {related : γ → δ → Prop} {elements : List γ} :
    (∃ images, List.Forall₂ related elements images) ↔
      ∀ element ∈ elements, ∃ image, related element image := by
  induction elements with
  | nil => simp
  | cons element elements inductionHypothesis =>
      rw [List.forall_mem_cons, ← inductionHypothesis]
      constructor
      · rintro ⟨_, all⟩
        obtain ⟨image, images, first, others, rfl⟩ := List.forall₂_cons_left_iff.mp all
        exact ⟨⟨image, first⟩, images, others⟩
      · rintro ⟨⟨image, first⟩, images, others⟩
        exact ⟨image :: images, .cons first others⟩

theorem exists_collect_iff {γ : Type*} {translate : γ → Except ε α} {elements : List γ} :
    (∃ values, collect translate elements = .ok values) ↔
      ∀ element ∈ elements, ∃ value, translate element = .ok value := by
  simp only [collect_eq_ok_iff]
  exact exists_forall₂_iff

theorem collect_eq_ok_map_iff {γ : Type*} {translate : γ → Except ε α} {succeeds : γ → Prop}
    {image : γ → α} {elements : List γ}
    (each : ∀ element ∈ elements, ∀ value,
      translate element = .ok value ↔ succeeds element ∧ value = image element)
    {values : List α} :
    collect translate elements = .ok values ↔
      (∀ element ∈ elements, succeeds element) ∧ values = elements.map image := by
  induction elements generalizing values with
  | nil => simp [collect, eq_comm]
  | cons element elements inductionHypothesis =>
      rw [List.forall_mem_cons] at each
      simp only [collect, bind_eq_ok_iff, each.1, inductionHypothesis each.2, List.map_cons,
        List.forall_mem_cons]
      constructor
      · rintro ⟨_, ⟨first, rfl⟩, _, ⟨others, rfl⟩, same⟩
        cases same
        exact ⟨⟨first, others⟩, rfl⟩
      · rintro ⟨⟨first, others⟩, rfl⟩
        exact ⟨_, ⟨first, rfl⟩, _, ⟨others, rfl⟩, rfl⟩

theorem length_of_collect {γ : Type*} {translate : γ → Except ε α} {elements : List γ}
    {values : List α} (collected : collect translate elements = .ok values) :
    values.length = elements.length :=
  (collect_eq_ok_iff.mp collected).length_eq.symm

theorem foldlM_eq_ok_iff_of {γ : Type*} {step : α → γ → Except ε α} {succeeds : γ → Prop}
    {next : α → γ → α}
    (known : ∀ state element result,
      step state element = .ok result ↔ succeeds element ∧ result = next state element)
    {elements : List γ} {start result : α} :
    elements.foldlM step start = .ok result ↔
      (∀ element ∈ elements, succeeds element) ∧ result = elements.foldl next start := by
  induction elements generalizing start with
  | nil => simp [pure, Except.pure, eq_comm]
  | cons element elements inductionHypothesis =>
      rw [List.foldlM_cons, bind_eq_ok_iff_of (known start element), inductionHypothesis,
        List.forall_mem_cons, List.foldl_cons, and_assoc]

theorem exists_step_of_foldlM {γ : Type*} {step : α → γ → Except ε α} {elements : List γ}
    {start result : α} (folded : elements.foldlM step start = .ok result) {element : γ}
    (membership : element ∈ elements) : ∃ state next, step state element = .ok next := by
  induction elements generalizing start with
  | nil => cases membership
  | cons first elements inductionHypothesis =>
      rw [List.foldlM_cons, bind_eq_ok_iff] at folded
      obtain ⟨next, stepped, folded⟩ := folded
      rcases List.mem_cons.mp membership with rfl | later
      · exact ⟨start, next, stepped⟩
      · exact inductionHypothesis folded later

theorem exists_error_iff {attempt : Except ε α} :
    (∃ error, attempt = .error error) ↔ ¬ ∃ value, attempt = .ok value := by
  cases attempt <;> simp

end Mongres.Fallible
