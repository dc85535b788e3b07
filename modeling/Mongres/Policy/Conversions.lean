import Mongres.Policy.Candidates

/-!
# Lossless conversions

The text that an integer is formatted as is the only text that is parsed as that integer, so
each of the two type conversions undoes the other, on values and on the plans that assign them.
-/

namespace Mongres

/-! ## Values -/

theorem parseIntegerLosslessly_eq_some_iff {text : String} {integer : Int64} :
    parseIntegerLosslessly text = some integer ↔ text = Decimal.text integer := by
  rw [parseIntegerLosslessly, Option.filter_eq_some_iff, decide_eq_true_eq]
  constructor
  · rintro ⟨_, same⟩
    exact same.symm
  · rintro rfl
    exact ⟨Decimal.parseInt64_text integer, rfl⟩

example : ["+7", "007", "-0", " 7", "7 ", "", "9223372036854775808"].map parseIntegerLosslessly =
    List.replicate 7 none := by decide

/-! ## Plans -/

theorem StatementPlan.AssignsOnly.after_retag {plan : StatementPlan} {path : FieldPath}
    {assigned : SqlValue} (assigns : plan.AssignsOnly path assigned) (value : SqlValue) :
    (plan.retag path value).AssignsOnly path value := by
  obtain ⟨update, rfl, _, free⟩ := assigns
  exact ⟨_, rfl, rfl, free⟩

theorem StatementPlan.AssignsOnly.retag_retag {plan : StatementPlan} {path : FieldPath}
    {assigned : SqlValue} (assigns : plan.AssignsOnly path assigned) (value : SqlValue) :
    (plan.retag path value).retag path assigned = plan := by
  obtain ⟨⟨collection, assignments, filter⟩, rfl, single, _⟩ := assigns
  cases single
  rfl

section Eligible

variable {plan : StatementPlan} {ambiguity : WriteAmbiguity} {assigned : SqlValue}

theorem mixedTypeAssignmentValue_retag
    (eligible : mixedTypeAssignmentValue plan ambiguity = some assigned) (value : SqlValue) :
    mixedTypeAssignmentValue (plan.retag ambiguity.fieldPath value) ambiguity = some value := by
  rw [mixedTypeAssignmentValue_eq_some_iff] at eligible ⊢
  exact ⟨eligible.1, eligible.2.after_retag value⟩

theorem retag_retag_of_eligible
    (eligible : mixedTypeAssignmentValue plan ambiguity = some assigned) (value : SqlValue) :
    (plan.retag ambiguity.fieldPath value).retag ambiguity.fieldPath assigned = plan :=
  ((mixedTypeAssignmentValue_eq_some_iff _ _ _).mp eligible).2.retag_retag value

/-- Applying one candidate, and then a second one that is offered for what came out, gives the
plan back. -/
def RoundTrips (plan : StatementPlan) (ambiguity : WriteAmbiguity)
    (first second : ResolutionCandidate) : Prop :=
  ∃ converted,
    applyResolution plan { fieldPath := ambiguity.fieldPath, candidate := first } = .ok converted ∧
      second ∈ allowedCandidates converted ambiguity ∧
      applyResolution converted { fieldPath := ambiguity.fieldPath, candidate := second } = .ok plan

theorem roundTrips_format_parse
    (offered : .formatIntegerAsString ∈ allowedCandidates plan ambiguity) :
    RoundTrips plan ambiguity .formatIntegerAsString .parseIntegerLosslessly := by
  obtain ⟨integer, eligible⟩ := (mem_allowedCandidates_iff _ _ _).mp offered
  have parsed := parseIntegerLosslessly_eq_some_iff.mpr (Eq.refl (Decimal.text integer))
  have again := mixedTypeAssignmentValue_retag eligible (.string (Decimal.text integer))
  refine ⟨plan.retag ambiguity.fieldPath (.string (Decimal.text integer)), ?_, ?_, ?_⟩
  · exact applyResolution_eq_ok_iff.mpr
      ⟨integer, eligible_of_mixedTypeAssignmentValue eligible, rfl⟩
  · exact (mem_allowedCandidates_iff _ _ _).mpr ⟨_, integer, again, parsed⟩
  · apply applyResolution_eq_ok_iff.mpr
    refine ⟨_, integer, eligible_of_mixedTypeAssignmentValue again, parsed, ?_⟩
    exact (retag_retag_of_eligible eligible _).symm

theorem roundTrips_parse_format
    (offered : .parseIntegerLosslessly ∈ allowedCandidates plan ambiguity) :
    RoundTrips plan ambiguity .parseIntegerLosslessly .formatIntegerAsString := by
  obtain ⟨text, integer, eligible, parsed⟩ := (mem_allowedCandidates_iff _ _ _).mp offered
  have printed := parseIntegerLosslessly_eq_some_iff.mp parsed
  have again := mixedTypeAssignmentValue_retag eligible (.integer integer)
  refine ⟨plan.retag ambiguity.fieldPath (.integer integer), ?_, ?_, ?_⟩
  · exact applyResolution_eq_ok_iff.mpr
      ⟨text, integer, eligible_of_mixedTypeAssignmentValue eligible, parsed, rfl⟩
  · exact (mem_allowedCandidates_iff _ _ _).mpr ⟨integer, again⟩
  · apply applyResolution_eq_ok_iff.mpr
    refine ⟨integer, eligible_of_mixedTypeAssignmentValue again, ?_⟩
    rw [← printed]
    exact (retag_retag_of_eligible eligible _).symm

end Eligible

/-- The two conversions undo each other: on integers and their texts, and on every plan that
one of them is offered for. -/
theorem conversions_lossless :
    (∀ integer, parseIntegerLosslessly (Decimal.text integer) = some integer) ∧
    (∀ text integer, parseIntegerLosslessly text = some integer → text = Decimal.text integer) ∧
    ∀ plan ambiguity,
      (.formatIntegerAsString ∈ allowedCandidates plan ambiguity →
        RoundTrips plan ambiguity .formatIntegerAsString .parseIntegerLosslessly) ∧
      (.parseIntegerLosslessly ∈ allowedCandidates plan ambiguity →
        RoundTrips plan ambiguity .parseIntegerLosslessly .formatIntegerAsString) := by
  refine ⟨fun integer => ?_, fun text integer => parseIntegerLosslessly_eq_some_iff.mp, ?_⟩
  · exact parseIntegerLosslessly_eq_some_iff.mpr rfl
  · intro plan ambiguity
    exact ⟨roundTrips_format_parse, roundTrips_parse_format⟩

section Example

/-- `UPDATE people SET age = '-41' WHERE name = 'ada'`. -/
private def setAgeText : StatementPlan :=
  .update
    { collection := "people"
      assignments := [{ path := ⟨["age"]⟩, value := .string "-41" }]
      filter := .compare ⟨["name"]⟩ .equal (.string "ada") }

theorem conversions_lossless_age :
    Decimal.text (-41) = "-41" ∧ RoundTrips setAgeText (mixedTypeAmbiguity ⟨["age"]⟩)
      .parseIntegerLosslessly .formatIntegerAsString := by
  have read : parseIntegerLosslessly "-41" = some (-41) := by decide
  refine ⟨(conversions_lossless.2.1 "-41" (-41) read).symm, ?_⟩
  exact (conversions_lossless.2.2 setAgeText (mixedTypeAmbiguity ⟨["age"]⟩)).2 (by decide)

end Example

end Mongres
