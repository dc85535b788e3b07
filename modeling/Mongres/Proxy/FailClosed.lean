import Mongres.Proxy.Gate

/-!
# The write gate is fail-closed

Whatever the resolver does, a write passes either because no path that it mentions
is ambiguous, or because one response answered for its only ambiguous path.  The
plan that passes differs from the one that came in at most in the tag of the value
of its only assignment.
-/

namespace Mongres

/-- A path that a write mentions, with the ambiguous entry of its profile. -/
structure StatementPlan.MentionsAmbiguous (plan : StatementPlan) (schema : SchemaProfile)
    (path : FieldPath) (profile : FieldProfile) : Prop where
  mentions : plan.Mentions path
  profiled : schema.field path = some profile
  ambiguous : profile.Ambiguous

def StatementPlan.IsClear (plan : StatementPlan) (schema : SchemaProfile) : Prop :=
  ∀ path, plan.Mentions path → ∃ profile, schema.field path = some profile ∧ ¬ profile.Ambiguous

/-- The effect that a candidate has on a plan: none, or a change of the tag of the
sole assignment's value between an integer and its decimal text. -/
def ResolutionCandidate.Effect (plan : StatementPlan) (path : FieldPath)
    (resolved : StatementPlan) : ResolutionCandidate → Prop
  | .reject => False
  | .useNestedPath | .keepString | .keepInteger => resolved = plan
  | .parseIntegerLosslessly => ∃ update integer,
      plan = .update update ∧
        update.assignments = [{ path, value := .string (Decimal.text integer) }] ∧
        resolved = .update { update with assignments := [{ path, value := .integer integer }] }
  | .formatIntegerAsString => ∃ update integer,
      plan = .update update ∧
        update.assignments = [{ path, value := .integer integer }] ∧
        resolved = .update
          { update with assignments := [{ path, value := .string (Decimal.text integer) }] }

theorem text_of_parseIntegerLosslessly {text : String} {integer : Int64}
    (parsed : parseIntegerLosslessly text = some integer) : Decimal.text integer = text := by
  rw [parseIntegerLosslessly, Option.filter_eq_some_iff] at parsed
  exact of_decide_eq_true parsed.2

theorem ResolutionCandidate.Applies.effect {plan resolved : StatementPlan} {path : FieldPath}
    {candidate : ResolutionCandidate} (applies : candidate.Applies plan path resolved) :
    candidate.Effect plan path resolved := by
  cases candidate with
  | reject => exact applies
  | useNestedPath => exact applies.2.2.2
  | keepString =>
      obtain ⟨_, _, unchanged⟩ := applies
      exact unchanged
  | keepInteger =>
      obtain ⟨_, _, unchanged⟩ := applies
      exact unchanged
  | parseIntegerLosslessly =>
      obtain ⟨text, integer, eligible, parsed, rfl⟩ := applies
      obtain ⟨update, rfl, single, _⟩ := assignsOnly_of_eligible eligible
      rw [← text_of_parseIntegerLosslessly parsed] at single
      exact ⟨update, integer, rfl, single, rfl⟩
  | formatIntegerAsString =>
      obtain ⟨integer, eligible, rfl⟩ := applies
      obtain ⟨update, rfl, single, _⟩ := assignsOnly_of_eligible eligible
      exact ⟨update, integer, rfl, single, rfl⟩

/-! ## The two ways through the gate -/

theorem Detected.isClear {plan : StatementPlan} {schema : SchemaProfile}
    (detected : Detected plan schema []) : plan.IsClear schema := by
  intro path mentions
  obtain ⟨profile, profiled⟩ := Option.isSome_iff_exists.mp (detected.listed path mentions)
  refine ⟨profile, profiled, ?_⟩
  intro ambiguous
  have reported := (detected.mem_iff _).mpr ⟨path, profile, mentions, profiled, ambiguous, rfl⟩
  cases reported

theorem Detected.mentionsAmbiguous {plan : StatementPlan} {schema : SchemaProfile}
    {ambiguity : WriteAmbiguity} (detected : Detected plan schema [ambiguity]) :
    ∃ path profile, plan.MentionsAmbiguous schema path profile ∧
      ambiguity = profile.evidence path ∧
      ∀ other otherProfile, plan.MentionsAmbiguous schema other otherProfile → other = path := by
  obtain ⟨path, profile, mentions, profiled, ambiguous, evidence⟩ :=
    (detected.mem_iff ambiguity).mp (by simp)
  refine ⟨path, profile, ⟨mentions, profiled, ambiguous⟩, evidence, ?_⟩
  intro other otherProfile another
  have reported := (detected.mem_iff _).mpr
    ⟨other, otherProfile, another.mentions, another.profiled, another.ambiguous, rfl⟩
  have same := congrArg WriteAmbiguity.fieldPath (List.mem_singleton.mp reported)
  rw [evidence] at same
  exact same

/-- A write that passed because a response answered for its only ambiguous path. -/
structure AnsweredFor (plan : StatementPlan) (schema : SchemaProfile) (resolver : Resolver)
    (minimumConfidence : Float) (state : GateState) (path : FieldPath) (profile : FieldProfile)
    (response : ResolverResponse) (resolved : StatementPlan) (after : GateState) : Prop where
  ambiguous : plan.MentionsAmbiguous schema path profile
  unique : ∀ other otherProfile,
    plan.MentionsAmbiguous schema other otherProfile → other = path
  answered : resolver (resolverRequest plan response.operation schema.profileVersion
    (profile.evidence path)) = .ok response
  consulted : after = { state with consulted := state.consulted ++
    [resolverRequest plan response.operation schema.profileVersion (profile.evidence path)] }
  answers : response.Answers plan schema (profile.evidence path) minimumConfidence
  accepts : response.candidate ≠ .reject
  effect : response.candidate.Effect plan path resolved

theorem Passed.isClear_or_answeredFor {plan : StatementPlan} {schema : SchemaProfile}
    {resolver : Resolver} {minimumConfidence : Float} {state after : GateState}
    {write : ResolvedWrite} (comparable : minimumConfidence.isNaN = false)
    (passed : Passed plan schema resolver minimumConfidence state write after) :
    (plan.IsClear schema ∧ write.plan = plan ∧ after = state) ∨
      ∃ path profile response,
        AnsweredFor plan schema resolver minimumConfidence state path profile response write.plan
          after := by
  cases passed with
  | clear detected => exact .inl ⟨(detected_of_eq_ok detected).isClear, rfl, rfl⟩
  | resolved operation ambiguity response _ detected operates answered validated applies =>
      obtain ⟨path, profile, ambiguous, rfl, unique⟩ :=
        (detected_of_eq_ok detected).mentionsAmbiguous
      obtain ⟨answers, _⟩ := answers_of_validateResolverResponse operates comparable validated
      cases Except.ok.inj (operates.symm.trans answers.operation)
      refine .inr ⟨path, profile, response, ?_⟩
      exact
        { ambiguous
          unique
          answered
          consulted := rfl
          answers
          accepts := by
            intro rejected
            rw [rejected] at applies
            exact applies
          effect := applies.effect }

/-- No resolver can get a write past the gate in any other way. -/
theorem resolveWritePlan_failClosed (plan : StatementPlan) (schema : SchemaProfile)
    (resolver : Resolver) (minimumConfidence : Float)
    (bounds : 0 ≤ minimumConfidence ∧ minimumConfidence ≤ 1) (state after : GateState)
    (write : ResolvedWrite)
    (passes : resolveWritePlan plan schema resolver minimumConfidence state = (.ok write, after)) :
    (plan.IsClear schema ∧ write.plan = plan ∧ after = state) ∨
      ∃ path profile response,
        AnsweredFor plan schema resolver minimumConfidence state path profile response write.plan
          after := by
  have comparable : minimumConfidence.isNaN = false := (Binary64.isNaN_of_le bounds.1).2
  exact (passed_of_resolveWritePlan passes).isClear_or_answeredFor comparable

section Example

private def people : List SampleDocument :=
  [{ fields := [("name", .string "ada"), ("age", .integer 36)] },
    { fields := [("name", .string "alan"), ("age", .string "41")] }]

private def setAge (value : SqlValue) : UpdatePlan where
  collection := "people"
  assignments := [{ path := ⟨["age"]⟩, value }]
  filter := .compare ⟨["name"]⟩ .equal (.string "alan")

private def storeAsInteger : ResolverResponse where
  contractVersion := "v2"
  schemaProfileVersion := (SchemaProfile.infer people).profileVersion
  operation := .update
  targetPath := ["age"]
  candidate := .parseIntegerLosslessly
  confidence := 0.95
  rationale := "the text is a canonical integer"

theorem resolveWritePlan_failClosed_integer :
    ∃ path profile response,
      AnsweredFor (.update (setAge (.string "41"))) (SchemaProfile.infer people)
        (fun _ => .ok storeAsInteger) 0.9 {} path profile response
        (.update (setAge (.integer 41)))
        (resolveWritePlan (.update (setAge (.string "41"))) (SchemaProfile.infer people)
          (fun _ => .ok storeAsInteger) 0.9 {}).2 := by
  have outcome := resolveWritePlan_failClosed (.update (setAge (.string "41")))
    (SchemaProfile.infer people) (fun _ => .ok storeAsInteger) 0.9 (by decide) {} _ _ rfl
  rcases outcome with ⟨_, unchanged, _⟩ | answered
  · cases unchanged
  · exact answered

end Example

end Mongres
