import Mongres.Service.Acceptance

/-!
# Which recommendations the proxy accepts

A recommendation repeats its request and selects an allowed candidate.  Service and
proxy check the same bounds, but the service counts the characters of the rationale
and the proxy its bytes.
-/

namespace Mongres.Service

open Fallible Json

/-- A candidate selection within the declared bounds of its fields. -/
structure AmbiguityResponse where
  contractVersion : String
  schemaProfileVersion : Int
  operation : WriteOperation
  targetPath : List String
  candidate : ResolutionCandidate
  confidence : Float
  rationale : String
  contract : contractVersion = "v2"
  versioned : 1 ≤ schemaProfileVersion
  pathBounds : 1 ≤ targetPath.length ∧ targetPath.length ≤ 64
  confidenceBounds : ¬ confidence < 0 ∧ ¬ 1 < confidence
  rationaleBounds : 1 ≤ rationale.length ∧ rationale.length ≤ 500
  deriving DecidableEq

/-- Enforces correlation and the allowlist at the service boundary. -/
def validateRecommendation (request : AmbiguityRequest) (recommendation : AmbiguityResponse) :
    Except String AmbiguityResponse :=
  if recommendation.schemaProfileVersion ≠ request.schemaProfileVersion then
    .error "recommendation schema profile version does not match the request"
  else if recommendation.operation ≠ request.operation then
    .error "recommendation operation does not match the request"
  else if recommendation.targetPath ≠ request.targetPath then
    .error "recommendation target path does not match the request"
  else if recommendation.candidate ∉ request.allowedCandidates then
    .error "recommendation candidate is not in the request allowlist"
  else .ok recommendation

/-- The response that the proxy decodes; its profile version has 32 bits. -/
def AmbiguityResponse.received (response : AmbiguityResponse) : Option ResolverResponse :=
  if response.schemaProfileVersion < 2 ^ 32 then
    some
      { contractVersion := response.contractVersion
        schemaProfileVersion := UInt32.ofNat response.schemaProfileVersion.toNat
        operation := response.operation
        targetPath := response.targetPath
        candidate := response.candidate
        confidence := response.confidence
        rationale := response.rationale }
  else none

/-! ## The request that the service has read -/

theorem validateAllowlistAndPath_eq_ok {request model : AmbiguityRequest}
    (validated : request.validateAllowlistAndPath = .ok model) : model = request := by
  unfold AmbiguityRequest.validateAllowlistAndPath at validated
  simp only [ite_error_eq_ok_iff] at validated
  obtain ⟨_, _, _, _, _, same⟩ := validated
  exact (Except.ok.inj same).symm

/-- The service reads the correlated fields of a request as the proxy wrote them, within its
bounds on the path. -/
theorem read_of_modelValidate {plan : StatementPlan} {operation : WriteOperation}
    {version : UInt32} {ambiguity : WriteAmbiguity} {request : AmbiguityRequest}
    (accepted : AmbiguityRequest.modelValidate
      (resolverRequest plan operation version ambiguity).json = .ok request) :
    request.schemaProfileVersion = version.toNat ∧ request.operation = operation ∧
      request.targetPath = ambiguity.fieldPath.segments ∧
      request.allowedCandidates =
        ResolutionCandidate.listed (allowedCandidates plan ambiguity) ∧
      ambiguity.fieldPath.segments.length ≤ 64 ∧
      ∀ segment ∈ ambiguity.fieldPath.segments, 1 ≤ segment.length ∧ segment.length ≤ 255 := by
  have operationRead : readOneOf writeOperations (.string operation.wireName) = .ok operation := by
    rw [readOneOf, readString]
    exact okOr_eq_ok_iff.mpr (lookup_wireName_operation operation)
  rw [AmbiguityRequest.modelValidate, ResolverRequest.json, readObject_object (by simp)] at accepted
  simp only [bind_eq_ok_iff, Except.ok.injEq, exists_eq_left', readField_cons_self,
    readFieldOr_cons_self, readField_cons_of_ne, readFieldOr_cons_of_ne, ne_eq, String.reduceEq,
    not_false_eq_true] at accepted
  simp only [resolverRequest, operationRead, readList_allowedCandidates, Except.ok.injEq,
    exists_eq_left'] at accepted
  obtain ⟨_, _, number, numberRead, path, pathRead, _, _, _, _, validated⟩ := accepted
  have each : ∀ segment ∈ ambiguity.fieldPath.segments,
      readString (.string segment) = .ok (id segment) := fun _ _ => rfl
  have pathSame : path = ambiguity.fieldPath.segments := by
    rw [eq_of_readList_map each pathRead, List.map_id]
  have short := (length_of_readList pathRead).2
  subst pathSame
  rw [validateAllowlistAndPath_eq_ok validated]
  refine ⟨eq_of_readInteger numberRead, rfl, rfl, rfl, short, ?_⟩
  rw [AmbiguityRequest.validateAllowlistAndPath, ite_error_eq_ok_iff] at validated
  intro segment membership
  have named : ¬ (segment = "" ∨ segment.length > 255) :=
    fun unnamed => validated.1 ⟨segment, membership, unnamed⟩
  rw [not_or, ← String.length_eq_zero_iff] at named
  omega

/-! ## Two bounds on the rationale -/

/-- The proxy accepts a confident recommendation of the service exactly when its
rationale has at most 500 bytes. -/
theorem validateResolverResponse_received_iff {plan : StatementPlan} {operation : WriteOperation}
    {version : UInt32} {ambiguity : WriteAmbiguity} {request : AmbiguityRequest}
    {response : AmbiguityResponse} {minimumConfidence : Float}
    (accepted : AmbiguityRequest.modelValidate
      (resolverRequest plan operation version ambiguity).json = .ok request)
    (recommended : validateRecommendation request response = .ok response)
    (confident : minimumConfidence ≤ response.confidence) :
    (∃ received, response.received = some received ∧
      validateResolverResponse (resolverRequest plan operation version ambiguity) plan ambiguity
        received minimumConfidence =
          .ok { fieldPath := ambiguity.fieldPath, candidate := response.candidate }) ↔
      response.rationale.utf8ByteSize ≤ 500 := by
  obtain ⟨versionRead, operationRead, pathRead, candidatesRead, _⟩ :=
    read_of_modelValidate accepted
  simp only [validateRecommendation, ite_error_eq_ok_iff, not_not] at recommended
  obtain ⟨versionSame, operationSame, pathSame, allowed, _⟩ := recommended
  rw [candidatesRead, mem_listed_candidates_iff, mem_allowedCandidates_iff] at allowed
  have number : response.schemaProfileVersion = version.toNat := versionSame.trans versionRead
  have fits : response.schemaProfileVersion < 2 ^ 32 := by
    rw [number]
    exact_mod_cast version.toNat_lt
  have versionReceived : UInt32.ofNat response.schemaProfileVersion.toNat = version := by
    rw [number, Int.toNat_natCast, UInt32.ofNat_toNat]
  have finite : response.confidence.isFinite = true :=
    Binary64.isFinite_of_between (Binary64.isNaN_of_le confident).2 (by decide) (by decide)
      response.confidenceBounds.1 response.confidenceBounds.2
  have above := Binary64.not_lt_of_le confident
  have nonempty : response.rationale.isEmpty ≠ true := by
    intro empty
    rw [String.isEmpty, beq_iff_eq, String.utf8ByteSize_eq_zero_iff] at empty
    have length := response.rationaleBounds.1
    rw [empty] at length
    exact absurd length (by decide)
  rw [AmbiguityResponse.received, if_pos fits]
  simp only [Option.some.injEq, exists_eq_left', validateResolverResponse, ite_error_eq_ok_iff,
    validateResolution_eq_ok_iff, and_true, not_or, not_not, ne_eq]
  constructor
  · rintro ⟨⟨_, _, _, _, _, _, _, _, short⟩, _⟩
    exact not_lt.mp short
  · intro short
    refine ⟨⟨response.contract, versionReceived, operationSame.trans operationRead,
      pathSame.trans pathRead, ?_, Binary64.not_lt_of_le confident, response.confidenceBounds.2,
      nonempty, not_lt.mpr short⟩, ?_⟩
    · rw [finite]
      decide
    · exact allowed

section Example

/-- `UPDATE parts SET code = '5' WHERE id = 1`, where `code` holds integers and strings. -/
private def setCode : StatementPlan :=
  .update
    { collection := "parts"
      assignments := [{ path := ⟨["code"]⟩, value := .string "5" }]
      filter := .compare ⟨["id"]⟩ .equal (.integer 1) }

private def codeRequest : AmbiguityRequest :=
  readRequest setCode .update 1 (mixedTypeAmbiguity ⟨["code"]⟩)
    (some { sqlType := "string", valuePreview := some "5" })

private theorem modelValidate_setCode :
    AmbiguityRequest.modelValidate
      (resolverRequest setCode .update 1 (mixedTypeAmbiguity ⟨["code"]⟩)).json =
        .ok codeRequest := rfl

private def keepCode (rationale : String)
    (bounds : 1 ≤ rationale.length ∧ rationale.length ≤ 500) : AmbiguityResponse where
  contractVersion := "v2"
  schemaProfileVersion := 1
  operation := .update
  targetPath := ["code"]
  candidate := .keepString
  confidence := 1
  rationale
  contract := rfl
  versioned := le_refl 1
  pathBounds := by decide
  confidenceBounds := by decide
  rationaleBounds := bounds

private theorem validateRecommendation_keepCode (rationale : String)
    (bounds : 1 ≤ rationale.length ∧ rationale.length ≤ 500) :
    validateRecommendation codeRequest (keepCode rationale bounds) =
      .ok (keepCode rationale bounds) := rfl

theorem validateResolverResponse_received_keepCode :
    ∃ received, (keepCode "safe" (by decide)).received = some received ∧
      validateResolverResponse (resolverRequest setCode .update 1 (mixedTypeAmbiguity ⟨["code"]⟩))
        setCode (mixedTypeAmbiguity ⟨["code"]⟩) received 0.8 =
          .ok { fieldPath := ⟨["code"]⟩, candidate := .keepString } :=
  (validateResolverResponse_received_iff modelValidate_setCode
    (validateRecommendation_keepCode _ _) (by decide)).mpr
      (by decide : "safe".utf8ByteSize ≤ 500)

private def accented : String := String.ofList (List.replicate 300 'é')

private theorem accented_bounds : 1 ≤ accented.length ∧ accented.length ≤ 500 := by
  have length : accented.length = 300 := String.length_ofList.trans List.length_replicate
  omega

/-- The service lets a rationale of 300 accented letters through, and the proxy
refuses it. -/
theorem not_validateResolverResponse_received :
    ¬ ∀ (plan : StatementPlan) (operation : WriteOperation) (version : UInt32)
      (ambiguity : WriteAmbiguity) (request : AmbiguityRequest) (response : AmbiguityResponse)
      (minimumConfidence : Float),
      AmbiguityRequest.modelValidate
        (resolverRequest plan operation version ambiguity).json = .ok request →
      validateRecommendation request response = .ok response →
      minimumConfidence ≤ response.confidence →
      ∃ received, response.received = some received ∧
        validateResolverResponse (resolverRequest plan operation version ambiguity) plan ambiguity
          received minimumConfidence =
            .ok { fieldPath := ambiguity.fieldPath, candidate := response.candidate } := by
  intro accepts
  have recommended := validateRecommendation_keepCode accented accented_bounds
  have confident : (0.8 : Float) ≤ (keepCode accented accented_bounds).confidence := by decide
  have accepted := accepts _ _ _ _ _ _ _ modelValidate_setCode recommended confident
  rw [validateResolverResponse_received_iff modelValidate_setCode recommended confident] at accepted
  have size : accented.utf8ByteSize = 300 * 2 := Text.utf8ByteSize_replicate 'é' 300
  change accented.utf8ByteSize ≤ 500 at accepted
  omega

end Example

end Mongres.Service
