import Mongres.Proxy.Offers
import Mongres.Service.Recommendation

/-!
# The resolver behind HTTP

The service answers a request with the recommendation of an advisor, or with an error status.
The proxy's client turns everything but a recommendation into an error, so that the write gate
passes exactly what the advisor recommended within the bounds that both sides check.
-/

namespace Mongres.Service

open Fallible

/-! ## Advisors -/

/-- What an advisor raises: a setting is missing, its provider failed, a value is out of bounds,
or something that the service does not expect. -/
inductive AdvisorError where
  | configuration (detail : String)
  | request (detail : String)
  | value (detail : String)
  | other
  deriving DecidableEq

abbrev ResolutionAdvisor := AmbiguityRequest → Except AdvisorError AmbiguityResponse

/-- Builds a recommendation, if its fields are in their bounds. -/
def AmbiguityResponse.modelValidate (schemaProfileVersion : Int) (operation : WriteOperation)
    (targetPath : List String) (candidate : ResolutionCandidate) (confidence : Float)
    (rationale : String) : Except AdvisorError AmbiguityResponse :=
  if bounds : 1 ≤ schemaProfileVersion ∧ (1 ≤ targetPath.length ∧ targetPath.length ≤ 64) ∧
      (¬ confidence < 0 ∧ ¬ 1 < confidence) ∧ 1 ≤ rationale.length ∧ rationale.length ≤ 500 then
    .ok
      { contractVersion := "v2"
        schemaProfileVersion
        operation
        targetPath
        candidate
        confidence
        rationale
        contract := rfl
        versioned := bounds.1
        pathBounds := bounds.2.1
        confidenceBounds := bounds.2.2.1
        rationaleBounds := bounds.2.2.2 }
  else .error (.value "validation error for AmbiguityResponse")

/-- The candidate of the fallback for local development, with its rationale. -/
def deterministicChoice (allowedCandidates : List ResolutionCandidate) :
    ResolutionCandidate × String :=
  if .keepInteger ∈ allowedCandidates then
    (.keepInteger, "Rust supplied a native integer candidate for this mixed scalar field.")
  else if .parseIntegerLosslessly ∈ allowedCandidates then
    (.parseIntegerLosslessly,
      "Rust supplied a lossless integer candidate for this mixed scalar field.")
  else if .keepString ∈ allowedCandidates then
    (.keepString, "Rust supplied a string-preserving candidate for this mixed scalar field.")
  else if .useNestedPath ∈ allowedCandidates then
    (.useNestedPath, "Schema evidence permits the deterministic nested-path write.")
  else (.reject, "The requested ambiguity has no safe MVP resolution.")

def deterministicAdvisor : ResolutionAdvisor := fun request =>
  let (candidate, rationale) := deterministicChoice request.allowedCandidates
  AmbiguityResponse.modelValidate request.schemaProfileVersion request.operation
    request.targetPath candidate 1 rationale

/-! ## The service -/

inductive ServiceReply where
  | recommended (response : AmbiguityResponse)
  | refused (status : Nat) (detail : String)

def AdvisorError.reply : AdvisorError → ServiceReply
  | configuration detail => .refused 503 detail
  | request detail => .refused 502 detail
  | value detail => .refused 422 detail
  | other => .refused 500 "Internal Server Error"

/-- Reads a request, asks the advisor, and checks its recommendation against the request. -/
def resolveAmbiguity (advisor : ResolutionAdvisor) (body : Json) : ServiceReply :=
  match AmbiguityRequest.modelValidate body with
  | .error detail => .refused 422 detail
  | .ok request =>
      match advisor request with
      | .error error => error.reply
      | .ok recommendation =>
          match validateRecommendation request recommendation with
          | .error detail => .refused 422 detail
          | .ok recommendation => .recommended recommendation

/-! ## The client -/

/-- A reply as it comes over HTTP, with the text of its status and, if it could be read, its
body. -/
structure HttpReply where
  status : Nat
  statusText : String
  body : Option String

/-- Sends a request; whatever does not decode to a response is an error. -/
def ResolverClient.resolve (decode : String → Option ResolverResponse)
    (send : Json → Option HttpReply) : Resolver := fun request =>
  match send request.json with
  | none => .error ⟨.dependency, "ambiguity resolver is unavailable or timed out"⟩
  | some reply =>
      if 200 ≤ reply.status ∧ reply.status < 300 then
        okOr (reply.body.bind decode)
          ⟨.dependency, "ambiguity resolver returned an invalid response"⟩
      else
        let body := reply.body.getD "resolver response body was not readable"
        .error ⟨.dependency, s!"ambiguity resolver returned HTTP {reply.statusText}: {body}"⟩

structure HttpTexts where
  statusText : Nat → String
  writeResponse : AmbiguityResponse → String
  writeDetail : String → String
  decode : String → Option ResolverResponse

/-- What is read of a recommendation agrees with it, but for the rounding of its confidence. -/
def HttpTexts.Carries (texts : HttpTexts) (response : AmbiguityResponse) : Prop :=
  ∀ heard, texts.decode (texts.writeResponse response) = some heard →
    response.received = some { heard with confidence := response.confidence }

/-- A recommendation is read as it was written. -/
def HttpTexts.CarriesExactly (texts : HttpTexts) (response : AmbiguityResponse) : Prop :=
  texts.decode (texts.writeResponse response) = response.received

def HttpTexts.refusal (texts : HttpTexts) (status : Nat) (detail : String) : HttpReply where
  status
  statusText := texts.statusText status
  body := some (texts.writeDetail detail)

/-- A confidence that is not a number passes every bound, and has no text. -/
def HttpTexts.reply (texts : HttpTexts) : ServiceReply → HttpReply
  | .recommended response =>
      if response.confidence.isNaN then texts.refusal 500 "Internal Server Error"
      else
        { status := 200
          statusText := texts.statusText 200
          body := some (texts.writeResponse response) }
  | .refused status detail => texts.refusal status detail

/-- The resolver that the proxy meets: the service with some advisor. -/
def resolverOf (texts : HttpTexts) (advisor : ResolutionAdvisor) : Resolver :=
  ResolverClient.resolve texts.decode fun body => some (texts.reply (resolveAmbiguity advisor body))

/-! ## What comes back -/

/-- The service lets a recommendation through for a request. -/
def Recommends (advisor : ResolutionAdvisor) (request : ResolverRequest)
    (recommendation : AmbiguityResponse) : Prop :=
  ∃ model, AmbiguityRequest.modelValidate request.json = .ok model ∧
    advisor model = .ok recommendation ∧
    validateRecommendation model recommendation = .ok recommendation

theorem eq_of_validateRecommendation {request : AmbiguityRequest}
    {recommendation other : AmbiguityResponse}
    (validated : validateRecommendation request recommendation = .ok other) :
    other = recommendation := by
  unfold validateRecommendation at validated
  simp only [ite_error_eq_ok_iff] at validated
  exact (Except.ok.inj validated.2.2.2.2).symm

theorem resolveAmbiguity_eq_recommended_iff {advisor : ResolutionAdvisor}
    {request : ResolverRequest} {recommendation : AmbiguityResponse} :
    resolveAmbiguity advisor request.json = .recommended recommendation ↔
      Recommends advisor request recommendation := by
  unfold resolveAmbiguity Recommends
  constructor
  · intro replied
    split at replied
    · cases replied
    · rename_i model accepted
      split at replied
      · rename_i error _
        cases error <;> cases replied
      · rename_i advice advised
        split at replied
        · cases replied
        · rename_i other validated
          cases replied
          cases eq_of_validateRecommendation validated
          exact ⟨model, accepted, advised, validated⟩
  · rintro ⟨model, accepted, advised, validated⟩
    rw [accepted]
    dsimp only
    rw [advised]
    dsimp only
    rw [validated]

theorem status_of_resolveAmbiguity {advisor : ResolutionAdvisor} {body : Json} {status : Nat}
    {detail : String} (refused : resolveAmbiguity advisor body = .refused status detail) :
    ¬ (200 ≤ status ∧ status < 300) := by
  unfold resolveAmbiguity at refused
  split at refused
  · cases refused
    decide
  · split at refused
    · rename_i error _
      cases error <;> cases refused <;> decide
    · split at refused
      · cases refused
        decide
      · cases refused

theorem ResolverClient.resolve_eq_ok_iff {decode : String → Option ResolverResponse}
    {send : Json → Option HttpReply} {request : ResolverRequest} {response : ResolverResponse} :
    ResolverClient.resolve decode send request = .ok response ↔
      ∃ reply body, send request.json = some reply ∧ (200 ≤ reply.status ∧ reply.status < 300) ∧
        reply.body = some body ∧ decode body = some response := by
  unfold ResolverClient.resolve
  cases sent : send request.json with
  | none => simp
  | some reply =>
      by_cases success : 200 ≤ reply.status ∧ reply.status < 300
      · simp [success, okOr_eq_ok_iff, Option.bind_eq_some_iff]
      · simp [success]

/-- The proxy gets what it reads of a recommendation with a number. -/
theorem resolverOf_eq_ok_iff {texts : HttpTexts} {advisor : ResolutionAdvisor}
    {request : ResolverRequest} {response : ResolverResponse} :
    resolverOf texts advisor request = .ok response ↔
      ∃ recommendation, Recommends advisor request recommendation ∧
        recommendation.confidence.isNaN = false ∧
        texts.decode (texts.writeResponse recommendation) = some response := by
  rw [resolverOf, ResolverClient.resolve_eq_ok_iff]
  simp only [← resolveAmbiguity_eq_recommended_iff]
  simp only [Option.some.injEq, exists_and_left, exists_eq_left']
  cases replied : resolveAmbiguity advisor request.json with
  | recommended recommendation =>
      simp only [ServiceReply.recommended.injEq, exists_eq_left', HttpTexts.reply]
      cases number : recommendation.confidence.isNaN with
      | true => simp [HttpTexts.refusal]
      | false => simp
  | refused status detail =>
      have failed := status_of_resolveAmbiguity replied
      simp [HttpTexts.reply, HttpTexts.refusal, failed]

/-! ## What passes the gate -/

/-- What the gate needs to pass a write with one ambiguity. -/
theorem exists_resolveWritePlan_iff {plan resolved : StatementPlan} {schema : SchemaProfile}
    {resolver : Resolver} {minimumConfidence : Float} {gate : GateState}
    {operation : WriteOperation} {ambiguity : WriteAmbiguity}
    (detected : detectWriteAmbiguities plan schema = .ok [ambiguity])
    (operates : writeOperation plan = .ok operation) :
    (∃ write after, resolveWritePlan plan schema resolver minimumConfidence gate =
        (.ok write, after) ∧ write.plan = resolved) ↔
      hasExecutableCandidate (allowedCandidates plan ambiguity) ∧
        ∃ response resolution,
          resolver (resolverRequest plan operation schema.profileVersion ambiguity) =
            .ok response ∧
          validateResolverResponse
            (resolverRequest plan operation schema.profileVersion ambiguity) plan ambiguity
            response minimumConfidence = .ok resolution ∧
          applyResolution plan resolution = .ok resolved ∧
          ResolverConfidence.fromRatio response.confidence ≠ none := by
  unfold resolveWritePlan
  rw [detected]
  dsimp only
  rw [operates]
  dsimp only
  unfold resolveSingleAmbiguity
  dsimp only
  constructor
  · rintro ⟨write, after, passes, rfl⟩
    split at passes
    · cases passes
    · rename_i executable
      split at passes
      · cases passes
      · rename_i response answered
        split at passes
        · cases passes
        · rename_i resolution validated
          split at passes
          · cases passes
          · rename_i plan applied
            split at passes
            · cases passes
            · rename_i confidence present
              cases passes
              refine ⟨not_not.mp executable, response, resolution, answered, validated, applied, ?_⟩
              rw [present]
              exact Option.some_ne_none confidence
  · rintro ⟨executable, response, resolution, answered, validated, applied, present⟩
    obtain ⟨confidence, present⟩ := Option.ne_none_iff_exists'.mp present
    have offered : hasExecutableCandidate
        (resolverRequest plan operation schema.profileVersion ambiguity).allowedCandidates :=
      executable
    rw [if_neg (not_not.mpr offered), answered]
    dsimp only
    rw [validated]
    dsimp only
    rw [applied]
    dsimp only
    rw [present]
    exact ⟨_, _, rfl, rfl⟩

/-- A recommendation for a request of the proxy that was read without loss, but for its
confidence, is valid exactly within the bounds of the proxy. -/
theorem validateResolverResponse_eq_ok_iff_of_recommends {plan : StatementPlan}
    {operation : WriteOperation} {version : UInt32} {ambiguity : WriteAmbiguity}
    {advisor : ResolutionAdvisor} {recommendation : AmbiguityResponse}
    {heard : ResolverResponse} {minimumConfidence : Float} {resolution : ValidatedResolution}
    (recommends : Recommends advisor (resolverRequest plan operation version ambiguity)
      recommendation)
    (received : recommendation.received =
      some { heard with confidence := recommendation.confidence })
    (nonnegative : 0 ≤ minimumConfidence) :
    validateResolverResponse (resolverRequest plan operation version ambiguity) plan ambiguity
        heard minimumConfidence = .ok resolution ↔
      (minimumConfidence ≤ heard.confidence ∧ heard.confidence ≤ 1) ∧
        recommendation.rationale.utf8ByteSize ≤ 500 ∧
        resolution = { fieldPath := ambiguity.fieldPath, candidate := recommendation.candidate } := by
  obtain ⟨model, accepted, _, validated⟩ := recommends
  obtain ⟨versionRead, operationRead, pathRead, candidatesRead, _⟩ :=
    read_of_modelValidate accepted
  simp only [validateRecommendation, ite_error_eq_ok_iff, not_not] at validated
  obtain ⟨versionSame, operationSame, pathSame, allowed, _⟩ := validated
  rw [candidatesRead, mem_listed_candidates_iff, mem_allowedCandidates_iff] at allowed
  have versioned : recommendation.schemaProfileVersion = version.toNat :=
    versionSame.trans versionRead
  have sameVersion : UInt32.ofNat recommendation.schemaProfileVersion.toNat = version := by
    rw [versioned, Int.toNat_natCast, UInt32.ofNat_toNat]
  have nonempty : recommendation.rationale.isEmpty ≠ true := by
    intro empty
    rw [String.isEmpty, beq_iff_eq, String.utf8ByteSize_eq_zero_iff] at empty
    have length := recommendation.rationaleBounds.1
    rw [empty] at length
    exact absurd length (by decide)
  simp only [AmbiguityResponse.received, Option.ite_none_right_eq_some, Option.some.injEq,
    ResolverResponse.mk.injEq] at received
  obtain ⟨_, contract, versionHeard, operationHeard, pathHeard, candidateHeard, _,
    rationaleHeard⟩ := received
  rw [validateResolverResponse, ite_error_eq_ok_iff, validateResolution_eq_ok_iff, ← contract,
    ← versionHeard, ← operationHeard, ← pathHeard, ← candidateHeard, ← rationaleHeard]
  simp only [not_or, not_not, ne_eq]
  constructor
  · rintro ⟨⟨_, _, _, _, finite, above, below, _, short⟩, _, same⟩
    rw [Bool.not_eq_false] at finite
    have number := Binary64.isNaN_of_isFinite finite
    exact ⟨⟨Binary64.le_of_not_lt number (Binary64.isNaN_of_le nonnegative).2 above,
      Binary64.le_of_not_lt (by decide) number below⟩, not_lt.mp short, same⟩
  · rintro ⟨⟨confident, below⟩, short, same⟩
    have finite : heard.confidence.isFinite = true :=
      Binary64.isFinite_of_between (Binary64.isNaN_of_le confident).2 (by decide) (by decide)
        (Binary64.not_lt_of_le (Binary64.nonnegative_of_le nonnegative confident))
        (Binary64.not_lt_of_le below)
    refine ⟨⟨recommendation.contract, sameVersion, operationSame.trans operationRead,
      pathSame.trans pathRead, ?_, Binary64.not_lt_of_le confident,
      Binary64.not_lt_of_le below, nonempty, not_lt.mpr short⟩, allowed, same⟩
    rw [finite]
    decide

theorem exists_received_of_recommends {plan : StatementPlan} {operation : WriteOperation}
    {version : UInt32} {ambiguity : WriteAmbiguity} {advisor : ResolutionAdvisor}
    {recommendation : AmbiguityResponse}
    (recommends : Recommends advisor (resolverRequest plan operation version ambiguity)
      recommendation) :
    ∃ response, recommendation.received = some response ∧
      response.confidence = recommendation.confidence := by
  obtain ⟨model, accepted, _, validated⟩ := recommends
  obtain ⟨versionRead, _⟩ := read_of_modelValidate accepted
  simp only [validateRecommendation, ite_error_eq_ok_iff, not_not] at validated
  have versioned : recommendation.schemaProfileVersion = version.toNat :=
    validated.1.trans versionRead
  have fits : recommendation.schemaProfileVersion < 2 ^ 32 := by
    rw [versioned]
    exact_mod_cast version.toNat_lt
  rw [AmbiguityResponse.received, if_pos fits]
  exact ⟨_, rfl, rfl⟩

theorem mem_allowedCandidates_of_recommends {plan : StatementPlan} {operation : WriteOperation}
    {version : UInt32} {ambiguity : WriteAmbiguity} {advisor : ResolutionAdvisor}
    {recommendation : AmbiguityResponse}
    (recommends : Recommends advisor (resolverRequest plan operation version ambiguity)
      recommendation) :
    recommendation.candidate ∈ allowedCandidates plan ambiguity := by
  obtain ⟨model, accepted, _, validated⟩ := recommends
  obtain ⟨_, _, _, candidatesRead, _⟩ := read_of_modelValidate accepted
  simp only [validateRecommendation, ite_error_eq_ok_iff, not_not] at validated
  have allowed := validated.2.2.2.1
  rwa [candidatesRead, mem_listed_candidates_iff] at allowed

theorem fromRatio_ne_none_iff {minimumConfidence confidence : Float}
    (nonnegative : 0 ≤ minimumConfidence) (confident : minimumConfidence ≤ confidence)
    (below : confidence ≤ 1) :
    ResolverConfidence.fromRatio confidence ≠ none ↔ confidence ≠ -0 := by
  have positive := Binary64.nonnegative_of_le nonnegative confident
  have finite : confidence.isFinite = true :=
    Binary64.isFinite_of_between (Binary64.isNaN_of_le below).1 (by decide) (by decide)
      (Binary64.not_lt_of_le positive) (Binary64.not_lt_of_le below)
  exact not_congr (ResolverConfidence.fromRatio_eq_none_iff finite positive below)

/-- The resolver does not answer with a response that the client can read. -/
def Unanswered (decode : String → Option ResolverResponse) (reply : Option HttpReply) : Prop :=
  ∀ answer ∈ reply, 200 ≤ answer.status → answer.status < 300 → answer.body.bind decode = none

theorem ResolverClient.resolve_ne_ok {decode : String → Option ResolverResponse}
    {send : Json → Option HttpReply} {request : ResolverRequest}
    (unanswered : Unanswered decode (send request.json)) (response : ResolverResponse) :
    ResolverClient.resolve decode send request ≠ .ok response := by
  rw [ne_eq, ResolverClient.resolve_eq_ok_iff]
  rintro ⟨reply, body, sent, ⟨least, most⟩, readable, decoded⟩
  have unread := unanswered reply sent least most
  rw [readable, Option.bind_some, decoded] at unread
  cases unread

/-- A recommendation that the proxy reads within its bounds, and that gives the plan. -/
structure Resolves (texts : HttpTexts) (advisor : ResolutionAdvisor) (request : ResolverRequest)
    (minimumConfidence : Float) (plan : StatementPlan) (path : FieldPath)
    (resolved : StatementPlan) (recommendation : AmbiguityResponse) (heard : ResolverResponse) :
    Prop where
  recommends : Recommends advisor request recommendation
  number : recommendation.confidence.isNaN = false
  read : texts.decode (texts.writeResponse recommendation) = some heard
  confident : minimumConfidence ≤ heard.confidence ∧ heard.confidence ≤ 1
  positive : heard.confidence ≠ -0
  short : recommendation.rationale.utf8ByteSize ≤ 500
  applies : recommendation.candidate.Applies plan path resolved

theorem passes_iff_exists_resolves {plan resolved : StatementPlan}
    {schema : SchemaProfile} {texts : HttpTexts} {advisor : ResolutionAdvisor}
    {minimumConfidence : Float} {gate : GateState} {operation : WriteOperation}
    {ambiguity : WriteAmbiguity}
    (detected : detectWriteAmbiguities plan schema = .ok [ambiguity])
    (operates : writeOperation plan = .ok operation) (nonnegative : 0 ≤ minimumConfidence)
    (carried : ∀ recommendation,
      Recommends advisor (resolverRequest plan operation schema.profileVersion ambiguity)
        recommendation → texts.Carries recommendation) :
    (∃ write after, resolveWritePlan plan schema (resolverOf texts advisor) minimumConfidence gate =
        (.ok write, after) ∧ write.plan = resolved) ↔
      ∃ recommendation heard,
        Resolves texts advisor (resolverRequest plan operation schema.profileVersion ambiguity)
          minimumConfidence plan ambiguity.fieldPath resolved recommendation heard := by
  rw [exists_resolveWritePlan_iff detected operates]
  simp only [resolverOf_eq_ok_iff]
  constructor
  · rintro ⟨_, heard, resolution, ⟨recommendation, recommends, number, read⟩, validated, applied,
      present⟩
    have received := carried recommendation recommends heard read
    obtain ⟨confident, short, rfl⟩ :=
      (validateResolverResponse_eq_ok_iff_of_recommends recommends received nonnegative).mp
        validated
    have positive := (fromRatio_ne_none_iff nonnegative confident.1 confident.2).mp present
    exact ⟨recommendation, heard, recommends, number, read, confident, positive, short,
      applyResolution_eq_ok_iff.mp applied⟩
  · rintro ⟨recommendation, heard, recommends, number, read, confident, positive, short, applies⟩
    have received := carried recommendation recommends heard read
    have validated :=
      (validateResolverResponse_eq_ok_iff_of_recommends recommends received nonnegative).mpr
        ⟨confident, short, rfl⟩
    have executes : recommendation.candidate ≠ .reject := by
      intro rejects
      rw [rejects] at applies
      exact applies
    exact ⟨(hasExecutableCandidate_iff _).mpr
        ⟨_, mem_allowedCandidates_of_recommends recommends, executes⟩, heard, _,
      ⟨recommendation, recommends, number, read⟩, validated, applyResolution_eq_ok_iff.mpr applies,
      (fromRatio_ne_none_iff nonnegative confident.1 confident.2).mpr positive⟩

/-- A write with one ambiguity passes the gate exactly as what the proxy reads of a recommendation
resolves it, and not at all without a reply that it can read. -/
theorem exists_resolveWritePlan_resolverOf_iff {plan resolved : StatementPlan}
    {schema : SchemaProfile} {texts : HttpTexts} {advisor : ResolutionAdvisor}
    {minimumConfidence : Float} {gate : GateState} {operation : WriteOperation}
    {ambiguity : WriteAmbiguity}
    (detected : detectWriteAmbiguities plan schema = .ok [ambiguity])
    (operates : writeOperation plan = .ok operation)
    (bounds : 0 ≤ minimumConfidence ∧ minimumConfidence ≤ 1)
    (carried : ∀ recommendation,
      Recommends advisor (resolverRequest plan operation schema.profileVersion ambiguity)
        recommendation → texts.Carries recommendation) :
    ((∃ write after,
        resolveWritePlan plan schema (resolverOf texts advisor) minimumConfidence gate =
          (.ok write, after) ∧ write.plan = resolved) ↔
      ∃ recommendation heard,
        Resolves texts advisor (resolverRequest plan operation schema.profileVersion ambiguity)
          minimumConfidence plan ambiguity.fieldPath resolved recommendation heard) ∧
      ∀ send : Json → Option HttpReply,
        Unanswered texts.decode
          (send (resolverRequest plan operation schema.profileVersion ambiguity).json) →
        ∀ write after, resolveWritePlan plan schema (ResolverClient.resolve texts.decode send)
          minimumConfidence gate ≠ (.ok write, after) := by
  refine ⟨passes_iff_exists_resolves detected operates bounds.1 carried, ?_⟩
  intro send unanswered write after passes
  obtain ⟨_, response, _, answered, _⟩ :=
    (exists_resolveWritePlan_iff detected operates).mp ⟨write, after, passes, rfl⟩
  exact ResolverClient.resolve_ne_ok unanswered response answered

/-! ## The fallback for local development -/

theorem rationale_deterministicChoice (candidates : List ResolutionCandidate) :
    1 ≤ (deterministicChoice candidates).2.length ∧
      (deterministicChoice candidates).2.length ≤ 500 ∧
      (deterministicChoice candidates).2.utf8ByteSize ≤ 500 := by
  unfold deterministicChoice
  split_ifs <;> decide

theorem deterministicAdvisor_eq_ok {request : AmbiguityRequest}
    (versioned : 1 ≤ request.schemaProfileVersion)
    (path : 1 ≤ request.targetPath.length ∧ request.targetPath.length ≤ 64) :
    ∃ recommendation, deterministicAdvisor request = .ok recommendation ∧
      recommendation.schemaProfileVersion = request.schemaProfileVersion ∧
      recommendation.operation = request.operation ∧
      recommendation.targetPath = request.targetPath ∧
      recommendation.candidate = (deterministicChoice request.allowedCandidates).1 ∧
      recommendation.confidence = 1 ∧
      recommendation.rationale = (deterministicChoice request.allowedCandidates).2 := by
  obtain ⟨nonempty, short, _⟩ := rationale_deterministicChoice request.allowedCandidates
  have bounds : 1 ≤ request.schemaProfileVersion ∧
      (1 ≤ request.targetPath.length ∧ request.targetPath.length ≤ 64) ∧
      (¬ (1 : Float) < 0 ∧ ¬ (1 : Float) < 1) ∧
      1 ≤ (deterministicChoice request.allowedCandidates).2.length ∧
      (deterministicChoice request.allowedCandidates).2.length ≤ 500 :=
    ⟨versioned, path, ⟨by decide, by decide⟩, nonempty, short⟩
  unfold deterministicAdvisor AmbiguityResponse.modelValidate
  dsimp only
  rw [dif_pos bounds]
  exact ⟨_, rfl, rfl, rfl, rfl, rfl, rfl, rfl⟩

theorem deterministicChoice_mem {candidates : List ResolutionCandidate}
    (rejects : .reject ∈ candidates) : (deterministicChoice candidates).1 ∈ candidates := by
  unfold deterministicChoice
  split_ifs <;> assumption

theorem recommends_deterministicAdvisor {plan : StatementPlan} {operation : WriteOperation}
    {version : UInt32} {ambiguity : WriteAmbiguity}
    (accepted : Accepted (resolverRequest plan operation version ambiguity))
    (versioned : 1 ≤ version.toNat)
    (path : 1 ≤ ambiguity.fieldPath.segments.length ∧ ambiguity.fieldPath.segments.length ≤ 64) :
    ∃ recommendation,
      Recommends deterministicAdvisor (resolverRequest plan operation version ambiguity)
        recommendation ∧
      recommendation.candidate = (deterministicChoice
        (ResolutionCandidate.listed (allowedCandidates plan ambiguity))).1 ∧
      recommendation.confidence = 1 ∧ recommendation.rationale.utf8ByteSize ≤ 500 := by
  obtain ⟨model, read⟩ := accepted
  obtain ⟨versionRead, operationRead, pathRead, candidatesRead, _⟩ := read_of_modelValidate read
  have versionBound : 1 ≤ model.schemaProfileVersion := by
    rw [versionRead]
    exact_mod_cast versioned
  have pathBound : 1 ≤ model.targetPath.length ∧ model.targetPath.length ≤ 64 := by
    rw [pathRead]
    exact path
  obtain ⟨recommendation, advised, sameVersion, sameOperation, samePath, candidate, confidence,
    rationale⟩ := deterministicAdvisor_eq_ok versionBound pathBound
  rw [candidatesRead] at candidate rationale
  have chosen := deterministicChoice_mem (reject_mem_listed plan ambiguity)
  have validated : validateRecommendation model recommendation = .ok recommendation := by
    simp only [validateRecommendation, ite_error_eq_ok_iff, not_not, and_true]
    rw [candidatesRead, candidate]
    exact ⟨sameVersion, sameOperation, samePath, chosen⟩
  refine ⟨recommendation, ⟨model, read, advised, validated⟩, candidate, confidence, ?_⟩
  rw [rationale]
  exact (rationale_deterministicChoice _).2.2

theorem Recommends.accepted {advisor : ResolutionAdvisor} {request : ResolverRequest}
    {recommendation : AmbiguityResponse} (recommends : Recommends advisor request recommendation) :
    Accepted request := by
  obtain ⟨model, read, _⟩ := recommends
  exact ⟨model, read⟩

theorem Recommends.unique {advisor : ResolutionAdvisor} {request : ResolverRequest}
    {first second : AmbiguityResponse} (recommends : Recommends advisor request first)
    (again : Recommends advisor request second) : first = second := by
  obtain ⟨model, read, advised, _⟩ := recommends
  obtain ⟨other, readAgain, advisedAgain, _⟩ := again
  cases read.symm.trans readAgain
  exact Except.ok.inj (advised.symm.trans advisedAgain)

def withNativeInteger (plan : StatementPlan) (path : FieldPath) : StatementPlan :=
  match writtenValue plan path with
  | some (.string text) =>
      match parseIntegerLosslessly text with
      | some integer => plan.retag path (.integer integer)
      | none => plan
  | _ => plan

theorem writtenValue_of_assignsOnly {plan : StatementPlan} {path : FieldPath} {value : SqlValue}
    (assigns : plan.AssignsOnly path value) : writtenValue plan path = some value := by
  obtain ⟨update, rfl, assignments, _⟩ := assigns
  simp [writtenValue, assignments]

theorem exists_eligible_of_offered {plan : StatementPlan} {ambiguity : WriteAmbiguity}
    {candidate : ResolutionCandidate} (type : candidate ∈ typeCandidates)
    (offered : candidate.Offered plan ambiguity) :
    (∃ text, mixedTypeAssignmentValue plan ambiguity = some (.string text)) ∨
      ∃ integer, mixedTypeAssignmentValue plan ambiguity = some (.integer integer) := by
  cases candidate with
  | reject => exact absurd type (by decide)
  | useNestedPath => exact absurd type (by decide)
  | keepString => exact .inl offered
  | parseIntegerLosslessly =>
      obtain ⟨text, _, assigned, _⟩ := offered
      exact .inl ⟨text, assigned⟩
  | keepInteger => exact .inr offered
  | formatIntegerAsString => exact .inr offered

/-- The choice of the fallback keeps a native integer, reads the text of one, keeps any other
text, and uses the nested path that only filtered or inserted documents lack. -/
theorem applies_deterministicChoice_iff {plan resolved : StatementPlan} {ambiguity : WriteAmbiguity}
    (executable : hasExecutableCandidate (allowedCandidates plan ambiguity)) :
    (deterministicChoice (ResolutionCandidate.listed (allowedCandidates plan ambiguity))).1.Applies
        plan ambiguity.fieldPath resolved ↔
      (ambiguity.kinds = {.missingFromSampledDocuments} ∧
          ambiguity.fieldPath ∈ plan.targets ∧ resolved = plan ∨
        ambiguity.kinds ≠ {.missingFromSampledDocuments} ∧
          resolved = withNativeInteger plan ambiguity.fieldPath) := by
  have listed (candidate : ResolutionCandidate) :
      candidate ∈ ResolutionCandidate.listed (allowedCandidates plan ambiguity) ↔
        candidate.Offered plan ambiguity := by
    rw [mem_listed_candidates_iff, mem_allowedCandidates_iff]
  have types := exists_typeCandidate_iff executable
  simp only [mem_allowedCandidates_iff] at types
  unfold deterministicChoice
  by_cases missing : ambiguity.kinds = {.missingFromSampledDocuments}
  · have untyped {candidate : ResolutionCandidate} (type : candidate ∈ typeCandidates) :
        ¬ candidate.Offered plan ambiguity :=
      fun offered => types.mp ⟨candidate, type, offered⟩ missing
    have safe : ResolutionCandidate.useNestedPath.Offered plan ambiguity := by
      obtain ⟨candidate, offered, accepts⟩ := (hasExecutableCandidate_iff _).mp executable
      rw [mem_allowedCandidates_iff] at offered
      by_cases nested : candidate = .useNestedPath
      · rwa [nested] at offered
      · exact absurd offered (untyped ((mem_typeCandidates_iff _).mpr ⟨accepts, nested⟩))
    rw [if_neg (mt (listed _).mp (untyped (by decide))),
      if_neg (mt (listed _).mp (untyped (by decide))),
      if_neg (mt (listed _).mp (untyped (by decide))), if_pos ((listed _).mpr safe)]
    obtain ⟨_, plain, nested⟩ := safe
    simp [ResolutionCandidate.Applies, missing, plain, nested]
  · obtain ⟨candidate, type, offered⟩ := types.mpr missing
    simp only [missing, false_and, false_or, ne_eq, not_false_eq_true, true_and]
    rcases exists_eligible_of_offered type offered with ⟨text, assigned⟩ | ⟨integer, assigned⟩
    · have eligible := eligible_of_mixedTypeAssignmentValue assigned
      have written := writtenValue_of_assignsOnly (assignsOnly_of_eligible eligible)
      have textual : ¬ ResolutionCandidate.keepInteger.Offered plan ambiguity := by
        simp [ResolutionCandidate.Offered, assigned]
      rw [if_neg (mt (listed _).mp textual)]
      cases parsed : parseIntegerLosslessly text with
      | some integer =>
          rw [if_pos ((listed .parseIntegerLosslessly).mpr ⟨text, integer, assigned, parsed⟩)]
          simp [ResolutionCandidate.Applies, withNativeInteger, eligible, written, parsed]
      | none =>
          have unparsed : ¬ ResolutionCandidate.parseIntegerLosslessly.Offered plan ambiguity := by
            simp [ResolutionCandidate.Offered, assigned, parsed]
          rw [if_neg (mt (listed _).mp unparsed),
            if_pos ((listed .keepString).mpr ⟨text, assigned⟩)]
          simp [ResolutionCandidate.Applies, withNativeInteger, eligible, written, parsed]
    · have eligible := eligible_of_mixedTypeAssignmentValue assigned
      have written := writtenValue_of_assignsOnly (assignsOnly_of_eligible eligible)
      rw [if_pos ((listed .keepInteger).mpr ⟨integer, assigned⟩)]
      simp [ResolutionCandidate.Applies, withNativeInteger, eligible, written]

theorem HttpTexts.CarriesExactly.carries {texts : HttpTexts} {response : AmbiguityResponse}
    (exact : texts.CarriesExactly response) : texts.Carries response := by
  intro heard read
  rw [exact.symm.trans read]
  have received := exact.symm.trans read
  simp only [AmbiguityResponse.received, Option.ite_none_right_eq_some, Option.some.injEq]
    at received
  obtain ⟨_, rfl⟩ := received
  rfl

/-- With the fallback behind HTTP, a write with one executable ambiguity of a sample passes
exactly as the service accepts its path and value, and the plan writes to a missing path; all
that changes is the text of an integer. -/
theorem exists_resolveWritePlan_deterministicAdvisor_iff {documents : List SampleDocument}
    {plan resolved : StatementPlan} {texts : HttpTexts} {minimumConfidence : Float}
    {gate : GateState} {operation : WriteOperation} {ambiguity : WriteAmbiguity}
    (bound : plan.IsBound)
    (detected : detectWriteAmbiguities plan (SchemaProfile.infer documents) = .ok [ambiguity])
    (operates : writeOperation plan = .ok operation)
    (executable : hasExecutableCandidate (allowedCandidates plan ambiguity))
    (bounds : 0 ≤ minimumConfidence ∧ minimumConfidence ≤ 1)
    (carried : ∀ recommendation,
      Recommends deterministicAdvisor
        (resolverRequest plan operation (SchemaProfile.infer documents).profileVersion ambiguity)
        recommendation → texts.CarriesExactly recommendation) :
    (∃ write after, resolveWritePlan plan (SchemaProfile.infer documents)
        (resolverOf texts deterministicAdvisor) minimumConfidence gate = (.ok write, after) ∧
          write.plan = resolved) ↔
      (ambiguity.kinds = {.missingFromSampledDocuments} ∧
          ambiguity.fieldPath ∈ plan.targets ∧ resolved = plan ∨
        ambiguity.kinds ≠ {.missingFromSampledDocuments} ∧
          ambiguity.fieldPath.segments.length = 1 ∧
          resolved = withNativeInteger plan ambiguity.fieldPath) ∧
      (ambiguity.fieldPath.segments.length ≤ 64 ∧
        ∀ segment ∈ ambiguity.fieldPath.segments, 1 ≤ segment.length ∧ segment.length ≤ 255) ∧
      ∀ number, writtenValue plan ambiguity.fieldPath = some (.floatingPoint number) →
        (Binary64.display number).length ≤ 128 := by
  obtain ⟨path, profile, mentioned, rfl, _⟩ := (detected_of_eq_ok detected).mentionsAmbiguous
  have described := SchemaProfile.describes_of_field_infer mentioned.profiled
  have kinds : (profile.evidence path).kinds.Nonempty :=
    Finset.nonempty_iff_ne_empty.mpr ((ambiguityKinds_ne_empty_iff profile).mpr mentioned.ambiguous)
  have versioned : 1 ≤ (SchemaProfile.infer documents).profileVersion.toNat := le_refl 1
  have nonempty : 1 ≤ (profile.evidence path).fieldPath.segments.length :=
    List.length_pos_of_ne_nil described.observed.1
  have acceptedIff := @accepted_iff plan operation _ _ versioned bound kinds described.nonempty.1
    described.nonempty.2 nonempty
  rw [exists_typeCandidate_iff executable] at acceptedIff
  rw [passes_iff_exists_resolves detected operates bounds.1
    fun recommendation recommends => (carried recommendation recommends).carries]
  constructor
  · rintro ⟨recommendation, _, recommends, _, _, _, _, _, applies⟩
    obtain ⟨_, read⟩ := recommends.accepted
    obtain ⟨_, _, _, _, short, named⟩ := read_of_modelValidate read
    obtain ⟨topLevel, preview⟩ := (acceptedIff short named).mp recommends.accepted
    obtain ⟨chosen, answers, candidate, _⟩ :=
      recommends_deterministicAdvisor recommends.accepted versioned ⟨nonempty, short⟩
    cases recommends.unique answers
    rw [candidate, applies_deterministicChoice_iff executable] at applies
    refine ⟨applies.imp_right ?_, ⟨short, named⟩, preview⟩
    rintro ⟨present, same⟩
    exact ⟨present, topLevel present, same⟩
  · rintro ⟨applies, ⟨short, named⟩, preview⟩
    have topLevel : (profile.evidence path).kinds ≠ {.missingFromSampledDocuments} →
        (profile.evidence path).fieldPath.segments.length = 1 := by
      intro present
      rcases applies with ⟨missing, _⟩ | ⟨_, topLevel, _⟩
      · exact absurd missing present
      · exact topLevel
    obtain ⟨recommendation, recommends, candidate, confidence, bytes⟩ :=
      recommends_deterministicAdvisor ((acceptedIff short named).mpr ⟨topLevel, preview⟩) versioned
        ⟨nonempty, short⟩
    obtain ⟨heard, received, same⟩ := exists_received_of_recommends recommends
    refine ⟨recommendation, heard, recommends, ?_, (carried _ recommends).trans received, ?_, ?_,
      bytes, ?_⟩
    · rw [confidence]
      decide
    · rw [same, confidence]
      exact ⟨bounds.2, by decide⟩
    · rw [same, confidence]
      decide
    · rw [candidate, applies_deterministicChoice_iff executable]
      refine applies.imp_right ?_
      rintro ⟨present, _, same⟩
      exact ⟨present, same⟩

section Example

private def devices : List SampleDocument :=
  [{ fields := [("id", .integer 7), ("serial", .string "x1")] },
    { fields := [("id", .integer 8), ("serial", .integer 31)] }]

/-- `UPDATE devices SET serial = '42' WHERE id = 7`. -/
private def setSerial : StatementPlan :=
  .update
    { collection := "devices"
      assignments := [{ path := ⟨["serial"]⟩, value := .string "42" }]
      filter := .compare ⟨["id"]⟩ .equal (.integer 7) }

private def serialRequest : ResolverRequest :=
  resolverRequest setSerial .update 1 (mixedTypeAmbiguity ⟨["serial"]⟩)

private theorem versioned_devices : 1 ≤ (SchemaProfile.infer devices).profileVersion.toNat :=
  le_refl 1

private theorem serial_path : 1 ≤ ["serial"].length ∧ ["serial"].length ≤ 64 := by decide

private theorem full_confidence : ¬ (1 : Float) < 0 ∧ ¬ (1 : Float) < 1 := by decide

private def parseSerial : AmbiguityResponse where
  contractVersion := resolutionContractVersion
  schemaProfileVersion := (SchemaProfile.infer devices).profileVersion.toNat
  operation := .update
  targetPath := ["serial"]
  candidate := .parseIntegerLosslessly
  confidence := 1
  rationale := (deterministicChoice [.parseIntegerLosslessly]).2
  contract := rfl
  versioned := Int.ofNat_le.mpr versioned_devices
  pathBounds := serial_path
  confidenceBounds := full_confidence
  rationaleBounds := ⟨(rationale_deterministicChoice _).1, (rationale_deterministicChoice _).2.1⟩

private theorem recommends_parseSerial :
    Recommends deterministicAdvisor serialRequest parseSerial :=
  ⟨readRequest setSerial .update 1 (mixedTypeAmbiguity ⟨["serial"]⟩)
    (some { sqlType := "string", valuePreview := some "42" }), rfl, rfl, rfl⟩

private def recommendationText (response : AmbiguityResponse) : String :=
  "\x7b\"contract_version\":\"" ++ response.contractVersion ++
    "\",\"schema_profile_version\":" ++ toString response.schemaProfileVersion ++
    ",\"operation\":\"" ++ response.operation.wireName ++
    "\",\"target_path\":[\"" ++ "\",\"".intercalate response.targetPath ++
    "\"],\"candidate\":\"" ++ response.candidate.wireName ++
    "\",\"confidence\":" ++ Binary64.display response.confidence ++
    ",\"rationale\":\"" ++ response.rationale ++ "\"\x7d"

private def behind (name : String) (parts : List String) : List String :=
  (parts.dropWhile fun part => part ≠ name).tail

private def numberBehind (name : String) (parts : List String) : Option String :=
  (behind name parts)[0]?.map fun part =>
    String.ofList (part.toList.filter fun letter => letter ∉ [':', ','])

private def textBehind (name : String) (parts : List String) : Option String :=
  (behind name parts)[1]?

/-- Reads a reply about a top-level field, whose texts hold no quotation mark. -/
private def readRecommendation (reply : String) : Option ResolverResponse := do
  let parts := (reply.toList.splitOn '\"').map String.ofList
  let contractVersion ← textBehind "contract_version" parts
  let version ←
    (numberBehind "schema_profile_version" parts).bind (Decimal.parseUnsigned 4294967295)
  let operation ← (textBehind "operation" parts).bind fun name => writeOperations.lookup name
  let segment ← textBehind "target_path" parts
  let candidate ←
    (textBehind "candidate" parts).bind fun name => resolutionCandidates.lookup name
  let confidence ← (numberBehind "confidence" parts).bind Binary64.parse
  let rationale ← textBehind "rationale" parts
  some
    { contractVersion
      schemaProfileVersion := UInt32.ofNat version
      operation
      targetPath := [segment]
      candidate
      confidence
      rationale }

private def serialTexts : HttpTexts where
  statusText status := toString status
  writeResponse := recommendationText
  writeDetail detail := "\x7b\"detail\":\"" ++ detail ++ "\"\x7d"
  decode := readRecommendation

private theorem carriesExactly_serialTexts (recommendation : AmbiguityResponse)
    (recommends : Recommends deterministicAdvisor serialRequest recommendation) :
    serialTexts.CarriesExactly recommendation := by
  rw [recommends.unique recommends_parseSerial, HttpTexts.CarriesExactly]
  decide +kernel

theorem exists_resolveWritePlan_setSerial :
    (∃ write after, resolveWritePlan setSerial (SchemaProfile.infer devices)
      (resolverOf serialTexts deterministicAdvisor) 0.75 {} = (.ok write, after) ∧
        write.plan = setSerial.retag ⟨["serial"]⟩ (.integer 42)) ∧
    ∀ write after, resolveWritePlan setSerial (SchemaProfile.infer devices)
      (ResolverClient.resolve serialTexts.decode fun _ => some ⟨200, "OK", some "busy"⟩) 0.75 {} ≠
        (.ok write, after) := by
  have detected : detectWriteAmbiguities setSerial (SchemaProfile.infer devices) =
      .ok [mixedTypeAmbiguity ⟨["serial"]⟩] := rfl
  have bounds : (0 : Float) ≤ 0.75 ∧ (0.75 : Float) ≤ 1 := ⟨by decide, by decide⟩
  have carried := fun recommendation recommends =>
    (carriesExactly_serialTexts recommendation recommends).carries
  refine (exists_resolveWritePlan_resolverOf_iff detected rfl bounds carried).imp
    (fun passes => passes.mpr ?_) (fun blocks => blocks _ ?_)
  · exact ⟨parseSerial, _, recommends_parseSerial, by decide,
      (carriesExactly_serialTexts _ recommends_parseSerial).trans rfl, ⟨by decide, by decide⟩,
      by decide, (rationale_deterministicChoice _).2.2, "42", 42, rfl, by decide, rfl⟩
  · rintro _ ⟨⟩ _ _
    rfl

theorem exists_resolveWritePlan_deterministicAdvisor_setSerial :
    ∃ write after, resolveWritePlan setSerial (SchemaProfile.infer devices)
      (resolverOf serialTexts deterministicAdvisor) 0.6 {} = (.ok write, after) ∧
        write.plan = withNativeInteger setSerial ⟨["serial"]⟩ := by
  have detected : detectWriteAmbiguities setSerial (SchemaProfile.infer devices) =
      .ok [mixedTypeAmbiguity ⟨["serial"]⟩] := rfl
  have bound : setSerial.IsBound := by
    simp [StatementPlan.IsBound, setSerial, StatementPlan.assigned]
  refine (exists_resolveWritePlan_deterministicAdvisor_iff bound detected rfl (by decide)
    ⟨by decide, by decide⟩ carriesExactly_serialTexts).mpr
      ⟨.inr ⟨by decide, rfl, rfl⟩, by decide, ?_⟩
  intro number written
  cases written

end Example

end Mongres.Service
