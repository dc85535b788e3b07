import Mongres.Library.Binary64
import Mongres.Library.Json
import Mongres.Policy.Candidates

/-!
# The resolver contract

The request carries minimised evidence about one field; the response selects one
candidate and can describe nothing executable.
-/

namespace Mongres

open Fallible

def resolutionContractVersion : String := "v2"

structure ResolverWriteValueEvidence where
  sqlType : String
  valuePreview : Option String
  deriving DecidableEq

structure ResolverAmbiguityEvidence where
  kinds : Finset AmbiguityKind
  observedTypes : List String
  observedShapes : List String
  missingDocuments : Nat
  deriving DecidableEq

/-- Minimised, versioned evidence for exactly one field. -/
structure ResolverRequest where
  contractVersion : String
  schemaProfileVersion : UInt32
  operation : WriteOperation
  targetPath : List String
  writeValue : Option ResolverWriteValueEvidence
  ambiguity : ResolverAmbiguityEvidence
  allowedCandidates : Finset ResolutionCandidate
  deriving DecidableEq

/-- The non-executable response accepted from the resolver. -/
structure ResolverResponse where
  contractVersion : String
  schemaProfileVersion : UInt32
  operation : WriteOperation
  targetPath : List String
  candidate : ResolutionCandidate
  confidence : Float
  rationale : String
  deriving DecidableEq

namespace Policy

def observedTypeName : ObservedType → String
  | .null => "null"
  | .boolean => "boolean"
  | .integer => "integer"
  | .floatingPoint => "floating_point"
  | .string => "string"
  | .dateTime => "datetime"
  | .objectId => "object_id"
  | .document => "document"
  | .array => "array"

def observedShapeName : ObservedShape → String
  | .scalar => "scalar"
  | .document => "document"
  | .array => "array"

end Policy

/-- The observed shapes in declaration order. -/
def ObservedShape.all : List ObservedShape := [.scalar, .document, .array]

theorem ObservedShape.mem_all (observedShape : ObservedShape) : observedShape ∈ all := by
  cases observedShape <;> decide

def valueEvidence : SqlValue → ResolverWriteValueEvidence
  | .null => { sqlType := "null", valuePreview := none }
  | .boolean value => { sqlType := "boolean", valuePreview := some (toString value) }
  | .integer value => { sqlType := "integer", valuePreview := some (Decimal.text value) }
  | .floatingPoint value =>
      { sqlType := "floating_point", valuePreview := some (Binary64.display value) }
  | .string value =>
      { sqlType := "string", valuePreview := some (String.ofList (value.toList.take 128)) }
  | .placeholder placeholder => { sqlType := "placeholder", valuePreview := some placeholder }

/-- The value that a write gives to a path: the first row's, for an `INSERT`. -/
def writtenValue (plan : StatementPlan) (path : FieldPath) : Option SqlValue :=
  match plan with
  | .insert insert =>
      (insert.columns.findIdx? fun column => column = path).bind fun index =>
        insert.rows.head?.bind fun row => row[index]?
  | .update update =>
      (update.assignments.find? fun assignment => assignment.path = path).map AssignmentPlan.value
  | .select _ | .delete _ => none

def writeValueEvidence (plan : StatementPlan) (ambiguity : WriteAmbiguity) :
    Option ResolverWriteValueEvidence :=
  (writtenValue plan ambiguity.fieldPath).map valueEvidence

/-- The minimised request for one detected ambiguity. -/
def resolverRequest (plan : StatementPlan) (operation : WriteOperation)
    (schemaProfileVersion : UInt32) (ambiguity : WriteAmbiguity) : ResolverRequest where
  contractVersion := resolutionContractVersion
  schemaProfileVersion
  operation
  targetPath := ambiguity.fieldPath.segments
  writeValue := writeValueEvidence plan ambiguity
  ambiguity :=
    { kinds := ambiguity.kinds
      observedTypes := (ObservedType.all.filter fun observedType =>
        decide (observedType ∈ ambiguity.observedTypes)).map Policy.observedTypeName
      observedShapes := (ObservedShape.all.filter fun observedShape =>
        decide (observedShape ∈ ambiguity.observedShapes)).map Policy.observedShapeName
      missingDocuments := ambiguity.missingDocuments }
  allowedCandidates := allowedCandidates plan ambiguity

/-! ## The request on the wire -/

def WriteOperation.wireName : WriteOperation → String
  | .insert => "insert"
  | .update => "update"
  | .delete => "delete"

def AmbiguityKind.wireName : AmbiguityKind → String
  | .mixedBsonTypes => "mixed_bson_types"
  | .mixedShapes => "mixed_shapes"
  | .dottedPathCollision => "dotted_path_collision"
  | .missingFromSampledDocuments => "missing_from_sampled_documents"

def ResolutionCandidate.wireName : ResolutionCandidate → String
  | .keepString => "keep_string"
  | .parseIntegerLosslessly => "parse_integer_losslessly"
  | .keepInteger => "keep_integer"
  | .formatIntegerAsString => "format_integer_as_string"
  | .useNestedPath => "use_nested_path"
  | .reject => "reject"

def AmbiguityKind.listed (kinds : Finset AmbiguityKind) : List AmbiguityKind :=
  [.mixedBsonTypes, .mixedShapes, .dottedPathCollision, .missingFromSampledDocuments].filter
    fun kind => decide (kind ∈ kinds)

def ResolutionCandidate.listed (candidates : Finset ResolutionCandidate) :
    List ResolutionCandidate :=
  [.keepString, .parseIntegerLosslessly, .keepInteger, .formatIntegerAsString, .useNestedPath,
    .reject].filter fun candidate => decide (candidate ∈ candidates)

def ResolverWriteValueEvidence.json (evidence : ResolverWriteValueEvidence) : Json :=
  .object
    [("sql_type", .string evidence.sqlType),
      ("value_preview", (evidence.valuePreview.map Json.string).getD .null)]

def ResolverAmbiguityEvidence.json (evidence : ResolverAmbiguityEvidence) : Json :=
  .object
    [("kinds", .array ((AmbiguityKind.listed evidence.kinds).map fun kind =>
        .string kind.wireName)),
      ("observed_types", .array (evidence.observedTypes.map .string)),
      ("observed_shapes", .array (evidence.observedShapes.map .string)),
      ("missing_documents", .number evidence.missingDocuments)]

def ResolverRequest.json (request : ResolverRequest) : Json :=
  .object
    [("contract_version", .string request.contractVersion),
      ("schema_profile_version", .number request.schemaProfileVersion.toNat),
      ("operation", .string request.operation.wireName),
      ("target_path", .array (request.targetPath.map .string)),
      ("write_value", (request.writeValue.map ResolverWriteValueEvidence.json).getD .null),
      ("ambiguity", request.ambiguity.json),
      ("allowed_candidates", .array ((ResolutionCandidate.listed request.allowedCandidates).map
        fun candidate => .string candidate.wireName))]

def validateResolverResponse (request : ResolverRequest) (plan : StatementPlan)
    (ambiguity : WriteAmbiguity) (response : ResolverResponse) (minimumConfidence : Float) :
    Result ValidatedResolution :=
  if response.contractVersion ≠ resolutionContractVersion
      ∨ response.schemaProfileVersion ≠ request.schemaProfileVersion
      ∨ response.operation ≠ request.operation
      ∨ response.targetPath ≠ request.targetPath
      ∨ response.confidence.isFinite = false
      ∨ response.confidence < minimumConfidence
      ∨ response.confidence > 1
      ∨ response.rationale.isEmpty = true
      ∨ response.rationale.utf8ByteSize > 500 then
    .error (ambiguousWrite
      "resolver response failed contract, profile, field, confidence, or rationale validation")
  else validateResolution plan ambiguity response.candidate

/-- A response that repeats its request and selects an offered candidate with
enough confidence and a rationale. -/
structure ResolverResponse.Answers (response : ResolverResponse) (plan : StatementPlan)
    (schema : SchemaProfile) (ambiguity : WriteAmbiguity) (minimumConfidence : Float) : Prop where
  contractVersion : response.contractVersion = "v2"
  schemaProfileVersion : response.schemaProfileVersion = schema.profileVersion
  operation : writeOperation plan = .ok response.operation
  targetPath : response.targetPath = ambiguity.fieldPath.segments
  finite : response.confidence.isFinite = true
  atLeast : minimumConfidence ≤ response.confidence
  atMost : response.confidence ≤ 1
  rationale : 1 ≤ response.rationale.utf8ByteSize ∧ response.rationale.utf8ByteSize ≤ 500
  candidate : response.candidate ∈ allowedCandidates plan ambiguity

theorem answers_of_validateResolverResponse {plan : StatementPlan} {schema : SchemaProfile}
    {operation : WriteOperation} {ambiguity : WriteAmbiguity} {response : ResolverResponse}
    {minimumConfidence : Float} {resolution : ValidatedResolution}
    (written : writeOperation plan = .ok operation) (comparable : minimumConfidence.isNaN = false)
    (validated : validateResolverResponse
      (resolverRequest plan operation schema.profileVersion ambiguity) plan ambiguity response
      minimumConfidence = .ok resolution) :
    response.Answers plan schema ambiguity minimumConfidence ∧
      resolution = { fieldPath := ambiguity.fieldPath, candidate := response.candidate } := by
  rw [validateResolverResponse, ite_error_eq_ok_iff, validateResolution_eq_ok_iff,
    ← mem_allowedCandidates_iff] at validated
  obtain ⟨accepted, candidate, rfl⟩ := validated
  simp only [not_or, not_not, ne_eq, Bool.not_eq_false, Bool.not_eq_true, gt_iff_lt] at accepted
  obtain ⟨version, profile, operationSame, target, finite, above, below, nonempty, short⟩ := accepted
  have number := Binary64.isNaN_of_isFinite finite
  refine ⟨?_, rfl⟩
  exact
    { contractVersion := version
      schemaProfileVersion := profile
      operation := by
        rw [operationSame]
        exact written
      targetPath := target
      finite
      atLeast := Binary64.le_of_not_lt number comparable above
      atMost := Binary64.le_of_not_lt (by decide) number below
      rationale := by
        refine ⟨?_, not_lt.mp short⟩
        simp only [String.isEmpty, beq_eq_false_iff_ne] at nonempty
        exact Nat.one_le_iff_ne_zero.mpr nonempty
      candidate }

end Mongres
