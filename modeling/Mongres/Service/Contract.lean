import Mongres.Policy.Contract

/-!
# The contract of the resolver service

The service's own copy of the contract: the models that read a request, with the
bounds of their fields and the checks that run after them.
-/

namespace Mongres.Service

open Json

/-! ## Enumerations -/

def writeOperations : List (String × WriteOperation) :=
  [("insert", .insert), ("update", .update), ("delete", .delete)]

def resolutionCandidates : List (String × ResolutionCandidate) :=
  [("keep_string", .keepString), ("parse_integer_losslessly", .parseIntegerLosslessly),
    ("keep_integer", .keepInteger), ("format_integer_as_string", .formatIntegerAsString),
    ("use_nested_path", .useNestedPath), ("reject", .reject)]

def ambiguityKinds : List (String × AmbiguityKind) :=
  [("mixed_bson_types", .mixedBsonTypes), ("mixed_shapes", .mixedShapes),
    ("dotted_path_collision", .dottedPathCollision),
    ("missing_from_sampled_documents", .missingFromSampledDocuments)]

def observedTypes : List (String × ObservedType) :=
  [("null", .null), ("boolean", .boolean), ("integer", .integer),
    ("floating_point", .floatingPoint), ("string", .string), ("datetime", .dateTime),
    ("object_id", .objectId), ("document", .document), ("array", .array)]

def observedShapes : List (String × ObservedShape) :=
  [("scalar", .scalar), ("document", .document), ("array", .array)]

/-- The SQL type labels, as literals that stand for themselves. -/
def sqlTypes : List (String × String) :=
  [("null", "null"), ("boolean", "boolean"), ("integer", "integer"),
    ("floating_point", "floating_point"), ("string", "string"), ("placeholder", "placeholder")]

/-! ## Models -/

/-- Minimised, non-document evidence for a single target path. -/
structure AmbiguityEvidence where
  kinds : List AmbiguityKind
  observedTypes : List ObservedType
  observedShapes : List ObservedShape
  missingDocuments : Int
  deriving DecidableEq

structure WriteValueEvidence where
  sqlType : String
  valuePreview : Option String
  deriving DecidableEq

structure AmbiguityRequest where
  contractVersion : String
  schemaProfileVersion : Int
  operation : WriteOperation
  targetPath : List String
  writeValue : Option WriteValueEvidence
  ambiguity : AmbiguityEvidence
  allowedCandidates : List ResolutionCandidate
  deriving DecidableEq

/-- Whether a list has fewer distinct members than members. -/
def hasDuplicates {α : Type} [DecidableEq α] (members : List α) : Prop :=
  members.toFinset.card ≠ members.length

instance {α : Type} [DecidableEq α] (members : List α) : Decidable (hasDuplicates members) :=
  inferInstanceAs (Decidable (_ ≠ _))

def AmbiguityEvidence.evidenceIsUnique (evidence : AmbiguityEvidence) :
    Except String AmbiguityEvidence :=
  if hasDuplicates evidence.kinds then .error "ambiguity kinds must be unique"
  else if hasDuplicates evidence.observedTypes then .error "observed types must be unique"
  else if hasDuplicates evidence.observedShapes then .error "observed shapes must be unique"
  else .ok evidence

def AmbiguityEvidence.modelValidate (json : Json) : Except String AmbiguityEvidence := do
  let fields ← readObject ["kinds", "observed_types", "observed_shapes", "missing_documents"] json
  let kinds ← readField fields "kinds" (readList 1 4 (readOneOf ambiguityKinds))
  let observedTypes ←
    readField fields "observed_types" (readList 1 32 (readOneOf Service.observedTypes))
  let observedShapes ←
    readField fields "observed_shapes" (readList 1 8 (readOneOf Service.observedShapes))
  let missingDocuments ← readField fields "missing_documents" (readInteger 0)
  AmbiguityEvidence.evidenceIsUnique { kinds, observedTypes, observedShapes, missingDocuments }

def WriteValueEvidence.modelValidate (json : Json) : Except String WriteValueEvidence := do
  let fields ← readObject ["sql_type", "value_preview"] json
  let sqlType ← readField fields "sql_type" (readOneOf sqlTypes)
  let valuePreview ←
    readFieldOr fields "value_preview" none (readOptional (readStringUpTo 128))
  .ok { sqlType, valuePreview }

/-- The candidates that change or keep the type of the written value. -/
def typeCandidates : Finset ResolutionCandidate :=
  {.keepString, .parseIntegerLosslessly, .keepInteger, .formatIntegerAsString}

/-- Refuses candidates that the proxy could not have generated safely. -/
def AmbiguityRequest.validateAllowlistAndPath (request : AmbiguityRequest) :
    Except String AmbiguityRequest :=
  if ∃ segment ∈ request.targetPath, segment = "" ∨ segment.length > 255 then
    .error "target path segments must be non-empty and at most 255 characters"
  else if hasDuplicates request.allowedCandidates then
    .error "allowed candidates must be unique"
  else if .reject ∉ request.allowedCandidates then
    .error "allowed candidates must include reject"
  else if .useNestedPath ∈ request.allowedCandidates ∧
      (request.ambiguity.kinds.toFinset ≠ {.missingFromSampledDocuments} ∨
        request.targetPath.length < 2) then
    .error "use_nested_path is not valid for the supplied ambiguity kinds"
  else if (typeCandidates ∩ request.allowedCandidates.toFinset).Nonempty ∧
      (request.ambiguity.kinds.toFinset ≠ {.mixedBsonTypes} ∨
        request.ambiguity.observedTypes.toFinset ≠ {.integer, .string} ∨
        request.ambiguity.observedShapes.toFinset ≠ {.scalar} ∨
        request.ambiguity.missingDocuments ≠ 0 ∨
        request.targetPath.length ≠ 1) then
    .error "mixed-type candidates are not valid for the supplied evidence"
  else .ok request

def AmbiguityRequest.modelValidate (json : Json) : Except String AmbiguityRequest := do
  let fields ← readObject
    ["contract_version", "schema_profile_version", "operation", "target_path", "write_value",
      "ambiguity", "allowed_candidates"] json
  let contractVersion ← readFieldOr fields "contract_version" "v2" (readOneOf [("v2", "v2")])
  let schemaProfileVersion ← readField fields "schema_profile_version" (readInteger 1)
  let operation ← readField fields "operation" (readOneOf writeOperations)
  let targetPath ← readField fields "target_path" (readList 1 64 readString)
  let writeValue ←
    readFieldOr fields "write_value" none (readOptional WriteValueEvidence.modelValidate)
  let ambiguity ← readField fields "ambiguity" AmbiguityEvidence.modelValidate
  let allowedCandidates ←
    readField fields "allowed_candidates" (readList 1 3 (readOneOf resolutionCandidates))
  AmbiguityRequest.validateAllowlistAndPath
    { contractVersion, schemaProfileVersion, operation, targetPath, writeValue, ambiguity,
      allowedCandidates }

end Mongres.Service
