import Mongres.Proxy.Backend
import Mongres.Proxy.FailClosed
import Mongres.Proxy.Offers
import Mongres.Service.Contract

/-!
# Which requests the service accepts

The two copies of the contract agree on everything that the proxy sends but two
things: the service wants type candidates for top-level fields only, and it bounds
the preview of a number.
-/

namespace Mongres.Service

open Fallible Json

/-- The service reads a request without a validation error. -/
def Accepted (request : ResolverRequest) : Prop :=
  ∃ model, AmbiguityRequest.modelValidate request.json = .ok model

/-! ## Sets as lists -/

theorem mem_listed_kinds_iff (kinds : Finset AmbiguityKind) (kind : AmbiguityKind) :
    kind ∈ AmbiguityKind.listed kinds ↔ kind ∈ kinds := by
  cases kind <;> simp [AmbiguityKind.listed]

theorem mem_listed_candidates_iff (candidates : Finset ResolutionCandidate)
    (candidate : ResolutionCandidate) :
    candidate ∈ ResolutionCandidate.listed candidates ↔ candidate ∈ candidates := by
  cases candidate <;> simp [ResolutionCandidate.listed]

theorem nodup_listed_kinds (kinds : Finset AmbiguityKind) : (AmbiguityKind.listed kinds).Nodup :=
  List.Nodup.filter _ (by decide)

theorem nodup_listed_candidates (candidates : Finset ResolutionCandidate) :
    (ResolutionCandidate.listed candidates).Nodup :=
  List.Nodup.filter _ (by decide)

theorem not_hasDuplicates {α : Type} [DecidableEq α] {members : List α} (distinct : members.Nodup) :
    ¬ hasDuplicates members :=
  not_not.mpr (List.toFinset_card_of_nodup distinct)

theorem toFinset_eq {α : Type} [DecidableEq α] {listed : List α} {members : Finset α}
    (same : ∀ member, member ∈ listed ↔ member ∈ members) : listed.toFinset = members := by
  ext member
  rw [List.mem_toFinset, same]

/-! ## Names on both sides -/

theorem lookup_wireName_kind (kind : AmbiguityKind) :
    ambiguityKinds.lookup kind.wireName = some kind := by
  cases kind <;> decide

theorem lookup_wireName_candidate (candidate : ResolutionCandidate) :
    resolutionCandidates.lookup candidate.wireName = some candidate := by
  cases candidate <;> decide

theorem lookup_wireName_operation (operation : WriteOperation) :
    writeOperations.lookup operation.wireName = some operation := by
  cases operation <;> decide

theorem lookup_observedTypeName (observedType : ObservedType) :
    observedTypes.lookup (Policy.observedTypeName observedType) = some observedType := by
  cases observedType <;> decide

theorem lookup_observedShapeName (observedShape : ObservedShape) :
    observedShapes.lookup (Policy.observedShapeName observedShape) = some observedShape := by
  cases observedShape <;> decide

/-! ## Evidence -/

def listedTypes (types : Finset ObservedType) : List ObservedType :=
  ObservedType.all.filter fun observedType => decide (observedType ∈ types)

def listedShapes (shapes : Finset ObservedShape) : List ObservedShape :=
  ObservedShape.all.filter fun observedShape => decide (observedShape ∈ shapes)

theorem mem_listedTypes_iff (types : Finset ObservedType) (observedType : ObservedType) :
    observedType ∈ listedTypes types ↔ observedType ∈ types := by
  simp [listedTypes, ObservedType.mem_all]

theorem mem_listedShapes_iff (shapes : Finset ObservedShape) (observedShape : ObservedShape) :
    observedShape ∈ listedShapes shapes ↔ observedShape ∈ shapes := by
  simp [listedShapes, ObservedShape.mem_all]

def readEvidence (ambiguity : WriteAmbiguity) : AmbiguityEvidence where
  kinds := AmbiguityKind.listed ambiguity.kinds
  observedTypes := listedTypes ambiguity.observedTypes
  observedShapes := listedShapes ambiguity.observedShapes
  missingDocuments := ambiguity.missingDocuments

theorem evidenceIsUnique_readEvidence (ambiguity : WriteAmbiguity) :
    (readEvidence ambiguity).evidenceIsUnique = .ok (readEvidence ambiguity) := by
  have kinds := not_hasDuplicates (nodup_listed_kinds ambiguity.kinds)
  have types : ¬ hasDuplicates (listedTypes ambiguity.observedTypes) :=
    not_hasDuplicates (List.Nodup.filter _ (by decide))
  have shapes : ¬ hasDuplicates (listedShapes ambiguity.observedShapes) :=
    not_hasDuplicates (List.Nodup.filter _ (by decide))
  unfold AmbiguityEvidence.evidenceIsUnique readEvidence
  rw [if_neg kinds, if_neg types, if_neg shapes]

theorem modelValidate_evidence (plan : StatementPlan) (operation : WriteOperation)
    (version : UInt32) {ambiguity : WriteAmbiguity} (kinds : ambiguity.kinds.Nonempty)
    (types : ambiguity.observedTypes.Nonempty) (shapes : ambiguity.observedShapes.Nonempty) :
    AmbiguityEvidence.modelValidate
        (resolverRequest plan operation version ambiguity).ambiguity.json =
      .ok (readEvidence ambiguity) := by
  have enough {α : Type} {listed : List α} {members : Finset α}
      (same : ∀ member, member ∈ listed ↔ member ∈ members) (nonempty : members.Nonempty) :
      1 ≤ listed.length := by
    obtain ⟨member, membership⟩ := nonempty
    exact List.length_pos_of_mem ((same member).mpr membership)
  have kindsRead : readList 1 4 (readOneOf ambiguityKinds)
      (.array ((AmbiguityKind.listed ambiguity.kinds).map fun kind => .string kind.wireName)) =
        .ok (AmbiguityKind.listed ambiguity.kinds) :=
    readList_names lookup_wireName_kind (enough (mem_listed_kinds_iff _) kinds)
      (List.length_filter_le _ _)
  have typesRead : readList 1 32 (readOneOf observedTypes)
      (.array ((listedTypes ambiguity.observedTypes).map fun observedType =>
        .string (Policy.observedTypeName observedType))) =
        .ok (listedTypes ambiguity.observedTypes) :=
    readList_names lookup_observedTypeName (enough (mem_listedTypes_iff _) types)
      ((List.length_filter_le _ _).trans (by decide))
  have shapesRead : readList 1 8 (readOneOf observedShapes)
      (.array ((listedShapes ambiguity.observedShapes).map fun observedShape =>
        .string (Policy.observedShapeName observedShape))) =
        .ok (listedShapes ambiguity.observedShapes) :=
    readList_names lookup_observedShapeName (enough (mem_listedShapes_iff _) shapes)
      ((List.length_filter_le _ _).trans (by decide))
  have written : (resolverRequest plan operation version ambiguity).ambiguity.json = .object
      [("kinds", .array ((AmbiguityKind.listed ambiguity.kinds).map fun kind =>
          .string kind.wireName)),
        ("observed_types", .array ((listedTypes ambiguity.observedTypes).map fun observedType =>
          .string (Policy.observedTypeName observedType))),
        ("observed_shapes", .array ((listedShapes ambiguity.observedShapes).map
          fun observedShape => .string (Policy.observedShapeName observedShape))),
        ("missing_documents", .number ambiguity.missingDocuments)] := by
    simp [resolverRequest, ResolverAmbiguityEvidence.json, listedTypes, listedShapes,
      Function.comp_def]
  rw [written, AmbiguityEvidence.modelValidate, readObject_object (by simp)]
  simp only [bind, Except.bind, readField_cons_self, readField_cons_of_ne, ne_eq, String.reduceEq,
    not_false_eq_true, kindsRead, typesRead, shapesRead, readInteger]
  rw [if_neg (Int.not_lt.mpr (Int.natCast_nonneg _))]
  exact evidenceIsUnique_readEvidence ambiguity

/-! ## The written value -/

theorem length_text_le (number : Int64) : (Decimal.text number).length ≤ 128 := by
  have lower := number.le_toInt
  have upper := number.toInt_lt
  have digits {magnitude : Nat} (small : magnitude < 10 ^ 127) : magnitude.repr.length ≤ 127 :=
    (Nat.length_repr_le_iff (by decide)).mpr small
  rw [Decimal.text]
  cases whole : number.toInt with
  | ofNat magnitude =>
      rw [whole, Int.ofNat_eq_natCast] at upper
      have short := @digits magnitude (by omega)
      exact short.trans (by decide)
  | negSucc magnitude =>
      rw [whole] at lower
      have short := @digits (magnitude + 1) (by omega)
      change ("-" ++ (magnitude + 1).repr).length ≤ 128
      rw [String.length_append]
      exact Nat.add_le_add (by decide : "-".length ≤ 1) short

theorem exists_modelValidate_preview_iff {type : String} (known : sqlTypes.lookup type = some type)
    (text : String) :
    (∃ evidence, WriteValueEvidence.modelValidate
      (ResolverWriteValueEvidence.json { sqlType := type, valuePreview := some text }) =
        .ok evidence) ↔ text.length ≤ 128 := by
  have typeRead : readOneOf sqlTypes (.string type) = .ok type := by
    rw [readOneOf, readString]
    exact okOr_eq_ok_iff.mpr known
  rw [WriteValueEvidence.modelValidate, ResolverWriteValueEvidence.json,
    readObject_object (by simp)]
  simp only [bind_eq_ok_iff, Except.ok.injEq, exists_eq_left', readField_cons_self, typeRead,
    readFieldOr_cons_of_ne (by decide : "value_preview" ≠ "sql_type"), readFieldOr_cons_self,
    Option.map_some, Option.getD_some, readOptional, map_eq_ok_iff, readStringUpTo_eq_ok_iff]
  constructor
  · rintro ⟨_, _, ⟨_, ⟨short, _⟩, _⟩, _⟩
    exact short
  · intro short
    exact ⟨_, _, ⟨_, ⟨short, rfl⟩, rfl⟩, rfl⟩

/-- Only the preview of a floating-point number can be too long. -/
theorem exists_modelValidate_value_iff {value : SqlValue}
    (bound : ∀ name, value ≠ .placeholder name) :
    (∃ evidence, WriteValueEvidence.modelValidate (valueEvidence value).json = .ok evidence) ↔
      ∀ number, value = .floatingPoint number → (Binary64.display number).length ≤ 128 := by
  cases value with
  | null =>
      refine iff_of_true ⟨{ sqlType := "null", valuePreview := none }, rfl⟩ ?_
      rintro _ ⟨⟩
  | boolean value =>
      refine (exists_modelValidate_preview_iff rfl _).trans (iff_of_true ?_ ?_)
      · cases value <;> decide
      · rintro _ ⟨⟩
  | integer value =>
      refine (exists_modelValidate_preview_iff rfl _).trans (iff_of_true (length_text_le value) ?_)
      rintro _ ⟨⟩
  | floatingPoint value =>
      refine (exists_modelValidate_preview_iff rfl _).trans ⟨?_, fun short => short value rfl⟩
      rintro short _ ⟨⟩
      exact short
  | string value =>
      refine (exists_modelValidate_preview_iff rfl _).trans (iff_of_true ?_ ?_)
      · rw [String.length_ofList]
        exact List.length_take_le _ _
      · rintro _ ⟨⟩
  | placeholder name => exact absurd rfl (bound name)

theorem mem_assigned_of_writtenValue {plan : StatementPlan} {path : FieldPath} {value : SqlValue}
    (written : writtenValue plan path = some value) : (path, value) ∈ plan.assigned := by
  cases plan with
  | select plan => cases written
  | delete plan => cases written
  | insert plan =>
      simp only [writtenValue, Option.bind_eq_some_iff] at written
      obtain ⟨index, column, row, first, held⟩ := written
      obtain ⟨inside, same, _⟩ := List.findIdx?_eq_some_iff_getElem.mp column
      refine List.mem_flatMap.mpr ⟨row, List.mem_of_mem_head? first, ?_⟩
      apply List.mem_of_getElem? (i := index)
      rw [List.getElem?_zip_eq_some, held, List.getElem?_eq_getElem inside]
      exact ⟨congrArg some (of_decide_eq_true same), rfl⟩
  | update plan =>
      obtain ⟨assignment, found, rfl⟩ := Option.map_eq_some_iff.mp written
      have same : assignment.path = path := by simpa using List.find?_some found
      rw [← same]
      exact List.mem_map_of_mem (List.mem_of_find?_eq_some found)

theorem exists_readOptional_writeValue_iff {plan : StatementPlan} (bound : plan.IsBound)
    (ambiguity : WriteAmbiguity) :
    (∃ value, readOptional WriteValueEvidence.modelValidate
      (((writeValueEvidence plan ambiguity).map ResolverWriteValueEvidence.json).getD .null) =
        .ok value) ↔
      ∀ number, writtenValue plan ambiguity.fieldPath = some (.floatingPoint number) →
        (Binary64.display number).length ≤ 128 := by
  rw [writeValueEvidence]
  cases written : writtenValue plan ambiguity.fieldPath with
  | none =>
      apply iff_of_true ⟨none, rfl⟩
      rintro _ ⟨⟩
  | some value =>
      have plain := bound _ (mem_assigned_of_writtenValue written)
      simp only [Option.some.injEq]
      rw [← exists_modelValidate_value_iff plain]
      change (∃ evidence, (WriteValueEvidence.modelValidate (valueEvidence value).json).map some =
        .ok evidence) ↔ _
      simp only [map_eq_ok_iff]
      constructor
      · rintro ⟨_, evidence, read, _⟩
        exact ⟨evidence, read⟩
      · rintro ⟨evidence, read⟩
        exact ⟨_, evidence, read, rfl⟩

/-! ## Candidates -/

theorem card_allowedCandidates_le (plan : StatementPlan) (ambiguity : WriteAmbiguity) :
    (allowedCandidates plan ambiguity).card ≤ 3 := by
  unfold allowedCandidates
  cases assigned : mixedTypeAssignmentValue plan ambiguity with
  | none => split_ifs <;> decide
  | some value =>
      -- A mix of types is no missing field, so no nested path is offered beside it.
      have notNested : ¬ nestedPathIsSafe ambiguity := by
        rintro ⟨kinds, _⟩
        have mix := ((mixedTypeAssignmentValue_eq_some_iff _ _ _).mp assigned).1.1
        have same : ({.mixedBsonTypes} : Finset AmbiguityKind) = {.missingFromSampledDocuments} :=
          (congrArg WriteAmbiguity.kinds mix).symm.trans kinds
        exact absurd same (by decide)
      simp only [if_neg notNested]
      cases value with
      | string text =>
          dsimp only
          split_ifs <;> decide
      | _ =>
          dsimp only
          decide

theorem length_listed_allowedCandidates_le (plan : StatementPlan) (ambiguity : WriteAmbiguity) :
    (ResolutionCandidate.listed (allowedCandidates plan ambiguity)).length ≤ 3 := by
  rw [← List.toFinset_card_of_nodup (nodup_listed_candidates _),
    toFinset_eq (mem_listed_candidates_iff _)]
  exact card_allowedCandidates_le plan ambiguity

theorem reject_mem_listed (plan : StatementPlan) (ambiguity : WriteAmbiguity) :
    .reject ∈ ResolutionCandidate.listed (allowedCandidates plan ambiguity) := by
  rw [mem_listed_candidates_iff, mem_allowedCandidates_iff]
  trivial

theorem readList_allowedCandidates (plan : StatementPlan) (ambiguity : WriteAmbiguity) :
    readList 1 3 (readOneOf resolutionCandidates)
      (.array ((ResolutionCandidate.listed (allowedCandidates plan ambiguity)).map
        fun candidate => .string candidate.wireName)) =
      .ok (ResolutionCandidate.listed (allowedCandidates plan ambiguity)) :=
  readList_names lookup_wireName_candidate
    (List.length_pos_of_mem (reject_mem_listed plan ambiguity))
    (length_listed_allowedCandidates_le plan ambiguity)

theorem mem_typeCandidates_iff (candidate : ResolutionCandidate) :
    candidate ∈ typeCandidates ↔ candidate ≠ .reject ∧ candidate ≠ .useNestedPath := by
  cases candidate <;> decide

theorem isIntegerStringMix_of_offered {plan : StatementPlan} {ambiguity : WriteAmbiguity}
    {candidate : ResolutionCandidate} (type : candidate ∈ typeCandidates)
    (offered : candidate.Offered plan ambiguity) : ambiguity.IsIntegerStringMix := by
  have assigned : ∃ value, mixedTypeAssignmentValue plan ambiguity = some value := by
    cases candidate with
    | reject => exact absurd type (by decide)
    | useNestedPath => exact absurd type (by decide)
    | keepString => exact offered.imp' _ fun _ assigned => assigned
    | parseIntegerLosslessly =>
        obtain ⟨text, _, assigned, _⟩ := offered
        exact ⟨_, assigned⟩
    | keepInteger => exact offered.imp' _ fun _ assigned => assigned
    | formatIntegerAsString => exact offered.imp' _ fun _ assigned => assigned
  obtain ⟨value, assigned⟩ := assigned
  exact ((mixedTypeAssignmentValue_eq_some_iff _ _ _).mp assigned).1

/-! ## The request -/

def readRequest (plan : StatementPlan) (operation : WriteOperation) (version : UInt32)
    (ambiguity : WriteAmbiguity) (writeValue : Option WriteValueEvidence) : AmbiguityRequest where
  contractVersion := "v2"
  schemaProfileVersion := version.toNat
  operation
  targetPath := ambiguity.fieldPath.segments
  writeValue
  ambiguity := readEvidence ambiguity
  allowedCandidates := ResolutionCandidate.listed (allowedCandidates plan ambiguity)

theorem validateAllowlistAndPath_readRequest_iff {plan : StatementPlan} {operation : WriteOperation}
    {version : UInt32} {ambiguity : WriteAmbiguity} {writeValue : Option WriteValueEvidence}
    (named : ∀ segment ∈ ambiguity.fieldPath.segments, 1 ≤ segment.length ∧ segment.length ≤ 255) :
    (∃ model, (readRequest plan operation version ambiguity writeValue).validateAllowlistAndPath =
      .ok model) ↔
      ((∃ candidate ∈ typeCandidates, candidate ∈ allowedCandidates plan ambiguity) →
        ambiguity.fieldPath.segments.length = 1) := by
  have segments : ¬ ∃ segment ∈ ambiguity.fieldPath.segments,
      segment = "" ∨ segment.length > 255 := by
    rintro ⟨segment, membership, rfl | long⟩
    · exact absurd (named _ membership).1 (by decide)
    · exact absurd (named _ membership).2 (Nat.not_le.mpr long)
  have distinct := not_hasDuplicates (nodup_listed_candidates (allowedCandidates plan ambiguity))
  have rejects := not_not.mpr (reject_mem_listed plan ambiguity)
  have kindsRead : (AmbiguityKind.listed ambiguity.kinds).toFinset = ambiguity.kinds :=
    toFinset_eq (mem_listed_kinds_iff _)
  have nested : ¬ (.useNestedPath ∈ ResolutionCandidate.listed (allowedCandidates plan ambiguity) ∧
      ((AmbiguityKind.listed ambiguity.kinds).toFinset ≠ {.missingFromSampledDocuments} ∨
        ambiguity.fieldPath.segments.length < 2)) := by
    rw [mem_listed_candidates_iff, mem_allowedCandidates_iff, kindsRead]
    rintro ⟨⟨kinds, _, nested⟩, other | short⟩
    · exact other kinds
    · exact absurd nested (Nat.not_le.mpr short)
  have offered : (typeCandidates ∩
      (ResolutionCandidate.listed (allowedCandidates plan ambiguity)).toFinset).Nonempty ↔
      ∃ candidate ∈ typeCandidates, candidate ∈ allowedCandidates plan ambiguity := by
    rw [toFinset_eq (mem_listed_candidates_iff _)]
    exact exists_congr fun _ => Finset.mem_inter
  simp only [AmbiguityRequest.validateAllowlistAndPath, readRequest, readEvidence,
    ite_error_eq_ok_iff, offered]
  constructor
  · rintro ⟨_, _, _, _, _, accepted, _⟩ type
    by_contra nested
    exact accepted ⟨type, .inr (.inr (.inr (.inr nested)))⟩
  · intro topLevel
    refine ⟨_, segments, distinct, rejects, nested, ?_, rfl⟩
    rintro ⟨⟨candidate, type, membership⟩, drift⟩
    rw [mem_allowedCandidates_iff] at membership
    have mix := (isIntegerStringMix_of_offered type membership).1
    have types : (listedTypes ambiguity.observedTypes).toFinset = ambiguity.observedTypes :=
      toFinset_eq (mem_listedTypes_iff _)
    have shapes : (listedShapes ambiguity.observedShapes).toFinset = ambiguity.observedShapes :=
      toFinset_eq (mem_listedShapes_iff _)
    rw [kindsRead, types, shapes] at drift
    rcases drift with other | other | other | other | other
    · exact other (congrArg WriteAmbiguity.kinds mix)
    · exact other (congrArg WriteAmbiguity.observedTypes mix)
    · exact other (congrArg WriteAmbiguity.observedShapes mix)
    · exact other (congrArg (fun evidence => (evidence.missingDocuments : Int)) mix)
    · exact other (topLevel ⟨candidate, type, (mem_allowedCandidates_iff _ _ _).mpr membership⟩)

theorem readList_segments {segments : List String} (nonempty : 1 ≤ segments.length)
    (short : segments.length ≤ 64) :
    readList 1 64 readString (.array (segments.map .string)) = .ok segments := by
  have each : ∀ segment ∈ segments, readString (.string segment) = .ok (id segment) :=
    fun _ _ => rfl
  rw [readList_map each nonempty short, List.map_id]

/-- The service accepts a request whose path, value and allowlist it accepts. -/
theorem accepted_iff {plan : StatementPlan} {operation : WriteOperation} {version : UInt32}
    {ambiguity : WriteAmbiguity} (versioned : 1 ≤ version.toNat) (bound : plan.IsBound)
    (kinds : ambiguity.kinds.Nonempty) (types : ambiguity.observedTypes.Nonempty)
    (shapes : ambiguity.observedShapes.Nonempty)
    (nonempty : 1 ≤ ambiguity.fieldPath.segments.length)
    (short : ambiguity.fieldPath.segments.length ≤ 64)
    (named : ∀ segment ∈ ambiguity.fieldPath.segments, 1 ≤ segment.length ∧ segment.length ≤ 255) :
    Accepted (resolverRequest plan operation version ambiguity) ↔
      ((∃ candidate ∈ typeCandidates, candidate ∈ allowedCandidates plan ambiguity) →
        ambiguity.fieldPath.segments.length = 1) ∧
      ∀ number, writtenValue plan ambiguity.fieldPath = some (.floatingPoint number) →
        (Binary64.display number).length ≤ 128 := by
  have contractRead : readOneOf [("v2", "v2")] (.string resolutionContractVersion) = .ok "v2" := rfl
  have versionRead : readInteger 1 (.number version.toNat) = .ok (version.toNat : Int) :=
    if_neg (Int.not_lt.mpr (by exact_mod_cast versioned))
  have operationRead : readOneOf writeOperations (.string operation.wireName) = .ok operation := by
    rw [readOneOf, readString]
    exact okOr_eq_ok_iff.mpr (lookup_wireName_operation operation)
  have evidenceRead := modelValidate_evidence plan operation version kinds types shapes
  rw [← exists_readOptional_writeValue_iff bound, Accepted, AmbiguityRequest.modelValidate,
    ResolverRequest.json, readObject_object (by simp)]
  simp only [bind_eq_ok_iff, Except.ok.injEq, exists_eq_left', readField_cons_self,
    readFieldOr_cons_self, readField_cons_of_ne, readFieldOr_cons_of_ne, ne_eq, String.reduceEq,
    not_false_eq_true, evidenceRead]
  simp only [resolverRequest, contractRead, versionRead, operationRead,
    readList_segments nonempty short, readList_allowedCandidates, Except.ok.injEq, exists_eq_left']
  constructor
  · rintro ⟨model, value, read, accepted⟩
    exact ⟨(validateAllowlistAndPath_readRequest_iff named).mp ⟨model, accepted⟩, value, read⟩
  · rintro ⟨topLevel, value, read⟩
    obtain ⟨model, accepted⟩ :=
      (@validateAllowlistAndPath_readRequest_iff _ _ _ _ value named).mpr topLevel
    exact ⟨model, value, read, accepted⟩

theorem exists_typeCandidate_iff {plan : StatementPlan} {ambiguity : WriteAmbiguity}
    (executable : hasExecutableCandidate (allowedCandidates plan ambiguity)) :
    (∃ candidate ∈ typeCandidates, candidate ∈ allowedCandidates plan ambiguity) ↔
      ambiguity.kinds ≠ {.missingFromSampledDocuments} := by
  constructor
  · rintro ⟨candidate, type, membership⟩ missing
    have mix := (isIntegerStringMix_of_offered type
      ((mem_allowedCandidates_iff _ _ _).mp membership)).1
    have same : ({.mixedBsonTypes} : Finset AmbiguityKind) = {.missingFromSampledDocuments} :=
      (congrArg WriteAmbiguity.kinds mix).symm.trans missing
    exact absurd same (by decide)
  · intro present
    obtain ⟨candidate, membership, accepts⟩ := (hasExecutableCandidate_iff _).mp executable
    refine ⟨candidate, (mem_typeCandidates_iff candidate).mpr ⟨accepts, ?_⟩, membership⟩
    rintro rfl
    exact present ((mem_allowedCandidates_iff _ _ _).mp membership).1

/-- The service accepts the proxy's request unless it offers a type for a nested
path or previews a number at length. -/
theorem accepted_resolverRequest_iff {documents : List SampleDocument} {plan : StatementPlan}
    {operation : WriteOperation} {ambiguity : WriteAmbiguity} (bound : plan.IsBound)
    (detected : detectWriteAmbiguities plan (SchemaProfile.infer documents) = .ok [ambiguity])
    (executable : hasExecutableCandidate (allowedCandidates plan ambiguity))
    (short : ambiguity.fieldPath.segments.length ≤ 64)
    (named : ∀ segment ∈ ambiguity.fieldPath.segments, 1 ≤ segment.length ∧ segment.length ≤ 255) :
    Accepted (resolverRequest plan operation (SchemaProfile.infer documents).profileVersion
        ambiguity) ↔
      (ambiguity.kinds = {.missingFromSampledDocuments} ∨
        ambiguity.fieldPath.segments.length = 1) ∧
      ∀ number, writtenValue plan ambiguity.fieldPath = some (.floatingPoint number) →
        (Binary64.display number).length ≤ 128 := by
  obtain ⟨path, profile, mentioned, rfl, _⟩ := (detected_of_eq_ok detected).mentionsAmbiguous
  have described := SchemaProfile.describes_of_field_infer mentioned.profiled
  have kinds : (profile.evidence path).kinds.Nonempty :=
    Finset.nonempty_iff_ne_empty.mpr ((ambiguityKinds_ne_empty_iff profile).mpr mentioned.ambiguous)
  have versioned : 1 ≤ (SchemaProfile.infer documents).profileVersion.toNat := le_refl 1
  rw [accepted_iff versioned bound kinds described.nonempty.1 described.nonempty.2
    (List.length_pos_of_ne_nil described.observed.1) short named,
    exists_typeCandidate_iff executable, or_iff_not_imp_left]

section Example

private def parts : List SampleDocument :=
  [{ fields := [("id", .integer 1), ("code", .string "x"),
      ("origin", .document [("code", .string "x")])] },
    { fields := [("id", .integer 2), ("code", .integer 7),
      ("origin", .document [("code", .integer 7)])] }]

private def idIsOne : Ast.Expr :=
  .binaryOp (.identifier (.new "id")) .eq (.value (.number "1" false))

private def setPartCode (path : FieldPath) : StatementPlan :=
  .update
    { collection := "parts"
      assignments := [{ path, value := .string "5" }]
      filter := .compare ⟨["id"]⟩ .equal (.integer 1) }

theorem accepted_setPartCode :
    Accepted (resolverRequest (setPartCode ⟨["code"]⟩) .update
      (SchemaProfile.infer parts).profileVersion (mixedTypeAmbiguity ⟨["code"]⟩)) := by
  have detected : detectWriteAmbiguities (setPartCode ⟨["code"]⟩) (SchemaProfile.infer parts) =
      .ok [mixedTypeAmbiguity ⟨["code"]⟩] := rfl
  refine (accepted_resolverRequest_iff (by simp [StatementPlan.IsBound, setPartCode,
    StatementPlan.assigned]) detected (by decide) (by decide) (by decide)).mpr ⟨.inr rfl, ?_⟩
  rintro number ⟨⟩

/-- `UPDATE parts SET origin.code = '5' WHERE id = 1` offers to parse the string, and
the service wants no type candidates for a nested path. -/
theorem not_accepted :
    ¬ ∀ (documents : List SampleDocument) (plan : StatementPlan) (operation : WriteOperation)
      (ambiguity : WriteAmbiguity),
      plan.Prepared (SchemaProfile.infer documents) → plan.IsBound →
      writeOperation plan = .ok operation →
      detectWriteAmbiguities plan (SchemaProfile.infer documents) = .ok [ambiguity] →
      hasExecutableCandidate (allowedCandidates plan ambiguity) →
      ambiguity.fieldPath.segments.length ≤ 64 →
      (∀ segment ∈ ambiguity.fieldPath.segments, 1 ≤ segment.length ∧ segment.length ≤ 255) →
      Accepted (resolverRequest plan operation (SchemaProfile.infer documents).profileVersion
        ambiguity) := by
  intro accepts
  have lowered : lowerStatement (.updateWhere "parts"
      [{ target := .columnName [.new "origin", .new "code"],
         value := .value (.singleQuotedString "5") }] idIsOne) "parts" (SchemaProfile.infer parts) =
      .ok (setPartCode ⟨["origin", "code"]⟩) := rfl
  have bound : (setPartCode ⟨["origin", "code"]⟩).IsBound := by
    simp [StatementPlan.IsBound, setPartCode, StatementPlan.assigned]
  have detected : detectWriteAmbiguities (setPartCode ⟨["origin", "code"]⟩)
      (SchemaProfile.infer parts) = .ok [mixedTypeAmbiguity ⟨["origin", "code"]⟩] := rfl
  have accepted := accepts parts _ .update _ ⟨_, _, _, lowered, .inl rfl⟩ bound rfl detected
    (by decide) (by decide) (by decide)
  rw [accepted_iff (le_refl 1) bound (by decide) (by decide) (by decide) (by decide) (by decide)
    (by decide)] at accepted
  exact absurd (accepted.1 ⟨.keepString, by decide, by decide⟩) (by decide)

end Example

end Mongres.Service
