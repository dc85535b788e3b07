import Mongres.Library.Binary32
import Mongres.Proxy.Isolation

/-!
# Decoded parameters

A statement that was prepared binds every list of values that the wire decoder returns for
its parameter types: the placeholders counted for the types are those counted for binding,
and a field has a parameter type only where the type policy accepts its values.
-/

namespace Mongres

open Fallible

/-! ## The wire decoder -/

inductive FieldFormat where
  | text
  | binary
  deriving DecidableEq

def parseBoolean (value : String) : Result SqlValue :=
  if value = "t" ∨ value = "true" ∨ value = "1" then .ok (.boolean true)
  else if value = "f" ∨ value = "false" ∨ value = "0" then .ok (.boolean false)
  else .error (invalidInput "invalid boolean parameter")

def finiteFloat (value : Float) : Result SqlValue :=
  if value.isFinite then .ok (.floatingPoint value)
  else .error (invalidInput "non-finite floating-point parameters are not supported")

/-- A number of the given width, in decimal. -/
def parseInteger (bits : Nat) (typeName value : String) : Result SqlValue :=
  match Decimal.parseSigned value with
  | some number =>
      if -2 ^ (bits - 1) ≤ number ∧ number < 2 ^ (bits - 1) then
        .ok (.integer (Int64.ofInt number))
      else .error (invalidInput s!"invalid {typeName} parameter")
  | none => .error (invalidInput s!"invalid {typeName} parameter")

/-- The number that bytes spell, the most significant byte first. -/
def fromBigEndian (value : ByteArray) : Nat :=
  value.toList.foldl (fun total byte => 256 * total + byte.toNat) 0

def invalidLength (typeName : String) : ProxyError :=
  invalidInput s!"invalid binary {typeName} parameter length"

/-- A number in two's complement. -/
def fixedBinary (bits : Nat) (typeName : String) (value : ByteArray) : Result SqlValue :=
  if 8 * value.size ≠ bits then .error (invalidLength typeName)
  else .ok (.integer (Int64.ofInt (BitVec.ofNat bits (fromBigEndian value)).toInt))

def fixedBinaryFloat (expectedLength : Nat) (typeName : String) (decode : Nat → Float)
    (value : ByteArray) : Result SqlValue :=
  if value.size ≠ expectedLength then .error (invalidLength typeName)
  else finiteFloat (decode (fromBigEndian value))

section Decoder

-- The object identifiers of PostgreSQL types.
variable (oid : PgType → Nat)

def unsupportedType (parameterType : PgType) : ProxyError where
  kind := .featureNotSupported
  message :=
    s!"prepared-statement parameter type '{PgType.name parameterType}' (OID {oid parameterType}) is not supported"

def decodeText (value : ByteArray) (parameterType : PgType) : Result SqlValue := do
  let value ← okOr (String.fromUTF8? value) (invalidInput "text parameter is not valid UTF-8")
  match parameterType with
  | .bool => parseBoolean value
  | .int2 => parseInteger 16 "int2" value
  | .int4 => parseInteger 32 "int4" value
  | .int8 => parseInteger 64 "int8" value
  | .float4 => do
      let number ← okOr (Binary32.parse value) (invalidInput "invalid float4 parameter")
      finiteFloat (Binary32.toBinary64 number)
  | .float8 => do
      let number ← okOr (Binary64.parse value) (invalidInput "invalid float8 parameter")
      finiteFloat number
  | .text | .varchar | .bpchar => .ok (.string value)
  | .unknown | .other _ => .error (unsupportedType oid parameterType)

def decodeBinary (value : ByteArray) (parameterType : PgType) : Result SqlValue :=
  match parameterType with
  | .bool =>
      match value.toList with
      | [0] => .ok (.boolean false)
      | [1] => .ok (.boolean true)
      | _ => .error (invalidInput "invalid binary boolean parameter")
  | .int2 => fixedBinary 16 "int2" value
  | .int4 => fixedBinary 32 "int4" value
  | .int8 => fixedBinary 64 "int8" value
  | .float4 => fixedBinaryFloat 4 "float4"
      (fun bits => Binary32.toBinary64 (.ofBits (UInt32.ofNat bits))) value
  | .float8 => fixedBinaryFloat 8 "float8" (fun bits => .ofBits (UInt64.ofNat bits)) value
  | .text | .varchar | .bpchar =>
      (okOr (String.fromUTF8? value)
        (invalidInput "binary text parameter is not valid UTF-8")).map .string
  | .unknown | .other _ => .error (unsupportedType oid parameterType)

/-- Decodes one parameter from its PostgreSQL type and text or binary format. -/
def decodeParameter (value : Option ByteArray) (parameterType : PgType) (format : FieldFormat) :
    Result SqlValue :=
  match value with
  | none => .ok .null
  | some value =>
      match format with
      | .binary => decodeBinary oid value parameterType
      | .text => decodeText oid value parameterType

end Decoder

/-! ## Types of decoded values -/

/-- The observed type of the values of a parameter type. -/
def PgType.observedType? : PgType → Option ObservedType
  | .bool => some .boolean
  | .int2 | .int4 | .int8 => some .integer
  | .float4 | .float8 => some .floatingPoint
  | .text | .varchar | .bpchar => some .string
  | .unknown | .other _ => none

theorem scalarType_of_finiteFloat {number : Float} {value : SqlValue}
    (decoded : finiteFloat number = .ok value) : value.scalarType = some .floatingPoint := by
  unfold finiteFloat at decoded
  split_ifs at decoded
  cases decoded
  rfl

theorem scalarType_of_parseBoolean {text : String} {value : SqlValue}
    (decoded : parseBoolean text = .ok value) : value.scalarType = some .boolean := by
  unfold parseBoolean at decoded
  split_ifs at decoded
  · cases decoded
    rfl
  · cases decoded
    rfl

theorem scalarType_of_parseInteger {bits : Nat} {typeName text : String} {value : SqlValue}
    (decoded : parseInteger bits typeName text = .ok value) :
    value.scalarType = some .integer := by
  unfold parseInteger at decoded
  split at decoded
  · split_ifs at decoded
    cases decoded
    rfl
  · cases decoded

theorem scalarType_of_fixedBinary {bits : Nat} {typeName : String} {bytes : ByteArray}
    {value : SqlValue} (decoded : fixedBinary bits typeName bytes = .ok value) :
    value.scalarType = some .integer := by
  rw [fixedBinary, ite_error_eq_ok_iff] at decoded
  cases decoded.2
  rfl

theorem scalarType_of_fixedBinaryFloat {length : Nat} {typeName : String} {decode : Nat → Float}
    {bytes : ByteArray} {value : SqlValue}
    (decoded : fixedBinaryFloat length typeName decode bytes = .ok value) :
    value.scalarType = some .floatingPoint := by
  rw [fixedBinaryFloat, ite_error_eq_ok_iff] at decoded
  exact scalarType_of_finiteFloat decoded.2

theorem scalarType_of_decodeText {oid : PgType → Nat} {bytes : ByteArray} {parameterType : PgType}
    {value : SqlValue} (decoded : decodeText oid bytes parameterType = .ok value) :
    value.scalarType = parameterType.observedType? ∧ value.scalarType ≠ none := by
  obtain ⟨text, _, decoded⟩ := bind_eq_ok_iff.mp decoded
  split at decoded
  · simp [scalarType_of_parseBoolean decoded, PgType.observedType?]
  · simp [scalarType_of_parseInteger decoded, PgType.observedType?]
  · simp [scalarType_of_parseInteger decoded, PgType.observedType?]
  · simp [scalarType_of_parseInteger decoded, PgType.observedType?]
  · obtain ⟨number, _, decoded⟩ := bind_eq_ok_iff.mp decoded
    simp [scalarType_of_finiteFloat decoded, PgType.observedType?]
  · obtain ⟨number, _, decoded⟩ := bind_eq_ok_iff.mp decoded
    simp [scalarType_of_finiteFloat decoded, PgType.observedType?]
  · cases decoded
    simp [SqlValue.scalarType, PgType.observedType?]
  · cases decoded
    simp [SqlValue.scalarType, PgType.observedType?]
  · cases decoded
    simp [SqlValue.scalarType, PgType.observedType?]
  · cases decoded
  · cases decoded

theorem scalarType_of_decodeBinary {oid : PgType → Nat} {bytes : ByteArray}
    {parameterType : PgType} {value : SqlValue}
    (decoded : decodeBinary oid bytes parameterType = .ok value) :
    value.scalarType = parameterType.observedType? ∧ value.scalarType ≠ none := by
  unfold decodeBinary at decoded
  split at decoded
  · split at decoded
    · cases decoded
      simp [SqlValue.scalarType, PgType.observedType?]
    · cases decoded
      simp [SqlValue.scalarType, PgType.observedType?]
    · cases decoded
  · simp [scalarType_of_fixedBinary decoded, PgType.observedType?]
  · simp [scalarType_of_fixedBinary decoded, PgType.observedType?]
  · simp [scalarType_of_fixedBinary decoded, PgType.observedType?]
  · simp [scalarType_of_fixedBinaryFloat decoded, PgType.observedType?]
  · simp [scalarType_of_fixedBinaryFloat decoded, PgType.observedType?]
  · obtain ⟨text, _, rfl⟩ := map_eq_ok_iff.mp decoded
    simp [SqlValue.scalarType, PgType.observedType?]
  · obtain ⟨text, _, rfl⟩ := map_eq_ok_iff.mp decoded
    simp [SqlValue.scalarType, PgType.observedType?]
  · obtain ⟨text, _, rfl⟩ := map_eq_ok_iff.mp decoded
    simp [SqlValue.scalarType, PgType.observedType?]
  · cases decoded
  · cases decoded

theorem scalarType_of_decodeParameter {oid : PgType → Nat} {raw : Option ByteArray}
    {parameterType : PgType} {format : FieldFormat} {value : SqlValue} (given : value ≠ .null)
    (decoded : decodeParameter oid raw parameterType format = .ok value) :
    value.scalarType = parameterType.observedType? ∧ value.scalarType ≠ none := by
  cases raw with
  | none =>
      cases decoded
      exact absurd rfl given
  | some bytes =>
      cases format with
      | text => exact scalarType_of_decodeText decoded
      | binary => exact scalarType_of_decodeBinary decoded

/-! ## Fields of parameters -/

theorem shape_of_inferFieldParameterType {path : FieldPath} {schema : SchemaProfile}
    {inferred : PgType} (infers : inferFieldParameterType path schema = .ok inferred) :
    ∃ observedType, inferred.observedType? = some observedType ∧
      validateFieldShape path schema = .ok (some observedType) := by
  obtain ⟨profile, found, infers⟩ := bind_eq_ok_iff.mp infers
  rw [okOr_eq_ok_iff] at found
  split at infers
  · rename_i observedType single
    rw [ite_error_eq_ok_iff, not_or, not_not] at infers
    obtain ⟨⟨distinct, scalar⟩, infers⟩ := infers
    have shape : validateFieldShape path schema = .ok (some observedType) := by
      refine validateFieldShape_eq_ok_iff.mpr ⟨profile, found, ?_⟩
      rw [single, scalar]
      simp [distinct]
    refine ⟨observedType, ?_, shape⟩
    cases observedType <;> cases infers <;> rfl
  · cases infers

theorem observedType_of_compatible {requested inferred : PgType} {observedType : ObservedType}
    (typed : inferred.observedType? = some observedType)
    (compatible : compatibleParameterType requested inferred = true) :
    requested.observedType? = some observedType := by
  cases inferred with
  | int8 | text =>
      simp only [compatibleParameterType, Bool.or_eq_true, decide_eq_true_eq] at compatible
      rcases compatible with (rfl | rfl) | rfl <;> exact typed
  | float8 =>
      simp only [compatibleParameterType, Bool.or_eq_true, decide_eq_true_eq] at compatible
      rcases compatible with rfl | rfl <;> exact typed
  | _ =>
      rw [of_decide_eq_true compatible]
      exact typed

theorem validateValue_of_inferred {path : FieldPath} {schema : SchemaProfile} {inferred : PgType}
    {value : SqlValue} (infers : inferFieldParameterType path schema = .ok inferred)
    (typed : value.scalarType = inferred.observedType?) (nullIsAllowed : Bool) :
    validateValue path value schema nullIsAllowed = .ok () := by
  obtain ⟨observedType, single, shape⟩ := shape_of_inferFieldParameterType infers
  rw [single] at typed
  refine (validateValue_eq_ok_iff typed).mpr ⟨_, shape, ?_⟩
  intro clear same
  exact (Option.some.inj same).symm

/-! ## Counting parameters -/

section Counting

open Std (TreeMap)

/-- A cell holds the placeholder of an index. -/
def IsNumbered (cell : FieldPath × SqlValue) (index : Nat) : Prop :=
  ∃ name, cell.2 = .placeholder name ∧ parsePlaceholderIndex name = .ok index

/-- The types give every placeholder of the cells the type of its field, and nothing else. -/
structure TypesOf (schema : SchemaProfile) (cells : List (FieldPath × SqlValue))
    (types : ParameterTypes) : Prop where
  typed : ∀ cell ∈ cells, ∀ name, cell.2 = .placeholder name → ∃ index parameterType,
    parsePlaceholderIndex name = .ok index ∧
      inferFieldParameterType cell.1 schema = .ok parameterType ∧ types[index]? = some parameterType
  used : ∀ index ∈ types, ∃ cell ∈ cells, IsNumbered cell index

variable {schema : SchemaProfile} {types collected : ParameterTypes} {cell : FieldPath × SqlValue}
  {cells : List (FieldPath × SqlValue)}

theorem TypesOf.literal (before : TypesOf schema cells types)
    (written : ∀ name, cell.2 ≠ .placeholder name) : TypesOf schema (cells ++ [cell]) types := by
  constructor
  · rw [List.forall_mem_append, List.forall_mem_singleton]
    exact ⟨before.typed, fun name same => absurd same (written name)⟩
  · intro index membership
    obtain ⟨earlier, earlierMembership, numbered⟩ := before.used index membership
    exact ⟨earlier, List.mem_append_left _ earlierMembership, numbered⟩

theorem getElem?_insert_of_agrees {index : Nat} {parameterType : PgType}
    (agrees : ∀ held, types[index]? = some held → held = parameterType) {other : Nat}
    {otherType : PgType} (present : types[other]? = some otherType) :
    (types.insert index parameterType)[other]? = some otherType := by
  rw [TreeMap.getElem?_insert]
  split_ifs with here
  · rw [← Std.LawfulEqCmp.compare_eq_iff_eq.mp here] at present
    rw [agrees otherType present]
  · exact present

theorem TypesOf.insert {path : FieldPath} {name : String} {index : Nat} {parameterType : PgType}
    (before : TypesOf schema cells types) (indexed : parsePlaceholderIndex name = .ok index)
    (infers : inferFieldParameterType path schema = .ok parameterType)
    (agrees : ∀ held, types[index]? = some held → held = parameterType) :
    TypesOf schema (cells ++ [(path, .placeholder name)]) (types.insert index parameterType) := by
  constructor
  · rw [List.forall_mem_append, List.forall_mem_singleton]
    constructor
    · intro earlier membership earlierName same
      obtain ⟨other, otherType, otherIndexed, otherInfers, present⟩ :=
        before.typed earlier membership earlierName same
      exact ⟨other, otherType, otherIndexed, otherInfers,
        getElem?_insert_of_agrees agrees present⟩
    · intro otherName same
      cases same
      exact ⟨index, parameterType, indexed, infers, TreeMap.getElem?_insert_self⟩
  · intro other membership
    rw [TreeMap.mem_insert] at membership
    rcases membership with here | earlier
    · rw [← Std.LawfulEqCmp.compare_eq_iff_eq.mp here]
      exact ⟨(path, .placeholder name), by simp, name, rfl, indexed⟩
    · obtain ⟨earlierCell, earlierMembership, numbered⟩ := before.used other earlier
      exact ⟨earlierCell, List.mem_append_left _ earlierMembership, numbered⟩

theorem typesOf_collectValueParameterType (before : TypesOf schema cells types)
    (collects : collectValueParameterType schema types cell = .ok collected) :
    TypesOf schema (cells ++ [cell]) collected := by
  obtain ⟨path, value⟩ := cell
  cases value with
  | placeholder name =>
      simp only [collectValueParameterType, bind_eq_ok_iff, ite_error_eq_ok_iff] at collects
      obtain ⟨index, indexed, parameterType, infers, noConflict, same⟩ := collects
      cases same
      apply before.insert indexed infers
      intro held present
      rw [present] at noConflict
      simpa using noConflict
  | null => exact Except.ok.inj collects ▸ before.literal nofun
  | boolean value => exact Except.ok.inj collects ▸ before.literal nofun
  | integer value => exact Except.ok.inj collects ▸ before.literal nofun
  | floatingPoint value => exact Except.ok.inj collects ▸ before.literal nofun
  | string value => exact Except.ok.inj collects ▸ before.literal nofun

theorem typesOf_foldlM {later : List (FieldPath × SqlValue)} (before : TypesOf schema cells types)
    (collects : later.foldlM (collectValueParameterType schema) types = .ok collected) :
    TypesOf schema (cells ++ later) collected := by
  induction later generalizing cells types with
  | nil =>
      cases collects
      rwa [List.append_nil]
  | cons cell later inductionHypothesis =>
      rw [List.foldlM_cons, bind_eq_ok_iff] at collects
      obtain ⟨next, first, others⟩ := collects
      have after := inductionHypothesis (typesOf_collectValueParameterType before first) others
      rwa [List.append_assoc] at after

theorem typesOf_empty : TypesOf schema [] ∅ where
  typed := nofun
  used := fun _ membership => absurd membership TreeMap.not_mem_emptyc

end Counting

theorem one_le_of_parsePlaceholderIndex {name : String} {index : Nat}
    (indexed : parsePlaceholderIndex name = .ok index) : 1 ≤ index := by
  unfold parsePlaceholderIndex at indexed
  split at indexed
  · obtain ⟨found, _, indexed⟩ := bind_eq_ok_iff.mp indexed
    rw [ite_error_eq_ok_iff] at indexed
    obtain ⟨positive, same⟩ := indexed
    cases same
    omega
  · cases indexed

theorem getElem?_of_collect_range {types : ParameterTypes} {failure : Nat → ProxyError}
    {maximum : Nat} {inferred : List PgType}
    (collects : collect (fun index => okOr types[index]? (failure index))
      ((List.range maximum).map (· + 1)) = .ok inferred)
    {index : Nat} (positive : 1 ≤ index) (below : index ≤ maximum) :
    inferred[index - 1]? = types[index]? := by
  have length : inferred.length = maximum := by
    rw [length_of_collect collects, List.length_map, List.length_range]
  have inside : index - 1 < inferred.length := by omega
  have found := (List.forall₂_iff_get.mp (collect_eq_ok_iff.mp collects)).2 (index - 1)
    (by simpa using by omega) inside
  rw [okOr_eq_ok_iff] at found
  simp only [List.get_eq_getElem, List.getElem_map, List.getElem_range] at found
  rw [Nat.sub_add_cancel positive] at found
  rw [List.getElem?_eq_getElem inside, found]

/-- The types of the parameters: one for each index up to the largest, each that of the fields
with its placeholder. -/
theorem inferParameterTypes_eq_ok {plan : StatementPlan} {schema : SchemaProfile}
    {inferred : List PgType} (infers : inferParameterTypes plan schema = .ok inferred) :
    (∀ cell ∈ planCells plan, ∀ name, cell.2 = .placeholder name → ∃ index parameterType,
      1 ≤ index ∧ parsePlaceholderIndex name = .ok index ∧
        inferFieldParameterType cell.1 schema = .ok parameterType ∧
        inferred[index - 1]? = some parameterType) ∧
      (inferred.length = 0 ∨ ∃ cell ∈ planCells plan, IsNumbered cell inferred.length) := by
  obtain ⟨types, collects, infers⟩ := bind_eq_ok_iff.mp infers
  have typesOf := typesOf_foldlM typesOf_empty collects
  rw [List.nil_append] at typesOf
  cases largest : types.maxKey? with
  | none =>
      rw [largest] at infers
      cases infers
      refine ⟨?_, .inl rfl⟩
      intro cell membership name same
      obtain ⟨index, parameterType, _, _, present⟩ := typesOf.typed cell membership name same
      have empty := Std.TreeMap.maxKey?_eq_none_iff.mp largest
      rw [Std.TreeMap.getElem?_of_isEmpty empty] at present
      cases present
  | some maximum =>
      rw [largest] at infers
      obtain ⟨used, bounded⟩ := Std.TreeMap.maxKey?_eq_some_iff_mem_and_forall.mp largest
      have length : inferred.length = maximum := by
        rw [length_of_collect infers, List.length_map, List.length_range]
      constructor
      · intro cell membership name same
        obtain ⟨index, parameterType, indexed, fieldInfers, present⟩ :=
          typesOf.typed cell membership name same
        have positive := one_le_of_parsePlaceholderIndex indexed
        have below : index ≤ maximum := by
          have listed : index ∈ types :=
            Std.TreeMap.isSome_getElem?_iff_mem.mp (by rw [present]; rfl)
          exact Nat.isLE_compare.mp (bounded index listed)
        exact ⟨index, parameterType, positive, indexed, fieldInfers,
          (getElem?_of_collect_range infers positive below).trans present⟩
      · right
        rw [length]
        exact typesOf.used maximum used

theorem forall₂_of_reconcileParameterTypes {requestedTypes inferredTypes types : List PgType}
    (reconciles : reconcileParameterTypes requestedTypes inferredTypes = .ok types) :
    List.Forall₂ (fun requested inferred =>
      requested = inferred ∨ compatibleParameterType requested inferred = true)
      types inferredTypes := by
  unfold reconcileParameterTypes at reconciles
  split_ifs at reconciles with undeclared differ
  · cases reconciles
    exact List.forall₂_same.mpr fun _ _ => .inl rfl
  · have length := not_not.mp differ
    rw [collect_eq_ok_iff, List.forall₂_iff_get] at reconciles
    obtain ⟨lengths, each⟩ := reconciles
    rw [List.length_zipIdx, List.length_zip, length, Nat.min_self] at lengths
    rw [List.forall₂_iff_get]
    refine ⟨lengths.symm, fun index inside inferredInside => ?_⟩
    have reconciled := each index (by simp [length, inferredInside]) inside
    simp only [List.get_eq_getElem, List.getElem_zipIdx, List.getElem_zip] at reconciled
    split_ifs at reconciled with unknown compatible
    · exact .inl (Except.ok.inj reconciled).symm
    · rw [List.get_eq_getElem, ← Except.ok.inj reconciled]
      exact .inr compatible

/-! ## A prepared statement binds -/

theorem planCells_eq (plan : StatementPlan) : planCells plan = plan.assigned ++ plan.compared := by
  cases plan with
  | select plan =>
      obtain ⟨collection, projection, _ | predicate, limit⟩ := plan
      · rfl
      · exact List.append_nil _
  | insert plan => exact (List.append_nil _).symm
  | update plan => rfl
  | delete plan => rfl

theorem map_snd_planCells {plan : StatementPlan} (shaped : plan.Shaped) :
    (planCells plan).map Prod.snd = plan.values := by
  have compares : ∀ predicate : Predicate,
      (predicateCells predicate).map Prod.snd = predicate.values := by
    intro predicate
    rw [predicateCells, List.map_flatMap, Predicate.values]
    simp
  cases plan with
  | select plan =>
      rw [planCells, List.map_flatMap, StatementPlan.values]
      exact List.flatMap_congr fun predicate _ => compares predicate
  | insert plan =>
      rw [planCells, List.map_flatMap, StatementPlan.values, ← @List.flatMap_id _ plan.rows]
      apply List.flatMap_congr
      intro row membership
      exact List.map_snd_zip (shaped.2.2 row membership).le
  | update plan =>
      rw [planCells, List.map_append, compares, List.map_map]
      rfl
  | delete plan => exact compares plan.filter

/-- The values that the decoder returns for the types, in either format, and none of them
null. -/
def DecodedAs (oid : PgType → Nat) : List PgType → List SqlValue → Prop :=
  List.Forall₂ fun parameterType value => value ≠ .null ∧ ∃ raw format,
    decodeParameter oid raw parameterType format = .ok value

section Prepared

variable {oid : PgType → Nat} {plan : StatementPlan} {schema : SchemaProfile}
  {requestedTypes inferred types : List PgType} {parameters : List SqlValue}

theorem bindValue_of_decoded (infers : inferParameterTypes plan schema = .ok inferred)
    (reconciles : reconcileParameterTypes requestedTypes inferred = .ok types)
    (decoded : DecodedAs oid types parameters) {path : FieldPath} {name : String}
    (membership : (path, SqlValue.placeholder name) ∈ planCells plan) :
    ∃ value, bindValue parameters (.placeholder name) = .ok value ∧
      ∀ nullIsAllowed, validateValue path value schema nullIsAllowed = .ok () := by
  obtain ⟨index, parameterType, positive, indexed, fieldInfers, present⟩ :=
    (inferParameterTypes_eq_ok infers).1 _ membership name rfl
  obtain ⟨inside, isType⟩ := List.getElem?_eq_some_iff.mp present
  obtain ⟨typeCount, eachType⟩ :=
    List.forall₂_iff_get.mp (forall₂_of_reconcileParameterTypes reconciles)
  obtain ⟨valueCount, eachValue⟩ := List.forall₂_iff_get.mp decoded
  have typeInside : index - 1 < types.length := by omega
  have valueInside : index - 1 < parameters.length := by omega
  have agrees := eachType (index - 1) typeInside inside
  obtain ⟨given, raw, format, decodes⟩ := eachValue (index - 1) typeInside valueInside
  simp only [List.get_eq_getElem, isType] at agrees decodes given
  obtain ⟨observedType, typed, _⟩ := shape_of_inferFieldParameterType fieldInfers
  have sameType : types[index - 1].observedType? = some observedType := by
    rcases agrees with same | compatible
    · rw [same, typed]
    · exact observedType_of_compatible typed compatible
  have scalar := (scalarType_of_decodeParameter given decodes).1
  rw [sameType, ← typed] at scalar
  refine ⟨parameters[index - 1], ?_, validateValue_of_inferred fieldInfers scalar⟩
  rw [bindValue, indexed]
  exact okOr_eq_ok_iff.mpr (List.getElem?_eq_getElem valueInside)

theorem maximumPlaceholderIndex_of_inferParameterTypes (shaped : plan.Shaped)
    (infers : inferParameterTypes plan schema = .ok inferred) :
    maximumPlaceholderIndex plan = .ok inferred.length := by
  obtain ⟨typed, largest⟩ := inferParameterTypes_eq_ok infers
  rw [maximumPlaceholderIndex_eq, tryMaximum_eq_ok_iff, ← map_snd_planCells shaped,
    List.forall_mem_map]
  constructor
  · rintro ⟨path, value⟩ membership
    cases value with
    | placeholder name =>
        obtain ⟨index, _, positive, indexed, _, present⟩ := typed _ membership name rfl
        obtain ⟨inside, _⟩ := List.getElem?_eq_some_iff.mp present
        exact ⟨index, by omega, indexed⟩
    | _ => exact ⟨0, Nat.zero_le _, rfl⟩
  · apply largest.imp_right
    rintro ⟨⟨path, value⟩, membership, name, same, indexed⟩
    cases same
    exact ⟨_, List.mem_map_of_mem membership, indexed⟩

/-- A validated plan binds every list of values decoded for its types. -/
theorem isPlaceholder_of_decoded (decoded : DecodedAs oid types parameters) :
    ∀ value ∈ parameters, value.isPlaceholder = false := by
  intro value membership
  obtain ⟨index, inside, rfl⟩ := List.getElem_of_mem membership
  obtain ⟨count, each⟩ := List.forall₂_iff_get.mp decoded
  obtain ⟨given, raw, format, decodes⟩ := each index (by omega) inside
  have scalar := (scalarType_of_decodeParameter given decodes).2
  rw [List.get_eq_getElem] at scalar
  cases bound : parameters[index] with
  | placeholder name =>
      rw [bound] at scalar
      exact absurd rfl scalar
  | _ => rfl

theorem bindable_of_decoded (infers : inferParameterTypes plan schema = .ok inferred)
    (reconciles : reconcileParameterTypes requestedTypes inferred = .ok types)
    (decoded : DecodedAs oid types parameters) :
    ∀ cell ∈ planCells plan, Bindable parameters cell.2 ∧ ∀ nullIsAllowed,
      validateValue cell.1 cell.2 schema nullIsAllowed = .ok () →
        validateValue cell.1 (boundValue parameters cell.2) schema nullIsAllowed = .ok () := by
  rintro ⟨path, value⟩ membership
  cases value with
  | placeholder name =>
      obtain ⟨value, binds, valid⟩ := bindValue_of_decoded infers reconciles decoded membership
      refine ⟨⟨value, binds⟩, fun nullIsAllowed _ => ?_⟩
      rw [boundValue, binds]
      exact valid nullIsAllowed
  | _ => exact ⟨⟨_, rfl⟩, fun _ valid => valid⟩

theorem bindParameters_of_decoded (conforms : plan.Conforms schema)
    (validated : validateBoundPlan plan schema = .ok ())
    (infers : inferParameterTypes plan schema = .ok inferred)
    (reconciles : reconcileParameterTypes requestedTypes inferred = .ok types)
    (decoded : DecodedAs oid types parameters) :
    bindParameters plan parameters schema = .ok (plan.mapValues (boundValue parameters)) := by
  have kept := bindable_of_decoded infers reconciles decoded
  rw [planCells_eq, List.forall_mem_append] at kept
  have count := (forall₂_of_reconcileParameterTypes reconciles).length_eq
  refine bindParameters_eq_ok_iff.mpr ⟨?_, ?_, bindPlan_eq_ok_iff.mpr ⟨?_, rfl⟩, ?_⟩
  · rw [List.any_eq_false]
    intro value membership
    rw [isPlaceholder_of_decoded decoded value membership]
    exact Bool.false_ne_true
  · rw [maximumPlaceholderIndex_of_inferParameterTypes conforms.shaped infers, ← count,
      List.Forall₂.length_eq decoded]
  · rw [← map_snd_planCells conforms.shaped, List.forall_mem_map, planCells_eq,
      List.forall_mem_append]
    exact ⟨fun cell membership => (kept.1 cell membership).1,
      fun cell membership => (kept.2 cell membership).1⟩
  · obtain ⟨assigned, compared⟩ :=
      (validateBoundPlan_eq_ok_iff conforms.conditions_listed).mp validated
    rw [validateBoundPlan_eq_ok_iff (StatementPlan.listed_mapValues _ conforms.conditions_listed),
      StatementPlan.assigned_mapValues, StatementPlan.compared_mapValues, List.forall_mem_map,
      List.forall_mem_map]
    exact ⟨fun cell membership => (kept.1 cell membership).2 true (assigned cell membership),
      fun cell membership => (kept.2 cell membership).2 false (compared cell membership)⟩

end Prepared

/-- A prepared statement binds every list of values decoded for its types, to a plan without
placeholders.  The types are as many as the parameters that binding counts, and a parameter
type has no value that the type policy refuses. -/
theorem bindParameters_of_prepareStatement {parser : Parser} {query : String}
    {requestedTypes : List PgType} {profiles : CollectionProfiles} {prepared : PreparedStatement}
    (ordinary : isCatalogOrSessionQuery query = false)
    (prepares : prepareStatement parser query requestedTypes profiles = .ok prepared)
    (oid : PgType → Nat) :
    (∃ plan schema inferred, parseSqlForProfiles parser query profiles = .ok plan ∧
      schemaForPlanFromProfiles plan profiles = .ok schema ∧
      inferParameterTypes plan schema = .ok inferred ∧
      inferred.length = prepared.parameterTypes.length ∧
      maximumPlaceholderIndex plan = .ok prepared.parameterTypes.length ∧
      ∀ parameters, DecodedAs oid prepared.parameterTypes parameters →
        ∃ bound, bindParameters plan parameters schema = .ok bound ∧
          ∀ value ∈ bound.values, value.isPlaceholder = false) ∧
      ∀ schema path inferred requested, inferFieldParameterType path schema = .ok inferred →
        compatibleParameterType requested inferred = true → ∀ raw format value,
          decodeParameter oid raw requested format = .ok value → value ≠ .null →
            ∀ nullIsAllowed, validateValue path value schema nullIsAllowed = .ok () := by
  constructor
  · rw [prepareStatement, ordinary, if_neg (by decide)] at prepares
    obtain ⟨plan, parsed, prepares⟩ := bind_eq_ok_iff.mp prepares
    obtain ⟨schema, found, prepares⟩ := bind_eq_ok_iff.mp prepares
    obtain ⟨inferred, infers, prepares⟩ := bind_eq_ok_iff.mp prepares
    obtain ⟨types, reconciles, same⟩ := bind_eq_ok_iff.mp prepares
    cases same
    obtain ⟨statement, profile, _, listed, lowered⟩ := lowered_of_parseSqlForProfiles parsed
    have sameSchema : profile = schema :=
      Option.some.inj (listed.symm.trans (okOr_eq_ok_iff.mp found))
    subst sameSchema
    have conforms := lowerStatement_conforms lowered
    have count := (forall₂_of_reconcileParameterTypes reconciles).length_eq
    refine ⟨plan, profile, inferred, parsed, found, infers, count.symm, ?_, ?_⟩
    · rw [maximumPlaceholderIndex_of_inferParameterTypes conforms.shaped infers, ← count]
    · intro parameters decoded
      have binds := bindParameters_of_decoded conforms
        (validateBoundPlan_of_lowerStatement lowered) infers reconciles decoded
      exact ⟨_, binds, (bindParameters_wellFormed (lowerStatement_wellFormed lowered) binds).2.2⟩
  · intro schema path inferred requested infers compatible raw format value decodes given
    obtain ⟨observedType, typed, _⟩ := shape_of_inferFieldParameterType infers
    have scalar := (scalarType_of_decodeParameter given decodes).1
    rw [observedType_of_compatible typed compatible, ← typed] at scalar
    exact validateValue_of_inferred infers scalar

section Example

/-- `SELECT name FROM people WHERE name = $1` -/
private def selectPerson : Ast.Statement :=
  let name : Ast.Expr := .identifier (.new "name")
  let condition : Ast.Expr := .binaryOp name .eq (.value (.placeholder "$1"))
  .query (.limited (.select (.fromTable [.unnamedExpr name] "people" (some condition))) none)

private def personNames : SchemaProfile where
  profileVersion := 1
  sampledDocuments := 1
  fields := [⟨⟨["name"]⟩, 1, 0, {.string}, {.scalar}, false⟩]

private def selectedPerson : StatementPlan :=
  .select ⟨"people", .fields [⟨⟨["name"]⟩, none⟩],
    some (.compare ⟨["name"]⟩ .equal (.placeholder "$1")), none⟩

private theorem inferParameterTypes_selectedPerson :
    inferParameterTypes selectedPerson personNames = .ok [.text] := by
  have largest : ((∅ : ParameterTypes).insert 1 .text).maxKey? = some 1 := by
    rw [Std.TreeMap.maxKey?_insert, Std.TreeMap.maxKey?_emptyc]
    rfl
  refine bind_eq_ok_iff.mpr ⟨(∅ : ParameterTypes).insert 1 .text, rfl, ?_⟩
  rw [largest]
  rfl

private theorem ordinary_selectPerson :
    isCatalogOrSessionQuery "SELECT name FROM people WHERE name = $1" = false := by decide

private theorem prepareStatement_selectPerson :
    prepareStatement (fun _ => .ok [selectPerson]) "SELECT name FROM people WHERE name = $1"
        [.varchar] (.ofList [("people", personNames)]) =
      .ok ⟨"SELECT name FROM people WHERE name = $1", [.varchar]⟩ := by
  rw [prepareStatement, ordinary_selectPerson]
  exact bind_eq_ok_iff.mpr ⟨selectedPerson, rfl, bind_eq_ok_iff.mpr ⟨personNames, rfl,
    bind_eq_ok_iff.mpr ⟨[.text], inferParameterTypes_selectedPerson, rfl⟩⟩⟩

/-- A client that declares `varchar` for a text field. -/
theorem bindParameters_selectPerson :
    (∃ plan schema inferred,
      parseSqlForProfiles (fun _ => .ok [selectPerson])
        "SELECT name FROM people WHERE name = $1" (.ofList [("people", personNames)]) = .ok plan ∧
      schemaForPlanFromProfiles plan (.ofList [("people", personNames)]) = .ok schema ∧
      inferParameterTypes plan schema = .ok inferred ∧
      inferred.length = 1 ∧ maximumPlaceholderIndex plan = .ok 1 ∧
      ∀ parameters, DecodedAs (fun _ => 0) [.varchar] parameters →
        ∃ bound, bindParameters plan parameters schema = .ok bound ∧
          ∀ value ∈ bound.values, value.isPlaceholder = false) ∧
      ∀ schema path inferred requested, inferFieldParameterType path schema = .ok inferred →
        compatibleParameterType requested inferred = true → ∀ raw format value,
          decodeParameter (fun _ => 0) raw requested format = .ok value → value ≠ .null →
            ∀ nullIsAllowed, validateValue path value schema nullIsAllowed = .ok () := by
  have binds := bindParameters_of_prepareStatement ordinary_selectPerson
    prepareStatement_selectPerson fun _ => 0
  exact binds

end Example

end Mongres
