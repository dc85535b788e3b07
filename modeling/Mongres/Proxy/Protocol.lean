import Mongres.Proxy.Description
import Mongres.Proxy.Interception
import Mongres.Proxy.Isolation
import Mongres.Proxy.Lossless
import Mongres.Sql.Literals

/-!
# The wire protocol

The handlers of the simple and the extended query protocol: a portal brings the bytes of its
parameters, and every result or error is put into the form that goes over the wire.
-/

namespace Mongres

open Fallible

/-! ## Formats -/

/-- The formats of the parameters or of the columns of a portal, by code where they differ. -/
inductive Format where
  | unifiedText
  | unifiedBinary
  | individual (codes : List Int16)

section Formats

-- How a format code is read.
variable (ofCode : Int16 → FieldFormat)

/-- The format at an index; a list of codes that is too short is indexed out of its bounds. -/
def Format.formatFor (format : Format) (index : Nat) : Option FieldFormat :=
  match format with
  | .unifiedText => some .text
  | .unifiedBinary => some .binary
  | .individual codes => codes[index]?.map ofCode

/-- A format for each of some columns; only a list of codes can be too short. -/
def Format.Covers (format : Format) (count : Nat) : Prop :=
  ∀ codes, format = .individual codes → count ≤ codes.length

theorem Format.isSome_formatFor {format : Format} {count index : Nat}
    (covers : format.Covers count) (inside : index < count) :
    (format.formatFor ofCode index).isSome = true := by
  cases format with
  | individual codes =>
      have bound := inside.trans_le (covers codes rfl)
      rw [Format.formatFor, Option.isSome_map, List.getElem?_eq_getElem bound]
      rfl
  | _ => rfl

/-- The format of a parameter, for which a short list of codes is an error. -/
def parameterFormat (format : Format) (index : Nat) : Result FieldFormat :=
  okOr (format.formatFor ofCode index)
    (invalidInput "extended-query parameter format count does not match parameter count")

end Formats

/-! ## Responses -/

def postgresType : SqlType → PgType
  | .boolean => .bool
  | .bigInt => .int8
  | .doublePrecision => .float8
  | .text => .text
  | .timestampWithTimeZone => .other "timestamptz"
  | .jsonb => .other "jsonb"

structure FieldInfo where
  name : String
  dataType : PgType
  format : FieldFormat

def WireField.fieldInfo (field : WireField) (format : FieldFormat) : FieldInfo where
  name := field.name
  dataType := postgresType field.sqlType
  format

def fieldInfos (ofCode : Int16 → FieldFormat) (format : Format) (fields : List WireField) :
    Option (List FieldInfo) :=
  fields.zipIdx.mapM fun (field, index) => (format.formatFor ofCode index).map field.fieldInfo

theorem isSome_mapM_iff {α β : Type} {translate : α → Option β} {elements : List α} :
    (elements.mapM translate).isSome = true ↔
      ∀ element ∈ elements, (translate element).isSome = true := by
  induction elements with
  | nil => exact iff_of_true rfl nofun
  | cons element elements inductionHypothesis =>
      rw [List.forall_mem_cons, ← inductionHypothesis, List.mapM_cons]
      cases translate element with
      | none => simp
      | some value => cases elements.mapM translate <;> simp

theorem isSome_fieldInfos_iff {ofCode : Int16 → FieldFormat} {format : Format}
    {fields : List WireField} :
    (fieldInfos ofCode format fields).isSome = true ↔ format.Covers fields.length := by
  rw [fieldInfos, isSome_mapM_iff]
  constructor
  · rintro each codes rfl
    by_contra short
    rw [not_le] at short
    have inside : (fields[codes.length], codes.length) ∈ fields.zipIdx :=
      List.mk_mem_zipIdx_iff_getElem?.mpr (List.getElem?_eq_getElem short)
    have present := each _ inside
    rw [Option.isSome_map, Format.formatFor, Option.isSome_map,
      List.getElem?_eq_none (le_refl _)] at present
    cases present
  · rintro covers ⟨field, index⟩ membership
    rw [Option.isSome_map]
    obtain ⟨inside, _⟩ :=
      List.getElem?_eq_some_iff.mp (List.mk_mem_zipIdx_iff_getElem?.mp membership)
    exact Format.isSome_formatFor ofCode covers inside

inductive Response where
  | execution (tag : String) (rows : UInt64)
  | query (schema : List FieldInfo) (rows : List (List WireValue))

def responseFromResult (ofCode : Int16 → FieldFormat) (format : Format) :
    ExecutionResult → Option Response
  | .command command => some (.execution command.tag command.rows)
  | .query fields rows => (fieldInfos ofCode format fields).map fun schema => .query schema rows

structure ErrorInfo where
  severity : String
  code : String
  message : String

def proxyErrorToPgwire (error : ProxyError) : ErrorInfo where
  severity := "ERROR"
  code := error.kind.sqlState
  message := error.message

/-- What goes over the wire for a result; there is no response if a format is missing. -/
def wireReply (ofCode : Int16 → FieldFormat) (format : Format) (result : Result ExecutionResult) :
    Except ErrorInfo (Option Response) :=
  (result.mapError proxyErrorToPgwire).map (responseFromResult ofCode format)

/-! ## Portals -/

/-- A prepared statement with the bytes of its parameters. -/
structure Portal where
  statement : PreparedStatement
  parameters : List (Option ByteArray)
  parameterFormat : Format
  resultColumnFormat : Format

def parameterCountMismatch (supplied declared : Nat) : ProxyError := invalidInput
  s!"prepared statement supplies {supplied} values but declares {declared} parameter types; explicit supported PostgreSQL OIDs are required"

def portalParameters (oid : PgType → Nat) (ofCode : Int16 → FieldFormat) (portal : Portal) :
    Result (List SqlValue) :=
  let parameterTypes := portal.statement.parameterTypes
  if portal.parameters.length ≠ parameterTypes.length then
    .error (parameterCountMismatch portal.parameters.length parameterTypes.length)
  else
    collect (fun ((value, parameterType), index) => do
      let format ← Mongres.parameterFormat ofCode portal.parameterFormat index
      decodeParameter oid value parameterType format)
      (portal.parameters.zip parameterTypes).zipIdx

/-! ## Handlers -/

def parseSql (parser : Parser) (profiles : CollectionProfiles) (sql : String)
    (types : List PgType) : Except ErrorInfo PreparedStatement :=
  (prepareStatement parser sql types profiles).mapError proxyErrorToPgwire

namespace ProxyBackend

variable (backend : ProxyBackend) (services : Services) (oid : PgType → Nat)
  (ofCode : Int16 → FieldFormat)

def doQuery (query : String) (state : BackendState) :
    Except ErrorInfo (Option Response) × BackendState :=
  let (result, state) := backend.execute services query state
  (wireReply ofCode .unifiedText result, state)

def doQueryPortal (portal : Portal) (state : BackendState) :
    Except ErrorInfo (Option Response) × BackendState :=
  match portalParameters oid ofCode portal with
  | .error error => (.error (proxyErrorToPgwire error), state)
  | .ok parameters =>
      let (result, state) := backend.executeBound services portal.statement.sql parameters state
      (wireReply ofCode portal.resultColumnFormat result, state)

/-- The parameter types of a statement and its columns, whose format is not known yet. -/
def doDescribeStatement (statement : PreparedStatement) (state : BackendState) :
    Except ErrorInfo (List PgType × List FieldInfo) × BackendState :=
  let (result, state) := backend.describe services statement.sql state
  ((result.mapError proxyErrorToPgwire).map fun fields =>
    (statement.parameterTypes, fields.map fun field => field.fieldInfo .text), state)

def doDescribePortal (portal : Portal) (state : BackendState) :
    Except ErrorInfo (Option (List FieldInfo)) × BackendState :=
  let (result, state) := backend.describe services portal.statement.sql state
  ((result.mapError proxyErrorToPgwire).map (fieldInfos ofCode portal.resultColumnFormat), state)

end ProxyBackend

/-! ## The parameters of a portal -/

section Parameters

variable {oid : PgType → Nat} {ofCode : Int16 → FieldFormat} {portal : Portal}
  {parameters : List SqlValue}

theorem portalParameters_eq_ok (decodes : portalParameters oid ofCode portal = .ok parameters) :
    List.Forall₂ (fun parameterType value => ∃ raw format,
      decodeParameter oid raw parameterType format = .ok value)
      portal.statement.parameterTypes parameters := by
  unfold portalParameters at decodes
  dsimp only at decodes
  rw [ite_error_eq_ok_iff, not_not, collect_eq_ok_iff, List.forall₂_iff_get] at decodes
  obtain ⟨count, lengths, each⟩ := decodes
  rw [List.length_zipIdx, List.length_zip, count, Nat.min_self] at lengths
  refine List.forall₂_iff_get.mpr ⟨lengths, fun index typed inside => ?_⟩
  have decoded := each index (by simpa [count] using typed) inside
  obtain ⟨format, _, decoded⟩ := bind_eq_ok_iff.mp decoded
  simp only [List.get_eq_getElem, List.getElem_zipIdx, List.getElem_zip] at decoded ⊢
  exact ⟨_, format, decoded⟩

theorem decodedAs_of_portalParameters
    (decodes : portalParameters oid ofCode portal = .ok parameters) (given : .null ∉ parameters) :
    DecodedAs oid portal.statement.parameterTypes parameters := by
  have decoded := portalParameters_eq_ok decodes
  rw [List.forall₂_iff_get] at decoded
  refine List.forall₂_iff_get.mpr ⟨decoded.1, fun index typed inside => ⟨?_, ?_⟩⟩
  · intro null
    exact given (null ▸ List.get_mem parameters ⟨index, inside⟩)
  · exact decoded.2 index typed inside

end Parameters

/-! ## Literals in the place of parameters -/

theorem collectionNameFromStatement_substitute (literals : List Literal)
    (statement : Ast.Statement) :
    collectionNameFromStatement (statement.substitute literals) =
      collectionNameFromStatement statement := by
  cases statement with
  | query query =>
      change collectionNameFromQuery (query.substitute literals) = collectionNameFromQuery query
      unfold collectionNameFromQuery Ast.Query.substitute
      cases query.body <;> rfl
  | _ => rfl

section Literals

variable {statement : Ast.Statement} {literals : List Literal} {collection : String}
  {schema : SchemaProfile} {lowered : StatementPlan}

theorem parseSqlForProfiles_substitute {parser : Parser} {sql text : String}
    {profiles : CollectionProfiles} (parsed : parser sql = .ok [statement])
    (written : parser text = .ok [statement.substitute literals])
    (lowers : parseSqlForProfiles parser sql profiles = .ok lowered) :
    ∃ schema, schemaForPlanFromProfiles lowered profiles = .ok schema ∧
      lowerStatement statement (collectionFromPlan lowered) schema = .ok lowered ∧
      parseSqlForProfiles parser text profiles =
        lowerStatement (statement.substitute literals) (collectionFromPlan lowered) schema := by
  obtain ⟨_, read, lowers⟩ := bind_eq_ok_iff.mp lowers
  cases List.singleton_inj.mp
    (Except.ok.inj ((parseOneStatement_eq_ok_iff.mp read).symm.trans parsed))
  obtain ⟨named, names, lowers⟩ := bind_eq_ok_iff.mp lowers
  obtain ⟨schema, listed, lowers⟩ := bind_eq_ok_iff.mp lowers
  obtain ⟨_, rfl⟩ := isOver_of_lowerStatement lowers
  have writtenRead : parseOneStatement parser text = .ok (statement.substitute literals) :=
    parseOneStatement_eq_ok_iff.mpr written
  refine ⟨schema, okOr_eq_ok_iff.mpr (okOr_eq_ok_iff.mp listed), lowers, ?_⟩
  rw [parseSqlForProfiles, writtenRead]
  change (collectionNameFromStatement (statement.substitute literals) >>= _) = _
  rw [collectionNameFromStatement_substitute, names]
  change (okOr _ _ >>= _) = _
  rw [listed]
  rfl

/-- Placeholders that are spelled as numbers and have got types are numbered without gaps at
their end. -/
theorem numbered_of_inferParameterTypes {inferred : List PgType}
    (lowers : lowerStatement statement collection schema = .ok lowered)
    (infers : inferParameterTypes lowered schema = .ok inferred)
    (canonical : ∀ name ∈ statement.placeholders,
      ∃ index, 1 ≤ index ∧ index < 2 ^ 64 ∧ name = placeholderName index) :
    statement.Numbered inferred.length ∧ inferred.length < 2 ^ 64 := by
  have shaped := (lowerStatement_conforms lowers).shaped
  obtain ⟨typed, largest⟩ := inferParameterTypes_eq_ok infers
  have spelled (name : String) : name ∈ statement.placeholders ↔
      ∃ cell ∈ planCells lowered, cell.2 = .placeholder name := by
    rw [← placeholders_of_lowerStatement lowers, ← map_snd_planCells shaped, List.flatMap_map,
      List.mem_flatMap]
    refine exists_congr fun cell => and_congr_right fun _ => ?_
    cases cell.2 <;> simp [SqlValue.placeholders, eq_comm]
  have index_of {name : String} (membership : name ∈ statement.placeholders) {index : Nat}
      (indexed : parsePlaceholderIndex name = .ok index) :
      1 ≤ index ∧ index < 2 ^ 64 ∧ name = placeholderName index := by
    obtain ⟨number, positive, small, rfl⟩ := canonical name membership
    cases indexed.symm.trans (parsePlaceholderIndex_placeholderName positive small)
    exact ⟨positive, small, rfl⟩
  have last : inferred.length ≠ 0 →
      inferred.length < 2 ^ 64 ∧ placeholderName inferred.length ∈ statement.placeholders := by
    intro some
    obtain ⟨cell, membership, name, same, indexed⟩ := largest.resolve_left some
    have present := (spelled name).mpr ⟨cell, membership, same⟩
    obtain ⟨_, small, rfl⟩ := index_of present indexed
    exact ⟨small, present⟩
  refine ⟨⟨?_, fun some => (last some).2⟩, ?_⟩
  · intro name membership
    obtain ⟨cell, inside, same⟩ := (spelled name).mp membership
    obtain ⟨index, _, positive, indexed, _, present⟩ := typed cell inside name same
    obtain ⟨_, _, spelling⟩ := index_of membership indexed
    obtain ⟨below, _⟩ := List.getElem?_eq_some_iff.mp present
    exact ⟨index, positive, by omega, spelling⟩
  · by_cases none : inferred.length = 0
    · omega
    · exact (last none).1

theorem bindParameters_literals_eq_ok_iff (numbered : statement.Numbered literals.length)
    (fits : literals.length < 2 ^ 64)
    (lowers : lowerStatement statement collection schema = .ok lowered) {plan : StatementPlan} :
    bindParameters lowered (literals.map Literal.value) schema = .ok plan ↔
      lowerStatement (statement.substitute literals) collection schema = .ok plan := by
  have values : (literals.map Literal.value).any SqlValue.isPlaceholder = false := by
    simp [Literal.isPlaceholder_value]
  have bound := boundValue_eq_replace numbered fits lowers
  have replaced : lowered.mapValues (boundValue (literals.map Literal.value)) =
      lowered.mapValues (Literal.replace literals) :=
    StatementPlan.mapValues_congr fun value membership => (bound value membership).2
  rw [lowerStatement_substitute_eq_ok_iff, bindParameters_eq_ok_iff, bindPlan_eq_ok_iff, replaced,
    List.length_map, maximumPlaceholderIndex_of_numbered numbered fits lowers]
  constructor
  · intro binds
    obtain ⟨_, _, ⟨_, same⟩, validated⟩ := binds
    exact ⟨lowered, lowers, same, validated⟩
  · intro writes
    obtain ⟨other, lowersOther, same, validated⟩ := writes
    cases lowers.symm.trans lowersOther
    exact ⟨values, rfl, ⟨fun value membership => (bound value membership).1, same⟩, validated⟩

end Literals

/-! ## A portal and its statement with the literals written out -/

/-- A portal over a prepared statement, whose parameters are the values of literals, and a text
that has these literals in the place of the placeholders. -/
structure Portal.IsWritten (backend : ProxyBackend) (parser : Parser) (oid : PgType → Nat)
    (ofCode : Int16 → FieldFormat) (portal : Portal) (statement : Ast.Statement)
    (literals : List Literal) (text : String) : Prop where
  ordinary : isCatalogOrSessionQuery portal.statement.sql = false
  prepared : ∃ requestedTypes, prepareStatement parser portal.statement.sql requestedTypes
    backend.profiles = .ok portal.statement
  parsed : parser portal.statement.sql = .ok [statement]
  canonical : ∀ name ∈ statement.placeholders,
    ∃ index, 1 ≤ index ∧ index < 2 ^ 64 ∧ name = placeholderName index
  decodes : portalParameters oid ofCode portal = .ok (literals.map Literal.value)
  written : parser text = .ok [statement.substitute literals]

section Written

variable {backend : ProxyBackend} {services : Services} {oid : PgType → Nat}
  {ofCode : Int16 → FieldFormat} {portal : Portal} {statement : Ast.Statement}
  {literals : List Literal} {text : String}

/-- The statement of a portal is lowered, and its parameters can be bound exactly when the text is
lowered, to the same plan; without a null among them they can. -/
theorem Portal.IsWritten.binds
    (written : portal.IsWritten backend services.parser oid ofCode statement literals text) :
    ∃ lowered schema,
      parseSqlForProfiles services.parser portal.statement.sql backend.profiles = .ok lowered ∧
      schemaForPlanFromProfiles lowered backend.profiles = .ok schema ∧
      (∀ plan, bindParameters lowered (literals.map Literal.value) schema = .ok plan ↔
        parseSqlForProfiles services.parser text backend.profiles = .ok plan) ∧
      (.null ∉ literals →
        ∃ plan, bindParameters lowered (literals.map Literal.value) schema = .ok plan) := by
  obtain ⟨requestedTypes, prepares⟩ := written.prepared
  rw [prepareStatement, written.ordinary, if_neg (by decide)] at prepares
  obtain ⟨lowered, lowers, prepares⟩ := bind_eq_ok_iff.mp prepares
  obtain ⟨schema, found, prepares⟩ := bind_eq_ok_iff.mp prepares
  obtain ⟨inferred, infers, prepares⟩ := bind_eq_ok_iff.mp prepares
  obtain ⟨types, reconciles, same⟩ := bind_eq_ok_iff.mp prepares
  have typed : portal.statement.parameterTypes = types :=
    (congrArg PreparedStatement.parameterTypes (Except.ok.inj same)).symm
  obtain ⟨profile, listed, lowersOver, textLowers⟩ :=
    parseSqlForProfiles_substitute written.parsed written.written lowers
  cases Except.ok.inj (found.symm.trans listed)
  obtain ⟨numbered, fits⟩ := numbered_of_inferParameterTypes lowersOver infers written.canonical
  have declared := (forall₂_of_reconcileParameterTypes reconciles).length_eq
  have supplied := (portalParameters_eq_ok written.decodes).length_eq
  rw [List.length_map, typed, declared] at supplied
  rw [supplied] at numbered fits
  refine ⟨lowered, schema, lowers, found, ?_, ?_⟩
  · intro plan
    rw [textLowers]
    exact bindParameters_literals_eq_ok_iff numbered fits lowersOver
  · intro given
    have notNull : .null ∉ literals.map Literal.value := by
      intro null
      obtain ⟨literal, membership, isNull⟩ := List.mem_map.mp null
      cases literal with
      | null => exact given membership
      | _ => cases isNull
    have decoded := decodedAs_of_portalParameters written.decodes notNull
    rw [typed] at decoded
    exact ⟨_, bindParameters_of_decoded (lowerStatement_conforms lowersOver)
      (validateBoundPlan_of_lowerStatement lowersOver) infers reconciles decoded⟩

variable (backend services oid ofCode)

/-- A portal executes the plan that a text has for the parser; or a null is refused in both. -/
def ExecutesText (portal : Portal) (literals : List Literal) (text : String)
    (state : BackendState) : Prop :=
  (∃ plan, parseSqlForProfiles services.parser text backend.profiles = .ok plan ∧
    backend.doQueryPortal services oid ofCode portal state =
      (wireReply ofCode portal.resultColumnFormat (backend.executePlan services plan state).1,
        (backend.executePlan services plan state).2)) ∨
  .null ∈ literals ∧ ∃ error textError : ProxyError,
    parseSqlForProfiles services.parser text backend.profiles = .error textError ∧
      backend.doQueryPortal services oid ofCode portal state =
        (.error (proxyErrorToPgwire error), state)

/-- What a portal and a text have in common: both reply alike, each in its formats, and leave the
same effects; or a null is refused in both, of which only the text leaves a diagnostic; or the
text is intercepted, which the portal is not. -/
inductive SameReplies (portal : Portal) (literals : List Literal) (text : String)
    (state : BackendState) : Prop where
  | executed (result : Result ExecutionResult) (after : BackendState) :
      backend.doQueryPortal services oid ofCode portal state =
        (wireReply ofCode portal.resultColumnFormat result, after) →
      backend.doQuery services ofCode text state = (wireReply ofCode .unifiedText result, after) →
      SameReplies portal literals text state
  | refused (error textError : ProxyError) :
      .null ∈ literals →
      backend.doQueryPortal services oid ofCode portal state =
        (.error (proxyErrorToPgwire error), state) →
      backend.doQuery services ofCode text state =
        (.error (proxyErrorToPgwire textError), logRejectedClientStatement text textError state) →
      SameReplies portal literals text state
  | intercepted (result : ExecutionResult) :
      isCatalogOrSessionQuery text = true →
      backend.doQuery services ofCode text state =
        (wireReply ofCode .unifiedText (.ok result), state) →
      ExecutesText backend services oid ofCode portal literals text state →
      SameReplies portal literals text state

variable {backend services oid ofCode}

theorem catalogOrSessionQuery_of_ordinary {query : String}
    (ordinary : isCatalogOrSessionQuery query = false) :
    catalogOrSessionQuery backend.databaseName backend.catalog query = none :=
  (catalogOrSessionQuery_eq_none_iff _ _ _).mpr
    ((isCatalogOrSessionQuery_eq_false_iff _).mp ordinary)

section Replies

variable {state : BackendState} {lowered plan : StatementPlan} {schema : SchemaProfile}
  {parameters : List SqlValue} {error : ProxyError}

theorem doQueryPortal_of_decoded
    (decodes : portalParameters oid ofCode portal = .ok parameters) :
    backend.doQueryPortal services oid ofCode portal state =
      (wireReply ofCode portal.resultColumnFormat
          (backend.executeBound services portal.statement.sql parameters state).1,
        (backend.executeBound services portal.statement.sql parameters state).2) := by
  unfold ProxyBackend.doQueryPortal
  rw [decodes]

theorem doQueryPortal_of_undecoded
    (undecoded : portalParameters oid ofCode portal = .error error) :
    backend.doQueryPortal services oid ofCode portal state =
      (.error (proxyErrorToPgwire error), state) := by
  unfold ProxyBackend.doQueryPortal
  rw [undecoded]

theorem doQueryPortal_of_bound (ordinary : isCatalogOrSessionQuery portal.statement.sql = false)
    (decodes : portalParameters oid ofCode portal = .ok parameters)
    (lowers : parseSqlForProfiles services.parser portal.statement.sql backend.profiles =
      .ok lowered)
    (found : schemaForPlanFromProfiles lowered backend.profiles = .ok schema)
    (binds : bindParameters lowered parameters schema = .ok plan) :
    backend.doQueryPortal services oid ofCode portal state =
      (wireReply ofCode portal.resultColumnFormat (backend.executePlan services plan state).1,
        (backend.executePlan services plan state).2) := by
  rw [doQueryPortal_of_decoded decodes]
  unfold ProxyBackend.executeBound ProxyBackend.executeBoundParsed ProxyBackend.withPlan
  rw [catalogOrSessionQuery_of_ordinary ordinary, lowers]
  dsimp only
  rw [found]
  dsimp only
  rw [binds]

theorem doQueryPortal_of_unbound (ordinary : isCatalogOrSessionQuery portal.statement.sql = false)
    (decodes : portalParameters oid ofCode portal = .ok parameters)
    (lowers : parseSqlForProfiles services.parser portal.statement.sql backend.profiles =
      .ok lowered)
    (found : schemaForPlanFromProfiles lowered backend.profiles = .ok schema)
    (unbound : bindParameters lowered parameters schema = .error error) :
    backend.doQueryPortal services oid ofCode portal state =
      (.error (proxyErrorToPgwire error), state) := by
  rw [doQueryPortal_of_decoded decodes]
  unfold ProxyBackend.executeBound ProxyBackend.executeBoundParsed ProxyBackend.withPlan
  rw [catalogOrSessionQuery_of_ordinary ordinary, lowers]
  dsimp only
  rw [found]
  dsimp only
  rw [unbound]
  rfl

theorem doQuery_of_lowered (ordinary : isCatalogOrSessionQuery text = false)
    (lowers : parseSqlForProfiles services.parser text backend.profiles = .ok plan) :
    backend.doQuery services ofCode text state =
      (wireReply ofCode .unifiedText (backend.executePlan services plan state).1,
        (backend.executePlan services plan state).2) := by
  unfold ProxyBackend.doQuery ProxyBackend.execute ProxyBackend.executeParsed ProxyBackend.withPlan
  rw [catalogOrSessionQuery_of_ordinary ordinary]
  dsimp only
  rw [lowers]

theorem doQuery_of_refused (ordinary : isCatalogOrSessionQuery text = false)
    (refused : parseSqlForProfiles services.parser text backend.profiles = .error error) :
    backend.doQuery services ofCode text state =
      (.error (proxyErrorToPgwire error), logRejectedClientStatement text error state) := by
  unfold ProxyBackend.doQuery ProxyBackend.execute ProxyBackend.executeParsed ProxyBackend.withPlan
  rw [catalogOrSessionQuery_of_ordinary ordinary]
  dsimp only
  rw [refused]
  rfl

theorem exists_doQuery_of_intercepted (intercepted : isCatalogOrSessionQuery text = true) :
    ∃ result, backend.doQuery services ofCode text state =
      (wireReply ofCode .unifiedText (.ok result), state) := by
  cases canned : catalogOrSessionQuery backend.databaseName backend.catalog text with
  | some result =>
      refine ⟨result, ?_⟩
      unfold ProxyBackend.doQuery ProxyBackend.execute
      rw [canned]
  | none =>
      have ordinary := (isCatalogOrSessionQuery_eq_false_iff text).mpr
        ((catalogOrSessionQuery_eq_none_iff _ _ _).mp canned)
      cases intercepted.symm.trans ordinary

end Replies

/-- Executing a portal is executing its statement with the parameters written out as literals. -/
theorem doQueryPortal_of_isWritten
    (written : portal.IsWritten backend services.parser oid ofCode statement literals text)
    (state : BackendState) :
    SameReplies backend services oid ofCode portal literals text state := by
  obtain ⟨lowered, schema, lowers, found, binds, given⟩ := written.binds
  have portalReplies : ExecutesText backend services oid ofCode portal literals text state := by
    cases bound : bindParameters lowered (literals.map Literal.value) schema with
    | ok plan =>
        exact .inl ⟨plan, (binds plan).mp bound,
          doQueryPortal_of_bound written.ordinary written.decodes lowers found bound⟩
    | error error =>
        have null : .null ∈ literals := by
          by_contra none
          obtain ⟨plan, binds⟩ := given none
          cases bound.symm.trans binds
        cases textLowers : parseSqlForProfiles services.parser text backend.profiles with
        | ok plan => cases bound.symm.trans ((binds plan).mpr textLowers)
        | error textError =>
            exact .inr ⟨null, error, textError, textLowers,
              doQueryPortal_of_unbound written.ordinary written.decodes lowers found bound⟩
  cases routed : isCatalogOrSessionQuery text with
  | true =>
      obtain ⟨result, answered⟩ := exists_doQuery_of_intercepted routed
      exact .intercepted result routed answered portalReplies
  | false =>
      rcases portalReplies with ⟨plan, textLowers, replied⟩ |
        ⟨null, error, textError, textRefused, replied⟩
      · exact .executed _ _ replied (doQuery_of_lowered routed textLowers)
      · exact .refused error textError null replied (doQuery_of_refused routed textRefused)

end Written

/-! ## Parse, describe, execute -/

section Prepared

theorem wireReply_eq_query {ofCode : Int16 → FieldFormat} {format : Format}
    {result : Result ExecutionResult} {columns : List FieldInfo} {rows : List (List WireValue)}
    (replied : wireReply ofCode format result = .ok (some (.query columns rows))) :
    ∃ fields, result = .ok (.query fields rows) ∧
      fieldInfos ofCode format fields = some columns := by
  cases result with
  | error error => cases replied
  | ok result =>
      cases result with
      | command command => cases replied
      | query fields others =>
          obtain ⟨infos, found, same⟩ := Option.map_eq_some_iff.mp (Except.ok.inj replied)
          cases same
          exact ⟨fields, rfl, found⟩

theorem length_of_mapM {α β : Type} {translate : α → Option β} {elements : List α} {values : List β}
    (translated : elements.mapM translate = some values) : values.length = elements.length := by
  induction elements generalizing values with
  | nil =>
      cases translated
      rfl
  | cons element elements inductionHypothesis =>
      rw [List.mapM_cons] at translated
      obtain ⟨value, _, translated⟩ := Option.bind_eq_some_iff.mp translated
      obtain ⟨others, found, same⟩ := Option.bind_eq_some_iff.mp translated
      cases same
      exact congrArg (· + 1) (inductionHypothesis found)

variable {backend : ProxyBackend} {services : Services}

theorem catalogForCollection_of_listed {collection : String} {schema : SchemaProfile}
    (listed : backend.profiles[collection]? = some schema) :
    backend.catalogForCollection collection =
      .ok (projectCollection "public" collection schema) := by
  refine okOr_eq_ok_iff.mpr ?_
  rw [backend.projected, projectPublicCollections, Std.TreeMap.getElem?_map, listed]
  rfl

theorem diagnostics_executePlan (plan : StatementPlan) (state : BackendState) :
    (backend.executePlan services plan state).2.diagnostics = state.diagnostics := by
  unfold ProxyBackend.executePlan
  split
  · unfold ProxyBackend.executeSelect
    split <;> rfl
  · split
    · rfl
    · split
      · rfl
      · split
        · rfl
        · dsimp only
          split <;> rfl

/-- The fields of a text are the same whenever it is described, and they are the fields of its
rows; neither describing nor executing it leaves a diagnostic. -/
structure HasFields (backend : ProxyBackend) (services : Services) (query : String)
    (fields : List WireField) : Prop where
  described : ∀ state, backend.describe services query state = (.ok fields, state)
  executed : ∀ parameters state columns rows,
    (backend.executeBound services query parameters state).1 = .ok (.query columns rows) →
      columns = fields ∧ ∀ row ∈ rows, row.length = fields.length
  silent : ∀ parameters state,
    (backend.executeBound services query parameters state).2.diagnostics = state.diagnostics

theorem hasFields_of_canned {query : String} {result : ExecutionResult}
    (canned : catalogOrSessionQuery backend.databaseName backend.catalog query = some result) :
    HasFields backend services query result.fields where
  described state := by
    unfold ProxyBackend.describe
    rw [canned]
  executed parameters state columns rows answered := by
    unfold ProxyBackend.executeBound at answered
    rw [canned] at answered
    dsimp only at answered
    split_ifs at answered
    cases answered
    obtain ⟨_, _, same, widths⟩ := ProxyBackend.length_eq_of_catalogOrSessionQuery canned
    cases same
    exact ⟨rfl, widths⟩
  silent parameters state := by
    unfold ProxyBackend.executeBound
    rw [canned]

def planFields (backend : ProxyBackend) : StatementPlan → List WireField
  | .select plan => (backend.catalogForCollection plan.collection).toOption.elim []
      (ProxyBackend.selectFields plan)
  | _ => []

theorem hasFields_of_lowered {query : String} {plan : StatementPlan}
    (ordinary : isCatalogOrSessionQuery query = false)
    (lowers : parseSqlForProfiles services.parser query backend.profiles = .ok plan) :
    HasFields backend services query (planFields backend plan) where
  described state := by
    obtain ⟨_, schema, _, listed, _⟩ := lowered_of_parseSqlForProfiles lowers
    unfold ProxyBackend.describe ProxyBackend.describeParsed ProxyBackend.withPlan
    rw [catalogOrSessionQuery_of_ordinary ordinary, lowers]
    cases plan with
    | select plan =>
        have found := catalogForCollection_of_listed listed
        dsimp only [planFields, collectionFromPlan] at found ⊢
        rw [found]
        rfl
    | _ => rfl
  executed parameters state columns rows answered := by
    obtain ⟨select, plan, catalog, _, parsed, collection, projection, _, found, _, rfl, rfl⟩ :=
      @ProxyBackend.planned_of_query backend services (.bound query parameters) state _ _
        (catalogOrSessionQuery_of_ordinary ordinary) answered
    cases Except.ok.inj (lowers.symm.trans parsed)
    rw [planFields, ← collection, found]
    dsimp only [Except.toOption, Option.elim_some]
    rw [ProxyBackend.selectFields_eq, ← projection]
    exact ⟨rfl, fun _ => ProxyBackend.length_of_mem_derivedRows⟩
  silent parameters state := by
    unfold ProxyBackend.executeBound ProxyBackend.executeBoundParsed ProxyBackend.withPlan
    rw [catalogOrSessionQuery_of_ordinary ordinary, lowers]
    dsimp only
    split
    · rfl
    · split
      · rfl
      · exact diagnostics_executePlan _ state

theorem exists_hasFields_of_parseSql {sql : String} {types : List PgType}
    {statement : PreparedStatement}
    (parsed : parseSql services.parser backend.profiles sql types = .ok statement) :
    ∃ fields, HasFields backend services statement.sql fields := by
  have prepares := mapError_eq_ok_iff.mp parsed
  unfold prepareStatement at prepares
  split at prepares
  · rename_i routed
    have same : statement.sql = sql := by
      split at prepares <;> cases prepares
      rfl
    cases canned : catalogOrSessionQuery backend.databaseName backend.catalog sql with
    | some result => exact ⟨result.fields, same ▸ hasFields_of_canned canned⟩
    -- Both tests for intercepted texts agree, so that one without parameters has its answer.
    | none =>
        have ordinary := (isCatalogOrSessionQuery_eq_false_iff sql).mpr
          ((catalogOrSessionQuery_eq_none_iff _ _ _).mp canned)
        rw [ordinary] at routed
        cases routed
  · rename_i routed
    obtain ⟨plan, lowers, prepares⟩ := bind_eq_ok_iff.mp prepares
    obtain ⟨schema, _, prepares⟩ := bind_eq_ok_iff.mp prepares
    obtain ⟨inferred, _, prepares⟩ := bind_eq_ok_iff.mp prepares
    obtain ⟨parameterTypes, _, prepares⟩ := bind_eq_ok_iff.mp prepares
    cases prepares
    exact ⟨_, hasFields_of_lowered (Bool.eq_false_of_not_eq_true routed) lowers⟩

variable (backend services) (oid : PgType → Nat) (ofCode : Int16 → FieldFormat)

/-- The descriptions of a statement and of its portals never change, and they are those of the rows
that its portals reply with. -/
structure Describes (statement : PreparedStatement) (fields : List WireField) : Prop where
  describedAlone : ∀ state, backend.doDescribeStatement services statement state =
    (.ok (statement.parameterTypes, fields.map fun field => field.fieldInfo .text), state)
  describedBound : ∀ portal : Portal, portal.statement = statement →
    portal.resultColumnFormat.Covers fields.length →
      ∃ columns, fieldInfos ofCode portal.resultColumnFormat fields = some columns ∧
        ∀ state, backend.doDescribePortal services ofCode portal state =
          (.ok (some columns), state)
  -- The index of a missing format is out of bounds.
  panics : ∀ portal : Portal, portal.statement = statement →
    ¬ portal.resultColumnFormat.Covers fields.length →
      ∀ state, backend.doDescribePortal services ofCode portal state = (.ok none, state)
  rows : ∀ portal : Portal, portal.statement = statement → ∀ state columns rows,
    (backend.doQueryPortal services oid ofCode portal state).1 =
        .ok (some (.query columns rows)) →
      fieldInfos ofCode portal.resultColumnFormat fields = some columns ∧
        ∀ row ∈ rows, row.length = columns.length
  silent : ∀ portal : Portal, portal.statement = statement → ∀ state,
    (backend.doQueryPortal services oid ofCode portal state).2.diagnostics = state.diagnostics

/-- Whatever can be parsed can be described, at any time and before any parameter is bound. -/
theorem exists_describes_of_parseSql {sql : String} {types : List PgType}
    {statement : PreparedStatement}
    (parsed : parseSql services.parser backend.profiles sql types = .ok statement) :
    ∃ fields, Describes backend services oid ofCode statement fields := by
  obtain ⟨fields, has⟩ := exists_hasFields_of_parseSql parsed
  have describes (portal : Portal) (same : portal.statement = statement) (state : BackendState) :
      backend.doDescribePortal services ofCode portal state =
        (.ok (fieldInfos ofCode portal.resultColumnFormat fields), state) := by
    unfold ProxyBackend.doDescribePortal
    rw [same, has.described]
    rfl
  refine ⟨fields, ?_, ?_, ?_, ?_, ?_⟩
  · intro state
    unfold ProxyBackend.doDescribeStatement
    rw [has.described]
    rfl
  · intro portal same covers
    obtain ⟨columns, found⟩ := Option.isSome_iff_exists.mp (isSome_fieldInfos_iff.mpr covers)
    exact ⟨columns, found, fun state => found ▸ describes portal same state⟩
  · intro portal same short state
    rw [← @isSome_fieldInfos_iff ofCode, Bool.not_eq_true, Option.isSome_eq_false_iff,
      Option.isNone_iff_eq_none] at short
    rw [describes portal same state, short]
  · intro portal same state columns rows replied
    cases decodes : portalParameters oid ofCode portal with
    | error error =>
        rw [doQueryPortal_of_undecoded decodes] at replied
        cases replied
    | ok parameters =>
        rw [doQueryPortal_of_decoded decodes, same] at replied
        dsimp only at replied
        obtain ⟨others, answered, found⟩ := wireReply_eq_query replied
        obtain ⟨rfl, widths⟩ := has.executed parameters state others rows answered
        have width : columns.length = others.length :=
          (length_of_mapM found).trans List.length_zipIdx
        exact ⟨found, fun row membership => (widths row membership).trans width.symm⟩
  · intro portal same state
    cases decodes : portalParameters oid ofCode portal with
    | error error => rw [doQueryPortal_of_undecoded decodes]
    | ok parameters =>
        rw [doQueryPortal_of_decoded decodes, same]
        dsimp only
        exact has.silent parameters state

end Prepared

section Example

/-- `SELECT name FROM pets WHERE name = $1` -/
private def selectPet : Ast.Statement :=
  let name : Ast.Expr := .identifier (.new "name")
  let condition : Ast.Expr := .binaryOp name .eq (.value (.placeholder "$1"))
  .query (.limited (.select (.fromTable [.unnamedExpr name] "pets" (some condition))) none)

private def petNames : SchemaProfile where
  profileVersion := 1
  sampledDocuments := 2
  fields := [⟨⟨["name"]⟩, 2, 0, {.string}, {.scalar}, false⟩]

private def pets : CollectionProfiles := .ofList [("pets", petNames)]

private def selectedPet : StatementPlan :=
  .select ⟨"pets", .fields [⟨⟨["name"]⟩, none⟩],
    some (.compare ⟨["name"]⟩ .equal (.placeholder "$1")), none⟩

private theorem inferParameterTypes_selectedPet :
    inferParameterTypes selectedPet petNames = .ok [.text] := by
  have largest : ((∅ : ParameterTypes).insert 1 .text).maxKey? = some 1 := by
    rw [Std.TreeMap.maxKey?_insert, Std.TreeMap.maxKey?_emptyc]
    rfl
  refine bind_eq_ok_iff.mpr ⟨(∅ : ParameterTypes).insert 1 .text, rfl, ?_⟩
  rw [largest]
  rfl

private def petQuery : String := "SELECT name FROM pets WHERE name = $1"

private def rexQuery : String := "SELECT name FROM pets WHERE name = 'rex'"

private def petParser : Parser := fun query =>
  if query = petQuery then .ok [selectPet]
  else if query = rexQuery then .ok [selectPet.substitute [.string "rex"]]
  else .error "unexpected token"

private def petBackend : ProxyBackend where
  databaseName := "zoo"
  profiles := pets
  catalog := projectPublicCollections pets
  resolverMinimumConfidence := 0.85
  projected := rfl
  confidenceBounds := by decide

private def petServices : Services where
  parser := petParser
  driver :=
    { find := fun _ _ _ _ => .error "no server"
      insertOne := fun _ _ => .error "no server"
      insertMany := fun _ _ => .error "no server"
      updateMany := fun _ _ _ => .error "no server"
      deleteMany := fun _ _ => .error "no server" }
  resolver := fun _ => .error ⟨.dependency, "ambiguity resolver is unavailable or timed out"⟩
  bsonText :=
    { display := fun _ => ""
      extendedJson := fun _ => ""
      hex := fun _ => "" }

private def rexPortal : Portal where
  statement := ⟨petQuery, [.text]⟩
  parameters := [some "rex".toUTF8]
  parameterFormat := .unifiedText
  resultColumnFormat := .unifiedBinary

private theorem ordinary_petQuery : isCatalogOrSessionQuery petQuery = false := by decide

private theorem prepareStatement_petQuery :
    prepareStatement petParser petQuery [.unknown] pets = .ok ⟨petQuery, [.text]⟩ := by
  rw [prepareStatement, ordinary_petQuery]
  exact bind_eq_ok_iff.mpr ⟨selectedPet, rfl, bind_eq_ok_iff.mpr ⟨petNames, rfl,
    bind_eq_ok_iff.mpr ⟨[.text], inferParameterTypes_selectedPet, rfl⟩⟩⟩

/-- The statement that selects a pet can be described. -/
theorem exists_describes_petQuery :
    ∃ fields, Describes petBackend petServices (fun _ => 25) (fun _ => .binary)
      ⟨petQuery, [.text]⟩ fields :=
  exists_describes_of_parseSql petBackend petServices (fun _ => 25) (fun _ => .binary)
    (mapError_eq_ok_iff.mpr prepareStatement_petQuery)

private theorem isWritten_rexPortal :
    rexPortal.IsWritten petBackend petParser (fun _ => 25) (fun _ => .binary) selectPet
      [.string "rex"] rexQuery where
  ordinary := ordinary_petQuery
  prepared := ⟨[.unknown], prepareStatement_petQuery⟩
  parsed := rfl
  canonical := by
    intro name membership
    cases List.mem_singleton.mp membership
    exact ⟨1, le_refl 1, by omega, rfl⟩
  decodes := by
    have decoded : decodeText (fun _ => 25) "rex".toUTF8 .text = .ok (.string "rex") := by
      rw [decodeText, fromUTF8?_toUTF8]
      rfl
    unfold portalParameters
    dsimp only
    have supplied : rexPortal.parameters.length = rexPortal.statement.parameterTypes.length := rfl
    rw [if_neg (not_not.mpr supplied)]
    refine bind_eq_ok_iff.mpr ⟨.string "rex", ?_, rfl⟩
    exact bind_eq_ok_iff.mpr ⟨.text, rfl, decoded⟩
  written := rfl

/-- A pet's name as a parameter and as a literal. -/
theorem doQueryPortal_rexPortal :
    SameReplies petBackend petServices (fun _ => 25) (fun _ => .binary) rexPortal [.string "rex"]
      rexQuery {} :=
  doQueryPortal_of_isWritten isWritten_rexPortal {}

end Example

end Mongres
