import Mongres.Common
import Mongres.Library.Decimal
import Mongres.Library.Fallible
import Mongres.Library.Text
import Mathlib.Data.List.Sort

/-!
# The configured collections

Discovery and the proxy read the names of their collections from the same two settings: a list
with commas, or else a single name.  Both take the same settings, and read the same names from
them, none of which is the collection of the metadata.
-/

namespace Mongres

open Fallible Text

/-- What the environment of a program has under a name: a text, nothing, or bytes that are no text
and are described by an error. -/
inductive Variable where
  | present (text : String)
  | notPresent
  | notUnicode (error : String)

abbrev Environment := String → Variable

def Variable.text : Variable → Option String
  | .present text => some text
  | .notPresent | .notUnicode _ => none

/-- The collection that retains the profiles of the others. -/
def metadataCollection : String := "__pgproxy_schema"

namespace Discovery

def insertName (names : Std.TreeSet String) (name : String) : Except String (Std.TreeSet String) :=
  if trim name = "" then .error "MongoDB collection names must not be empty"
  else if name ≠ trim name then
    .error s!"MongoDB collection name '{name}' must not have leading or trailing whitespace"
  else if name = metadataCollection then
    .error s!"'{metadataCollection}' is reserved for schema metadata and cannot be exposed as a SQL table"
  else if name ∈ names then .error s!"duplicate configured MongoDB collection: '{name}'"
  else .ok (names.insert name)

def validatedCollectionNames (collectionNames : List String) : Except String (List String) :=
  if collectionNames = [] then .error "at least one MongoDB collection must be configured"
  else (collectionNames.foldlM insertName ∅).map Std.TreeSet.toList

/-- The names that are configured: those of the list, unless it is blank, or the single one. -/
def configuredNames (configuredList legacyCollection : Option String) : Option (List String) :=
  match configuredList.filter fun value => trim value ≠ "" with
  | some value => some ((splitOn ',' value).map trim)
  | none => legacyCollection.map fun name => [name]

def missingCollections : String :=
  "required environment variable is missing: MONGO_COLLECTION or MONGO_COLLECTIONS"

/-- The names of the collections to discover. -/
def parseConfiguredCollections (configuredList legacyCollection : Option String) :
    Except String (List String) := do
  let configured ← okOr (configuredNames configuredList legacyCollection) missingCollections
  validatedCollectionNames configured

def requiredEnvironment (environment : Environment) (name : String) : Except String String :=
  okOr (environment name).text s!"required environment variable is missing: {name}"

/-- An unsigned number of 64 bits, or a default for a variable that is not set. -/
def optionalEnvironment (environment : Environment) (name : String) (default : Nat) :
    Except String Nat :=
  match environment name with
  | .present value =>
      okOr (Decimal.parseUnsigned (2 ^ 64 - 1) value) s!"{name} must be a positive integer"
  | .notPresent => .ok default
  | .notUnicode error => .error error

def configuredCollections (environment : Environment) : Except String (List String) := do
  let legacy ← match environment "MONGO_COLLECTION" with
    | .present value => .ok (some value)
    | .notPresent => .ok none
    | .notUnicode error => .error error
  parseConfiguredCollections (environment "MONGO_COLLECTIONS").text legacy

end Discovery

def dependencyError (action error : String) : ProxyError :=
  ⟨.dependency, s!"failed to {action}: {error}"⟩

/-- The names of the collections that the proxy exposes. -/
def parseConfiguredCollectionNames (configuredList legacyCollection : Option String) :
    Result (List String) := do
  let collections ← okOr (Discovery.configuredNames configuredList legacyCollection)
    (invalidInput Discovery.missingCollections)
  (Discovery.validatedCollectionNames collections).mapError
    (dependencyError "validate configured MongoDB collections")

def configuredCollectionNames (environment : Environment) : Result (List String) := do
  let legacyCollection ← match environment "MONGO_COLLECTION" with
    | .present value => .ok (some value)
    | .notPresent => .ok none
    | .notUnicode error => .error (invalidInput error)
  parseConfiguredCollectionNames (environment "MONGO_COLLECTIONS").text legacyCollection

namespace Discovery

/-! ## The names that are accepted -/

structure IsCollectionName (name : String) : Prop where
  nonblank : name ≠ ""
  trimmed : trim name = name
  unreserved : name ≠ metadataCollection

theorem insertName_eq_ok_iff {names result : Std.TreeSet String} {name : String} :
    insertName names name = .ok result ↔
      (IsCollectionName name ∧ name ∉ names) ∧ result = names.insert name := by
  unfold insertName
  simp only [ite_error_eq_ok_iff, Except.ok.injEq, ne_eq, not_not]
  constructor
  · rintro ⟨nonblank, trimmed, unreserved, fresh, rfl⟩
    exact ⟨⟨⟨trimmed ▸ nonblank, trimmed.symm, unreserved⟩, fresh⟩, rfl⟩
  · rintro ⟨⟨⟨nonblank, trimmed, unreserved⟩, fresh⟩, rfl⟩
    exact ⟨trimmed.symm ▸ nonblank, trimmed.symm, unreserved, fresh, rfl⟩

theorem foldlM_insertName_eq_ok_iff {collectionNames : List String}
    {names result : Std.TreeSet String} :
    collectionNames.foldlM insertName names = .ok result ↔
      (∀ name ∈ collectionNames, IsCollectionName name ∧ name ∉ names) ∧
        collectionNames.Nodup ∧ result = collectionNames.foldl Std.TreeSet.insert names := by
  induction collectionNames generalizing names with
  | nil =>
      change Except.ok names = Except.ok result ↔ _
      simp [eq_comm]
  | cons name collectionNames inductionHypothesis =>
      have later (other : String) :
          (IsCollectionName other ∧ other ∉ names.insert name) ↔
            (IsCollectionName other ∧ other ∉ names) ∧ name ≠ other := by
        rw [Std.TreeSet.mem_insert, not_or, Std.LawfulEqOrd.compare_eq_iff_eq]
        tauto
      rw [List.foldlM_cons, bind_eq_ok_iff_of fun _ => insertName_eq_ok_iff, inductionHypothesis,
        List.forall_mem_cons, List.nodup_cons, List.foldl_cons]
      simp only [later]
      constructor
      · rintro ⟨first, each, distinct, same⟩
        exact ⟨⟨first, fun other membership => (each other membership).1⟩,
          ⟨fun membership => (each name membership).2 rfl, distinct⟩, same⟩
      · rintro ⟨⟨first, each⟩, ⟨fresh, distinct⟩, same⟩
        refine ⟨first, fun other membership => ⟨each other membership, ?_⟩, distinct, same⟩
        rintro rfl
        exact fresh membership

theorem mem_foldl_insert_iff {collectionNames : List String} {names : Std.TreeSet String}
    {name : String} :
    name ∈ collectionNames.foldl Std.TreeSet.insert names ↔
      name ∈ collectionNames ∨ name ∈ names := by
  induction collectionNames generalizing names with
  | nil => simp
  | cons first collectionNames inductionHypothesis =>
      rw [List.foldl_cons, inductionHypothesis, Std.TreeSet.mem_insert,
        Std.LawfulEqOrd.compare_eq_iff_eq, List.mem_cons, @eq_comm _ first name]
      tauto

def Increasing (names : List String) : Prop :=
  names.Pairwise fun first second => compare first second = .lt

theorem Increasing.nodup {names : List String} (increasing : Increasing names) : names.Nodup := by
  apply increasing.imp
  rintro first second before rfl
  rw [Std.ReflOrd.compare_self] at before
  cases before

structure IsSorted (names collectionNames : List String) : Prop where
  increasing : Increasing names
  same : names.Perm collectionNames

theorem IsSorted.unique {first second collectionNames : List String}
    (sorted : IsSorted first collectionNames) (other : IsSorted second collectionNames) :
    first = second := by
  have same : first.Perm second := sorted.same.trans other.same.symm
  refine same.eq_of_pairwise ?_ sorted.increasing other.increasing
  intro one two _ _ before after
  rw [Std.OrientedCmp.gt_of_lt after] at before
  cases before

theorem isSorted_toList {collectionNames : List String} (distinct : collectionNames.Nodup) :
    IsSorted (collectionNames.foldl Std.TreeSet.insert (∅ : Std.TreeSet String)).toList
      collectionNames := by
  have increasing : Increasing
      (collectionNames.foldl Std.TreeSet.insert (∅ : Std.TreeSet String)).toList :=
    Std.TreeSet.ordered_toList
  refine ⟨increasing, (List.perm_ext_iff_of_nodup increasing.nodup distinct).mpr ?_⟩
  intro name
  rw [Std.TreeSet.mem_toList, mem_foldl_insert_iff]
  simp

theorem validatedCollectionNames_eq_ok_iff {collectionNames names : List String} :
    validatedCollectionNames collectionNames = .ok names ↔
      collectionNames ≠ [] ∧ (∀ name ∈ collectionNames, IsCollectionName name) ∧
        collectionNames.Nodup ∧ IsSorted names collectionNames := by
  rw [validatedCollectionNames, ite_error_eq_ok_iff, map_eq_ok_iff]
  simp only [foldlM_insertName_eq_ok_iff, Std.TreeSet.not_mem_emptyc, not_false_eq_true, and_true]
  apply and_congr_right
  intro _
  constructor
  · rintro ⟨_, ⟨each, distinct, rfl⟩, rfl⟩
    exact ⟨each, distinct, isSorted_toList distinct⟩
  · rintro ⟨each, distinct, sorted⟩
    exact ⟨_, ⟨each, distinct, rfl⟩, (isSorted_toList distinct).unique sorted⟩

/-! ## The settings that are accepted -/

inductive Written (configuredList legacyCollection : Option String) : List String → Prop where
  | listed {value : String} : configuredList = some value → trim value ≠ "" →
      Written configuredList legacyCollection ((splitOn ',' value).map trim)
  | single {name : String} : (∀ value, configuredList = some value → trim value = "") →
      legacyCollection = some name → Written configuredList legacyCollection [name]

theorem configuredNames_eq_some_iff {configuredList legacyCollection : Option String}
    {written : List String} :
    configuredNames configuredList legacyCollection = some written ↔
      Written configuredList legacyCollection written := by
  unfold configuredNames
  cases chosen : configuredList.filter fun value => trim value ≠ "" with
  | none =>
      have blank : ∀ value, configuredList = some value → trim value = "" := by
        intro value listed
        have kept := Option.filter_eq_none_iff.mp chosen value listed
        simpa using kept
      constructor
      · intro same
        obtain ⟨name, single, rfl⟩ := Option.map_eq_some_iff.mp same
        exact .single blank single
      · intro names
        cases names with
        | listed given nonblank => exact absurd (blank _ given) nonblank
        | single _ given =>
            rw [given]
            rfl
  | some value =>
      obtain ⟨given, nonblank⟩ := Option.filter_eq_some_iff.mp chosen
      rw [decide_eq_true_iff] at nonblank
      constructor
      · intro same
        cases same
        exact .listed given nonblank
      · intro names
        cases names with
        | listed other _ =>
            cases given.symm.trans other
            rfl
        | single blank _ => exact absurd (blank value given) nonblank

theorem Written.ne_nil {configuredList legacyCollection : Option String} {written : List String}
    (names : Written configuredList legacyCollection written) : written ≠ [] := by
  cases names with
  | listed _ _ =>
      intro none
      exact splitOn_ne_nil _ _ (List.map_eq_nil_iff.mp none)
  | single _ _ => exact List.cons_ne_nil _ _

def Configures (configuredList legacyCollection : Option String) (names : List String) : Prop :=
  ∃ written, Written configuredList legacyCollection written ∧
    (∀ name ∈ written, IsCollectionName name) ∧ written.Nodup ∧ IsSorted names written

theorem parseConfiguredCollections_eq_ok_iff {configuredList legacyCollection : Option String}
    {names : List String} :
    parseConfiguredCollections configuredList legacyCollection = .ok names ↔
      Configures configuredList legacyCollection names := by
  simp only [parseConfiguredCollections, bind_eq_ok_iff, okOr_eq_ok_iff,
    configuredNames_eq_some_iff, validatedCollectionNames_eq_ok_iff, Configures]
  apply exists_congr
  intro written
  apply and_congr_right
  intro given
  simp [given.ne_nil]

theorem parseConfiguredCollectionNames_eq_ok_iff {configuredList legacyCollection : Option String}
    {names : List String} :
    parseConfiguredCollectionNames configuredList legacyCollection = .ok names ↔
      Configures configuredList legacyCollection names := by
  rw [← parseConfiguredCollections_eq_ok_iff, parseConfiguredCollectionNames,
    parseConfiguredCollections]
  simp only [bind_eq_ok_iff, okOr_eq_ok_iff, mapError_eq_ok_iff]

theorem names_of_configures {configuredList legacyCollection : Option String}
    {names : List String} (configured : Configures configuredList legacyCollection names) :
    Increasing names ∧ metadataCollection ∉ names ∧ validatedCollectionNames names = .ok names := by
  obtain ⟨written, given, each, _, sorted⟩ := configured
  have valid : ∀ name ∈ names, IsCollectionName name := fun name membership =>
    each name (sorted.same.mem_iff.mp membership)
  refine ⟨sorted.increasing, fun membership => (valid _ membership).unreserved rfl, ?_⟩
  refine validatedCollectionNames_eq_ok_iff.mpr
    ⟨?_, valid, sorted.increasing.nodup, sorted.increasing, List.Perm.refl _⟩
  rintro rfl
  exact given.ne_nil sorted.same.symm.eq_nil

theorem written_join {written : List String} (nonempty : written ≠ [])
    (names : ∀ name ∈ written, IsCollectionName name) (plain : ∀ name ∈ written, ',' ∉ name.toList)
    (legacyCollection : Option String) :
    Written (some (join ',' written)) legacyCollection written := by
  have read : (splitOn ',' (join ',' written)).map trim = written := by
    rw [(splitOn_join_iff ',' nonempty).mpr plain]
    apply (List.map_congr_left fun name membership => (names name membership).trimmed).trans
    exact List.map_id _
  have listed := @Written.listed (some (join ',' written)) legacyCollection _ rfl
  rw [read] at listed
  apply listed
  obtain ⟨first, others, rfl⟩ := List.exists_cons_of_ne_nil nonempty
  have name := names first List.mem_cons_self
  intro blank
  rw [trim_eq_empty_iff] at blank
  apply name.nonblank
  rw [← name.trimmed, trim_eq_empty_iff]
  exact fun letter membership => blank letter (mem_join_of_mem_head others membership)

/-- An environment that names collections which can be exposed, each once. -/
def ConfiguredIn (environment : Environment) (names : List String) : Prop :=
  (∀ error, environment "MONGO_COLLECTION" ≠ .notUnicode error) ∧
    Configures (environment "MONGO_COLLECTIONS").text (environment "MONGO_COLLECTION").text names

theorem configuredCollections_eq_ok_iff {environment : Environment} {names : List String} :
    configuredCollections environment = .ok names ↔ ConfiguredIn environment names := by
  unfold configuredCollections ConfiguredIn
  cases environment "MONGO_COLLECTION" with
  | notUnicode error => exact iff_of_false nofun fun configured => configured.1 error rfl
  | _ => exact parseConfiguredCollections_eq_ok_iff.trans (and_iff_right nofun).symm

theorem configuredCollectionNames_eq_ok_iff {environment : Environment} {names : List String} :
    configuredCollectionNames environment = .ok names ↔ ConfiguredIn environment names := by
  unfold configuredCollectionNames ConfiguredIn
  cases environment "MONGO_COLLECTION" with
  | notUnicode error => exact iff_of_false nofun fun configured => configured.1 error rfl
  | _ => exact parseConfiguredCollectionNames_eq_ok_iff.trans (and_iff_right nofun).symm

/-- Discovery and the proxy read the same names from an environment: distinct ones in increasing
order, never that of the metadata, which are validated again as they are.  Names that are written
as a list with commas are read back, whatever the single name is. -/
theorem sameNames_of_programs (environment : Environment) :
    (∀ names, configuredCollections environment = .ok names ↔ ConfiguredIn environment names) ∧
      (∀ names, configuredCollectionNames environment = .ok names ↔
        ConfiguredIn environment names) ∧
      (∀ names, ConfiguredIn environment names → Increasing names ∧ metadataCollection ∉ names ∧
        validatedCollectionNames names = .ok names) ∧
      ∀ written names, written ≠ [] →
        (∀ name ∈ written, IsCollectionName name ∧ ',' ∉ name.toList) → written.Nodup →
        IsSorted names written → (∀ error, environment "MONGO_COLLECTION" ≠ .notUnicode error) →
        environment "MONGO_COLLECTIONS" = .present (join ',' written) →
        ConfiguredIn environment names := by
  refine ⟨fun _ => configuredCollections_eq_ok_iff, fun _ => configuredCollectionNames_eq_ok_iff,
    fun _ configured => names_of_configures configured.2, ?_⟩
  intro written names nonempty each distinct sorted readable listed
  refine ⟨readable, written, ?_, fun name membership => (each name membership).1, distinct, sorted⟩
  rw [listed]
  exact written_join nonempty (fun name membership => (each name membership).1)
    (fun name membership => (each name membership).2) _

section Example

private theorem isCollectionName_of_plain {name : String} (nonblank : name ≠ "")
    (first : ∀ letter ∈ name.toList.head?, isWhiteSpace letter = false)
    (last : ∀ letter ∈ name.toList.getLast?, isWhiteSpace letter = false)
    (unreserved : name ≠ metadataCollection) : IsCollectionName name :=
  ⟨nonblank, trim_eq_self first last, unreserved⟩

private def ordersAndCustomers : Environment := fun name =>
  if name = "MONGO_COLLECTIONS" then .present "orders,customers"
  else if name = "MONGO_COLLECTION" then .present "legacy"
  else .notPresent

theorem sameNames_ordersAndCustomers :
    configuredCollectionNames ordersAndCustomers = .ok ["customers", "orders"] := by
  apply ((sameNames_of_programs ordersAndCustomers).2.1 _).mpr
  apply (sameNames_of_programs ordersAndCustomers).2.2.2 ["orders", "customers"]
  · exact List.cons_ne_nil _ _
  · rw [List.forall_mem_cons, List.forall_mem_singleton]
    constructor
    · exact ⟨isCollectionName_of_plain (by decide) (by simp [isWhiteSpace])
        (by simp [isWhiteSpace]) (by decide), by simp⟩
    · exact ⟨isCollectionName_of_plain (by decide) (by simp [isWhiteSpace])
        (by simp [isWhiteSpace]) (by decide), by simp⟩
  · decide
  · exact ⟨List.pairwise_pair.mpr (by decide), List.Perm.swap _ _ _⟩
  · exact nofun
  · rfl

end Example

end Discovery

end Mongres
