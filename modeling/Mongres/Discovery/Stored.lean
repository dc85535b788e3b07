import Mongres.Bson
import Mongres.Library.Codec
import Mongres.Policy.Contract
import Mongres.Schema.Definition

/-!
# Stored profiles

The documents of the metadata collection.  Each holds the profile of one collection, written by
the names of its fields; it is read by these names, whatever else the document holds.
-/

namespace Mongres

namespace Bson

def textCodec : Codec Bson String where
  write value := some (.string value)
  read
    | .string value => some value
    | _ => none
  read_of_write := by
    intro value wire written
    cases written
    rfl

def flagCodec : Codec Bson Bool where
  write value := some (.boolean value)
  read
    | .boolean value => some value
    | _ => none
  read_of_write := by
    intro value wire written
    cases written
    rfl

def arrayCodec : Codec Bson (List Bson) where
  write values := some (.array values)
  read
    | .array values => some values
    | _ => none
  read_of_write := by
    intro value wire written
    cases written
    rfl

/-- Unsigned numbers below a bound.  BSON has signed integers of two widths, and the library that
writes them may take the narrow ones where they suffice. -/
def unsignedCodec (narrow : Nat → Bool) (bound : Nat) : Codec Bson Nat where
  write number :=
    if bound ≤ number ∨ 2 ^ 63 ≤ number then none
    else if number < 2 ^ 31 ∧ narrow number then some (.int32 (Int32.ofNat number))
    else some (.int64 (Int64.ofNat number))
  read
    | .int32 value =>
        if 0 ≤ value.toInt ∧ value.toInt.toNat < bound then some value.toInt.toNat else none
    | .int64 value =>
        if 0 ≤ value.toInt ∧ value.toInt.toNat < bound then some value.toInt.toNat else none
    | _ => none
  read_of_write := by
    intro number wire written
    split at written
    · cases written
    · rename_i fits
      rw [not_or, not_le, not_le] at fits
      split at written
      · rename_i small
        cases written
        have value : (Int32.ofNat number).toInt = number := Int32.toInt_ofNat_of_lt small.1
        simp [value, fits.1]
      · cases written
        have value : (Int64.ofNat number).toInt = number := Int64.toInt_ofNat_of_lt fits.2
        simp [value, fits.1]

def recordCodec {α : Type} (record : RecordCodec Bson α) (distinct : record.keys.Nodup) :
    Codec Bson α where
  write value := (record.write value).map .document
  read
    | .document fields => record.read fun key => fields.lookup key
    | _ => none
  read_of_write := by
    intro value wire written
    obtain ⟨fields, wrote, rfl⟩ := Option.map_eq_some_iff.mp written
    exact record.read_of_agrees distinct wrote fun _ _ => rfl

/-- A set, as the array of its members in the order of their type. -/
def setCodec {α : Type} [DecidableEq α] (all : List α) (complete : ∀ value, value ∈ all)
    (codec : Codec Bson α) : Codec Bson (Finset α) :=
  (codec.list.within arrayCodec).convert (fun values => all.filter (· ∈ values)) List.toFinset
    fun values => Finset.ext fun value => by simp [complete]

theorem writes_unsignedCodec_iff (narrow : Nat → Bool) (bound number : Nat) :
    (unsignedCodec narrow bound).Writes number ↔ number < bound ∧ number < 2 ^ 63 := by
  unfold Codec.Writes unsignedCodec
  dsimp only
  split
  · rename_i refused
    apply iff_of_false
    · simp
    · rwa [← not_le, ← not_le, ← not_or, not_not]
  · rename_i fits
    rw [not_or, not_le, not_le] at fits
    split
    · exact iff_of_true ⟨_, rfl⟩ fits
    · exact iff_of_true ⟨_, rfl⟩ fits

theorem writes_recordCodec_iff {α : Type} (record : RecordCodec Bson α)
    (distinct : record.keys.Nodup) (value : α) :
    (recordCodec record distinct).Writes value ↔ record.Writes value := by
  simp [Codec.Writes, RecordCodec.Writes, recordCodec]

theorem writes_setCodec {α : Type} [DecidableEq α] {all : List α}
    (complete : ∀ value, value ∈ all) {codec : Codec Bson α} (total : ∀ value, codec.Writes value)
    (values : Finset α) : (setCodec all complete codec).Writes values := by
  rw [setCodec, Codec.writes_convert_iff, Codec.writes_within_iff _ fun values => ⟨_, rfl⟩,
    Codec.writes_list_iff]
  exact fun value _ => total value

end Bson

/-! ## The parts of a profile -/

namespace ObservedType

def variantName : ObservedType → String
  | .null => "Null"
  | .boolean => "Boolean"
  | .integer => "Integer"
  | .floatingPoint => "FloatingPoint"
  | .string => "String"
  | .dateTime => "DateTime"
  | .objectId => "ObjectId"
  | .document => "Document"
  | .array => "Array"

theorem variantName_injective : Function.Injective variantName := by
  intro first second same
  cases first <;> cases second <;> simp [variantName] at same ⊢

def codec : Codec Bson ObservedType :=
  (Codec.names all variantName mem_all variantName_injective).within Bson.textCodec

end ObservedType

namespace ObservedShape

def variantName : ObservedShape → String
  | .scalar => "Scalar"
  | .document => "Document"
  | .array => "Array"

theorem variantName_injective : Function.Injective variantName := by
  intro first second same
  cases first <;> cases second <;> simp [variantName] at same ⊢

def codec : Codec Bson ObservedShape :=
  (Codec.names all variantName mem_all variantName_injective).within Bson.textCodec

end ObservedShape

/-- A path is stored as the array of its segments. -/
def FieldPath.codec : Codec Bson FieldPath :=
  (Bson.textCodec.list.within Bson.arrayCodec).convert FieldPath.segments FieldPath.mk fun _ => rfl

section Profiles

/- Which of the numbers that fit are written as narrow integers. -/
variable (narrow : Nat → Bool)

def countCodec : Codec Bson Nat := Bson.unsignedCodec narrow (2 ^ 64)

def FieldProfile.record : RecordCodec Bson FieldProfile :=
  (((((RecordCodec.field "path" FieldPath.codec).also
    (.field "present_documents" (countCodec narrow))).also
    (.field "missing_documents" (countCodec narrow))).also
    (.field "observed_types"
      (Bson.setCodec ObservedType.all ObservedType.mem_all ObservedType.codec))).also
    (.field "observed_shapes"
      (Bson.setCodec ObservedShape.all ObservedShape.mem_all ObservedShape.codec))).also
    (.field "has_dotted_key_collision" Bson.flagCodec) |>.convert
      (fun field => (((((field.path, field.presentDocuments), field.missingDocuments),
        field.observedTypes), field.observedShapes), field.hasDottedKeyCollision))
      (fun (((((path, present), missing), types), shapes), collision) =>
        ⟨path, present, missing, types, shapes, collision⟩)
      fun _ => rfl

theorem FieldProfile.keys_record : (FieldProfile.record narrow).keys =
    ["path", "present_documents", "missing_documents", "observed_types", "observed_shapes",
      "has_dotted_key_collision"] := rfl

def SchemaProfile.record : RecordCodec Bson SchemaProfile :=
  ((RecordCodec.field "profile_version" (Bson.unsignedCodec narrow (2 ^ 32))).also
    (.field "sampled_documents" (countCodec narrow))).also
    (.field "fields" ((Bson.recordCodec (FieldProfile.record narrow) (by
      rw [FieldProfile.keys_record]
      decide)).list.within Bson.arrayCodec)) |>.convert
      (fun profile => ((profile.profileVersion.toNat, profile.sampledDocuments), profile.fields))
      (fun ((version, sampled), fields) => ⟨UInt32.ofNat version, sampled, fields⟩)
      fun profile => by simp

theorem SchemaProfile.keys_record : (SchemaProfile.record narrow).keys =
    ["profile_version", "sampled_documents", "fields"] := rfl

/-- A record of the metadata collection. -/
structure StoredSchemaProfile where
  database : String
  collection : String
  profile : SchemaProfile

namespace StoredSchemaProfile

def record : RecordCodec Bson StoredSchemaProfile :=
  ((RecordCodec.field "database" Bson.textCodec).also
    (.field "collection" Bson.textCodec)).also
    (.field "profile" (Bson.recordCodec (SchemaProfile.record narrow) (by
      rw [SchemaProfile.keys_record]
      decide))) |>.convert
      (fun stored => ((stored.database, stored.collection), stored.profile))
      (fun ((database, collection), profile) => ⟨database, collection, profile⟩)
      fun _ => rfl

theorem keys_record : (record narrow).keys = ["database", "collection", "profile"] := rfl

def toDocument (stored : StoredSchemaProfile) : Option Document := (record narrow).write stored

def fromDocument (document : Document) : Option StoredSchemaProfile :=
  (record narrow).read fun key => document.lookup key

end StoredSchemaProfile

/-! ## Which profiles can be stored -/

/-- The counts of a profile fit into the integers of BSON. -/
structure SchemaProfile.IsStorable (profile : SchemaProfile) : Prop where
  sampled : profile.sampledDocuments < 2 ^ 63
  counted : ∀ field ∈ profile.fields,
    field.presentDocuments < 2 ^ 63 ∧ field.missingDocuments < 2 ^ 63

theorem writes_countCodec_iff (number : Nat) :
    (countCodec narrow).Writes number ↔ number < 2 ^ 63 := by
  rw [countCodec, Bson.writes_unsignedCodec_iff]
  omega

theorem FieldProfile.writes_record_iff (field : FieldProfile) :
    (FieldProfile.record narrow).Writes field ↔
      field.presentDocuments < 2 ^ 63 ∧ field.missingDocuments < 2 ^ 63 := by
  have types : (Bson.setCodec ObservedType.all ObservedType.mem_all ObservedType.codec).Writes
      field.observedTypes := Bson.writes_setCodec _ (fun _ => ⟨_, rfl⟩) _
  have shapes : (Bson.setCodec ObservedShape.all ObservedShape.mem_all ObservedShape.codec).Writes
      field.observedShapes := Bson.writes_setCodec _ (fun _ => ⟨_, rfl⟩) _
  have path : FieldPath.codec.Writes field.path := by
    rw [FieldPath.codec, Codec.writes_convert_iff, Codec.writes_within_iff _ fun _ => ⟨_, rfl⟩,
      Codec.writes_list_iff]
    exact fun _ _ => ⟨_, rfl⟩
  have collision : Bson.flagCodec.Writes field.hasDottedKeyCollision := ⟨_, rfl⟩
  rw [FieldProfile.record, RecordCodec.writes_convert_iff]
  simp only [RecordCodec.writes_also_iff, RecordCodec.writes_field_iff, writes_countCodec_iff,
    types, shapes, path, collision, true_and, and_true]

theorem SchemaProfile.writes_record_iff (profile : SchemaProfile) :
    (SchemaProfile.record narrow).Writes profile ↔ profile.IsStorable := by
  have version : profile.profileVersion.toNat < 2 ^ 32 ∧ profile.profileVersion.toNat < 2 ^ 63 := by
    have bound := profile.profileVersion.toNat_lt
    omega
  rw [SchemaProfile.record, RecordCodec.writes_convert_iff]
  simp only [RecordCodec.writes_also_iff, RecordCodec.writes_field_iff, writes_countCodec_iff,
    Bson.writes_unsignedCodec_iff, version, true_and]
  rw [Codec.writes_within_iff _ fun _ => ⟨_, rfl⟩, Codec.writes_list_iff]
  simp only [Bson.writes_recordCodec_iff, FieldProfile.writes_record_iff]
  exact ⟨fun ⟨sampled, counted⟩ => ⟨sampled, counted⟩, fun ⟨sampled, counted⟩ => ⟨sampled, counted⟩⟩

namespace StoredSchemaProfile

theorem writes_record_iff (stored : StoredSchemaProfile) :
    (record narrow).Writes stored ↔ stored.profile.IsStorable := by
  have database : Bson.textCodec.Writes stored.database := ⟨_, rfl⟩
  have collection : Bson.textCodec.Writes stored.collection := ⟨_, rfl⟩
  rw [record, RecordCodec.writes_convert_iff]
  simp only [RecordCodec.writes_also_iff, RecordCodec.writes_field_iff, database, collection,
    true_and, Bson.writes_recordCodec_iff, SchemaProfile.writes_record_iff]

theorem fromDocument_of_agrees {stored : StoredSchemaProfile} {fields document : Document}
    (written : stored.toDocument narrow = some fields)
    (agrees : ∀ key ∈ ["database", "collection", "profile"],
      document.lookup key = fields.lookup key) :
    fromDocument narrow document = some stored := by
  apply (record narrow).read_of_agrees _ written
  · rw [keys_record]
    exact agrees
  · rw [keys_record]
    decide

/-- Every record is read back from any document that holds what was written, whatever else it
holds, and a record can be written exactly if its counts fit. -/
theorem fromDocument_of_toDocument (stored : StoredSchemaProfile) :
    ((∃ fields, stored.toDocument narrow = some fields) ↔ stored.profile.IsStorable) ∧
      ∀ fields, stored.toDocument narrow = some fields → ∀ document : Document,
        (∀ key ∈ ["database", "collection", "profile"],
          document.lookup key = fields.lookup key) →
        fromDocument narrow document = some stored :=
  ⟨writes_record_iff narrow stored, fun _ written _ agrees =>
    fromDocument_of_agrees narrow written agrees⟩

end StoredSchemaProfile

/-- Inference from a sample that fits in memory gives a profile that can be stored. -/
theorem isStorable_infer {documents : List SampleDocument} (fits : documents.length < 2 ^ 63) :
    (SchemaProfile.infer documents).IsStorable where
  sampled := fits
  counted := by
    intro field membership
    have total := (SchemaProfile.isProfileOf_infer documents).missingDocuments_eq field membership
    omega

end Profiles

section Example

/-- The profile of people, of whom one of two has a name. -/
private def storedPeople : StoredSchemaProfile where
  database := "app"
  collection := "people"
  profile :=
    { profileVersion := 1
      sampledDocuments := 2
      fields := [⟨⟨["name"]⟩, 1, 1, {.string}, {.scalar}, false⟩] }

private def storedPeopleFields : Document :=
  [("database", .string "app"), ("collection", .string "people"),
    ("profile", .document
      [("profile_version", .int64 1), ("sampled_documents", .int64 2),
        ("fields", .array
          [.document
            [("path", .array [.string "name"]), ("present_documents", .int64 1),
              ("missing_documents", .int64 1), ("observed_types", .array [.string "String"]),
              ("observed_shapes", .array [.string "Scalar"]),
              ("has_dotted_key_collision", .boolean false)]])])]

/-- The record is read back from the document that the server keeps, which has an `_id`. -/
theorem fromDocument_storedPeople :
    StoredSchemaProfile.fromDocument (fun _ => false)
      (("_id", .int64 7) :: storedPeopleFields) = some storedPeople := by
  refine (StoredSchemaProfile.fromDocument_of_toDocument (fun _ => false) storedPeople).2
    storedPeopleFields rfl _ ?_
  intro key membership
  fin_cases membership <;> rfl

end Example

end Mongres
