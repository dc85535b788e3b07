import Mongres.Library.Nested

/-!
# Formats that are read back

A codec writes values and reads back what it has written.  A record is written as named fields;
it is read by names alone, so fields that it has not written do not disturb it.
-/

namespace Mongres

universe u v

/-- A way to write some values of a type, and to read them back. -/
structure Codec (Wire : Type u) (α : Type v) where
  write : α → Option Wire
  read : Wire → Option α
  read_of_write : ∀ value wire, write value = some wire → read wire = some value

namespace Codec

variable {Wire : Type u} {α β : Type v}

def convert (codec : Codec Wire α) (represent : β → α) (build : α → β)
    (inverse : ∀ value, build (represent value) = value) : Codec Wire β where
  write value := codec.write (represent value)
  read wire := (codec.read wire).map build
  read_of_write := by
    intro value wire written
    rw [codec.read_of_write _ _ written, Option.map_some, inverse]

def writeAll (codec : Codec Wire α) : List α → Option (List Wire)
  | [] => some []
  | value :: values => do
      let wire ← codec.write value
      let wires ← writeAll codec values
      some (wire :: wires)

def readAll (codec : Codec Wire α) : List Wire → Option (List α)
  | [] => some []
  | wire :: wires => do
      let value ← codec.read wire
      let values ← readAll codec wires
      some (value :: values)

theorem readAll_of_writeAll (codec : Codec Wire α) {values : List α} {wires : List Wire}
    (written : codec.writeAll values = some wires) : codec.readAll wires = some values := by
  induction values generalizing wires with
  | nil =>
      cases written
      rfl
  | cons value values inductionHypothesis =>
      simp only [writeAll, Option.bind_eq_bind, Option.bind_eq_some_iff] at written
      obtain ⟨wire, first, rest, others, same⟩ := written
      cases same
      simp [readAll, codec.read_of_write _ _ first, inductionHypothesis others]

def list (codec : Codec Wire α) : Codec (List Wire) (List α) where
  write := codec.writeAll
  read := codec.readAll
  read_of_write _ _ := codec.readAll_of_writeAll

def within (inner : Codec Wire α) {Outer : Type u} (outer : Codec Outer Wire) :
    Codec Outer α where
  write value := (inner.write value).bind outer.write
  read wire := (outer.read wire).bind inner.read
  read_of_write := by
    intro value wire written
    obtain ⟨middle, first, second⟩ := Option.bind_eq_some_iff.mp written
    exact Option.bind_eq_some_iff.mpr
      ⟨middle, outer.read_of_write _ _ second, inner.read_of_write _ _ first⟩

def names [DecidableEq α] (all : List α) (name : α → Wire) [DecidableEq Wire]
    (complete : ∀ value, value ∈ all) (injective : Function.Injective name) : Codec Wire α where
  write value := some (name value)
  read wire := all.find? fun value => name value = wire
  read_of_write := by
    intro value wire written
    cases written
    have found : (all.find? fun other => name other = name value).isSome := by
      rw [List.find?_isSome]
      exact ⟨value, complete value, decide_eq_true rfl⟩
    obtain ⟨other, chosen⟩ := Option.isSome_iff_exists.mp found
    have same := List.find?_some chosen
    rw [decide_eq_true_iff] at same
    rw [chosen, injective same]

/-! ### What can be written -/

def Writes (codec : Codec Wire α) (value : α) : Prop := ∃ wire, codec.write value = some wire

theorem writes_convert_iff (codec : Codec Wire α) (represent : β → α) (build : α → β)
    (inverse : ∀ value, build (represent value) = value) (value : β) :
    (codec.convert represent build inverse).Writes value ↔ codec.Writes (represent value) :=
  Iff.rfl

theorem writes_list_iff (codec : Codec Wire α) (values : List α) :
    codec.list.Writes values ↔ ∀ value ∈ values, codec.Writes value := by
  change (∃ wires, codec.writeAll values = some wires) ↔ _
  induction values with
  | nil => simp [writeAll]
  | cons value values inductionHypothesis =>
      rw [List.forall_mem_cons, ← inductionHypothesis]
      simp [writeAll, Writes, Option.bind_eq_some_iff]

theorem writes_within_iff (inner : Codec Wire α) {Outer : Type u} {outer : Codec Outer Wire}
    (total : ∀ wire, outer.Writes wire) (value : α) :
    (inner.within outer).Writes value ↔ inner.Writes value := by
  constructor
  · rintro ⟨wire, written⟩
    obtain ⟨middle, first, _⟩ := Option.bind_eq_some_iff.mp written
    exact ⟨middle, first⟩
  · rintro ⟨middle, first⟩
    obtain ⟨wire, second⟩ := total middle
    exact ⟨wire, Option.bind_eq_some_iff.mpr ⟨middle, first, second⟩⟩

end Codec

/-- A way to write values as named fields, and to read them back from what the fields hold. -/
structure RecordCodec (Wire : Type u) (α : Type v) where
  keys : List String
  write : α → Option (List (String × Wire))
  read : (String → Option Wire) → Option α
  keys_of_write : ∀ value fields, write value = some fields → fields.map Prod.fst = keys
  read_of_write : ∀ value fields, write value = some fields → ∀ held : String → Option Wire,
    (∀ field ∈ fields, held field.1 = some field.2) → read held = some value

namespace RecordCodec

variable {Wire : Type u} {α β : Type v}

def field (name : String) (codec : Codec Wire α) : RecordCodec Wire α where
  keys := [name]
  write value := (codec.write value).map fun wire => [(name, wire)]
  read held := (held name).bind codec.read
  keys_of_write := by
    intro value fields written
    obtain ⟨wire, _, rfl⟩ := Option.map_eq_some_iff.mp written
    rfl
  read_of_write := by
    intro value fields written held holds
    obtain ⟨wire, wrote, rfl⟩ := Option.map_eq_some_iff.mp written
    have holdsField : held name = some wire := holds _ List.mem_cons_self
    rw [holdsField, Option.bind_some]
    exact codec.read_of_write _ _ wrote

def also (first : RecordCodec Wire α) (second : RecordCodec Wire β) :
    RecordCodec Wire (α × β) where
  keys := first.keys ++ second.keys
  write value := do
    let fields ← first.write value.1
    let others ← second.write value.2
    some (fields ++ others)
  read held := do
    let value ← first.read held
    let other ← second.read held
    some (value, other)
  keys_of_write := by
    intro value fields written
    simp only [Option.bind_eq_bind, Option.bind_eq_some_iff] at written
    obtain ⟨fields, wrote, others, wroteOthers, same⟩ := written
    cases same
    rw [List.map_append, first.keys_of_write _ _ wrote, second.keys_of_write _ _ wroteOthers]
  read_of_write := by
    intro value fields written held holds
    simp only [Option.bind_eq_bind, Option.bind_eq_some_iff] at written
    obtain ⟨fields, wrote, others, wroteOthers, same⟩ := written
    cases same
    rw [List.forall_mem_append] at holds
    rw [first.read_of_write _ _ wrote held holds.1,
      second.read_of_write _ _ wroteOthers held holds.2]
    rfl

def convert (record : RecordCodec Wire α) (represent : β → α) (build : α → β)
    (inverse : ∀ value, build (represent value) = value) : RecordCodec Wire β where
  keys := record.keys
  write value := record.write (represent value)
  read held := (record.read held).map build
  keys_of_write _ _ := record.keys_of_write _ _
  read_of_write := by
    intro value fields written held holds
    rw [record.read_of_write _ _ written held holds, Option.map_some, inverse]

def Writes (record : RecordCodec Wire α) (value : α) : Prop :=
  ∃ fields, record.write value = some fields

theorem writes_field_iff (name : String) (codec : Codec Wire α) (value : α) :
    (field name codec).Writes value ↔ codec.Writes value := by
  simp [Writes, Codec.Writes, field]

theorem writes_also_iff (first : RecordCodec Wire α) (second : RecordCodec Wire β)
    (value : α × β) :
    (first.also second).Writes value ↔ first.Writes value.1 ∧ second.Writes value.2 := by
  simp [Writes, also, Option.bind_eq_some_iff]

theorem writes_convert_iff (record : RecordCodec Wire α) (represent : β → α) (build : α → β)
    (inverse : ∀ value, build (represent value) = value) (value : β) :
    (record.convert represent build inverse).Writes value ↔ record.Writes (represent value) :=
  Iff.rfl

/-- What a list of fields with distinct names holds is read back, whatever else it holds. -/
theorem read_of_agrees (record : RecordCodec Wire α) (distinct : record.keys.Nodup) {value : α}
    {fields : List (String × Wire)} (written : record.write value = some fields)
    {held : String → Option Wire}
    (agrees : ∀ name ∈ record.keys, held name = fields.lookup name) :
    record.read held = some value := by
  have keys := record.keys_of_write _ _ written
  apply record.read_of_write _ _ written
  intro field membership
  have listed : field.1 ∈ record.keys := keys ▸ List.mem_map_of_mem membership
  rw [agrees _ listed]
  exact (lookup_eq_some_iff_mem (keys ▸ distinct) field.1 field.2).mpr membership

end RecordCodec

end Mongres
