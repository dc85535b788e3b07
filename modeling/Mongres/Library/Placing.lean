import Mongres.Library.Nested
import Mathlib.Data.List.Infix
import Mathlib.Tactic

/-!
# Placing values at paths

A value is placed at the end of a path through documents, and the documents that are missing
on the way are created.  Paths of which neither leads through the other do not disturb each
other, so several values can be placed in any order.
-/

namespace Mongres

universe u v

section Entries

variable {Key : Type u} {Value : Type v} [DecidableEq Key]

/-- Sets a key, in place if it is there and at the end otherwise. -/
def setEntry (entries : List (Key × Value)) (key : Key) (value : Value) : List (Key × Value) :=
  match entries with
  | [] => [(key, value)]
  | (name, held) :: rest =>
      if name = key then (key, value) :: rest else (name, held) :: setEntry rest key value

theorem lookup_setEntry (entries : List (Key × Value)) (key other : Key) (value : Value) :
    (setEntry entries key value).lookup other =
      if other = key then some value else entries.lookup other := by
  induction entries with
  | nil => rw [setEntry, lookup_cons_eq_if]
  | cons entry rest inductionHypothesis =>
      obtain ⟨name, held⟩ := entry
      rw [setEntry]
      by_cases same : name = key
      · rw [if_pos same, lookup_cons_eq_if, lookup_cons_eq_if]
        by_cases target : other = key
        · simp [target]
        · rw [if_neg target, if_neg target, if_neg (fun named => target (named.trans same))]
      · rw [if_neg same, lookup_cons_eq_if, lookup_cons_eq_if, inductionHypothesis]
        by_cases target : other = name
        · rw [if_pos target, if_pos target, if_neg (fun named => same (target.symm.trans named))]
        · rw [if_neg target, if_neg target]

theorem mem_setEntry {entries : List (Key × Value)} {key : Key} {value : Value}
    {entry : Key × Value} (membership : entry ∈ setEntry entries key value) :
    entry = (key, value) ∨ entry ∈ entries := by
  induction entries with
  | nil => exact .inl (List.mem_singleton.mp membership)
  | cons first rest inductionHypothesis =>
      obtain ⟨name, held⟩ := first
      rw [setEntry] at membership
      split at membership
      · rcases List.mem_cons.mp membership with rfl | later
        · exact .inl rfl
        · exact .inr (List.mem_cons_of_mem _ later)
      · rcases List.mem_cons.mp membership with rfl | later
        · exact .inr List.mem_cons_self
        · exact (inductionHypothesis later).imp_right (List.mem_cons_of_mem _)

theorem nodup_setEntry {entries : List (Key × Value)}
    (distinct : (entries.map Prod.fst).Nodup) (key : Key) (value : Value) :
    ((setEntry entries key value).map Prod.fst).Nodup := by
  induction entries with
  | nil => simp [setEntry]
  | cons entry rest inductionHypothesis =>
      obtain ⟨name, held⟩ := entry
      rw [List.map_cons, List.nodup_cons] at distinct
      rw [setEntry]
      split
      · rename_i same
        rw [List.map_cons, List.nodup_cons, ← same]
        exact distinct
      · rename_i different
        rw [List.map_cons, List.nodup_cons]
        refine ⟨fun membership => ?_, inductionHypothesis distinct.2⟩
        obtain ⟨other, otherMembership, named⟩ := List.mem_map.mp membership
        rcases mem_setEntry otherMembership with rfl | listed
        · exact different named.symm
        · exact distinct.1 (List.mem_map.mpr ⟨other, listed, named⟩)

end Entries

/-! ## Paths apart -/

section Apart

variable {Key : Type u}

/-- Two paths of which neither leads through the end of the other. -/
def Apart (first second : List Key) : Prop := ¬ first <+: second ∧ ¬ second <+: first

theorem Apart.symm {first second : List Key} (apart : Apart first second) : Apart second first :=
  ⟨apart.2, apart.1⟩

theorem apart_cons_cons_iff {first second : Key} {rest others : List Key} :
    Apart (first :: rest) (second :: others) ↔ first ≠ second ∨ Apart rest others := by
  simp only [Apart, List.cons_prefix_cons, @eq_comm _ second]
  tauto

theorem not_apart_iff {first second : List Key} :
    ¬ Apart first second ↔ first <+: second ∨ second <+: first := by
  rw [Apart]
  tauto

/-- What lies above a path is above or apart from what is apart from the path. -/
theorem Apart.of_leading {first second above : List Key} (apart : Apart first second)
    (leads : above <+: second) : Apart first above ∨ above <+: first ∧ above ≠ first := by
  by_cases disjoint : Apart first above
  · exact .inl disjoint
  · rcases not_apart_iff.mp disjoint with through | through
    · exact absurd (through.trans leads) apart.1
    · refine .inr ⟨through, fun same => apart.1 ?_⟩
      exact same ▸ leads

end Apart

class Nesting (Key : outParam (Type u)) (Value : Type v) extends Nested Key Value where
  document : List (Key × Value) → Value
  fields_document : ∀ entries, fields (document entries) = some entries

namespace Nesting

open Nested

variable {Key : Type u} {Value : Type v} [DecidableEq Key] [Nesting Key Value]

/-- A value with another value at the end of a path, or nothing where the path meets a value
that is no document. -/
def setAt (value : Value) : List Key → Value → Option Value
  | [], placed => some placed
  | key :: path, placed =>
      (fields value).bind fun entries =>
        (setAt ((entries.lookup key).getD (document [])) path placed).map fun child =>
          document (setEntry entries key child)

theorem setAt_cons_eq_some_iff {value placed result : Value} {key : Key} {path : List Key} :
    setAt value (key :: path) placed = some result ↔
      ∃ entries child, fields value = some entries ∧
        setAt ((entries.lookup key).getD (document [])) path placed = some child ∧
        result = document (setEntry entries key child) := by
  rw [setAt]
  simp only [Option.bind_eq_some_iff, Option.map_eq_some_iff, @eq_comm _ _ result]
  constructor
  · rintro ⟨entries, held, child, set, same⟩
    exact ⟨entries, child, held, set, same⟩
  · rintro ⟨entries, child, held, set, same⟩
    exact ⟨entries, held, child, set, same⟩

theorem descend_document_cons (entries : List (Key × Value)) (key : Key) (path : List Key) :
    descend (document entries) (key :: path) =
      (entries.lookup key).bind fun child => descend child path := by
  rw [descend_cons, fields_document, Option.bind_some]

theorem descend_getD_lookup (entries : List (Key × Value)) (key : Key) {path : List Key}
    (proper : path ≠ []) :
    descend ((entries.lookup key).getD (document [])) path =
      (entries.lookup key).bind fun child => descend child path := by
  obtain ⟨next, rest, rfl⟩ := List.exists_cons_of_ne_nil proper
  cases entries.lookup key with
  | none => rw [Option.getD_none, descend_document_cons]; rfl
  | some child => rfl

theorem descend_setAt {value placed result : Value} {path : List Key}
    (set : setAt value path placed = some result) : descend result path = some placed := by
  induction path generalizing value result with
  | nil =>
      cases set
      exact descend_nil placed
  | cons key path inductionHypothesis =>
      obtain ⟨entries, child, _, setBelow, rfl⟩ := setAt_cons_eq_some_iff.mp set
      rw [descend_document_cons, lookup_setEntry, if_pos rfl, Option.bind_some]
      exact inductionHypothesis setBelow

/-- Every path apart from it leads where it led before. -/
theorem descend_setAt_of_apart {value placed result : Value} {path other : List Key}
    (set : setAt value path placed = some result) (apart : Apart path other) :
    descend result other = descend value other := by
  induction path generalizing value result other with
  | nil => exact absurd List.nil_prefix apart.1
  | cons key path inductionHypothesis =>
      obtain ⟨entries, child, held, setBelow, rfl⟩ := setAt_cons_eq_some_iff.mp set
      cases other with
      | nil => exact absurd List.nil_prefix apart.2
      | cons name other =>
          rw [descend_document_cons, descend_cons, held, Option.bind_some, lookup_setEntry]
          by_cases same : name = key
          · subst same
            have apartBelow := (apart_cons_cons_iff.mp apart).resolve_left (not_not.mpr rfl)
            have proper : other ≠ [] := by
              rintro rfl
              exact apartBelow.2 List.nil_prefix
            rw [if_pos rfl, Option.bind_some, inductionHypothesis setBelow apartBelow,
              descend_getD_lookup entries name proper]
          · rw [if_neg same]

def Passable (value : Value) (path : List Key) : Prop :=
  ∀ first rest, path = first ++ rest → rest ≠ [] →
    ∀ above, descend value first = some above → (fields above).isSome

theorem exists_setAt_empty (path : List Key) (placed : Value) :
    ∃ result, setAt (document []) path placed = some result := by
  induction path with
  | nil => exact ⟨placed, rfl⟩
  | cons key path inductionHypothesis =>
      obtain ⟨child, set⟩ := inductionHypothesis
      exact ⟨_, setAt_cons_eq_some_iff.mpr ⟨[], child, fields_document [], set, rfl⟩⟩

theorem exists_setAt {value : Value} {path : List Key} (passable : Passable value path)
    (placed : Value) : ∃ result, setAt value path placed = some result := by
  induction path generalizing value with
  | nil => exact ⟨placed, rfl⟩
  | cons key path inductionHypothesis =>
      have root := passable [] (key :: path) rfl (List.cons_ne_nil key path) value
        (descend_nil value)
      obtain ⟨entries, held⟩ := Option.isSome_iff_exists.mp root
      have below : ∃ child, setAt ((entries.lookup key).getD (document [])) path placed =
          some child := by
        cases found : entries.lookup key with
        | none => exact exists_setAt_empty path placed
        | some next =>
            apply inductionHypothesis
            intro first rest split proper above reached
            apply passable (key :: first) rest (by rw [split, List.cons_append]) proper above
            rw [descend_cons, held, Option.bind_some, found, Option.bind_some]
            exact reached
      obtain ⟨child, set⟩ := below
      exact ⟨_, setAt_cons_eq_some_iff.mpr ⟨entries, child, held, set, rfl⟩⟩

theorem passable_of_setAt {value placed result : Value} {path : List Key}
    (set : setAt value path placed = some result) : Passable value path := by
  induction path generalizing value result with
  | nil =>
      intro first rest split proper
      exact absurd (List.append_eq_nil_iff.mp split.symm).2 proper
  | cons key path inductionHypothesis =>
      obtain ⟨entries, child, held, setBelow, _⟩ := setAt_cons_eq_some_iff.mp set
      intro first rest split proper above reached
      cases first with
      | nil =>
          cases reached
          rw [held]
          rfl
      | cons name first =>
          obtain ⟨rfl, below⟩ := List.cons_eq_cons.mp split
          rw [descend_cons, held, Option.bind_some, Option.bind_eq_some_iff] at reached
          obtain ⟨next, found, reached⟩ := reached
          rw [found] at setBelow
          exact inductionHypothesis setBelow first rest below proper above reached

/-! ## Several values -/

/-- One value turns into another by placing cells: they are at their paths, and everything apart
from them is as before. -/
structure Places (before after : Value) (cells : List (List Key × Value)) : Prop where
  held : ∀ cell ∈ cells, descend after cell.1 = some cell.2
  elsewhere : ∀ path, (∀ cell ∈ cells, Apart cell.1 path) →
    descend after path = descend before path

theorem places_nil (value : Value) : Places value value [] where
  held := by simp
  elsewhere _ _ := rfl

theorem places_setAt {value placed result : Value} {path : List Key}
    (set : setAt value path placed = some result) : Places value result [(path, placed)] where
  held := List.forall_mem_singleton.mpr (descend_setAt set)
  elsewhere _ apart := descend_setAt_of_apart set (apart _ (List.mem_singleton_self _))

theorem Places.above {before after : Value} {cells : List (List Key × Value)}
    (places : Places before after cells) {cell : List Key × Value} (membership : cell ∈ cells)
    {first rest : List Key} (split : cell.1 = first ++ rest) (proper : rest ≠ []) :
    ∃ value, descend after first = some value ∧ (fields value).isSome :=
  descend_document proper (split ▸ places.held cell membership)

theorem Places.passable {before after : Value} {cells : List (List Key × Value)}
    (places : Places before after cells) {path : List Key}
    (apart : ∀ cell ∈ cells, Apart cell.1 path) (passable : Passable before path) :
    Passable after path := by
  intro first rest split proper above reached
  have leads : first <+: path := ⟨rest, split.symm⟩
  by_cases disjoint : ∀ cell ∈ cells, Apart cell.1 first
  · rw [places.elsewhere first disjoint] at reached
    exact passable first rest split proper above reached
  · push Not at disjoint
    obtain ⟨cell, membership, through⟩ := disjoint
    obtain ⟨prefixed, different⟩ := ((apart cell membership).of_leading leads).resolve_left through
    obtain ⟨more, reaches⟩ := prefixed
    obtain ⟨value, found, isDocument⟩ := places.above membership reaches.symm (by
      rintro rfl
      exact different (by rw [← reaches, List.append_nil]))
    cases Option.some.inj (found.symm.trans reached)
    exact isDocument

theorem Places.append {before middle after : Value} {cells others : List (List Key × Value)}
    (places : Places before middle cells) (placesOthers : Places middle after others)
    (apart : ∀ cell ∈ cells, ∀ other ∈ others, Apart cell.1 other.1) :
    Places before after (cells ++ others) where
  held := by
    intro cell membership
    rcases List.mem_append.mp membership with earlier | later
    · rw [placesOthers.elsewhere cell.1 fun other otherMembership =>
        (apart cell earlier other otherMembership).symm]
      exact places.held cell earlier
    · exact placesOthers.held cell later
  elsewhere := by
    intro path disjoint
    rw [List.forall_mem_append] at disjoint
    rw [placesOthers.elsewhere path disjoint.2, places.elsewhere path disjoint.1]

/-- Every path leads to the same in both values, or to a document in both. -/
def SameUpToOrder (first second : Value) : Prop :=
  ∀ path, descend first path = descend second path ∨
    ∃ one two, descend first path = some one ∧ descend second path = some two ∧
      (fields one).isSome ∧ (fields two).isSome

/-- The order in which cells are placed does not matter. -/
theorem Places.sameUpToOrder {before first second : Value} {cells others : List (List Key × Value)}
    (places : Places before first cells) (placesOthers : Places before second others)
    (same : ∀ cell, cell ∈ cells ↔ cell ∈ others) : SameUpToOrder first second := by
  intro path
  by_cases disjoint : ∀ cell ∈ cells, Apart cell.1 path
  · apply Or.inl
    rw [places.elsewhere path disjoint, placesOthers.elsewhere path]
    exact fun cell membership => disjoint cell ((same cell).mpr membership)
  · push Not at disjoint
    obtain ⟨cell, membership, meets⟩ := disjoint
    have otherMembership := (same cell).mp membership
    rcases not_apart_iff.mp meets with ⟨below, reaches⟩ | ⟨rest, reaches⟩
    · apply Or.inl
      rw [← reaches, descend_append, descend_append, places.held cell membership,
        placesOthers.held cell otherMembership]
    · by_cases ends : rest = []
      · rw [ends, List.append_nil] at reaches
        rw [reaches, places.held cell membership, placesOthers.held cell otherMembership]
        exact .inl rfl
      · obtain ⟨one, found, isDocument⟩ := places.above membership reaches.symm ends
        obtain ⟨two, foundTwo, isDocumentTwo⟩ :=
          placesOthers.above otherMembership reaches.symm ends
        exact .inr ⟨one, two, found, foundTwo, isDocument, isDocumentTwo⟩

end Nesting

end Mongres
