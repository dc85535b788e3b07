import Mongres.Library.Text
import Mathlib.Data.List.Lex
import Mathlib.Order.Lex

/-!
# Field paths

A path keeps its segments apart, so a literal dotted key is never conflated
with a nested path.  Only its display form joins the segments.
-/

namespace Mongres

structure FieldPath where
  segments : List String
  deriving DecidableEq, Repr

namespace FieldPath

def topLevel (field : String) : FieldPath := ⟨[field]⟩

def child (path : FieldPath) (field : String) : FieldPath := ⟨path.segments ++ [field]⟩

/-- The dot-separated form used by SQL-facing surfaces. -/
def displayName (path : FieldPath) : String := Text.join '.' path.segments

/-- Whether the path is a top-level key that contains a dot. -/
def isLiteralDottedKey (path : FieldPath) : Bool :=
  match path.segments with
  | [segment] => segment.toList.contains '.'
  | _ => false

@[simp] theorem segments_child (path : FieldPath) (field : String) :
    (path.child field).segments = path.segments ++ [field] := rfl

theorem isLiteralDottedKey_eq_true_iff (path : FieldPath) :
    path.isLiteralDottedKey = true ↔
      ∃ segment, path.segments = [segment] ∧ '.' ∈ segment.toList := by
  unfold isLiteralDottedKey
  split
  · rename_i segment single
    simp [single]
  · rename_i several
    simp only [Bool.false_eq_true, false_iff, not_exists, not_and]
    exact fun segment single => absurd single (several segment)

theorem isLiteralDottedKey_of_two_le (path : FieldPath) (nested : 2 ≤ path.segments.length) :
    path.isLiteralDottedKey = false := by
  cases literal : path.isLiteralDottedKey with
  | false => rfl
  | true =>
      obtain ⟨segment, single, _⟩ := path.isLiteralDottedKey_eq_true_iff.mp literal
      simp [single] at nested

/-- Paths are ordered by their segments, as a derived `Ord` compares them. -/
instance : Ord FieldPath := ⟨fun a b => compare a.segments b.segments⟩

theorem compare_def (a b : FieldPath) : compare a b = compare a.segments b.segments := rfl

instance : Std.TransOrd FieldPath where
  eq_swap {a b} := by
    rw [compare_def, compare_def]
    exact Std.OrientedOrd.eq_swap
  isLE_trans {a b c} first second := by
    rw [compare_def] at first second ⊢
    exact Std.TransOrd.isLE_trans first second

instance : Std.LawfulEqOrd FieldPath where
  compare_self {a} := by
    rw [compare_def]
    exact Std.ReflOrd.compare_self
  eq_of_compare {a b} equal := by
    rw [compare_def] at equal
    cases a
    cases b
    exact congrArg FieldPath.mk (Std.LawfulEqOrd.eq_of_compare equal)

end FieldPath

end Mongres
