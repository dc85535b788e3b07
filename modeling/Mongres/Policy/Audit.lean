import Mongres.Library.Rounding
import Mongres.Policy.Contract

/-!
# Redacted audit records

Records keep the policy evidence that explains a decision, and no values,
rationale or error texts.
-/

namespace Mongres

inductive AuditOperation where
  | insert
  | update
  | delete
  deriving DecidableEq, Repr

/-- One ambiguous field, stripped of observed values. -/
structure RedactedAmbiguity where
  fieldPath : String
  kinds : Finset AmbiguityKind
  deriving DecidableEq

def WriteAmbiguity.redacted (ambiguity : WriteAmbiguity) : RedactedAmbiguity where
  fieldPath := ambiguity.fieldPath.displayName
  kinds := ambiguity.kinds

/-- A validated confidence in basis points, from 0 to 10,000. -/
structure ResolverConfidence where
  basisPoints : UInt16
  bounded : basisPoints ≤ 10000
  deriving DecidableEq

namespace ResolverConfidence

def fromBasisPoints (value : UInt16) : Option ResolverConfidence :=
  if bounded : value ≤ 10000 then some ⟨value, bounded⟩ else none

/-- The confidence of a ratio, read back from the text of its rounded basis points. -/
def fromRatio (value : Float) : Option ResolverConfidence :=
  if value.isFinite = false ∨ ¬ (0 ≤ value ∧ value ≤ 1) then none
  else
    (Decimal.parseUnsigned 65535 (Binary64.display (Binary64.round (value * 10000)))).bind
      fun basisPoints => fromBasisPoints (UInt16.ofNat basisPoints)

example : (fromRatio 0.9).map basisPoints = some 9000 := by decide

theorem isSome_fromBasisPoints {number : Nat} (bounded : number ≤ 10000) :
    (fromBasisPoints (UInt16.ofNat number)).isSome := by
  have fits : UInt16.ofNat number ≤ 10000 := by
    rw [UInt16.le_iff_toNat_le, UInt16.toNat_ofNat', Nat.mod_eq_of_lt (by omega)]
    exact bounded
  rw [fromBasisPoints, dif_pos fits]
  rfl

/-- A ratio in range has a confidence unless it is negative zero, whose text keeps its sign. -/
theorem fromRatio_eq_none_iff {value : Float} (finite : value.isFinite = true) (atLeast : 0 ≤ value)
    (atMost : value ≤ 1) : fromRatio value = none ↔ value = -0 := by
  have accepted : ¬ (value.isFinite = false ∨ ¬ (0 ≤ value ∧ value ≤ 1)) := by
    simp [finite, atLeast, atMost]
  constructor
  · intro missing
    rw [fromRatio, if_neg accepted] at missing
    rcases Binary64.parseUnsigned_display_round atLeast atMost (by decide : 0 < 10000) (by decide)
        (by decide : 10000 ≤ 65535) with negative | ⟨number, bounded, read⟩
    · exact negative
    · rw [show (10000 : Float) = Float.ofNat 10000 from rfl, read, Option.bind_some] at missing
      exact absurd missing (Option.isSome_iff_ne_none.mp (isSome_fromBasisPoints bounded))
  · rintro rfl
    decide

end ResolverConfidence

structure AuditWriteCounts where
  matched : UInt64
  modified : UInt64
  inserted : UInt64
  deleted : UInt64
  deriving DecidableEq

/-- Why no write was executed, or a write did not complete. -/
inductive AuditFailure where
  | noSafeResolution
  | resolverRejected
  | resolverUnavailable
  | resolverTimedOut
  | invalidResolverResponse
  | staleSchemaProfile
  | lowConfidence
  | mongoExecutionFailed
  deriving DecidableEq, Repr

inductive AuditOutcome where
  | executed (counts : AuditWriteCounts)
  | blocked (failure : AuditFailure)
  deriving DecidableEq

/-- A redacted record for one ambiguity-gated write attempt. -/
structure AmbiguityAuditRecord where
  schemaProfileVersion : UInt32
  operation : AuditOperation
  ambiguities : List RedactedAmbiguity
  allowedCandidates : Finset ResolutionCandidate
  selectedCandidate : Option ResolutionCandidate
  confidence : Option ResolverConfidence
  outcome : AuditOutcome
  deriving DecidableEq

end Mongres
