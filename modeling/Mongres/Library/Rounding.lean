import Mongres.Library.Binary64

/-!
# Rounding of binary64 numbers

What the format stores, that packing and rounding keep it, and how far a rounded
product lies from the exact one.
-/

namespace Mongres.Binary64

open Float.Model (UnpackedFloat Format totalExponent)
open Float.Model.UnpackedFloat

/-! ## Stored numbers -/

/-- A mantissa and an exponent as the format stores them. -/
structure Stored (mantissa : Nat) (exponent : Int) : Prop where
  positive : 0 < mantissa
  bounded : mantissa < 2 ^ 53
  atLeast : -1074 ≤ exponent
  normalized : 2 ^ 52 ≤ mantissa ∨ exponent = -1074

theorem Stored.log2_le {mantissa : Nat} {exponent : Int} (stored : Stored mantissa exponent) :
    mantissa.log2 ≤ 52 := by
  have below := (Nat.log2_lt stored.positive.ne').mpr stored.bounded
  omega

theorem log2_of_normalized {mantissa : Nat} (normalized : 2 ^ 52 ≤ mantissa)
    (bounded : mantissa < 2 ^ 53) : mantissa.log2 = 52 := by
  have nonzero : mantissa ≠ 0 := by omega
  have below := (Nat.log2_lt nonzero).mpr bounded
  have above := (Nat.le_log2 nonzero).mpr normalized
  omega

theorem targetExponent_eq (mantissa : Nat) (exponent : Int) :
    Format.binary64.targetExponent (totalExponent mantissa exponent) =
      max (mantissa.log2 + exponent - 52) (-1074) := by
  change max (((mantissa.log2 + 1 : Nat) : Int) + exponent - 53) (-1074) = _
  omega

theorem Stored.targetExponent_eq {mantissa : Nat} {exponent : Int}
    (stored : Stored mantissa exponent) :
    Format.binary64.targetExponent (totalExponent mantissa exponent) = exponent := by
  rw [Binary64.targetExponent_eq]
  have above := stored.atLeast
  have small := stored.log2_le
  rcases stored.normalized with normalized | least
  · have exact := log2_of_normalized normalized stored.bounded
    omega
  · omega

theorem toNat_implicit {width : Nat} (mantissa : BitVec width) :
    (1#1 ++ mantissa).toNat = 2 ^ width + mantissa.toNat := by
  rw [BitVec.toNat_append, ← Nat.shiftLeft_add_eq_or_of_lt mantissa.isLt, Nat.shiftLeft_eq]
  simp

theorem finite_congr {sign other : Sign} {mantissa rest : Nat} {exponent power : Int}
    {positive : 0 < mantissa} {restPositive : 0 < rest} (signs : sign = other)
    (mantissas : mantissa = rest) (exponents : exponent = power) :
    UnpackedFloat.finite sign mantissa exponent positive =
      .finite other rest power restPositive := by
  subst signs mantissas exponents
  rfl

theorem unpack_special {bits : BitVec Format.binary64.numBits}
    (special : unpackExponent bits = -1#11) :
    unpack Format.binary64 bits = .infinity (Sign.ofBitVec (unpackSign bits)) ∨
      unpack Format.binary64 bits = .notANumber := by
  by_cases empty : unpackMantissa bits = 0#52
  · exact .inl ((if_pos special).trans (if_pos empty))
  · exact .inr ((if_pos special).trans (if_neg empty))

theorem unpack_zero {bits : BitVec Format.binary64.numBits}
    (least : unpackExponent bits = 0#11) (empty : unpackMantissa bits = 0#52) :
    unpack Format.binary64 bits = .zero (Sign.ofBitVec (unpackSign bits)) := by
  have ordinary : ¬ unpackExponent bits = -1#11 := by
    rw [least]
    decide
  exact (if_neg ordinary).trans ((if_pos least).trans (dif_pos empty))

theorem unpack_subnormal {bits : BitVec Format.binary64.numBits}
    (least : unpackExponent bits = 0#11) (nonempty : unpackMantissa bits ≠ 0#52) :
    unpack Format.binary64 bits =
      .finite (Sign.ofBitVec (unpackSign bits)) (unpackMantissa bits).toNat (-1074)
        (Nat.pos_of_ne_zero fun zero => nonempty (BitVec.eq_of_toNat_eq zero)) := by
  have ordinary : ¬ unpackExponent bits = -1#11 := by
    rw [least]
    decide
  refine (if_neg ordinary).trans ((if_pos least).trans ((dif_neg nonempty).trans ?_))
  apply finite_congr rfl rfl
  rw [least]
  rfl

theorem unpack_normal {bits : BitVec Format.binary64.numBits}
    (ordinary : unpackExponent bits ≠ -1#11) (nonzero : unpackExponent bits ≠ 0#11) :
    unpack Format.binary64 bits =
      .finite (Sign.ofBitVec (unpackSign bits)) (1#1 ++ unpackMantissa bits).toNat
        ((unpackExponent bits).toNat - 1075)
        (lt_of_lt_of_eq (Nat.add_pos_left (Nat.two_pow_pos _) _) (toNat_implicit _).symm) :=
  (if_neg ordinary).trans (if_neg nonzero)

theorem stored_of_unpack {bits : BitVec Format.binary64.numBits} {sign : Sign} {mantissa : Nat}
    {exponent : Int} {positive : 0 < mantissa}
    (unpacked : unpack Format.binary64 bits = .finite sign mantissa exponent positive) :
    Stored mantissa exponent := by
  have width : (unpackMantissa bits).toNat < 2 ^ 52 := (unpackMantissa bits).isLt
  by_cases special : unpackExponent bits = -1#11
  · rcases unpack_special special with infinite | invalid
    · rw [infinite] at unpacked
      cases unpacked
    · rw [invalid] at unpacked
      cases unpacked
  · by_cases least : unpackExponent bits = 0#11
    · by_cases empty : unpackMantissa bits = 0#52
      · rw [unpack_zero least empty] at unpacked
        cases unpacked
      · rw [unpack_subnormal least empty] at unpacked
        cases unpacked
        exact
          { positive
            bounded := by omega
            atLeast := le_refl _
            normalized := .inr rfl }
    · have nonzero : (unpackExponent bits).toNat ≠ 0 := fun zero =>
        least (BitVec.eq_of_toNat_eq zero)
      have shape : (1#1 ++ unpackMantissa bits).toNat = 2 ^ 52 + (unpackMantissa bits).toNat :=
        toNat_implicit (unpackMantissa bits)
      rw [unpack_normal special least] at unpacked
      cases unpacked
      exact
        { positive
          bounded := by omega
          atLeast := by omega
          normalized := .inl (by omega) }

theorem unpackSign_packComponents {sign : Sign} {exponent : BitVec Format.binary64.exponentBits}
    {mantissa : BitVec Format.binary64.mantissaBitsWithoutImplicit} :
    unpackSign (packComponents Format.binary64 sign exponent mantissa) = sign.toBitVec := by
  change (sign.toBitVec ++ exponent ++ mantissa).extractLsb' 63 1 = sign.toBitVec
  rw [BitVec.extractLsb'_append_eq_of_le (by decide),
    BitVec.extractLsb'_append_eq_of_le (by decide)]
  cases sign <;> rfl

theorem ofBitVec_toBitVec (sign : Sign) : Sign.ofBitVec sign.toBitVec = sign := by
  cases sign <;> rfl

theorem toBitVec_ofBitVec (bit : BitVec 1) : (Sign.ofBitVec bit).toBitVec = bit := by
  revert bit
  decide

theorem unpack_pack_zero (sign : Sign) :
    unpack Format.binary64 (pack Format.binary64 (.zero sign)) = .zero sign := by
  cases sign <;> rfl

theorem pack_finite {sign : Sign} {mantissa biased : Nat} {exponent : Int}
    {positive : 0 < mantissa} (isBiased : (exponent + 1075).toNat = biased)
    (fits : biased + 1 < 2048) :
    pack Format.binary64 (.finite sign mantissa exponent positive) =
      if mantissa.log2 + 1 = 53 then
        packComponents Format.binary64 sign (BitVec.ofNat 11 biased) (BitVec.ofNat 52 mantissa)
      else packComponents Format.binary64 sign 0#11 (BitVec.ofNat 52 mantissa) := by
  have shifted : exponent + (1023 : Nat) + (52 : Nat) = exponent + 1075 := by omega
  have finite : ¬ 2 ^ 11 ≤ (exponent + (1023 : Nat) + (52 : Nat)).toNat + 1 := by
    rw [shifted, isBiased]
    omega
  refine (if_neg finite).trans ?_
  rw [← isBiased, ← shifted]
  rfl

theorem unpack_pack {sign : Sign} {mantissa : Nat} {exponent : Int} (positive : 0 < mantissa)
    (stored : Stored mantissa exponent) (fits : exponent ≤ 971) :
    unpack Format.binary64 (pack Format.binary64 (.finite sign mantissa exponent positive)) =
      .finite sign mantissa exponent positive := by
  obtain ⟨_, bounded, atLeast, normalized⟩ := stored
  obtain ⟨biased, isBiased⟩ : ∃ biased, (exponent + 1075).toNat = biased := ⟨_, rfl⟩
  rw [pack_finite isBiased (by omega)]
  by_cases normal : 2 ^ 52 ≤ mantissa
  · have exact := log2_of_normalized normal bounded
    have held : (BitVec.ofNat 11 biased).toNat = biased := by
      rw [BitVec.toNat_ofNat]
      omega
    have nonzero : BitVec.ofNat 11 biased ≠ 0#11 := by
      intro zero
      have : biased = 0 := held.symm.trans (congrArg BitVec.toNat zero)
      omega
    have finite : BitVec.ofNat 11 biased ≠ -1#11 := by
      intro infinite
      have : biased = 2047 := held.symm.trans (congrArg BitVec.toNat infinite)
      omega
    have exponents := @unpackExponent_packComponents Format.binary64 sign (BitVec.ofNat 11 biased)
      (BitVec.ofNat 52 mantissa)
    have mantissas := @unpackMantissa_packComponents Format.binary64 sign (BitVec.ofNat 11 biased)
      (BitVec.ofNat 52 mantissa)
    rw [if_pos (by omega), unpack_normal (by rwa [exponents]) (by rwa [exponents])]
    apply finite_congr
    · rw [unpackSign_packComponents, ofBitVec_toBitVec]
    · rw [mantissas, toNat_implicit, BitVec.toNat_ofNat]
      omega
    · rw [exponents, held]
      omega
  · have small : mantissa < 2 ^ 52 := by omega
    have logarithm := (Nat.log2_lt positive.ne').mpr small
    have held : (BitVec.ofNat 52 mantissa).toNat = mantissa := by
      rw [BitVec.toNat_ofNat]
      omega
    have nonzero : BitVec.ofNat 52 mantissa ≠ 0#52 := by
      intro zero
      have : mantissa = 0 := held.symm.trans (congrArg BitVec.toNat zero)
      omega
    have mantissas := @unpackMantissa_packComponents Format.binary64 sign 0#11
      (BitVec.ofNat 52 mantissa)
    rw [if_neg (by omega),
      unpack_subnormal unpackExponent_packComponents (by rwa [mantissas])]
    apply finite_congr
    · rw [unpackSign_packComponents, ofBitVec_toBitVec]
    · rw [mantissas, held]
    · omega

/-! ## Rounding -/

theorem mantissa_shiftRight (extended : ExtendedMantissa) (amount : Nat) :
    (extended >>> amount).mantissa = extended.mantissa / 2 ^ amount := by
  change (amount.repeat ExtendedMantissa.shiftRightOne extended).mantissa = _
  induction amount with
  | zero => simp [Nat.repeat]
  | succ amount inductionHypothesis =>
      change (amount.repeat ExtendedMantissa.shiftRightOne extended).mantissa / 2 = _
      rw [inductionHypothesis, Nat.div_div_eq_div_mul, Nat.pow_succ]

theorem roundedMantissa_le (extended : ExtendedMantissa) :
    extended.mantissa ≤ extended.roundedMantissa ∧
      extended.roundedMantissa ≤ extended.mantissa + 1 := by
  unfold ExtendedMantissa.roundedMantissa Accuracy.roundToNearestEven
  split <;> omega

theorem mantissa_ofMantissaAndAccuracy (mantissa : Nat) (accuracy : Accuracy) :
    (ExtendedMantissa.ofMantissaAndAccuracy mantissa accuracy).mantissa = mantissa := by
  cases accuracy with
  | exact => rfl
  | inexact order => cases order <;> rfl

theorem mantissa_shiftToTargetExponent (mantissa : Nat) (exponent : Int) (accuracy : Accuracy) :
    (shiftToTargetExponent Format.binary64 mantissa exponent accuracy).1.mantissa =
      mantissa / 2 ^ (max (mantissa.log2 + exponent - 52) (-1074) - exponent).toNat := by
  unfold shiftToTargetExponent shiftToExponent
  rw [targetExponent_eq, mantissa_shiftRight, mantissa_ofMantissaAndAccuracy]

theorem exponent_shiftToTargetExponent (mantissa : Nat) (exponent : Int) (accuracy : Accuracy) :
    (shiftToTargetExponent Format.binary64 mantissa exponent accuracy).2 =
      max exponent (max (mantissa.log2 + exponent - 52) (-1074)) := by
  unfold shiftToTargetExponent shiftToExponent
  rw [targetExponent_eq]
  dsimp only
  omega

/-- Rounding shifts twice, as the first may carry into one more bit. -/
theorem roundWithAccuracy_eq {sign : Sign} {mantissa : Nat} {exponent : Int} {accuracy : Accuracy}
    {first final : ExtendedMantissa × Int}
    (isFirst : shiftToTargetExponent Format.binary64 mantissa exponent accuracy = first)
    (isFinal :
      shiftToTargetExponent Format.binary64 first.1.roundedMantissa first.2 .exact = final) :
    roundWithAccuracy Format.binary64 sign mantissa exponent accuracy =
      if zero : final.1.mantissa = 0 then .zero sign
      else .finite sign final.1.mantissa final.2 (Nat.pos_of_ne_zero zero) := by
  subst isFirst isFinal
  rfl

theorem log2_mul_two_pow {number : Nat} (positive : 0 < number) (amount : Nat) :
    (number * 2 ^ amount).log2 = number.log2 + amount := by
  induction amount with
  | zero => simp
  | succ amount inductionHypothesis =>
      have nonzero : number * 2 ^ amount ≠ 0 := (Nat.mul_pos positive (Nat.two_pow_pos _)).ne'
      rw [show number * 2 ^ (amount + 1) = 2 * (number * 2 ^ amount) by ring,
        Nat.log2_two_mul nonzero, inductionHypothesis, Nat.add_assoc]

theorem shiftRight_exact (mantissa amount : Nat) :
    (⟨mantissa * 2 ^ amount, false, false⟩ : ExtendedMantissa) >>> amount =
      ⟨mantissa, false, false⟩ := by
  change amount.repeat ExtendedMantissa.shiftRightOne _ = _
  induction amount generalizing mantissa with
  | zero => simp [Nat.repeat]
  | succ amount inductionHypothesis =>
      change (amount.repeat ExtendedMantissa.shiftRightOne _).shiftRightOne = _
      rw [show mantissa * 2 ^ (amount + 1) = mantissa * 2 * 2 ^ amount by ring,
        inductionHypothesis]
      simp [ExtendedMantissa.shiftRightOne]

theorem roundWithAccuracy_of_stored {sign : Sign} {mantissa : Nat} {exponent : Int}
    (stored : Stored mantissa exponent) (amount : Nat) :
    roundWithAccuracy Format.binary64 sign (mantissa * 2 ^ amount) (exponent - amount) .exact =
      .finite sign mantissa exponent stored.positive := by
  have shifted (amount : Nat) :
      shiftToTargetExponent Format.binary64 (mantissa * 2 ^ amount) (exponent - amount) .exact =
        (⟨mantissa, false, false⟩, exponent) := by
    have target : Format.binary64.targetExponent
        (totalExponent (mantissa * 2 ^ amount) (exponent - amount)) = exponent := by
      have kept := stored.targetExponent_eq
      rw [targetExponent_eq] at kept ⊢
      rw [log2_mul_two_pow stored.positive]
      omega
    unfold shiftToTargetExponent shiftToExponent
    rw [target]
    dsimp only
    rw [show (exponent - (exponent - amount)).toNat = amount by omega, Int.sub_add_cancel]
    exact congrArg (fun extended => (extended, exponent)) (shiftRight_exact mantissa amount)
  have unshifted := shifted 0
  rw [Nat.pow_zero, Nat.mul_one, Nat.cast_zero, Int.sub_zero] at unshifted
  rw [roundWithAccuracy_eq (shifted amount) unshifted]
  exact dif_neg stored.positive.ne'

/-- The first shift leaves a mantissa that fits, at the exponent that it aims at. -/
theorem firstShift {mantissa : Nat} {exponent : Int} {accuracy : Accuracy}
    (wide : exponent ≤ max (mantissa.log2 + exponent - 52) (-1074)) :
    ∃ amount : Nat,
      shiftToTargetExponent Format.binary64 mantissa exponent accuracy =
        (ExtendedMantissa.ofMantissaAndAccuracy mantissa accuracy >>> amount,
          exponent + (amount : Nat)) ∧
      exponent + amount = max (mantissa.log2 + exponent - 52) (-1074) ∧
      mantissa / 2 ^ amount < 2 ^ 53 ∧
      (2 ^ 52 ≤ mantissa / 2 ^ amount ∨ exponent + amount = -1074) := by
  obtain ⟨amount, target⟩ : ∃ amount : Nat,
      exponent + amount = max (mantissa.log2 + exponent - 52) (-1074) :=
    ⟨(max (mantissa.log2 + exponent - 52) (-1074) - exponent).toNat, by omega⟩
  have units : (exponent + amount - exponent).toNat = amount := by omega
  refine ⟨amount, ?_, target, ?_, ?_⟩
  · unfold shiftToTargetExponent shiftToExponent
    rw [targetExponent_eq, ← target]
    dsimp only
    rw [units]
  · rw [Nat.div_lt_iff_lt_mul (Nat.two_pow_pos amount), ← Nat.pow_add]
    calc mantissa < 2 ^ (mantissa.log2 + 1) := Nat.lt_log2_self
      _ ≤ 2 ^ (53 + amount) := Nat.pow_le_pow_right (by omega) (by omega)
  · by_cases least : exponent + amount = -1074
    · exact .inr least
    · have nonzero : mantissa ≠ 0 := by
        rintro rfl
        rw [Nat.log2_zero] at target wide
        omega
      refine .inl ?_
      rw [Nat.le_div_iff_mul_le (Nat.two_pow_pos amount), ← Nat.pow_add]
      exact (Nat.le_log2 nonzero).mp (by omega)

/-- The second shift only removes a carry. -/
theorem secondShift {rounded : Nat} {power : Int} (bounded : rounded ≤ 2 ^ 53)
    (atLeast : -1074 ≤ power) :
    (shiftToTargetExponent Format.binary64 rounded power .exact).1.mantissa =
        (if rounded = 2 ^ 53 then 2 ^ 52 else rounded) ∧
      (shiftToTargetExponent Format.binary64 rounded power .exact).2 =
        (if rounded = 2 ^ 53 then power + 1 else power) := by
  rw [mantissa_shiftToTargetExponent, exponent_shiftToTargetExponent]
  by_cases carried : rounded = 2 ^ 53
  · rw [if_pos carried, if_pos carried, carried, Nat.log2_two_pow]
    have amount : (max (((53 : Nat) : Int) + power - 52) (-1074) - power).toNat = 1 := by omega
    rw [amount]
    exact ⟨by norm_num, by omega⟩
  · rw [if_neg carried, if_neg carried]
    have small : rounded.log2 ≤ 52 := by
      by_cases zero : rounded = 0
      · simp [zero]
      · have below := (Nat.log2_lt zero).mpr (show rounded < 2 ^ 53 by omega)
        omega
    have amount : (max ((rounded.log2 : Int) + power - 52) (-1074) - power).toNat = 0 := by omega
    rw [amount, Nat.pow_zero, Nat.div_one]
    exact ⟨rfl, by omega⟩

theorem roundWithAccuracy_stored {sign : Sign} {mantissa : Nat} {exponent : Int}
    {accuracy : Accuracy} (wide : exponent ≤ max (mantissa.log2 + exponent - 52) (-1074)) :
    ∃ amount rounded : Nat,
      (ExtendedMantissa.ofMantissaAndAccuracy mantissa accuracy >>> amount).roundedMantissa =
        rounded ∧
      exponent + amount = max (mantissa.log2 + exponent - 52) (-1074) ∧
      mantissa / 2 ^ amount < 2 ^ 53 ∧
      (2 ^ 52 ≤ mantissa / 2 ^ amount ∨ exponent + amount = -1074) ∧
      ((roundWithAccuracy Format.binary64 sign mantissa exponent accuracy = .zero sign ∧
          rounded = 0) ∨
        ∃ final power positive,
          roundWithAccuracy Format.binary64 sign mantissa exponent accuracy =
            .finite sign final power positive ∧ Stored final power ∧
          (rounded = 2 ^ 53 ∧ final = 2 ^ 52 ∧ power = exponent + amount + 1 ∨
            rounded ≠ 2 ^ 53 ∧ final = rounded ∧ power = exponent + amount)) := by
  obtain ⟨amount, shifted, target, narrow, normalized⟩ := @firstShift _ _ accuracy wide
  have bounds := roundedMantissa_le
    (ExtendedMantissa.ofMantissaAndAccuracy mantissa accuracy >>> amount)
  rw [mantissa_shiftRight, mantissa_ofMantissaAndAccuracy] at bounds
  refine ⟨amount, _, rfl, target, narrow, normalized, ?_⟩
  generalize isRounded :
    (ExtendedMantissa.ofMantissaAndAccuracy mantissa accuracy >>> amount).roundedMantissa =
      rounded at *
  obtain ⟨final, power⟩ := @secondShift rounded (exponent + amount) (by omega) (by omega)
  rw [roundWithAccuracy_eq shifted rfl, isRounded]
  by_cases zero : (shiftToTargetExponent Format.binary64 rounded (exponent + amount)
      .exact).1.mantissa = 0
  · refine .inl ⟨dif_pos zero, ?_⟩
    rw [final] at zero
    split at zero <;> omega
  · refine .inr ⟨_, _, Nat.pos_of_ne_zero zero, dif_neg zero, ?_⟩
    rw [final] at zero ⊢
    rw [power]
    by_cases carried : rounded = 2 ^ 53
    · rw [if_pos carried, if_pos carried]
      exact ⟨⟨by omega, by omega, by omega, by omega⟩, .inl ⟨carried, rfl, rfl⟩⟩
    · rw [if_neg carried] at zero
      rw [if_neg carried, if_neg carried]
      exact ⟨⟨by omega, by omega, by omega, by omega⟩, .inr ⟨carried, rfl, rfl⟩⟩

/-- A rounded product is zero or stored, and lies at most one unit above the exact one. -/
theorem roundWithAccuracy_exact {sign : Sign} {mantissa : Nat} {exponent : Int}
    (wide : 52 ≤ mantissa.log2) :
    roundWithAccuracy Format.binary64 sign mantissa exponent .exact = .zero sign ∨
      ∃ rounded power positive,
        roundWithAccuracy Format.binary64 sign mantissa exponent .exact =
          .finite sign rounded power positive ∧
        Stored rounded power ∧ exponent ≤ power ∧
        power ≤ max (mantissa.log2 + exponent - 52) (-1074) + 1 ∧
        rounded * 2 ^ (power - exponent).toNat ≤ mantissa + 2 ^ (power - exponent).toNat := by
  obtain ⟨amount, rounded, isRounded, target, _, _, zero | ⟨final, power, positive, result, stored,
    shape⟩⟩ := @roundWithAccuracy_stored sign mantissa exponent .exact (by omega)
  · exact .inl zero.1
  · have above := (roundedMantissa_le
      (ExtendedMantissa.ofMantissaAndAccuracy mantissa .exact >>> amount)).2
    rw [isRounded, mantissa_shiftRight, mantissa_ofMantissaAndAccuracy] at above
    have scaled : rounded * 2 ^ amount ≤ mantissa + 2 ^ amount := by
      calc rounded * 2 ^ amount ≤ (mantissa / 2 ^ amount + 1) * 2 ^ amount :=
            Nat.mul_le_mul_right _ above
        _ = mantissa / 2 ^ amount * 2 ^ amount + 2 ^ amount := by ring
        _ ≤ mantissa + 2 ^ amount := Nat.add_le_add_right (Nat.div_mul_le_self _ _) _
    refine .inr ⟨final, power, positive, result, stored, by omega, by omega, ?_⟩
    rcases shape with ⟨carried, rfl, rfl⟩ | ⟨_, rfl, rfl⟩
    · rw [show (exponent + amount + 1 - exponent).toNat = amount + 1 by omega]
      rw [carried] at scaled
      calc 2 ^ 52 * 2 ^ (amount + 1) = 2 ^ 53 * 2 ^ amount := by ring
        _ ≤ mantissa + 2 ^ amount := scaled
        _ ≤ mantissa + 2 ^ (amount + 1) :=
            Nat.add_le_add_left (Nat.pow_le_pow_right (by omega) (by omega)) _
    · rwa [show (exponent + amount - exponent).toNat = amount by omega]

/-! ## Integers -/

theorem stored_shifted {number : Nat} (positive : 0 < number) (small : number < 2 ^ 53) :
    Stored (number * 2 ^ (52 - number.log2)) (number.log2 - 52) := by
  have narrow : number.log2 ≤ 52 := by
    have below := (Nat.log2_lt positive.ne').mpr small
    omega
  have above := (Nat.le_log2 positive.ne').mp (le_refl number.log2)
  have below : number < 2 ^ (number.log2 + 1) := Nat.lt_log2_self
  refine ⟨Nat.mul_pos positive (Nat.two_pow_pos _), ?_, by omega, .inl ?_⟩
  · calc number * 2 ^ (52 - number.log2) < 2 ^ (number.log2 + 1) * 2 ^ (52 - number.log2) :=
          Nat.mul_lt_mul_of_pos_right below (Nat.two_pow_pos _)
      _ = 2 ^ 53 := by
          rw [← Nat.pow_add]
          congr 1
          omega
  · calc 2 ^ 52 = 2 ^ number.log2 * 2 ^ (52 - number.log2) := by
          rw [← Nat.pow_add]
          congr 1
          omega
      _ ≤ number * 2 ^ (52 - number.log2) := Nat.mul_le_mul_right _ above

theorem unpack_mul {left right : Float} {mantissa other : Nat} {exponent power : Int}
    {positive : 0 < mantissa} {otherPositive : 0 < other}
    (isLeft : left.toModel.unpack = .finite .positive mantissa exponent positive)
    (isRight : right.toModel.unpack = .finite .positive other power otherPositive) :
    (left * right).toModel.unpack = unpack Format.binary64 (pack Format.binary64
      (roundWithAccuracy Format.binary64 .positive (mantissa * other) (exponent + power)
        .exact)) := by
  change unpack Format.binary64 (pack Format.binary64
    (mul Format.binary64 left.toModel.unpack right.toModel.unpack)) = _
  rw [isLeft, isRight]
  rfl

theorem unpacked_ofNat {number : Nat} (positive : 0 < number) (small : number < 2 ^ 53) :
    UnpackedFloat.ofNat Format.binary64 number =
      .finite .positive (number * 2 ^ (52 - number.log2)) (number.log2 - 52)
        (Nat.mul_pos positive (Nat.two_pow_pos _)) := by
  have narrow : number.log2 ≤ 52 := by
    have below := (Nat.log2_lt positive.ne').mpr small
    omega
  have target : Format.binary64.targetExponent (totalExponent number 0) = number.log2 - 52 := by
    rw [targetExponent_eq]
    omega
  have above : Ord.compare (number : Int) 0 = .gt := by
    rw [Int.compare_eq_gt]
    omega
  have units : (0 - ((number.log2 : Int) - 52)).toNat = 52 - number.log2 := by omega
  have power : (0 : Int) - ((52 - number.log2 : Nat) : Int) = number.log2 - 52 := by omega
  have kept := @roundWithAccuracy_of_stored .positive _ _ (stored_shifted positive small) 0
  rw [Nat.pow_zero, Nat.mul_one, Nat.cast_zero, Int.sub_zero] at kept
  unfold UnpackedFloat.ofNat UnpackedFloat.ofInt UnpackedFloat.normalize
  rw [above]
  dsimp only
  unfold UnpackedFloat.round decreaseExponent
  rw [Int.toNat_natCast, target]
  dsimp only
  rw [units, power, Nat.shiftLeft_eq]
  exact kept

theorem unpack_toFloat {number : Nat} (positive : 0 < number) (small : number < 2 ^ 53) :
    number.toUInt64.toFloat.toModel.unpack =
      .finite .positive (number * 2 ^ (52 - number.log2)) (number.log2 - 52)
        (Nat.mul_pos positive (Nat.two_pow_pos _)) := by
  have narrow : number.log2 ≤ 52 := by
    have below := (Nat.log2_lt positive.ne').mpr small
    omega
  have stored := stored_shifted positive small
  have kept : number.toUInt64.toNat = number := by
    rw [Nat.toUInt64_eq, UInt64.toNat_ofNat']
    omega
  change unpack Format.binary64 (pack Format.binary64
    (UnpackedFloat.ofNat Format.binary64 number.toUInt64.toNat)) = _
  rw [kept, unpacked_ofNat positive small]
  exact unpack_pack stored.positive stored (by omega)

theorem ofNat_eq_mul {number : Nat} (small : number < 2 ^ 53) :
    Float.ofNat number = number.toUInt64.toFloat * Float.ofBits 0x3FF0000000000000 := by
  change Float.ofScientific number false 0 = _
  unfold Float.ofScientific
  rw [dif_pos ⟨small, by omega⟩]
  rfl

theorem unpack_ofNat {number : Nat} (positive : 0 < number) (small : number < 2 ^ 53) :
    (Float.ofNat number).toModel.unpack =
      .finite .positive (number * 2 ^ (52 - number.log2)) (number.log2 - 52)
        (Nat.mul_pos positive (Nat.two_pow_pos _)) := by
  have narrow : number.log2 ≤ 52 := by
    have below := (Nat.log2_lt positive.ne').mpr small
    omega
  have stored := stored_shifted positive small
  have converted := unpack_toFloat positive small
  have one : (Float.ofBits 0x3FF0000000000000).toModel.unpack =
      .finite .positive (2 ^ 52) (-52) (by decide) := rfl
  rw [ofNat_eq_mul small, unpack_mul converted one,
    show (number.log2 : Int) - 52 + -52 = number.log2 - 52 - (52 : Nat) by omega,
    roundWithAccuracy_of_stored stored 52]
  exact unpack_pack stored.positive stored (by omega)

/-! ## Ratios -/

theorem unpack_of_ratio {ratio : Float} (nonnegative : 0 ≤ ratio) (atMost : ratio ≤ 1) :
    (∃ sign, ratio.toModel.unpack = .zero sign) ∨
      ∃ mantissa, ∃ places : Nat, ∃ positive,
        ratio.toModel.unpack = .finite .positive mantissa (-places) positive ∧
          52 ≤ places ∧ mantissa ≤ 2 ^ places := by
  obtain ⟨lower, comparedZero, isLower⟩ := (le_iff 0 ratio).mp nonnegative
  obtain ⟨upper, comparedOne, isUpper⟩ := (le_iff ratio 1).mp atMost
  have zero : (0 : Float).toModel.unpack = .zero .positive := rfl
  have one : (1 : Float).toModel.unpack = .finite .positive (2 ^ 52) (-52) (by decide) := rfl
  rw [zero] at comparedZero
  rw [one] at comparedOne
  cases shape : ratio.toModel.unpack with
  | notANumber => rw [shape] at comparedOne; cases comparedOne
  | zero sign => exact .inl ⟨sign, rfl⟩
  | infinity sign =>
      rw [shape] at comparedZero comparedOne
      cases sign with
      | negative => cases comparedZero; cases isLower
      | positive => cases comparedOne; cases isUpper
  | finite sign mantissa exponent positive =>
      have stored := stored_of_unpack shape
      rw [shape] at comparedZero comparedOne
      cases sign with
      | negative => cases comparedZero; cases isLower
      | positive =>
          have ordered : ((Ord.compare exponent (-52)).then (Ord.compare mantissa (2 ^ 52))).isLE =
              true := by
            rw [← Option.some.inj comparedOne] at isUpper
            exact isUpper
          have bounded : exponent < -52 ∨ exponent = -52 ∧ mantissa ≤ 2 ^ 52 := by
            rcases lt_trichotomy exponent (-52) with less | equal | greater
            · exact .inl less
            · refine .inr ⟨equal, ?_⟩
              rw [equal, Int.compare_eq_eq.mpr rfl] at ordered
              exact Nat.isLE_compare.mp ordered
            · rw [Int.compare_eq_gt.mpr greater] at ordered
              cases ordered
          refine .inr ⟨mantissa, exponent.natAbs, positive, ?_, by omega, ?_⟩
          · apply finite_congr rfl rfl
            omega
          · rcases bounded with less | ⟨equal, small⟩
            · calc mantissa ≤ 2 ^ 53 := stored.bounded.le
                _ ≤ 2 ^ exponent.natAbs := Nat.pow_le_pow_right (by omega) (by omega)
            · rw [equal]
              exact small

theorem product_bounds {mantissa factor places scale : Nat} (positive : 0 < mantissa)
    (bounded : mantissa ≤ 2 ^ places) (factorPositive : 0 < factor)
    (normalized : 2 ^ 52 ≤ factor * 2 ^ scale) :
    52 ≤ (mantissa * (factor * 2 ^ scale)).log2 ∧
      mantissa * (factor * 2 ^ scale) ≤ factor * 2 ^ (places + scale) ∧
      (mantissa * (factor * 2 ^ scale)).log2 ≤ factor.log2 + (places + scale) := by
  have nonzero : mantissa * (factor * 2 ^ scale) ≠ 0 :=
    (Nat.mul_pos positive (Nat.mul_pos factorPositive (Nat.two_pow_pos _))).ne'
  have above : mantissa * (factor * 2 ^ scale) ≤ factor * 2 ^ (places + scale) := by
    calc mantissa * (factor * 2 ^ scale) ≤ 2 ^ places * (factor * 2 ^ scale) :=
          Nat.mul_le_mul_right _ bounded
      _ = factor * 2 ^ (places + scale) := by ring
  refine ⟨?_, above, ?_⟩
  · rw [Nat.le_log2 nonzero]
    calc 2 ^ 52 ≤ factor * 2 ^ scale := normalized
      _ ≤ mantissa * (factor * 2 ^ scale) := Nat.le_mul_of_pos_left _ positive
  · rw [← Nat.lt_succ_iff, Nat.log2_lt nonzero]
    calc mantissa * (factor * 2 ^ scale) ≤ factor * 2 ^ (places + scale) := above
      _ < 2 ^ (factor.log2 + 1) * 2 ^ (places + scale) :=
          Nat.mul_lt_mul_of_pos_right Nat.lt_log2_self (Nat.two_pow_pos _)
      _ = 2 ^ (factor.log2 + (places + scale) + 1) := by ring

theorem unpack_mul_ofNat {ratio : Float} {mantissa places factor : Nat} {positive : 0 < mantissa}
    (shape : ratio.toModel.unpack = .finite .positive mantissa (-places) positive)
    (bounded : mantissa ≤ 2 ^ places) (factorPositive : 0 < factor)
    (small : factor < 2 ^ 50) :
    (ratio * Float.ofNat factor).toModel.unpack = .zero .positive ∨
      ∃ rounded, ∃ units : Nat, ∃ roundedPositive,
        (ratio * Float.ofNat factor).toModel.unpack =
          .finite .positive rounded (-units) roundedPositive ∧
        2 ≤ units ∧ rounded ≤ factor * 2 ^ units + 1 := by
  have narrow : factor.log2 ≤ 49 := by
    have below := (Nat.log2_lt factorPositive.ne').mpr small
    omega
  have held := unpack_ofNat factorPositive (by omega : factor < 2 ^ 53)
  obtain ⟨scale, isScale⟩ : ∃ scale, scale = 52 - factor.log2 := ⟨_, rfl⟩
  have exponents : -(places : Int) + (factor.log2 - 52) = -((places + scale : Nat) : Int) := by
    omega
  rw [← isScale] at held
  have normalized := (stored_shifted factorPositive (by omega : factor < 2 ^ 53)).normalized
  rw [← isScale] at normalized
  obtain ⟨wide, above, logarithm⟩ :=
    @product_bounds _ _ _ scale positive bounded factorPositive (by omega)
  rw [unpack_mul shape held, exponents]
  rcases @roundWithAccuracy_exact .positive _ (-((places + scale : Nat) : Int)) wide with
    zero | ⟨rounded, power, roundedPositive, result, stored, atLeast, atMost, scaled⟩
  · rw [zero]
    exact .inl (unpack_pack_zero _)
  · obtain ⟨units, rfl⟩ : ∃ units : Nat, power = -units := ⟨power.natAbs, by omega⟩
    refine .inr ⟨rounded, units, roundedPositive, ?_, by omega, ?_⟩
    · rw [result]
      exact unpack_pack roundedPositive stored (by omega)
    · obtain ⟨amount, split⟩ : ∃ amount, places + scale = amount + units :=
        ⟨places + scale - units, by omega⟩
      rw [split] at above scaled
      have shift : (-(units : Int) - -((amount + units : Nat) : Int)).toNat = amount := by omega
      rw [shift] at scaled
      apply Nat.le_of_mul_le_mul_right _ (Nat.two_pow_pos amount)
      calc rounded * 2 ^ amount ≤ factor * 2 ^ (amount + units) + 2 ^ amount := by omega
        _ = (factor * 2 ^ units + 1) * 2 ^ amount := by ring

theorem round_mul_ofNat {ratio : Float} {factor : Nat} (nonnegative : 0 ≤ ratio)
    (atMost : ratio ≤ 1) (factorPositive : 0 < factor) (small : factor < 2 ^ 50) :
    (∃ sign, ratio.toModel.unpack = .zero sign ∧
        (round (ratio * Float.ofNat factor)).toModel.unpack = .zero sign) ∨
      (round (ratio * Float.ofNat factor)).toModel.unpack = .zero .positive ∨
        ∃ number ≤ factor, round (ratio * Float.ofNat factor) = Float.ofNat number := by
  rcases unpack_of_ratio nonnegative atMost with
    ⟨sign, zero⟩ | ⟨mantissa, places, positive, shape, _, bounded⟩
  · have product : (ratio * Float.ofNat factor).toModel.unpack = .zero sign := by
      change unpack Format.binary64 (pack Format.binary64
        (mul Format.binary64 ratio.toModel.unpack (Float.ofNat factor).toModel.unpack)) = _
      have scaled : mul Format.binary64 (.zero sign) (Float.ofNat factor).toModel.unpack =
          .zero sign := by
        rw [unpack_ofNat factorPositive (by omega)]
        cases sign <;> rfl
      rw [zero, scaled]
      exact unpack_pack_zero sign
    refine .inl ⟨sign, zero, ?_⟩
    rw [round, product]
    exact product
  · refine .inr ?_
    rcases unpack_mul_ofNat shape bounded factorPositive small with
      zero | ⟨rounded, units, roundedPositive, product, several, above⟩
    · rw [round, zero]
      exact .inl zero
    · refine .inr ⟨(rounded + 2 ^ units / 2) / 2 ^ units, ?_, ?_⟩
      · apply Nat.le_of_lt_succ
        rw [Nat.div_lt_iff_lt_mul (Nat.two_pow_pos units)]
        obtain ⟨rest, rfl⟩ : ∃ rest, units = rest + 2 := ⟨units - 2, by omega⟩
        have unit : 2 ^ (rest + 2) = 4 * 2 ^ rest := by ring
        have one : 1 ≤ 2 ^ rest := Nat.one_le_two_pow
        rw [Nat.succ_mul]
        omega
      · rw [round, product]
        dsimp only
        rw [if_neg (by omega)]
        simp

/-! ## Texts -/

theorem parseUnsigned_display_ofNat {number bound : Nat} (fits : number ≤ bound)
    (small : number < 2 ^ 53) :
    Decimal.parseUnsigned bound (display (Float.ofNat number)) = some number := by
  by_cases zero : number = 0
  · subst zero
    exact @Decimal.parseUnsigned_toDigits bound 0 fits
  · have positive := Nat.pos_of_ne_zero zero
    have narrow := (Nat.log2_lt zero).mpr small
    have held : 4 * (number * 2 ^ (52 - number.log2)) =
        number * 2 ^ (2 - ((number.log2 : Int) - 52)).natAbs := by
      rw [show (2 - ((number.log2 : Int) - 52)).natAbs = 2 + (52 - number.log2) by omega]
      ring
    obtain ⟨digits, power, shortest, exact⟩ :=
      shortestDigits_of_integer positive (by omega) (by omega) held
    rw [display, unpack_ofNat positive small]
    dsimp only
    rw [shortest]
    dsimp only
    rw [positional_of_integer]
    change Decimal.parseUnsigned bound ("" ++ _) = _
    rw [String.empty_append, Decimal.parseUnsigned_zeros (by omega), exact]

/-! ## Signed zeros -/

theorem toNat_of_unpack_zero {bits : BitVec Format.binary64.numBits} {sign : Sign}
    (zero : unpack Format.binary64 bits = .zero sign) :
    bits.toNat = sign.toBitVec.toNat * 2 ^ 63 := by
  have exponent : (unpackExponent bits).toNat = bits.toNat / 2 ^ 52 % 2 ^ 11 := by
    change (bits.toNat >>> 52) % 2 ^ 11 = _
    rw [Nat.shiftRight_eq_div_pow]
  have mantissa : (unpackMantissa bits).toNat = bits.toNat % 2 ^ 52 := by
    change (bits.toNat >>> 0) % 2 ^ 52 = _
    rw [Nat.shiftRight_zero]
  have signBit : (unpackSign bits).toNat = bits.toNat / 2 ^ 63 % 2 := by
    change (bits.toNat >>> 63) % 2 ^ 1 = _
    rw [Nat.shiftRight_eq_div_pow]
  have width : bits.toNat < 2 ^ 64 := bits.isLt
  by_cases special : unpackExponent bits = -1#11
  · rcases unpack_special special with infinite | invalid
    · rw [infinite] at zero
      cases zero
    · rw [invalid] at zero
      cases zero
  · by_cases least : unpackExponent bits = 0#11
    · by_cases empty : unpackMantissa bits = 0#52
      · have exponentZero : bits.toNat / 2 ^ 52 % 2 ^ 11 = 0 :=
          exponent.symm.trans (congrArg BitVec.toNat least)
        have mantissaZero : bits.toNat % 2 ^ 52 = 0 :=
          mantissa.symm.trans (congrArg BitVec.toNat empty)
        rw [unpack_zero least empty] at zero
        cases zero
        rw [toBitVec_ofBitVec, signBit]
        omega
      · rw [unpack_subnormal least empty] at zero
        cases zero
    · rw [unpack_normal special least] at zero
      cases zero

theorem eq_neg_zero {number : Float} (zero : number.toModel.unpack = .zero .negative) :
    number = -0 := by
  obtain ⟨⟨bits, valid⟩⟩ := number
  have whole : bits.toNat = 2 ^ 63 := toNat_of_unpack_zero zero
  have same : bits = 0x8000000000000000 := UInt64.toNat_inj.mp whole
  subst same
  rfl

/-- The text of a scaled and rounded ratio names an integer, unless the ratio is negative zero. -/
theorem parseUnsigned_display_round {ratio : Float} {factor bound : Nat} (nonnegative : 0 ≤ ratio)
    (atMost : ratio ≤ 1) (factorPositive : 0 < factor) (small : factor < 2 ^ 50)
    (fits : factor ≤ bound) :
    ratio = -0 ∨ ∃ number ≤ factor,
      Decimal.parseUnsigned bound (display (round (ratio * Float.ofNat factor))) = some number := by
  have zeroText {number : Float} (zero : number.toModel.unpack = .zero .positive) :
      Decimal.parseUnsigned bound (display number) = some 0 := by
    rw [display, zero]
    exact @Decimal.parseUnsigned_toDigits bound 0 (by omega)
  rcases round_mul_ofNat nonnegative atMost factorPositive small with
    ⟨sign, zero, rounded⟩ | rounded | ⟨number, bounded, rounded⟩
  · cases sign with
    | negative => exact .inl (eq_neg_zero zero)
    | positive => exact .inr ⟨0, by omega, zeroText rounded⟩
  · exact .inr ⟨0, by omega, zeroText rounded⟩
  · rw [rounded]
    exact .inr ⟨number, bounded, parseUnsigned_display_ofNat (by omega) (by omega)⟩

end Mongres.Binary64
