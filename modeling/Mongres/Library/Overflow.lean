import Mongres.Library.Rounding

/-!
# Overflow of binary64 numbers

A quotient is rounded past the largest finite number exactly when it reaches the middle between
that number and the next power of two, and reading a decimal numeral is rounding such a quotient.
-/

namespace Mongres.Binary64

open Float.Model (UnpackedFloat Format totalExponent)
open Float.Model.UnpackedFloat

/-- The least number that is rounded past the largest finite one: half a unit above it. -/
def overflow : ℚ := (2 ^ 53 - 1) * 2 ^ 971 + 2 ^ 970

/-! ## Half units -/

/-- How many half units of its exponent an extended mantissa holds, rounded down. -/
def halves (extended : ExtendedMantissa) : Nat :=
  2 * extended.mantissa + extended.roundBit.toNat

theorem halves_shiftRightOne (extended : ExtendedMantissa) :
    halves extended.shiftRightOne = halves extended / 2 := by
  obtain ⟨mantissa, roundBit, stickyBit⟩ := extended
  have bit : (mantissa % 2 != 0).toNat = mantissa % 2 := by
    rcases Nat.mod_two_eq_zero_or_one mantissa with even | odd
    · rw [even]
      rfl
    · rw [odd]
      rfl
  have small := roundBit.toNat_le
  change 2 * (mantissa / 2) + (mantissa % 2 != 0).toNat = (2 * mantissa + roundBit.toNat) / 2
  rw [bit]
  omega

theorem halves_shiftRight (extended : ExtendedMantissa) (amount : Nat) :
    halves (extended >>> amount) = halves extended / 2 ^ amount := by
  change halves (amount.repeat ExtendedMantissa.shiftRightOne extended) = _
  induction amount with
  | zero => simp [Nat.repeat]
  | succ amount inductionHypothesis =>
      change halves (amount.repeat ExtendedMantissa.shiftRightOne extended).shiftRightOne = _
      rw [halves_shiftRightOne, inductionHypothesis, Nat.div_div_eq_div_mul, Nat.pow_succ]

theorem halves_quotient (number : Nat) {divisor : Nat} (positive : 0 < divisor) :
    halves (ExtendedMantissa.ofMantissaAndAccuracy (number / divisor)
      (accuracyOfFraction (number % divisor) divisor)) = 2 * number / divisor := by
  obtain ⟨quotient, rest, small, rfl⟩ :
      ∃ quotient rest, rest < divisor ∧ number = divisor * quotient + rest :=
    ⟨number / divisor, number % divisor, Nat.mod_lt _ positive, (Nat.div_add_mod _ _).symm⟩
  have twice : 2 * (divisor * quotient + rest) = divisor * (2 * quotient) + 2 * rest := by ring
  rw [twice, Nat.mul_add_div positive, Nat.mul_add_div positive, Nat.mul_add_mod,
    Nat.div_eq_of_lt small, Nat.mod_eq_of_lt small, Nat.add_zero]
  unfold accuracyOfFraction
  by_cases zero : rest = 0
  · rw [if_pos zero, zero, Nat.mul_zero, Nat.zero_div]
    rfl
  · rw [if_neg zero]
    rcases lt_trichotomy (2 * rest) divisor with less | equal | greater
    · rw [Nat.compare_eq_lt.mpr less, Nat.div_eq_of_lt less]
      rfl
    · rw [Nat.compare_eq_eq.mpr equal, equal, Nat.div_self positive]
      rfl
    · have one : 2 * rest / divisor = 1 := by
        rw [Nat.div_eq_iff positive]
        omega
      rw [Nat.compare_eq_gt.mpr greater, one]
      rfl

/-- Rounding to even reaches an even bound from half a unit below it. -/
theorem le_roundedMantissa_iff (extended : ExtendedMantissa) {bound : Nat} (even : bound % 2 = 0)
    (positive : 0 < bound) :
    bound ≤ extended.roundedMantissa ↔ 2 * bound - 1 ≤ halves extended := by
  obtain ⟨mantissa, roundBit, stickyBit⟩ := extended
  cases roundBit with
  | false =>
      have kept : ExtendedMantissa.roundedMantissa ⟨mantissa, false, stickyBit⟩ = mantissa := by
        cases stickyBit <;> rfl
      rw [kept]
      change _ ↔ 2 * bound - 1 ≤ 2 * mantissa + 0
      omega
  | true =>
      change _ ↔ 2 * bound - 1 ≤ 2 * mantissa + 1
      cases stickyBit with
      | false =>
          change bound ≤ mantissa + mantissa % 2 ↔ _
          omega
      | true =>
          change bound ≤ mantissa + 1 ↔ _
          omega

/-! ## Packing -/

theorem unpack_pack_infinity (sign : Sign) :
    unpack Format.binary64 (pack Format.binary64 (.infinity sign)) = .infinity sign := by
  cases sign <;> rfl

theorem unpack_pack_overflow {sign : Sign} {mantissa : Nat} {exponent : Int}
    {positive : 0 < mantissa} (large : 972 ≤ exponent) :
    unpack Format.binary64 (pack Format.binary64 (.finite sign mantissa exponent positive)) =
      .infinity sign := by
  have shifted : exponent + (1023 : Nat) + (52 : Nat) = exponent + 1075 := by omega
  have infinite : 2 ^ 11 ≤ (exponent + (1023 : Nat) + (52 : Nat)).toNat + 1 := by
    rw [shifted]
    omega
  have packed : pack Format.binary64 (.finite sign mantissa exponent positive) =
      pack Format.binary64 (.infinity sign) := if_pos infinite
  rw [packed, unpack_pack_infinity]

theorem isFinite_pack_iff {sign : Sign} {mantissa : Nat} {exponent : Int}
    (positive : 0 < mantissa) (stored : Stored mantissa exponent) :
    (unpack Format.binary64 (pack Format.binary64
        (.finite sign mantissa exponent positive))).isFinite = true ↔ exponent ≤ 971 := by
  by_cases fits : exponent ≤ 971
  · rw [unpack_pack positive stored fits]
    exact iff_of_true rfl fits
  · rw [unpack_pack_overflow (by omega)]
    exact iff_of_false Bool.false_ne_true fits

/-! ## Rounded quotients -/

theorem overflow_eq : overflow = ((2 ^ 54 - 1 : Nat) : ℚ) * 2 ^ (970 : Int) := by
  have wider : (2 : ℚ) ^ 971 = 2 * 2 ^ 970 := pow_succ' 2 970
  have integer : (2 : ℚ) ^ (970 : Int) = 2 ^ 970 := zpow_natCast 2 970
  rw [overflow, wider, integer]
  generalize (2 : ℚ) ^ 970 = unit
  push_cast
  ring

/-- A quotient in half units of an exponent, compared as a rational number. -/
theorem le_halves_iff {number divisor amount bound : Nat} (positive : 0 < divisor)
    (exponent : Int) :
    bound ≤ 2 * number / divisor / 2 ^ amount ↔
      (bound : ℚ) * 2 ^ (exponent + amount - 1) ≤ (number / divisor : ℚ) * 2 ^ exponent := by
  have divisorPositive : (0 : ℚ) < divisor := by exact_mod_cast positive
  have unitPositive : (0 : ℚ) < 2 ^ exponent := zpow_pos (by norm_num) exponent
  have units : (2 : ℚ) ^ (exponent + amount - 1) = 2 ^ exponent * 2 ^ amount / 2 := by
    rw [zpow_sub_one₀ two_ne_zero, zpow_add₀ two_ne_zero, zpow_natCast, div_eq_mul_inv]
  rw [Nat.div_div_eq_div_mul, Nat.le_div_iff_mul_le (Nat.mul_pos positive (Nat.two_pow_pos _)),
    units]
  calc bound * (divisor * 2 ^ amount) ≤ 2 * number
      ↔ (bound : ℚ) * (divisor * 2 ^ amount) ≤ 2 * number := by exact_mod_cast Iff.rfl
    _ ↔ (bound : ℚ) * (2 ^ exponent * 2 ^ amount / 2) * divisor ≤ number * 2 ^ exponent := by
        rw [← mul_le_mul_iff_left₀ (show (0 : ℚ) < 2 ^ exponent / 2 by positivity)]
        constructor
        · intro below
          linarith
        · intro below
          linarith
    _ ↔ (bound : ℚ) * (2 ^ exponent * 2 ^ amount / 2) ≤ (number / divisor : ℚ) * 2 ^ exponent := by
        rw [div_mul_eq_mul_div, le_div_iff₀ divisorPositive]

/-- A number whose first rounding aims at an exponent reaches the overflow by that exponent, or
by a carry at the last one. -/
theorem overflow_le_iff {number divisor amount : Nat} {exponent : Int} (positive : 0 < divisor)
    (narrow : 2 * number / divisor / 2 ^ amount < 2 ^ 54)
    (normalized : 2 ^ 53 ≤ 2 * number / divisor / 2 ^ amount ∨ exponent + amount = -1074) :
    overflow ≤ (number / divisor : ℚ) * 2 ^ exponent ↔
      972 ≤ exponent + amount ∨
        exponent + amount = 971 ∧ 2 ^ 54 - 1 ≤ 2 * number / divisor / 2 ^ amount := by
  have halfUnit : (0 : ℚ) < 2 ^ (970 : Int) := zpow_pos (by norm_num) 970
  rw [overflow_eq]
  rcases lt_trichotomy (exponent + amount) 971 with less | equal | greater
  · have below := mt (@le_halves_iff number _ amount (2 ^ 54) positive exponent).mpr (by omega)
    have smaller : (2 : ℚ) ^ (exponent + amount - 1) ≤ 2 ^ (969 : Int) :=
      zpow_le_zpow_right₀ (by norm_num) (by omega)
    have double : (2 : ℚ) ^ (970 : Int) = 2 ^ (969 : Int) * 2 := zpow_add_one₀ two_ne_zero 969
    refine iff_of_false ?_ (by omega)
    rw [double] at halfUnit ⊢
    clear double
    generalize (2 : ℚ) ^ (969 : Int) = unit, (2 : ℚ) ^ (exponent + amount - 1) = scale,
      (number / divisor : ℚ) * 2 ^ exponent = value at *
    push_cast at below ⊢
    linarith
  · have reaches := @le_halves_iff number _ amount (2 ^ 54 - 1) positive exponent
    rw [show exponent + amount - 1 = 970 by omega] at reaches
    rw [← reaches]
    omega
  · have above := (@le_halves_iff number _ amount (2 ^ 53) positive exponent).mp (by omega)
    have larger : (2 : ℚ) ^ (971 : Int) ≤ 2 ^ (exponent + amount - 1) :=
      zpow_le_zpow_right₀ (by norm_num) (by omega)
    have double : (2 : ℚ) ^ (971 : Int) = 2 ^ (970 : Int) * 2 := zpow_add_one₀ two_ne_zero 970
    refine iff_of_true ?_ (by omega)
    rw [double] at larger
    clear double
    generalize (2 : ℚ) ^ (970 : Int) = unit, (2 : ℚ) ^ (exponent + amount - 1) = scale,
      (number / divisor : ℚ) * 2 ^ exponent = value at *
    push_cast at above ⊢
    linarith

theorem isFinite_quotient_iff {sign : Sign} {number divisor : Nat} {exponent : Int}
    (positive : 0 < divisor)
    (wide : exponent ≤ max ((number / divisor).log2 + exponent - 52) (-1074)) :
    (unpack Format.binary64 (pack Format.binary64 (roundWithAccuracy Format.binary64 sign
        (number / divisor) exponent (accuracyOfFraction (number % divisor) divisor)))).isFinite =
        true ↔
      (number / divisor : ℚ) * 2 ^ exponent < overflow := by
  obtain ⟨amount, rounded, isRounded, _, narrow, normalized, result⟩ :=
    @roundWithAccuracy_stored sign _ _ (accuracyOfFraction (number % divisor) divisor) wide
  generalize first :
    ExtendedMantissa.ofMantissaAndAccuracy (number / divisor)
      (accuracyOfFraction (number % divisor) divisor) >>> amount = extended at *
  have held : halves extended = 2 * number / divisor / 2 ^ amount := by
    rw [← first, halves_shiftRight, halves_quotient number positive]
  have mantissa : extended.mantissa = number / divisor / 2 ^ amount := by
    rw [← first, mantissa_shiftRight, mantissa_ofMantissaAndAccuracy]
  have bounds := roundedMantissa_le extended
  have carries := @le_roundedMantissa_iff extended (2 ^ 53) (by decide) (by decide)
  have bit := extended.roundBit.toNat_le
  have parts : halves extended = 2 * extended.mantissa + extended.roundBit.toNat := rfl
  rw [isRounded] at bounds carries
  have few : halves extended < 2 ^ 54 := by
    clear result
    omega
  have many : 2 ^ 53 ≤ halves extended ∨ exponent + amount = -1074 := by
    clear result
    omega
  rw [← not_le, overflow_le_iff positive (held ▸ few) (held ▸ many), ← held]
  rcases result with ⟨zero, none⟩ | ⟨final, power, finalPositive, result, stored, shape⟩
  · rw [zero, unpack_pack_zero]
    exact iff_of_true rfl (by omega)
  · rw [result, isFinite_pack_iff finalPositive stored]
    omega

/-! ## Products and quotients -/

theorem isFinite_mul_iff {sign other : Sign} {mantissa factor : Nat} {exponent power : Int}
    {positive : 0 < mantissa} {factorPositive : 0 < factor}
    (wide : 52 ≤ (mantissa * factor).log2) :
    (unpack Format.binary64 (pack Format.binary64 (mul Format.binary64
        (.finite sign mantissa exponent positive)
        (.finite other factor power factorPositive)))).isFinite = true ↔
      (mantissa * factor : ℚ) * 2 ^ (exponent + power) < overflow := by
  have whole := @isFinite_quotient_iff (sign * other) (mantissa * factor) 1 (exponent + power)
    one_pos (by rw [Nat.div_one]; omega)
  rw [Nat.div_one, Nat.mod_one, Nat.cast_one, div_one, Nat.cast_mul] at whole
  exact whole

theorem le_log2_div {number divisor amount : Nat} (numberPositive : 0 < number)
    (positive : 0 < divisor) (long : divisor.log2 + 53 ≤ number.log2 + amount) :
    52 ≤ (number * 2 ^ amount / divisor).log2 := by
  have large : 2 ^ 52 ≤ number * 2 ^ amount / divisor := by
    rw [Nat.le_div_iff_mul_le positive]
    calc 2 ^ 52 * divisor ≤ 2 ^ 52 * 2 ^ (divisor.log2 + 1) :=
          Nat.mul_le_mul_left _ Nat.lt_log2_self.le
      _ = 2 ^ (divisor.log2 + 53) := by ring
      _ ≤ 2 ^ (number.log2 + amount) := Nat.pow_le_pow_right (by omega) long
      _ = 2 ^ number.log2 * 2 ^ amount := Nat.pow_add 2 _ _
      _ ≤ number * 2 ^ amount := Nat.mul_le_mul_right _ (Nat.log2_self_le numberPositive.ne')
  exact (Nat.le_log2 (by omega)).mpr large

theorem isFinite_div_iff {sign other : Sign} {mantissa divisor : Nat} {exponent power : Int}
    {mantissaPositive : 0 < mantissa} {positive : 0 < divisor} :
    (unpack Format.binary64 (pack Format.binary64 (div Format.binary64
        (.finite sign mantissa exponent mantissaPositive)
        (.finite other divisor power positive)))).isFinite = true ↔
      (mantissa / divisor : ℚ) * 2 ^ (exponent - power) < overflow := by
  obtain ⟨target, isTarget⟩ : ∃ target, target = min (exponent - power)
      (Format.binary64.targetExponent
        (totalExponent mantissa exponent - totalExponent divisor power)) := ⟨_, rfl⟩
  have aims : target = min (exponent - power)
      (max ((mantissa.log2 : Int) + 1 + exponent - (divisor.log2 + 1 + power) - 53) (-1074)) :=
    isTarget
  obtain ⟨amount, isAmount⟩ : ∃ amount, amount = (exponent - power - target).toNat := ⟨_, rfl⟩
  have split : exponent - power = amount + target := by omega
  have rounds : div Format.binary64 (.finite sign mantissa exponent mantissaPositive)
        (.finite other divisor power positive) =
      roundWithAccuracy Format.binary64 (sign / other) (mantissa * 2 ^ amount / divisor) target
        (accuracyOfFraction (mantissa * 2 ^ amount % divisor) divisor) := by
    rw [← Nat.shiftLeft_eq, isAmount, isTarget]
    rfl
  have wide : target ≤ max ((mantissa * 2 ^ amount / divisor).log2 + target - 52) (-1074) := by
    by_cases least : target ≤ -1074
    · omega
    · have long := @le_log2_div _ _ amount mantissaPositive positive (by omega)
      omega
  have scaled : ((mantissa * 2 ^ amount : Nat) / divisor : ℚ) * 2 ^ target =
      (mantissa / divisor : ℚ) * 2 ^ (exponent - power) := by
    rw [split, zpow_add₀ two_ne_zero, zpow_natCast]
    push_cast
    ring
  rw [rounds, isFinite_quotient_iff positive wide, scaled]

/-! ## Decimal numerals -/

theorem overflow_bounds : (2 : ℚ) ^ (1023 : Int) ≤ overflow ∧ overflow ≤ 2 ^ (1024 : Int) := by
  have unit : (0 : ℚ) < 2 ^ (970 : Int) := zpow_pos (by norm_num) 970
  have low : (2 : ℚ) ^ (1023 : Int) = 2 ^ (53 : Int) * 2 ^ (970 : Int) :=
    zpow_add₀ two_ne_zero 53 970
  have high : (2 : ℚ) ^ (1024 : Int) = 2 ^ (54 : Int) * 2 ^ (970 : Int) :=
    zpow_add₀ two_ne_zero 54 970
  rw [overflow_eq, low, high]
  clear low high
  generalize (2 : ℚ) ^ (970 : Int) = half at *
  constructor
  · norm_num
    linarith
  · norm_num
    linarith

section OfScientific

variable {number : Nat} {power : Int}

theorem overflow_le_of_large (positive : 0 < number) (large : 1024 ≤ 3 * power) :
    overflow ≤ (number : ℚ) * 10 ^ power := by
  have one : (1 : ℚ) ≤ number := by exact_mod_cast positive
  calc overflow ≤ 2 ^ (1024 : Int) := overflow_bounds.2
    _ ≤ 2 ^ (3 * power) := zpow_le_zpow_right₀ (by norm_num) large
    _ = (2 ^ (3 : Int)) ^ power := zpow_mul 2 3 power
    _ ≤ 10 ^ power := zpow_le_zpow_left₀ (by omega) (by norm_num) (by norm_num)
    _ ≤ number * 10 ^ power := le_mul_of_one_le_left (by positivity) one

theorem lt_overflow_of_small (small : number.log2 + 1 + power ≤ 0) :
    (number : ℚ) * 10 ^ power < overflow := by
  obtain ⟨places, rfl⟩ : ∃ places : Nat, power = -places := ⟨power.natAbs, by omega⟩
  have bounded : (number : ℚ) ≤ 2 ^ places := by
    have logarithm : number < 2 ^ (number.log2 + 1) := Nat.lt_log2_self
    have wider : 2 ^ (number.log2 + 1) ≤ 2 ^ places := Nat.pow_le_pow_right (by omega) (by omega)
    exact_mod_cast (logarithm.trans_le wider).le
  have powers : (2 : ℚ) ^ places ≤ 10 ^ places := pow_le_pow_left₀ (by norm_num) (by norm_num) _
  calc (number : ℚ) * 10 ^ (-places : Int) ≤ 1 := by
        rw [zpow_neg, zpow_natCast, ← div_eq_mul_inv, div_le_one (by positivity)]
        exact bounded.trans powers
    _ = 2 ^ (0 : Int) := (zpow_zero 2).symm
    _ < 2 ^ (1023 : Int) := zpow_lt_zpow_right₀ (by norm_num) (by omega)
    _ ≤ overflow := overflow_bounds.1

theorem ofScientific_whole (positive : 0 < number) {places : Nat} (small : places ≤ 2 ^ 11)
    (shifted : 0 < number <<< 53) (powerPositive : 0 < 10 ^ places) :
    UnpackedFloat.ofScientific Format.binary64 number places =
      mul Format.binary64 (.finite .positive (number <<< 53) (-(53 : Nat)) shifted)
        (.finite .positive (10 ^ places) 0 powerPositive) :=
  (dif_neg positive.ne').trans ((if_neg (show ¬ (places : Int) > 2 ^ 11 by omega)).trans
    ((if_neg (show ¬ (places : Int) < -((2 ^ 11 : Int) + number.log2) by omega)).trans
      (if_pos (Int.natCast_nonneg places))))

theorem ofScientific_fraction (positive : 0 < number) {places : Nat} (proper : 0 < places)
    (small : (places : Int) ≤ 2 ^ 11 + number.log2) (powerPositive : 0 < 10 ^ places) :
    UnpackedFloat.ofScientific Format.binary64 number (-places) =
      div Format.binary64 (.finite .positive number 0 positive)
        (.finite .positive (10 ^ places) 0 powerPositive) := by
  have exponent : (- -(places : Int)).toNat = places := by omega
  have shape : UnpackedFloat.ofScientific Format.binary64 number (-places) =
      div Format.binary64 (.finite .positive number 0 positive)
        (.finite .positive (10 ^ (- -(places : Int)).toNat) 0 (by positivity)) :=
    (dif_neg positive.ne').trans ((if_neg (show ¬ -(places : Int) > 2 ^ 11 by omega)).trans
      ((if_neg (show ¬ -(places : Int) < -((2 ^ 11 : Int) + number.log2) by omega)).trans
        (if_neg (show ¬ 0 ≤ -(places : Int) by omega))))
  rw [shape]
  exact congrArg (div Format.binary64 _)
    (finite_congr rfl (congrArg (10 ^ ·) exponent) rfl)

theorem isFinite_whole_iff (positive : 0 < number) (places : Nat) (small : places ≤ 2 ^ 11) :
    (unpack Format.binary64 (pack Format.binary64
        (UnpackedFloat.ofScientific Format.binary64 number places))).isFinite = true ↔
      (number : ℚ) * 10 ^ (places : Int) < overflow := by
  have shift : number <<< 53 = number * 2 ^ 53 := Nat.shiftLeft_eq number 53
  have shifted : 0 < number <<< 53 := by
    rw [shift]
    positivity
  have wide : 52 ≤ (number <<< 53 * 10 ^ places).log2 := by
    rw [Nat.le_log2 (Nat.mul_pos shifted (by positivity)).ne', shift]
    calc 2 ^ 52 ≤ 1 * 2 ^ 53 * 1 := by norm_num
      _ ≤ number * 2 ^ 53 * 10 ^ places :=
          Nat.mul_le_mul (Nat.mul_le_mul_right _ positive) (Nat.one_le_pow _ _ (by omega))
  have scaled : ((number <<< 53 : Nat) * (10 ^ places : Nat) : ℚ) * 2 ^ (-(53 : Nat) + 0 : Int) =
      number * 10 ^ (places : Int) := by
    rw [shift, add_zero, zpow_neg, zpow_natCast, zpow_natCast]
    push_cast
    field_simp
    norm_num
  rw [ofScientific_whole positive small shifted (by positivity), isFinite_mul_iff wide, scaled]

theorem isFinite_fraction_iff (positive : 0 < number) (places : Nat) (proper : 0 < places)
    (small : (places : Int) ≤ 2 ^ 11 + number.log2) :
    (unpack Format.binary64 (pack Format.binary64
        (UnpackedFloat.ofScientific Format.binary64 number (-places)))).isFinite = true ↔
      (number : ℚ) * 10 ^ (-places : Int) < overflow := by
  have scaled : (number / (10 ^ places : Nat) : ℚ) * 2 ^ (0 - 0 : Int) =
      number * 10 ^ (-places : Int) := by
    rw [sub_zero, zpow_zero, mul_one, zpow_neg, zpow_natCast]
    push_cast
    rfl
  rw [ofScientific_fraction positive proper small (by positivity), isFinite_div_iff, scaled]

/-- A numeral is rounded once, as a product or as a quotient, unless its power of ten alone
decides. -/
theorem isFinite_unpackedOfScientific_iff (number : Nat) (power : Int) :
    (unpack Format.binary64 (pack Format.binary64
        (UnpackedFloat.ofScientific Format.binary64 number power))).isFinite = true ↔
      (number : ℚ) * 10 ^ power < overflow := by
  by_cases zero : number = 0
  · have shape : UnpackedFloat.ofScientific Format.binary64 number power = .zero .positive :=
      dif_pos zero
    rw [shape, unpack_pack_zero, zero, Nat.cast_zero, zero_mul]
    exact iff_of_true rfl (lt_of_lt_of_le (zpow_pos (by norm_num) 1023) overflow_bounds.1)
  have positive := Nat.pos_of_ne_zero zero
  by_cases large : power > 2 ^ 11
  · have shape : UnpackedFloat.ofScientific Format.binary64 number power = .infinity .positive :=
      (dif_neg zero).trans (if_pos large)
    rw [shape, unpack_pack_infinity]
    exact iff_of_false Bool.false_ne_true (not_lt.mpr (overflow_le_of_large positive (by omega)))
  by_cases small : power < -((2 ^ 11 : Int) + number.log2)
  · have shape : UnpackedFloat.ofScientific Format.binary64 number power = .zero .positive :=
      (dif_neg zero).trans ((if_neg large).trans (if_pos small))
    rw [shape, unpack_pack_zero]
    exact iff_of_true rfl (lt_overflow_of_small (by omega))
  by_cases whole : 0 ≤ power
  · obtain ⟨places, rfl⟩ := Int.eq_ofNat_of_zero_le whole
    exact isFinite_whole_iff positive places (by omega)
  · obtain ⟨places, rfl⟩ : ∃ places : Nat, power = -places := ⟨power.natAbs, by omega⟩
    exact isFinite_fraction_iff positive places (by omega) (by omega)

end OfScientific

/-! ## Short numerals -/

theorem isFinite_mul (left right : Float) :
    (left * right).isFinite = (unpack Format.binary64 (pack Format.binary64
      (mul Format.binary64 left.toModel.unpack right.toModel.unpack))).isFinite := rfl

theorem isFinite_div (left right : Float) :
    (left / right).isFinite = (unpack Format.binary64 (pack Format.binary64
      (div Format.binary64 left.toModel.unpack right.toModel.unpack))).isFinite := rfl

/-- A positive number of 53 bits, from one to less than `2 ^ 74`. -/
def isModerate : UnpackedFloat → Bool
  | .finite .positive mantissa exponent _ =>
      decide (2 ^ 52 ≤ mantissa ∧ mantissa < 2 ^ 53 ∧ -52 ≤ exponent ∧ exponent ≤ 21)
  | _ => false

theorem exists_of_isModerate {number : UnpackedFloat} (moderate : isModerate number = true) :
    ∃ mantissa exponent positive, number = .finite .positive mantissa exponent positive ∧
      2 ^ 52 ≤ mantissa ∧ mantissa < 2 ^ 53 ∧ -52 ≤ exponent ∧ exponent ≤ 21 := by
  cases number with
  | finite sign mantissa exponent positive =>
      cases sign with
      | negative => cases moderate
      | positive => exact ⟨mantissa, exponent, positive, rfl, of_decide_eq_true moderate⟩
  | notANumber => cases moderate
  | infinity sign => cases moderate
  | zero sign => cases moderate

theorem isModerate_powerOfTen {places : Nat}
    (inside : places < Float.exactlyRepresentablePowersOfTen.size) :
    isModerate (Float.exactlyRepresentablePowersOfTen[places]).toModel.unpack = true := by
  have each : Float.exactlyRepresentablePowersOfTen.toList.all
      (fun power => isModerate power.toModel.unpack) = true := by decide
  exact List.all_eq_true.mp each _ (Array.getElem_mem_toList inside)

theorem isModerate_toFloat {number : Nat} (positive : 0 < number) (small : number < 2 ^ 53) :
    isModerate number.toUInt64.toFloat.toModel.unpack = true := by
  have stored := stored_shifted positive small
  have narrow : number.log2 < 53 := (Nat.log2_lt positive.ne').mpr small
  have normal : 2 ^ 52 ≤ number * 2 ^ (52 - number.log2) := by
    rcases stored.normalized with normal | least
    · exact normal
    · have atLeast := stored.atLeast
      omega
  rw [unpack_toFloat positive small]
  exact decide_eq_true ⟨normal, stored.bounded, by omega, by omega⟩

section Moderate

variable {left right : UnpackedFloat}

theorem isFinite_mul_of_isModerate (leftModerate : isModerate left = true)
    (rightModerate : isModerate right = true) :
    (unpack Format.binary64 (pack Format.binary64
      (mul Format.binary64 left right))).isFinite = true := by
  obtain ⟨mantissa, exponent, positive, rfl, atLeast, bounded, _, atMost⟩ :=
    exists_of_isModerate leftModerate
  obtain ⟨factor, power, factorPositive, rfl, _, factorBounded, _, powerAtMost⟩ :=
    exists_of_isModerate rightModerate
  have wide : 52 ≤ (mantissa * factor).log2 := by
    rw [Nat.le_log2 (Nat.mul_pos positive factorPositive).ne']
    exact atLeast.trans (Nat.le_mul_of_pos_right _ factorPositive)
  have first : (mantissa : ℚ) ≤ 2 ^ 53 := by exact_mod_cast bounded.le
  have second : (factor : ℚ) ≤ 2 ^ 53 := by exact_mod_cast factorBounded.le
  rw [isFinite_mul_iff wide]
  calc (mantissa * factor : ℚ) * 2 ^ (exponent + power)
      ≤ 2 ^ 53 * 2 ^ 53 * 2 ^ (42 : Int) := by
        apply mul_le_mul (mul_le_mul first second (by positivity) (by positivity)) _
          (by positivity) (by positivity)
        exact zpow_le_zpow_right₀ (by norm_num) (by omega)
    _ = 2 ^ (148 : Int) := by norm_num
    _ < 2 ^ (1023 : Int) := zpow_lt_zpow_right₀ (by norm_num) (by omega)
    _ ≤ overflow := overflow_bounds.1

theorem isFinite_div_of_isModerate (leftModerate : isModerate left = true)
    (rightModerate : isModerate right = true) :
    (unpack Format.binary64 (pack Format.binary64
      (div Format.binary64 left right))).isFinite = true := by
  obtain ⟨mantissa, exponent, positive, rfl, _, bounded, _, atMost⟩ :=
    exists_of_isModerate leftModerate
  obtain ⟨divisor, power, divisorPositive, rfl, _, _, powerAtLeast, _⟩ :=
    exists_of_isModerate rightModerate
  have first : (mantissa : ℚ) ≤ 2 ^ 53 := by exact_mod_cast bounded.le
  have second : (1 : ℚ) ≤ divisor := by exact_mod_cast divisorPositive
  rw [isFinite_div_iff]
  calc (mantissa / divisor : ℚ) * 2 ^ (exponent - power)
      ≤ 2 ^ 53 * 2 ^ (73 : Int) := by
        apply mul_le_mul ((div_le_self (by positivity) second).trans first) _
          (by positivity) (by positivity)
        exact zpow_le_zpow_right₀ (by norm_num) (by omega)
    _ = 2 ^ (126 : Int) := by norm_num
    _ < 2 ^ (1023 : Int) := zpow_lt_zpow_right₀ (by norm_num) (by omega)
    _ ≤ overflow := overflow_bounds.1

end Moderate

section Short

variable {number : Nat} {power : Float}

theorem isFinite_mul_moderate (small : number < 2 ^ 53)
    (moderate : isModerate power.toModel.unpack = true) :
    (number.toUInt64.toFloat * power).isFinite = true := by
  rw [isFinite_mul]
  by_cases zero : number = 0
  · obtain ⟨mantissa, exponent, positive, shape, _⟩ := exists_of_isModerate moderate
    have product : mul Format.binary64 (Nat.toUInt64 0).toFloat.toModel.unpack
        (.finite .positive mantissa exponent positive) = .zero .positive := rfl
    rw [shape, zero, product, unpack_pack_zero]
    rfl
  · exact isFinite_mul_of_isModerate (isModerate_toFloat (Nat.pos_of_ne_zero zero) small) moderate

theorem isFinite_div_moderate (small : number < 2 ^ 53)
    (moderate : isModerate power.toModel.unpack = true) :
    (number.toUInt64.toFloat / power).isFinite = true := by
  rw [isFinite_div]
  by_cases zero : number = 0
  · obtain ⟨mantissa, exponent, positive, shape, _⟩ := exists_of_isModerate moderate
    have quotient : div Format.binary64 (Nat.toUInt64 0).toFloat.toModel.unpack
        (.finite .positive mantissa exponent positive) = .zero .positive := rfl
    rw [shape, zero, quotient, unpack_pack_zero]
    rfl
  · exact isFinite_div_of_isModerate (isModerate_toFloat (Nat.pos_of_ne_zero zero) small) moderate

end Short

theorem short_lt_overflow {number places : Nat} (small : number < 2 ^ 53) (few : places ≤ 22)
    {power : Int} (atMost : power ≤ places) : (number : ℚ) * 10 ^ power < overflow := by
  have bounded : (number : ℚ) ≤ 2 ^ 53 := by exact_mod_cast small.le
  have powers : (10 : ℚ) ^ power ≤ 10 ^ (22 : Int) :=
    zpow_le_zpow_right₀ (by norm_num) (by omega)
  calc (number : ℚ) * 10 ^ power ≤ 2 ^ 53 * 10 ^ (22 : Int) :=
        mul_le_mul bounded powers (by positivity) (by positivity)
    _ < 2 ^ (141 : Int) := by norm_num
    _ ≤ 2 ^ (1023 : Int) := zpow_le_zpow_right₀ (by norm_num) (by omega)
    _ ≤ overflow := overflow_bounds.1

theorem isFinite_ofScientific_iff (number places : Nat) (negative : Bool) :
    (Float.ofScientific number negative places).isFinite = true ↔
      (number : ℚ) * 10 ^ (if negative then -(places : Int) else places) < overflow := by
  by_cases short : number < 2 ^ 53 ∧ places ≤ 22
  · have inside : places < Float.exactlyRepresentablePowersOfTen.size :=
      Nat.lt_succ_of_le short.2
    unfold Float.ofScientific
    rw [dif_pos short]
    cases negative with
    | true =>
        exact iff_of_true (isFinite_div_moderate short.1 (isModerate_powerOfTen inside))
          (short_lt_overflow short.1 short.2 (by omega))
    | false =>
        exact iff_of_true (isFinite_mul_moderate short.1 (isModerate_powerOfTen inside))
          (short_lt_overflow short.1 short.2 (le_refl _))
  · unfold Float.ofScientific
    rw [dif_neg short]
    cases negative with
    | true =>
        have exponent : Int.negOfNat places = -(places : Int) := Int.negOfNat_eq
        change (unpack Format.binary64 (pack Format.binary64
          (UnpackedFloat.ofScientific Format.binary64 number (Int.negOfNat places)))).isFinite =
            true ↔ _
        rw [exponent, if_pos rfl]
        exact isFinite_unpackedOfScientific_iff number (-places)
    | false => exact isFinite_unpackedOfScientific_iff number places

/-! ## Signs -/

theorem exponent_le_of_unpack {bits : BitVec Format.binary64.numBits} {sign : Sign}
    {mantissa : Nat} {exponent : Int} {positive : 0 < mantissa}
    (unpacked : unpack Format.binary64 bits = .finite sign mantissa exponent positive) :
    exponent ≤ 971 := by
  by_cases special : unpackExponent bits = -1#11
  · rcases unpack_special special with infinite | invalid
    · rw [infinite] at unpacked
      cases unpacked
    · rw [invalid] at unpacked
      cases unpacked
  · have width : (unpackExponent bits).toNat < 2 ^ 11 := (unpackExponent bits).isLt
    have ordinary : (unpackExponent bits).toNat ≠ 2047 := fun all =>
      special (BitVec.eq_of_toNat_eq all)
    by_cases least : unpackExponent bits = 0#11
    · by_cases empty : unpackMantissa bits = 0#52
      · rw [unpack_zero least empty] at unpacked
        cases unpacked
      · rw [unpack_subnormal least empty] at unpacked
        cases unpacked
        omega
    · rw [unpack_normal special least] at unpacked
      cases unpacked
      omega

theorem isFinite_neg (number : Float) : (-number).isFinite = number.isFinite := by
  change (unpack Format.binary64 (pack Format.binary64 number.toModel.unpack.neg)).isFinite =
    number.toModel.unpack.isFinite
  cases shape : number.toModel.unpack with
  | notANumber => rfl
  | infinity sign => cases sign <;> rfl
  | zero sign => cases sign <;> rfl
  | finite sign mantissa exponent positive =>
      have kept := @unpack_pack (-sign) _ _ positive (stored_of_unpack shape)
        (exponent_le_of_unpack shape)
      have same := congrArg UnpackedFloat.isFinite kept
      exact same

/-! ## Texts -/

theorem isFinite_scientific_iff (parts : Nat × Int) :
    (scientific parts).isFinite = true ↔ (parts.1 : ℚ) * 10 ^ parts.2 < overflow := by
  have scale : (if decide (parts.2 < 0) = true then -(parts.2.natAbs : Int)
      else parts.2.natAbs) = parts.2 := by
    by_cases below : parts.2 < 0
    · rw [if_pos (decide_eq_true below)]
      omega
    · rw [if_neg (by simpa using below)]
      omega
  rw [scientific, isFinite_ofScientific_iff, scale]

/-- A text with a point or an exponent is read as soon as it stands for a number, and as a finite
number exactly when it stands for one below the overflow. -/
theorem isFinite_parse {text : String} (decimal : hasPointOrExponent text = true) :
    (parse text).map Float.isFinite =
      (magnitude? text).map fun value => decide (value < overflow) := by
  rw [parse_eq_map decimal, magnitude?, Option.map_map, Option.map_map]
  apply Option.map_congr
  intro parts _
  have finite : (scientific parts).isFinite =
      decide ((parts.1 : ℚ) * 10 ^ parts.2 < overflow) := by
    rw [Bool.eq_iff_iff, isFinite_scientific_iff, decide_eq_true_iff]
  dsimp only [Function.comp_apply]
  split
  · exact (isFinite_neg _).trans finite
  · exact finite

end Mongres.Binary64
