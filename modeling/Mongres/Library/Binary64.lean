import Mongres.Library.Decimal
import Mathlib.Data.List.DropRight

/-!
# Binary64 numbers

Order facts for floating-point numbers that are not NaN, rounding to an
integer, and the shortest decimal text that identifies a number.
-/

namespace Mongres.Binary64

open Float.Model (UnpackedFloat)

/-! ## Order -/

theorem lt_iff (a b : Float) :
    a < b ↔ a.toModel.unpack.compare b.toModel.unpack = some .lt := by
  change decide (a.toModel < b.toModel) = true ↔ _
  rw [decide_eq_true_iff]
  change (a.toModel.unpack.compare b.toModel.unpack == some .lt) = true ↔ _
  exact beq_iff_eq

theorem le_iff (a b : Float) :
    a ≤ b ↔ ∃ order, a.toModel.unpack.compare b.toModel.unpack = some order ∧ order.isLE = true := by
  change decide (a.toModel ≤ b.toModel) = true ↔ _
  rw [decide_eq_true_iff]
  change (a.toModel.unpack.compare b.toModel.unpack).any (·.isLE) = true ↔ _
  cases a.toModel.unpack.compare b.toModel.unpack <;> simp

private theorem unpacked_compare_swap (a b : UnpackedFloat) :
    b.compare a = (a.compare b).map Ordering.swap := by
  have exponents (first second : Int) (others : Ordering) :
      ((compare first second).then others).swap = (compare second first).then others.swap := by
    rw [Ordering.swap_then, Int.compare_swap]
  cases a with
  | notANumber => cases b <;> rfl
  | infinity first =>
      cases first <;> rcases b with ⟨_ | _⟩ | _ | ⟨_ | _⟩ | ⟨_ | _, _, _, _⟩ <;> rfl
  | zero first =>
      cases first <;> rcases b with ⟨_ | _⟩ | _ | ⟨_ | _⟩ | ⟨_ | _, _, _, _⟩ <;> rfl
  | finite first mantissa exponent positive =>
      cases first <;> rcases b with ⟨_ | _⟩ | _ | ⟨_ | _⟩ | ⟨_ | _, other, power, _⟩ <;> try rfl
      · change some ((compare power exponent).then (compare other mantissa)).swap =
          some ((compare exponent power).then (compare mantissa other)).swap.swap
        rw [exponents, Nat.compare_swap, Ordering.swap_swap]
      · change some ((compare power exponent).then (compare other mantissa)) =
          some ((compare exponent power).then (compare mantissa other)).swap
        rw [exponents, Nat.compare_swap]

private theorem unpacked_compare_isSome {a b : UnpackedFloat} (first : a.isNaN = false)
    (second : b.isNaN = false) : (a.compare b).isSome := by
  rcases a with ⟨_ | _⟩ | _ | ⟨_ | _⟩ | ⟨_ | _, _, _, _⟩ <;>
    rcases b with ⟨_ | _⟩ | _ | ⟨_ | _⟩ | ⟨_ | _, _, _, _⟩ <;>
    first | rfl | exact absurd first (by decide) | exact absurd second (by decide)

def compare (a b : Float) : Option Ordering := a.toModel.unpack.compare b.toModel.unpack

theorem compare_isSome {a b : Float} (first : a.isNaN = false) (second : b.isNaN = false) :
    (compare a b).isSome :=
  unpacked_compare_isSome first second

theorem eq_of_compare_self {a : Float} {order : Ordering} (compared : compare a a = some order) :
    order = .eq := by
  have swapped := unpacked_compare_swap a.toModel.unpack a.toModel.unpack
  rw [show a.toModel.unpack.compare a.toModel.unpack = some order from compared] at swapped
  cases order with
  | eq => rfl
  | _ => cases swapped

theorem le_of_not_lt {a b : Float} (first : a.isNaN = false) (second : b.isNaN = false)
    (notLess : ¬ a < b) : b ≤ a := by
  have total : (a.toModel.unpack.compare b.toModel.unpack).isSome := compare_isSome first second
  obtain ⟨order, compared⟩ := Option.isSome_iff_exists.mp total
  rw [lt_iff, compared] at notLess
  rw [le_iff, unpacked_compare_swap, compared]
  refine ⟨order.swap, rfl, ?_⟩
  cases order with
  | lt => exact absurd rfl notLess
  | eq => rfl
  | gt => rfl

theorem not_lt_of_le {a b : Float} (below : a ≤ b) : ¬ b < a := by
  obtain ⟨order, compared, isLE⟩ := (le_iff a b).mp below
  rw [lt_iff, unpacked_compare_swap, compared]
  cases order with
  | lt => simp
  | eq => simp
  | gt => cases isLE

theorem isNaN_of_isFinite {a : Float} (finite : a.isFinite = true) : a.isNaN = false := by
  change a.toModel.unpack.isFinite = true at finite
  change a.toModel.unpack.isNaN = false
  revert finite
  cases a.toModel.unpack with
  | notANumber => exact fun finite => absurd finite (by decide)
  | infinity sign => exact fun _ => rfl
  | zero sign => exact fun _ => rfl
  | finite sign mantissa exponent positive => exact fun _ => rfl

theorem isNaN_of_le {a b : Float} (below : a ≤ b) : a.isNaN = false ∧ b.isNaN = false := by
  obtain ⟨order, compared, _⟩ := (le_iff a b).mp below
  change a.toModel.unpack.isNaN = false ∧ b.toModel.unpack.isNaN = false
  revert compared
  cases a.toModel.unpack <;> cases b.toModel.unpack <;> intro compared <;>
    first | exact ⟨rfl, rfl⟩ | cases compared

theorem nonnegative_of_le {low number : Float} (nonnegative : 0 ≤ low) (above : low ≤ number) :
    0 ≤ number := by
  rw [le_iff] at nonnegative above ⊢
  have zero : (0 : Float).toModel.unpack = .zero .positive := rfl
  rw [zero] at nonnegative ⊢
  obtain ⟨lower, comparedLow, isLower⟩ := nonnegative
  obtain ⟨upper, compared, isUpper⟩ := above
  revert comparedLow compared
  rcases low.toModel.unpack with ⟨_ | _⟩ | _ | ⟨_ | _⟩ | ⟨_ | _, _, _, _⟩ <;>
    rcases number.toModel.unpack with ⟨_ | _⟩ | _ | ⟨_ | _⟩ | ⟨_ | _, _, _, _⟩ <;>
    intro comparedLow compared <;>
    first
    | exact ⟨_, rfl, rfl⟩
    | (cases comparedLow <;> cases isLower; done)
    | (cases compared <;> cases isUpper)

private theorem unpacked_isFinite_of_between {low a high : UnpackedFloat}
    (number : a.isNaN = false) (lowFinite : low.isFinite = true) (highFinite : high.isFinite = true)
    (above : a.compare low ≠ some .lt) (below : high.compare a ≠ some .lt) :
    a.isFinite = true := by
  cases a with
  | notANumber => exact absurd number (by decide)
  | zero sign => rfl
  | finite sign mantissa exponent positive => rfl
  | infinity sign =>
      -- An infinity lies on one side of every finite number.
      cases sign with
      | negative =>
          refine absurd ?_ above
          rcases low with ⟨_ | _⟩ | _ | _ | _ <;> first | rfl | exact absurd lowFinite (by decide)
      | positive =>
          refine absurd ?_ below
          rcases high with ⟨_ | _⟩ | _ | ⟨_ | _⟩ | ⟨_ | _, _, _, _⟩ <;>
            first | rfl | exact absurd highFinite (by decide)

theorem isFinite_of_between {low a high : Float} (number : a.isNaN = false)
    (lowFinite : low.isFinite = true) (highFinite : high.isFinite = true)
    (above : ¬ a < low) (below : ¬ high < a) : a.isFinite = true := by
  rw [lt_iff] at above below
  exact unpacked_isFinite_of_between number lowFinite highFinite above below

/-! ## Decimal text and rounding -/

def scientific (parts : Nat × Int) : Float :=
  Float.ofScientific parts.1 (decide (parts.2 < 0)) parts.2.natAbs

def parse : String → Option Float := Decimal.parseNumber (1 / 0) (0 / 0) scientific

/-- The exact number that a decimal text stands for, without its sign. -/
def magnitude? (text : String) : Option ℚ :=
  (Decimal.parts (Decimal.unsigned text.toList)).map fun parts => parts.1 * 10 ^ parts.2

theorem magnitude?_eq_some {text : String} {parts : Nat × Int}
    (read : Decimal.parts (Decimal.unsigned text.toList) = some parts) :
    magnitude? text = some ((parts.1 : ℚ) * 10 ^ parts.2) :=
  congrArg (Option.map fun parts : Nat × Int => (parts.1 : ℚ) * 10 ^ parts.2) read

def hasPointOrExponent (text : String) : Bool :=
  text.toList.any fun letter => letter = '.' ∨ letter = 'e' ∨ letter = 'E'

theorem mem_unsigned {text : List Char} {letter : Char} (membership : letter ∈ text)
    (noSign : ¬ (letter = '-' ∨ letter = '+')) : letter ∈ Decimal.unsigned text := by
  rw [not_or] at noSign
  unfold Decimal.unsigned
  split
  · exact (List.mem_cons.mp membership).resolve_left noSign.1
  · exact (List.mem_cons.mp membership).resolve_left noSign.2
  · exact membership

private theorem lowered_ne {body : List Char} {letter : Char} (inside : letter ∈ body)
    (marked : letter = '.' ∨ letter = 'e' ∨ letter = 'E') {name : String}
    (plain : '.' ∉ name.toList ∧ 'e' ∉ name.toList) :
    String.ofList (body.map Char.toLower) ≠ name := by
  have lower : letter.toLower = '.' ∨ letter.toLower = 'e' := by
    rcases marked with rfl | rfl | rfl <;> decide
  have lowered : letter.toLower ∈ (String.ofList (body.map Char.toLower)).toList := by
    rw [String.toList_ofList]
    exact List.mem_map_of_mem inside
  intro same
  rw [same] at lowered
  rcases lower with point | exponent
  · exact plain.1 (point ▸ lowered)
  · exact plain.2 (exponent ▸ lowered)

theorem parse_eq_map {text : String} (decimal : hasPointOrExponent text = true) :
    parse text = (Decimal.parts (Decimal.unsigned text.toList)).map fun parts =>
      if text.toList.head? = some '-' then -scientific parts else scientific parts := by
  obtain ⟨letter, membership, mark⟩ := List.any_eq_true.mp decimal
  have marked : letter = '.' ∨ letter = 'e' ∨ letter = 'E' := of_decide_eq_true mark
  have inside : letter ∈ Decimal.unsigned text.toList := by
    apply mem_unsigned membership
    rintro (rfl | rfl)
    · exact absurd marked (by decide)
    · exact absurd marked (by decide)
  have infinite : ¬ (String.ofList ((Decimal.unsigned text.toList).map Char.toLower) = "inf" ∨
      String.ofList ((Decimal.unsigned text.toList).map Char.toLower) = "infinity") :=
    not_or.mpr ⟨lowered_ne inside marked (by decide), lowered_ne inside marked (by decide)⟩
  unfold parse Decimal.parseNumber
  dsimp only
  rw [if_neg infinite, if_neg (lowered_ne inside marked (by decide)), Option.map_map]
  rfl

/-- The nearest integer, with halves rounded away from zero. -/
def round (number : Float) : Float :=
  match number.toModel.unpack with
  | .finite sign mantissa exponent _ =>
      if 0 ≤ exponent then number
      else
        let unit := 2 ^ exponent.natAbs
        let magnitude := Float.ofNat ((mantissa + unit / 2) / unit)
        match sign with
        | .negative => -magnitude
        | .positive => magnitude
  | _ => number

private def scale (numerator denominator : Nat) (exponent : Int) : Nat × Nat :=
  if 0 ≤ exponent then (numerator * 10 ^ exponent.natAbs, denominator)
  else (numerator, denominator * 10 ^ exponent.natAbs)

/-- The position of the leading decimal digit of a positive rational: one more
than its decimal exponent. -/
private def leadingPosition (numerator denominator : Nat) : Int :=
  if denominator ≤ numerator then (Nat.toDigits 10 (numerator / denominator)).length
  else
    match (List.range 400).find? fun zeros => denominator ≤ numerator * 10 ^ (zeros + 1) with
    | some zeros => -zeros
    | none => 0

/-- The multiple of a power of ten nearest to a number, if it lies in the
interval of numbers that round to it.  All of `lower`, `value` and `upper` are
over `denominator`. -/
private def onGrid (lower value upper denominator : Nat) (closed : Bool) : Option Nat :=
  let below := value / denominator
  let inside (candidate : Nat) : Bool :=
    if closed then lower ≤ candidate * denominator && candidate * denominator ≤ upper
    else lower < candidate * denominator && candidate * denominator < upper
  match inside below, inside (below + 1) with
  | true, true =>
      some (if denominator ≤ 2 * (value % denominator) then below + 1 else below)
  | true, false => some below
  | false, true => some (below + 1)
  | false, false => none

/-- The shortest decimal digits that identify `mantissa * 2 ^ exponent`, with
their power of ten. -/
def shortestDigits (mantissa : Nat) (exponent : Int) : Nat × Int :=
  -- A power of two has a neighbour at half the distance below it.
  let gapBelow := if mantissa = 2 ^ 52 ∧ exponent ≠ -1074 then 1 else 2
  let (factor, denominator) :=
    if 2 ≤ exponent then (2 ^ (exponent - 2).natAbs, 1) else (1, 2 ^ (2 - exponent).natAbs)
  let position := leadingPosition (4 * mantissa * factor) denominator
  let found := (List.range 17).findSome? fun (digits : Nat) =>
    let unit : Int := position - (digits + 1)
    let (value, denominator) := scale (4 * mantissa * factor) denominator (-unit)
    let step := value / (4 * mantissa)
    (onGrid (value - gapBelow * step) value (value + 2 * step) denominator (mantissa % 2 == 0)).map
      fun digits => (digits, unit)
  found.getD (mantissa, 0)

/-- Digits with a power of ten, written without an exponent. -/
def positional (digits : Nat) (exponent : Int) : String :=
  let all := Nat.toDigits 10 digits
  let zeros := (all.reverse.takeWhile (· == '0')).length
  let significant := all.take (all.length - zeros)
  let point := (all.length : Int) + exponent
  if point ≤ 0 then
    "0." ++ String.ofList (List.replicate point.natAbs '0' ++ significant)
  else if significant.length ≤ point.natAbs then
    String.ofList (significant ++ List.replicate (point.natAbs - significant.length) '0')
  else
    String.ofList (significant.take point.natAbs ++ '.' :: significant.drop point.natAbs)

/-- The text of a number: shortest digits, no exponent, a sign also on zero. -/
def display (number : Float) : String :=
  match number.toModel.unpack with
  | .notANumber => "NaN"
  | .infinity sign => signText sign ++ "inf"
  | .zero sign => signText sign ++ "0"
  | .finite sign mantissa exponent _ =>
      let (digits, power) := shortestDigits mantissa exponent
      signText sign ++ positional digits power
where
  signText : UnpackedFloat.Sign → String
    | .negative => "-"
    | .positive => ""

example : display (round (0.9 * 10000)) = "9000" := by decide
example : display 0.1 = "0.1" := by decide
example : parse "-2.5e1" = some (-25) := by decide

/-! ## The text of an integer -/

private theorem multiple_eq_iff {number other denominator gap : Nat} (wide : 2 < denominator)
    (gapAtMost : gap ≤ 2) (positive : 0 < number) :
    number * denominator - gap ≤ other * denominator ∧
        other * denominator ≤ number * denominator + 2 ↔ other = number := by
  constructor
  · rintro ⟨above, below⟩
    rcases lt_trichotomy other number with less | equal | greater
    · have apart := Nat.mul_le_mul_right denominator (show other + 1 ≤ number from less)
      rw [Nat.succ_mul] at apart
      omega
    · exact equal
    · have apart := Nat.mul_le_mul_right denominator (show number + 1 ≤ other from greater)
      rw [Nat.succ_mul] at apart
      omega
  · rintro rfl
    omega

private theorem onGrid_of_integer {number denominator unit gap : Nat} {closed : Bool}
    (wide : 2 < denominator) (gapPositive : 1 ≤ gap) (gapAtMost : gap ≤ 2) (positive : 0 < number)
    (unitPositive : 0 < unit) :
    onGrid (number * denominator - gap) (number * denominator) (number * denominator + 2)
        (denominator * unit) closed =
      if unit ∣ number then some (number / unit) else none := by
  have below : number * denominator / (denominator * unit) = number / unit := by
    rw [Nat.mul_comm, Nat.mul_div_mul_left _ _ (by omega)]
  have size : denominator ≤ number * denominator := Nat.le_mul_of_pos_left _ positive
  have inside (candidate : Nat) :
      (if closed then number * denominator - gap ≤ candidate * (denominator * unit) &&
          candidate * (denominator * unit) ≤ number * denominator + 2
        else number * denominator - gap < candidate * (denominator * unit) &&
          candidate * (denominator * unit) < number * denominator + 2 : Bool) =
        decide (candidate * unit = number) := by
    have scaled : candidate * (denominator * unit) = candidate * unit * denominator := by ring
    have exact := @multiple_eq_iff number (candidate * unit) denominator gap wide gapAtMost positive
    rw [scaled, Bool.eq_iff_iff, decide_eq_true_iff, ← exact]
    cases closed with
    | true => simp
    | false =>
        simp only [Bool.false_eq_true, if_false, Bool.and_eq_true, decide_eq_true_iff]
        constructor
        · intro strict
          omega
        · intro weak
          rw [exact.mp weak]
          omega
  unfold onGrid
  dsimp only
  rw [below, inside, inside]
  have next : ¬ (number / unit + 1) * unit = number := by
    have above := Nat.lt_mul_div_succ number unitPositive
    rw [Nat.mul_comm] at above
    omega
  rw [decide_eq_false next]
  by_cases divides : unit ∣ number
  · rw [if_pos divides, decide_eq_true (Nat.div_mul_cancel divides)]
  · have uneven : ¬ number / unit * unit = number := fun even => divides (Dvd.intro_left _ even)
    rw [if_neg divides, decide_eq_false uneven]

private theorem scale_neg (numerator denominator unit : Nat) :
    scale numerator denominator (-unit) = (numerator, denominator * 10 ^ unit) := by
  unfold scale
  cases unit with
  | zero => simp
  | succ unit =>
      have places : (-((unit + 1 : Nat) : Int)).natAbs = unit + 1 := by omega
      rw [if_neg (by omega), places]

private theorem leadingPosition_of_integer {number denominator : Nat} (positive : 0 < number)
    (denominatorPositive : 0 < denominator) :
    leadingPosition (number * denominator) denominator = (Nat.toDigits 10 number).length := by
  unfold leadingPosition
  rw [if_pos (Nat.le_mul_of_pos_left _ positive), Nat.mul_div_cancel _ denominatorPositive]

private theorem findSome?_range {Found : Type} {good : Found → Prop} {search : Nat → Option Found}
    {default : Found} {last bound : Nat} (within : last < bound)
    (each : ∀ index ≤ last, ∀ found, search index = some found → good found)
    (succeeds : (search last).isSome) :
    good (((List.range bound).findSome? search).getD default) := by
  have early : ((List.range (last + 1)).findSome? search).isSome :=
    List.findSome?_isSome_iff.mpr ⟨last, List.mem_range.mpr (by omega), succeeds⟩
  obtain ⟨found, first⟩ := Option.isSome_iff_exists.mp early
  obtain ⟨index, membership, isFound⟩ := List.exists_of_findSome?_eq_some first
  obtain ⟨rest, rfl⟩ : ∃ rest, bound = last + 1 + rest := ⟨bound - (last + 1), by omega⟩
  rw [List.range_add, List.findSome?_append, first, Option.some_or, Option.getD_some]
  exact each index (Nat.lt_succ_iff.mp (List.mem_range.mp membership)) found isFound

/-- The shortest digits of an integer are exact. -/
theorem shortestDigits_of_integer {number mantissa : Nat} {exponent : Int} (positive : 0 < number)
    (short : number < 10 ^ 17) (fractional : exponent < 1)
    (held : 4 * mantissa = number * 2 ^ (2 - exponent).natAbs) :
    ∃ digits power : Nat, shortestDigits mantissa exponent = (digits, (power : Int)) ∧
      digits * 10 ^ power = number := by
  have wide : 2 < 2 ^ (2 - exponent).natAbs := by
    calc 2 < 2 ^ 2 := by omega
      _ ≤ 2 ^ (2 - exponent).natAbs := Nat.pow_le_pow_right (by omega) (by omega)
  have nonempty := @Nat.length_toDigits_pos 10 number
  have few := (Nat.length_toDigits_le_iff (by omega) (by omega : 0 < 17)).mpr short
  obtain ⟨last, length⟩ : ∃ last, (Nat.toDigits 10 number).length = last + 1 :=
    ⟨(Nat.toDigits 10 number).length - 1, by omega⟩
  unfold shortestDigits
  rw [if_neg (by omega : ¬ 2 ≤ exponent)]
  dsimp only
  have gapBounds : 1 ≤ (if mantissa = 2 ^ 52 ∧ exponent ≠ -1074 then 1 else 2) ∧
      (if mantissa = 2 ^ 52 ∧ exponent ≠ -1074 then 1 else 2) ≤ 2 := by
    split <;> omega
  generalize (if mantissa = 2 ^ 52 ∧ exponent ≠ -1074 then 1 else 2) = gap at *
  rw [Nat.mul_one, held]
  generalize 2 ^ (2 - exponent).natAbs = denominator at *
  rw [leadingPosition_of_integer positive (by omega), length]
  -- On the grid of each position of the integer, only a divisor of it lies close enough.
  have grid (index power : Nat) (position : last = index + power) :
      (let (value, finer) := scale (number * denominator) denominator
          (-(((last + 1 : Nat) : Int) - (index + 1)))
        let step := value / (number * denominator)
        (onGrid (value - gap * step) value (value + 2 * step) finer (mantissa % 2 == 0)).map
          fun digits => (digits, ((last + 1 : Nat) : Int) - (index + 1))) =
        if 10 ^ power ∣ number then some (number / 10 ^ power, (power : Int)) else none := by
    have unit : ((last + 1 : Nat) : Int) - (index + 1) = power := by omega
    rw [unit, scale_neg]
    dsimp only
    rw [Nat.div_self (Nat.mul_pos positive (by omega)), Nat.mul_one, Nat.mul_one,
      onGrid_of_integer wide gapBounds.1 gapBounds.2 positive (Nat.pow_pos (by omega))]
    split <;> rfl
  refine @findSome?_range _ (fun found => ∃ digits power : Nat, found = (digits, (power : Int)) ∧
    digits * 10 ^ power = number) _ _ last 17 (by omega) ?_ ?_
  · intro index atMost found isFound
    obtain ⟨power, position⟩ := Nat.exists_eq_add_of_le atMost
    have closest := (grid index power position).symm.trans isFound
    split at closest
    · rename_i divides
      cases closest
      exact ⟨_, _, rfl, Nat.div_mul_cancel divides⟩
    · cases closest
  · refine Option.isSome_of_eq_some ((grid last 0 rfl).trans (if_pos ?_))
    exact one_dvd number

theorem take_append_replicate (letter : Char) (text : List Char) :
    text.take (text.length - (text.reverse.takeWhile (· == letter)).length) ++
      List.replicate (text.reverse.takeWhile (· == letter)).length letter = text := by
  have copies : text.rtakeWhile (· == letter) =
      List.replicate (text.reverse.takeWhile (· == letter)).length letter := by
    rw [List.eq_replicate_iff]
    refine ⟨List.length_reverse, ?_⟩
    intro other membership
    exact eq_of_beq (@List.mem_rtakeWhile_imp _ (· == letter) _ _ membership)
  have parts := @List.rdropWhile_append_rtakeWhile _ (· == letter) text
  rw [copies] at parts
  generalize (text.reverse.takeWhile (· == letter)).length = count at *
  have front : text.take (text.length - count) = text.rdropWhile (· == letter) := by
    conv_lhs => rw [← parts]
    rw [List.length_append, List.length_replicate, Nat.add_sub_cancel, List.take_left]
  rw [front, parts]

theorem positional_of_integer (digits power : Nat) :
    positional digits power = String.ofList (Nat.toDigits 10 digits ++ List.replicate power '0') := by
  have nonempty := @Nat.length_toDigits_pos 10 digits
  have whole := take_append_replicate '0' (Nat.toDigits 10 digits)
  unfold positional
  dsimp only
  generalize ((Nat.toDigits 10 digits).reverse.takeWhile (· == '0')).length = zeros at *
  have lengths := congrArg List.length whole
  rw [List.length_append, List.length_replicate] at lengths
  have point : ((Nat.toDigits 10 digits).length + (power : Int)).natAbs =
      (Nat.toDigits 10 digits).length + power := by omega
  rw [if_neg (by omega), point, if_pos (by omega)]
  congr 1
  rw [show (Nat.toDigits 10 digits).length + power -
      ((Nat.toDigits 10 digits).take ((Nat.toDigits 10 digits).length - zeros)).length =
        zeros + power by omega, ← List.replicate_append_replicate, ← List.append_assoc, whole]

end Mongres.Binary64
