import Mathlib.Tactic

/-!
# Decimal numerals

Reading the decimal text of bounded integers and of floating-point numbers, with the signs that
the parsers of the source language accept.
-/

namespace Mongres.Decimal

def ofDigits (digits : List Char) : Option Nat :=
  if digits ≠ [] ∧ digits.all Char.isDigit then
    some (digits.foldl (fun total digit => 10 * total + (digit.toNat - '0'.toNat)) 0)
  else none

def parseUnsigned (bound : Nat) (text : String) : Option Nat :=
  let digits := match text.toList with
    | '+' :: digits => digits
    | digits => digits
  (ofDigits digits).filter fun number => decide (number ≤ bound)

def parseSigned (text : String) : Option Int :=
  match text.toList with
  | '-' :: digits => (ofDigits digits).map fun number => -(number : Int)
  | '+' :: digits => (ofDigits digits).map Int.ofNat
  | digits => (ofDigits digits).map Int.ofNat

def parseInt64 (text : String) : Option Int64 :=
  (parseSigned text).bind fun number =>
    if -2 ^ 63 ≤ number ∧ number < 2 ^ 63 then some (Int64.ofInt number) else none

/-- The digits of a number without a sign, and the power of ten that scales them. -/
def parts (text : List Char) : Option (Nat × Int) :=
  let (mantissa, exponent) := text.span fun letter => letter ≠ 'e' ∧ letter ≠ 'E'
  let (whole, fraction) := mantissa.span fun letter => letter ≠ '.'
  let decimals := fraction.drop 1
  match ofDigits (whole ++ decimals),
      (if exponent = [] then some 0 else parseSigned (String.ofList (exponent.drop 1))) with
  | some digits, some power => some (digits, power - decimals.length)
  | _, _ => none

def unsigned : List Char → List Char
  | '-' :: body => body
  | '+' :: body => body
  | body => body

/-- Reads a floating-point number of a format, with a sign and the names of special numbers. -/
def parseNumber {Number : Type} [Neg Number] (infinity notANumber : Number)
    (scientific : Nat × Int → Number) (text : String) : Option Number :=
  let body := unsigned text.toList
  let name := String.ofList (body.map Char.toLower)
  let magnitude :=
    if name = "inf" ∨ name = "infinity" then some infinity
    else if name = "nan" then some notANumber
    else (parts body).map scientific
  magnitude.map fun number => if text.toList.head? = some '-' then -number else number

def text (number : Int64) : String := toString number.toInt

/-! ## Reading what was printed -/

theorem ofDigits_zeros (number zeros : Nat) :
    ofDigits (Nat.toDigits 10 number ++ List.replicate zeros '0') = some (number * 10 ^ zeros) := by
  have digits : (Nat.toDigits 10 number ++ List.replicate zeros '0').all Char.isDigit = true := by
    rw [List.all_eq_true]
    intro digit membership
    rcases List.mem_append.mp membership with printed | zero
    · exact Nat.isDigit_of_mem_toDigits (by omega) (by omega) printed
    · rw [(List.mem_replicate.mp zero).2]
      rfl
  have nonempty : Nat.toDigits 10 number ++ List.replicate zeros '0' ≠ [] :=
    List.append_ne_nil_of_left_ne_nil Nat.toDigits_ne_nil _
  rw [ofDigits, if_pos ⟨nonempty, digits⟩]
  change some (Nat.ofDigitChars 10 _ 0) = _
  rw [Nat.ofDigitChars_append, Nat.ofDigitChars_ten_toDigits, Nat.ofDigitChars_replicate_zero,
    Nat.mul_comm]

theorem ofDigits_toDigits (number : Nat) : ofDigits (Nat.toDigits 10 number) = some number := by
  simpa using ofDigits_zeros number 0

theorem head_toDigits {number : Nat} {letter : Char} {rest : List Char}
    (printed : Nat.toDigits 10 number = letter :: rest) : letter ≠ '+' ∧ letter ≠ '-' := by
  have digit : letter.isDigit = true :=
    Nat.isDigit_of_mem_toDigits (by omega) (by omega) (printed ▸ List.mem_cons_self)
  constructor
  · rintro rfl
    cases digit
  · rintro rfl
    cases digit

theorem head_toDigits_ne_zero {number : Nat} (positive : 0 < number) :
    ∃ first rest, Nat.toDigits 10 number = first :: rest ∧ first ≠ '0' := by
  induction number using Nat.strong_induction_on with
  | h number inductionHypothesis =>
      by_cases small : number < 10
      · refine ⟨number.digitChar, [], Nat.toDigits_of_lt_base small, ?_⟩
        interval_cases number <;> decide
      · obtain ⟨first, rest, printed, nonzero⟩ :=
          inductionHypothesis (number / 10) (by omega) (by omega)
        rw [Nat.toDigits_of_base_le (by omega) (by omega), printed]
        exact ⟨first, rest ++ [(number % 10).digitChar], rfl, nonzero⟩

theorem parseUnsigned_zeros {bound number zeros : Nat} (fits : number * 10 ^ zeros ≤ bound) :
    parseUnsigned bound (String.ofList (Nat.toDigits 10 number ++ List.replicate zeros '0')) =
      some (number * 10 ^ zeros) := by
  obtain ⟨first, rest, printed⟩ := List.exists_cons_of_ne_nil (@Nat.toDigits_ne_nil number 10)
  have unsigned := (head_toDigits printed).1
  have read := ofDigits_zeros number zeros
  rw [printed, List.cons_append] at read ⊢
  rw [parseUnsigned, String.toList_ofList]
  split
  · rename_i digits same
    cases same
    exact absurd rfl unsigned
  · rw [read, Option.filter_some, decide_eq_true fits]
    rfl

theorem parseUnsigned_toDigits {bound number : Nat} (fits : number ≤ bound) :
    parseUnsigned bound (String.ofList (Nat.toDigits 10 number)) = some number := by
  simpa using @parseUnsigned_zeros bound number 0 (by simpa using fits)

theorem parseSigned_toDigits (number : Nat) :
    parseSigned (String.ofList (Nat.toDigits 10 number)) = some (number : Int) := by
  have read := ofDigits_toDigits number
  rw [parseSigned, String.toList_ofList]
  split
  · rename_i rest printed
    exact absurd rfl (head_toDigits printed).2
  · rename_i rest printed
    exact absurd rfl (head_toDigits printed).1
  · rw [read]
    rfl

theorem parseInt64_toDigits {number : Nat} (fits : number < 2 ^ 63) :
    parseInt64 (String.ofList (Nat.toDigits 10 number)) = some (Int64.ofInt number) := by
  have inRange : (-2 ^ 63 : Int) ≤ number ∧ (number : Int) < 2 ^ 63 := by omega
  rw [parseInt64, parseSigned_toDigits, Option.bind_some, if_pos inRange]

theorem parseSigned_toString (number : Int) : parseSigned (toString number) = some number := by
  cases number with
  | ofNat number => exact parseSigned_toDigits number
  | negSucc number =>
      have letters : (toString (Int.negSucc number)).toList =
          '-' :: Nat.toDigits 10 (number + 1) := by
        change ("-" ++ String.ofList (Nat.toDigits 10 (number + 1))).toList = _
        simp
      have read := ofDigits_toDigits (number + 1)
      rw [parseSigned, letters]
      simp only [read]
      rfl

theorem parseInt64_text (number : Int64) : parseInt64 (text number) = some number := by
  have inRange : -2 ^ 63 ≤ number.toInt ∧ number.toInt < 2 ^ 63 :=
    ⟨number.le_toInt, number.toInt_lt⟩
  rw [parseInt64, text, parseSigned_toString, Option.bind_some, if_pos inRange, Int64.ofInt_toInt]

example : parseInt64 "-9223372036854775808" = some (-9223372036854775808) := by decide
example : parseInt64 "9223372036854775808" = none := by decide

end Mongres.Decimal
