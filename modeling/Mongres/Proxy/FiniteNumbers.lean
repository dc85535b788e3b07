import Mongres.Library.Overflow
import Mongres.Proxy.Lossless

/-!
# Finite numbers

A parameter is checked after it has been read, so every number that it admits is finite.  A
literal is not: the reading of a text out of range succeeds with an infinity, and the literal is
admitted with it.  Up to that range the two admit the same numbers.
-/

namespace Mongres

open Fallible Binary64

/-- The text is a number with a point or an exponent that rounds beyond the largest finite one. -/
def BeyondRange (text : String) : Prop :=
  hasPointOrExponent text = true ∧ ∃ value ∈ magnitude? text, overflow ≤ value

/-- A text beyond the range is still read, as a number that is not finite. -/
theorem exists_parse_of_beyondRange {text : String} (beyond : BeyondRange text) :
    ∃ number, parse text = some number ∧ number.isFinite = false := by
  obtain ⟨decimal, value, exact, above⟩ := beyond
  have reads := isFinite_parse decimal
  rw [Option.mem_def.mp exact, Option.map_some, decide_eq_false (not_lt.mpr above)] at reads
  exact Option.map_eq_some_iff.mp reads

theorem isFinite_of_not_beyondRange {text : String} {number : Float}
    (decimal : hasPointOrExponent text = true) (read : parse text = some number)
    (inside : ¬ BeyondRange text) : number.isFinite = true := by
  have reads := isFinite_parse decimal
  rw [read, Option.map_some] at reads
  obtain ⟨value, exact, below⟩ := Option.map_eq_some_iff.mp reads.symm
  rw [← below, decide_eq_true_iff, ← not_le]
  intro above
  exact inside ⟨decimal, value, exact, above⟩

/-! ## Parameters -/

theorem finiteFloat_eq_ok_iff {number admitted : Float} :
    finiteFloat number = .ok (.floatingPoint admitted) ↔
      number.isFinite = true ∧ number = admitted := by
  unfold finiteFloat
  constructor
  · intro admits
    split_ifs at admits with finite
    cases admits
    exact ⟨finite, rfl⟩
  · rintro ⟨finite, rfl⟩
    exact if_pos finite

theorem isFinite_of_finiteFloat {number admitted : Float}
    (admits : finiteFloat number = .ok (.floatingPoint admitted)) : admitted.isFinite = true := by
  obtain ⟨finite, rfl⟩ := finiteFloat_eq_ok_iff.mp admits
  exact finite

theorem isFinite_of_fixedBinaryFloat {length : Nat} {typeName : String} {decode : Nat → Float}
    {bytes : ByteArray} {number : Float}
    (decoded : fixedBinaryFloat length typeName decode bytes = .ok (.floatingPoint number)) :
    number.isFinite = true := by
  rw [fixedBinaryFloat, ite_error_eq_ok_iff] at decoded
  exact isFinite_of_finiteFloat decoded.2

section Parameters

variable {oid : PgType → Nat} {parameterType : PgType}

theorem isFinite_of_decodeText {bytes : ByteArray} {number : Float}
    (typed : parameterType.observedType? = some .floatingPoint)
    (decoded : decodeText oid bytes parameterType = .ok (.floatingPoint number)) :
    number.isFinite = true := by
  obtain ⟨text, _, decoded⟩ := bind_eq_ok_iff.mp decoded
  cases parameterType with
  | float4 | float8 =>
      obtain ⟨read, _, admits⟩ := bind_eq_ok_iff.mp decoded
      exact isFinite_of_finiteFloat admits
  | _ => cases typed

theorem isFinite_of_decodeBinary {bytes : ByteArray} {number : Float}
    (typed : parameterType.observedType? = some .floatingPoint)
    (decoded : decodeBinary oid bytes parameterType = .ok (.floatingPoint number)) :
    number.isFinite = true := by
  cases parameterType with
  | float4 | float8 =>
      rw [decodeBinary] at decoded
      exact isFinite_of_fixedBinaryFloat decoded
  | _ => cases typed

theorem isFinite_of_decodeParameter {raw : Option ByteArray} {format : FieldFormat}
    {number : Float}
    (decoded : decodeParameter oid raw parameterType format = .ok (.floatingPoint number)) :
    number.isFinite = true := by
  have given : SqlValue.floatingPoint number ≠ .null := SqlValue.noConfusion
  have typed := (scalarType_of_decodeParameter given decoded).1.symm
  cases raw with
  | none => cases decoded
  | some bytes =>
      cases format with
      | text => exact isFinite_of_decodeText typed decoded
      | binary => exact isFinite_of_decodeBinary typed decoded

theorem decodeParameter_float8 (text : String) :
    decodeParameter oid (some text.toUTF8) .float8 .text =
      okOr (parse text) (invalidInput "invalid float8 parameter") >>= finiteFloat := by
  change decodeText oid text.toUTF8 .float8 = _
  rw [decodeText, fromUTF8?_toUTF8]
  rfl

theorem decodeParameter_float8_eq_ok_iff {text : String} {number : Float} :
    decodeParameter oid (some text.toUTF8) .float8 .text = .ok (.floatingPoint number) ↔
      parse text = some number ∧ number.isFinite = true := by
  rw [decodeParameter_float8, bind_eq_ok_iff]
  constructor
  · rintro ⟨read, reads, admits⟩
    obtain ⟨finite, rfl⟩ := finiteFloat_eq_ok_iff.mp admits
    exact ⟨okOr_eq_ok_iff.mp reads, finite⟩
  · rintro ⟨read, finite⟩
    exact ⟨number, okOr_eq_ok_iff.mpr read, finiteFloat_eq_ok_iff.mpr ⟨finite, rfl⟩⟩

theorem decodeParameter_float8_of_beyondRange {text : String} (beyond : BeyondRange text) :
    decodeParameter oid (some text.toUTF8) .float8 .text =
      .error (invalidInput "non-finite floating-point parameters are not supported") := by
  obtain ⟨number, read, infinite⟩ := exists_parse_of_beyondRange beyond
  have refuses : finiteFloat number =
      .error (invalidInput "non-finite floating-point parameters are not supported") :=
    if_neg (by rw [infinite]; exact Bool.false_ne_true)
  rw [decodeParameter_float8, read]
  exact refuses

end Parameters

/-! ## Literals -/

section Numerals

variable {text : String}

theorem parseValue_decimal (decimal : hasPointOrExponent text = true) (long : Bool) :
    parseValue (.value (.number text long)) =
      (okOr (parse text)
        (invalidInput s!"numeric value is outside supported range: {text}")).map .floatingPoint :=
  if_pos decimal

theorem parseValue_whole (whole : ¬ hasPointOrExponent text = true) (long : Bool) :
    parseValue (.value (.number text long)) =
      (okOr (Decimal.parseInt64 text)
        (invalidInput s!"integer value is outside supported range: {text}")).map .integer :=
  if_neg whole

theorem parseValue_number_eq_floatingPoint_iff (long : Bool) {number : Float} :
    parseValue (.value (.number text long)) = .ok (.floatingPoint number) ↔
      hasPointOrExponent text = true ∧ parse text = some number := by
  by_cases decimal : hasPointOrExponent text = true
  · rw [parseValue_decimal decimal, map_eq_ok_iff, and_iff_right decimal]
    constructor
    · rintro ⟨read, reads, same⟩
      cases same
      exact okOr_eq_ok_iff.mp reads
    · intro read
      exact ⟨number, okOr_eq_ok_iff.mpr read, rfl⟩
  · rw [parseValue_whole decimal, map_eq_ok_iff]
    apply iff_of_false
    · rintro ⟨integer, _, same⟩
      cases same
    · exact fun read => decimal read.1

end Numerals

theorem exists_number_of_parseValue {expression : Ast.Expr} {number : Float}
    (parsed : parseValue expression = .ok (.floatingPoint number)) :
    ∃ text long, expression = .value (.number text long) := by
  cases expression with
  | value literal =>
      cases literal with
      | number text long => exact ⟨text, long, rfl⟩
      | _ => cases parsed
  | _ => cases parsed

/-- What is expected of a literal: its number is finite, a text beyond the range is invalid
input, and a number is admitted exactly if a parameter with its text is. -/
structure LiteralAdmitted (oid : PgType → Nat) (expression : Ast.Expr) : Prop where
  finite : ∀ number, parseValue expression = .ok (.floatingPoint number) → number.isFinite = true
  refused : ∀ text long, expression = .value (.number text long) → BeyondRange text →
    ∃ message, parseValue expression = .error (invalidInput message)
  agrees : ∀ text long number, expression = .value (.number text long) →
    hasPointOrExponent text = true →
      (parseValue expression = .ok (.floatingPoint number) ↔
        decodeParameter oid (some text.toUTF8) .float8 .text = .ok (.floatingPoint number))

theorem not_beyondRange_of_admitted {oid : PgType → Nat} {text : String} {long : Bool}
    (admitted : LiteralAdmitted oid (.value (.number text long))) : ¬ BeyondRange text := by
  intro beyond
  obtain ⟨number, read, infinite⟩ := exists_parse_of_beyondRange beyond
  have parsed := (parseValue_number_eq_floatingPoint_iff long).mpr ⟨beyond.1, read⟩
  rw [admitted.finite number parsed] at infinite
  cases infinite

theorem literalAdmitted_of_inside (oid : PgType → Nat) {expression : Ast.Expr}
    (inside : ∀ text long, expression = .value (.number text long) → ¬ BeyondRange text) :
    LiteralAdmitted oid expression where
  finite number parsed := by
    obtain ⟨text, long, rfl⟩ := exists_number_of_parseValue parsed
    obtain ⟨decimal, read⟩ := (parseValue_number_eq_floatingPoint_iff long).mp parsed
    exact isFinite_of_not_beyondRange decimal read (inside text long rfl)
  refused text long same beyond := absurd beyond (inside text long same)
  agrees text long number same decimal := by
    rw [same, parseValue_number_eq_floatingPoint_iff, decodeParameter_float8_eq_ok_iff,
      and_iff_right decimal]
    constructor
    · intro read
      exact ⟨read, isFinite_of_not_beyondRange decimal read (inside text long same)⟩
    · exact And.left

/-- Every number that a parameter admits is finite, and a text beyond the range is invalid input
for it.  A literal is admitted as it should be exactly if it is not such a text. -/
theorem literalAdmitted_iff (oid : PgType → Nat) :
    (∀ raw parameterType format number,
      decodeParameter oid raw parameterType format = .ok (.floatingPoint number) →
        number.isFinite = true) ∧
    (∀ text, BeyondRange text → decodeParameter oid (some text.toUTF8) .float8 .text =
      .error (invalidInput "non-finite floating-point parameters are not supported")) ∧
    ∀ expression, LiteralAdmitted oid expression ↔
      ∀ text long, expression = .value (.number text long) → ¬ BeyondRange text := by
  refine ⟨fun raw parameterType format number => isFinite_of_decodeParameter,
    fun text => decodeParameter_float8_of_beyondRange, fun expression => ⟨?_, ?_⟩⟩
  · rintro admitted text long rfl
    exact not_beyondRange_of_admitted admitted
  · exact literalAdmitted_of_inside oid

/-! ## A literal out of range -/

private theorem beyondRange_large : BeyondRange "1e400" := by
  have exact : magnitude? "1e400" = some (((1 : Nat) : ℚ) * 10 ^ (400 : Int)) :=
    @magnitude?_eq_some "1e400" (1, 400) (by decide)
  exact ⟨by decide, _, exact, overflow_le_of_large one_pos (by decide)⟩

private theorem not_beyondRange_small : ¬ BeyondRange "1.5e3" := by
  have exact : magnitude? "1.5e3" = some (((15 : Nat) : ℚ) * 10 ^ (2 : Int)) :=
    @magnitude?_eq_some "1.5e3" (15, 2) (by decide)
  have below : ((15 : Nat) : ℚ) * 10 ^ (2 : Int) < overflow :=
    @short_lt_overflow 15 2 (by decide) (by decide) 2 (by decide)
  rintro ⟨_, value, found, above⟩
  cases exact.symm.trans found
  exact absurd above (not_le.mpr below)

/-- The literal `1e400` becomes an infinity, where the parameter with its text is refused. -/
theorem literalAdmitted_large : ¬ LiteralAdmitted (fun _ => 701) (.value (.number "1e400" false)) :=
  fun admitted => not_beyondRange_of_admitted admitted beyondRange_large

/-- A literal within the range, and a parameter beyond it. -/
theorem literalAdmitted_iff_small :
    LiteralAdmitted (fun _ => 701) (.value (.number "1.5e3" false)) ∧
      decodeParameter (fun _ => 701) (some "1e400".toUTF8) .float8 .text =
        .error (invalidInput "non-finite floating-point parameters are not supported") := by
  obtain ⟨_, refuses, admits⟩ := literalAdmitted_iff fun _ => 701
  refine ⟨(admits _).mpr ?_, refuses _ beyondRange_large⟩
  rintro text long same
  cases same
  exact not_beyondRange_small

end Mongres
