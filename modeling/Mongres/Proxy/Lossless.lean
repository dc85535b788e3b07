import Mongres.Library.BigEndian
import Mongres.Proxy.Decoding

/-!
# Lossless parameters

The two decoders of an integer type meet in one value, the number that was sent, and the binary
one takes no other byte strings than encodings.  The two decoders of a text type are one.
-/

namespace Mongres

open Fallible BigEndian

def PgType.integerWidth? : PgType → Option Nat
  | .int2 => some 2
  | .int4 => some 4
  | .int8 => some 8
  | _ => none

def signedBytes (width : Nat) (number : Int64) : ByteArray :=
  (spellSigned width number.toInt).toByteArray

/-! ## Integers -/

section Integers

variable {width : Nat} {typeName : String}

theorem fixedBinary_eq (bytes : ByteArray) :
    fixedBinary (8 * width) typeName bytes =
      if bytes.size ≠ width then .error (invalidLength typeName)
      else .ok (.integer (Int64.ofInt (word width bytes.toList).toInt)) := by
  rw [fixedBinary]
  have sizes : 8 * bytes.size ≠ 8 * width ↔ bytes.size ≠ width := by omega
  exact if_congr sizes rfl rfl

theorem fixedBinary_signedBytes {number : Int64} (positive : 0 < width)
    (fits : Fits width number.toInt) :
    fixedBinary (8 * width) typeName (signedBytes width number) = .ok (.integer number) := by
  have spelled : (signedBytes width number).toList = spellSigned width number.toInt :=
    toList_toByteArray _
  have size : (signedBytes width number).size = width := by
    rw [← length_toList, spelled, spellSigned, length_spell]
  rw [fixedBinary_eq, if_neg (not_not.mpr size), spelled, toInt_word_spellSigned positive fits,
    Int64.ofInt_toInt]

theorem toInt_ofInt_word (small : width ≤ 8) (spelled : List UInt8) :
    (Int64.ofInt (word width spelled).toInt).toInt = (word width spelled).toInt := by
  have power : (2 : Int) ^ (8 * width) ≤ 2 ^ 64 :=
    pow_le_pow_right₀ (by decide) (by omega)
  have low := @BitVec.le_two_mul_toInt _ (word width spelled)
  have high := @BitVec.two_mul_toInt_lt _ (word width spelled)
  apply Int64.toInt_ofInt_of_le
  · omega
  · omega

theorem signedBytes_of_fixedBinary {bytes : ByteArray} {value : SqlValue} (small : width ≤ 8)
    (decoded : fixedBinary (8 * width) typeName bytes = .ok value) :
    bytes.size = width ∧ ∃ number, value = .integer number ∧ signedBytes width number = bytes := by
  rw [fixedBinary_eq, ite_error_eq_ok_iff, not_not] at decoded
  obtain ⟨size, same⟩ := decoded
  cases same
  refine ⟨size, _, rfl, ?_⟩
  have exact : bytes.toList.length = width := (length_toList bytes).trans size
  rw [signedBytes, toInt_ofInt_word small, spellSigned_toInt_word exact, toByteArray_toList]

theorem parseInteger_text {number : Int64} (fits : Fits width number.toInt) :
    parseInteger (8 * width) typeName (Decimal.text number) = .ok (.integer number) := by
  have inRange : -2 ^ (8 * width - 1) ≤ number.toInt ∧ number.toInt < 2 ^ (8 * width - 1) := fits
  rw [parseInteger, Decimal.text, Decimal.parseSigned_toString]
  dsimp only
  rw [if_pos inRange, Int64.ofInt_toInt]

end Integers

/-! ## Text -/

theorem fromUTF8?_toUTF8 (text : String) : String.fromUTF8? text.toUTF8 = some text :=
  dif_pos text.isValidUTF8

theorem fromUTF8?_of_valid {bytes : ByteArray} (valid : bytes.IsValidUTF8) :
    ∃ text, String.fromUTF8? bytes = some text ∧ text.toUTF8 = bytes :=
  ⟨String.fromUTF8 bytes valid, dif_pos valid, rfl⟩

section Decoders

variable {oid : PgType → Nat} {parameterType : PgType} {width : Nat}

theorem decodeText_text (number : Int64) (sized : parameterType.integerWidth? = some width)
    (fits : Fits width number.toInt) :
    decodeText oid (Decimal.text number).toUTF8 parameterType = .ok (.integer number) := by
  rw [decodeText, fromUTF8?_toUTF8]
  have reads (typeName : String) := @parseInteger_text width typeName number fits
  cases parameterType with
  | int2 | int4 | int8 =>
      cases sized
      exact reads _
  | _ => cases sized

theorem decodeBinary_signedBytes (number : Int64)
    (sized : parameterType.integerWidth? = some width) (fits : Fits width number.toInt) :
    decodeBinary oid (signedBytes width number) parameterType = .ok (.integer number) := by
  cases parameterType with
  | int2 | int4 | int8 =>
      cases sized
      exact fixedBinary_signedBytes (by decide) fits
  | _ => cases sized

theorem signedBytes_of_decodeBinary {bytes : ByteArray} {value : SqlValue}
    (sized : parameterType.integerWidth? = some width)
    (decoded : decodeBinary oid bytes parameterType = .ok value) :
    bytes.size = width ∧ ∃ number, value = .integer number ∧ signedBytes width number = bytes := by
  cases parameterType with
  | int2 | int4 | int8 =>
      cases sized
      exact signedBytes_of_fixedBinary (by decide) decoded
  | _ => cases sized

theorem decodeParameter_of_valid {bytes : ByteArray}
    (textual : parameterType.observedType? = some .string) (valid : bytes.IsValidUTF8) :
    ∃ text, text.toUTF8 = bytes ∧
      ∀ format, decodeParameter oid (some bytes) parameterType format = .ok (.string text) := by
  obtain ⟨text, read, written⟩ := fromUTF8?_of_valid valid
  refine ⟨text, written, fun format => ?_⟩
  cases parameterType with
  | text | varchar | bpchar =>
      cases format with
      | text => simp [decodeParameter, decodeText, read, okOr, bind, Except.bind]
      | binary => simp [decodeParameter, decodeBinary, read, okOr, Except.map]
  | _ => cases textual

theorem decodeParameter_of_invalid {bytes : ByteArray}
    (textual : parameterType.observedType? = some .string) (invalid : ¬ bytes.IsValidUTF8)
    (format : FieldFormat) :
    ∃ message,
      decodeParameter oid (some bytes) parameterType format = .error (invalidInput message) := by
  have unread : String.fromUTF8? bytes = none := dif_neg invalid
  cases format with
  | text =>
      refine ⟨"text parameter is not valid UTF-8", ?_⟩
      simp [decodeParameter, decodeText, unread, okOr, bind, Except.bind]
  | binary =>
      cases parameterType with
      | text | varchar | bpchar =>
          refine ⟨"binary text parameter is not valid UTF-8", ?_⟩
          simp [decodeParameter, decodeBinary, unread, okOr, Except.map]
      | _ => cases textual

end Decoders

/-- An integer that fits its type arrives as itself in either format, and the binary format has
no other byte strings than encodings.  A text type takes the same texts in either format, which
are the byte strings of valid UTF-8. -/
theorem decodeParameter_lossless (oid : PgType → Nat) :
    (∀ parameterType width, parameterType.integerWidth? = some width →
      (∀ number : Int64, Fits width number.toInt →
        decodeParameter oid (some (signedBytes width number)) parameterType .binary =
            .ok (.integer number) ∧
          decodeParameter oid (some (Decimal.text number).toUTF8) parameterType .text =
            .ok (.integer number)) ∧
      ∀ bytes value, decodeParameter oid (some bytes) parameterType .binary = .ok value →
        bytes.size = width ∧
          ∃ number, value = .integer number ∧ signedBytes width number = bytes) ∧
    ∀ parameterType, parameterType.observedType? = some .string → ∀ bytes : ByteArray,
      (bytes.IsValidUTF8 → ∃ text, text.toUTF8 = bytes ∧
        ∀ format, decodeParameter oid (some bytes) parameterType format = .ok (.string text)) ∧
      (¬ bytes.IsValidUTF8 → ∀ format, ∃ message,
        decodeParameter oid (some bytes) parameterType format = .error (invalidInput message)) := by
  constructor
  · intro parameterType width sized
    refine ⟨fun number fits => ⟨?_, ?_⟩, fun bytes value decoded => ?_⟩
    · exact decodeBinary_signedBytes number sized fits
    · exact decodeText_text number sized fits
    · exact signedBytes_of_decodeBinary sized decoded
  · intro parameterType textual bytes
    exact ⟨decodeParameter_of_valid textual, decodeParameter_of_invalid textual⟩

/-- The least 32-bit number, in both formats. -/
theorem decodeParameter_lossless_least :
    decodeParameter (fun _ => 23) (some (signedBytes 4 (-2147483648))) .int4 .binary =
        .ok (.integer (-2147483648)) ∧
      decodeParameter (fun _ => 23) (some (Decimal.text (-2147483648)).toUTF8) .int4 .text =
        .ok (.integer (-2147483648)) := by
  have fits : Fits 4 (-2147483648 : Int64).toInt := by unfold Fits; decide
  exact ((decodeParameter_lossless fun _ => 23).1 .int4 4 rfl).1 (-2147483648) fits

end Mongres
