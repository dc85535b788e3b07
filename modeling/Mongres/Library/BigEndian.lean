import Mathlib.Tactic

/-!
# Big-endian numerals

Fixed-width numerals in base 256, the most significant byte first, and the signed numbers that
they spell in two's complement.  Reading and writing are inverse on numbers that fit the width
and on all byte strings of that width.
-/

namespace Mongres.BigEndian

def value (bytes : List UInt8) : Nat :=
  bytes.foldl (fun total byte => 256 * total + byte.toNat) 0

def bytes : Nat → Nat → List UInt8
  | 0, _ => []
  | width + 1, number => bytes width (number / 256) ++ [UInt8.ofNat number]

@[simp]
theorem length_bytes (width number : Nat) : (bytes width number).length = width := by
  induction width generalizing number with
  | zero => rfl
  | succ width inductionHypothesis => simp [bytes, inductionHypothesis]

theorem value_append_singleton (front : List UInt8) (byte : UInt8) :
    value (front ++ [byte]) = 256 * value front + byte.toNat := by
  simp [value, List.foldl_append]

theorem value_bytes (width number : Nat) : value (bytes width number) = number % 256 ^ width := by
  induction width generalizing number with
  | zero => simp [bytes, value, Nat.mod_one]
  | succ width inductionHypothesis =>
      rw [bytes, value_append_singleton, inductionHypothesis, UInt8.toNat_ofNat']
      change 256 * (number / 256 % 256 ^ width) + number % 256 = number % 256 ^ (width + 1)
      rw [pow_succ', Nat.mod_mul, Nat.add_comm]

theorem bytes_value (spelled : List UInt8) : bytes spelled.length (value spelled) = spelled := by
  induction spelled using List.reverseRecOn with
  | nil => rfl
  | append_singleton front byte inductionHypothesis =>
      have bound := byte.toNat_lt
      have high : (256 * value front + byte.toNat) / 256 = value front := by omega
      have low : UInt8.ofNat (256 * value front + byte.toNat) = byte := by
        apply UInt8.toNat.inj
        rw [UInt8.toNat_ofNat']
        omega
      rw [value_append_singleton, List.length_append, List.length_singleton, bytes, high, low,
        inductionHypothesis]

theorem value_lt (spelled : List UInt8) : value spelled < 256 ^ spelled.length := by
  have same := value_bytes spelled.length (value spelled)
  rw [bytes_value] at same
  rw [same]
  exact Nat.mod_lt _ (by positivity)

/-! ## Two's complement -/

def word (width : Nat) (spelled : List UInt8) : BitVec (8 * width) := .ofNat _ (value spelled)

def spell {width : Nat} (number : BitVec (8 * width)) : List UInt8 := bytes width number.toNat

@[simp]
theorem length_spell {width : Nat} (number : BitVec (8 * width)) :
    (spell number).length = width :=
  length_bytes width number.toNat

theorem word_spell {width : Nat} (number : BitVec (8 * width)) :
    word width (spell number) = number := by
  have fits : number.toNat % 256 ^ width = number.toNat := by
    apply Nat.mod_eq_of_lt
    rw [show (256 : Nat) = 2 ^ 8 from rfl, ← pow_mul]
    exact number.isLt
  rw [word, spell, value_bytes, fits, BitVec.ofNat_toNat, BitVec.setWidth_eq]

theorem spell_word {width : Nat} {spelled : List UInt8} (exact : spelled.length = width) :
    spell (word width spelled) = spelled := by
  subst exact
  have fits : value spelled < 2 ^ (8 * spelled.length) := by
    rw [pow_mul]
    exact value_lt spelled
  rw [spell, word, BitVec.toNat_ofNat, Nat.mod_eq_of_lt fits, bytes_value]

/-- The numeral of a signed number in two's complement. -/
def spellSigned (width : Nat) (number : Int) : List UInt8 := spell (.ofInt (8 * width) number)

def Fits (width : Nat) (number : Int) : Prop :=
  -2 ^ (8 * width - 1) ≤ number ∧ number < 2 ^ (8 * width - 1)

theorem toInt_word_spellSigned {width : Nat} {number : Int} (positive : 0 < width)
    (fits : Fits width number) : (word width (spellSigned width number)).toInt = number := by
  rw [spellSigned, word_spell]
  exact BitVec.toInt_ofInt_eq_self (by omega) fits.1 fits.2

theorem spellSigned_toInt_word {width : Nat} {spelled : List UInt8}
    (exact : spelled.length = width) : spellSigned width (word width spelled).toInt = spelled := by
  rw [spellSigned, BitVec.ofInt_toInt, spell_word exact]

example : spellSigned 2 (-2) = [255, 254] := by decide

/-! ## Byte arrays -/

theorem toList_eq_data (array : ByteArray) : array.toList = array.data.toList := by
  have loop : ∀ (index : Nat) (read : List UInt8),
      ByteArray.toList.loop array index read = read.reverse ++ array.data.toList.drop index := by
    intro index read
    fun_induction ByteArray.toList.loop array index read with
    | case1 index read inside inductionHypothesis =>
        have within : index < array.data.toList.length := inside
        have same : array.get! index = array.data.toList[index] :=
          getElem!_pos array.data index inside
        rw [inductionHypothesis, List.drop_eq_getElem_cons within, same]
        simp
    | case2 index read outside =>
        have beyond : array.data.toList.length ≤ index := Nat.le_of_not_lt outside
        rw [List.drop_eq_nil_of_le beyond, List.append_nil]
  rw [ByteArray.toList, loop]
  rfl

theorem length_toList (array : ByteArray) : array.toList.length = array.size := by
  rw [toList_eq_data]
  rfl

theorem toList_toByteArray (spelled : List UInt8) : spelled.toByteArray.toList = spelled := by
  rw [toList_eq_data, List.toList_data_toByteArray]

theorem toByteArray_toList (array : ByteArray) : array.toList.toByteArray = array := by
  apply ByteArray.ext
  apply Array.toList_inj.mp
  rw [List.toList_data_toByteArray, toList_eq_data]

end Mongres.BigEndian
