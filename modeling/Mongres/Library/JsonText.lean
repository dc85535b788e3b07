import Mongres.Library.Decimal

/-!
# JSON texts

The grammar of JSON, rule by rule, as predicates on letters.
-/

namespace Mongres.JsonText

def IsBlank (text : List Char) : Prop :=
  ∀ letter ∈ text, letter ∈ [' ', '\t', '\n', '\r']

/-! ## Numbers -/

def IsDigits (text : List Char) : Prop := text ≠ [] ∧ ∀ letter ∈ text, letter.isDigit = true

/-- The integral part of a number, without leading zeros. -/
inductive IsInteger : List Char → Prop where
  | zero : IsInteger ['0']
  | digits {first rest} : first.isDigit = true → first ≠ '0' →
      (∀ letter ∈ rest, letter.isDigit = true) → IsInteger (first :: rest)

inductive IsFraction : List Char → Prop where
  | absent : IsFraction []
  | present {digits} : IsDigits digits → IsFraction ('.' :: digits)

inductive IsExponent : List Char → Prop where
  | absent : IsExponent []
  | present {mark sign digits} : mark ∈ ['e', 'E'] → sign ∈ [[], ['+'], ['-']] →
      IsDigits digits → IsExponent (mark :: (sign ++ digits))

inductive IsNumber : List Char → Prop where
  | parts {sign integer fraction exponent} : sign ∈ [[], ['-']] → IsInteger integer →
      IsFraction fraction → IsExponent exponent →
      IsNumber (sign ++ (integer ++ (fraction ++ exponent)))

/-! ## Strings -/

def isHexDigit (letter : Char) : Bool :=
  letter.isDigit || ('a' ≤ letter && letter ≤ 'f') || ('A' ≤ letter && letter ≤ 'F')

/-- What stands between the quotation marks of a string. -/
inductive IsCharacters : List Char → Prop where
  | nil : IsCharacters []
  | unescaped {letter rest} : 0x20 ≤ letter.toNat → letter ∉ ['\"', '\\'] →
      IsCharacters rest → IsCharacters (letter :: rest)
  | escaped {letter rest} : letter ∈ ['\"', '\\', '/', 'b', 'f', 'n', 'r', 't'] →
      IsCharacters rest → IsCharacters ('\\' :: letter :: rest)
  | codeUnit {digits rest} : digits.length = 4 → digits.all isHexDigit = true →
      IsCharacters rest → IsCharacters ('\\' :: 'u' :: (digits ++ rest))

inductive IsString : List Char → Prop where
  | quoted {characters} : IsCharacters characters →
      IsString ('\"' :: (characters ++ ['\"']))

/-! ## Values -/

mutual

inductive IsValue : List Char → Prop where
  | falseLiteral : IsValue ['f', 'a', 'l', 's', 'e']
  | nullLiteral : IsValue ['n', 'u', 'l', 'l']
  | trueLiteral : IsValue ['t', 'r', 'u', 'e']
  | number {text} : IsNumber text → IsValue text
  | string {text} : IsString text → IsValue text
  | emptyArray {blank} : IsBlank blank → IsValue ('[' :: (blank ++ [']']))
  | array {elements} : IsElements elements → IsValue ('[' :: (elements ++ [']']))
  | emptyObject {blank} : IsBlank blank → IsValue ('{' :: (blank ++ ['}']))
  | object {members} : IsMembers members → IsValue ('{' :: (members ++ ['}']))

inductive IsElements : List Char → Prop where
  | last {value} : IsText value → IsElements value
  | cons {value rest} : IsText value → IsElements rest → IsElements (value ++ ',' :: rest)

inductive IsMembers : List Char → Prop where
  | last {member} : IsMember member → IsMembers member
  | cons {member rest} : IsMember member → IsMembers rest → IsMembers (member ++ ',' :: rest)

inductive IsMember : List Char → Prop where
  | named {before name after value} : IsBlank before → IsString name → IsBlank after →
      IsText value → IsMember (before ++ (name ++ (after ++ ':' :: value)))

inductive IsText : List Char → Prop where
  | padded {before value after} : IsBlank before → IsValue value → IsBlank after →
      IsText (before ++ (value ++ after))

end

def IsJson (text : String) : Prop := IsText text.toList

theorem isBlank_nil : IsBlank [] := by
  intro letter membership
  cases membership

theorem isJson_of_isValue {text : String} (value : IsValue text.toList) : IsJson text := by
  have padded : IsText ([] ++ (text.toList ++ [])) := .padded isBlank_nil value isBlank_nil
  rwa [List.append_nil, List.nil_append] at padded

/-! ## Integers -/

theorem isInteger_toDigits (number : Nat) : IsInteger (Nat.toDigits 10 number) := by
  by_cases zero : number = 0
  · rw [zero, Nat.toDigits_zero]
    exact .zero
  · obtain ⟨first, rest, printed, nonzero⟩ :=
      Decimal.head_toDigits_ne_zero (Nat.pos_of_ne_zero zero)
    have digits : ∀ letter ∈ first :: rest, letter.isDigit = true := by
      intro letter membership
      exact Nat.isDigit_of_mem_toDigits (by omega) (by omega) (printed ▸ membership)
    rw [printed]
    rw [List.forall_mem_cons] at digits
    exact .digits digits.1 nonzero digits.2

theorem isValue_of_isInteger {sign integer : List Char} (signed : sign ∈ [[], ['-']])
    (digits : IsInteger integer) : IsValue (sign ++ integer) := by
  have number : IsNumber (sign ++ (integer ++ ([] ++ []))) :=
    .parts signed digits .absent .absent
  rw [List.append_nil, List.append_nil] at number
  exact .number number

theorem isJson_text (number : Int64) : IsJson (Decimal.text number) := by
  apply isJson_of_isValue
  rw [Decimal.text]
  cases number.toInt with
  | ofNat magnitude =>
      change IsValue (Nat.repr magnitude).toList
      rw [Nat.toList_repr]
      exact @isValue_of_isInteger [] _ (by simp) (isInteger_toDigits magnitude)
  | negSucc predecessor =>
      change IsValue ("-" ++ Nat.repr (predecessor + 1)).toList
      rw [String.toList_append, Nat.toList_repr]
      exact @isValue_of_isInteger ['-'] _ (by simp) (isInteger_toDigits (predecessor + 1))

/-! ## First letters -/

def Begins (letter : Char) : Prop :=
  letter.isDigit = true ∨ letter ∈ ['f', 'n', 't', '-', '\"', '[', '{']

instance (letter : Char) : Decidable (Begins letter) := inferInstanceAs (Decidable (_ ∨ _))

theorem IsInteger.exists_cons {text : List Char} (integer : IsInteger text) :
    ∃ first rest, text = first :: rest ∧ first.isDigit = true := by
  cases integer with
  | zero => exact ⟨_, _, rfl, rfl⟩
  | digits first _ _ => exact ⟨_, _, rfl, first⟩

/-- The only values of one letter are digits. -/
theorem IsValue.exists_cons {text : List Char} (value : IsValue text) :
    ∃ first rest, text = first :: rest ∧ Begins first ∧ (rest = [] → first.isDigit = true) := by
  cases value with
  | falseLiteral => exact ⟨_, _, rfl, .inr (by simp), nofun⟩
  | nullLiteral => exact ⟨_, _, rfl, .inr (by simp), nofun⟩
  | trueLiteral => exact ⟨_, _, rfl, .inr (by simp), nofun⟩
  | number number =>
      obtain ⟨signed, integer, _, _⟩ := number
      obtain ⟨first, rest, rfl, digit⟩ := integer.exists_cons
      rw [List.mem_pair] at signed
      rcases signed with rfl | rfl
      · exact ⟨first, _, rfl, .inl digit, fun _ => digit⟩
      · exact ⟨'-', _, rfl, .inr (by simp), nofun⟩
  | string string =>
      obtain ⟨_⟩ := string
      exact ⟨_, _, rfl, .inr (by simp), by simp⟩
  | emptyArray _ => exact ⟨_, _, rfl, .inr (by simp), by simp⟩
  | array _ => exact ⟨_, _, rfl, .inr (by simp), by simp⟩
  | emptyObject _ => exact ⟨_, _, rfl, .inr (by simp), by simp⟩
  | object _ => exact ⟨_, _, rfl, .inr (by simp), by simp⟩

/-- A document that begins with no white space begins with its value. -/
theorem IsText.begins {first : Char} {rest : List Char} (text : IsText (first :: rest))
    (visible : first ∉ [' ', '\t', '\n', '\r']) :
    Begins first ∧ (rest = [] → first.isDigit = true) := by
  generalize shape : first :: rest = letters at text
  cases text with
  | @padded before value after blank isValue _ =>
      cases before with
      | cons letter before =>
          rw [List.cons_append] at shape
          cases shape
          exact absurd (blank first List.mem_cons_self) visible
      | nil =>
          obtain ⟨letter, others, rfl, begins, single⟩ := isValue.exists_cons
          rw [List.nil_append, List.cons_append] at shape
          cases shape
          exact ⟨begins, fun empty => single (List.append_eq_nil_iff.mp empty).1⟩

theorem not_isJson_of_begins {text : String} {first : Char} {rest : List Char}
    (letters : text.toList = first :: rest) (visible : first ∉ [' ', '\t', '\n', '\r'])
    (other : ¬ (Begins first ∧ (rest = [] → first.isDigit = true))) : ¬ IsJson text := by
  intro json
  rw [IsJson, letters] at json
  exact other (json.begins visible)

end Mongres.JsonText
