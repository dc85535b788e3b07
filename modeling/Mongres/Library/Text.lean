import Mathlib.Data.List.Infix
import Mathlib.Data.List.TakeWhile
import Mathlib.Data.String.Basic

/-!
# Separators and phrases in text

Joining names with a separator loses their boundaries exactly when a name
contains the separator.  A phrase that avoids a separator cannot straddle one,
so its occurrences in a separated text are occurrences in one of the pieces.
-/

namespace Mongres.Text

/-- The pieces of a text between the occurrences of a separator. -/
def splitOn (separator : Char) (text : String) : List String :=
  (text.toList.splitOn separator).map String.ofList

theorem splitOn_ne_nil (separator : Char) (text : String) : splitOn separator text ≠ [] := by
  simp [splitOn, List.splitOn_ne_nil]

def join (separator : Char) (names : List String) : String :=
  (String.singleton separator).intercalate names

@[simp]
theorem join_singleton (separator : Char) (name : String) :
    join separator [name] = name :=
  String.intercalate_singleton

theorem toList_join (separator : Char) (names : List String) :
    (join separator names).toList =
      [separator].intercalate (names.map String.toList) := by
  simp [join, String.toList_intercalate]

theorem not_mem_of_mem_listSplitOn {α : Type} [BEq α] [LawfulBEq α]
    {separator : α} {text piece : List α} (membership : piece ∈ text.splitOn separator) :
    separator ∉ piece := by
  induction text generalizing piece with
  | nil => simp_all
  | cons letter rest inductionHypothesis =>
      rw [List.splitOn_cons_eq_if_modifyHead] at membership
      by_cases equality : (letter == separator) = true
      · rw [if_pos equality, List.mem_cons] at membership
        rcases membership with rfl | membership
        · simp
        · exact inductionHypothesis membership
      · rw [if_neg equality] at membership
        cases split : rest.splitOn separator with
        | nil => exact absurd split (List.splitOn_ne_nil _ _)
        | cons first others =>
            rw [split, List.modifyHead_cons, List.mem_cons] at membership
            rcases membership with rfl | membership
            · have listed : first ∈ rest.splitOn separator := by simp [split]
              have fresh := inductionHypothesis listed
              have different : separator ≠ letter := fun same => equality (by simp [same])
              simp [fresh, different]
            · exact inductionHypothesis (by simp [split, membership])

/-- Splitting undoes joining exactly on names without the separator. -/
theorem splitOn_join_iff (separator : Char) {names : List String} (nonempty : names ≠ []) :
    splitOn separator (join separator names) = names ↔
      ∀ name ∈ names, separator ∉ name.toList := by
  constructor
  · intro recovered name membership
    rw [← recovered, splitOn, List.mem_map] at membership
    obtain ⟨piece, pieceMembership, rfl⟩ := membership
    simpa using not_mem_of_mem_listSplitOn pieceMembership
  · intro fresh
    have pieces : ([separator].intercalate (names.map String.toList)).splitOn separator =
        names.map String.toList := by
      apply List.splitOn_intercalate
      · simpa using fresh
      · simpa using nonempty
    rw [splitOn, toList_join, pieces, List.map_map]
    simp [Function.comp_def]

@[simp]
theorem join_splitOn (separator : Char) (text : String) :
    join separator (splitOn separator text) = text := by
  apply String.toList_injective
  rw [toList_join, splitOn, List.map_map]
  simp [Function.comp_def, List.intercalate_splitOn]

theorem splitOn_append (separator : Char) (text rest : String) :
    splitOn separator (text ++ String.singleton separator ++ rest) =
      splitOn separator text ++ splitOn separator rest := by
  simp [splitOn, List.splitOn_append_cons_self]

private theorem intercalate_append {α : Type} {separator : α} {pieces others : List (List α)}
    (nonempty : pieces ≠ []) (proper : others ≠ []) :
    [separator].intercalate (pieces ++ others) =
      [separator].intercalate pieces ++ separator :: [separator].intercalate others := by
  induction pieces with
  | nil => exact absurd rfl nonempty
  | cons piece pieces inductionHypothesis =>
      rw [List.cons_append, List.intercalate_cons_of_ne_nil (by simp [proper])]
      by_cases last : pieces = []
      · simp [last]
      · rw [inductionHypothesis last, List.intercalate_cons_of_ne_nil last]
        simp

/-- A text goes on behind a separator exactly when its pieces go on. -/
theorem exists_append_iff {separator : Char} {text longer : String} :
    (∃ rest, longer = text ++ String.singleton separator ++ rest) ↔
      splitOn separator text <+: splitOn separator longer ∧
        splitOn separator text ≠ splitOn separator longer := by
  constructor
  · rintro ⟨rest, rfl⟩
    rw [splitOn_append]
    refine ⟨List.prefix_append _ _, ?_⟩
    simp [splitOn, List.splitOn_ne_nil]
  · rintro ⟨⟨rest, reaches⟩, different⟩
    have proper : rest ≠ [] := by
      rintro rfl
      exact different (by rw [← reaches, List.append_nil])
    have pieces : longer.toList.splitOn separator =
        text.toList.splitOn separator ++ rest.map String.toList := by
      have lists := congrArg (List.map String.toList) reaches.symm
      simpa [splitOn, Function.comp_def] using lists
    have whole : [separator].intercalate (longer.toList.splitOn separator) = longer.toList :=
      List.intercalate_splitOn separator
    refine ⟨String.ofList ([separator].intercalate (rest.map String.toList)), ?_⟩
    apply String.toList_injective
    rw [← whole, pieces, intercalate_append (List.splitOn_ne_nil _ _) (by simpa using proper),
      List.intercalate_splitOn]
    simp

theorem head?_join (separator : Char) (name : String) (names : List String) :
    (join separator (name :: names)).toList.head? =
      match name.toList with
      | letter :: _ => some letter
      | [] => if names = [] then none else some separator := by
  rw [toList_join]
  cases names with
  | nil => cases letters : name.toList <;> simp [letters]
  | cons next names =>
      cases letters : name.toList <;> simp [letters, List.intercalate]

theorem mem_join_of_mem_head {separator letter : Char} {name : String} (names : List String)
    (membership : letter ∈ name.toList) : letter ∈ (join separator (name :: names)).toList := by
  rw [toList_join]
  cases names with
  | nil => simpa using membership
  | cons next names =>
      rw [List.map_cons, List.map_cons, List.intercalate_cons_cons]
      simp [membership]

theorem getLast?_join (separator : Char) (names : List String) {last : String}
    (nonempty : last.toList ≠ []) :
    (join separator (names ++ [last])).toList.getLast? = last.toList.getLast? := by
  induction names with
  | nil => simp
  | cons name names inductionHypothesis =>
      rw [toList_join] at inductionHypothesis ⊢
      obtain ⟨next, others, shape⟩ : ∃ next others, names ++ [last] = next :: others :=
        List.exists_cons_of_ne_nil (by simp)
      have final : last.toList.getLast? ≠ none := by simpa using nonempty
      rw [List.cons_append, shape, List.map_cons, List.map_cons, List.intercalate_cons_cons,
        ← List.map_cons, ← shape, List.getLast?_append, inductionHypothesis]
      exact Option.or_of_isSome (Option.isSome_iff_ne_none.mpr final)

def contains (text phrase : String) : Bool :=
  decide (phrase.toList <:+: text.toList)

def startsWith (text phrase : String) : Bool :=
  decide (phrase.toList <+: text.toList)

def asciiLowercase (text : String) : String := String.ofList (text.toList.map Char.toLower)

/-- The Unicode property `White_Space`. -/
def isWhiteSpace (letter : Char) : Bool :=
  let code := letter.toNat
  (decide (9 ≤ code) && decide (code ≤ 13)) || (decide (0x2000 ≤ code) && decide (code ≤ 0x200a))
    || code ∈ [0x20, 0x85, 0xa0, 0x1680, 0x2028, 0x2029, 0x202f, 0x205f, 0x3000]

private def dropEnd (drops : Char → Bool) (text : List Char) : List Char :=
  (text.reverse.dropWhile drops).reverse

def trim (text : String) : String :=
  String.ofList (dropEnd isWhiteSpace (text.toList.dropWhile isWhiteSpace))

def trimEndMatches (letter : Char) (text : String) : String :=
  String.ofList (dropEnd (· == letter) text.toList)

theorem prefix_append_cons_iff {α : Type} {separator : α} {phrase : List α}
    (avoids : separator ∉ phrase) (left right : List α) :
    phrase <+: left ++ separator :: right ↔ phrase <+: left := by
  induction left generalizing phrase with
  | nil =>
      cases phrase with
      | nil => simp
      | cons letter phrase =>
          have different : letter ≠ separator := fun same => avoids (by simp [same])
          simp [List.cons_prefix_cons, different]
  | cons first left inductionHypothesis =>
      cases phrase with
      | nil => simp
      | cons letter phrase =>
          have rest : separator ∉ phrase := fun membership => avoids (by simp [membership])
          simp [List.cons_prefix_cons, inductionHypothesis rest]

theorem infix_append_cons_iff {α : Type} {separator : α} {phrase : List α}
    (nonempty : phrase ≠ []) (avoids : separator ∉ phrase) (left right : List α) :
    phrase <:+: left ++ separator :: right ↔ phrase <:+: left ∨ phrase <:+: right := by
  induction left with
  | nil =>
      have headless : ¬ phrase <+: separator :: right := by
        rw [show separator :: right = [] ++ separator :: right from rfl,
          prefix_append_cons_iff avoids]
        simpa using nonempty
      simp [List.infix_cons_iff, headless, nonempty]
  | cons first left inductionHypothesis =>
      rw [List.cons_append, List.infix_cons_iff, List.infix_cons_iff, inductionHypothesis,
        ← List.cons_append, prefix_append_cons_iff avoids, or_assoc]

/-- A phrase that avoids the separator occurs in joined names only inside one of them. -/
theorem contains_join_iff {separator : Char} {phrase : String} (nonempty : phrase.toList ≠ [])
    (avoids : separator ∉ phrase.toList) (names : List String) :
    contains (join separator names) phrase = true ↔
      ∃ name ∈ names, contains name phrase = true := by
  simp only [contains, decide_eq_true_eq, toList_join]
  induction names with
  | nil => simpa using nonempty
  | cons name names inductionHypothesis =>
      cases names with
      | nil => simp
      | cons next names =>
          rw [List.map_cons, List.map_cons, List.intercalate_cons_cons, ← List.map_cons,
            List.append_assoc, List.singleton_append, infix_append_cons_iff nonempty avoids,
            inductionHypothesis]
          simp

theorem utf8ByteSize_replicate (letter : Char) (count : Nat) :
    (String.ofList (List.replicate count letter)).utf8ByteSize = count * letter.utf8Size := by
  induction count with
  | zero => simp
  | succ count inductionHypothesis =>
      rw [List.replicate_succ', String.ofList_append, String.utf8ByteSize_append,
        inductionHypothesis, Nat.succ_mul]
      congr 1
      exact String.utf8ByteSize_singleton

/-! ## Lower case, quotes and trimming -/

theorem toList_asciiLowercase (text : String) :
    (asciiLowercase text).toList = text.toList.map Char.toLower := by
  simp [asciiLowercase]

theorem asciiLowercase_join {separator : Char} (caseless : separator.toLower = separator)
    (names : List String) :
    asciiLowercase (join separator names) = join separator (names.map asciiLowercase) := by
  apply String.toList_inj.mp
  rw [toList_join, asciiLowercase, String.toList_ofList, toList_join]
  induction names with
  | nil => rfl
  | cons name names inductionHypothesis =>
      cases names with
      | nil => simp [asciiLowercase]
      | cons next names =>
          simp only [List.map_cons, List.intercalate_cons_cons, List.map_append,
            List.map_nil] at inductionHypothesis ⊢
          rw [inductionHypothesis, caseless, toList_asciiLowercase name]

def doubleQuotes (quote : Char) (text : String) : String :=
  String.ofList (text.toList.flatMap fun letter =>
    if letter = quote then [quote, quote] else [letter])

/-- Doubling the quotes of a text does not affect where a phrase without quotes occurs. -/
theorem contains_doubleQuotes_iff {quote : Char} {phrase : String} (caseless : quote.toLower = quote)
    (nonempty : phrase.toList ≠ []) (avoids : quote ∉ phrase.toList) (text : String) :
    contains (asciiLowercase (doubleQuotes quote text)) phrase =
      contains (asciiLowercase text) phrase := by
  simp only [contains, asciiLowercase, doubleQuotes, String.toList_ofList, decide_eq_decide]
  generalize phrase.toList = phrase at nonempty avoids
  generalize text.toList = text
  have prefixes : ∀ (text : List Char) {phrase : List Char}, quote ∉ phrase →
      (phrase <+: List.map Char.toLower (text.flatMap fun letter =>
          if letter = quote then [quote, quote] else [letter]) ↔
        phrase <+: text.map Char.toLower) := by
    intro text
    induction text with
    | nil => simp
    | cons letter text inductionHypothesis =>
        intro phrase avoids
        cases phrase with
        | nil => simp
        | cons first phrase =>
            have different : first ≠ quote := fun same => avoids (by simp [same])
            have rest : quote ∉ phrase := fun membership => avoids (by simp [membership])
            by_cases quoted : letter = quote
            · simp [quoted, caseless, List.cons_prefix_cons, different]
            · simp [quoted, List.cons_prefix_cons, inductionHypothesis rest]
  induction text with
  | nil => simp
  | cons letter text inductionHypothesis =>
      by_cases quoted : letter = quote
      · have headless : ∀ others, ¬ phrase <+: quote :: others := by
          intro others
          rw [← List.nil_append (quote :: others), prefix_append_cons_iff avoids]
          simpa using nonempty
        simp [quoted, caseless, List.infix_cons_iff, headless, inductionHypothesis]
      · simp only [List.flatMap_cons, if_neg quoted, List.singleton_append, List.map_cons,
          List.infix_cons_iff, inductionHypothesis]
        have heads := prefixes (letter :: text) avoids
        simp only [List.flatMap_cons, if_neg quoted, List.singleton_append,
          List.map_cons] at heads
        rw [heads]

private theorem dropEnd_eq_self {drops : Char → Bool} {text : List Char}
    (kept : ∀ letter ∈ text.getLast?, drops letter = false) : dropEnd drops text = text := by
  rw [dropEnd, List.reverse_eq_iff]
  cases reversed : text.reverse with
  | nil => rfl
  | cons last others =>
      have final : text.getLast? = some last := by
        rw [List.getLast?_eq_head?_reverse, reversed, List.head?_cons]
      rw [List.dropWhile_cons_of_neg (by simp [kept last final])]

theorem trim_eq_self {text : String}
    (first : ∀ letter ∈ text.toList.head?, isWhiteSpace letter = false)
    (last : ∀ letter ∈ text.toList.getLast?, isWhiteSpace letter = false) : trim text = text := by
  have start : text.toList.dropWhile isWhiteSpace = text.toList := by
    cases letters : text.toList with
    | nil => rfl
    | cons letter others =>
        rw [letters] at first
        rw [List.dropWhile_cons_of_neg (by simp [first letter rfl])]
  rw [trim, start, dropEnd_eq_self last, String.ofList_toList]

theorem trim_eq_empty_iff (text : String) :
    trim text = "" ↔ ∀ letter ∈ text.toList, isWhiteSpace letter = true := by
  have split := @List.takeWhile_append_dropWhile _ isWhiteSpace text.toList
  rw [trim, String.ofList_eq_empty_iff, dropEnd, List.reverse_eq_nil_iff,
    List.dropWhile_eq_nil_iff]
  constructor
  · intro blank letter membership
    rw [← split, List.mem_append] at membership
    rcases membership with start | rest
    · exact List.mem_takeWhile_imp start
    · exact blank letter (List.mem_reverse.mpr rest)
  · intro blank letter membership
    exact blank letter ((List.dropWhile_sublist _).subset (List.mem_reverse.mp membership))

theorem trimEndMatches_eq_self {letter : Char} {text : String}
    (last : ∀ other ∈ text.toList.getLast?, other ≠ letter) : trimEndMatches letter text = text := by
  rw [trimEndMatches, dropEnd_eq_self, String.ofList_toList]
  intro other final
  simpa using last other final

end Mongres.Text
