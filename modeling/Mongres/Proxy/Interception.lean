import Mongres.Proxy.Backend

/-!
# Which statements are intercepted

The interception reads the text of a statement, with the data in it: a statement
is answered from the catalog as soon as one of its names or literals contains an
intercepted phrase.
-/

namespace Mongres

open Text

def stringLiteral (contents : String) : String := "'" ++ doubleQuotes '\'' contents ++ "'"

def updateText (collection field written filtered compared : String) : String :=
  join ' ' ["UPDATE", collection, "SET", field, "=", stringLiteral written,
    "WHERE", filtered, "=", stringLiteral compared]

def deleteText (collection filtered compared : String) : String :=
  join ' ' ["DELETE", "FROM", collection, "WHERE", filtered, "=", stringLiteral compared]

def insertText (collection field written : String) : String :=
  join ' ' ["INSERT", "INTO", collection, "(" ++ field ++ ")", "VALUES",
    "(" ++ stringLiteral written ++ ")"]

def selectText (collection field filtered compared : String) : String :=
  join ' ' ["SELECT", field, "FROM", collection, "WHERE", filtered, "=", stringLiteral compared]

example : updateText "people" "note" "it's" "name" "ada" =
    "UPDATE people SET note = 'it''s' WHERE name = 'ada'" := by decide

example : insertText "people" "note" "x" = "INSERT INTO people (note) VALUES ('x')" := by decide

/-! ## Phrases in a statement -/

/-- An intercepted phrase occurs in a text, ignoring case. -/
def HasPhrase (text : String) : Prop :=
  ∃ phrase ∈ interceptedPhrases, contains (asciiLowercase text) phrase = true

instance (text : String) : Decidable (HasPhrase text) :=
  inferInstanceAs (Decidable (∃ phrase ∈ interceptedPhrases, _))

theorem phrase_shape : ∀ phrase ∈ interceptedPhrases,
    phrase.toList ≠ [] ∧ ' ' ∉ phrase.toList ∧ '\'' ∉ phrase.toList ∧
      phrase.toList.head? ≠ some '(' := by
  decide

theorem hasPhrase_join_iff (words : List String) :
    HasPhrase (join ' ' words) ↔ ∃ word ∈ words, HasPhrase word := by
  unfold HasPhrase
  rw [asciiLowercase_join (by decide)]
  constructor
  · rintro ⟨phrase, membership, occurs⟩
    obtain ⟨nonempty, avoids, _⟩ := phrase_shape phrase membership
    rw [contains_join_iff nonempty avoids] at occurs
    obtain ⟨_, lowered, occurs⟩ := occurs
    obtain ⟨word, wordMembership, rfl⟩ := List.mem_map.mp lowered
    exact ⟨word, wordMembership, phrase, membership, occurs⟩
  · rintro ⟨word, wordMembership, phrase, membership, occurs⟩
    obtain ⟨nonempty, avoids, _⟩ := phrase_shape phrase membership
    refine ⟨phrase, membership, (contains_join_iff nonempty avoids _).mpr ?_⟩
    exact ⟨asciiLowercase word, List.mem_map_of_mem wordMembership, occurs⟩

theorem hasPhrase_stringLiteral_iff (before contents after : String) :
    HasPhrase (before ++ stringLiteral contents ++ after) ↔
      HasPhrase before ∨ HasPhrase contents ∨ HasPhrase after := by
  have each : ∀ phrase ∈ interceptedPhrases,
      (contains (asciiLowercase (before ++ stringLiteral contents ++ after)) phrase = true ↔
        contains (asciiLowercase before) phrase = true ∨
          contains (asciiLowercase contents) phrase = true ∨
          contains (asciiLowercase after) phrase = true) := by
    intro phrase membership
    obtain ⟨nonempty, _, avoids, _⟩ := phrase_shape phrase membership
    rw [← contains_doubleQuotes_iff (by decide) nonempty avoids contents]
    have quote : ("'" : String).toList = ['\''] := rfl
    have lowerQuote : Char.toLower '\'' = '\'' := by decide
    simp only [contains, decide_eq_true_eq, toList_asciiLowercase, stringLiteral,
      String.toList_append, List.map_append, quote, List.map_cons, lowerQuote, List.append_assoc,
      List.cons_append, List.nil_append]
    rw [infix_append_cons_iff nonempty avoids, infix_append_cons_iff nonempty avoids]
  unfold HasPhrase
  constructor
  · rintro ⟨phrase, membership, occurs⟩
    rcases (each phrase membership).mp occurs with occurs | occurs | occurs
    · exact .inl ⟨phrase, membership, occurs⟩
    · exact .inr (.inl ⟨phrase, membership, occurs⟩)
    · exact .inr (.inr ⟨phrase, membership, occurs⟩)
  · rintro (⟨phrase, membership, occurs⟩ | ⟨phrase, membership, occurs⟩ |
      ⟨phrase, membership, occurs⟩)
    · exact ⟨phrase, membership, (each phrase membership).mpr (.inl occurs)⟩
    · exact ⟨phrase, membership, (each phrase membership).mpr (.inr (.inl occurs))⟩
    · exact ⟨phrase, membership, (each phrase membership).mpr (.inr (.inr occurs))⟩

theorem hasPhrase_parenthesis_iff (text : String) : HasPhrase ("(" ++ text) ↔ HasPhrase text := by
  unfold HasPhrase
  apply exists_congr
  intro phrase
  apply and_congr_right
  intro membership
  obtain ⟨nonempty, _, _, start⟩ := phrase_shape phrase membership
  have parenthesis : ("(" : String).toList = ['('] := rfl
  have lowerParenthesis : Char.toLower '(' = '(' := by decide
  simp only [contains, decide_eq_true_eq, toList_asciiLowercase, String.toList_append,
    parenthesis, List.singleton_append, List.map_cons, lowerParenthesis, List.infix_cons_iff]
  have headless : ¬ phrase.toList <+: '(' :: text.toList.map Char.toLower := by
    intro starts
    cases letters : phrase.toList with
    | nil => exact nonempty letters
    | cons letter others =>
        rw [letters, List.cons_prefix_cons] at starts
        simp [letters, starts.1] at start
  simp [headless]

/-! ## Interception of separated words -/

/-- A statement that begins with a verb and ends with a literal is intercepted
exactly when one of its words has an intercepted phrase. -/
theorem intercepted_join_iff {verb last : String} (words : List String)
    (known : verb ∈ ["UPDATE", "DELETE", "INSERT", "SELECT"])
    (closes : last.toList.getLast? = some '\'' ∨ last.toList.getLast? = some ')') :
    Intercepted (join ' ' (verb :: words ++ [last])) ↔
      ∃ word ∈ verb :: words ++ [last], HasPhrase word := by
  have nonempty : last.toList ≠ [] := by
    intro empty
    simp [empty] at closes
  have ends := getLast?_join ' ' (verb :: words) nonempty
  obtain ⟨rest, letters⟩ : ∃ rest, (join ' ' (verb :: words ++ [last])).toList =
      verb.toList ++ ' ' :: rest := by
    obtain ⟨next, others, shape⟩ : ∃ next others, words ++ [last] = next :: others :=
      List.exists_cons_of_ne_nil (by simp)
    refine ⟨[' '].intercalate ((next :: others).map String.toList), ?_⟩
    rw [List.cons_append, shape, toList_join, List.map_cons, List.map_cons,
      List.intercalate_cons_cons, List.append_assoc, List.singleton_append]
  rw [← hasPhrase_join_iff]
  generalize join ' ' (verb :: words ++ [last]) = text at ends letters ⊢
  have final : ∀ letter ∈ text.toList.getLast?, letter = '\'' ∨ letter = ')' := by
    intro letter membership
    rw [ends] at membership
    rcases closes with closes | closes
    · rw [closes, Option.mem_some_iff] at membership
      exact .inl membership.symm
    · rw [closes, Option.mem_some_iff] at membership
      exact .inr membership.symm
  have normal : normalize text = asciiLowercase text := by
    rw [normalize, trim_eq_self, trimEndMatches_eq_self]
    · intro letter membership
      rcases final letter membership with rfl | rfl <;> decide
    · intro letter membership
      rw [letters] at membership
      simp only [List.mem_cons, List.not_mem_nil, or_false] at known
      rcases known with rfl | rfl | rfl | rfl <;>
        (cases membership; decide)
    · intro letter membership
      rcases final letter membership with rfl | rfl <;> decide
  have notSession : normalize text ≠ "select 1" := by
    intro equality
    rw [normal] at equality
    have lowered : (asciiLowercase text).toList.getLast? = some '1' := by
      rw [equality]
      decide
    rw [toList_asciiLowercase, List.getLast?_map, Option.map_eq_some_iff] at lowered
    obtain ⟨letter, membership, lower⟩ := lowered
    rcases final letter membership with rfl | rfl <;> exact absurd lower (by decide)
  have notVersion : startsWith (normalize text) "show server_version" ≠ true := by
    intro starts
    rw [normal, startsWith, decide_eq_true_eq, toList_asciiLowercase, letters] at starts
    simp only [List.mem_cons, List.not_mem_nil, or_false] at known
    have spelled : "show server_version".toList = 's' :: 'h' :: "ow server_version".toList := rfl
    rw [spelled] at starts
    rcases known with rfl | rfl | rfl | rfl <;>
      simp [List.cons_prefix_cons] at starts
  unfold Intercepted
  rw [or_iff_right notSession, or_iff_right notVersion, normal, HasPhrase]

/-! ## What interception depends on -/

/-- Every entry point hands a text to the parser. -/
structure SentToParser (backend : ProxyBackend) (services : Services) (query : String) : Prop where
  catalog : catalogOrSessionQuery backend.databaseName backend.catalog query = none
  session : isCatalogOrSessionQuery query = false
  execute : ∀ state, backend.execute services query state =
    backend.executeParsed services query state
  executeBound : ∀ parameters state, backend.executeBound services query parameters state =
    backend.executeBoundParsed services query parameters state
  describe : ∀ state, backend.describe services query state =
    backend.describeParsed services query state
  prepare : ∀ requestedTypes,
    prepareStatement services.parser query requestedTypes backend.profiles =
      prepareStatementParsed services.parser query requestedTypes backend.profiles

theorem sentToParser_iff (backend : ProxyBackend) (services : Services) (query : String) :
    SentToParser backend services query ↔ ¬ Intercepted query := by
  constructor
  · intro sent
    exact (catalogOrSessionQuery_eq_none_iff _ _ _).mp sent.catalog
  · intro free
    have catalog := (catalogOrSessionQuery_eq_none_iff backend.databaseName backend.catalog
      query).mpr free
    have session := (isCatalogOrSessionQuery_eq_false_iff query).mpr free
    refine ⟨catalog, session, ?_, ?_, ?_, ?_⟩
    · intro state
      unfold ProxyBackend.execute
      rw [catalog]
    · intro parameters state
      unfold ProxyBackend.executeBound
      rw [catalog]
    · intro state
      unfold ProxyBackend.describe
      rw [catalog]
    · intro requestedTypes
      unfold prepareStatement
      rw [session, if_neg Bool.false_ne_true]

theorem not_hasPhrase_keyword :
    ¬ HasPhrase "UPDATE" ∧ ¬ HasPhrase "SET" ∧ ¬ HasPhrase "=" ∧ ¬ HasPhrase "WHERE" ∧
      ¬ HasPhrase "DELETE" ∧ ¬ HasPhrase "FROM" ∧ ¬ HasPhrase "INSERT" ∧ ¬ HasPhrase "INTO" ∧
      ¬ HasPhrase "VALUES" ∧ ¬ HasPhrase "SELECT" ∧ ¬ HasPhrase ")" ∧ ¬ HasPhrase "" := by
  decide

theorem hasPhrase_literalWord_iff (contents : String) :
    HasPhrase (stringLiteral contents) ↔ HasPhrase contents := by
  have literal := hasPhrase_stringLiteral_iff "" contents ""
  simpa [not_hasPhrase_keyword] using literal

theorem hasPhrase_valuesWord_iff (contents : String) :
    HasPhrase ("(" ++ stringLiteral contents ++ ")") ↔ HasPhrase contents := by
  have literal := hasPhrase_stringLiteral_iff "" contents ")"
  rw [String.append_assoc, hasPhrase_parenthesis_iff]
  simpa [not_hasPhrase_keyword] using literal

theorem getLast?_stringLiteral (contents : String) :
    (stringLiteral contents).toList.getLast? = some '\'' := by
  rw [stringLiteral, String.toList_append, List.getLast?_append]
  rfl

theorem intercepted_updateText_iff (collection field written filtered compared : String) :
    Intercepted (updateText collection field written filtered compared) ↔
      HasPhrase collection ∨ HasPhrase field ∨ HasPhrase written ∨ HasPhrase filtered ∨
        HasPhrase compared := by
  have words := @intercepted_join_iff "UPDATE" _
    [collection, "SET", field, "=", stringLiteral written, "WHERE", filtered, "="]
    (by decide) (.inl (getLast?_stringLiteral compared))
  rw [updateText]
  apply words.trans
  simp [not_hasPhrase_keyword, hasPhrase_literalWord_iff]

theorem intercepted_deleteText_iff (collection filtered compared : String) :
    Intercepted (deleteText collection filtered compared) ↔
      HasPhrase collection ∨ HasPhrase filtered ∨ HasPhrase compared := by
  have words := @intercepted_join_iff "DELETE" _ ["FROM", collection, "WHERE", filtered, "="]
    (by decide) (.inl (getLast?_stringLiteral compared))
  rw [deleteText]
  apply words.trans
  simp [not_hasPhrase_keyword, hasPhrase_literalWord_iff]

theorem intercepted_selectText_iff (collection field filtered compared : String) :
    Intercepted (selectText collection field filtered compared) ↔
      HasPhrase field ∨ HasPhrase collection ∨ HasPhrase filtered ∨ HasPhrase compared := by
  have words := @intercepted_join_iff "SELECT" _
    [field, "FROM", collection, "WHERE", filtered, "="]
    (by decide) (.inl (getLast?_stringLiteral compared))
  rw [selectText]
  apply words.trans
  simp [not_hasPhrase_keyword, hasPhrase_literalWord_iff]

theorem intercepted_insertText_iff (collection field written : String) :
    Intercepted (insertText collection field written) ↔
      HasPhrase collection ∨ HasPhrase (field ++ ")") ∨ HasPhrase written := by
  have closes : ("(" ++ stringLiteral written ++ ")").toList.getLast? = some ')' := by
    rw [String.toList_append, List.getLast?_append]
    rfl
  have words := @intercepted_join_iff "INSERT" _
    ["INTO", collection, "(" ++ field ++ ")", "VALUES"] (by decide) (.inr closes)
  rw [insertText]
  apply words.trans
  have column : HasPhrase ("(" ++ field ++ ")") ↔ HasPhrase (field ++ ")") := by
    rw [String.append_assoc, hasPhrase_parenthesis_iff]
  simp only [List.cons_append, List.nil_append, List.mem_cons, List.not_mem_nil, or_false,
    exists_eq_or_imp, exists_eq_left, not_hasPhrase_keyword, false_or, column,
    hasPhrase_valuesWord_iff]

theorem hasPhrase_closed {field : String} (phrase : HasPhrase field) : HasPhrase (field ++ ")") := by
  obtain ⟨phrase, membership, occurs⟩ := phrase
  refine ⟨phrase, membership, ?_⟩
  rw [contains, decide_eq_true_eq, toList_asciiLowercase] at occurs ⊢
  rw [String.toList_append, List.map_append]
  exact occurs.trans (List.infix_append_left)

/-- The statements that set, filter and read two fields of a collection. -/
def statementTexts (collection field filtered written compared : String) : List String :=
  [updateText collection field written filtered compared,
    deleteText collection filtered compared,
    insertText collection field written,
    selectText collection field filtered compared]

/-- Statements reach the parser exactly when their names and literals are free of
intercepted phrases; the column list of an `INSERT` also closes a phrase. -/
theorem sentToParser_statementTexts_iff (backend : ProxyBackend) (services : Services)
    (collection field filtered written compared : String) :
    (∀ text ∈ statementTexts collection field filtered written compared,
      SentToParser backend services text) ↔
      ∀ part ∈ [collection, field ++ ")", filtered, written, compared], ¬ HasPhrase part := by
  simp only [statementTexts, List.forall_mem_cons, sentToParser_iff, intercepted_updateText_iff,
    intercepted_deleteText_iff, intercepted_insertText_iff, intercepted_selectText_iff, not_or,
    List.not_mem_nil, false_implies, implies_true, and_true]
  constructor
  · rintro ⟨⟨named, _, stored, filters, compares⟩, _, ⟨_, listed, _⟩, _⟩
    exact ⟨named, listed, filters, stored, compares⟩
  · rintro ⟨named, listed, filters, stored, compares⟩
    have plain : ¬ HasPhrase field := fun phrase => listed (hasPhrase_closed phrase)
    exact ⟨⟨named, plain, stored, filters, compares⟩, ⟨named, filters, compares⟩,
      ⟨named, listed, stored⟩, plain, named, filters, compares⟩

section Example

private def localBackend : ProxyBackend where
  databaseName := "app"
  profiles := Std.TreeMap.ofList [("people", SchemaProfile.infer [])]
  catalog := projectPublicCollections (Std.TreeMap.ofList [("people", SchemaProfile.infer [])])
  resolverMinimumConfidence := 0.9
  projected := rfl
  confidenceBounds := by decide

private def noServices : Services where
  parser := fun _ => .ok []
  driver :=
    { find := fun _ _ _ _ => .ok []
      insertOne := fun _ _ => .ok ()
      insertMany := fun _ _ => .ok 0
      updateMany := fun _ _ _ => .ok (0, 0)
      deleteMany := fun _ _ => .ok 0 }
  resolver := fun _ => .error ⟨.dependency, "resolver unavailable"⟩
  bsonText :=
    { display := fun _ => ""
      extendedJson := fun _ => ""
      hex := fun _ => "" }

/-- `UPDATE people SET note = 'see version()' WHERE name = 'ada'` is answered from the catalog. -/
theorem not_sentToParser_statementTexts :
    ¬ ∀ (backend : ProxyBackend) (services : Services)
      (collection field filtered written compared : String),
      backend.profiles.contains collection = true → ¬ HasPhrase collection →
      ¬ HasPhrase field → ¬ HasPhrase filtered →
      ∀ text ∈ statementTexts collection field filtered written compared,
        SentToParser backend services text := by
  intro sent
  have update := sent localBackend noServices "people" "note" "name" "see version()" "ada"
    (by decide) (by decide) (by decide) (by decide) _ List.mem_cons_self
  rw [sentToParser_iff, intercepted_updateText_iff] at update
  exact update (.inr (.inr (.inl (by decide))))

end Example

end Mongres
