import Mongres.Proxy.Backend

/-!
# What redaction hides

A query is a sequence of lexical pieces.  Redaction follows single quotes only: a quote in an
identifier or behind a backslash puts it out of step with them, and it then shows what the
literals contain.
-/

namespace Mongres

open Text

/-! ## Lexical pieces -/

/-- One unit between the quotes of an `E'…'` literal. -/
inductive EscapeUnit where
  | plain (letter : Char) (unescaped : letter ≠ '\'' ∧ letter ≠ '\\')
  | doubledQuote
  | escaped (letter : Char)

def EscapeUnit.written : EscapeUnit → List Char
  | .plain letter _ => [letter]
  | .doubledQuote => ['\'', '\'']
  | .escaped letter => ['\\', letter]

/-- A piece of a query, under the rules of PostgreSQL. -/
inductive LexicalPiece where
  | plain (letters : List Char)
      (unquoted : letters ≠ [] ∧ ∀ letter ∈ letters, letter ≠ '\'' ∧ letter ≠ '"')
  | identifier (name : String)
  | literal (contents : String)
  | escapeLiteral (contents : List EscapeUnit)

namespace LexicalPiece

def written : LexicalPiece → List Char
  | .plain letters _ => letters
  | .identifier name => '"' :: ((doubleQuotes '"' name).toList ++ ['"'])
  | .literal contents => '\'' :: ((doubleQuotes '\'' contents).toList ++ ['\''])
  | .escapeLiteral contents => 'E' :: '\'' :: (contents.flatMap EscapeUnit.written ++ ['\''])

def isLiteral : LexicalPiece → Bool
  | .literal _ | .escapeLiteral _ => true
  | _ => false

def isOrdinaryLiteral : LexicalPiece → Bool
  | .literal _ => true
  | _ => false

def withoutContents : LexicalPiece → LexicalPiece
  | .literal _ => .literal ""
  | .escapeLiteral _ => .escapeLiteral []
  | piece => piece

def quotes : LexicalPiece → Nat
  | .identifier name => name.toList.count '\''
  | _ => 0

end LexicalPiece

/-- Two quotes in a row continue a literal, so no other one starts there. -/
def Separated (pieces : List LexicalPiece) : Prop :=
  pieces.IsChain fun one two => one.isLiteral = true → two.isOrdinaryLiteral = false

/-- A query as a sequence of lexical pieces. -/
structure LexicalQuery where
  pieces : List LexicalPiece
  separated : Separated pieces

namespace LexicalQuery

def text (query : LexicalQuery) : String :=
  String.ofList (query.pieces.flatMap LexicalPiece.written)

def skeleton (query : LexicalQuery) : List LexicalPiece :=
  query.pieces.map LexicalPiece.withoutContents

end LexicalQuery

/-! ## Following the quotes -/

/-- Redaction goes on inside or outside of what it takes for a literal. -/
def redactFrom (inside : Bool) (redacted : String) (characters : List Char) : String :=
  if inside then redactInside redacted characters else redactOutside redacted characters

def shownBytes : Bool → List Char → Nat
  | _, [] => 0
  | true, '\'' :: '\'' :: characters => shownBytes true characters
  | true, '\'' :: characters => 1 + shownBytes false characters
  | true, _ :: characters => shownBytes true characters
  | false, '\'' :: characters => 11 + shownBytes true characters
  | false, character :: characters => character.utf8Size + shownBytes false characters

/-- Every second quote leads out of a literal. -/
def insideAfter (inside : Bool) (quotes : Nat) : Bool := inside ^^ decide (quotes % 2 = 1)

theorem insideAfter_zero (inside : Bool) : insideAfter inside 0 = inside := by
  cases inside <;> rfl

theorem insideAfter_add (inside : Bool) (first second : Nat) :
    insideAfter inside (first + second) = insideAfter (insideAfter inside first) second := by
  have parity : decide ((first + second) % 2 = 1) =
      (decide (first % 2 = 1) ^^ decide (second % 2 = 1)) := by
    rcases Nat.mod_two_eq_zero_or_one first with one | one <;>
      rcases Nat.mod_two_eq_zero_or_one second with two | two <;>
        simp [Nat.add_mod, one, two]
  rw [insideAfter, insideAfter, insideAfter, parity, Bool.xor_assoc]

theorem insideAfter_succ (inside : Bool) (quotes : Nat) :
    insideAfter inside (quotes + 1) = insideAfter (!inside) quotes := by
  rw [Nat.add_comm, insideAfter_add]
  congr 1
  cases inside <;> rfl

theorem utf8ByteSize_mark (redacted : String) :
    (redacted ++ "'<redacted>").utf8ByteSize = redacted.utf8ByteSize + 11 := by
  rw [String.utf8ByteSize_append]
  rfl

section Steps

variable (redacted : String) (rest : List Char)

theorem redactFrom_outside_quote :
    redactFrom false redacted ('\'' :: rest) =
      if 1024 ≤ redacted.utf8ByteSize + 11 then (redacted ++ "'<redacted>" ++ "…").push '\''
      else redactFrom true (redacted ++ "'<redacted>") rest := by
  rw [← utf8ByteSize_mark]
  rfl

theorem redactFrom_outside_letter {letter : Char} (unquoted : letter ≠ '\'') :
    redactFrom false redacted (letter :: rest) =
      if 1024 ≤ redacted.utf8ByteSize + letter.utf8Size then redacted.push letter ++ "…"
      else redactFrom false (redacted.push letter) rest := by
  rw [← String.utf8ByteSize_push]
  exact redactOutside.eq_3 redacted letter rest unquoted

theorem redactFrom_inside_pair :
    redactFrom true redacted ('\'' :: '\'' :: rest) = redactFrom true redacted rest :=
  rfl

theorem redactFrom_inside_quote (single : rest.head? ≠ some '\'') :
    redactFrom true redacted ('\'' :: rest) = redactFrom false (redacted.push '\'') rest := by
  apply redactInside.eq_3
  rintro characters rfl
  exact single rfl

theorem redactFrom_inside_letter {letter : Char} (unquoted : letter ≠ '\'') :
    redactFrom true redacted (letter :: rest) = redactFrom true redacted rest := by
  apply redactInside.eq_4
  · rintro characters same
    exact fun _ => unquoted same
  · exact unquoted

end Steps

theorem getLast?_ne_of_cons {α : Type} {first last : α} {rest : List α}
    (ends : (first :: rest).getLast? ≠ some last) : rest.getLast? ≠ some last := by
  cases rest with
  | nil => simp
  | cons second rest => rwa [List.getLast?_cons_cons] at ends

/-- A text either reaches the limit of redaction, or redaction goes on behind it. -/
theorem redactFrom_append (inside : Bool) (redacted : String) (text : List Char)
    (ends : text.getLast? ≠ some '\'')
    (room : inside = true → redacted.utf8ByteSize < 1024) :
    (1024 ≤ redacted.utf8ByteSize + shownBytes inside text ∧
      ∃ final, ∀ rest, redactFrom inside redacted (text ++ rest) = final) ∨
    ∃ next : String, next.utf8ByteSize = redacted.utf8ByteSize + shownBytes inside text ∧
      (insideAfter inside (text.count '\'') = true → next.utf8ByteSize < 1024) ∧
      ∀ rest, redactFrom inside redacted (text ++ rest) =
        redactFrom (insideAfter inside (text.count '\'')) next rest := by
  fun_induction shownBytes inside text generalizing redacted with
  | case1 inside =>
      apply Or.inr
      refine ⟨redacted, rfl, ?_, fun rest => ?_⟩
      · rwa [List.count_nil, insideAfter_zero]
      · rw [List.count_nil, insideAfter_zero, List.nil_append]
  | case2 characters inductionHypothesis =>
      have tail := getLast?_ne_of_cons (getLast?_ne_of_cons ends)
      simp only [List.cons_append, redactFrom_inside_pair, List.count_cons_self, insideAfter_succ,
        Bool.not_not]
      exact inductionHypothesis redacted tail room
  | case3 characters single inductionHypothesis =>
      have next (rest : List Char) : (characters ++ rest).head? ≠ some '\'' := by
        cases characters with
        | nil => simp at ends
        | cons letter characters =>
            intro quoted
            cases quoted
            exact single characters rfl
      have size : (redacted.push '\'').utf8ByteSize = redacted.utf8ByteSize + 1 := by
        rw [String.utf8ByteSize_push]
        rfl
      have remaining := inductionHypothesis (redacted.push '\'') (getLast?_ne_of_cons ends) nofun
      simp only [List.cons_append, redactFrom_inside_quote _ _ (next _), List.count_cons_self,
        insideAfter_succ, Bool.not_true, ← Nat.add_assoc, ← size]
      exact remaining
  | case4 letter characters single unquoted inductionHypothesis =>
      simp only [List.cons_append, redactFrom_inside_letter _ _ unquoted,
        List.count_cons_of_ne unquoted]
      exact inductionHypothesis redacted (getLast?_ne_of_cons ends) room
  | case5 characters inductionHypothesis =>
      simp only [List.cons_append, redactFrom_outside_quote, List.count_cons_self,
        insideAfter_succ, Bool.not_false, ← Nat.add_assoc]
      by_cases cut : 1024 ≤ redacted.utf8ByteSize + 11
      · apply Or.inl
        refine ⟨by omega, _, fun rest => if_pos cut⟩
      · simp only [if_neg cut]
        rw [← utf8ByteSize_mark] at cut ⊢
        exact inductionHypothesis _ (getLast?_ne_of_cons ends) fun _ => not_le.mp cut
  | case6 letter characters unquoted inductionHypothesis =>
      simp only [List.cons_append, redactFrom_outside_letter _ _ unquoted,
        List.count_cons_of_ne unquoted, ← Nat.add_assoc]
      by_cases cut : 1024 ≤ redacted.utf8ByteSize + letter.utf8Size
      · apply Or.inl
        refine ⟨by omega, _, fun rest => if_pos cut⟩
      · simp only [if_neg cut]
        rw [← String.utf8ByteSize_push]
        exact inductionHypothesis _ (getLast?_ne_of_cons ends) nofun

/-! ## Pieces -/

namespace LexicalPiece

/-- The bytes that redaction without a limit shows of a piece, whatever its contents. -/
def shown (inside : Bool) (piece : LexicalPiece) : Nat :=
  shownBytes inside piece.withoutContents.written

theorem count_doubleQuotes {quote letter : Char} (different : letter ≠ quote) (text : String) :
    (doubleQuotes quote text).toList.count letter = text.toList.count letter := by
  rw [doubleQuotes, String.toList_ofList]
  induction text.toList with
  | nil => rfl
  | cons first rest inductionHypothesis =>
      rw [List.flatMap_cons, List.count_append, inductionHypothesis]
      by_cases doubled : first = quote
      · subst doubled
        simp [List.count_cons_of_ne different.symm]
      · rw [if_neg doubled, ← List.count_append, List.singleton_append]

theorem getLast?_written {piece : LexicalPiece} (unquoted : piece.isLiteral = false) :
    piece.written.getLast? ≠ some '\'' := by
  cases piece with
  | plain letters plain =>
      intro last
      exact (plain.2 _ (List.mem_of_getLast? last)).1 rfl
  | identifier name =>
      rw [written, ← List.cons_append, List.getLast?_concat]
      decide
  | literal contents => cases unquoted
  | escapeLiteral contents => cases unquoted

theorem count_written {piece : LexicalPiece} (unquoted : piece.isLiteral = false) :
    piece.written.count '\'' = piece.quotes := by
  cases piece with
  | plain letters plain =>
      apply List.count_eq_zero.mpr
      exact fun membership => (plain.2 _ membership).1 rfl
  | identifier name => simp [written, quotes, count_doubleQuotes]
  | literal contents => cases unquoted
  | escapeLiteral contents => cases unquoted

theorem isLiteral_withoutContents (piece : LexicalPiece) :
    piece.withoutContents.isLiteral = piece.isLiteral := by
  cases piece <;> rfl

theorem isLiteral_of_withoutContents {piece other : LexicalPiece}
    (same : other.withoutContents = piece.withoutContents) : other.isLiteral = piece.isLiteral := by
  rw [← isLiteral_withoutContents, same, isLiteral_withoutContents]

theorem isOrdinaryLiteral_withoutContents (piece : LexicalPiece) :
    piece.withoutContents.isOrdinaryLiteral = piece.isOrdinaryLiteral := by
  cases piece <;> rfl

theorem withoutContents_eq_self {piece : LexicalPiece} (unquoted : piece.isLiteral = false) :
    piece.withoutContents = piece := by
  cases piece with
  | plain letters plain => rfl
  | identifier name => rfl
  | literal contents => cases unquoted
  | escapeLiteral contents => cases unquoted

theorem eq_of_withoutContents {piece other : LexicalPiece} (unquoted : piece.isLiteral = false)
    (same : other.withoutContents = piece.withoutContents) : other = piece := by
  cases piece <;> cases other <;> simp_all [withoutContents, isLiteral]

theorem exists_literal_of_withoutContents {other : LexicalPiece} {contents : String}
    (same : other.withoutContents = (literal contents).withoutContents) :
    ∃ contents, other = literal contents := by
  cases other <;> simp_all [withoutContents]

theorem exists_escapeLiteral_of_withoutContents {other : LexicalPiece}
    {contents : List EscapeUnit}
    (same : other.withoutContents = (escapeLiteral contents).withoutContents) :
    ∃ contents, other = escapeLiteral contents := by
  cases other <;> simp_all [withoutContents]

end LexicalPiece

theorem redactFrom_contents (redacted : String) (contents : String) {rest : List Char}
    (single : rest.head? ≠ some '\'') :
    redactFrom true redacted ((doubleQuotes '\'' contents).toList ++ '\'' :: rest) =
      redactFrom false (redacted.push '\'') rest := by
  rw [doubleQuotes, String.toList_ofList]
  induction contents.toList with
  | nil => exact redactFrom_inside_quote redacted rest single
  | cons letter letters inductionHypothesis =>
      rw [List.flatMap_cons]
      by_cases quoted : letter = '\''
      · rw [if_pos quoted]
        exact (redactFrom_inside_pair redacted _).trans inductionHypothesis
      · rw [if_neg quoted]
        exact (redactFrom_inside_letter redacted _ quoted).trans inductionHypothesis

/-- A literal that starts at some point of a query is hidden: redaction is at its limit there,
or it is in step and the literal is an ordinary one or has its mark at the limit. -/
def HiddenAt (inside : Bool) (start : Nat) (piece : LexicalPiece) : Prop :=
  piece.isLiteral = true →
    1024 ≤ start ∨ inside = false ∧ (piece.isOrdinaryLiteral = true ∨ 1024 ≤ start + 12)

section Passing

variable {inside : Bool} {redacted : String} {piece : LexicalPiece}

/-- Redaction reaches its limit in a piece, or goes on behind it, in the same way for all contents
of the piece. -/
def Passes (inside : Bool) (redacted : String) (piece : LexicalPiece) : Prop :=
  (1024 ≤ redacted.utf8ByteSize + piece.shown inside ∧
    ∃ final, ∀ (other : LexicalPiece) (rest : List Char),
      other.withoutContents = piece.withoutContents →
        redactFrom inside redacted (other.written ++ rest) = final) ∨
  ∃ next : String, next.utf8ByteSize = redacted.utf8ByteSize + piece.shown inside ∧
    (insideAfter inside piece.quotes = true → next.utf8ByteSize < 1024) ∧
    ∀ (other : LexicalPiece) (rest : List Char),
      other.withoutContents = piece.withoutContents →
      (piece.isLiteral = true → rest.head? ≠ some '\'') →
        redactFrom inside redacted (other.written ++ rest) =
          redactFrom (insideAfter inside piece.quotes) next rest

theorem passes_of_not_isLiteral (unquoted : piece.isLiteral = false)
    (room : inside = true → redacted.utf8ByteSize < 1024) : Passes inside redacted piece := by
  have shown : piece.shown inside = shownBytes inside piece.written := by
    rw [LexicalPiece.shown, LexicalPiece.withoutContents_eq_self unquoted]
  have scanned := redactFrom_append inside redacted piece.written
    (LexicalPiece.getLast?_written unquoted) room
  rw [LexicalPiece.count_written unquoted, ← shown] at scanned
  rcases scanned with ⟨limit, final, cut⟩ | ⟨next, size, roomNext, goesOn⟩
  · apply Or.inl
    refine ⟨limit, final, fun other rest same => ?_⟩
    rw [LexicalPiece.eq_of_withoutContents unquoted same]
    exact cut rest
  · apply Or.inr
    refine ⟨next, size, roomNext, fun other rest same _ => ?_⟩
    rw [LexicalPiece.eq_of_withoutContents unquoted same]
    exact goesOn rest

theorem passes_literal (redacted contents : String) : Passes false redacted (.literal contents) := by
  have written (other : String) (rest : List Char) :
      redactFrom false redacted ((LexicalPiece.literal other).written ++ rest) =
        if 1024 ≤ redacted.utf8ByteSize + 11 then (redacted ++ "'<redacted>" ++ "…").push '\''
        else redactFrom true (redacted ++ "'<redacted>")
          ((doubleQuotes '\'' other).toList ++ '\'' :: rest) := by
    rw [← redactFrom_outside_quote, LexicalPiece.written, List.cons_append, List.append_assoc]
    rfl
  have shown : (LexicalPiece.literal contents).shown false = 12 := rfl
  rw [Passes, shown]
  by_cases cut : 1024 ≤ redacted.utf8ByteSize + 11
  · apply Or.inl
    refine ⟨by omega, (redacted ++ "'<redacted>" ++ "…").push '\'', fun other rest same => ?_⟩
    obtain ⟨otherContents, rfl⟩ := LexicalPiece.exists_literal_of_withoutContents same
    rw [written, if_pos cut]
  · apply Or.inr
    refine ⟨(redacted ++ "'<redacted>").push '\'', ?_, nofun, fun other rest same single => ?_⟩
    · rw [String.utf8ByteSize_push, utf8ByteSize_mark]
      rfl
    · obtain ⟨otherContents, rfl⟩ := LexicalPiece.exists_literal_of_withoutContents same
      rw [written, if_neg cut]
      exact redactFrom_contents _ otherContents (single rfl)

theorem passes_escapeLiteral {contents : List EscapeUnit}
    (limit : 1024 ≤ redacted.utf8ByteSize + 12) :
    Passes false redacted (.escapeLiteral contents) := by
  have shown : (LexicalPiece.escapeLiteral contents).shown false = 13 := rfl
  have letter : ('E').utf8Size = 1 := rfl
  rw [Passes, shown]
  apply Or.inl
  refine ⟨by omega, ?_⟩
  by_cases cut : 1024 ≤ redacted.utf8ByteSize + 1
  · refine ⟨redacted.push 'E' ++ "…", fun other rest same => ?_⟩
    obtain ⟨units, rfl⟩ := LexicalPiece.exists_escapeLiteral_of_withoutContents same
    rw [LexicalPiece.written, List.cons_append, redactFrom_outside_letter _ _ (by decide), letter,
      if_pos cut]
  · refine ⟨(redacted.push 'E' ++ "'<redacted>" ++ "…").push '\'', fun other rest same => ?_⟩
    obtain ⟨units, rfl⟩ := LexicalPiece.exists_escapeLiteral_of_withoutContents same
    rw [LexicalPiece.written, List.cons_append, redactFrom_outside_letter _ _ (by decide), letter,
      if_neg cut, List.cons_append, redactFrom_outside_quote, String.utf8ByteSize_push, letter,
      if_pos (by omega)]

theorem passes_of_hiddenAt (room : inside = true → redacted.utf8ByteSize < 1024)
    (hidden : HiddenAt inside redacted.utf8ByteSize piece) : Passes inside redacted piece := by
  have inStep (literal : piece.isLiteral = true) : inside = false := by
    cases inside with
    | false => rfl
    | true =>
        rcases hidden literal with limit | ⟨outside, _⟩
        · exact absurd (room rfl) (not_lt.mpr limit)
        · exact outside
  cases piece with
  | plain letters plain => exact passes_of_not_isLiteral rfl room
  | identifier name => exact passes_of_not_isLiteral rfl room
  | literal contents =>
      cases inStep rfl
      exact passes_literal redacted contents
  | escapeLiteral contents =>
      cases inStep rfl
      apply passes_escapeLiteral
      rcases hidden rfl with limit | ⟨_, ordinary | limit⟩
      · omega
      · cases ordinary
      · exact limit

end Passing

/-! ## Sequences of pieces -/

def quotesOf (pieces : List LexicalPiece) : Nat := (pieces.map LexicalPiece.quotes).sum

def shownOf : Bool → List LexicalPiece → Nat
  | _, [] => 0
  | inside, piece :: pieces =>
      piece.shown inside + shownOf (insideAfter inside piece.quotes) pieces

/-- Every literal among the pieces is hidden where it starts. -/
def HiddenFrom (inside : Bool) (start : Nat) (pieces : List LexicalPiece) : Prop :=
  ∀ before piece after, pieces = before ++ piece :: after →
    HiddenAt (insideAfter inside (quotesOf before)) (start + shownOf inside before) piece

theorem hiddenFrom_cons_iff {inside : Bool} {start : Nat} {piece : LexicalPiece}
    {pieces : List LexicalPiece} :
    HiddenFrom inside start (piece :: pieces) ↔
      HiddenAt inside start piece ∧
        HiddenFrom (insideAfter inside piece.quotes) (start + piece.shown inside) pieces := by
  have later (before : List LexicalPiece) :
      insideAfter (insideAfter inside piece.quotes) (quotesOf before) =
          insideAfter inside (quotesOf (piece :: before)) ∧
        start + piece.shown inside + shownOf (insideAfter inside piece.quotes) before =
          start + shownOf inside (piece :: before) := by
    rw [← insideAfter_add, quotesOf, quotesOf, List.map_cons, List.sum_cons, shownOf,
      Nat.add_assoc]
    exact ⟨rfl, rfl⟩
  constructor
  · intro hidden
    constructor
    · have first := hidden [] piece pieces rfl
      rwa [quotesOf, List.map_nil, List.sum_nil, insideAfter_zero, shownOf, Nat.add_zero] at first
    · intro before other after split
      rw [(later before).1, (later before).2]
      exact hidden (piece :: before) other after (by rw [split, List.cons_append])
  · rintro ⟨first, hidden⟩ before other after split
    cases before with
    | nil =>
        cases split
        rwa [quotesOf, List.map_nil, List.sum_nil, insideAfter_zero, shownOf, Nat.add_zero]
    | cons head before =>
        obtain ⟨rfl, below⟩ := List.cons_eq_cons.mp split
        rw [← (later before).1, ← (later before).2]
        exact hidden before other after below

theorem hiddenFrom_of_limit {inside : Bool} {start : Nat} (limit : 1024 ≤ start)
    (pieces : List LexicalPiece) : HiddenFrom inside start pieces := by
  intro before piece after _ _
  exact .inl (by omega)

theorem separated_of_skeleton {pieces others : List LexicalPiece} (separated : Separated pieces)
    (same : others.map LexicalPiece.withoutContents = pieces.map LexicalPiece.withoutContents) :
    Separated others := by
  have onSkeleton (pieces : List LexicalPiece) :
      Separated (pieces.map LexicalPiece.withoutContents) ↔ Separated pieces := by
    rw [Separated, List.isChain_map]
    simp only [LexicalPiece.isLiteral_withoutContents,
      LexicalPiece.isOrdinaryLiteral_withoutContents]
    rfl
  rw [← onSkeleton, same, onSkeleton]
  exact separated

theorem head?_written_of_separated {piece : LexicalPiece} {pieces : List LexicalPiece}
    (separated : Separated (piece :: pieces)) (literal : piece.isLiteral = true) :
    (pieces.flatMap LexicalPiece.written).head? ≠ some '\'' := by
  cases pieces with
  | nil => simp
  | cons next pieces =>
      have ordinary := (List.isChain_cons_cons.mp separated).1 literal
      rw [List.flatMap_cons]
      cases next with
      | plain letters plain =>
          obtain ⟨letter, letters, rfl⟩ := List.exists_cons_of_ne_nil plain.1
          intro quoted
          exact (plain.2 letter List.mem_cons_self).1 (Option.some.inj quoted)
      | identifier name => exact nofun
      | literal contents => cases ordinary
      | escapeLiteral contents => exact nofun

/-- Where every literal is hidden, contents make no difference. -/
theorem redactFrom_eq_of_hiddenFrom {inside : Bool} {redacted : String}
    {pieces others : List LexicalPiece} (separated : Separated pieces)
    (room : inside = true → redacted.utf8ByteSize < 1024)
    (hidden : HiddenFrom inside redacted.utf8ByteSize pieces)
    (same : others.map LexicalPiece.withoutContents = pieces.map LexicalPiece.withoutContents) :
    redactFrom inside redacted (others.flatMap LexicalPiece.written) =
      redactFrom inside redacted (pieces.flatMap LexicalPiece.written) := by
  induction pieces generalizing inside redacted others with
  | nil =>
      cases List.map_eq_nil_iff.mp same
      rfl
  | cons piece pieces inductionHypothesis =>
      obtain ⟨other, others, rfl, first, rest⟩ := List.map_eq_cons_iff.mp same
      obtain ⟨hiddenFirst, hiddenRest⟩ := hiddenFrom_cons_iff.mp hidden
      have separatedOthers := separated_of_skeleton separated same
      have literal : other.isLiteral = piece.isLiteral :=
        LexicalPiece.isLiteral_of_withoutContents first
      rw [List.flatMap_cons, List.flatMap_cons]
      rcases passes_of_hiddenAt room hiddenFirst with ⟨_, final, cut⟩ | ⟨next, size, roomNext, goesOn⟩
      · rw [cut other _ first, cut piece _ rfl]
      · rw [goesOn other _ first fun isLiteral =>
            head?_written_of_separated separatedOthers (literal.trans isLiteral),
          goesOn piece _ rfl (head?_written_of_separated separated)]
        rw [← size] at hiddenRest
        exact inductionHypothesis separated.tail roomNext hiddenRest rest

/-! ## What is shown -/

theorem prefix_redactFrom (inside : Bool) (redacted : String) (characters : List Char) :
    redacted.toList <+: (redactFrom inside redacted characters).toList := by
  fun_induction shownBytes inside characters generalizing redacted with
  | case1 inside =>
      cases inside with
      | false => exact List.prefix_rfl
      | true => simp [redactFrom, redactInside]
  | case2 characters inductionHypothesis =>
      rw [redactFrom_inside_pair]
      exact inductionHypothesis redacted
  | case3 characters single inductionHypothesis =>
      rw [redactFrom_inside_quote]
      · apply List.IsPrefix.trans _ (inductionHypothesis _)
        simp
      · intro quoted
        obtain ⟨following, shape⟩ := List.head?_eq_some_iff.mp quoted
        exact single following shape
  | case4 letter characters single unquoted inductionHypothesis =>
      rw [redactFrom_inside_letter _ _ unquoted]
      exact inductionHypothesis redacted
  | case5 characters inductionHypothesis =>
      rw [redactFrom_outside_quote]
      split
      · simp
      · apply List.IsPrefix.trans _ (inductionHypothesis _)
        simp
  | case6 letter characters unquoted inductionHypothesis =>
      rw [redactFrom_outside_letter _ _ unquoted]
      split
      · simp
      · apply List.IsPrefix.trans _ (inductionHypothesis _)
        simp

theorem prefix_redactFrom_letter {letter : Char} (unquoted : letter ≠ '\'') (redacted : String)
    (characters : List Char) :
    redacted.toList ++ [letter] <+: (redactFrom false redacted (letter :: characters)).toList := by
  rw [redactFrom_outside_letter _ _ unquoted, ← String.toList_push]
  split
  · simp
  · exact prefix_redactFrom false _ characters

theorem redactFrom_ne (redacted : String) (first second : List Char) :
    redactFrom true redacted ('\'' :: 'x' :: first) ≠
      redactFrom true redacted ('\'' :: 'y' :: second) := by
  rw [redactFrom_inside_quote _ _ (by simp), redactFrom_inside_quote _ _ (by simp)]
  intro same
  have one := @prefix_redactFrom_letter 'x' (by decide) (redacted.push '\'') first
  have two := @prefix_redactFrom_letter 'y' (by decide) (redacted.push '\'') second
  rw [same] at one
  have equal := List.prefix_of_prefix_length_le one two (by simp)
  simp [List.prefix_append_right_inj] at equal

/-- A literal that is not hidden has contents that redaction tells apart, whatever follows. -/
theorem exists_contents_of_not_hiddenAt {inside : Bool} {redacted : String} {piece : LexicalPiece}
    (exposed : ¬ HiddenAt inside redacted.utf8ByteSize piece) :
    ∃ first second : LexicalPiece, first.withoutContents = piece.withoutContents ∧
      second.withoutContents = piece.withoutContents ∧
      ∀ rest, redactFrom inside redacted (first.written ++ rest) ≠
        redactFrom inside redacted (second.written ++ rest) := by
  rw [HiddenAt, Classical.not_imp, not_or, not_le] at exposed
  obtain ⟨literal, room, outOfStep⟩ := exposed
  cases piece with
  | plain letters plain => cases literal
  | identifier name => cases literal
  | literal contents =>
      cases inside with
      | false => exact absurd ⟨rfl, .inl rfl⟩ outOfStep
      | true => exact ⟨.literal "x", .literal "y", rfl, rfl, fun rest => redactFrom_ne _ _ _⟩
  | escapeLiteral contents =>
      cases inside with
      | false =>
          have early : ¬ 1024 ≤ redacted.utf8ByteSize + 12 := fun limit =>
            outOfStep ⟨rfl, .inr limit⟩
          have size : (redacted.push 'E').utf8ByteSize = redacted.utf8ByteSize + 1 :=
            String.utf8ByteSize_push
          refine ⟨.escapeLiteral [.escaped '\'', .plain 'x' (by decide)],
            .escapeLiteral [.escaped '\'', .plain 'y' (by decide)], rfl, rfl, fun rest => ?_⟩
          -- The quote behind the backslash leads out of what redaction takes for a literal.
          have opened (characters : List Char) :
              redactFrom false redacted ('E' :: '\'' :: '\\' :: characters) =
                redactFrom true (redacted.push 'E' ++ "'<redacted>") characters := by
            rw [redactFrom_outside_letter _ _ (by decide), if_neg, redactFrom_outside_quote, size,
              if_neg, redactFrom_inside_letter _ _ (by decide)]
            · omega
            · rw [← String.utf8ByteSize_push, size]
              omega
          intro same
          exact redactFrom_ne _ _ _ ((opened _).symm.trans (same.trans (opened _)))
      | true =>
          refine ⟨.escapeLiteral [.plain 'x' (by decide)], .escapeLiteral [.plain 'y' (by decide)],
            rfl, rfl, fun rest same => ?_⟩
          have passed (characters : List Char) : redactFrom true redacted ('E' :: characters) =
              redactFrom true redacted characters :=
            redactFrom_inside_letter redacted characters (by decide)
          exact redactFrom_ne _ _ _ ((passed _).symm.trans (same.trans (passed _)))

theorem exists_pieces_of_not_hiddenFrom {inside : Bool} {redacted : String}
    {pieces : List LexicalPiece} (separated : Separated pieces)
    (room : inside = true → redacted.utf8ByteSize < 1024)
    (exposed : ¬ HiddenFrom inside redacted.utf8ByteSize pieces) :
    ∃ first second : List LexicalPiece,
      first.map LexicalPiece.withoutContents = pieces.map LexicalPiece.withoutContents ∧
      second.map LexicalPiece.withoutContents = pieces.map LexicalPiece.withoutContents ∧
      redactFrom inside redacted (first.flatMap LexicalPiece.written) ≠
        redactFrom inside redacted (second.flatMap LexicalPiece.written) := by
  induction pieces generalizing inside redacted with
  | nil =>
      apply absurd _ exposed
      intro before piece after split
      simp at split
  | cons piece pieces inductionHypothesis =>
      by_cases hidden : HiddenAt inside redacted.utf8ByteSize piece
      · have exposedRest := fun rest => exposed (hiddenFrom_cons_iff.mpr ⟨hidden, rest⟩)
        rcases passes_of_hiddenAt room hidden with ⟨limit, _⟩ | ⟨next, size, roomNext, goesOn⟩
        · exact absurd (hiddenFrom_of_limit limit pieces) exposedRest
        · rw [← size] at exposedRest
          obtain ⟨first, second, sameFirst, sameSecond, different⟩ :=
            inductionHypothesis separated.tail roomNext exposedRest
          have passed (others : List LexicalPiece)
              (same : others.map LexicalPiece.withoutContents =
                pieces.map LexicalPiece.withoutContents) :
              redactFrom inside redacted ((piece :: others).flatMap LexicalPiece.written) =
                redactFrom (insideAfter inside piece.quotes) next
                  (others.flatMap LexicalPiece.written) := by
            have separatedOthers : Separated (piece :: others) :=
              separated_of_skeleton separated (by rw [List.map_cons, List.map_cons, same])
            rw [List.flatMap_cons]
            exact goesOn piece _ rfl (head?_written_of_separated separatedOthers)
          refine ⟨piece :: first, piece :: second, ?_, ?_, ?_⟩
          · rw [List.map_cons, List.map_cons, sameFirst]
          · rw [List.map_cons, List.map_cons, sameSecond]
          · rw [passed first sameFirst, passed second sameSecond]
            exact different
      · obtain ⟨first, second, sameFirst, sameSecond, different⟩ :=
          exists_contents_of_not_hiddenAt hidden
        refine ⟨first :: pieces, second :: pieces, ?_, ?_, ?_⟩
        · rw [List.map_cons, List.map_cons, sameFirst]
        · rw [List.map_cons, List.map_cons, sameSecond]
        · rw [List.flatMap_cons, List.flatMap_cons]
          exact different _

/-- A query hides its literals when each of them starts at the limit of redaction or behind an
even number of quotes in identifiers, and an `E'…'` literal also has its mark at the limit. -/
def LexicalQuery.HidesLiterals (query : LexicalQuery) : Prop :=
  ∀ before piece after, query.pieces = before ++ piece :: after → piece.isLiteral = true →
    1024 ≤ shownOf false before ∨
      quotesOf before % 2 = 0 ∧
        (piece.isOrdinaryLiteral = true ∨ 1024 ≤ shownOf false before + 12)

theorem LexicalQuery.hidesLiterals_iff (query : LexicalQuery) :
    query.HidesLiterals ↔ HiddenFrom false 0 query.pieces := by
  have even (quotes : Nat) : insideAfter false quotes = false ↔ quotes % 2 = 0 := by
    rw [insideAfter, Bool.false_xor, decide_eq_false_iff_not, Nat.mod_two_not_eq_one]
  simp only [HidesLiterals, HiddenFrom, HiddenAt, even, Nat.zero_add]

/-- Redaction is the same for all contents of the literals of a query exactly when the query
hides them. -/
theorem redactSqlLiterals_eq_iff (query : LexicalQuery) :
    (∀ other : LexicalQuery, other.skeleton = query.skeleton →
        redactSqlLiterals other.text = redactSqlLiterals query.text) ↔
      query.HidesLiterals := by
  have redacts (query : LexicalQuery) : redactSqlLiterals query.text =
      redactFrom false "" (query.pieces.flatMap LexicalPiece.written) := by
    rw [redactSqlLiterals, LexicalQuery.text, String.toList_ofList]
    rfl
  simp only [redacts, LexicalQuery.hidesLiterals_iff]
  constructor
  · intro same
    by_contra exposed
    obtain ⟨first, second, sameFirst, sameSecond, different⟩ :=
      @exists_pieces_of_not_hiddenFrom false "" query.pieces query.separated nofun exposed
    apply different
    rw [same ⟨first, separated_of_skeleton query.separated sameFirst⟩ sameFirst,
      same ⟨second, separated_of_skeleton query.separated sameSecond⟩ sameSecond]
  · intro hidden other same
    exact redactFrom_eq_of_hiddenFrom query.separated nofun hidden same

section Example

/-- A query that compares a column, whose name has a quote, with a literal. -/
private def compareColumn (contents : String) : LexicalQuery where
  pieces := [.plain "SELECT name FROM people WHERE ".toList (by simp),
    .identifier "it's", .plain " = ".toList (by simp), .literal contents]
  separated := by simp [Separated, LexicalPiece.isLiteral]

/-- The quote in the name is taken for the start of a literal, and the literal is shown. -/
theorem not_forall_redactSqlLiterals_eq :
    ¬ ∀ first second : LexicalQuery, first.skeleton = second.skeleton →
      redactSqlLiterals first.text = redactSqlLiterals second.text := by
  intro same
  have shown := same (compareColumn "ada") (compareColumn "eve") rfl
  exact absurd shown (by decide)

/-- A backslash before a quote puts redaction out of step as well. -/
example : redactSqlLiterals "SELECT E'it\\'s ada'" = "SELECT E'<redacted>'s ada'<redacted>'" := by
  decide

end Example

end Mongres
