import Formula.Proofs.Token.Splits

/-!
# Words with blanks between them

A `Word` is a lexeme with what it stands for. In front of a blank every lexeme ends, so words that
are written with single blanks between them are told apart whatever they are: `tokenize_words` says
that their tokens come back, in their order.
-/

namespace Formula

namespace Text

/-- No numeric character is a blank. -/
theorem isBlank_eq_false_of_isNumeric {c : Char} (h : isNumeric c = true) : isBlank c = false :=
  Ranges.not_contains_of_apart numericRanges blankRanges (by decide +kernel) h

end Text

namespace Lexeme

/-- A blank ends a name. -/
theorem continuesName_eq_false_of_isBlank {c : Char} (h : Text.isBlank c = true) :
    continuesName c = false := by
  rw [Bool.eq_false_iff]
  intro hname
  rw [continuesName, Bool.or_eq_true, Bool.or_eq_true, beq_iff_eq] at hname
  rcases hname with (halphabetic | hnumeric) | rfl
  · exact Bool.false_ne_true (Text.isBlank_eq_false_of_isAlphabetic halphabetic ▸ h)
  · exact Bool.false_ne_true (Text.isBlank_eq_false_of_isNumeric hnumeric ▸ h)
  · exact absurd h (by decide)

/-- In front of a blank, or of nothing, every lexeme ends. -/
theorem ends_of_isBlank {kind : TokenKind} {lexeme rest : List Char}
    (h : ∀ c ∈ rest.head?, Text.isBlank c = true) : Ends kind lexeme rest := by
  have hname : Stops continuesName rest :=
    fun c hc => continuesName_eq_false_of_isBlank (h c hc)
  have hdigit : Stops Text.isDigit rest :=
    fun c hc => Text.isDigit_eq_false_of_isBlank (h c hc)
  unfold Ends
  split
  · exact hname
  · exact hname
  · refine ⟨hdigit, ?_⟩
    rintro places rfl
    exact absurd (h '.' rfl) (by decide)
  · exact hdigit
  · rename_i a
    intro b hb htwo
    have hsigns : (twoCharSigns.all fun pair => !Text.isBlank pair.2) = true := by decide
    have hsign := List.all_eq_true.mp hsigns _ htwo
    rw [show Text.isBlank b = true from h b hb] at hsign
    exact nomatch hsign
  · trivial

end Lexeme

/-- A lexeme and what it stands for. -/
structure Word where
  kind : TokenKind
  text : String
  lexeme : String
  spelled : Lexeme.Spells kind text.toList lexeme.toList

namespace Word

/-- What the token of a word is, apart from its place. -/
def shape (word : Word) : TokenKind × String := (word.kind, word.text)

/-- Words one after the other, with a blank before each. -/
def spaced (words : List Word) : List Char := words.flatMap fun word => ' ' :: word.lexeme.toList

/-- Words with blanks in front start with a blank, if there are any. -/
theorem head?_spaced (words : List Word) : ∀ c ∈ (spaced words).head?, Text.isBlank c = true := by
  intro c hc
  cases words with
  | nil => exact nomatch hc
  | cons word rest =>
    cases hc
    decide

/-- A word right in front of a text that it ends at. -/
theorem splits {rest : List Char} {forms : List Shape} (word : Word)
    (hends : Lexeme.Ends word.kind word.lexeme.toList rest) (h : Splits rest forms) :
    Splits (word.lexeme.toList ++ rest) (word.shape :: forms) :=
  h.lexeme word.spelled hends

/-- What is written splits into the words. -/
theorem splits_spaced (words : List Word) : Splits (spaced words) (words.map shape) := by
  induction words with
  | nil => exact .nil nofun
  | cons word rest ih =>
    have hblank : ∀ c ∈ [' '], Text.isBlank c = true := List.forall_mem_singleton.mpr rfl
    exact (word.splits (Lexeme.ends_of_isBlank (head?_spaced rest)) ih).blanks hblank

/-- Words with blanks between them are the first word and the others with blanks in front. -/
theorem toList_intercalate (word : Word) (rest : List Word) :
    (" ".intercalate ((word :: rest).map lexeme)).toList = word.lexeme.toList ++ spaced rest := by
  induction rest generalizing word with
  | nil =>
    rw [List.map_singleton, String.intercalate_singleton, spaced, List.flatMap_nil, List.append_nil]
  | cons next rest ih =>
    rw [List.map_cons, List.map_cons, String.intercalate_cons_cons, ← List.map_cons,
      String.toList_append, String.toList_append, ih next, List.append_assoc]
    rfl

end Word

/-- Words with single blanks between them are the tokens of what they are written as. -/
theorem tokenize_words (words : List Word) :
    ∃ tokens place, tokenize (" ".intercalate (words.map Word.lexeme)) =
        .ok (tokens ++ [Token.eof place]) ∧
      tokens.map (fun token => (token.kind, token.text)) = words.map Word.shape := by
  apply tokenize_of_splits
  cases words with
  | nil => exact .nil nofun
  | cons word rest =>
    rw [Word.toList_intercalate]
    exact word.splits (Lexeme.ends_of_isBlank (Word.head?_spaced rest)) (Word.splits_spaced rest)

end Formula
