import Formula.Proofs.Number.Text
import Formula.Proofs.Token.Words

/-!
# Tokens written down

`Shape.written` is how a token is written: a string between quotes, a date or a reference between
its delimiters, and every other token as its text. `Shape.Writable` says which texts a token of each
kind can have, without the end of the input, which is not written.

A writable token is one word (`Shape.exists_word`), and the token of a lexeme is writable
(`Lexeme.Spells.writable`). So writing tokens with single blanks between them and reading what was
written gives the same tokens, whether they come from a source or not: `tokenize_writeOut`.
-/

namespace Formula

open NaturalPower

/-- A text between quotes, with a backslash before every quote and every backslash. -/
def quoted (text : String) : String :=
  String.ofList ('\'' :: (text.toList.flatMap fun c =>
    if c = '\'' ∨ c = '\\' then ['\\', c] else [c]) ++ ['\''])

/-- Whether a text is a name and no truth value. -/
def Word.isName (text : List Char) : Bool :=
  text.head?.any Lexeme.startsName && text.all Lexeme.continuesName &&
    !Lexeme.isWord "true" text && !Lexeme.isWord "false" text

namespace Shape

/-- Whether there are tokens of the kind with the text. -/
def Writable : Shape → Prop
  | (.identifier, text) => Word.isName text.toList = true
  | (.number, text) =>
    text.toList ≠ [] ∧ (∀ c ∈ text.toList, Text.isDigit c = true) ∧
      Text.natOfDigits text.toList < 2 ^ (63 : Nat)
  | (.decimalNumber, text) =>
    ∃ whole places, text.toList = whole ++ '.' :: places ∧
      whole ≠ [] ∧ (∀ c ∈ whole, Text.isDigit c = true) ∧
      places ≠ [] ∧ (∀ c ∈ places, Text.isDigit c = true) ∧ (Decimal.read? text.toList).isSome
  | (.string, _) => True
  | (.date, text) => '#' ∉ text.toList ∧ (Calendar.read? text.toList).isSome
  | (.boolean, text) => text ∈ ["true", "false"]
  | (.operator, text) => Lexeme.IsSign text.toList
  | (.leftParen, text) => text = "("
  | (.rightParen, text) => text = ")"
  | (.comma, text) => text = ","
  | (.reference, text) => ']' ∉ text.toList
  | (.eof, _) => False

/-- How a token of the kind with the text is written. -/
def written : Shape → String
  | (.string, text) => quoted text
  | (.date, text) => String.ofList ('#' :: text.toList ++ ['#'])
  | (.reference, text) => String.ofList ('[' :: text.toList ++ [']'])
  | (_, text) => text

/-- Tokens written one after the other, with single blanks between them. -/
def writeOut (forms : List Shape) : String := " ".intercalate (forms.map written)

end Shape

/-! ## Lexemes of writable tokens -/

/-- A text is what its quoted form stands for. -/
theorem Lexeme.spells_quoted (text : String) :
    Spells .string text.toList (quoted text).toList := by
  have hquotes : ∀ chars : List Char, Quotes chars (chars.flatMap fun c =>
      if c = '\'' ∨ c = '\\' then ['\\', c] else [c]) := by
    intro chars
    induction chars with
    | nil => exact .nil
    | cons c chars ih =>
      rw [List.flatMap_cons]
      split
      · rename_i hc
        have hescaped : escaped c = c := by rcases hc with rfl | rfl <;> rfl
        have h := Quotes.escape (c := c) ih
        rwa [hescaped] at h
      · rename_i hc
        rw [not_or] at hc
        exact .plain hc.1 hc.2 ih
  rw [quoted, String.toList_ofList]
  exact .string (hquotes text.toList)

/-- A name starts as names do, goes on as they do and is no truth value. -/
theorem Word.isName_iff {text : List Char} :
    isName text = true ↔ ∃ c rest, text = c :: rest ∧ Lexeme.startsName c = true ∧
      (∀ d ∈ rest, Lexeme.continuesName d = true) ∧
      ∀ word ∈ ["true", "false"], Lexeme.isWord word text = false := by
  cases text with
  | nil => simp [isName]
  | cons c rest =>
    have hstart := @Lexeme.continuesName_of_startsName c
    simp only [isName, List.head?_cons, Option.any_some, List.all_cons, Bool.and_eq_true,
      List.all_eq_true, Bool.not_eq_true', List.forall_mem_cons, List.cons.injEq]
    constructor
    · rintro ⟨⟨⟨hc, -, hrest⟩, htrue⟩, hfalse⟩
      exact ⟨c, rest, ⟨rfl, rfl⟩, hc, hrest, htrue, hfalse, nofun⟩
    · rintro ⟨c, rest, ⟨rfl, rfl⟩, hc, hrest, htrue, hfalse, -⟩
      exact ⟨⟨⟨hc, hstart hc, hrest⟩, htrue⟩, hfalse⟩

/-- A name spells itself. -/
theorem Word.spells_of_isName {text : List Char} (h : isName text = true) :
    Lexeme.Spells .identifier text text := by
  obtain ⟨c, rest, rfl, hstart, hrest, hword⟩ := isName_iff.mp h
  exact .identifier hstart hrest hword

/-- A truth value in small letters is a lexeme as it is. -/
theorem Lexeme.spells_truth {word : String} (h : word ∈ ["true", "false"]) :
    Spells .boolean word.toList word.toList := by
  refine .boolean h ?_
  have hsmall : (["true", "false"].all fun word => isWord word word.toList) = true := by decide
  exact List.all_eq_true.mp hsmall word h

/-- What a writable token is written as is a lexeme of it. -/
theorem Shape.Writable.spells {form : Shape} (h : form.Writable) :
    Lexeme.Spells form.1 form.2.toList form.written.toList := by
  obtain ⟨kind, text⟩ := form
  cases kind with
  | identifier => exact Word.spells_of_isName h
  | number => exact .number h.1 h.2.1 ((Integer.isSome_read?_iff h.1 h.2.1).mpr h.2.2)
  | decimalNumber =>
    obtain ⟨whole, places, htext, hne, hwhole, hne', hplaces, hvalid⟩ := h
    have hleading : Lexeme.leading whole = whole := if_neg hne
    rw [htext, ← hleading] at hvalid
    have hspells := Lexeme.Spells.decimalNumber hwhole hne' hplaces hvalid
    rwa [hleading, ← htext] at hspells
  | string => exact Lexeme.spells_quoted text
  | date =>
    simp only [written, String.toList_ofList]
    exact .date h.1 h.2
  | boolean => exact Lexeme.spells_truth h
  | operator => exact .operator h
  | leftParen => cases h; exact .leftParen
  | rightParen => cases h; exact .rightParen
  | comma => cases h; exact .comma
  | reference =>
    simp only [written, String.toList_ofList]
    exact .reference h
  | eof => exact h.elim

/-- The token of a lexeme is writable. -/
theorem Lexeme.Spells.writable {kind : TokenKind} {text : String} {lexeme : List Char}
    (h : Spells kind text.toList lexeme) : Shape.Writable (kind, text) := by
  generalize hchars : text.toList = chars at h
  have htext : text = String.ofList chars := by rw [← hchars, String.ofList_toList]
  cases h with
  | leftParen => exact htext
  | rightParen => exact htext
  | comma => exact htext
  | string => trivial
  | date hclose hvalid => exact ⟨hchars ▸ hclose, hchars ▸ hvalid⟩
  | reference hclose =>
    show ']' ∉ text.toList
    exact hchars ▸ hclose
  | number hne hdigits hvalid =>
    rw [Integer.isSome_read?_iff hne hdigits, ← hchars] at hvalid
    exact ⟨hchars ▸ hne, hchars ▸ hdigits, hvalid⟩
  | @decimalNumber whole places hwhole hne hplaces hvalid =>
    refine ⟨leading whole, places, hchars, ?_, ?_, hne, hplaces, hchars ▸ hvalid⟩
    · cases whole with
      | nil => exact List.cons_ne_nil _ _
      | cons d whole => exact List.cons_ne_nil _ _
    · cases whole with
      | nil => exact List.forall_mem_singleton.mpr rfl
      | cons d whole => exact hwhole
  | @boolean word _ hmem hword =>
    rw [String.ofList_toList] at htext
    exact htext ▸ hmem
  | identifier hstart hrest hword =>
    show Word.isName text.toList = true
    rw [hchars]
    exact Word.isName_iff.mpr ⟨_, _, rfl, hstart, hrest, hword⟩
  | operator h =>
    show IsSign text.toList
    exact hchars ▸ h

/-! ## Reading back -/

/-- Writable tokens are the words of what they are written as. -/
theorem Shape.exists_words {forms : List Shape} (h : ∀ form ∈ forms, form.Writable) :
    ∃ words : List Word, words.map Word.shape = forms ∧
      words.map Word.lexeme = forms.map written := by
  induction forms with
  | nil => exact ⟨[], rfl, rfl⟩
  | cons form rest ih =>
    obtain ⟨hform, hrest⟩ := List.forall_mem_cons.mp h
    obtain ⟨words, hshapes, hlexemes⟩ := ih hrest
    exact ⟨⟨form.1, form.2, form.written, hform.spells⟩ :: words,
      by rw [List.map_cons, hshapes]; rfl, by rw [List.map_cons, hlexemes]; rfl⟩

/-- Shapes that can be written are read back from their text. -/
theorem tokenize_writeOut_of_writable {forms : List Shape} (h : ∀ form ∈ forms, form.Writable) :
    ∃ tokens place, tokenize (Shape.writeOut forms) = .ok (tokens ++ [Token.eof place]) ∧
      shapes tokens = forms := by
  obtain ⟨words, hshapes, hlexemes⟩ := Shape.exists_words h
  obtain ⟨tokens, place, htokenize, hwords⟩ := tokenize_words words
  rw [hlexemes] at htokenize
  exact ⟨tokens, place, htokenize, hwords.trans hshapes⟩

/-- The tokens of a source are writable, apart from the end. -/
theorem exists_writable_of_tokenize {source : String} {tokens : List Token}
    (h : tokenize source = .ok tokens) : ∃ front place,
      tokens = front ++ [Token.eof place] ∧ ∀ form ∈ shapes front, Shape.Writable form := by
  obtain ⟨pieces, hpieces, rfl⟩ := tokenize_iff_segmentation.mp h
  refine ⟨_, _, rfl, fun form hform => ?_⟩
  obtain ⟨token, htoken, rfl⟩ := List.mem_map.mp hform
  obtain ⟨piece, hpiece, rfl⟩ := List.mem_map.mp htoken
  exact (hpieces.fits piece hpiece).spelled.writable

/-- Every list of tokens can be written down and is read back: whatever tokens are written with
single blanks between them, the lexer finds them again in their order, with the end behind them. In
particular this holds of the tokens of any source. -/
theorem tokenize_writeOut :
    (∀ forms : List Shape, (∀ form ∈ forms, form.Writable) →
      ∃ tokens place, tokenize (Shape.writeOut forms) = .ok (tokens ++ [Token.eof place]) ∧
        shapes tokens = forms) ∧
    ∀ source tokens, tokenize source = .ok tokens → ∃ front place again place',
      tokens = front ++ [Token.eof place] ∧
      tokenize (Shape.writeOut (shapes front)) = .ok (again ++ [Token.eof place']) ∧
      shapes again = shapes front := by
  refine ⟨fun forms h => tokenize_writeOut_of_writable h, fun source tokens h => ?_⟩
  obtain ⟨front, place, htokens, hwritable⟩ := exists_writable_of_tokenize h
  obtain ⟨again, place', hagain, hshapes⟩ := tokenize_writeOut_of_writable hwritable
  exact ⟨front, place, again, place', htokens, hagain, hshapes⟩

/-- Signs that would run together, a string and a name with the characters that could end them, and
a number that is written otherwise than it was read. -/
theorem tokenize_writeOut_mixed :
    let forms : List Shape := [(.identifier, "_größe1"), (.operator, "<"), (.operator, "="),
      (.string, "it's \\n"), (.reference, "a [b'"), (.date, "1/2/2009 3:04"),
      (.decimalNumber, "007.50"), (.number, "0042"), (.boolean, "true"), (.leftParen, "(")]
    let tokens : List Token := [⟨.number, "1", 0⟩, ⟨.operator, "<", 1⟩, ⟨.decimalNumber, "0.5", 2⟩,
      Token.eof 4]
    ((∀ form ∈ forms, form.Writable) ∧
      ∃ tokens place, tokenize (Shape.writeOut forms) = .ok (tokens ++ [Token.eof place]) ∧
        shapes tokens = forms) ∧
    tokenize "1<.5" = .ok tokens ∧ ∃ front place again place',
      tokens = front ++ [Token.eof place] ∧
      tokenize (Shape.writeOut (shapes front)) = .ok (again ++ [Token.eof place']) ∧
      shapes again = shapes front := by
  intro forms tokens
  have hwritable : ∀ form ∈ forms, form.Writable := by
    have hname : Word.isName "_größe1".toList = true := by decide +kernel
    have hplaces : Shape.Writable (.decimalNumber, "007.50") :=
      ⟨['0', '0', '7'], ['5', '0'], by decide, by decide, List.all_eq_true.mp (by decide),
        by decide, List.all_eq_true.mp (by decide), by decide +kernel⟩
    have hdate : (Calendar.read? "1/2/2009 3:04".toList).isSome := by decide +kernel
    have hreference : ']' ∉ "a [b'".toList := by decide
    have htruth : "true" ∈ ["true", "false"] := by decide
    simp only [forms, List.forall_mem_cons]
    exact ⟨hname, .one (by decide), .one (by decide), trivial, hreference, ⟨by decide, hdate⟩,
      hplaces, ⟨by decide, List.all_eq_true.mp (by decide), by decide⟩, htruth, rfl, nofun⟩
  have htokenize : tokenize "1<.5" = .ok tokens := by decide +kernel
  exact ⟨⟨hwritable, tokenize_writeOut.1 forms hwritable⟩, htokenize,
    tokenize_writeOut.2 "1<.5" tokens htokenize⟩

end Formula
