import Formula.Proofs.Token.Segmentation

/-!
# Splitting without places

`Splits text forms` says of a text what a segmentation says of a source, without the places: the
text is made of lexemes of the given kinds and texts, each as long as it can be, with blanks between
them. It is built from the end of the text, so a text can be taken apart and put together again
behind another front, which moves every place in it.

`tokenize_of_splits` says that the lexer finds the lexemes wherever they stand.
-/

namespace Formula

/-- What a token is, apart from its place. -/
abbrev Shape := TokenKind × String

/-- What tokens are, apart from their places. -/
def shapes (tokens : List Token) : List (TokenKind × String) :=
  tokens.map fun token => (token.kind, token.text)

/-- Tokens of which the first has a shape start with a token of it. -/
theorem shapes_eq_cons_iff {tokens : List Token} {kind : TokenKind} {text : String}
    {rest : List Shape} :
    shapes tokens = (kind, text) :: rest ↔
      ∃ place others, tokens = ⟨kind, text, place⟩ :: others ∧ shapes others = rest := by
  unfold shapes
  rw [List.map_eq_cons_iff]
  constructor
  · rintro ⟨⟨kind, text, place⟩, others, rfl, hshape, hrest⟩
    cases hshape
    exact ⟨place, others, rfl, hrest⟩
  · rintro ⟨place, others, rfl, hrest⟩
    exact ⟨_, others, rfl, rfl, hrest⟩

/-- Tokens of two runs of shapes are two runs of tokens. -/
theorem shapes_eq_append_iff {tokens : List Token} {first second : List Shape} :
    shapes tokens = first ++ second ↔
      ∃ front back, tokens = front ++ back ∧ shapes front = first ∧ shapes back = second :=
  List.map_eq_append_iff

/-- Whether a text is made of lexemes of the given shapes, with blanks between them. -/
inductive Splits : List Char → List Shape → Prop where
  | nil {blanks : List Char} (hblank : ∀ c ∈ blanks, Text.isBlank c = true) : Splits blanks []
  | cons {blanks lexeme rest : List Char} {kind : TokenKind} {text : String} {forms : List Shape}
      (hblank : ∀ c ∈ blanks, Text.isBlank c = true)
      (hspells : Lexeme.Spells kind text.toList lexeme) (hends : Lexeme.Ends kind lexeme rest)
      (h : Splits rest forms) : Splits (blanks ++ lexeme ++ rest) ((kind, text) :: forms)

namespace Splits

variable {text rest : List Char} {forms : List Shape}

/-- Blanks in front of a text are no part of a lexeme. -/
theorem blanks {blanks : List Char} (h : Splits text forms)
    (hblanks : ∀ c ∈ blanks, Text.isBlank c = true) : Splits (blanks ++ text) forms := by
  cases h with
  | nil hblank => exact .nil (List.forall_mem_append.mpr ⟨hblanks, hblank⟩)
  | cons hblank hspells hends h =>
    rw [List.append_assoc, ← List.append_assoc, ← List.append_assoc]
    exact .cons (List.forall_mem_append.mpr ⟨hblanks, hblank⟩) hspells hends h

/-- A lexeme right in front of a text that it ends at. -/
theorem lexeme {lexeme : List Char} {kind : TokenKind} {text : String} (h : Splits rest forms)
    (hspells : Lexeme.Spells kind text.toList lexeme) (hends : Lexeme.Ends kind lexeme rest) :
    Splits (lexeme ++ rest) ((kind, text) :: forms) :=
  @Splits.cons [] lexeme rest kind text forms nofun hspells hends h

end Splits

/-! ## Places -/

/-- A run of blanks in a source. -/
theorem blankBetween_append {front blanks rest : List Char}
    (h : ∀ c ∈ blanks, Text.isBlank c = true) :
    BlankBetween (front ++ blanks ++ rest) front.length (front ++ blanks).length := by
  intro i c hi hi' hc
  rw [List.length_append] at hi'
  rw [List.append_assoc, List.getElem?_append_right hi, List.getElem?_append_left (by omega)] at hc
  exact h c (List.mem_of_getElem? hc)

/-- Behind any front, the lexemes of a text are pieces of a source. -/
theorem Splits.exists_segmentation {text : List Char} {forms : List Shape} (h : Splits text forms)
    (front : List Char) : ∃ pieces,
      Segmentation (front ++ text) front.length pieces ∧
        shapes (pieces.map Piece.token) = forms := by
  induction h generalizing front with
  | @nil blanks hblank =>
    refine ⟨[], segmentation_nil_iff.mpr ?_, rfl⟩
    have hrun : BlankBetween (front ++ blanks ++ []) front.length (front ++ blanks).length :=
      blankBetween_append hblank
    rwa [List.append_nil] at hrun
  | @cons blanks lexeme rest kind text forms hblank hspells hends _ ih =>
    obtain ⟨pieces, hpieces, rfl⟩ := ih (front ++ blanks ++ lexeme)
    have hsource : front ++ (blanks ++ lexeme ++ rest) = front ++ blanks ++ lexeme ++ rest := by
      simp only [List.append_assoc]
    let piece : Piece := ⟨⟨kind, text, (front ++ blanks).length⟩, lexeme⟩
    have hstop : piece.stop = (front ++ blanks ++ lexeme).length := by
      rw [List.length_append]
      rfl
    have hfits : piece.Fits (front ++ blanks ++ lexeme ++ rest) := by
      refine ⟨hspells, ?_, ?_⟩
      · rw [List.append_assoc _ lexeme]
        exact ⟨rest, (List.drop_left ..).symm⟩
      · rw [hstop, List.drop_left]
        exact hends
    have hle : front.length ≤ piece.start := by
      show front.length ≤ (front ++ blanks).length
      rw [List.length_append]
      exact Nat.le_add_right _ _
    have hrun : BlankBetween (front ++ blanks ++ lexeme ++ rest) front.length piece.start := by
      rw [List.append_assoc _ lexeme]
      exact blankBetween_append hblank
    rw [hsource]
    exact ⟨piece :: pieces, segmentation_cons_iff.mpr ⟨hle, hrun, hfits, hstop ▸ hpieces⟩, rfl⟩

/-- The lexer finds the lexemes that a source is made of. -/
theorem tokenize_of_splits {source : String} {forms : List Shape}
    (h : Splits source.toList forms) :
    ∃ tokens place, tokenize source = .ok (tokens ++ [Token.eof place]) ∧
      shapes tokens = forms := by
  obtain ⟨pieces, hpieces, rfl⟩ := h.exists_segmentation []
  exact ⟨_, _, tokenize_iff_segmentation.mpr ⟨pieces, hpieces, rfl⟩, rfl⟩

end Formula
