import Formula.Bindings
import Formula.Proofs.Token.Splits

/-!
# Text in place of references

`replaceReferences` puts a text in the place of every lexeme that refers to a name. What is known of
the text is that it begins with a parenthesis and is made of whole lexemes (`Parenthesized`). A
lexeme that ends in front of a reference ends in front of a parenthesis as well, so no lexeme around
the replaced ones changes: `tokenize_replaceReferences` says that the tokens of the edited source are
those of the source, with the tokens of the text in the place of the references.
-/

namespace Formula

/-- Whether a token refers to a name, in any letter case. -/
def Token.refersTo (token : Token) (name : String) : Bool :=
  token.kind == .reference && Bindings.fold token.text == Bindings.fold name

/-- The characters of a source with a text in place of the lexeme of a token, brackets included, if
the token refers to a name. -/
def Token.replace (name : String) (text : List Char) (token : Token) (chars : List Char) :
    List Char :=
  if token.refersTo name then
    chars.take token.position ++ text ++ chars.drop (token.position + (token.text.length + 2))
  else chars

/-- The characters of a source with a text in place of all lexemes that refer to a name. The last
one is replaced first, so that the others still stand where their tokens say. -/
def replaceReferences (name : String) (text : List Char) (tokens : List Token)
    (chars : List Char) : List Char :=
  tokens.foldr (Token.replace name text) chars

/-- What stands for a token where the references to a name are replaced. -/
def Token.replaced (name : String) (forms : List Shape) (token : Token) : List Shape :=
  if token.refersTo name then forms else [(token.kind, token.text)]

/-- Whether a text begins with a parenthesis and is made of lexemes of the given shapes, whatever
follows it. -/
structure Parenthesized (text : List Char) (forms : List Shape) : Prop where
  opens : ∃ rest, text = '(' :: rest
  splits : ∀ {rest others}, Splits rest others → Splits (text ++ rest) (forms ++ others)

/-! ## Ends of lexemes -/

/-- Whether two texts are the same, or the same up to a bracket on one side and a parenthesis on the
other. -/
inductive OpensAlike : List Char → List Char → Prop where
  | refl (text : List Char) : OpensAlike text text
  | opened (rest rest' : List Char) : OpensAlike ('[' :: rest) ('(' :: rest')
  | cons (c : Char) {rest rest' : List Char} (h : OpensAlike rest rest') :
      OpensAlike (c :: rest) (c :: rest')

/-- Texts that open alike do so behind a common front. -/
theorem OpensAlike.append (front : List Char) {rest rest' : List Char} (h : OpensAlike rest rest') :
    OpensAlike (front ++ rest) (front ++ rest') := by
  induction front with
  | nil => exact h
  | cons c front ih => exact .cons c ih

/-- A run that a parenthesis ends stops in front of the second text if it does so in front of the
first. -/
theorem OpensAlike.stops {p : Char → Bool} {rest rest' : List Char} (h : OpensAlike rest rest')
    (hp : p '(' = false) (hrest : Stops p rest) : Stops p rest' := by
  cases h with
  | refl => exact hrest
  | opened => exact stops_cons.mpr hp
  | cons c _ => exact stops_cons.mpr (stops_cons.mp hrest)

namespace Lexeme

/-- A lexeme ends in front of every character that opens another one. -/
theorem ends_of_mem_openers {kind : TokenKind} {lexeme rest : List Char} {c : Char}
    (h : c ∈ openers) : Ends kind lexeme (c :: rest) := by
  have hall : (openers.all fun c => !continuesName c && !Text.isDigit c && c ≠ '.' &&
      twoCharSigns.all fun pair => pair.2 ≠ c) = true := by decide +kernel
  have hc := List.all_eq_true.mp hall c h
  simp only [Bool.and_eq_true, Bool.not_eq_true', decide_eq_true_eq, List.all_eq_true] at hc
  obtain ⟨⟨⟨hname, hdigit⟩, hpoint⟩, hsign⟩ := hc
  unfold Ends
  split
  · exact stops_cons.mpr hname
  · exact stops_cons.mpr hname
  · exact ⟨stops_cons.mpr hdigit, fun places hplaces => absurd (List.cons.inj hplaces).1 hpoint⟩
  · exact stops_cons.mpr hdigit
  · rintro b ⟨⟩ htwo
    exact hsign _ htwo rfl
  · trivial

/-- A lexeme that ends in front of one text ends in front of the other. -/
theorem Ends.of_opensAlike {kind : TokenKind} {lexeme rest rest' : List Char}
    (h : Ends kind lexeme rest) (halike : OpensAlike rest rest') : Ends kind lexeme rest' := by
  cases halike with
  | refl => exact h
  | opened => exact ends_of_mem_openers (by decide)
  | cons c halike => exact h.of_cons (halike.stops (by decide))

/-- The lexeme of a reference is its name in brackets. -/
theorem Spells.eq_of_reference {name lexeme : List Char} (h : Spells .reference name lexeme) :
    lexeme = '[' :: (name ++ [']']) := by
  cases h
  rfl

end Lexeme

/-! ## The edited source -/

/-- What stands in front of a piece, and the piece itself, split off from what follows. -/
theorem Piece.Fits.take_stop {source blanks : List Char} {place : Nat} {piece : Piece}
    (h : piece.Fits source) (hdrop : source.drop place = blanks ++ source.drop piece.start) :
    source.take piece.start = source.take place ++ blanks ∧
      source.take piece.stop = source.take place ++ blanks ++ piece.lexeme := by
  have hsource : source = source.take place ++ blanks ++ source.drop piece.start := by
    rw [List.append_assoc, ← hdrop, List.take_append_drop]
  constructor
  · exact List.append_cancel_right ((List.take_append_drop ..).trans hsource)
  · rw [h.drop_start, ← List.append_assoc] at hsource
    exact List.append_cancel_right ((List.take_append_drop ..).trans hsource)

/-- The lexeme of a reference is its name in brackets. -/
theorem Piece.Fits.lexeme_of_refersTo {source : List Char} {piece : Piece} {name : String}
    (h : piece.Fits source) (hname : piece.token.refersTo name = true) :
    piece.lexeme = '[' :: (piece.token.text.toList ++ [']']) := by
  have hkind : piece.token.kind = .reference := by
    rw [Token.refersTo, Bool.and_eq_true, beq_iff_eq] at hname
    exact hname.1
  exact (hkind ▸ h.spelled).eq_of_reference

variable {name : String} {text : List Char} {forms : List Shape}

/-- From a place on, the edited source is made of the lexemes of the source, with those of the text
in place of the references. In front of that place it is the source. -/
theorem Segmentation.splits_replaceReferences (htext : Parenthesized text forms)
    {source : List Char} {place : Nat} {pieces : List Piece} (h : Segmentation source place pieces)
    (hplace : place ≤ source.length) :
    ∃ tail, replaceReferences name text (pieces.map Piece.token) source =
        source.take place ++ tail ∧
      Splits tail ((pieces.map Piece.token).flatMap (Token.replaced name forms)) ∧
      OpensAlike (source.drop place) tail := by
  induction pieces generalizing place with
  | nil =>
    obtain ⟨blanks, hblanks, hdrop⟩ :=
      (segmentation_nil_iff.mp h).exists_blanks hplace (Nat.le_refl _)
    rw [List.drop_length, List.append_nil] at hdrop
    refine ⟨source.drop place, (List.take_append_drop ..).symm, ?_, .refl _⟩
    rw [hdrop]
    exact .nil hblanks
  | cons piece pieces ih =>
    obtain ⟨hle, hblank, hfits, hrest⟩ := segmentation_cons_iff.mp h
    have hstart := hfits.start_lt_stop
    have hstop := hfits.stop_le
    obtain ⟨tail, hedited, hsplits, halike⟩ := ih hrest hstop
    obtain ⟨blanks, hblanks, hdrop⟩ := hblank.exists_blanks hle (by omega)
    obtain ⟨htake, htake'⟩ := hfits.take_stop hdrop
    rw [List.map_cons, List.flatMap_cons]
    have hstep : replaceReferences name text (piece.token :: pieces.map Piece.token) source =
        piece.token.replace name text (source.take piece.stop ++ tail) :=
      congrArg (piece.token.replace name text) hedited
    rw [hstep, Token.replace, Token.replaced]
    by_cases hname : piece.token.refersTo name = true
    · rw [if_pos hname, if_pos hname]
      have hlexeme := hfits.lexeme_of_refersTo hname
      have hend : piece.token.position + (piece.token.text.length + 2) = piece.stop := by
        rw [Piece.stop, hlexeme, List.length_cons, List.length_append, String.length_toList]
        rfl
      have hlength : (source.take piece.stop).length = piece.stop := List.length_take_of_le hstop
      have hfront : (source.take piece.stop ++ tail).take piece.start =
          source.take place ++ blanks := by
        rw [List.take_append_of_le_length (by rw [hlength]; exact Nat.le_of_lt hstart),
          List.take_take, Nat.min_eq_left (Nat.le_of_lt hstart)]
        exact htake
      have hback : (source.take piece.stop ++ tail).drop piece.stop = tail :=
        List.drop_left' hlength
      obtain ⟨rest, hopens⟩ := htext.opens
      refine ⟨blanks ++ (text ++ tail), ?_, ?_, ?_⟩
      · rw [hend, show piece.token.position = piece.start from rfl, hfront, hback, List.append_assoc,
          List.append_assoc]
      · exact (htext.splits hsplits).blanks hblanks
      · rw [hdrop, hfits.drop_start, hlexeme, hopens]
        exact .append blanks (.opened _ _)
    · rw [if_neg hname, if_neg hname]
      refine ⟨blanks ++ piece.lexeme ++ tail, ?_, ?_, ?_⟩
      · rw [htake']
        simp only [List.append_assoc]
      · exact .cons hblanks hfits.spelled (hfits.maximal.of_opensAlike halike) hsplits
      · rw [hdrop, hfits.drop_start, ← List.append_assoc]
        exact halike.append _

/-- The lexer finds the tokens of the text in the place of the references, and all others where they
were. -/
theorem tokenize_replaceReferences (htext : Parenthesized text forms) {source : String}
    {tokens : List Token} {place : Nat} (h : tokenize source = .ok (tokens ++ [Token.eof place])) :
    ∃ tokens' place', tokenize (String.ofList (replaceReferences name text
        (tokens ++ [Token.eof place]) source.toList)) = .ok (tokens' ++ [Token.eof place']) ∧
      shapes tokens' = tokens.flatMap (Token.replaced name forms) := by
  obtain ⟨pieces, hpieces, htokens⟩ := tokenize_iff_segmentation.mp h
  obtain ⟨rfl, -⟩ := List.append_inj' htokens rfl
  obtain ⟨tail, hedited, hsplits, -⟩ := hpieces.splits_replaceReferences htext (Nat.zero_le _)
  apply tokenize_of_splits
  have hend : replaceReferences name text (pieces.map Piece.token ++ [Token.eof place])
      source.toList = tail := by
    rw [replaceReferences, List.foldr_append]
    exact hedited
  rw [String.toList_ofList, hend]
  exact hsplits

end Formula
