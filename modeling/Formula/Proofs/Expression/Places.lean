import Formula.Proofs.Expression.Source
import Formula.Proofs.Token.Faults
import Formula.Proofs.Tree.Errors

/-!
# Where reading a source fails

An error about a source may have a place, which is that of one of its characters. An error of the
lexer is explained by the characters there (`LexError.Explains`). An error of the parser names a
token, and the source has this token at this place: `blames_of_ofTokens` says that it is one of those
that were parsed, and it is not the end, which nothing is said of.
-/

namespace Formula

/-- The text and place of the token that an error of the parser names. -/
def SyntaxError.named? : SyntaxError → Option (String × Nat)
  | unrecognizedToken text position | unknownFunction text position | missingOperand text position
  | unexpectedToken text position | invalidLiteral text position => some (text, position)
  | parenthesisMismatch _ _ | unexpectedEnd | tooDeep _ => none

/-- The place that an error about a source has. -/
def ExpressionError.position? : ExpressionError → Option Nat
  | lexical e => some e.position
  | parsing (.structural e) => e.named?.map Prod.snd
  | parsing (.arity _) | evaluation _ => none

/-- The token that an error names is one of those it is about, and not the end. -/
theorem SyntaxError.Blames.exists_token {tokens : List Token} {e : SyntaxError}
    (h : e.Blames tokens) {text : String} {position : Nat}
    (hnamed : e.named? = some (text, position)) :
    ∃ token ∈ tokens, token.StandsAt text position ∧ token.kind ≠ .eof := by
  have hwords : TokenKind.eof ∉ [TokenKind.operator, .identifier] := by decide
  have hliterals : TokenKind.eof ∉ [TokenKind.number, .decimalNumber, .string, .date, .boolean] := by
    decide
  cases e with
  | parenthesisMismatch | unexpectedEnd | tooDeep => exact nomatch hnamed
  | unrecognizedToken =>
    cases hnamed
    obtain ⟨token, htoken, hstands, hkind⟩ := h
    exact ⟨token, htoken, hstands, by simp [hkind]⟩
  | unknownFunction =>
    cases hnamed
    obtain ⟨token, htoken, hstands, hkind, -⟩ := h
    exact ⟨token, htoken, hstands, by simp [hkind]⟩
  | missingOperand =>
    cases hnamed
    obtain ⟨token, htoken, hstands, hkind⟩ := h
    exact ⟨token, htoken, hstands, fun heof => hwords (heof ▸ hkind)⟩
  | unexpectedToken =>
    cases hnamed
    obtain ⟨token, htoken, hstands, hkind⟩ := h
    exact ⟨token, htoken, hstands, fun heof => hkind (by simp [heof])⟩
  | invalidLiteral =>
    cases hnamed
    obtain ⟨token, htoken, hstands, hkind, -⟩ := h
    exact ⟨token, htoken, hstands, fun heof => hliterals (heof ▸ hkind)⟩

/-- The tokens of a source end with an end, so that none is added and the program never stops over
the place of one. -/
theorem parse?_of_tokenize {source : String} {tokens : List Token} (h : tokenize source = .ok tokens)
    (overflow : Overflow) : Tree.parse? overflow tokens = some (Tree.ofTokens tokens) := by
  obtain ⟨pieces, -, rfl⟩ := tokenize_iff_segmentation.mp h
  exact parse?_eq_some fun _ => Parser.endFits_concat rfl

/-- Every token but the end stands at a character of the source. -/
theorem position_lt_of_tokenize {source : String} {tokens : List Token}
    (h : tokenize source = .ok tokens) {token : Token} (htoken : token ∈ tokens)
    (hkind : token.kind ≠ .eof) : token.position < source.length := by
  obtain ⟨pieces, hpieces, rfl⟩ := tokenize_iff_segmentation.mp h
  rcases List.mem_append.mp htoken with htoken | htoken
  · obtain ⟨piece, hpiece, rfl⟩ := List.mem_map.mp htoken
    have hfits := hpieces.fits piece hpiece
    have hlt : piece.start < source.toList.length :=
      Nat.lt_of_lt_of_le hfits.start_lt_stop hfits.stop_le
    rwa [String.length_toList] at hlt
  · rw [List.mem_singleton.mp htoken] at hkind
    exact absurd rfl hkind

/-- The token that an error of the parser names is one of the source, at one of its characters. -/
theorem exists_token_of_parsing {source : String} {serial : Nat} {e : SyntaxError} {text : String}
    {position : Nat} (h : Expression.ofSource source serial = .error (.parsing (.structural e)))
    (hnamed : e.named? = some (text, position)) :
    position < source.length ∧
      ∃ tokens, tokenize source = .ok tokens ∧ ∃ token ∈ tokens, token.StandsAt text position := by
  obtain ⟨tokens, htokens, herror⟩ := Expression.exists_tokens_of_parsing h
  have hblames : e.Blames (Parser.withEnd tokens) := blames_of_ofTokens herror
  obtain ⟨token, htoken, hstands, hkind⟩ := hblames.exists_token hnamed
  have hmem : token ∈ tokens := Parser.mem_of_mem_withEnd htoken hkind
  refine ⟨?_, tokens, htokens, token, hmem, hstands⟩
  rw [← hstands.2]
  exact position_lt_of_tokenize htokens hmem hkind

/-- A lexical error of a formula explains what is wrong with its characters. -/
theorem explains_of_lexical {source : String} {serial : Nat} {e : LexError}
    (h : Expression.ofSource source serial = .error (.lexical e)) : e.Explains source.toList := by
  rw [Expression.ofSource_eq] at h
  split at h
  · rename_i e' htokens
    cases h
    exact explains_of_tokenize htokens
  · split at h <;> exact nomatch h

/-- The place of an error is that of a character of the source. If the lexer fails, what stands in
front of that place splits into tokens, and from there on stands what the error is about, no blank
and nothing that a token begins with. If the parser fails, the token that the error names is one of
the source, at that place. -/
theorem ofSource_error_points {source : String} {serial : Nat} {e : ExpressionError}
    (h : Expression.ofSource source serial = .error e) :
    (∀ position, e.position? = some position → position < source.length) ∧
    (∀ fault, e = .lexical fault →
      (∃ tokens, tokenize (String.ofList (source.toList.take fault.position)) = .ok tokens) ∧
      fault.culprit <+: source.toList.drop fault.position ∧
      (∃ c, source.toList[fault.position]? = some c ∧ Text.isBlank c = false) ∧
      ∀ piece : Piece, piece.Fits source.toList → piece.start ≠ fault.position) ∧
    ∀ fault text position, e = .parsing (.structural fault) →
      fault.named? = some (text, position) →
      ∃ tokens, tokenize source = .ok tokens ∧ ∃ token ∈ tokens, token.StandsAt text position := by
  refine ⟨fun position hposition => ?_, ?_, ?_⟩
  · cases e with
    | lexical e =>
      cases hposition
      obtain ⟨c, hc, -⟩ := (explains_of_lexical h).notBlank
      rw [← String.length_toList]
      exact (List.getElem?_eq_some_iff.mp hc).1
    | parsing e =>
      cases e with
      | structural e =>
        obtain ⟨⟨text, place⟩, hnamed, rfl⟩ := Option.map_eq_some_iff.mp hposition
        exact (exists_token_of_parsing h hnamed).1
      | arity e => exact nomatch hposition
    | evaluation e => exact nomatch hposition
  · rintro fault rfl
    obtain ⟨⟨pieces, hpieces⟩, hculprit, hblank, hstuck⟩ := explains_of_lexical h
    refine ⟨⟨_, tokenize_iff_segmentation.mpr ⟨pieces, ?_, rfl⟩⟩, hculprit, hblank, hstuck⟩
    rw [String.toList_ofList]
    exact hpieces
  · rintro fault text position rfl hnamed
    exact (exists_token_of_parsing h hnamed).2

/-- The formula `[a] + 'b`, whose string does not end, and `2 *`, whose operator has no right
operand. -/
theorem ofSource_error_points_unfinished :
    (∃ tokens, tokenize (String.ofList ("[a] + 'b".toList.take 6)) = .ok tokens) ∧
      ['\''] <+: "[a] + 'b".toList.drop 6 ∧
      ∃ tokens, tokenize "2 * " = .ok tokens ∧ ∃ token ∈ tokens, token.StandsAt "*" 2 := by
  have hlexical : Expression.ofSource "[a] + 'b" 0 = .error (.lexical (.unterminatedString 6)) := by
    have htokens : tokenize "[a] + 'b" = .error (.unterminatedString 6) := by decide +kernel
    rw [Expression.ofSource_eq, htokens]
  have hparsing : Expression.ofSource "2 * " 0 =
      .error (.parsing (.structural (.missingOperand "*" 2))) := by
    have htokens : tokenize "2 * " =
        .ok [⟨.number, "2", 0⟩, ⟨.operator, "*", 2⟩, Token.eof 4] := by decide +kernel
    rw [Expression.ofSource_eq, htokens]
    rfl
  obtain ⟨hbefore, hculprit, -⟩ := (ofSource_error_points hlexical).2.1 _ rfl
  exact ⟨hbefore, hculprit, (ofSource_error_points hparsing).2.2 _ _ _ rfl rfl⟩

end Formula
