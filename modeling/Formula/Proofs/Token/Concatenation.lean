import Formula.Proofs.Token.Faults

/-!
# Sources one after the other

Blanks between two sources keep their tokens apart: in front of a blank every lexeme ends, whatever
follows it, and behind blanks the lexer has nothing left of what it has read but its place. So the
tokens of the whole are those of the first source without its end and those of the second one
further on, and the first error of the second source, further on, is that of the whole:
`tokenize_append`.

## Shape of the proof

The pieces of the first source are pieces of the whole (`Piece.Fits.append`), so reading them is an
induction on them (`Segmentation.tokens_append`). What is read behind them does not depend on where
it stands (`Lexer.tokens_shift`), nor on how many tokens may be read, as long as there are more than
characters (`Lexer.tokens_eq_of_lt`).
-/

namespace Formula

/-! ## Places further on -/

/-- A token in a source with `count` more characters in front. -/
def Token.shift (count : Nat) (token : Token) : Token :=
  { token with position := token.position + count }

/-- An error in a source with `count` more characters in front. -/
def LexError.shift (count : Nat) : LexError → LexError
  | unterminatedString position => unterminatedString (position + count)
  | unterminatedDate position => unterminatedDate (position + count)
  | unterminatedReference position => unterminatedReference (position + count)
  | invalidDate text position => invalidDate text (position + count)
  | invalidNumber text position => invalidNumber text (position + count)
  | unexpectedCharacter char position => unexpectedCharacter char (position + count)

/-- A lexer in a source with `count` more characters in front. -/
def Lexer.shift (count : Nat) (lexer : Lexer) : Lexer := ⟨lexer.rest, lexer.position + count⟩

/-- What is wrong with a lexeme is found further on in the same way. -/
theorem Lexeme.Faulty.fault_shift {text : List Char} {fault : Nat → LexError} {taken : Nat}
    (h : Faulty text fault taken) (place count : Nat) :
    fault (place + count) = (fault place).shift count := by
  cases h <;> rfl

namespace Lexer

variable {lexer behind : Lexer} {count count' : Nat}

/-- The place of the lexer makes no difference to the blanks that it skips. -/
theorem skipBlanks_shift (lexer : Lexer) (count : Nat) :
    (lexer.shift count).skipBlanks = lexer.skipBlanks.shift count := by
  simp only [skipBlanks, skip, shift, Nat.add_right_comm]

/-- The next token or error is found further on in the same way. -/
theorem next_shift (lexer : Lexer) (count : Nat) : (lexer.shift count).next =
    ((lexer.next.1.map (Token.shift count)).mapError (LexError.shift count),
      lexer.next.2.shift count) := by
  unfold next
  rw [skipBlanks_shift]
  obtain ⟨rest, place⟩ := lexer.skipBlanks
  cases rest with
  | nil => rfl
  | cons c rest =>
    have hskip : ∀ taken, (Lexer.mk (c :: rest) (place + count)).skip taken =
        ((Lexer.mk (c :: rest) place).skip taken).shift count := by
      intro taken
      simp only [skip, shift, Nat.add_right_comm]
    simp only [shift]
    cases hread : Lexeme.read c rest with
    | mk result taken =>
      cases result with
      | ok resolved =>
        simp only [hskip]
        rfl
      | error fault =>
        simp only [hskip, (Lexeme.faulty_of_read hread).fault_shift]
        rfl

/-- The tokens are found further on in the same way. -/
theorem tokens_shift (lexer : Lexer) (count : Nat) (most : Nat) :
    (lexer.shift count).tokens most =
      ((lexer.tokens most).map (List.map (Token.shift count))).mapError (LexError.shift count) := by
  induction most generalizing lexer with
  | zero => rfl
  | succ most ih =>
    unfold tokens
    rw [next_shift]
    cases hnext : lexer.next with
    | mk result behind =>
      cases result with
      | error e => rfl
      | ok token =>
        show (if token.kind = .eof then _ else ((behind.shift count).tokens most).map _) = _
        rw [ih]
        simp only
        split
        · rfl
        · cases behind.tokens most <;> rfl

/-- A token other than the end is made of characters. -/
theorem length_rest_lt {token : Token} (h : lexer.next = (.ok token, behind))
    (hkind : token.kind ≠ .eof) : behind.rest.length < lexer.rest.length := by
  have hblanks : lexer.skipBlanks.rest.length ≤ lexer.rest.length := by
    rw [skipBlanks, skip, List.length_drop]
    exact Nat.sub_le _ _
  unfold Lexer.next at h
  cases hrest : lexer.skipBlanks.rest with
  | nil =>
    simp only [hrest] at h
    cases h
    exact absurd rfl hkind
  | cons c rest =>
    simp only [hrest] at h
    cases hread : Lexeme.read c rest with
    | mk result taken =>
      simp only [hread] at h
      cases result with
      | error fault => cases h
      | ok resolved =>
        obtain ⟨lexeme, tail, hsource, rfl, hspells, -⟩ := Lexeme.takes_of_read hread
        cases h
        have hpos := List.length_pos_iff.mpr hspells.ne_nil
        have hlength := congrArg List.length (hrest.trans hsource)
        rw [List.length_append] at hlength
        rw [skip, List.length_drop]
        omega

/-- No more tokens are read than there are characters, apart from the end. -/
theorem tokens_eq_of_lt (h : lexer.rest.length < count) (h' : lexer.rest.length < count') :
    lexer.tokens count = lexer.tokens count' := by
  induction count generalizing lexer count' with
  | zero => exact absurd h (Nat.not_lt_zero _)
  | succ count ih =>
    obtain ⟨count', rfl⟩ := Nat.exists_eq_add_one.mpr (Nat.zero_lt_of_lt h')
    unfold tokens
    cases hnext : lexer.next with
    | mk result behind =>
      cases result with
      | error e => rfl
      | ok token =>
        by_cases hkind : token.kind = .eof
        · simp only [if_pos hkind]
        · have hless := length_rest_lt hnext hkind
          have hsame : behind.tokens count = behind.tokens count' := ih (by omega) (by omega)
          simp only [if_neg hkind, hsame]

/-! ## Blanks in front -/

/-- Blanks in front only move the place of the answer. -/
theorem next_blanks {blanks rest : List Char} (h : ∀ c ∈ blanks, Text.isBlank c = true)
    (place : Nat) : (Lexer.mk (blanks ++ rest) place).next =
      (Lexer.mk rest (place + blanks.length)).next := by
  have hskip : (Lexer.mk (blanks ++ rest) place).skipBlanks =
      (Lexer.mk rest (place + blanks.length)).skipBlanks := by
    simp only [skipBlanks, skip, List.takeWhile_append_of_pos h, List.length_append,
      List.drop_length_add_append, Nat.add_assoc]
  unfold next
  rw [hskip]

/-- Lexers with the same answer have the same tokens. -/
theorem tokens_congr {other : Lexer} (h : lexer.next = other.next) (most : Nat) :
    lexer.tokens most = other.tokens most := by
  cases most with
  | zero => rfl
  | succ most =>
    unfold tokens
    rw [h]

end Lexer

/-! ## Pieces of the first source -/

namespace Lexeme

/-- What a lexeme ends in front of may be longer, if it goes on with a blank. -/
theorem Ends.append {kind : TokenKind} {lexeme rest more : List Char} (h : Ends kind lexeme rest)
    (hmore : ∀ c ∈ more.head?, Text.isBlank c = true) : Ends kind lexeme (rest ++ more) := by
  have hdigit : Stops Text.isDigit more :=
    fun c hc => Text.isDigit_eq_false_of_isBlank (hmore c hc)
  cases rest with
  | nil => exact ends_of_isBlank hmore
  | cons c rest => exact h.of_cons fun hrest => hrest.append hdigit

end Lexeme

variable {source more : List Char}

/-- A piece still fits if something is appended that starts with a blank. -/
theorem Piece.Fits.append {piece : Piece} (h : piece.Fits source)
    (hmore : ∀ c ∈ more.head?, Text.isBlank c = true) : piece.Fits (source ++ more) := by
  have hstop := h.stop_le
  have hstart := h.start_lt_stop
  refine ⟨h.spelled, ?_, ?_⟩
  · rw [List.drop_append_of_le_length (by omega)]
    exact h.placed.trans (List.prefix_append _ _)
  · rw [List.drop_append_of_le_length hstop]
    exact h.maximal.append hmore

/-- What is blank in a source is so in a longer one. -/
theorem BlankBetween.append {place stop : Nat} (h : BlankBetween source place stop)
    (hstop : stop ≤ source.length) : BlankBetween (source ++ more) place stop := by
  intro i c hi hi' hc
  rw [List.getElem?_append_left (by omega)] at hc
  exact h i c hi hi' hc

/-- The lexer reads the pieces of a source also where the source goes on, and then what follows. -/
theorem Segmentation.tokens_append (hmore : ∀ c ∈ more.head?, Text.isBlank c = true) {place : Nat}
    {pieces : List Piece} (h : Segmentation source place pieces) (hplace : place ≤ source.length)
    (most : Nat) :
    (Lexer.atPlace (source ++ more) place).tokens (pieces.length + most) =
      ((Lexer.mk more source.length).tokens most).map (pieces.map Piece.token ++ ·) := by
  induction pieces generalizing place with
  | nil =>
    obtain ⟨blanks, hblanks, hdrop⟩ :=
      (segmentation_nil_iff.mp h).exists_blanks hplace (Nat.le_refl _)
    rw [List.drop_length, List.append_nil] at hdrop
    have hlength : place + blanks.length = source.length := by
      rw [← hdrop, List.length_drop]
      omega
    have hnext : (Lexer.atPlace (source ++ more) place).next = (Lexer.mk more source.length).next := by
      rw [Lexer.atPlace, List.drop_append_of_le_length hplace, hdrop, Lexer.next_blanks hblanks,
        hlength]
    rw [List.length_nil, Nat.zero_add, Lexer.tokens_congr hnext]
    cases (Lexer.mk more source.length).tokens most <;> rfl
  | cons piece pieces ih =>
    obtain ⟨hle, hblank, hfits, hrest⟩ := segmentation_cons_iff.mp h
    have hstart : piece.start ≤ source.length :=
      Nat.le_trans (Nat.le_of_lt hfits.start_lt_stop) hfits.stop_le
    have hnext := Lexer.next_of_fits hle (hblank.append hstart) (hfits.append hmore)
    rw [List.length_cons, Nat.add_right_comm, Lexer.tokens, hnext]
    simp only [if_neg hfits.spelled.kind_ne_eof, ih hrest hfits.stop_le]
    cases (Lexer.mk more source.length).tokens most <;> rfl

/-! ## The whole -/

/-- The answer for two sources with blanks between them, from the answers for each of them. -/
theorem tokenize_append_eq {first blanks second : String} {pieces : List Piece}
    (h : Segmentation first.toList 0 pieces) (hne : blanks ≠ "")
    (hblanks : ∀ c ∈ blanks.toList, Text.isBlank c = true) :
    tokenize (first ++ blanks ++ second) =
      (((tokenize second).map (List.map (Token.shift (first ++ blanks).length))).mapError
        (LexError.shift (first ++ blanks).length)).map (pieces.map Piece.token ++ ·) := by
  have hmore : ∀ c ∈ (blanks.toList ++ second.toList).head?, Text.isBlank c = true := by
    obtain ⟨c, rest, hcons⟩ := List.exists_cons_of_ne_nil (mt String.toList_eq_nil_iff.mp hne)
    rw [hcons]
    rintro d ⟨⟩
    exact hblanks c (hcons ▸ List.mem_cons_self)
  have hown : second.toList.length < second.length + 1 := by
    rw [String.length_toList]
    exact Nat.lt_succ_self _
  have hlength : second.toList.length < (first ++ blanks ++ second).length + 1 := by
    rw [String.length_append, String.length_toList]
    omega
  have hwhole : (Lexer.ofString (first ++ blanks ++ second)).rest.length <
      (first ++ blanks ++ second).length + 1 := by
    rw [Lexer.ofString, String.length_toList]
    exact Nat.lt_succ_self _
  have hplace : first.toList.length + blanks.toList.length = (first ++ blanks).length := by
    rw [String.length_append, String.length_toList, String.length_toList]
  have hsplit : Lexer.ofString (first ++ blanks ++ second) =
      .atPlace (first.toList ++ (blanks.toList ++ second.toList)) 0 := by
    rw [Lexer.ofString, String.toList_append, String.toList_append, List.append_assoc]
    rfl
  -- the second source stands behind the blanks, and with more tokens to read than by itself
  have hsecond : (Lexer.mk (blanks.toList ++ second.toList) first.toList.length).tokens
      ((first ++ blanks ++ second).length + 1) =
        (((tokenize second).map (List.map (Token.shift (first ++ blanks).length))).mapError
          (LexError.shift (first ++ blanks).length)) := by
    rw [Lexer.tokens_congr (Lexer.next_blanks hblanks _), hplace, tokenize,
      @Lexer.tokens_eq_of_lt (Lexer.ofString second) (second.length + 1)
        ((first ++ blanks ++ second).length + 1) hown hlength,
      ← Lexer.tokens_shift]
    simp only [Lexer.shift, Lexer.ofString, Nat.zero_add]
  rw [← hsecond, ← h.tokens_append hmore (Nat.zero_le _), ← hsplit, tokenize]
  exact Lexer.tokens_eq_of_lt hwhole (Nat.lt_of_lt_of_le hwhole (Nat.le_add_left _ _))

/-- Blanks between two sources keep them apart. If the first one is made of tokens, the whole is made
of tokens exactly if the second one is: those of the first without its end, then those of the second
one as far on as it stands. And the whole is wrong exactly if the second one is, in the same way and
as far on. -/
theorem tokenize_append {first blanks second : String} {tokens : List Token}
    (hfirst : tokenize first = .ok tokens) (hne : blanks ≠ "")
    (hblanks : ∀ c ∈ blanks.toList, Text.isBlank c = true) :
    ∃ front, tokens = front ++ [Token.eof first.length] ∧ (∀ token ∈ front, token.kind ≠ .eof) ∧
      (∀ all, tokenize (first ++ blanks ++ second) = .ok all ↔
        ∃ back, tokenize second = .ok back ∧
          all = front ++ back.map (Token.shift (first ++ blanks).length)) ∧
      ∀ e, tokenize (first ++ blanks ++ second) = .error e ↔
        ∃ fault, tokenize second = .error fault ∧ e = fault.shift (first ++ blanks).length := by
  obtain ⟨pieces, hpieces, rfl⟩ := tokenize_iff_segmentation.mp hfirst
  have hkind : ∀ token ∈ pieces.map Piece.token, token.kind ≠ .eof := by
    intro token htoken
    obtain ⟨piece, hpiece, rfl⟩ := List.mem_map.mp htoken
    exact (hpieces.fits piece hpiece).spelled.kind_ne_eof
  refine ⟨pieces.map Piece.token, by rw [String.length_toList], hkind, ?_, ?_⟩
  all_goals
    rw [tokenize_append_eq hpieces hne hblanks]
    cases tokenize second with
    | ok back => simp [Except.map, Except.mapError, eq_comm]
    | error fault => simp [Except.map, Except.mapError, eq_comm]

/-- The sign that ends the first source and the one that starts the second would make up one sign if
they were not kept apart. -/
theorem tokenize_append_signs :
    tokenize "a<" = .ok [⟨.identifier, "a", 0⟩, ⟨.operator, "<", 1⟩, .eof 2] ∧
      "\u3000\n" ≠ "" ∧ (∀ c ∈ "\u3000\n".toList, Text.isBlank c = true) ∧
      tokenize "=#x" = .error (.unterminatedDate 1) ∧
      tokenize ("a<" ++ "\u3000\n" ++ "=.5") = .ok [⟨.identifier, "a", 0⟩, ⟨.operator, "<", 1⟩,
        ⟨.operator, "=", 4⟩, ⟨.decimalNumber, "0.5", 5⟩, .eof 7] ∧
      tokenize ("a<" ++ "\u3000\n" ++ "=#x") = .error (.unterminatedDate 5) := by
  have hfirst : tokenize "a<" = .ok [⟨.identifier, "a", 0⟩, ⟨.operator, "<", 1⟩, .eof 2] := by
    decide +kernel
  have hright : tokenize "=.5" = .ok [⟨.operator, "=", 0⟩, ⟨.decimalNumber, "0.5", 1⟩, .eof 3] := by
    decide +kernel
  have hwrong : tokenize "=#x" = .error (.unterminatedDate 1) := by decide +kernel
  have hne : "\u3000\n" ≠ "" := by decide
  have hall : "\u3000\n".toList.all Text.isBlank = true := by decide +kernel
  have hblanks : ∀ c ∈ "\u3000\n".toList, Text.isBlank c = true := List.all_eq_true.mp hall
  obtain ⟨front, hfront, -, hok, -⟩ := @tokenize_append _ _ "=.5" _ hfirst hne hblanks
  obtain ⟨_, -, -, -, herror⟩ := @tokenize_append _ _ "=#x" _ hfirst hne hblanks
  have hcancel : [⟨.identifier, "a", 0⟩, ⟨.operator, "<", 1⟩] ++ [Token.eof 2] =
      front ++ [Token.eof 2] := hfront
  obtain rfl := List.append_cancel_right hcancel
  exact ⟨hfirst, hne, hblanks, hwrong, (hok _).mpr ⟨_, hright, rfl⟩, (herror _).mpr ⟨_, hwrong, rfl⟩⟩

end Formula
