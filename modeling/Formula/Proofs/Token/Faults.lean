import Formula.Proofs.Number.Text
import Formula.Proofs.Token.Words

/-!
# Where the lexer fails

An error of the lexer has a place and is about the characters that stand there
(`LexError.culprit`). `LexError.Explains` says that it points at what is wrong: the source splits
into lexemes up to that place, and from there on no lexeme can be found. Every error of the lexer
does so (`explains_of_tokenize`).

The run up to an error is an induction on the number of tokens, as it is for a run that succeeds. A
piece that fits into a source fits into every part of it that has the whole piece
(`Piece.Fits.take`), because a lexeme never ends later where less follows it.

`Lexeme.Faulty` has what can be wrong with a text, one case for each error, and `faulty_of_read` says
that there is nothing else; what holds of every error is then one case each (`Faulty.blames`).

The text of a number that starts with its point is not the one in the source, as it gets a zero in
front. Such a number is never wrong (`Decimal.isSome_read?_fraction`).
-/

namespace Formula

/-! ## Errors and places -/

namespace LexError

/-- The place that an error is about. -/
def position : LexError → Nat
  | unterminatedString position | unterminatedDate position | unterminatedReference position
  | invalidDate _ position | invalidNumber _ position | unexpectedCharacter _ position => position

/-- The characters that an error is about: what opens a literal that does not end, a whole literal
that is not valid, or a character that starts nothing. -/
def culprit : LexError → List Char
  | unterminatedString _ => ['\'']
  | unterminatedDate _ => ['#']
  | unterminatedReference _ => ['[']
  | invalidDate text _ => '#' :: (text.toList ++ ['#'])
  | invalidNumber text _ => text.toList
  | unexpectedCharacter char _ => [char]

/-- Whether an error says what is wrong with a source. -/
structure Explains (source : List Char) (e : LexError) : Prop where
  /-- In front of the place of the error there are lexemes and blanks. -/
  before : ∃ pieces, Segmentation (source.take e.position) 0 pieces
  /-- At the place stands what the error is about. -/
  culprit_prefix : e.culprit <+: source.drop e.position
  /-- It does not begin with a blank. -/
  notBlank : ∃ c, source[e.position]? = some c ∧ Text.isBlank c = false
  /-- No lexeme begins there. -/
  stuck : ∀ piece : Piece, piece.Fits source → piece.start ≠ e.position

end LexError

/-! ## One lexeme -/

namespace Lexeme

/-- Whether what is found wrong in a text is about its first characters, wherever it stands. -/
def Blames (text : List Char) (fault : Nat → LexError) : Prop :=
  ∀ place, (fault place).position = place ∧ (fault place).culprit <+: text

/-- What can be wrong at the start of a text, as an error that depends on the place of the text, and
how many characters the error takes up: all of them if a literal does not end, those of a literal
that is not valid, and none if the first character starts nothing. -/
inductive Faulty (text : List Char) : (fault : Nat → LexError) → (taken : Nat) → Prop where
  | unterminatedString {rest : List Char} (h : text = '\'' :: rest) :
      Faulty text .unterminatedString text.length
  | unterminatedDate {rest : List Char} (h : text = '#' :: rest) :
      Faulty text .unterminatedDate text.length
  | unterminatedReference {rest : List Char} (h : text = '[' :: rest) :
      Faulty text .unterminatedReference text.length
  | invalidDate {date rest : List Char} (h : text = '#' :: (date ++ '#' :: rest)) :
      Faulty text (.invalidDate (String.ofList date)) (date.length + 2)
  | invalidNumber {digits rest : List Char} (h : text = digits ++ rest) (hne : digits ≠ []) :
      Faulty text (.invalidNumber (String.ofList digits)) digits.length
  | unexpectedCharacter {c : Char} {rest : List Char} (h : text = c :: rest) :
      Faulty text (.unexpectedCharacter c) 0

section Readers

variable {c : Char} {rest : List Char} {fault : Nat → LexError} {taken : Nat}

/-- What the reader of strings finds wrong is wrong. -/
theorem faulty_of_readString (h : readString rest = (.error fault, taken)) :
    Faulty ('\'' :: rest) fault taken := by
  unfold readString at h
  split at h
  · exact nomatch h
  · cases h
    exact .unterminatedString rfl

/-- So is what the reader of dates finds wrong. -/
theorem faulty_of_readDate (h : readDate rest = (.error fault, taken)) :
    Faulty ('#' :: rest) fault taken := by
  unfold readDate at h
  split at h
  · rename_i text hdelimited
    obtain ⟨-, tail, rfl⟩ := delimited?_eq_some_iff.mp hdelimited
    split at h
    · exact nomatch h
    · cases h
      exact .invalidDate rfl
  · cases h
    exact .unterminatedDate rfl

/-- So is what the reader of references finds wrong. -/
theorem faulty_of_readReference (h : readReference rest = (.error fault, taken)) :
    Faulty ('[' :: rest) fault taken := by
  unfold readReference at h
  split at h
  · exact nomatch h
  · cases h
    exact .unterminatedReference rfl

/-- So is what the reader of numbers finds wrong. -/
theorem faulty_of_readNumber (hstart : startsNumber c rest = true)
    (h : readNumber (c :: rest) = (.error fault, taken)) : Faulty (c :: rest) fault taken := by
  rcases digits_split (c :: rest) with ⟨whole, places, tail, hsource, hwhole, hne, hplaces, htail⟩ |
    ⟨digits, tail, hsource, hdigits, htail, hpoint⟩
  · rw [hsource, readNumber_of_point hwhole hne hplaces htail] at h
    split at h
    · exact nomatch h
    · rename_i hinvalid
      cases h
      have hleading : leading whole = whole := by
        -- with a zero in front the number would be valid
        refine if_neg fun hnil => hinvalid ?_
        rw [hnil]
        exact Decimal.isSome_read?_fraction hplaces
      have hdigits : c :: rest = (whole ++ '.' :: places) ++ tail := by
        rw [hsource, List.append_assoc, List.cons_append]
      rw [hleading]
      exact .invalidNumber hdigits (List.append_ne_nil_of_right_ne_nil _ (List.cons_ne_nil _ _))
  · have hne := ne_nil_of_startsNumber hstart hsource htail hpoint
    rw [hsource, readNumber_of_whole hne hdigits htail hpoint] at h
    split at h
    · exact nomatch h
    · cases h
      exact .invalidNumber hsource hne

/-- So is a character that the reader of signs does not know. -/
theorem faulty_of_readSign (h : readSign c (c :: rest) = (.error fault, taken)) :
    Faulty (c :: rest) fault taken := by
  unfold readSign at h
  split at h
  · exact nomatch h
  · cases h
    exact .unexpectedCharacter rfl

/-- Nothing else goes wrong in reading a lexeme. -/
theorem faulty_of_read (h : read c rest = (.error fault, taken)) :
    Faulty (c :: rest) fault taken := by
  unfold read at h
  split_ifs at h with _ _ _ hquote hhash hbracket hnumber hname
  · exact nomatch h
  · exact nomatch h
  · exact nomatch h
  · subst hquote; exact faulty_of_readString h
  · subst hhash; exact faulty_of_readDate h
  · subst hbracket; exact faulty_of_readReference h
  · exact faulty_of_readNumber hnumber h
  · exact nomatch h
  · exact faulty_of_readSign h

end Readers

variable {text : List Char} {fault : Nat → LexError} {taken : Nat}

/-- Whatever is wrong is about the characters at the start of the text. -/
theorem Faulty.blames (h : Faulty text fault taken) : Blames text fault := by
  intro place
  cases h with
  | unterminatedString h | unterminatedDate h | unterminatedReference h | unexpectedCharacter h =>
    exact ⟨rfl, _, h.symm⟩
  | @invalidDate date rest h =>
    refine ⟨rfl, rest, ?_⟩
    rw [LexError.culprit, String.toList_ofList, h]
    simp
  | @invalidNumber digits rest h =>
    refine ⟨rfl, rest, ?_⟩
    rw [LexError.culprit, String.toList_ofList]
    exact h.symm

/-- An error takes up no more than there is. -/
theorem Faulty.taken_le (h : Faulty text fault taken) : taken ≤ text.length := by
  cases h with
  | unterminatedString | unterminatedDate | unterminatedReference => exact Nat.le_refl _
  | invalidDate h =>
    rw [h, List.length_cons, List.length_append, List.length_cons]
    omega
  | invalidNumber h =>
    rw [h, List.length_append]
    exact Nat.le_add_right _ _
  | unexpectedCharacter => exact Nat.zero_le _

end Lexeme

/-! ## Parts of a source -/

/-- A run that stops in front of a text stops in front of any part of it. -/
theorem Stops.take {p : Char → Bool} {rest : List Char} (h : Stops p rest) (n : Nat) :
    Stops p (rest.take n) := by
  cases rest with
  | nil =>
    rw [List.take_nil]
    exact stops_nil p
  | cons c rest =>
    cases n with
    | zero => exact stops_nil p
    | succ n => exact stops_cons.mpr (stops_cons.mp h)

/-- A lexeme ends where it did if less follows it. -/
theorem Lexeme.Ends.take {kind : TokenKind} {lexeme rest : List Char} (h : Ends kind lexeme rest)
    (n : Nat) : Ends kind lexeme (rest.take n) := by
  cases rest with
  | nil =>
    rw [List.take_nil]
    exact h
  | cons c rest =>
    cases n with
    | zero => exact ends_of_isBlank nofun
    | succ n => exact h.of_cons fun hdigit => hdigit.take n

section Parts

variable {source : List Char} {place stop : Nat}

/-- A piece fits into every part of the source that has the whole of it. -/
theorem Piece.Fits.take {piece : Piece} (h : piece.Fits source) (hstop : piece.stop ≤ stop) :
    piece.Fits (source.take stop) := by
  have hlength : piece.start + piece.lexeme.length ≤ stop := hstop
  refine ⟨h.spelled, ?_, ?_⟩
  · rw [List.drop_take, List.prefix_take_iff]
    exact ⟨h.placed, by omega⟩
  · rw [List.drop_take]
    exact h.maximal.take _

/-- What is blank in a source is so in any part of it. -/
theorem BlankBetween.take (h : BlankBetween source place stop) (n : Nat) :
    BlankBetween (source.take n) place stop := by
  intro i c hplace hi hc
  rw [List.getElem?_take] at hc
  split at hc
  · exact h i c hplace hi hc
  · exact nomatch hc

/-! ## The run up to an error -/

/-- What the lexer finds wrong is wrong with the characters behind the blanks. -/
theorem Lexer.fault_of_next (hplace : place ≤ source.length) {e : LexError} {lexer : Lexer}
    (h : (Lexer.atPlace source place).next = (.error e, lexer)) :
    ∃ stop c rest fault taken, place ≤ stop ∧ BlankBetween source place stop ∧
      source.drop stop = c :: rest ∧ Text.isBlank c = false ∧
      Lexeme.read c rest = (.error fault, taken) ∧ e = fault stop ∧
      lexer = .atPlace source (stop + taken) := by
  obtain ⟨stop, hle, hlength, hblank, hend⟩ := exists_blankBetween hplace
  unfold Lexer.next at h
  simp only [Lexer.skipBlanks_atPlace hle hlength hblank hend] at h
  cases hrest : source.drop stop with
  | nil =>
    rw [show (Lexer.atPlace source stop).rest = [] from hrest] at h
    exact nomatch h
  | cons c rest =>
    rw [show (Lexer.atPlace source stop).rest = c :: rest from hrest] at h
    cases hread : Lexeme.read c rest with
    | mk result taken =>
      simp only [hread] at h
      cases result with
      | ok lexeme => exact nomatch h
      | error fault =>
        cases h
        exact ⟨stop, c, rest, fault, taken, hle, hblank, hrest, stops_cons.mp (hrest ▸ hend), hread,
          rfl, skip_atPlace source stop taken⟩

/-- Up to an error the lexer finds a segmentation. -/
theorem Lexer.fault_of_tokens {count : Nat} {e : LexError} (hplace : place ≤ source.length)
    (hcount : source.length < place + count)
    (h : (Lexer.atPlace source place).tokens count = .error e) :
    ∃ stop c rest fault taken pieces, place ≤ stop ∧ Segmentation (source.take stop) place pieces ∧
      source.drop stop = c :: rest ∧ Text.isBlank c = false ∧
      Lexeme.read c rest = (.error fault, taken) ∧ e = fault stop := by
  induction count generalizing place with
  | zero => omega
  | succ count ih =>
    unfold Lexer.tokens at h
    cases hnext : (Lexer.atPlace source place).next with
    | mk result lexer =>
      rw [hnext] at h
      cases result with
      | error e' =>
        cases h
        obtain ⟨stop, c, rest, fault, taken, hle, hblank, hdrop, hc, hread, rfl, -⟩ :=
          fault_of_next hplace hnext
        refine ⟨stop, c, rest, fault, taken, [], hle, segmentation_nil_iff.mpr ?_, hdrop, hc, hread,
          rfl⟩
        intro i d hi hi' hd
        refine hblank.take stop i d hi ?_ hd
        rw [List.length_take] at hi'
        omega
      | ok token =>
        rcases fits_of_next hplace hnext with ⟨rfl, -⟩ | ⟨piece, rfl, hle, hblank, hfits, rfl⟩
        · cases h
        · have hstart := hfits.start_lt_stop
          simp only [if_neg hfits.spelled.kind_ne_eof] at h
          cases hrest : (Lexer.atPlace source piece.stop).tokens count with
          | ok tokens =>
            rw [hrest] at h
            cases h
          | error e' =>
            rw [hrest] at h
            cases h
            obtain ⟨stop, c, rest, fault, taken, pieces, hstop, hpieces, hfault⟩ :=
              ih hfits.stop_le (by omega) hrest
            exact ⟨stop, c, rest, fault, taken, piece :: pieces, by omega,
              segmentation_cons_iff.mpr ⟨hle, hblank.take stop, hfits.take hstop, hpieces⟩, hfault⟩

/-- Where something is wrong no lexeme begins. -/
theorem Piece.Fits.start_ne_of_read {piece : Piece} (h : piece.Fits source) {c : Char}
    {rest : List Char} {fault : Nat → LexError} {taken : Nat} (hdrop : source.drop place = c :: rest)
    (hread : Lexeme.read c rest = (.error fault, taken)) : piece.start ≠ place := by
  rintro rfl
  obtain ⟨c', rest', htail, -, hread'⟩ := Lexeme.read_of_spells h.spelled h.maximal
  rw [← h.drop_start, hdrop] at htail
  cases htail
  cases hread.symm.trans hread'

end Parts

/-- Every error of the lexer says what is wrong with the source. -/
theorem explains_of_tokenize {source : String} {e : LexError} (h : tokenize source = .error e) :
    e.Explains source.toList := by
  have hcount : source.toList.length < 0 + (source.length + 1) := by
    rw [String.length_toList]
    omega
  obtain ⟨stop, c, rest, fault, taken, pieces, -, hpieces, hdrop, hblank, hread, rfl⟩ :=
    Lexer.fault_of_tokens (Nat.zero_le _) hcount h
  obtain ⟨hposition, hculprit⟩ := (Lexeme.faulty_of_read hread).blames stop
  have hfirst : source.toList[stop]? = some c := by
    rw [← List.head?_drop, hdrop]
    rfl
  refine ⟨⟨pieces, ?_⟩, ?_, ⟨c, ?_, hblank⟩, fun piece hpiece => ?_⟩
  · rw [hposition]
    exact hpieces
  · rw [hposition, hdrop]
    exact hculprit
  · rw [hposition]
    exact hfirst
  · rw [hposition]
    exact hpiece.start_ne_of_read hdrop hread

end Formula
