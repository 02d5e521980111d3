import Formula.Proofs.Token.Lexeme
import Mathlib.Data.Set.Subsingleton

/-!
# Tokens as a segmentation of the source

A `Piece` is a token together with the characters that it was read from. A list of pieces is a
`Segmentation` of a source if every piece is a lexeme of its token, stands where the token says and
cannot be made longer, if the pieces follow each other without overlapping, and if all that lies
between them is blank.

`tokenize_eq_ok_iff` says that the lexer finds exactly the segmentations: its tokens are those of a
segmentation with the token of the end behind them, every segmentation is found, and no source has
two.

## Shape of the proof

The lexer in front of the character at `place` is `Lexer.atPlace source place`, so one source stays
fixed for the whole run. `next_of_fits` reads one piece and `fits_of_next` gives the piece that was
read; `segmentation_cons_iff` takes the first piece off a segmentation. The run is then an induction
on the number of tokens.
-/

namespace Formula

/-- A token and the characters that it was read from. -/
structure Piece where
  token : Token
  lexeme : List Char

namespace Piece

/-- The place of the first character. -/
def start (piece : Piece) : Nat := piece.token.position

/-- The place behind the last character. -/
def stop (piece : Piece) : Nat := piece.token.position + piece.lexeme.length

/-- Whether a piece stands in a source: its characters are there, they are a lexeme of its token, and
the lexeme is as long as it can be. -/
structure Fits (source : List Char) (piece : Piece) : Prop where
  spelled : Lexeme.Spells piece.token.kind piece.token.text.toList piece.lexeme
  placed : piece.lexeme <+: source.drop piece.start
  maximal : Lexeme.Ends piece.token.kind piece.lexeme (source.drop piece.stop)

end Piece

/-- Whether pieces split up a source from the character at `place` on, with blanks between them. -/
structure Segmentation (source : List Char) (place : Nat) (pieces : List Piece) : Prop where
  fits : ∀ piece ∈ pieces, piece.Fits source
  behind : ∀ piece ∈ pieces, place ≤ piece.start
  ordered : pieces.Pairwise fun first second =>
    first.start < second.start ∧ first.stop ≤ second.start
  blank : ∀ i c, place ≤ i → source[i]? = some c →
    (∀ piece ∈ pieces, ¬ (piece.start ≤ i ∧ i < piece.stop)) → Text.isBlank c = true

/-! ## Pieces -/

/-- A piece is not empty. -/
theorem Piece.Fits.start_lt_stop {source : List Char} {piece : Piece} (h : piece.Fits source) :
    piece.start < piece.stop := by
  have := List.length_pos_iff.mpr h.spelled.ne_nil
  simp only [Piece.start, Piece.stop]
  omega

/-- A piece ends within the source. -/
theorem Piece.Fits.stop_le {source : List Char} {piece : Piece} (h : piece.Fits source) :
    piece.stop ≤ source.length := by
  have hlength := h.placed.length_le
  have hpos := List.length_pos_iff.mpr h.spelled.ne_nil
  rw [List.length_drop] at hlength
  simp only [Piece.start, Piece.stop] at hlength ⊢
  omega

/-- The source from a piece on is its lexeme and what follows it. -/
theorem Piece.Fits.drop_start {source : List Char} {piece : Piece} (h : piece.Fits source) :
    source.drop piece.start = piece.lexeme ++ source.drop piece.stop := by
  obtain ⟨rest, hrest⟩ := h.placed
  have hstop : source.drop piece.stop = (source.drop piece.start).drop piece.lexeme.length := by
    rw [List.drop_drop]
    rfl
  rw [hstop, ← hrest, List.drop_left]

/-- A piece is determined by its token and its end. -/
theorem Piece.Fits.eq_of_token_eq {source : List Char} {first second : Piece}
    (hfirst : first.Fits source) (hsecond : second.Fits source)
    (htoken : first.token = second.token) (hstop : first.stop = second.stop) : first = second := by
  have hstart : first.start = second.start := congrArg Token.position htoken
  have hlexeme : first.lexeme = second.lexeme := by
    have hdrop := hfirst.drop_start
    rw [hstart, hstop, hsecond.drop_start] at hdrop
    exact (List.append_cancel_right hdrop).symm
  cases first
  cases second
  cases htoken
  cases hlexeme
  rfl

/-! ## Segmentations -/

/-- Whether the source is blank from one place up to another. -/
def BlankBetween (source : List Char) (place stop : Nat) : Prop :=
  ∀ i c, place ≤ i → i < stop → source[i]? = some c → Text.isBlank c = true

/-- What stands between two places of a source is a run of blanks. -/
theorem BlankBetween.exists_blanks {source : List Char} {place stop : Nat}
    (h : BlankBetween source place stop) (hplace : place ≤ stop) (hstop : stop ≤ source.length) :
    ∃ blanks, (∀ c ∈ blanks, Text.isBlank c = true) ∧
      source.drop place = blanks ++ source.drop stop := by
  refine ⟨(source.drop place).take (stop - place), fun c hc => ?_, ?_⟩
  · obtain ⟨i, hi, rfl⟩ := List.mem_iff_getElem.mp hc
    rw [List.length_take, List.length_drop] at hi
    refine h (place + i) _ (Nat.le_add_right _ _) (by omega) ?_
    rw [List.getElem_take, List.getElem_drop, List.getElem?_eq_getElem]
  · have hsplit := (List.take_append_drop (stop - place) (source.drop place)).symm
    rwa [List.drop_drop, Nat.add_sub_cancel' hplace] at hsplit

/-- Without pieces there are only blanks. -/
theorem segmentation_nil_iff {source : List Char} {place : Nat} :
    Segmentation source place [] ↔ BlankBetween source place source.length := by
  constructor
  · intro h i c hplace _ hc
    exact h.blank i c hplace hc nofun
  · intro h
    refine ⟨nofun, nofun, .nil, fun i c hplace hc _ => h i c hplace ?_ hc⟩
    exact (List.getElem?_eq_some_iff.mp hc).1

/-- A segmentation starts with blanks and a piece that fits, and goes on behind it. -/
theorem segmentation_cons_iff {source : List Char} {place : Nat} {piece : Piece}
    {pieces : List Piece} :
    Segmentation source place (piece :: pieces) ↔
      place ≤ piece.start ∧ BlankBetween source place piece.start ∧ piece.Fits source ∧
        Segmentation source piece.stop pieces := by
  constructor
  · intro h
    have hfits := h.fits piece List.mem_cons_self
    have hordered := List.pairwise_cons.mp h.ordered
    refine ⟨h.behind piece List.mem_cons_self, ?_, hfits, ?_⟩
    · intro i c hplace hi hc
      refine h.blank i c hplace hc (List.forall_mem_cons.mpr ⟨by omega, fun other hother => ?_⟩)
      have := (hordered.1 other hother).1
      omega
    · refine ⟨fun other hother => h.fits other (List.mem_cons_of_mem _ hother),
        fun other hother => (hordered.1 other hother).2, hordered.2, ?_⟩
      intro i c hplace hc hother
      have hstop := hfits.start_lt_stop
      have hstart := h.behind piece List.mem_cons_self
      exact h.blank i c (by omega) hc (List.forall_mem_cons.mpr ⟨by omega, hother⟩)
  · rintro ⟨hplace, hblank, hfits, hrest⟩
    have hstop := hfits.start_lt_stop
    refine ⟨List.forall_mem_cons.mpr ⟨hfits, hrest.fits⟩,
      List.forall_mem_cons.mpr ⟨hplace, fun other hother => ?_⟩,
      List.pairwise_cons.mpr ⟨fun other hother => ⟨?_, hrest.behind other hother⟩, hrest.ordered⟩, ?_⟩
    · have := hrest.behind other hother
      omega
    · have := hrest.behind other hother
      omega
    · intro i c hi hc hother
      obtain ⟨hpiece, hother⟩ := List.forall_mem_cons.mp hother
      -- outside of the first piece a place is before it or behind it
      by_cases hbefore : i < piece.start
      · exact hblank i c hi hbefore hc
      · exact hrest.blank i c (by omega) hc hother

/-! ## One token -/

/-- The lexer in front of the character at a place of a source. -/
def Lexer.atPlace (source : List Char) (place : Nat) : Lexer := ⟨source.drop place, place⟩

/-- Skipping characters moves the place by as many. -/
theorem Lexer.skip_atPlace (source : List Char) (place count : Nat) :
    (Lexer.atPlace source place).skip count = .atPlace source (place + count) := by
  simp only [Lexer.skip, Lexer.atPlace, List.drop_drop]

/-- Blanks are skipped up to the next place that holds none. -/
theorem Lexer.skipBlanks_atPlace {source : List Char} {place stop : Nat} (hplace : place ≤ stop)
    (hstop : stop ≤ source.length) (hblank : BlankBetween source place stop)
    (hend : Stops Text.isBlank (source.drop stop)) :
    (Lexer.atPlace source place).skipBlanks = .atPlace source stop := by
  obtain ⟨blanks, hrun, hdrop⟩ := hblank.exists_blanks hplace hstop
  have hlength : place + blanks.length = stop := by
    have hlengths := congrArg List.length hdrop
    rw [List.length_append, List.length_drop, List.length_drop] at hlengths
    omega
  unfold Lexer.skipBlanks
  rw [show (Lexer.atPlace source place).rest = _ from hdrop, takeWhile_append_of_stops hrun hend,
    Lexer.skip_atPlace, hlength]

/-- A piece that fits is what the lexer reads next, if only blanks stand before it. -/
theorem Lexer.next_of_fits {source : List Char} {place : Nat} {piece : Piece}
    (hplace : place ≤ piece.start) (hblank : BlankBetween source place piece.start)
    (hfits : piece.Fits source) :
    (Lexer.atPlace source place).next = (.ok piece.token, .atPlace source piece.stop) := by
  obtain ⟨c, tail, htail, hc, hread⟩ := Lexeme.read_of_spells hfits.spelled hfits.maximal
  rw [← hfits.drop_start] at htail
  have hstart : piece.start ≤ source.length :=
    Nat.le_trans (Nat.le_of_lt hfits.start_lt_stop) hfits.stop_le
  have hskip := Lexer.skipBlanks_atPlace hplace hstart hblank (htail ▸ stops_cons.mpr hc)
  unfold Lexer.next
  simp only [hskip]
  rw [show (Lexer.atPlace source piece.start).rest = _ from htail]
  simp only [hread, Lexer.skip_atPlace, String.ofList_toList]
  rfl

/-- In front of nothing but blanks the lexer finds the end. -/
theorem Lexer.next_of_blank {source : List Char} {place : Nat} (hplace : place ≤ source.length)
    (hblank : BlankBetween source place source.length) :
    (Lexer.atPlace source place).next =
      (.ok (Token.eof source.length), .atPlace source source.length) := by
  have hend := List.drop_length (l := source)
  have hskip := Lexer.skipBlanks_atPlace hplace (Nat.le_refl _) hblank (hend ▸ stops_nil _)
  unfold Lexer.next
  simp only [hskip]
  rw [show (Lexer.atPlace source source.length).rest = [] from hend]
  rfl

/-- The next place that holds no blank. -/
theorem exists_blankBetween {source : List Char} {place : Nat} (hplace : place ≤ source.length) :
    ∃ stop, place ≤ stop ∧ stop ≤ source.length ∧ BlankBetween source place stop ∧
      Stops Text.isBlank (source.drop stop) := by
  -- by the number of characters that are left
  induction hleft : source.length - place generalizing place with
  | zero =>
    have hnil : source.drop place = [] := List.drop_eq_nil_iff.mpr (by omega)
    exact ⟨place, Nat.le_refl _, hplace, fun i c hi hi' _ => by omega, hnil ▸ stops_nil _⟩
  | succ left ih =>
    have hlt : place < source.length := by omega
    have hcons := List.drop_eq_getElem_cons hlt
    by_cases hc : Text.isBlank source[place] = true
    · obtain ⟨stop, hle, hlength, hblank, hend⟩ := ih hlt (by omega)
      refine ⟨stop, by omega, hlength, fun i d hi hi' hd => ?_, hend⟩
      by_cases hfirst : i = place
      · subst hfirst
        rw [List.getElem?_eq_getElem hlt, Option.some.injEq] at hd
        exact hd ▸ hc
      · exact hblank i d (by omega) hi' hd
    · refine ⟨place, Nat.le_refl _, hplace, fun i c hi hi' _ => by omega, ?_⟩
      rw [hcons]
      exact stops_cons.mpr (by simpa using hc)

/-- A token that the lexer finds is the end behind blanks, or that of a piece that fits. -/
theorem Lexer.fits_of_next {source : List Char} {place : Nat} (hplace : place ≤ source.length)
    {token : Token} {lexer : Lexer}
    (h : (Lexer.atPlace source place).next = (.ok token, lexer)) :
    (token = Token.eof source.length ∧ BlankBetween source place source.length) ∨
      ∃ piece : Piece, piece.token = token ∧ place ≤ piece.start ∧
        BlankBetween source place piece.start ∧ piece.Fits source ∧
        lexer = .atPlace source piece.stop := by
  obtain ⟨stop, hle, hlength, hblank, hend⟩ := exists_blankBetween hplace
  unfold Lexer.next at h
  simp only [Lexer.skipBlanks_atPlace hle hlength hblank hend] at h
  cases hrest : source.drop stop with
  | nil =>
    rw [show (Lexer.atPlace source stop).rest = [] from hrest] at h
    cases h
    have hstop : stop = source.length := by
      have := List.drop_eq_nil_iff.mp hrest
      omega
    subst hstop
    exact .inl ⟨rfl, hblank⟩
  | cons c rest =>
    rw [show (Lexer.atPlace source stop).rest = c :: rest from hrest] at h
    cases hread : Lexeme.read c rest with
    | mk result count =>
      simp only [hread] at h
      cases result with
      | error fault => exact nomatch h
      | ok lexeme =>
        obtain ⟨kind, text⟩ := lexeme
        cases h
        obtain ⟨lexeme, tail, hsource, rfl, hspells, hends⟩ := Lexeme.takes_of_read hread
        have htail : source.drop (stop + lexeme.length) = tail := by
          rw [← List.drop_drop, hrest, hsource, List.drop_left]
        refine .inr ⟨⟨⟨kind, String.ofList text, stop⟩, lexeme⟩, rfl, hle, hblank,
          ⟨?_, ?_, ?_⟩, Lexer.skip_atPlace _ _ _⟩
        · rw [String.toList_ofList]
          exact hspells
        · exact ⟨tail, (hrest.trans hsource).symm⟩
        · rw [← htail] at hends
          exact hends

/-! ## All tokens -/

/-- The tokens from a place on are those of a segmentation from there on, if enough of them may be
read. -/
theorem Lexer.tokens_eq_ok_iff {source : List Char} {place count : Nat} {tokens : List Token}
    (hplace : place ≤ source.length) (hcount : source.length < place + count) :
    (Lexer.atPlace source place).tokens count = .ok tokens ↔
      ∃ pieces, Segmentation source place pieces ∧
        tokens = pieces.map Piece.token ++ [Token.eof source.length] := by
  induction count generalizing place tokens with
  | zero => omega
  | succ count ih =>
    constructor
    · intro h
      unfold Lexer.tokens at h
      split at h
      · exact nomatch h
      · rename_i token lexer hnext
        rcases fits_of_next hplace hnext with ⟨rfl, hblank⟩ |
          ⟨piece, rfl, hle, hblank, hfits, rfl⟩
        · cases h
          exact ⟨[], segmentation_nil_iff.mpr hblank, rfl⟩
        · have hstop := hfits.start_lt_stop
          rw [if_neg hfits.spelled.kind_ne_eof] at h
          cases hrest : (Lexer.atPlace source piece.stop).tokens count with
          | error e =>
            rw [hrest] at h
            exact nomatch h
          | ok rest =>
            rw [hrest] at h
            cases h
            obtain ⟨pieces, hpieces, rfl⟩ := (ih hfits.stop_le (by omega)).mp hrest
            exact ⟨piece :: pieces, segmentation_cons_iff.mpr ⟨hle, hblank, hfits, hpieces⟩, rfl⟩
    · rintro ⟨pieces, hpieces, rfl⟩
      unfold Lexer.tokens
      cases pieces with
      | nil => rw [next_of_blank hplace (segmentation_nil_iff.mp hpieces)]; rfl
      | cons piece pieces =>
        obtain ⟨hle, hblank, hfits, hrest⟩ := segmentation_cons_iff.mp hpieces
        have hstop := hfits.start_lt_stop
        have htokens := (ih hfits.stop_le (by omega)).mpr ⟨pieces, hrest, rfl⟩
        rw [next_of_fits hle hblank hfits]
        simp only [if_neg hfits.spelled.kind_ne_eof, htokens]
        rfl

/-- The tokens of a source are those of a segmentation, with an end behind them. -/
theorem tokenize_iff_segmentation {source : String} {tokens : List Token} :
    tokenize source = .ok tokens ↔ ∃ pieces, Segmentation source.toList 0 pieces ∧
      tokens = pieces.map Piece.token ++ [Token.eof source.toList.length] := by
  have hcount : source.toList.length < 0 + (source.length + 1) := by
    rw [String.length_toList]
    omega
  exact Lexer.tokens_eq_ok_iff (Nat.zero_le _) hcount

/-- Where the source is blank to its end, no piece is left to find. -/
theorem Segmentation.not_cons_of_nil {source : List Char} {place : Nat}
    (hplace : place ≤ source.length) (hnil : Segmentation source place []) (piece : Piece)
    (pieces : List Piece) : ¬ Segmentation source place (piece :: pieces) := by
  intro hcons
  obtain ⟨hle, hblank, hfits, -⟩ := segmentation_cons_iff.mp hcons
  have hnext := Lexer.next_of_blank hplace (segmentation_nil_iff.mp hnil)
  rw [Lexer.next_of_fits hle hblank hfits] at hnext
  injection hnext with htoken
  injection htoken with htoken
  exact hfits.spelled.kind_ne_eof (congrArg Token.kind htoken)

/-- A source has at most one segmentation from a place on. -/
theorem Segmentation.unique {source : List Char} {place : Nat} {first second : List Piece}
    (hplace : place ≤ source.length) (hfirst : Segmentation source place first)
    (hsecond : Segmentation source place second) : first = second := by
  induction first generalizing place second with
  | nil =>
    cases second with
    | nil => rfl
    | cons piece pieces => exact absurd hsecond (hfirst.not_cons_of_nil hplace piece pieces)
  | cons piece pieces ih =>
    cases second with
    | nil => exact absurd hfirst (hsecond.not_cons_of_nil hplace piece pieces)
    | cons other others =>
      obtain ⟨hle, hblank, hfits, hpieces⟩ := segmentation_cons_iff.mp hfirst
      obtain ⟨hle', hblank', hfits', hothers⟩ := segmentation_cons_iff.mp hsecond
      -- the lexer reads both first pieces from the same place, so they are one
      have hnext := Lexer.next_of_fits hle hblank hfits
      rw [Lexer.next_of_fits hle' hblank' hfits'] at hnext
      injection hnext with htoken hlexer
      injection htoken with htoken
      have hstop : other.stop = piece.stop := congrArg Lexer.position hlexer
      obtain rfl := hfits'.eq_of_token_eq hfits htoken hstop
      rw [ih hfits.stop_le hpieces hothers]

end Formula
