import Formula.Proofs.Token.Concatenation
import Mathlib.Logic.Function.Iterate

/-!
# Asking for tokens again and again

`tokenize` stops at the first error. A lexer can be asked again all the same, behind an error and
behind the end: `Lexer.after` is the lexer of a source after some calls, whatever they answered, and
`Lexer.answer` is what the next one answers.

`Call source place answer behind` has the four things that one call can do, and `call_next` says that
there are no others. An answer `Settles` the lexer if it is the end or an unexpected character: such a
call only skips blanks, so the next one finds the same (`next_of_settles`). Any other call moves on,
which is why a lexer settles within as many calls as there are characters, and one more
(`exists_settles_or_le`).

The main statements are about all calls of a run: `after_sound` says where the lexer and its answers
can be, and `ends_or_stays` what the calls come to.
-/

namespace Formula

/-! ## What errors take up -/

/-- Whether an error is about a character that starts nothing. -/
def LexError.IsUnexpected : LexError → Prop
  | unexpectedCharacter _ _ => True
  | _ => False

/-- An error of that sort names a character and its place. -/
theorem LexError.isUnexpected_iff {e : LexError} :
    e.IsUnexpected ↔ ∃ c place, e = unexpectedCharacter c place := by
  constructor
  · intro h
    cases e with
    | unexpectedCharacter c place => exact ⟨c, place, rfl⟩
    | _ => exact h.elim
  · rintro ⟨c, place, rfl⟩
    trivial

/-- An error takes up characters unless it is about one that starts nothing. -/
theorem Lexeme.Faulty.pos_or {text : List Char} {fault : Nat → LexError} {taken : Nat}
    (h : Faulty text fault taken) :
    (0 < taken ∧ ∀ place, ¬ (fault place).IsUnexpected) ∨
      taken = 0 ∧ ∃ c rest, text = c :: rest ∧ fault = .unexpectedCharacter c := by
  cases h with
  | unterminatedString h | unterminatedDate h | unterminatedReference h =>
    rw [h]
    exact .inl ⟨Nat.succ_pos _, fun _ => id⟩
  | invalidDate => exact .inl ⟨Nat.succ_pos _, fun _ => id⟩
  | invalidNumber _ hne => exact .inl ⟨List.length_pos_iff.mpr hne, fun _ => id⟩
  | @unexpectedCharacter c rest h => exact .inr ⟨rfl, c, rest, h, rfl⟩

namespace Lexer

/-! ## One call -/

/-- The place that an answer is about. -/
def placeOf : Except LexError Token → Nat
  | .ok token => token.position
  | .error e => e.position

/-- What a call of the lexer in front of a place of a source answers, and the place where it leaves
the lexer. -/
inductive Call (source : List Char) (start : Nat) : Except LexError Token → Nat → Prop where
  /-- Nothing but blanks is left. -/
  | atEnd (hstart : start ≤ source.length) (hblank : BlankBetween source start source.length) :
      Call source start (.ok (Token.eof source.length)) source.length
  | lexeme {piece : Piece} (hstart : start ≤ piece.start) (hfits : piece.Fits source) :
      Call source start (.ok piece.token) piece.stop
  | fault {e : LexError} {behind : Nat} (hstart : start ≤ e.position) (hmoves : e.position < behind)
      (hbehind : behind ≤ source.length) (he : ¬ e.IsUnexpected) : Call source start (.error e) behind
  /-- The next character that is no blank starts nothing, and stays. -/
  | unexpected {c : Char} {stop : Nat} (hstart : start ≤ stop)
      (hblank : BlankBetween source start stop) (hc : source[stop]? = some c) :
      Call source start (.error (.unexpectedCharacter c stop)) stop

/-- Whether an answer is the last one to be found: the end, or a character that starts nothing. -/
def Settles : Except LexError Token → Prop
  | .ok token => token.kind = .eof
  | .error e => e.IsUnexpected

section Calls

variable {source : List Char} {start behind : Nat} {answer : Except LexError Token}

/-- These are the only things that a call can do. -/
theorem call_next (hstart : start ≤ source.length) :
    ∃ behind, (atPlace source start).next.2 = atPlace source behind ∧
      Call source start (atPlace source start).next.1 behind := by
  rcases hnext : (atPlace source start).next with ⟨e | token, lexer⟩
  · obtain ⟨stop, c, rest, fault, taken, hle, hblank, hdrop, -, hread, rfl, rfl⟩ :=
      fault_of_next hstart hnext
    have hfaulty := Lexeme.faulty_of_read hread
    obtain ⟨hposition, -⟩ := hfaulty.blames stop
    refine ⟨stop + taken, rfl, ?_⟩
    rcases hfaulty.pos_or with ⟨hpos, hfault⟩ | ⟨rfl, d, tail, hd, rfl⟩
    · have htaken := hfaulty.taken_le
      rw [← hdrop, List.length_drop] at htaken
      refine .fault (hposition.symm ▸ hle) ?_ (by omega) (hfault stop)
      rw [hposition]
      exact Nat.lt_add_of_pos_right hpos
    · refine .unexpected hle hblank ?_
      rw [← List.head?_drop, hdrop, hd]
      rfl
  · rcases fits_of_next hstart hnext with ⟨rfl, hblank⟩ | ⟨piece, rfl, hle, -, hfits, rfl⟩
    · rw [next_of_blank hstart hblank] at hnext
      cases hnext
      exact ⟨source.length, rfl, .atEnd hstart hblank⟩
    · exact ⟨piece.stop, rfl, .lexeme hle hfits⟩

/-- A call never goes back or past the end, and its answer is about a place in between. -/
theorem Call.le_placeOf (h : Call source start answer behind) :
    start ≤ placeOf answer ∧ placeOf answer ≤ behind ∧ behind ≤ source.length := by
  cases h with
  | atEnd hstart => exact ⟨hstart, Nat.le_refl _, Nat.le_refl _⟩
  | lexeme hstart hfits => exact ⟨hstart, Nat.le_of_lt hfits.start_lt_stop, hfits.stop_le⟩
  | fault hstart hmoves hbehind => exact ⟨hstart, Nat.le_of_lt hmoves, hbehind⟩
  | unexpected hstart _ hc =>
    exact ⟨hstart, Nat.le_refl _, Nat.le_of_lt (List.getElem?_eq_some_iff.mp hc).1⟩

/-- A call moves on unless it settles the lexer. -/
theorem Call.lt_behind (h : Call source start answer behind) (hanswer : ¬ Settles answer) :
    start < behind := by
  cases h with
  | atEnd => exact absurd rfl hanswer
  | lexeme hstart hfits => exact Nat.lt_of_le_of_lt hstart hfits.start_lt_stop
  | fault hstart hmoves => exact Nat.lt_of_le_of_lt hstart hmoves
  | unexpected => exact absurd trivial hanswer

/-- A call that settles the lexer only skips blanks. -/
theorem Call.blankBetween (h : Call source start answer behind) (hanswer : Settles answer) :
    BlankBetween source start behind := by
  cases h with
  | atEnd _ hblank => exact hblank
  | lexeme _ hfits => exact absurd hanswer hfits.spelled.kind_ne_eof
  | fault _ _ _ he => exact absurd hanswer he
  | unexpected _ hblank => exact hblank

/-- The end is found behind the last character, when nothing but blanks is left. -/
theorem Call.eq_of_eof {token : Token} (h : Call source start (.ok token) behind)
    (hkind : token.kind = .eof) :
    token = Token.eof source.length ∧ BlankBetween source start source.length := by
  cases h with
  | atEnd _ hblank => exact ⟨rfl, hblank⟩
  | lexeme _ hfits => exact absurd hkind hfits.spelled.kind_ne_eof

/-- An unexpected character stands behind the blanks, where the lexer stays. -/
theorem Call.eq_of_unexpected {c : Char} {stop : Nat}
    (h : Call source start (.error (.unexpectedCharacter c stop)) behind) :
    behind = stop ∧ source[stop]? = some c ∧ BlankBetween source start stop := by
  cases h with
  | fault _ _ _ he => exact absurd trivial he
  | unexpected _ hblank hc => exact ⟨rfl, hc, hblank⟩

/-- Blanks make no difference to what is found behind them. -/
theorem next_of_blankBetween (hle : start ≤ behind) (hbehind : behind ≤ source.length)
    (hblank : BlankBetween source start behind) :
    (atPlace source behind).next = (atPlace source start).next := by
  obtain ⟨blanks, hblanks, hdrop⟩ := hblank.exists_blanks hle hbehind
  have hlength : start + blanks.length = behind := by
    have hlengths := congrArg List.length hdrop
    rw [List.length_append, List.length_drop, List.length_drop] at hlengths
    omega
  rw [atPlace, atPlace, hdrop, next_blanks hblanks, hlength]

/-- A settled lexer finds the same again. -/
theorem next_of_settles (hstart : start ≤ source.length)
    (h : Settles (atPlace source start).next.1) :
    (atPlace source start).next.2.next = (atPlace source start).next := by
  obtain ⟨behind, hbehind, hcall⟩ := call_next hstart
  obtain ⟨hplace, hplace', hlength⟩ := hcall.le_placeOf
  rw [hbehind]
  exact next_of_blankBetween (Nat.le_trans hplace hplace') hlength (hcall.blankBetween h)

end Calls

/-! ## Any number of calls -/

/-- The lexer of a source after some calls, whatever they answered. -/
def after (source : String) (calls : Nat) : Lexer :=
  (fun lexer => lexer.next.2)^[calls] (ofString source)

/-- What is answered after some calls. -/
def answer (source : String) (calls : Nat) : Except LexError Token := (after source calls).next.1

section Runs

variable {source : String} {calls later : Nat}

/-- One more call is a call of the lexer behind the others. -/
theorem after_succ (source : String) (calls : Nat) :
    after source (calls + 1) = (after source calls).next.2 :=
  Function.iterate_succ_apply' _ _ _

/-- After any calls the lexer stands somewhere in the source, with the rest of it to be read. -/
theorem after_eq (source : String) (calls : Nat) :
    (after source calls).position ≤ source.toList.length ∧
      after source calls = atPlace source.toList (after source calls).position := by
  induction calls with
  | zero => exact ⟨Nat.zero_le _, rfl⟩
  | succ calls ih =>
    obtain ⟨hlength, hafter⟩ := ih
    obtain ⟨behind, hbehind, hcall⟩ := call_next hlength
    rw [← hafter, ← after_succ] at hbehind
    rw [hbehind]
    exact ⟨hcall.le_placeOf.2.2, rfl⟩

/-- Every call of a run is one of those that there are. -/
theorem call_answer (source : String) (calls : Nat) :
    Call source.toList (after source calls).position (answer source calls)
      (after source (calls + 1)).position := by
  obtain ⟨hlength, hafter⟩ := after_eq source calls
  obtain ⟨behind, hbehind, hcall⟩ := call_next hlength
  rw [← hafter] at hbehind hcall
  rw [after_succ, hbehind]
  exact hcall

/-- Calls never go back. -/
theorem position_le_position (h : calls ≤ later) :
    (after source calls).position ≤ (after source later).position := by
  induction later, h using Nat.le_induction with
  | base => exact Nat.le_refl _
  | succ later _ ih =>
    obtain ⟨hplace, hplace', -⟩ := (call_answer source later).le_placeOf
    exact Nat.le_trans ih (Nat.le_trans hplace hplace')

/-- Once the lexer is settled, every call answers the same. -/
theorem answer_of_settles (hanswer : Settles (answer source calls)) (h : calls ≤ later) :
    answer source later = answer source calls := by
  have hnext : (after source calls).next.2.next = (after source calls).next := by
    obtain ⟨hlength, hafter⟩ := after_eq source calls
    unfold answer at hanswer
    rw [hafter] at hanswer ⊢
    exact next_of_settles hlength hanswer
  have hlater : (after source later).next = (after source calls).next := by
    induction later, h using Nat.le_induction with
    | base => rfl
    | succ later _ ih => rw [after_succ, ih, hnext]
  exact congrArg Prod.fst hlater

/-- An unexpected character is the answer to all later calls as well. -/
theorem answer_of_unexpected {c : Char} {stop : Nat}
    (hanswer : answer source calls = .error (.unexpectedCharacter c stop)) (h : calls ≤ later) :
    answer source later = .error (.unexpectedCharacter c stop) := by
  have hsettles : Settles (answer source calls) := by
    rw [hanswer]
    trivial
  exact (answer_of_settles hsettles h).trans hanswer

/-- Until the lexer is settled, every call takes at least one character. -/
theorem exists_settles_or_le (source : String) (calls : Nat) :
    (∃ earlier < calls, Settles (answer source earlier)) ∨
      calls ≤ (after source calls).position := by
  induction calls with
  | zero => exact .inr (Nat.zero_le _)
  | succ calls ih =>
    rcases ih with ⟨earlier, hearlier, hanswer⟩ | hle
    · exact .inl ⟨earlier, Nat.lt_succ_of_lt hearlier, hanswer⟩
    · by_cases hanswer : Settles (answer source calls)
      · exact .inl ⟨calls, Nat.lt_succ_self _, hanswer⟩
      · exact .inr (Nat.lt_of_le_of_lt hle ((call_answer source calls).lt_behind hanswer))

/-- There is more to find than the end while there is something else than blanks. -/
theorem kind_ne_eof_of_mem_rest {c : Char} {token : Token} (hmem : c ∈ (after source calls).rest)
    (hc : Text.isBlank c = false) (h : answer source calls = .ok token) : token.kind ≠ .eof := by
  intro hkind
  have hcall := call_answer source calls
  rw [h] at hcall
  obtain ⟨-, hblank⟩ := hcall.eq_of_eof hkind
  rw [(after_eq source calls).2] at hmem
  obtain ⟨i, hi⟩ := List.mem_iff_getElem?.mp hmem
  rw [atPlace, List.getElem?_drop] at hi
  have hlt := (List.getElem?_eq_some_iff.mp hi).1
  have hblank' := hblank _ c (Nat.le_add_right _ _) hlt hi
  exact Bool.false_ne_true (hc.symm.trans hblank')

/-- The lexer never goes back or past the last character, and what it answers is about a place between
those before and behind the call; once it has found the end, it finds the same end ever after. All of
this holds for any number of calls, whatever they answer. -/
theorem after_sound (source : String) :
    (∀ calls, (after source calls).position ≤ source.length ∧
      (after source calls).rest = source.toList.drop (after source calls).position ∧
      (after source calls).position ≤ placeOf (answer source calls) ∧
      placeOf (answer source calls) ≤ (after source (calls + 1)).position) ∧
    (∀ calls later, calls ≤ later →
      (after source calls).position ≤ (after source later).position) ∧
    ∀ calls token, answer source calls = .ok token → token.kind = .eof →
      ∀ later, calls ≤ later → answer source later = .ok token := by
  refine ⟨fun calls => ?_, fun _ _ => position_le_position, fun calls token h hkind later hle => ?_⟩
  · obtain ⟨hlength, hafter⟩ := after_eq source calls
    obtain ⟨hplace, hplace', -⟩ := (call_answer source calls).le_placeOf
    rw [String.length_toList] at hlength
    exact ⟨hlength, congrArg Lexer.rest hafter, hplace, hplace'⟩
  · rw [← h]
    exact answer_of_settles (h ▸ hkind) hle

/-- A date that is none, a string that ends in the middle of an escape, and the end behind it. -/
theorem after_sound_unfinished :
    answer "#x# '\\" 0 = .error (.invalidDate "x" 0) ∧ (after "#x# '\\" 1).position = 3 ∧
      answer "#x# '\\" 1 = .error (.unterminatedString 4) ∧
      answer "#x# '\\" 2 = .ok (Token.eof 6) ∧ (Token.eof 6).kind = .eof ∧
      ∀ later, 2 ≤ later → answer "#x# '\\" later = .ok (Token.eof 6) := by
  have hend : answer "#x# '\\" 2 = .ok (Token.eof 6) := by decide +kernel
  exact ⟨by decide +kernel, by decide +kernel, by decide +kernel, hend, rfl,
    (after_sound "#x# '\\").2.2 2 (Token.eof 6) hend rfl⟩

/-- A lexer settles within as many calls as there are characters, and if it has not found an unexpected
character then, the next call finds the end. -/
theorem exists_eof_or_unexpected (source : String) :
    (∃ calls ≤ source.length, answer source calls = .ok (Token.eof source.length)) ∨
      ∃ calls < source.length, ∃ c stop,
        answer source calls = .error (.unexpectedCharacter c stop) := by
  rcases exists_settles_or_le source source.length with ⟨calls, hlt, hanswer⟩ | hle
  · cases h : answer source calls with
    | ok token =>
      have hcall := call_answer source calls
      rw [h] at hanswer hcall
      obtain ⟨rfl, -⟩ := hcall.eq_of_eof hanswer
      rw [String.length_toList] at h
      exact .inl ⟨calls, Nat.le_of_lt hlt, h⟩
    | error e =>
      rw [h] at hanswer
      obtain ⟨c, stop, rfl⟩ := LexError.isUnexpected_iff.mp hanswer
      exact .inr ⟨calls, hlt, c, stop, h⟩
  · obtain ⟨hlength, hafter⟩ := after_eq source source.length
    have hblank : BlankBetween source.toList (after source source.length).position
        source.toList.length := by
      intro i c hi hi' _
      rw [String.length_toList] at hi'
      omega
    have hnext := next_of_blank hlength hblank
    rw [← hafter, String.length_toList] at hnext
    exact .inl ⟨source.length, Nat.le_refl _, congrArg Prod.fst hnext⟩

/-- While there is something else than blanks, a call moves on unless it finds an unexpected
character. -/
theorem position_lt_position {c : Char} (hmem : c ∈ (after source calls).rest)
    (hc : Text.isBlank c = false)
    (h : ∀ d stop, answer source calls ≠ .error (.unexpectedCharacter d stop)) :
    (after source calls).position < (after source (calls + 1)).position := by
  refine (call_answer source calls).lt_behind fun hsettles => ?_
  cases hanswer : answer source calls with
  | ok token =>
    rw [hanswer] at hsettles
    exact kind_ne_eof_of_mem_rest hmem hc hanswer hsettles
  | error e =>
    rw [hanswer] at hsettles
    obtain ⟨d, stop, rfl⟩ := LexError.isUnexpected_iff.mp hsettles
    exact h d stop hanswer

/-- A lexer that is asked again and again finds the end within as many calls as there are characters,
and one more, or before that an unexpected character, and then that one ever after. As long as there
is something else than blanks, every call but for those moves on. -/
theorem ends_or_stays (source : String) :
    ((∃ calls ≤ source.length, answer source calls = .ok (Token.eof source.length)) ∨
      ∃ calls < source.length, ∃ c stop,
        answer source calls = .error (.unexpectedCharacter c stop)) ∧
    (∀ calls c stop, answer source calls = .error (.unexpectedCharacter c stop) →
      source.toList[stop]? = some c ∧
      BlankBetween source.toList (after source calls).position stop ∧
      ∀ later, calls ≤ later → answer source later = .error (.unexpectedCharacter c stop) ∧
        (after source (later + 1)).position = stop) ∧
    ∀ calls, (∃ c ∈ (after source calls).rest, Text.isBlank c = false) →
      (∀ c stop, answer source calls ≠ .error (.unexpectedCharacter c stop)) →
      (after source calls).position < (after source (calls + 1)).position := by
  refine ⟨exists_eof_or_unexpected source, fun calls c stop h => ?_,
    fun _ ⟨_, hmem, hc⟩ h => position_lt_position hmem hc h⟩
  have hcall := call_answer source calls
  rw [h] at hcall
  obtain ⟨-, hc, hblank⟩ := hcall.eq_of_unexpected
  refine ⟨hc, hblank, fun later hle => ?_⟩
  have hlater := answer_of_unexpected h hle
  have hcall' := call_answer source later
  rw [hlater] at hcall'
  exact ⟨hlater, hcall'.eq_of_unexpected.1⟩

/-- The lexer moves on behind a date that is none, and stays at a dollar sign. -/
theorem ends_or_stays_behind_date :
    (∃ c ∈ (after "#x# $ 1" 0).rest, Text.isBlank c = false) ∧
      answer "#x# $ 1" 0 = .error (.invalidDate "x" 0) ∧
      (after "#x# $ 1" 0).position < (after "#x# $ 1" 1).position ∧
      answer "#x# $ 1" 1 = .error (.unexpectedCharacter '$' 4) ∧
      ∀ later, 1 ≤ later → answer "#x# $ 1" later = .error (.unexpectedCharacter '$' 4) := by
  have hdate : answer "#x# $ 1" 0 = .error (.invalidDate "x" 0) := by decide +kernel
  have hsign : answer "#x# $ 1" 1 = .error (.unexpectedCharacter '$' 4) := by decide +kernel
  have hrest : ∃ c ∈ (after "#x# $ 1" 0).rest, Text.isBlank c = false :=
    ⟨'#', List.mem_cons_self, by decide⟩
  obtain ⟨-, hstays, hmoves⟩ := ends_or_stays "#x# $ 1"
  obtain ⟨-, -, hlater⟩ := hstays 1 '$' 4 hsign
  refine ⟨hrest, hdate, hmoves 0 hrest fun c stop h => ?_, hsign, fun later h => (hlater later h).1⟩
  rw [hdate] at h
  cases h

/-- In front of a dollar sign the lexer never moves, though there is something else than blanks, and
never finds the end. -/
theorem dollar_stays :
    (∀ calls, answer "$" calls = .error (.unexpectedCharacter '$' 0)) ∧
    (¬ ∃ calls ≤ "$".length, ∃ token, answer "$" calls = .ok token ∧ token.kind = .eof) ∧
    ∀ calls, (∃ c ∈ (after "$" calls).rest, Text.isBlank c = false) ∧
      ¬ (after "$" calls).position < (after "$" (calls + 1)).position := by
  have hfirst : answer "$" 0 = .error (.unexpectedCharacter '$' 0) := by decide +kernel
  have hanswer : ∀ calls, answer "$" calls = .error (.unexpectedCharacter '$' 0) :=
    fun calls => answer_of_unexpected hfirst (Nat.zero_le calls)
  have hposition : ∀ calls, (after "$" calls).position = 0 := by
    intro calls
    have hcall := call_answer "$" calls
    rw [hanswer] at hcall
    exact Nat.le_zero.mp hcall.le_placeOf.1
  refine ⟨hanswer, ?_, fun calls => ⟨⟨'$', ?_, by decide⟩, ?_⟩⟩
  · rintro ⟨calls, -, token, htoken, -⟩
    rw [hanswer] at htoken
    exact nomatch htoken
  · rw [(after_eq "$" calls).2, hposition]
    exact List.mem_cons_self
  · rw [hposition, hposition]
    exact Nat.lt_irrefl 0

end Runs

end Lexer

end Formula
