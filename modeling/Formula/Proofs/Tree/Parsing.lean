import Formula.Proofs.Tree.Soundness
import Formula.Proofs.Tree.Completeness
import Mathlib.Data.List.TakeWhile

/-!
# The parser decides its grammar

`parses_iff` puts soundness and completeness together: for tokens with no end before the last one,
the parser returns a tree exactly if the tokens in front of the end derive it, every call in it is
accepted, and neither its height nor the nesting of the derivation exceeds `maxDepth`. Beyond these
limits `ofTokens_of_derives_or` says which error there is. Tokens behind the first end only count
when parentheses are counted, which is what `ofTokens_iff_derives` adds.

All of that is about `Tree.ofTokens`. The parser is there unless the place of an added end is too large
and sums do not wrap around, and then it is that one (`parse?_eq_some`, `parse?_stops`).
-/

namespace Formula

open NaturalPower

variable {tokens front rest : List Token} {last : Token} {tree : Tree}

/-- The tokens in front of the first end. -/
def beforeEnd (tokens : List Token) : List Token :=
  tokens.takeWhile fun token => token.kind ≠ .eof

/-- Tokens without an end stand in front of the first one that follows. -/
theorem beforeEnd_append (hfront : ∀ token ∈ front, token.kind ≠ .eof)
    (hlast : last.kind = .eof) : beforeEnd (front ++ last :: rest) = front := by
  have hfront' : ∀ token ∈ front, decide (token.kind ≠ .eof) = true :=
    fun token htoken => decide_eq_true (hfront token htoken)
  rw [beforeEnd, List.takeWhile_append_of_pos hfront', List.takeWhile_cons_of_neg (by simp [hlast]),
    List.append_nil]

/-- There is no end in front of the first one. -/
theorem kind_ne_eof_of_mem_beforeEnd {token : Token} (h : token ∈ beforeEnd tokens) :
    token.kind ≠ .eof := by
  unfold beforeEnd at h
  have hkind := List.mem_takeWhile_imp h
  exact of_decide_eq_true hkind

/-- Tokens with an end among them are split by the first one. -/
theorem exists_eq_beforeEnd (h : ∃ token ∈ tokens, token.kind = .eof) :
    ∃ stop rest, stop.kind = .eof ∧ tokens = beforeEnd tokens ++ stop :: rest := by
  have hsplit : beforeEnd tokens ++ tokens.dropWhile (fun token => token.kind ≠ .eof) = tokens :=
    List.takeWhile_append_dropWhile
  cases hrest : tokens.dropWhile fun token => token.kind ≠ .eof with
  | nil =>
    rw [hrest, List.append_nil] at hsplit
    obtain ⟨token, hmem, heof⟩ := h
    rw [← hsplit] at hmem
    exact absurd heof (kind_ne_eof_of_mem_beforeEnd hmem)
  | cons stop rest =>
    have hstop := List.head?_dropWhile_not (fun token : Token => decide (token.kind ≠ .eof)) tokens
    rw [hrest, List.head?_cons] at hstop
    rw [hrest] at hsplit
    exact ⟨stop, rest, not_not.mp (of_decide_eq_false hstop), hsplit.symm⟩

/-! ## The end behind the tokens -/

/-- A sum that fits does not depend on what becomes of one that does not. -/
theorem Overflow.add?_eq_some {overflow : Overflow} {a b : Nat}
    (h : overflow = .stops → a + b < wordSize) : overflow.add? a b = some ((a + b) % wordSize) := by
  unfold add?
  by_cases hlt : a + b < wordSize
  · rw [if_pos hlt, Nat.mod_eq_of_lt hlt]
  · rw [if_neg hlt]
    cases overflow with
    | stops => exact absurd (h rfl) hlt
    | wraps => rfl

/-- The program stops at a sum that does not fit. -/
theorem Overflow.add?_stops {a b : Nat} (h : ¬ a + b < wordSize) : stops.add? a b = none := if_neg h

namespace Parser

/-- Whether the place behind the last token is a machine word, unless that token is an end. -/
def EndFits (tokens : List Token) : Prop :=
  ∀ last ∈ tokens.getLast?, last.kind ≠ .eof → last.position + last.text.length < wordSize

instance (tokens : List Token) : Decidable (EndFits tokens) :=
  inferInstanceAs (Decidable (∀ last ∈ tokens.getLast?,
    last.kind ≠ .eof → last.position + last.text.length < wordSize))

/-- No end is added where there is one. -/
theorem endFits_concat (h : last.kind = .eof) : EndFits (tokens ++ [last]) := by
  intro token htoken hkind
  rw [List.getLast?_concat, Option.mem_some_iff] at htoken
  exact absurd (htoken ▸ h) hkind

/-- The end is added unless its place does not fit and the program stops. -/
theorem withEnd?_eq_some {overflow : Overflow} (h : overflow = .stops → EndFits tokens) :
    withEnd? overflow tokens = some (withEnd tokens) := by
  unfold withEnd? withEnd
  cases hlast : tokens.getLast? with
  | none => rfl
  | some last =>
    by_cases heof : last.kind = .eof
    · simp only [if_pos heof]
    · have hadd := overflow.add?_eq_some fun hstops => h hstops last hlast heof
      simp only [if_neg heof, hadd, Option.map_some]

/-- The program stops if the place of the end does not fit. -/
theorem withEnd?_stops (h : ¬ EndFits tokens) : withEnd? .stops tokens = none := by
  unfold EndFits at h
  push Not at h
  obtain ⟨last, hlast, heof, hge⟩ := h
  unfold withEnd?
  simp only [Option.mem_def.mp hlast, if_neg heof, Overflow.add?_stops (Nat.not_lt.mpr hge),
    Option.map_none]

/-- Where the program goes on, the parser stands in front of the same tokens. -/
theorem ofTokens?_eq_some {overflow : Overflow} (h : overflow = .stops → EndFits tokens) :
    ofTokens? overflow tokens = some (ofTokens tokens) := by
  unfold ofTokens?
  rw [withEnd?_eq_some h]
  rfl

/-- Where it stops, there is no parser. -/
theorem ofTokens?_stops (h : ¬ EndFits tokens) : ofTokens? .stops tokens = none := by
  unfold ofTokens?
  rw [withEnd?_stops h]
  rfl

/-- The parser starts in front of the tokens before the end, with one end behind them. -/
theorem withEnd_eq (h : ∀ token ∈ tokens.dropLast, token.kind ≠ .eof) :
    ∃ last, last.kind = .eof ∧ withEnd tokens = beforeEnd tokens ++ [last] := by
  unfold withEnd
  cases hlast : tokens.getLast? with
  | none =>
    rw [List.getLast?_eq_none_iff.mp hlast]
    exact ⟨Token.eof 0, rfl, rfl⟩
  | some last =>
    have htokens := List.dropLast_append_getLast? last hlast
    by_cases heof : last.kind = .eof
    · refine ⟨last, heof, ?_⟩
      have hfront : beforeEnd tokens = tokens.dropLast := by
        conv => lhs; rw [← htokens]
        exact beforeEnd_append h heof
      simp only [hfront, if_pos heof, htokens]
    · refine ⟨Token.eof ((last.position + last.text.length) % wordSize), rfl, ?_⟩
      have hall : ∀ token ∈ tokens, decide (token.kind ≠ .eof) = true := by
        rw [← htokens, List.forall_mem_append, List.forall_mem_singleton]
        exact ⟨fun token htoken => decide_eq_true (h token htoken), decide_eq_true heof⟩
      simp only [if_neg heof, beforeEnd, List.takeWhile_eq_self_iff.mpr hall]

/-- An end is added behind tokens that do not have one there. -/
theorem withEnd_cases (tokens : List Token) :
    withEnd tokens = tokens ∨ ∃ place, withEnd tokens = tokens ++ [Token.eof place] := by
  unfold withEnd
  cases hlast : tokens.getLast? with
  | none =>
    rw [List.getLast?_eq_none_iff.mp hlast]
    exact .inr ⟨0, rfl⟩
  | some last =>
    by_cases heof : last.kind = .eof
    · exact .inl (if_pos heof)
    · exact .inr ⟨_, if_neg heof⟩

/-- The end that is added only counts as an end. -/
theorem countKind_withEnd {kind : TokenKind} (hkind : kind ≠ .eof) (tokens : List Token) :
    Parse.countKind kind (withEnd tokens) = Parse.countKind kind tokens := by
  rcases withEnd_cases tokens with hsame | ⟨place, hadded⟩
  · rw [hsame]
  · rw [hadded, Parse.countKind_append, Parse.countKind_cons, if_neg fun h => hkind h.symm]
    rfl

/-- Where there is an end, none is added. -/
theorem withEnd_concat (h : last.kind = .eof) : withEnd (tokens ++ [last]) = tokens ++ [last] := by
  rw [withEnd, List.getLast?_concat]
  exact if_pos h

/-- So it is with the end that a lexer puts there. -/
theorem withEnd_concat_eof (tokens : List Token) (place : Nat) :
    withEnd (tokens ++ [Token.eof place]) = tokens ++ [Token.eof place] :=
  withEnd_concat rfl

/-- Whatever the tokens are, there is an end behind them. -/
theorem withEnd_eq_concat (tokens : List Token) :
    ∃ front last, last.kind = .eof ∧ withEnd tokens = front ++ [last] := by
  unfold withEnd
  cases hlast : tokens.getLast? with
  | none => exact ⟨[], Token.eof 0, rfl, rfl⟩
  | some last =>
    by_cases heof : last.kind = .eof
    · refine ⟨tokens.dropLast, last, heof, ?_⟩
      simp only [if_pos heof, List.dropLast_append_getLast? last hlast]
    · exact ⟨tokens, Token.eof ((last.position + last.text.length) % wordSize), rfl,
        by simp only [if_neg heof]⟩

/-- The end that is added comes behind the first one. -/
theorem beforeEnd_withEnd (tokens : List Token) : beforeEnd (withEnd tokens) = beforeEnd tokens := by
  rcases withEnd_cases tokens with hsame | ⟨place, hadded⟩
  · rw [hsame]
  · rw [hadded]
    by_cases hend : ∃ token ∈ tokens, token.kind = .eof
    · obtain ⟨stop, rest, hstop, hsplit⟩ := exists_eq_beforeEnd hend
      conv => lhs; rw [hsplit, List.append_assoc, List.cons_append]
      exact beforeEnd_append (fun _ => kind_ne_eof_of_mem_beforeEnd) hstop
    · have hfront : ∀ token ∈ tokens, token.kind ≠ .eof :=
        fun token htoken heof => hend ⟨token, htoken, heof⟩
      have hwhole : beforeEnd tokens = tokens :=
        List.takeWhile_eq_self_iff.mpr fun token htoken => decide_eq_true (hfront token htoken)
      rw [beforeEnd_append hfront rfl, hwhole]

/-- Whatever the tokens are, there is a first end behind those that are read. -/
theorem exists_withEnd_eq (tokens : List Token) :
    ∃ stop rest, stop.kind = .eof ∧ withEnd tokens = beforeEnd tokens ++ stop :: rest := by
  obtain ⟨front, last, hlast, hwithEnd⟩ := withEnd_eq_concat tokens
  rw [← beforeEnd_withEnd]
  exact exists_eq_beforeEnd ⟨last, hwithEnd ▸ List.mem_concat_self, hlast⟩

/-- Only the end is added to the tokens of the parser. -/
theorem mem_of_mem_withEnd {token : Token} (h : token ∈ withEnd tokens)
    (hkind : token.kind ≠ .eof) : token ∈ tokens := by
  rcases withEnd_cases tokens with hsame | ⟨place, hadded⟩
  · exact hsame ▸ h
  · rw [hadded, List.mem_append, List.mem_singleton] at h
    exact h.resolve_right fun heq => hkind (heq ▸ rfl)

/-- The parser stands in front of the first token, with nothing consumed and nothing open. -/
theorem ofTokens_eq (h : withEnd tokens = front ++ last :: rest) :
    ∃ p, ofTokens tokens = p ∧ p.current :: p.following = front ++ last :: rest ∧ p.consumed = [] ∧
      p.depth = 0 := by
  refine ⟨_, rfl, ?_⟩
  unfold ofTokens
  rw [h]
  cases front <;> exact ⟨rfl, rfl, rfl⟩

/-- The tokens of the parser are those that it was given, with an end. -/
theorem tokens_ofTokens (tokens : List Token) : (ofTokens tokens).tokens = withEnd tokens := by
  obtain ⟨front, last, -, hwithEnd⟩ := withEnd_eq_concat tokens
  obtain ⟨p, rfl, hremaining, hconsumed, -⟩ := ofTokens_eq hwithEnd
  rw [Parser.tokens, hremaining, hconsumed, hwithEnd]
  rfl

/-- They end with an end. -/
theorem ended_ofTokens (tokens : List Token) : (ofTokens tokens).Ended := by
  obtain ⟨front, last, hlast, hwithEnd⟩ := withEnd_eq_concat tokens
  obtain ⟨p, rfl, hremaining, -, -⟩ := ofTokens_eq hwithEnd
  intro token htoken
  rw [hremaining, List.getLast?_concat, Option.mem_some_iff] at htoken
  rw [← htoken, hlast]

end Parser

namespace Parse

/-- A whole expression is one with as many parentheses opened as closed and an end behind it. -/
theorem yields_whole {p q : Parser} :
    Yields whole p tree q ↔
      countKind .leftParen p.tokens = countKind .rightParen p.tokens ∧
        ∃ height, Yields (expression maxDepth .lowest) p (tree, height) q ∧
          q.current.kind = .eof := by
  unfold whole
  rw [yields_bind]
  constructor
  · rintro ⟨_, _, hget, h⟩
    obtain ⟨rfl, rfl⟩ := yields_get.mp hget
    dsimp only at h
    split at h
    · exact absurd h not_yields_fail
    · rename_i hcount
      obtain ⟨⟨tree', height⟩, r, hexpression, hrest⟩ := yields_bind.mp h
      obtain ⟨_, _, hget, hend⟩ := yields_bind.mp hrest
      obtain ⟨rfl, rfl⟩ := yields_get.mp hget
      split at hend
      · rename_i heof
        obtain ⟨rfl, rfl⟩ := yields_pure.mp hend
        exact ⟨not_not.mp hcount, height, hexpression, heof⟩
      · exact absurd hend not_yields_unexpected
  · rintro ⟨hcount, height, hexpression, heof⟩
    refine ⟨p, p, yields_get.mpr ⟨rfl, rfl⟩, ?_⟩
    dsimp only
    rw [if_neg (not_not.mpr hcount)]
    refine yields_bind.mpr ⟨(tree, height), q, hexpression, ?_⟩
    refine yields_bind.mpr ⟨q, q, yields_get.mpr ⟨rfl, rfl⟩, ?_⟩
    rw [if_pos heof]
    exact yields_pure.mpr ⟨rfl, rfl⟩

end Parse

/-- Where the program goes on, the tree is the same. -/
theorem parse?_eq_some {overflow : Overflow} (h : overflow = .stops → Parser.EndFits tokens) :
    Tree.parse? overflow tokens = some (Tree.ofTokens tokens) := by
  unfold Tree.parse?
  rw [Parser.ofTokens?_eq_some h]
  rfl

/-- The program stops at an end that does not fit. -/
theorem parse?_stops (h : ¬ Parser.EndFits tokens) : Tree.parse? .stops tokens = none := by
  unfold Tree.parse?
  rw [Parser.ofTokens?_stops h]
  rfl

/-- The tree of the tokens is what the parser yields from the start. -/
theorem ofTokens_eq_ok_iff :
    Tree.ofTokens tokens = .ok tree ↔ ∃ q, Yields Parse.whole (Parser.ofTokens tokens) tree q := by
  unfold Tree.ofTokens Yields
  constructor
  · intro h
    exact ⟨(Parse.whole.run (Parser.ofTokens tokens)).2, Prod.ext h rfl⟩
  · rintro ⟨q, h⟩
    rw [h]

/-- The parser starts in front of the tokens of an operand with an end behind it, as many parentheses
being opened as closed if that is so behind the end. -/
theorem Parser.ofTokens_reads (hwithEnd : withEnd tokens = front ++ last :: rest)
    (hlast : last.kind = .eof)
    (hrest : Parse.countKind .leftParen rest = Parse.countKind .rightParen rest)
    (h : IsOperand front) :
    (ofTokens tokens).previous = none ∧ (ofTokens tokens).depth = 0 ∧
      Parse.countKind .leftParen (ofTokens tokens).tokens =
        Parse.countKind .rightParen (ofTokens tokens).tokens ∧
      ∃ q, (ofTokens tokens).Reads front q ∧ q.current.kind = .eof := by
  obtain ⟨p, rfl, hremaining, hconsumed, hdepth⟩ := Parser.ofTokens_eq hwithEnd
  refine ⟨by rw [previous, hconsumed]; rfl, hdepth, ?_,
    ⟨front.reverse, last, rest, (ofTokens tokens).depth⟩, ⟨hremaining, ?_, rfl⟩, hlast⟩
  · rw [Parser.tokens, hremaining, hconsumed, List.reverse_nil, List.nil_append,
      Parse.countKind_append, Parse.countKind_append, h.balanced, Parse.countKind_cons,
      Parse.countKind_cons, if_neg (by simp [hlast]), if_neg (by simp [hlast]), hrest]
  · rw [hconsumed, List.append_nil]

/-- Whether the tree is low enough and its calls are accepted. -/
structure Tree.Admitted (tree : Tree) : Prop where
  height : tree.height ≤ maxDepth
  calls : tree.callsAccepted = true

/-- Tokens that derive a tree with accepted calls are parsed to it, or they are too deep, which they
only are beyond the limits. -/
theorem ofTokens_of_derives_or {n : Nat} (hwithEnd : Parser.withEnd tokens = front ++ last :: rest)
    (hlast : last.kind = .eof)
    (hrest : Parse.countKind .leftParen rest = Parse.countKind .rightParen rest)
    (h : Derives .or front tree n) (hcalls : tree.callsAccepted = true) :
    Tree.ofTokens tokens = .ok tree ∨
      Tree.ofTokens tokens = .error (.structural (.tooDeep maxDepth)) ∧
        ¬ Room maxDepth n tree.height := by
  obtain ⟨hprevious, hdepth, hbalanced, q, hreads, heof⟩ :=
    Parser.ofTokens_reads hwithEnd hlast hrest h.isOperand
  have hready : (Parser.ofTokens tokens).Ready maxDepth :=
    ⟨by rw [hprevious]; rfl, by rw [hdepth, Nat.zero_add]⟩
  have hexpression : Arrives (Room maxDepth n tree.height) (Parse.expression maxDepth .lowest)
      (Parser.ofTokens tokens) (tree, tree.height) q :=
    h.complete.expression hready hreads h.nesting_pos hcalls (by decide)
      (Parser.stops_of_kind (by simp [heof])) id
  have hwhole : Arrives (Room maxDepth n tree.height) Parse.whole (Parser.ofTokens tokens) tree
      q := by
    apply runs_get_bind
    dsimp only
    rw [if_neg (not_not.mpr hbalanced)]
    apply hexpression.bind
    apply runs_get_bind
    rw [if_pos heof]
    exact ⟨rfl, rfl⟩
  unfold Arrives Runs at hwhole
  unfold Tree.ofTokens
  rcases hrun : Parse.whole.run (Parser.ofTokens tokens) with ⟨e | read, r⟩
  · rw [hrun] at hwhole
    exact .inr ⟨congrArg Except.error hwhole.1, hwhole.2⟩
  · rw [hrun] at hwhole
    exact .inl (congrArg Except.ok hwhole.1)

/-- Tokens that derive a tree within the limits are parsed to it. -/
theorem ofTokens_of_derives {n : Nat} (hwithEnd : Parser.withEnd tokens = front ++ [last])
    (hlast : last.kind = .eof) (h : Derives .or front tree n) (htree : tree.Admitted)
    (hn : n ≤ maxDepth) : Tree.ofTokens tokens = .ok tree :=
  (ofTokens_of_derives_or hwithEnd hlast rfl h htree.calls).resolve_right
    fun hdeep => hdeep.2 ⟨hn, htree.height⟩

/-- Whatever the tokens are, those of a tree stand in front of an end, and derive it. -/
theorem exists_derives_of_ofTokens (h : Tree.ofTokens tokens = .ok tree) :
    ∃ read stop rest n, Parser.withEnd tokens = read ++ stop :: rest ∧ stop.kind = .eof ∧
      Derives .or read tree n ∧ n ≤ maxDepth ∧ tree.Admitted := by
  obtain ⟨front, last, hlast, hwithEnd⟩ := Parser.withEnd_eq_concat tokens
  obtain ⟨p, hp, hremaining, -, -⟩ := Parser.ofTokens_eq hwithEnd
  obtain ⟨q, hwhole⟩ := ofTokens_eq_ok_iff.mp h
  rw [hp] at hwhole
  obtain ⟨-, height, hexpression, heof⟩ := Parse.yields_whole.mp hwhole
  have hended : p.Ended := hp ▸ Parser.ended_ofTokens tokens
  obtain ⟨⟨read, n, hreads, hderives, hn, rfl, hheight, hcalls⟩, -⟩ :=
    sound_expression maxDepth hended hexpression
  exact ⟨read, q.current, q.following, n, hwithEnd.trans (hremaining.symm.trans hreads.remaining),
    heof, hderives.or_of_lowest, hn, hheight, hcalls⟩

/-- Whatever the tokens are, the parser returns a tree exactly if as many parentheses are opened as
closed and the grammar derives the tree, within the limits, from what stands before the first end. -/
theorem ofTokens_iff_derives :
    Tree.ofTokens tokens = .ok tree ↔
      Parse.countKind .leftParen tokens = Parse.countKind .rightParen tokens ∧
        ∃ n, Derives .or (beforeEnd tokens) tree n ∧ n ≤ maxDepth ∧ tree.Admitted := by
  constructor
  · intro h
    obtain ⟨q, hwhole⟩ := ofTokens_eq_ok_iff.mp h
    obtain ⟨hcount, -⟩ := Parse.yields_whole.mp hwhole
    obtain ⟨read, stop, rest, n, hread, hstop, hderives, hn, htree⟩ := exists_derives_of_ofTokens h
    have hbefore : beforeEnd tokens = read := by
      rw [← Parser.beforeEnd_withEnd, hread, beforeEnd_append hderives.isOperand.not_eof hstop]
    rw [Parser.tokens_ofTokens, Parser.countKind_withEnd (by decide),
      Parser.countKind_withEnd (by decide)] at hcount
    exact ⟨hcount, n, hbefore ▸ hderives, hn, htree⟩
  · rintro ⟨hcount, n, hderives, hn, htree⟩
    obtain ⟨stop, rest, hstop, hwithEnd⟩ := Parser.exists_withEnd_eq tokens
    -- what is read is balanced by itself, so what stands behind the end is balanced as well
    have hrest : Parse.countKind .leftParen rest = Parse.countKind .rightParen rest := by
      rw [← Parser.countKind_withEnd (by decide) tokens,
        ← Parser.countKind_withEnd (by decide) tokens, hwithEnd, Parse.countKind_append,
        Parse.countKind_append, hderives.isOperand.balanced, Parse.countKind_cons,
        Parse.countKind_cons, if_neg (by simp [hstop]), if_neg (by simp [hstop])] at hcount
      omega
    exact (ofTokens_of_derives_or hwithEnd hstop hrest hderives htree.calls).resolve_right
      fun hdeep => hdeep.2 ⟨hn, htree.height⟩

/-- Tokens that are parsed to a tree derive it. -/
theorem derives_of_ofTokens (hwithEnd : Parser.withEnd tokens = front ++ [last])
    (hlast : last.kind = .eof) (hfront : ∀ token ∈ front, token.kind ≠ .eof)
    (h : Tree.ofTokens tokens = .ok tree) :
    ∃ n, Derives .or front tree n ∧ tree.callsAccepted = true ∧ n ≤ maxDepth ∧
      tree.height ≤ maxDepth := by
  obtain ⟨read, stop, rest, n, hread, hstop, hderives, hn, htree⟩ := exists_derives_of_ofTokens h
  -- both lists of tokens are what stands in front of the first end
  have hsame : read = front := by
    rw [← beforeEnd_append hderives.isOperand.not_eof hstop, ← hread, hwithEnd,
      beforeEnd_append hfront hlast]
  rw [hsame] at hderives
  exact ⟨n, hderives, htree.calls, hn, htree.height⟩

/-- The parser returns a tree exactly if the grammar derives it within the limits, as long as the place
of an added end fits or sums wrap around. -/
theorem parses_iff (overflow : Overflow) (tokens : List Token) (tree : Tree)
    (h : ∀ token ∈ tokens.dropLast, token.kind ≠ .eof)
    (hfits : overflow = .stops → Parser.EndFits tokens) :
    Tree.parse? overflow tokens = some (.ok tree) ↔
      ∃ n, Derives .or (beforeEnd tokens) tree n ∧ tree.callsAccepted = true ∧ n ≤ maxDepth ∧
        tree.height ≤ maxDepth := by
  obtain ⟨last, hlast, hwithEnd⟩ := Parser.withEnd_eq h
  rw [parse?_eq_some hfits, Option.some.injEq]
  constructor
  · intro htokens
    exact derives_of_ofTokens hwithEnd hlast (fun _ => kind_ne_eof_of_mem_beforeEnd) htokens
  · rintro ⟨n, hderives, hcalls, hn, hheight⟩
    exact ofTokens_of_derives hwithEnd hlast hderives ⟨hheight, hcalls⟩ hn

/-- The tokens of `[a] + [b]` are parsed to the sum, and an end is added behind them. -/
theorem parses_sum :
    Parser.EndFits [⟨.reference, "a", 0⟩, ⟨.operator, "+", 4⟩, ⟨.reference, "b", 6⟩] ∧
    Tree.parse? .stops [⟨.reference, "a", 0⟩, ⟨.operator, "+", 4⟩, ⟨.reference, "b", 6⟩] =
      some (.ok (.binary .add (.reference "a") (.reference "b"))) := by
  have hfits : Parser.EndFits [⟨.reference, "a", 0⟩, ⟨.operator, "+", 4⟩, ⟨.reference, "b", 6⟩] := by
    decide
  have hplus : Token.operator? ⟨.operator, "+", 4⟩ .between = some (.binary .add) :=
    @Operator.find?_of_mem_spellings (.binary .add) "+" List.mem_cons_self
  refine ⟨hfits, (parses_iff .stops _ _ (by decide) fun _ => hfits).mpr
    ⟨2, ?_, rfl, by decide, by decide⟩⟩
  exact Derives.loosen (.between hplus rfl (.loosen (.reference rfl) (by decide))
    (.loosen (.reference rfl) (by decide))) (by decide)

/-- A text spells an operator only in an operator or a word: in front of a number, the text `-` in
quotes is no sign. And the last place that a machine word can tell leaves none for an end, at which
the program may stop in front of the number 1. -/
theorem derives_not_parsed :
    (Operator.find? "-" .before = some (.unary .negate) ∧
      Derives .unary [⟨.number, "1", 3⟩] (.literal (.integer 1)) 1 ∧
      ∀ overflow, Tree.parse? overflow [⟨.string, "-", 0⟩, ⟨.number, "1", 3⟩] ≠
        some (.ok (.unary .negate (.literal (.integer 1))))) ∧
    Derives .or [⟨.number, "1", 2 ^ (64 : Nat) - 1⟩] (.literal (.integer 1)) 1 ∧
      Tree.parse? .stops [⟨.number, "1", 2 ^ (64 : Nat) - 1⟩] = none := by
  have hread : Integer.read? "1".toList = some 1 := by decide +kernel
  have hvalue : ∀ position, Token.value? ⟨.number, "1", position⟩ = some (.integer 1) :=
    fun _ => congrArg (Option.map Value.integer) hread
  refine ⟨⟨?_, .literal (hvalue 3), ?_⟩, .loosen (.literal (hvalue _)) (by decide), ?_⟩
  · decide +kernel
  · intro overflow
    have hfits : Parser.EndFits [⟨.string, "-", 0⟩, ⟨.number, "1", 3⟩] := by decide
    have herror : Tree.ofTokens [⟨.string, "-", 0⟩, ⟨.number, "1", 3⟩] =
        .error (.structural (.unexpectedToken "1" 3)) := by rfl
    rw [parse?_eq_some fun _ => hfits, herror]
    exact nofun
  · exact parse?_stops (by decide)

end Formula
