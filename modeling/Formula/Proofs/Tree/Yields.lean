import Formula.Proofs.Tree.Grammar

/-!
# Successful steps of the parser

`Yields step p a q` says that a step of the parser, started in the state `p`, succeeds with `a` and
leaves the state `q`. Each reader of the parser has one lemma here that says exactly when it
succeeds, in terms of the steps it is made of; nothing else about the parser has to be unfolded.

`Parser.Reads p tokens q` says that `q` is `p` behind some more tokens, with as many expressions
open.
-/

namespace Formula

/-! ## States -/

namespace Parser

/-- Whether the state `q` is `p` after consuming tokens. -/
structure Reads (p : Parser) (tokens : List Token) (q : Parser) : Prop where
  remaining : p.current :: p.following = tokens ++ q.current :: q.following
  consumed : q.consumed = tokens.reverse ++ p.consumed
  depth : q.depth = p.depth

/-- Tokens are read one run after the other. -/
theorem Reads.trans {p q r : Parser} {first second : List Token} (h : p.Reads first q)
    (h' : q.Reads second r) : p.Reads (first ++ second) r :=
  ⟨by rw [h.remaining, h'.remaining, List.append_assoc],
    by rw [h'.consumed, h.consumed, List.reverse_append, List.append_assoc],
    h'.depth.trans h.depth⟩

/-- Consuming tokens stops in between at any of them. -/
theorem Reads.split {p r : Parser} {first second : List Token} (h : p.Reads (first ++ second) r) :
    ∃ q, p.Reads first q ∧ q.Reads second r := by
  obtain ⟨hremaining, hconsumed, hdepth⟩ := h
  rw [List.reverse_append, List.append_assoc] at hconsumed
  rw [List.append_assoc] at hremaining
  -- the state in between stands at the first of the tokens that are left
  cases hsecond : second ++ r.current :: r.following with
  | nil => simp at hsecond
  | cons current following =>
    rw [hsecond] at hremaining
    exact ⟨⟨first.reverse ++ p.consumed, current, following, p.depth⟩, ⟨hremaining, rfl, rfl⟩,
      ⟨hsecond.symm, hconsumed, hdepth⟩⟩

/-- The state after consuming tokens is determined by them. -/
theorem Reads.unique {p q r : Parser} {tokens : List Token} (hq : p.Reads tokens q)
    (hr : p.Reads tokens r) : q = r := by
  obtain ⟨consumed, current, following, depth⟩ := q
  obtain ⟨consumed', current', following', depth'⟩ := r
  have hremaining := List.append_cancel_left (hq.remaining.symm.trans hr.remaining)
  have hconsumed : consumed = consumed' := hq.consumed.trans hr.consumed.symm
  have hdepth : depth = depth' := hq.depth.trans hr.depth.symm
  cases hremaining
  rw [hconsumed, hdepth]

/-- As many tokens are left as have not been read. -/
theorem Reads.length_following {p q : Parser} {tokens : List Token} (h : p.Reads tokens q) :
    p.following.length = tokens.length + q.following.length := by
  have := congrArg List.length h.remaining
  simp only [List.length_cons, List.length_append] at this
  omega

/-- The first token of what is read is the current one. -/
theorem Reads.current_eq {p q : Parser} {token : Token} {tokens : List Token}
    (h : p.Reads (token :: tokens) q) : p.current = token := by
  have := h.remaining
  rw [List.cons_append, List.cons.injEq] at this
  exact this.1

/-- The token consumed last is the last one that was read. -/
theorem Reads.previous_eq {p q : Parser} {token : Token} {tokens : List Token}
    (h : p.Reads (tokens ++ [token]) q) : q.previous = some token := by
  rw [previous, h.consumed, List.reverse_append]
  rfl

/-- Opening one more expression changes nothing about the tokens. -/
theorem Reads.atDepth {p q : Parser} {tokens : List Token} (h : p.Reads tokens q) (depth : Nat) :
    Parser.Reads { p with depth } tokens { q with depth } :=
  ⟨h.remaining, h.consumed, rfl⟩

/-- Whether the last token is the end of the input. -/
def Ended (p : Parser) : Prop :=
  ∀ last ∈ (p.current :: p.following).getLast?, last.kind = .eof

/-- Reading leaves the end where it is. -/
theorem Reads.ended {p q : Parser} {tokens : List Token} (h : p.Reads tokens q) (hp : p.Ended) :
    q.Ended := by
  have hlast : (p.current :: p.following).getLast? = (q.current :: q.following).getLast? := by
    rw [h.remaining, List.getLast?_append, List.getLast?_cons, Option.some_or]
  intro last hmem
  exact hp last (hlast ▸ hmem)

/-- The parser advances to the next token unless it is at an end. -/
theorem advance_of_following {p : Parser} {next : Token} {rest : List Token}
    (hfollowing : p.following = next :: rest) (h : p.current.kind ≠ .eof) :
    p.advance = ⟨p.current :: p.consumed, next, rest, p.depth⟩ := by
  unfold advance
  rw [hfollowing]
  exact if_neg h

/-- An end is never passed. -/
theorem advance_of_eof {p : Parser} (h : p.current.kind = .eof) : p.advance = p := by
  unfold advance
  split
  · rfl
  · exact if_pos h

/-- A token that is not the end is consumed by advancing. -/
theorem reads_advance {p : Parser} (hp : p.Ended) (h : p.current.kind ≠ .eof) :
    p.Reads [p.current] p.advance := by
  cases hfollowing : p.following with
  | nil =>
    rw [Ended, hfollowing] at hp
    exact absurd (hp p.current rfl) h
  | cons next rest =>
    rw [advance_of_following hfollowing h]
    exact ⟨by rw [hfollowing]; rfl, rfl, rfl⟩

/-- Advancing over a token that is not the end consumes it. -/
theorem Reads.advance_eq {p q : Parser} {token : Token} (h : p.Reads [token] q)
    (hkind : token.kind ≠ .eof) : p.current = token ∧ p.advance = q := by
  have hremaining := h.remaining
  rw [List.singleton_append, List.cons.injEq] at hremaining
  obtain ⟨rfl, hfollowing⟩ := hremaining
  have hadvance : p.Reads [p.current] p.advance := by
    rw [advance_of_following hfollowing hkind]
    exact ⟨by rw [hfollowing]; rfl, rfl, rfl⟩
  exact ⟨rfl, hadvance.unique h⟩

/-- The first of several tokens is consumed by advancing, and then the others. -/
theorem Reads.split_cons {p q : Parser} {token : Token} {tokens : List Token}
    (h : p.Reads (token :: tokens) q) (hkind : token.kind ≠ .eof) :
    p.current = token ∧ p.Reads [token] p.advance ∧ p.advance.Reads tokens q := by
  rw [← List.singleton_append] at h
  obtain ⟨r, hfirst, hrest⟩ := h.split
  obtain ⟨hcurrent, rfl⟩ := hfirst.advance_eq hkind
  exact ⟨hcurrent, hfirst, hrest⟩

/-- Only behind an operand can there be an infix operator. -/
theorem infixOperator?_eq (p : Parser) : p.infixOperator? =
    if p.previous.any Token.endsOperand then p.current.operator? .between else none := by
  have hfilter : (matchToken p.current.text p.previous).filter (·.fixity = .between) =
      if p.previous.any Token.endsOperand then Operator.find? p.current.text .between else none := by
    unfold matchToken fixityAfter
    cases hfind : Operator.find? p.current.text
      (if p.previous.any Token.endsOperand then .between else .before) with
    | none =>
      split <;> simp_all
    | some op =>
      have hfixity := Operator.fixity_of_find? hfind
      split <;> simp_all
  unfold infixOperator? Token.operator?
  split <;> simp_all

/-- What is found as an infix operator is one. -/
theorem eq_binary_of_infixOperator? {p : Parser} {op : Operator} (h : p.infixOperator? = some op) :
    ∃ b, op = .binary b := by
  rw [infixOperator?_eq] at h
  split at h
  · cases op with
    | unary u => exact nomatch Operator.fixity_of_find? (Token.find?_of_operator? h)
    | binary b => exact ⟨b, rfl⟩
  · exact nomatch h

/-- It is a sign or a word. -/
theorem kind_of_infixOperator? (p : Parser) {op : Operator} (h : p.infixOperator? = some op) :
    p.current.kind ∈ [.operator, .identifier] := by
  rw [infixOperator?_eq] at h
  split at h
  · exact Token.kind_of_operator? h
  · exact nomatch h

/-- Whether no infix operator follows that binds at least as tightly as `min`. -/
def Stops (q : Parser) (min : Precedence) : Prop :=
  ∀ op, q.infixOperator? = some op → op.precedence.rank < min.rank

/-- Where a chain stops, so does every tighter one. -/
theorem Stops.tighten {q : Parser} {loose tight : Precedence} (h : q.Stops loose)
    (hrank : loose.rank ≤ tight.rank) : q.Stops tight :=
  fun op hop => Nat.lt_of_lt_of_le (h op hop) hrank

/-- A chain stops in front of every token that spells no operator. -/
theorem stops_of_kind {q : Parser} {min : Precedence}
    (h : q.current.kind ∉ [.operator, .identifier]) : q.Stops min := by
  intro op hop
  exact absurd (q.kind_of_infixOperator? hop) h

end Parser

/-! ## Steps -/

/-- Whether a step succeeds with `a` and leaves the state `q`. -/
def Yields {α : Type} (step : Parse α) (p : Parser) (a : α) (q : Parser) : Prop :=
  step.run p = (.ok a, q)

variable {α β : Type} {p q r : Parser}

/-- Returning something yields that, and nothing is consumed. -/
theorem yields_pure {a b : α} : Yields (pure a) p b q ↔ a = b ∧ p = q := by
  constructor
  · intro h
    cases h
    exact ⟨rfl, rfl⟩
  · rintro ⟨rfl, rfl⟩
    rfl

/-- The second step runs where the first one has come to. -/
theorem run_bind (step : Parse α) (next : α → Parse β) (p : Parser) :
    (step >>= next).run p =
      match step.run p with
      | (.ok a, q) => (next a).run q
      | (.error e, q) => (.error e, q) := by
  have hrun : (step >>= next).run p =
      ExceptT.bindCont (m := StateM Parser) next (step.run p).1 (step.run p).2 := rfl
  rw [hrun]
  rcases step.run p with ⟨_ | a, q⟩ <;> rfl

/-- Two steps yield what the second one does behind the first. -/
theorem yields_bind {step : Parse α} {next : α → Parse β} {b : β} :
    Yields (step >>= next) p b r ↔ ∃ a q, Yields step p a q ∧ Yields (next a) q b r := by
  unfold Yields
  rw [run_bind]
  constructor
  · intro h
    rcases hstep : step.run p with ⟨_ | a, q⟩ <;> rw [hstep] at h
    · exact nomatch h
    · exact ⟨a, q, rfl, h⟩
  · rintro ⟨a, q, hstep, hnext⟩
    rw [hstep]
    exact hnext

/-- Reading the state yields it. -/
theorem yields_get {s : Parser} : Yields get p s q ↔ s = p ∧ q = p := by
  constructor
  · intro h
    cases h
    exact ⟨rfl, rfl⟩
  · rintro ⟨rfl, rfl⟩
    rfl

/-- An error yields nothing. -/
theorem not_yields_throw {e : ParseError} {a : α} : ¬ Yields (throw e) p a q := nofun

namespace Parse

/-- Nor does a syntax error. -/
theorem not_yields_fail {e : SyntaxError} {a : α} : ¬ Yields (fail e) p a q := nofun

/-- Nor does the error for an unexpected token. -/
theorem not_yields_unexpected {a : α} : ¬ Yields unexpected p a q := by
  intro h
  obtain ⟨s, p', -, h⟩ := yields_bind.mp h
  exact not_yields_fail h

/-- Advancing yields the current token. -/
theorem yields_advance {token : Token} :
    Yields advance p token q ↔ token = p.current ∧ q = p.advance := by
  constructor
  · intro h
    cases h
    exact ⟨rfl, rfl⟩
  · rintro ⟨rfl, rfl⟩
    rfl

/-- Expecting a kind yields the current token, which has to be of it. -/
theorem yields_expect {kind : TokenKind} {token : Token} :
    Yields (expect kind) p token q ↔ p.current.kind = kind ∧ token = p.current ∧ q = p.advance := by
  unfold expect
  rw [yields_bind]
  constructor
  · rintro ⟨s, p', hget, h⟩
    obtain ⟨rfl, rfl⟩ := yields_get.mp hget
    split at h
    · rename_i hkind
      exact ⟨hkind, yields_advance.mp h⟩
    · exact absurd h not_yields_unexpected
  · rintro ⟨hkind, h⟩
    exact ⟨p, p, yields_get.mpr ⟨rfl, rfl⟩, by rw [if_pos hkind]; exact yields_advance.mpr h⟩

/-- One more expression is open while the body runs. -/
theorem run_opening (body : Parse α) (p : Parser) :
    (opening body).run p =
      let opened := body.run { p with depth := p.depth + 1 }
      (opened.1, { opened.2 with depth := opened.2.depth - 1 }) := rfl

/-- An expression that is opened yields what its body does. -/
theorem yields_opening {body : Parse α} {a : α} :
    Yields (opening body) p a q ↔
      ∃ r, Yields body { p with depth := p.depth + 1 } a r ∧ q = { r with depth := r.depth - 1 } := by
  unfold Yields
  rw [run_opening]
  constructor
  · intro h
    rcases hbody : body.run { p with depth := p.depth + 1 } with ⟨result, r⟩
    rw [hbody] at h
    cases h
    exact ⟨r, rfl, rfl⟩
  · rintro ⟨r, hbody, rfl⟩
    rw [hbody]

/-- A node is one higher than its tallest part, and not higher than the limit. -/
theorem yields_nodeHeight {child height : Nat} :
    Yields (nodeHeight child) p height q ↔ child + 1 ≤ maxDepth ∧ height = child + 1 ∧ q = p := by
  unfold nodeHeight
  split
  · rename_i hdeep
    constructor
    · exact fun h => absurd h not_yields_fail
    · omega
  · rename_i hdeep
    rw [yields_pure]
    constructor
    · rintro ⟨rfl, rfl⟩
      exact ⟨by omega, rfl, rfl⟩
    · rintro ⟨-, rfl, rfl⟩
      exact ⟨rfl, rfl⟩

/-- A literal is read exactly if it has a value. -/
theorem yields_literal {value : Option Value} {tree : Tree} {height : Nat} :
    Yields (literal value) p (tree, height) q ↔
      ∃ v, value = some v ∧ tree = .literal v ∧ height = 1 ∧ q = p.advance := by
  unfold literal
  rw [yields_bind]
  constructor
  · rintro ⟨s, p', hget, h⟩
    obtain ⟨rfl, rfl⟩ := yields_get.mp hget
    cases value with
    | none => exact absurd h not_yields_fail
    | some v =>
      obtain ⟨token, p', hadvance, h⟩ := yields_bind.mp h
      obtain ⟨rfl, rfl⟩ := yields_advance.mp hadvance
      obtain ⟨hresult, rfl⟩ := yields_pure.mp h
      cases hresult
      exact ⟨v, rfl, rfl, rfl, rfl⟩
  · rintro ⟨v, rfl, rfl, rfl, rfl⟩
    exact ⟨p, p, yields_get.mpr ⟨rfl, rfl⟩, rfl⟩

/-! ## Readers of the parts of an expression

A reader takes the reader `inner` of whole expressions as an argument, and so do these lemmas. -/

variable {inner : Precedence → Parse Parsed} {min : Precedence} {tree : Tree} {height : Nat}

/-- An operand is read exactly where one may begin. -/
theorem yields_operand {operator : Token} {result : Parsed} :
    Yields (operand inner operator min) p result q ↔
      p.current.MayBegin ∧ Yields (inner min) p result q := by
  unfold operand Token.MayBegin
  rw [yields_bind]
  constructor
  · rintro ⟨s, p', hget, h⟩
    obtain ⟨rfl, rfl⟩ := yields_get.mp hget
    split at h
    all_goals first | exact absurd h not_yields_fail | skip
    rename_i h1 h2 h3
    exact ⟨⟨h1, h2, h3⟩, h⟩
  · rintro ⟨⟨h1, h2, h3⟩, h⟩
    refine ⟨p, p, yields_get.mpr ⟨rfl, rfl⟩, ?_⟩
    split
    · contradiction
    · contradiction
    · contradiction
    · exact h

/-- Arguments are read one by one as long as there is a comma. -/
theorem yields_arguments_succ {count : Nat} {trees : List Tree} :
    Yields (arguments inner (count + 1)) p (trees, height) q ↔
      ∃ first firstHeight r, Yields (inner .lowest) p (first, firstHeight) r ∧
        ((r.current.kind ≠ .comma ∧ trees = [first] ∧ height = firstHeight ∧ q = r) ∨
          (r.current.kind = .comma ∧ ∃ rest restHeight,
            Yields (arguments inner count) r.advance (rest, restHeight) q ∧
            trees = first :: rest ∧ height = max firstHeight restHeight)) := by
  simp only [arguments, yields_bind, yields_get]
  constructor
  · rintro ⟨⟨first, firstHeight⟩, r, hfirst, s, r', ⟨rfl, rfl⟩, h⟩
    refine ⟨first, firstHeight, _, hfirst, ?_⟩
    split at h
    · rename_i hcomma
      simp only [yields_bind, yields_advance, yields_pure] at h
      obtain ⟨_, _, ⟨-, rfl⟩, ⟨rest, restHeight⟩, _, hrest, hresult, rfl⟩ := h
      cases hresult
      exact .inr ⟨hcomma, rest, restHeight, hrest, rfl, rfl⟩
    · rename_i hcomma
      obtain ⟨hresult, rfl⟩ := yields_pure.mp h
      cases hresult
      exact .inl ⟨hcomma, rfl, rfl, rfl⟩
  · rintro ⟨first, firstHeight, r, hfirst, ⟨hcomma, rfl, rfl, rfl⟩ |
      ⟨hcomma, rest, restHeight, hrest, rfl, rfl⟩⟩
    · refine ⟨(first, height), q, hfirst, q, q, ⟨rfl, rfl⟩, ?_⟩
      rw [if_neg hcomma]
      exact yields_pure.mpr ⟨rfl, rfl⟩
    · refine ⟨(first, firstHeight), r, hfirst, r, r, ⟨rfl, rfl⟩, ?_⟩
      rw [if_pos hcomma]
      simp only [yields_bind, yields_advance, yields_pure]
      exact ⟨_, _, ⟨rfl, rfl⟩, (rest, restHeight), q, hrest, rfl, rfl⟩

/-- The end of a call of which the arguments have been read. -/
theorem yields_closing {function : Function} {trees : List Tree} {childHeight : Nat} :
    Yields (do
      let _ ← expect .rightParen
      match function.checkArity trees.length with
      | .error e => throw (.arity e)
      | .ok () => return (.call function trees, ← nodeHeight childHeight)) p (tree, height) q ↔
      p.current.kind = .rightParen ∧ function.arity.accepts trees.length = true ∧
        childHeight + 1 ≤ maxDepth ∧ tree = .call function trees ∧ height = childHeight + 1 ∧
        q = p.advance := by
  simp only [yields_bind, yields_expect]
  unfold Function.checkArity
  constructor
  · rintro ⟨_, _, ⟨hclose, -, rfl⟩, h⟩
    by_cases harity : function.arity.accepts trees.length = true
    · rw [if_pos harity] at h
      simp only [yields_bind, yields_nodeHeight, yields_pure] at h
      obtain ⟨_, _, ⟨hheight, rfl, rfl⟩, hresult, rfl⟩ := h
      cases hresult
      exact ⟨hclose, harity, hheight, rfl, rfl, rfl⟩
    · rw [if_neg harity] at h
      exact absurd h not_yields_throw
  · rintro ⟨hclose, harity, hheight, rfl, rfl, rfl⟩
    refine ⟨_, _, ⟨hclose, rfl, rfl⟩, ?_⟩
    rw [if_pos harity]
    simp only [yields_bind, yields_nodeHeight, yields_pure]
    exact ⟨_, _, ⟨hheight, rfl, rfl⟩, rfl, rfl⟩

/-- A call is read exactly as the grammar has it. -/
theorem yields_call :
    Yields (call inner) p (tree, height) q ↔
      ∃ function trees childHeight r, Function.find? p.current.text = some function ∧
        p.advance.current.kind = .leftParen ∧
        ((p.advance.advance.current.kind = .rightParen ∧ trees = [] ∧ childHeight = 0 ∧
            r = p.advance.advance) ∨
          (p.advance.advance.current.kind ≠ .rightParen ∧
            Yields (arguments inner (p.advance.advance.following.length + 1)) p.advance.advance
              (trees, childHeight) r)) ∧
        r.current.kind = .rightParen ∧ function.arity.accepts trees.length = true ∧
        childHeight + 1 ≤ maxDepth ∧ tree = .call function trees ∧ height = childHeight + 1 ∧
        q = r.advance := by
  unfold call
  simp only [yields_bind, yields_advance]
  constructor
  · rintro ⟨_, _, ⟨rfl, rfl⟩, h⟩
    split at h
    · exact absurd h not_yields_fail
    · rename_i function hfind
      rw [yields_bind] at h
      obtain ⟨_, _, hexpect, h⟩ := h
      obtain ⟨hopen, -, rfl⟩ := yields_expect.mp hexpect
      rw [yields_bind] at h
      obtain ⟨_, _, hget, h⟩ := h
      obtain ⟨rfl, rfl⟩ := yields_get.mp hget
      by_cases hempty : p.advance.advance.current.kind = .rightParen
      · rw [if_pos hempty, yields_bind] at h
        obtain ⟨_, _, hargs, h⟩ := h
        obtain ⟨rfl, rfl⟩ := yields_pure.mp hargs
        exact ⟨function, [], 0, _, hfind, hopen, .inl ⟨hempty, rfl, rfl, rfl⟩,
          yields_closing.mp h⟩
      · rw [if_neg hempty, yields_bind] at h
        obtain ⟨⟨trees, childHeight⟩, r, hargs, h⟩ := h
        exact ⟨function, trees, childHeight, r, hfind, hopen, .inr ⟨hempty, hargs⟩,
          yields_closing.mp h⟩
  · rintro ⟨function, trees, childHeight, r, hfind, hopen, hargs, h⟩
    refine ⟨_, _, ⟨rfl, rfl⟩, ?_⟩
    rw [hfind]
    refine yields_bind.mpr ⟨_, _, yields_expect.mpr ⟨hopen, rfl, rfl⟩, ?_⟩
    refine yields_bind.mpr ⟨_, _, yields_get.mpr ⟨rfl, rfl⟩, ?_⟩
    rcases hargs with ⟨hempty, rfl, rfl, rfl⟩ | ⟨hempty, hargs⟩
    · rw [if_pos hempty]
      exact yields_bind.mpr ⟨_, _, yields_pure.mpr ⟨rfl, rfl⟩, yields_closing.mpr h⟩
    · rw [if_neg hempty]
      exact yields_bind.mpr ⟨_, _, hargs, yields_closing.mpr h⟩

/-- So is a prefix operation. -/
theorem yields_prefixOperation :
    Yields (prefixOperation inner) p (tree, height) q ↔
      ∃ op operand operandHeight, matchToken p.current.text p.previous = some (.unary op) ∧
        p.advance.current.MayBegin ∧ Yields (inner .unary) p.advance (operand, operandHeight) q ∧
        operandHeight + 1 ≤ maxDepth ∧ tree = .unary op operand ∧ height = operandHeight + 1 := by
  unfold prefixOperation
  simp only [yields_bind, yields_get]
  constructor
  · rintro ⟨_, _, ⟨rfl, rfl⟩, h⟩
    split at h
    · rename_i op hop
      -- only unary operators stand before their operand
      obtain ⟨hop, hfixity⟩ := Option.filter_eq_some_iff.mp hop
      obtain ⟨op, rfl⟩ : ∃ u, op = .unary u := by
        cases op with
        | unary u => exact ⟨u, rfl⟩
        | binary b => exact nomatch hfixity
      simp only [yields_bind, yields_advance, yields_operand, Operator.build?, yields_nodeHeight,
        yields_pure] at h
      obtain ⟨_, _, ⟨rfl, rfl⟩, ⟨operand, operandHeight⟩, _, ⟨hbegin, hoperand⟩, _, _,
        ⟨hheight, rfl, rfl⟩, hresult, rfl⟩ := h
      cases hresult
      exact ⟨op, operand, operandHeight, hop, hbegin, hoperand, hheight, rfl, rfl⟩
    · split at h
      · exact absurd h not_yields_fail
      · exact absurd h not_yields_unexpected
  · rintro ⟨op, operand, operandHeight, hop, hbegin, hoperand, hheight, rfl, rfl⟩
    refine ⟨p, p, ⟨rfl, rfl⟩, ?_⟩
    have hfilter : (matchToken p.current.text p.previous).filter (·.fixity = .before) =
        some (.unary op) := by
      rw [hop]
      rfl
    rw [hfilter]
    simp only [yields_bind, yields_advance, yields_operand, Operator.build?, yields_nodeHeight,
      yields_pure]
    exact ⟨_, _, ⟨rfl, rfl⟩, (operand, operandHeight), q, ⟨hbegin, hoperand⟩, _, _,
      ⟨hheight, rfl, rfl⟩, rfl, rfl⟩

/-- What begins an operand decides which reader it is left to. -/
theorem yields_primary :
    Yields (primary inner) p (tree, height) q ↔
      (∃ value, p.current.value? = some value ∧ tree = .literal value ∧ height = 1 ∧
        q = p.advance) ∨
      (p.current.kind = .reference ∧ tree = .reference p.current.text ∧ height = 1 ∧
        q = p.advance) ∨
      (p.current.kind = .leftParen ∧ ∃ r, Yields (inner .lowest) p.advance (tree, height) r ∧
        r.current.kind = .rightParen ∧ q = r.advance) ∨
      (p.current.kind = .identifier ∧ p.startsCall = true ∧
        Yields (call inner) p (tree, height) q) ∨
      (p.current.kind ∈ [.operator, .identifier] ∧
        (p.current.kind = .identifier → p.startsCall = false) ∧
        Yields (prefixOperation inner) p (tree, height) q) := by
  unfold primary
  simp only [yields_bind, yields_get]
  constructor
  · rintro ⟨_, _, ⟨rfl, rfl⟩, h⟩
    split at h <;> rename_i hkind
    -- the five kinds of literals
    case h_1 | h_2 | h_3 | h_4 | h_5 =>
      obtain ⟨value, hvalue, hresult⟩ := yields_literal.mp h
      exact .inl ⟨value, by rw [Token.value?, hkind]; exact hvalue, hresult⟩
    case h_6 =>
      simp only [yields_bind, yields_advance, yields_pure] at h
      obtain ⟨_, _, ⟨-, rfl⟩, hresult, rfl⟩ := h
      cases hresult
      exact .inr (.inl ⟨hkind, rfl, rfl, rfl⟩)
    case h_7 =>
      simp only [yields_bind, yields_advance, yields_expect, yields_pure] at h
      obtain ⟨_, _, ⟨-, rfl⟩, _, r, hinner, _, _, ⟨hclose, -, rfl⟩, rfl, rfl⟩ := h
      exact .inr (.inr (.inl ⟨hkind, r, hinner, hclose, rfl⟩))
    case h_8 =>
      split at h <;> rename_i hcall
      · exact .inr (.inr (.inr (.inl ⟨hkind, hcall, h⟩)))
      · exact .inr (.inr (.inr (.inr
          ⟨by simp [hkind], fun _ => Bool.eq_false_iff.mpr hcall, h⟩)))
    case h_9 =>
      exact .inr (.inr (.inr (.inr
        ⟨by simp [hkind], fun hname => absurd (hkind.symm.trans hname) (by decide), h⟩)))
    case h_10 | h_11 | h_12 => exact absurd h not_yields_unexpected
  · intro h
    refine ⟨p, p, ⟨rfl, rfl⟩, ?_⟩
    rcases h with ⟨value, hvalue, hresult⟩ | ⟨hkind, rfl, rfl, rfl⟩ |
      ⟨hkind, r, hinner, hclose, rfl⟩ | ⟨hkind, hcall, h⟩ | ⟨hkind, hcall, h⟩
    · unfold Token.value? at hvalue
      split at hvalue
      case h_6 => cases hvalue
      all_goals
        rename_i hkind
        rw [hkind]
        exact yields_literal.mpr ⟨value, hvalue, hresult⟩
    · rw [hkind]
      simp only [yields_bind, yields_advance, yields_pure]
      exact ⟨_, _, ⟨rfl, rfl⟩, trivial, rfl⟩
    · rw [hkind]
      simp only [yields_bind, yields_advance, yields_expect, yields_pure]
      exact ⟨_, _, ⟨rfl, rfl⟩, (tree, height), r, hinner, _, _, ⟨hclose, rfl, rfl⟩, rfl, rfl⟩
    · rw [hkind]
      exact (if_pos hcall).symm ▸ h
    · rw [List.mem_cons, List.mem_singleton] at hkind
      rcases hkind with hkind | hkind <;> rw [hkind]
      · exact h
      · exact (if_neg (Bool.eq_false_iff.mp (hcall hkind))).symm ▸ h

/-- A chain ends in front of a token that is no infix operator or binds too loosely, and goes on
behind any other. -/
theorem yields_chainTail_succ {count : Nat} {left : Tree} {leftHeight : Nat} {result : Parsed} :
    Yields (chainTail inner min (count + 1) (left, leftHeight)) p result q ↔
      (p.Stops min ∧ result = (left, leftHeight) ∧ q = p) ∨
      ∃ op right rightHeight r, p.infixOperator? = some (.binary op) ∧
        min.rank ≤ op.precedence.rank ∧ p.advance.current.MayBegin ∧
        Yields (inner op.precedence.tighter) p.advance (right, rightHeight) r ∧
        max leftHeight rightHeight + 1 ≤ maxDepth ∧
        Yields (chainTail inner min count (.binary op left right, max leftHeight rightHeight + 1)) r
          result q := by
  simp only [chainTail, yields_bind, yields_get]
  constructor
  · rintro ⟨_, _, ⟨rfl, rfl⟩, h⟩
    split at h
    · rename_i hnone
      obtain ⟨rfl, rfl⟩ := yields_pure.mp h
      exact .inl ⟨fun op hop => (nomatch hnone.symm.trans hop), rfl, rfl⟩
    · rename_i op hop
      split at h
      · rename_i hloose
        obtain ⟨rfl, rfl⟩ := yields_pure.mp h
        -- the operator that stands there is the only one to look at
        refine .inl ⟨fun op' hop' => ?_, rfl, rfl⟩
        cases hop.symm.trans hop'
        exact hloose
      · rename_i htight
        obtain ⟨op, rfl⟩ := Parser.eq_binary_of_infixOperator? hop
        simp only [yields_bind, yields_advance, yields_operand, Operator.build?, yields_nodeHeight,
          Operator.associativity] at h
        obtain ⟨_, _, ⟨rfl, rfl⟩, ⟨right, rightHeight⟩, r, ⟨hbegin, hright⟩, _, _,
          ⟨hheight, rfl, rfl⟩, htail⟩ := h
        exact .inr ⟨op, right, rightHeight, _, hop, Nat.le_of_not_lt htight, hbegin, hright, hheight,
          htail⟩
  · rintro (⟨hloose, rfl, rfl⟩ | ⟨op, right, rightHeight, r, hop, htight, hbegin, hright, hheight,
      htail⟩)
    · refine ⟨q, q, ⟨rfl, rfl⟩, ?_⟩
      split
      · exact yields_pure.mpr ⟨rfl, rfl⟩
      · rename_i op hop
        rw [if_pos (hloose op hop)]
        exact yields_pure.mpr ⟨rfl, rfl⟩
    · refine ⟨p, p, ⟨rfl, rfl⟩, ?_⟩
      rw [hop]
      show Yields (if op.precedence.rank < min.rank then _ else _) p result q
      rw [if_neg (Nat.not_lt_of_le htight)]
      simp only [yields_bind, yields_advance, yields_operand, Operator.build?, yields_nodeHeight,
        Operator.associativity]
      exact ⟨_, _, ⟨rfl, rfl⟩, (right, rightHeight), r, ⟨hbegin, hright⟩, _, _, ⟨hheight, rfl, rfl⟩,
        htail⟩

/-- An expression is read as a chain, with one level fewer for its parts. -/
theorem yields_expression_succ {levels : Nat} {result : Parsed} :
    Yields (expression (levels + 1) min) p result q ↔
      p.depth < maxDepth ∧ ∃ left m r,
        Yields (primary (expression levels)) { p with depth := p.depth + 1 } left m ∧
        Yields (chainTail (expression levels) min (m.following.length + 1) left) m result r ∧
        q = { r with depth := r.depth - 1 } := by
  simp only [expression, chain, yields_bind, yields_get]
  constructor
  · rintro ⟨_, _, ⟨rfl, rfl⟩, h⟩
    split at h
    · exact absurd h not_yields_fail
    · rename_i hdepth
      simp only [yields_opening, yields_bind, yields_get] at h
      obtain ⟨r, ⟨left, m, hleft, _, _, ⟨rfl, rfl⟩, htail⟩, rfl⟩ := h
      exact ⟨Nat.lt_of_not_le hdepth, left, _, r, hleft, htail, rfl⟩
  · rintro ⟨hdepth, left, m, r, hleft, htail, rfl⟩
    refine ⟨p, p, ⟨rfl, rfl⟩, ?_⟩
    rw [if_neg (Nat.not_le_of_lt hdepth)]
    simp only [yields_opening, yields_bind, yields_get]
    exact ⟨r, ⟨left, m, hleft, m, m, ⟨rfl, rfl⟩, htail⟩, rfl⟩

end Parse

end Formula
