import Formula.Proofs.Tree.Safety

/-!
# Operators before and between operands

A sign such as `-` is looked up among the operators before an operand or among those between two, and
the token before it alone decides which (`fixityAfter`). The parser knows from the grammar: it asks
for a prefix operator only where an operand has to begin, and for an infix operator only behind one.
Both agree on every list of tokens, so the lookup finds operators of the fixity that is asked for, and
the filters on its result never reject any.

`Machine.Placed` is the invariant: wherever an infix operator may follow, an operand has ended with
the token consumed last, and wherever an operand has to begin, none has. In the middle of a call
nothing is looked up. Whatever consumes a token has looked at its kind before, which is what
`Placed.work` and `Placed.resume` go by; `Placed.step` is one step of the machine.
-/

namespace Formula

/-- What is found has the fixity that was asked for. -/
theorem Operator.filter_find? (text : String) (fixity : Fixity) :
    (find? text fixity).filter (·.fixity = fixity) = find? text fixity := by
  cases h : find? text fixity with
  | none => rfl
  | some op => exact Option.filter_some_pos (decide_eq_true (fixity_of_find? h))

/-! ## The token before -/

namespace Parser

variable {p : Parser}

/-- The token consumed last is the one that was current. -/
theorem previous_advance (hp : p.Ended) (h : p.current.kind ≠ .eof) :
    p.advance.previous = some p.current := by
  rw [previous, (reads_advance hp h).consumed]
  rfl

/-- Behind a token that ends an operand, one has ended. -/
theorem endsOperand_advance (hp : p.Ended) (h : p.current.endsOperand = true) :
    p.advance.previous.any Token.endsOperand = true := by
  have hkind : p.current.kind ≠ .eof := by
    intro heof
    rw [Token.endsOperand, heof] at h
    exact Bool.false_ne_true h
  rw [previous_advance hp hkind]
  exact h

/-- No operand ends with a token that has an operand behind it. -/
theorem endsOperand_advance_of_kind (hp : p.Ended)
    (h : p.current.kind ∈ [.leftParen, .comma, .operator, .identifier]) :
    p.advance.previous.any Token.endsOperand = false := by
  have hkind : p.current.kind ≠ .eof := by
    intro heof
    rw [heof] at h
    exact absurd h (by decide)
  rw [previous_advance hp hkind]
  exact Token.endsOperand_eq_false h

/-- Behind an operand the infix operators are looked up. -/
theorem fixityAfter_previous_of_any (h : p.previous.any Token.endsOperand = true) :
    fixityAfter p.previous = .between :=
  if_pos h

/-- Where none has ended the prefix operators are. -/
theorem fixityAfter_previous_of_not_any (h : p.previous.any Token.endsOperand = false) :
    fixityAfter p.previous = .before :=
  if_neg (Bool.eq_false_iff.mp h)

end Parser

namespace Machine

/-- Whether the token consumed last is one that what comes next can stand behind. -/
def Placed (m : Machine) : Prop :=
  match m.stage with
  | .started | .entering _ | .inside _ .primary | .inside _ (.firstArgument _) =>
    m.parser.previous.any Token.endsOperand = false
  | .inside _ (.tail _) | .left (.ok _) => m.parser.previous.any Token.endsOperand = true
  | .inside _ (.callee _) | .inside _ (.closing ..) | .left (.error _) | .finished _ => True

/-! ## Moves -/

section Moves

variable {p : Parser} {frames : List Frame} {min : Precedence}

/-- A tree grows behind an operand. -/
theorem Placed.grow (h : p.previous.any Token.endsOperand = true) (tree : Tree) (child : Nat) :
    (grow p frames min tree child).Placed := by
  unfold Machine.grow
  split
  · trivial
  · exact h

/-- An operand is asked for where none has ended. -/
theorem Placed.askOperand (h : p.previous.any Token.endsOperand = false) (pending : Pending)
    (operator : Token) (level : Precedence) :
    (askOperand p frames min pending operator level).Placed := by
  unfold Machine.askOperand
  split
  · trivial
  · trivial
  · trivial
  · exact h

/-- A literal leaves an operand behind it. -/
theorem Placed.literal (hp : p.Ended) (h : p.current.endsOperand = true) :
    (literal p frames min).Placed := by
  unfold Machine.literal
  split
  · trivial
  · exact Parser.endsOperand_advance hp h

/-- A call starts with nothing to be checked. -/
theorem Placed.call : (call p frames min).Placed := by
  unfold Machine.call
  split <;> trivial

/-- A prefix operator has its operand behind it. -/
theorem Placed.prefixOperation (hp : p.Ended) (h : p.current.kind ∈ [.operator, .identifier]) :
    (prefixOperation p frames min).Placed := by
  have hkind : p.current.kind ∈ [.leftParen, .comma, .operator, .identifier] :=
    List.mem_cons_of_mem _ (List.mem_cons_of_mem _ h)
  unfold Machine.prefixOperation
  split
  · exact Placed.askOperand (Parser.endsOperand_advance_of_kind hp hkind) _ _ _
  · split <;> trivial

/-- Whatever comes next in an open expression is placed. -/
theorem Placed.work {task : Task} (h : Placed ⟨p, frames, .inside min task⟩) (hp : p.Ended) :
    (work p frames min task).Placed := by
  unfold Machine.work
  cases task with
  | primary =>
    dsimp only
    cases hkind : p.current.kind with
    | number | decimalNumber | string | date | boolean =>
      exact Placed.literal hp (by rw [Token.endsOperand, hkind])
    | reference => exact Parser.endsOperand_advance hp (by rw [Token.endsOperand, hkind])
    | leftParen => exact Parser.endsOperand_advance_of_kind hp (by rw [hkind]; decide)
    | identifier =>
      dsimp only
      split
      · exact Placed.call
      · exact Placed.prefixOperation hp (by rw [hkind]; decide)
    | operator => exact Placed.prefixOperation hp (by rw [hkind]; decide)
    | rightParen | comma | eof => trivial
  | callee function =>
    dsimp only
    split
    · rename_i hkind
      exact Parser.endsOperand_advance_of_kind hp (by rw [hkind]; decide)
    · trivial
  | firstArgument function =>
    dsimp only
    split
    · trivial
    · exact h
  | closing function trees height =>
    dsimp only
    split
    · rename_i hkind
      split
      · trivial
      · exact Placed.grow (Parser.endsOperand_advance hp (by rw [Token.endsOperand, hkind])) _ _
    · trivial
  | tail left =>
    dsimp only
    split
    · exact h
    · rename_i op hop
      have hkind : p.current.kind ∈ [.leftParen, .comma, .operator, .identifier] :=
        List.mem_cons_of_mem _ (List.mem_cons_of_mem _ (p.kind_of_infixOperator? hop))
      split
      · exact h
      · exact Placed.askOperand (Parser.endsOperand_advance_of_kind hp hkind) _ _ _

/-- The token behind which an expression has been left ends the operand that it becomes part of. -/
theorem Placed.resume (h : p.previous.any Token.endsOperand = true) (hp : p.Ended)
    (pending : Pending) (result : Parsed) : (resume p frames min pending result).Placed := by
  obtain ⟨tree, height⟩ := result
  unfold Machine.resume
  cases pending with
  | group =>
    dsimp only
    split
    · rename_i hkind
      exact Parser.endsOperand_advance hp (by rw [Token.endsOperand, hkind])
    · trivial
  | argument function trees tallest =>
    dsimp only
    split
    · rename_i hkind
      exact Parser.endsOperand_advance_of_kind hp (by rw [hkind]; decide)
    · trivial
  | operand op token =>
    dsimp only
    split
    · trivial
    · exact Placed.grow h _ _
  | right op token left =>
    dsimp only
    split
    · trivial
    · split
      · trivial
      · exact h

end Moves

/-! ## Steps and runs -/

section Runs

variable {tokens : List Token} {m n : Machine}

/-- A step keeps the machine placed. -/
theorem Placed.step (h : m.Placed) (hp : m.parser.Ended) (hstep : m.step = some n) : n.Placed := by
  cases moves_of_step hstep with
  | refused | deep | finished | failed => trivial
  | begun | opened => exact h
  | worked => exact h.work hp
  | @resumed p frame frames result => exact Placed.resume h hp frame.pending result

/-- At the start no operand has ended. -/
theorem placed_start (tokens : List Token) : (start tokens).Placed := by
  obtain ⟨front, last, -, hwithEnd⟩ := Parser.withEnd_eq_concat tokens
  obtain ⟨p, hp, -, hconsumed, -⟩ := Parser.ofTokens_eq hwithEnd
  show (Parser.ofTokens tokens).previous.any Token.endsOperand = false
  rw [hp, Parser.previous, hconsumed]
  rfl

/-- The machine is placed in every run from the start. -/
theorem placed_of_steps (h : Steps (start tokens) m) : m.Placed := by
  induction h with
  | refl => exact placed_start tokens
  | tail hsteps hstep ih => exact ih.step ((sound_start tokens).steps hsteps).scans.ended hstep

/-- Where an operand has to begin, the machine reads what the parser reads there. -/
theorem Sound.runs_primary {min : Precedence} (h : m.Sound tokens)
    (hstage : m.stage = .inside min .primary) :
    Runs (Parse.primary (Parse.expression (maxDepth - m.parser.depth))) m.parser
      (fun left q => Steps m (goOn q m.frames min (.tail left)))
      (fun e q => Steps m (leave q m.frames (.error e))) := by
  obtain ⟨p, frames, stage⟩ := m
  cases hstage
  have hmirrors := mirrors_expression (maxDepth - p.depth)
  have hfollows : Follows frames _ _ p _ :=
    @Mirrors.follows_primary _ _ p frames min hmirrors h.scans.ended (by omega)
  exact hfollows.imp (fun _ _ hsteps => hsteps.1) (fun _ _ hsteps => hsteps)

/-- Behind an operand it goes on as the parser does. -/
theorem Sound.runs_chainTail {min : Precedence} {left : Parsed} (h : m.Sound tokens)
    (hstage : m.stage = .inside min (.tail left)) :
    Runs (Parse.chainTail (Parse.expression (maxDepth - m.parser.depth)) min
        (m.parser.following.length + 1) left) m.parser
      (fun result q => Steps m (leave q m.frames (.ok result)))
      (fun e q => Steps m (leave q m.frames (.error e))) := by
  obtain ⟨p, frames, stage⟩ := m
  cases hstage
  have hmirrors := mirrors_expression (maxDepth - p.depth)
  have hfollows : Follows frames _ _ p _ :=
    @Mirrors.follows_tail _ _ p frames min hmirrors _ left h.scans.ended (by omega)
      (Nat.lt_succ_self _)
  exact hfollows.imp (fun _ _ hsteps => hsteps.1) (fun _ _ hsteps => hsteps)

end Runs

/-- What agrees about the grammar and the token before, in a state of the machine. -/
structure Agrees (m : Machine) : Prop where
  /-- Where an operand has to begin, none ends with the token before, if there is one; so only prefix
  operators are looked up, and the filter on what is found rejects none. -/
  before : ∀ min, m.stage = .inside min .primary →
    (∀ token, m.parser.previous = some token → token.endsOperand = false) ∧
    ∀ text, matchToken text m.parser.previous = Operator.find? text .before ∧
      (matchToken text m.parser.previous).filter (·.fixity = .before) =
        matchToken text m.parser.previous
  /-- Where an infix operator may follow, an operand ends with the token before; so only infix
  operators are looked up, and the filter on what is found rejects none. -/
  between : ∀ min left, m.stage = .inside min (.tail left) →
    (∃ token, m.parser.previous = some token ∧ token.endsOperand = true) ∧
    ∀ text, matchToken text m.parser.previous = Operator.find? text .between ∧
      (matchToken text m.parser.previous).filter (·.fixity = .between) =
        matchToken text m.parser.previous
  /-- The parser reads an operand there, and goes on behind it. -/
  primary : ∀ min, m.stage = .inside min .primary →
    Runs (Parse.primary (Parse.expression (maxDepth - m.parser.depth))) m.parser
      (fun left q => Steps m (goOn q m.frames min (.tail left)))
      (fun e q => Steps m (leave q m.frames (.error e)))
  /-- The parser reads infix operators and their right operands there. -/
  tail : ∀ min left, m.stage = .inside min (.tail left) →
    Runs (Parse.chainTail (Parse.expression (maxDepth - m.parser.depth)) min
        (m.parser.following.length + 1) left) m.parser
      (fun result q => Steps m (leave q m.frames (.ok result)))
      (fun e q => Steps m (leave q m.frames (.error e)))

/-- Where the machine is placed, it looks up the operators that can stand there. -/
theorem Placed.agrees {tokens : List Token} {m : Machine} (h : m.Placed) (hsound : m.Sound tokens) :
    m.Agrees where
  before := by
    intro min hstage
    have hprevious : m.parser.previous.any Token.endsOperand = false := by
      rw [Placed, hstage] at h
      exact h
    refine ⟨fun token htoken => ?_, fun text => ?_⟩
    · rw [htoken] at hprevious
      exact hprevious
    · rw [matchToken, Parser.fixityAfter_previous_of_not_any hprevious]
      exact ⟨rfl, Operator.filter_find? text .before⟩
  between := by
    intro min left hstage
    have hprevious : m.parser.previous.any Token.endsOperand = true := by
      rw [Placed, hstage] at h
      exact h
    refine ⟨(Option.any_eq_true _ _).mp hprevious, fun text => ?_⟩
    rw [matchToken, Parser.fixityAfter_previous_of_any hprevious]
    exact ⟨rfl, Operator.filter_find? text .between⟩
  primary _ := hsound.runs_primary
  tail _ _ := hsound.runs_chainTail

/-- Whatever the tokens are, in every state on the way of the parser to its outcome the token before
tells the fixity that the grammar asks for. -/
theorem fixity_agrees (tokens : List Token) :
    ∃ p, Steps (start tokens) ⟨p, [], .finished (Tree.ofTokens tokens)⟩ ∧
      ∀ m, Steps (start tokens) m → m.Agrees ∧
        Steps m ⟨p, [], .finished (Tree.ofTokens tokens)⟩ := by
  obtain ⟨p, hp⟩ := exists_finished tokens
  refine ⟨p, hp, fun m hm => ⟨?_, hp.to_finished hm⟩⟩
  exact (placed_of_steps hm).agrees ((sound_start tokens).steps hm)

/-- The same sign twice: behind `[a]` it is found to be a subtraction, and behind that a negation. -/
theorem fixity_agrees_signs :
    let a : Token := ⟨.reference, "a", 0⟩
    let minus : Token := ⟨.operator, "-", 4⟩
    let again : Token := ⟨.operator, "-", 5⟩
    let b : Token := ⟨.reference, "b", 6⟩
    let tokens := [a, minus, again, b, Token.eof 9]
    let behind : Machine := ⟨⟨[a], minus, [again, b, Token.eof 9], 1⟩, [],
      .inside .lowest (.tail (.reference "a", 1))⟩
    let inFront : Machine := ⟨⟨[minus, a], again, [b, Token.eof 9], 2⟩,
      [⟨.lowest, .right (.binary .subtract) minus (.reference "a", 1)⟩],
      .inside .multiplicative .primary⟩
    Steps (start tokens) behind ∧
      matchToken "-" behind.parser.previous = some (.binary .subtract) ∧
      Steps (start tokens) inFront ∧
      matchToken "-" inFront.parser.previous = some (.unary .negate) := by
  intro a minus again b tokens behind inFront
  obtain ⟨p, -, hall⟩ := fixity_agrees tokens
  have hbehind : Steps (start tokens) behind := .head rfl (.head rfl (.single rfl))
  obtain ⟨-, hbetween⟩ := (hall behind hbehind).1.between .lowest (.reference "a", 1) rfl
  obtain ⟨hlookup, hfilter⟩ := hbetween "-"
  have hsubtract : matchToken "-" behind.parser.previous = some (.binary .subtract) :=
    hlookup.trans (@Operator.find?_of_mem_spellings (.binary .subtract) "-" List.mem_cons_self)
  have hfound : behind.parser.infixOperator? = some (.binary .subtract) := hfilter.trans hsubtract
  have hstep : behind.step = some ⟨⟨[minus, a], again, [b, Token.eof 9], 1⟩, inFront.frames,
      .entering .multiplicative⟩ := by
    show some (work behind.parser [] .lowest (.tail (.reference "a", 1))) = _
    unfold work
    dsimp only
    rw [hfound]
    rfl
  have hinFront : Steps (start tokens) inFront := (hbehind.tail hstep).tail rfl
  obtain ⟨-, hbefore⟩ := (hall inFront hinFront).1.before .multiplicative rfl
  exact ⟨hbehind, hsubtract, hinFront, (hbefore "-").1.trans
    (@Operator.find?_of_mem_spellings (.unary .negate) "-" List.mem_cons_self)⟩

end Machine

end Formula
