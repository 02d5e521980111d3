import Formula.Proofs.Tree.Parsing
import Mathlib.Logic.Relation

/-!
# The parser as a machine

The readers of the parser call one another, and each carries an amount of fuel. `Machine` is the same
parser without fuel and one step at a time: the calls that have not returned yet are frames of a
stack, and a step looks at one token and consumes at most one. The machine goes through the states
that the parser goes through, so that what holds at every step can be said of its runs. `Moves` has
the steps one by one, and `moves_of_step` is that there are no others.

`Follows` says that the machine does what a step of the parser does, with one lemma for each reader.
`follows_arguments` and `follows_tail` are about the two loops: every round consumes a token, and the
fuel exceeds the number of tokens that are left. `Mirrors` says it of a reader of whole expressions,
`mirrors_expression` ties the knot, and `exists_finished` is the whole run.
-/

namespace Formula

/-! ## The machine -/

/-- What becomes of an expression when it has been read. -/
inductive Pending where
  /-- It is the inside of a group. -/
  | group
  /-- It is an argument of a call, behind others of which the tallest has the given height. -/
  | argument (function : Function) (trees : List Tree) (height : Nat)
  /-- It is the operand of a prefix operator. -/
  | operand (op : Operator) (token : Token)
  /-- It is the right operand of an infix operator. -/
  | right (op : Operator) (token : Token) (left : Parsed)

/-- The operator that is applied to an expression when it has been read, with all its operands. -/
def Pending.application? : Pending → Tree → Option (Operator × List Tree)
  | operand op _, tree => some (op, [tree])
  | right op _ (left, _), tree => some (op, [left, tree])
  | group, _ | argument .., _ => none

/-- What comes next in an open expression. -/
inductive Task where
  /-- A literal, reference, group, call or prefix operation. -/
  | primary
  /-- The opening parenthesis of a call. -/
  | callee (function : Function)
  /-- The first argument of a call, or the closing parenthesis if there is none. -/
  | firstArgument (function : Function)
  /-- The closing parenthesis of a call. -/
  | closing (function : Function) (trees : List Tree) (height : Nat)
  /-- What follows a left operand. -/
  | tail (left : Parsed)

/-- How far the machine is. -/
inductive Stage where
  | started
  /-- An expression is asked for, and is about to be opened. -/
  | entering (min : Precedence)
  | inside (min : Precedence) (task : Task)
  /-- An expression has been left, with what it came to. -/
  | left (result : Except ParseError Parsed)
  | finished (outcome : Except ParseError Tree)

/-- An open expression that waits for another one, which was asked for inside of it. -/
structure Frame where
  min : Precedence
  pending : Pending

/-- The parser between two steps. The frames are those of the expressions that wait, the innermost
first. -/
structure Machine where
  parser : Parser
  frames : List Frame
  stage : Stage

namespace Machine

section Moves

variable (p : Parser) (frames : List Frame) (min : Precedence)

/-- Leaves the innermost expression. -/
def leave (result : Except ParseError Parsed) : Machine :=
  ⟨{ p with depth := p.depth - 1 }, frames, .left result⟩

/-- Leaves it with a syntax error. -/
def fail (e : SyntaxError) : Machine := leave p frames (.error (.structural e))

/-- Goes on inside of it. -/
def goOn (task : Task) : Machine := ⟨p, frames, .inside min task⟩

/-- Asks for another expression inside of it. -/
def ask (pending : Pending) (level : Precedence) : Machine :=
  ⟨p, ⟨min, pending⟩ :: frames, .entering level⟩

/-- Goes on behind a node over parts of which the tallest has height `child`. -/
def grow (tree : Tree) (child : Nat) : Machine :=
  if child + 1 > maxDepth then fail p frames (.tooDeep maxDepth)
  else goOn p frames min (.tail (tree, child + 1))

/-- Asks for the operand of an operator that was just consumed. -/
def askOperand (pending : Pending) (operator : Token) (level : Precedence) : Machine :=
  match p.current.kind with
  | .eof | .rightParen | .comma => fail p frames (Parse.missingOperand operator)
  | _ => ask p frames min pending level

/-- Consumes a literal. -/
def literal : Machine :=
  match p.current.value? with
  | none => fail p frames (.invalidLiteral p.current.text p.current.position)
  | some value => goOn p.advance frames min (.tail (.literal value, 1))

/-- Consumes the name of a function. -/
def call : Machine :=
  match Function.find? p.current.text with
  | none => fail p.advance frames (.unknownFunction p.current.text p.current.position)
  | some function => goOn p.advance frames min (.callee function)

/-- Consumes a prefix operator. -/
def prefixOperation : Machine :=
  match (matchToken p.current.text p.previous).filter (·.fixity = .before) with
  | some op => askOperand p.advance frames min (.operand op p.current) p.current .unary
  | none =>
    if p.current.kind = .operator || Operator.isSpelling p.current.text then
      fail p frames (Parse.missingOperand p.current)
    else fail p frames p.unexpected

/-- One step inside of an open expression. -/
def work : Task → Machine
  | .primary =>
    match p.current.kind with
    | .number | .decimalNumber | .string | .date | .boolean => literal p frames min
    | .reference => goOn p.advance frames min (.tail (.reference p.current.text, 1))
    | .leftParen => ask p.advance frames min .group .lowest
    | .identifier => if p.startsCall then call p frames min else prefixOperation p frames min
    | .operator => prefixOperation p frames min
    | .rightParen | .comma | .eof => fail p frames p.unexpected
  | .callee function =>
    if p.current.kind = .leftParen then goOn p.advance frames min (.firstArgument function)
    else fail p frames p.unexpected
  | .firstArgument function =>
    if p.current.kind = .rightParen then goOn p frames min (.closing function [] 0)
    else ask p frames min (.argument function [] 0) .lowest
  | .closing function trees height =>
    if p.current.kind = .rightParen then
      match function.checkArity trees.length with
      | .error e => leave p.advance frames (.error (.arity e))
      | .ok () => grow p.advance frames min (.call function trees) height
    else fail p frames p.unexpected
  | .tail left =>
    match p.infixOperator? with
    | none => leave p frames (.ok left)
    | some op =>
      if op.precedence.rank < min.rank then leave p frames (.ok left)
      else
        let tighter := match op.associativity with
          | .left => op.precedence.tighter
          | .right => op.precedence
        askOperand p.advance frames min (.right op p.current left) p.current tighter

/-- One step with an expression that was asked for. -/
def resume : Pending → Parsed → Machine
  | .group, result =>
    if p.current.kind = .rightParen then goOn p.advance frames min (.tail result)
    else fail p frames p.unexpected
  | .argument function trees height, (tree, treeHeight) =>
    if p.current.kind = .comma then
      ask p.advance frames min
        (.argument function (trees ++ [tree]) (max height treeHeight)) .lowest
    else goOn p frames min (.closing function (trees ++ [tree]) (max height treeHeight))
  | .operand op token, (tree, height) =>
    match op.build? [tree] with
    | none => fail p frames (Parse.missingOperand token)
    | some tree => grow p frames min tree height
  | .right op token (left, leftHeight), (tree, height) =>
    if max leftHeight height + 1 > maxDepth then fail p frames (.tooDeep maxDepth)
    else match op.build? [left, tree] with
      | none => fail p frames (Parse.missingOperand token)
      | some tree => goOn p frames min (.tail (tree, max leftHeight height + 1))

/-- The end of a run, with what the outermost expression came to. -/
def finish : Except ParseError Parsed → Except ParseError Tree
  | .error e => .error e
  | .ok (tree, _) =>
    if p.current.kind = .eof then .ok tree else .error (.structural p.unexpected)

end Moves

/-- The machine in front of a list of tokens. -/
def start (tokens : List Token) : Machine := ⟨Parser.ofTokens tokens, [], .started⟩

/-- One step, unless the machine is at its end. -/
def step : Machine → Option Machine
  | ⟨p, frames, .started⟩ =>
    let expected := Parse.countKind .leftParen p.tokens
    let found := Parse.countKind .rightParen p.tokens
    if expected ≠ found then
      some ⟨p, frames, .finished (.error (.structural (.parenthesisMismatch expected found)))⟩
    else some ⟨p, frames, .entering .lowest⟩
  | ⟨p, frames, .entering min⟩ =>
    if p.depth ≥ maxDepth then some ⟨p, frames, .left (.error (.structural (.tooDeep maxDepth)))⟩
    else some (goOn { p with depth := p.depth + 1 } frames min .primary)
  | ⟨p, frames, .inside min task⟩ => some (work p frames min task)
  | ⟨p, [], .left result⟩ => some ⟨p, [], .finished (finish p result)⟩
  | ⟨p, _ :: frames, .left (.error e)⟩ => some (leave p frames (.error e))
  | ⟨p, frame :: frames, .left (.ok result)⟩ =>
    some (resume p frames frame.min frame.pending result)
  | ⟨_, _, .finished _⟩ => none

/-- Whether some steps take the one machine to the other. -/
def Steps (m n : Machine) : Prop := Relation.ReflTransGen (fun m n => m.step = some n) m n

/-- An expression is refused at the limit. -/
theorem step_of_deep {p : Parser} (h : p.depth ≥ maxDepth) (frames : List Frame) (min : Precedence) :
    (⟨p, frames, .entering min⟩ : Machine).step =
      some ⟨p, frames, .left (.error (.structural (.tooDeep maxDepth)))⟩ :=
  if_pos h

/-- Below the limit it is opened. -/
theorem step_of_room {p : Parser} (h : ¬p.depth ≥ maxDepth) (frames : List Frame) (min : Precedence) :
    (⟨p, frames, .entering min⟩ : Machine).step =
      some (goOn { p with depth := p.depth + 1 } frames min .primary) :=
  if_neg h

/-- Where a step takes the machine from each stage. -/
inductive Moves : Machine → Machine → Prop where
  | refused {p : Parser} {frames : List Frame}
      (h : Parse.countKind .leftParen p.tokens ≠ Parse.countKind .rightParen p.tokens) :
      Moves ⟨p, frames, .started⟩ ⟨p, frames, .finished (.error (.structural
        (.parenthesisMismatch (Parse.countKind .leftParen p.tokens)
          (Parse.countKind .rightParen p.tokens))))⟩
  | begun {p : Parser} {frames : List Frame}
      (h : Parse.countKind .leftParen p.tokens = Parse.countKind .rightParen p.tokens) :
      Moves ⟨p, frames, .started⟩ ⟨p, frames, .entering .lowest⟩
  | deep {p : Parser} {frames : List Frame} {min : Precedence} (h : p.depth ≥ maxDepth) :
      Moves ⟨p, frames, .entering min⟩ ⟨p, frames, .left (.error (.structural (.tooDeep maxDepth)))⟩
  | opened {p : Parser} {frames : List Frame} {min : Precedence} (h : ¬p.depth ≥ maxDepth) :
      Moves ⟨p, frames, .entering min⟩ (goOn { p with depth := p.depth + 1 } frames min .primary)
  | worked {p : Parser} {frames : List Frame} {min : Precedence} {task : Task} :
      Moves ⟨p, frames, .inside min task⟩ (work p frames min task)
  | finished {p : Parser} {result : Except ParseError Parsed} :
      Moves ⟨p, [], .left result⟩ ⟨p, [], .finished (finish p result)⟩
  | failed {p : Parser} {frame : Frame} {frames : List Frame} {e : ParseError} :
      Moves ⟨p, frame :: frames, .left (.error e)⟩ (leave p frames (.error e))
  | resumed {p : Parser} {frame : Frame} {frames : List Frame} {result : Parsed} :
      Moves ⟨p, frame :: frames, .left (.ok result)⟩
        (resume p frames frame.min frame.pending result)

/-- No step goes anywhere else. -/
theorem moves_of_step {m n : Machine} (h : m.step = some n) : Moves m n := by
  obtain ⟨p, frames, stage⟩ := m
  cases stage with
  | started =>
    unfold step at h
    dsimp only at h
    split at h
    · rename_i hcount
      cases h
      exact .refused hcount
    · rename_i hcount
      cases h
      exact .begun (not_not.mp hcount)
  | entering min =>
    by_cases hdeep : p.depth ≥ maxDepth
    · rw [step_of_deep hdeep] at h
      cases h
      exact .deep hdeep
    · rw [step_of_room hdeep] at h
      cases h
      exact .opened hdeep
  | inside min task =>
    cases h
    exact .worked
  | left result =>
    cases frames with
    | nil =>
      have hn : n = ⟨p, [], .finished (finish p result)⟩ := by
        cases result <;> exact (Option.some.inj h).symm
      exact hn ▸ .finished
    | cons frame frames =>
      cases result with
      | error e =>
        cases h
        exact .failed
      | ok result =>
        cases h
        exact .resumed
  | finished outcome => exact nomatch h

/-! ## Following the parser -/

section Following

variable {α β : Type} {p : Parser} {frames : List Frame} {min : Precedence} {m n : Machine}

/-- Whether the machine does what a step of the parser inside of an open expression does: it comes to
a machine for what the step returns, or leaves the expression with the error of the step. -/
def Follows (frames : List Frame) (m : Machine) (step : Parse α) (p : Parser)
    (next : α → Parser → Machine) : Prop :=
  Runs step p (fun a q => Steps m (next a q) ∧ ∃ tokens, p.Reads tokens q)
    (fun e q => Steps m (leave q frames (.error e)))

variable {next : α → Parser → Machine} {last : β → Parser → Machine}

/-- The machine that is there already follows a step that does nothing. -/
theorem follows_pure {a : α} (h : m = next a p) : Follows frames m (pure a) p next := by
  subst h
  exact ⟨.refl, [], ⟨rfl, rfl, rfl⟩⟩

/-- The machine that leaves with an error follows a step that fails with it. -/
theorem follows_fail {e : SyntaxError} : Follows frames (fail p frames e) (Parse.fail e) p next :=
  Relation.ReflTransGen.refl

/-- So it does at an unexpected token. -/
theorem follows_unexpected : Follows frames (fail p frames p.unexpected) Parse.unexpected p next :=
  Relation.ReflTransGen.refl

/-- A machine follows whatever the next one follows. -/
theorem Follows.head {step : Parse α} (hstep : m.step = some n) (h : Follows frames n step p next) :
    Follows frames m step p next :=
  h.imp (fun _ _ ⟨hsteps, hreads⟩ => ⟨hsteps.head hstep, hreads⟩)
    (fun _ _ hsteps => hsteps.head hstep)

/-- Machines follow steps one after the other. -/
theorem Follows.bind {step : Parse α} {rest : α → Parse β} (h : Follows frames m step p next)
    (hrest : ∀ a q tokens, p.Reads tokens q → Follows frames (next a q) (rest a) q last) :
    Follows frames m (step >>= rest) p last := by
  refine runs_bind h fun a q ⟨hsteps, tokens, hreads⟩ => ?_
  refine (hrest a q tokens hreads).imp (fun b r ⟨hsteps', others, hreads'⟩ => ?_)
    (fun e r hsteps' => hsteps.trans hsteps')
  exact ⟨hsteps.trans hsteps', _, hreads.trans hreads'⟩

/-- The machine consumes a token together with what it does next. -/
theorem follows_advance {rest : Token → Parse α} (hp : p.Ended) (hkind : p.current.kind ≠ .eof)
    (h : Follows frames m (rest p.current) p.advance next) :
    Follows frames m (Parse.advance >>= rest) p next := by
  refine (show Runs (rest p.current) p.advance _ _ from h).imp
    (fun a q ⟨hsteps, tokens, hreads⟩ => ?_) (fun _ _ hsteps => hsteps)
  exact ⟨hsteps, _, (Parser.reads_advance hp hkind).trans hreads⟩

/-- Reading the state takes no step of the machine. -/
theorem follows_get {rest : Parser → Parse α} (h : Follows frames m (rest p) p next) :
    Follows frames m (get >>= rest) p next := h

/-- The machine checks the kind of a token and consumes it together with what it does next. -/
theorem follows_expect {kind : TokenKind} {rest : Token → Parse α} (hp : p.Ended)
    (hkind : kind ≠ .eof)
    (hrest : p.current.kind = kind → Follows frames n (rest p.current) p.advance next) :
    Follows frames (if p.current.kind = kind then n else fail p frames p.unexpected)
      (Parse.expect kind >>= rest) p next := by
  have hrun : (Parse.expect kind).run p =
      (if p.current.kind = kind then Parse.advance else Parse.unexpected).run p := rfl
  unfold Follows Runs
  rw [run_bind, hrun]
  by_cases h : p.current.kind = kind
  · rw [if_pos h, if_pos h, ← run_bind]
    exact follows_advance hp (h.symm ▸ hkind) (hrest h)
  · rw [if_neg h, if_neg h]
    exact Relation.ReflTransGen.refl

/-- Growing a tree follows the check of its height. -/
theorem follows_grow (tree : Tree) (child : Nat) :
    Follows frames (grow p frames min tree child)
      (do return (tree, ← Parse.nodeHeight child)) p
      (fun result q => goOn q frames min (.tail result)) := by
  unfold grow Parse.nodeHeight
  split
  · exact follows_fail
  · exact follows_pure rfl

end Following

/-! ## Readers -/

/-- Whether the machine does what a reader of expressions does, if there are enough levels: it opens
the expression and comes back with the result, to the same frames. -/
def Mirrors (levels : Nat) (inner : Precedence → Parse Parsed) : Prop :=
  ∀ ⦃level p⦄ frames, p.Ended → maxDepth ≤ levels + p.depth →
    Runs (inner level) p
      (fun a q => Steps ⟨p, frames, .entering level⟩ ⟨q, frames, .left (.ok a)⟩ ∧
        ∃ tokens, p.Reads tokens q)
      (fun e q => Steps ⟨p, frames, .entering level⟩ ⟨q, frames, .left (.error e)⟩)

section Readers

variable {levels : Nat} {inner : Precedence → Parse Parsed} {p : Parser} {frames : List Frame}
  {min level : Precedence} {pending : Pending}

/-- Asking for an expression follows reading it. -/
theorem Mirrors.follows_ask (h : Mirrors levels inner) (hp : p.Ended)
    (hdepth : maxDepth ≤ levels + p.depth) :
    Follows frames (ask p frames min pending level) (inner level) p
      (fun result q => resume q frames min pending result) :=
  (h (⟨min, pending⟩ :: frames) hp hdepth).imp
    (fun _ _ ⟨hsteps, hreads⟩ => ⟨hsteps.tail rfl, hreads⟩) (fun _ _ hsteps => hsteps.tail rfl)

/-- Asking for an operand follows reading it, unless it is missing. -/
theorem Mirrors.follows_askOperand (h : Mirrors levels inner) (hp : p.Ended)
    (hdepth : maxDepth ≤ levels + p.depth) (operator : Token) :
    Follows frames (askOperand p frames min pending operator level)
      (Parse.operand inner operator level) p
      (fun result q => resume q frames min pending result) := by
  apply follows_get
  unfold askOperand
  cases p.current.kind with
  | eof | rightParen | comma => exact follows_fail
  | _ => exact h.follows_ask hp hdepth

/-- Closing a call follows the check of its arguments. -/
theorem follows_closing {function : Function} {trees : List Tree} {height : Nat} (hp : p.Ended) :
    Follows frames (goOn p frames min (.closing function trees height)) (do
      let _ ← Parse.expect .rightParen
      match function.checkArity trees.length with
      | .error e => throw (.arity e)
      | .ok () => return (.call function trees, ← Parse.nodeHeight height) : Parse Parsed) p
      (fun result q => goOn q frames min (.tail result)) := by
  refine Follows.head rfl (follows_expect hp (by decide) fun _ => ?_)
  cases function.checkArity trees.length with
  | error e => exact Relation.ReflTransGen.refl
  | ok _ => exact follows_grow _ _

/-- The loop over the arguments of a call. -/
theorem Mirrors.follows_arguments (h : Mirrors levels inner) {function : Function} {count : Nat}
    (trees : List Tree) (height : Nat) (hp : p.Ended) (hdepth : maxDepth ≤ levels + p.depth)
    (hcount : p.following.length < count) :
    Follows frames (ask p frames min (.argument function trees height) .lowest)
      (Parse.arguments inner count) p (fun result q =>
        goOn q frames min (.closing function (trees ++ result.1) (max height result.2))) := by
  induction count generalizing trees height p with
  | zero => exact absurd hcount (Nat.not_lt_zero _)
  | succ count ih =>
    apply (h.follows_ask hp hdepth).bind
    rintro ⟨tree, treeHeight⟩ q tokens hreads
    apply follows_get
    unfold resume
    dsimp only
    by_cases hcomma : q.current.kind = .comma
    · rw [if_pos hcomma, if_pos hcomma]
      have hcommaReads := Parser.reads_advance (hreads.ended hp) (by rw [hcomma]; decide)
      have hall := hreads.trans hcommaReads
      have hfewer : q.advance.following.length < count := by
        have hlength := hall.length_following
        rw [List.length_append, List.length_singleton] at hlength
        omega
      refine follows_advance (hreads.ended hp) (by rw [hcomma]; decide) ?_
      apply (ih _ _ (hall.ended hp) (hall.depth.symm ▸ hdepth) hfewer).bind
      rintro ⟨rest, restHeight⟩ r others -
      apply follows_pure
      rw [List.append_assoc, Nat.max_assoc]
      rfl
    · rw [if_neg hcomma, if_neg hcomma]
      exact follows_pure rfl

/-- A call is followed from its name to its closing parenthesis. -/
theorem Mirrors.follows_call (h : Mirrors levels inner) (hp : p.Ended)
    (hdepth : maxDepth ≤ levels + p.depth) (hname : p.current.kind = .identifier) :
    Follows frames (call p frames min) (Parse.call inner) p
      (fun result q => goOn q frames min (.tail result)) := by
  have hnotEof : p.current.kind ≠ .eof := by rw [hname]; decide
  have hreads := Parser.reads_advance hp hnotEof
  refine follows_advance hp hnotEof ?_
  unfold call
  cases Function.find? p.current.text with
  | none => exact follows_fail
  | some function =>
    refine Follows.head rfl (follows_expect (hreads.ended hp) (by decide) fun hleft => ?_)
    have hleftReads := Parser.reads_advance (hreads.ended hp) (by rw [hleft]; decide)
    have hall := hreads.trans hleftReads
    apply follows_get
    refine Follows.head rfl ?_
    unfold work
    dsimp only
    by_cases hempty : p.advance.advance.current.kind = .rightParen
    · rw [if_pos hempty, if_pos hempty]
      exact follows_closing (hall.ended hp)
    · rw [if_neg hempty, if_neg hempty]
      apply (h.follows_arguments [] 0 (hall.ended hp) (hall.depth.symm ▸ hdepth)
        (Nat.lt_succ_self _)).bind
      rintro ⟨trees, height⟩ q tokens hreads'
      rw [List.nil_append, Nat.zero_max]
      exact follows_closing (hreads'.ended (hall.ended hp))

/-- A prefix operation is followed from its operator to its operand. -/
theorem Mirrors.follows_prefixOperation (h : Mirrors levels inner) (hp : p.Ended)
    (hdepth : maxDepth ≤ levels + p.depth) (hkind : p.current.kind ∈ [.operator, .identifier]) :
    Follows frames (prefixOperation p frames min) (Parse.prefixOperation inner) p
      (fun result q => goOn q frames min (.tail result)) := by
  have hnotEof : p.current.kind ≠ .eof := by
    intro heof
    rw [heof] at hkind
    exact absurd hkind (by decide)
  have hreads := Parser.reads_advance hp hnotEof
  apply follows_get
  unfold prefixOperation
  cases (matchToken p.current.text p.previous).filter (·.fixity = .before) with
  | some op =>
    refine follows_advance hp hnotEof ?_
    apply (h.follows_askOperand (hreads.ended hp) (hreads.depth.symm ▸ hdepth) p.current).bind
    rintro ⟨tree, height⟩ q tokens -
    unfold resume
    dsimp only
    cases op.build? [tree] with
    | none => exact follows_fail
    | some tree => exact follows_grow _ _
  | none =>
    dsimp only
    split
    · exact follows_fail
    · exact follows_unexpected

/-- So is every other operand. -/
theorem Mirrors.follows_primary (h : Mirrors levels inner) (hp : p.Ended)
    (hdepth : maxDepth ≤ levels + p.depth) :
    Follows frames (goOn p frames min .primary) (Parse.primary inner) p
      (fun result q => goOn q frames min (.tail result)) := by
  have hliteral : ∀ value, p.current.value? = value → p.current.kind ≠ .eof →
      Follows frames (literal p frames min) (Parse.literal value) p
        (fun result q => goOn q frames min (.tail result)) := by
    intro value hvalue hkind
    apply follows_get
    unfold literal
    rw [hvalue]
    cases value with
    | none => exact follows_fail
    | some value => exact follows_advance hp hkind (follows_pure rfl)
  refine Follows.head rfl ?_
  apply follows_get
  unfold work
  dsimp only
  cases hkind : p.current.kind with
  | number | decimalNumber | string | date | boolean =>
    refine hliteral _ ?_ (by rw [hkind]; decide)
    rw [Token.value?, hkind]
  | reference => exact follows_advance hp (by rw [hkind]; decide) (follows_pure rfl)
  | leftParen =>
    have hnotEof : p.current.kind ≠ .eof := by rw [hkind]; decide
    have hreads := Parser.reads_advance hp hnotEof
    refine follows_advance hp hnotEof ?_
    apply (h.follows_ask (hreads.ended hp) (hreads.depth.symm ▸ hdepth)).bind
    intro result q tokens hreads'
    exact follows_expect (hreads'.ended (hreads.ended hp)) (by decide) fun _ => follows_pure rfl
  | identifier =>
    dsimp only
    split
    · exact h.follows_call hp hdepth hkind
    · exact h.follows_prefixOperation hp hdepth (by simp [hkind])
  | operator => exact h.follows_prefixOperation hp hdepth (by simp [hkind])
  | rightParen | comma | eof => exact follows_unexpected

/-- The loop over the infix operators behind an operand. -/
theorem Mirrors.follows_tail (h : Mirrors levels inner) {count : Nat} (left : Parsed) (hp : p.Ended)
    (hdepth : maxDepth ≤ levels + p.depth) (hcount : p.following.length < count) :
    Follows frames (goOn p frames min (.tail left)) (Parse.chainTail inner min count left) p
      (fun result q => leave q frames (.ok result)) := by
  induction count generalizing left p with
  | zero => exact absurd hcount (Nat.not_lt_zero _)
  | succ count ih =>
    obtain ⟨left, leftHeight⟩ := left
    refine Follows.head rfl ?_
    apply follows_get
    unfold work
    dsimp only
    cases hop : p.infixOperator? with
    | none => exact follows_pure rfl
    | some op =>
      dsimp only
      split
      · exact follows_pure rfl
      · have hnotEof : p.current.kind ≠ .eof := by
          intro heof
          have hkind := p.kind_of_infixOperator? hop
          rw [heof] at hkind
          exact absurd hkind (by decide)
        have hreads := Parser.reads_advance hp hnotEof
        refine follows_advance hp hnotEof ?_
        apply (h.follows_askOperand (hreads.ended hp) (hreads.depth.symm ▸ hdepth) p.current).bind
        rintro ⟨right, rightHeight⟩ q tokens hreads'
        have hall := hreads.trans hreads'
        unfold resume Parse.nodeHeight
        dsimp only
        split
        · exact follows_fail
        · show Follows frames _ (match op.build? [left, right] with | none => _ | some tree => _) q _
          cases op.build? [left, right] with
          | none => exact follows_fail
          | some tree =>
            refine ih _ (hall.ended hp) (hall.depth.symm ▸ hdepth) ?_
            have hlength := hall.length_following
            rw [List.length_append, List.length_singleton] at hlength
            omega

/-- An expression is followed from its first operand to its last. -/
theorem Mirrors.follows_chain (h : Mirrors levels inner) (hp : p.Ended)
    (hdepth : maxDepth ≤ levels + p.depth) :
    Follows frames (goOn p frames min .primary) (Parse.chain inner min) p
      (fun result q => leave q frames (.ok result)) := by
  apply (h.follows_primary hp hdepth).bind
  intro left q tokens hreads
  apply follows_get
  exact h.follows_tail left (hreads.ended hp) (hreads.depth.symm ▸ hdepth) (Nat.lt_succ_self _)

end Readers

/-! ## Runs -/

/-- No run goes on behind the end. -/
theorem Steps.eq_of_finished {p : Parser} {frames : List Frame} {outcome : Except ParseError Tree}
    {m : Machine} (h : Steps ⟨p, frames, .finished outcome⟩ m) :
    m = ⟨p, frames, .finished outcome⟩ := by
  rcases Relation.ReflTransGen.cases_head h with heq | ⟨n, hstep, -⟩
  · exact heq.symm
  · exact nomatch hstep

/-- There is one run only, so wherever it has come it goes on to the end. -/
theorem Steps.to_finished {m n : Machine} {p : Parser} {frames : List Frame}
    {outcome : Except ParseError Tree} (h : Steps m ⟨p, frames, .finished outcome⟩)
    (h' : Steps m n) : Steps n ⟨p, frames, .finished outcome⟩ := by
  have hunique : Relator.RightUnique fun m n : Machine => m.step = some n :=
    fun _ _ _ hn hn' => Option.some.inj (hn.symm.trans hn')
  rcases Relation.ReflTransGen.total_of_right_unique hunique h h' with hback | hon
  · rw [Steps.eq_of_finished hback]
    exact .refl
  · exact hon

/-- The machine reads an expression as the parser does, which has enough levels. -/
theorem mirrors_expression (levels : Nat) : Mirrors levels (Parse.expression levels) := by
  induction levels with
  | zero =>
    intro level p frames hp hdepth
    have hdeep : p.depth ≥ maxDepth := Nat.zero_add p.depth ▸ hdepth
    exact Relation.ReflTransGen.single (step_of_deep hdeep frames level)
  | succ levels ih =>
    intro level p frames hp hdepth
    apply runs_get_bind
    split
    · rename_i hdeep
      exact Relation.ReflTransGen.single (step_of_deep hdeep frames level)
    · rename_i hroom
      have hstep := step_of_room hroom frames level
      have hchain : Follows frames _ (Parse.chain (Parse.expression levels) level)
          { p with depth := p.depth + 1 } _ := ih.follows_chain hp (by dsimp only; omega)
      apply runs_opening
      refine hchain.imp (fun a q ⟨hsteps, tokens, hreads⟩ => ?_) (fun e q hsteps => ?_)
      · exact ⟨hsteps.head hstep, tokens, hreads.remaining, hreads.consumed,
          by rw [hreads.depth]; rfl⟩
      · exact hsteps.head hstep

/-- The machine comes to its end, with what the parser returns. -/
theorem exists_finished (tokens : List Token) :
    ∃ p, Steps (start tokens) ⟨p, [], .finished (Tree.ofTokens tokens)⟩ := by
  have hruns : Runs Parse.whole (Parser.ofTokens tokens)
      (fun tree q => Steps (start tokens) ⟨q, [], .finished (.ok tree)⟩)
      (fun e q => Steps (start tokens) ⟨q, [], .finished (.error e)⟩) := by
    apply runs_get_bind
    dsimp only
    split
    · rename_i hcount
      exact Relation.ReflTransGen.single (if_pos hcount)
    · rename_i hcount
      have hstart : (start tokens).step = some ⟨Parser.ofTokens tokens, [], .entering .lowest⟩ :=
        if_neg hcount
      have hexpression := @mirrors_expression maxDepth .lowest _ []
        (Parser.ended_ofTokens tokens) (Nat.le_add_right _ _)
      refine runs_bind (hexpression.imp (fun _ _ h => h) fun e q hsteps => ?_) ?_
      · exact (hsteps.tail rfl).head hstart
      · rintro ⟨tree, height⟩ q ⟨hsteps, -⟩
        have hsteps : Steps (start tokens) ⟨q, [], .finished (finish q (.ok (tree, height)))⟩ :=
          (hsteps.tail rfl).head hstart
        apply runs_get_bind
        unfold finish at hsteps
        dsimp only at hsteps
        split
        · rename_i heof
          rwa [if_pos heof] at hsteps
        · rename_i heof
          rwa [if_neg heof] at hsteps
  unfold Runs at hruns
  unfold Tree.ofTokens
  rcases hrun : Parse.whole.run (Parser.ofTokens tokens) with ⟨e | tree, q⟩
  all_goals
    rw [hrun] at hruns
    exact ⟨q, hruns⟩

end Machine

end Formula
