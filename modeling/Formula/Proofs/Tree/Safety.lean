import Formula.Proofs.Tree.Ends

/-!
# Safety of the parser

The parser is safe on every list of tokens, also on those that no lexer makes: with ends among them,
without an end, and with any text for any kind. `Machine.Sound` is the invariant of the machine: it
stands in front of one of its tokens, there is no end behind it, as many expressions are open as the
depth says, and every operator that waits for an operand is going to have as many as it takes.
`Sound.step` is that a step keeps it and never goes back. A step moves the parser by one token at
most and changes the frames in few ways, so that `Inside` has one lemma for each of these moves, and
the readers are made of them.

An expression counts as open from the check of the limit on: one that is asked for beyond the limit
is refused and never opened.

No step looks at more of an end than that it is one. So whatever ends there are, the machine goes
through the same steps (`step_plain`), and an end behind the last token might as well be missing
(`ofTokens_concat`), unless its place does not fit a machine word and the program stops over that
before it reads anything. `parser_safe` has all of it for the runs from the start.
-/

namespace Formula

open NaturalPower

/-- How many tokens the parser has consumed. -/
def Parser.position (p : Parser) : Nat := p.consumed.length

/-- Whether the parser stands somewhere in a list of tokens, behind no end and not behind the last
one. -/
structure Parser.Scans (tokens : List Token) (p : Parser) : Prop where
  tokens_eq : p.tokens = tokens
  ended : p.Ended
  ne_eof : ∀ token ∈ p.consumed, token.kind ≠ .eof

namespace Parser

variable {tokens : List Token} {p q : Parser}

/-- Advancing opens nothing. -/
theorem advance_depth (p : Parser) : p.advance.depth = p.depth := by
  unfold advance
  split
  · rfl
  · split <;> rfl

/-- Reading tokens moves the place by as many. -/
theorem Reads.position_eq (h : p.Reads tokens q) : q.position = p.position + tokens.length := by
  rw [position, h.consumed, List.length_append, List.length_reverse, Nat.add_comm]
  rfl

/-- Reading keeps the list of all tokens. -/
theorem Reads.tokens_eq {read : List Token} (h : p.Reads read q) : q.tokens = p.tokens := by
  unfold Parser.tokens
  rw [h.remaining, h.consumed, List.reverse_append, List.reverse_reverse, List.append_assoc]

namespace Scans

/-- Advancing consumes a token or, at an end, does nothing. -/
theorem advance (h : p.Scans tokens) : p.advance.Scans tokens ∧ p.position ≤ p.advance.position := by
  by_cases heof : p.current.kind = .eof
  · rw [advance_of_eof heof]
    exact ⟨h, Nat.le_refl _⟩
  · have hreads := reads_advance h.ended heof
    refine ⟨⟨hreads.tokens_eq.trans h.tokens_eq, hreads.ended h.ended, ?_⟩, ?_⟩
    · rw [hreads.consumed]
      exact List.forall_mem_cons.mpr ⟨heof, h.ne_eof⟩
    · rw [hreads.position_eq]
      exact Nat.le_add_right _ _

end Scans

end Parser

/-- Whether an operator gets as many operands as it takes when the expression has been read. -/
def Pending.Complete (pending : Pending) : Prop :=
  ∀ tree op operands, pending.application? tree = some (op, operands) →
    operands.length = op.arity

namespace Machine

/-- How many expressions are open: those that wait, and the one that is being read if it has been
opened already and not been left yet. -/
def opened (m : Machine) : Nat :=
  match m.stage with
  | .inside _ _ => m.frames.length + 1
  | _ => m.frames.length

/-- The invariant of the machine. -/
structure Sound (tokens : List Token) (m : Machine) : Prop where
  scans : m.parser.Scans tokens
  depth_eq : m.parser.depth = m.opened
  opened_le : m.opened ≤ maxDepth
  complete : ∀ frame ∈ m.frames, frame.pending.Complete

/-- Whether the invariant holds and the parser has come to `start`. -/
def SoundFrom (tokens : List Token) (start : Nat) (m : Machine) : Prop :=
  m.Sound tokens ∧ start ≤ m.parser.position

/-! ## Moves inside of an expression -/

/-- Whether an expression is open with some frames around it, and the parser has come to `start`. -/
structure Inside (tokens : List Token) (start : Nat) (p : Parser) (frames : List Frame) : Prop where
  scans : p.Scans tokens
  depth_eq : p.depth = frames.length + 1
  room : frames.length + 1 ≤ maxDepth
  complete : ∀ frame ∈ frames, frame.pending.Complete
  start_le : start ≤ p.position

/-- A group does not wait for the operand of an operator. -/
theorem complete_group : Pending.group.Complete := nofun

/-- Nor does an argument. -/
theorem complete_argument {function : Function} {trees : List Tree} {height : Nat} :
    (Pending.argument function trees height).Complete := nofun

/-- A prefix operator takes one operand. -/
theorem complete_operand {op : Operator} (h : op.fixity = .before) (token : Token) :
    (Pending.operand op token).Complete := by
  rintro tree _ _ ⟨⟩
  rw [Operator.arity, h]
  rfl

/-- An infix operator takes two. -/
theorem complete_right {op : Operator} (h : op.fixity = .between) (token : Token) (left : Parsed) :
    (Pending.right op token left).Complete := by
  rintro tree _ _ ⟨⟩
  rw [Operator.arity, h]
  rfl

namespace Inside

variable {tokens : List Token} {start : Nat} {p : Parser} {frames : List Frame} {min : Precedence}
  {pending : Pending}

/-- Advancing stays inside of the expression. -/
theorem advance (h : Inside tokens start p frames) : Inside tokens start p.advance frames :=
  ⟨h.scans.advance.1, (p.advance_depth).trans h.depth_eq, h.room, h.complete,
    Nat.le_trans h.start_le h.scans.advance.2⟩

/-- Leaving the expression closes it. -/
theorem leave (h : Inside tokens start p frames) (result : Except ParseError Parsed) :
    SoundFrom tokens start (leave p frames result) :=
  ⟨⟨⟨h.scans.tokens_eq, h.scans.ended, h.scans.ne_eof⟩, congrArg (· - 1) h.depth_eq,
    Nat.le_of_succ_le h.room, h.complete⟩, h.start_le⟩

/-- So does failing. -/
theorem fail (h : Inside tokens start p frames) (e : SyntaxError) :
    SoundFrom tokens start (fail p frames e) :=
  h.leave _

/-- Going on keeps it open. -/
theorem goOn (h : Inside tokens start p frames) (task : Task) :
    SoundFrom tokens start (goOn p frames min task) :=
  ⟨⟨h.scans, h.depth_eq, h.room, h.complete⟩, h.start_le⟩

/-- Asking for another expression lets it wait. -/
theorem ask (h : Inside tokens start p frames) (hpending : pending.Complete) (level : Precedence) :
    SoundFrom tokens start (ask p frames min pending level) :=
  ⟨⟨h.scans, h.depth_eq, h.room, List.forall_mem_cons.mpr ⟨hpending, h.complete⟩⟩, h.start_le⟩

/-- Growing a tree keeps it open, or fails. -/
theorem grow (h : Inside tokens start p frames) (tree : Tree) (child : Nat) :
    SoundFrom tokens start (grow p frames min tree child) := by
  unfold Machine.grow
  split
  · exact h.fail _
  · exact h.goOn _

/-- Asking for an operand lets it wait, or fails. -/
theorem askOperand (h : Inside tokens start p frames) (hpending : pending.Complete)
    (operator : Token) (level : Precedence) :
    SoundFrom tokens start (askOperand p frames min pending operator level) := by
  unfold Machine.askOperand
  split
  · exact h.fail _
  · exact h.fail _
  · exact h.fail _
  · exact h.ask hpending level

/-- Reading a literal keeps it open, or fails. -/
theorem literal (h : Inside tokens start p frames) :
    SoundFrom tokens start (literal p frames min) := by
  unfold Machine.literal
  split
  · exact h.fail _
  · exact h.advance.goOn _

/-- So does starting a call. -/
theorem call (h : Inside tokens start p frames) : SoundFrom tokens start (call p frames min) := by
  unfold Machine.call
  split
  · exact h.advance.fail _
  · exact h.advance.goOn _

/-- Starting a prefix operation lets it wait, or fails. -/
theorem prefixOperation (h : Inside tokens start p frames) :
    SoundFrom tokens start (prefixOperation p frames min) := by
  unfold Machine.prefixOperation
  split
  · rename_i op hop
    have hfixity : op.fixity = .before :=
      of_decide_eq_true (Option.filter_eq_some_iff.mp hop).2
    exact h.advance.askOperand (complete_operand hfixity _) _ _
  · split
    · exact h.fail _
    · exact h.fail _

/-- Whatever comes next in an open expression. -/
theorem work (h : Inside tokens start p frames) (task : Task) :
    SoundFrom tokens start (work p frames min task) := by
  unfold Machine.work
  cases task with
  | primary =>
    dsimp only
    cases p.current.kind with
    | number | decimalNumber | string | date | boolean => exact h.literal
    | reference => exact h.advance.goOn _
    | leftParen => exact h.advance.ask complete_group _
    | identifier =>
      dsimp only
      split
      · exact h.call
      · exact h.prefixOperation
    | operator => exact h.prefixOperation
    | rightParen | comma | eof => exact h.fail _
  | callee function =>
    dsimp only
    split
    · exact h.advance.goOn _
    · exact h.fail _
  | firstArgument function =>
    dsimp only
    split
    · exact h.goOn _
    · exact h.ask complete_argument _
  | closing function trees height =>
    dsimp only
    split
    · split
      · exact h.advance.leave _
      · exact h.advance.grow _ _
    · exact h.fail _
  | tail left =>
    dsimp only
    split
    · exact h.leave _
    · rename_i op hop
      split
      · exact h.leave _
      · obtain ⟨b, rfl⟩ := Parser.eq_binary_of_infixOperator? hop
        exact h.advance.askOperand (complete_right rfl _ _) _ _

/-- Whatever an expression was asked for. -/
theorem resume (h : Inside tokens start p frames) (pending : Pending) (result : Parsed) :
    SoundFrom tokens start (resume p frames min pending result) := by
  obtain ⟨tree, height⟩ := result
  unfold Machine.resume
  cases pending with
  | group =>
    dsimp only
    split
    · exact h.advance.goOn _
    · exact h.fail _
  | argument function trees tallest =>
    dsimp only
    split
    · exact h.advance.ask complete_argument _
    · exact h.goOn _
  | operand op token =>
    dsimp only
    split
    · exact h.fail _
    · exact h.grow _ _
  | right op token left =>
    dsimp only
    split
    · exact h.fail _
    · split
      · exact h.fail _
      · exact h.goOn _

end Inside

/-! ## Steps and runs -/

section Runs

variable {tokens : List Token} {m n : Machine}

/-- A step keeps the invariant and never goes back. -/
theorem Sound.step (h : m.Sound tokens) (hstep : m.step = some n) :
    SoundFrom tokens m.parser.position n := by
  obtain ⟨hscans, hdepth, hopened, hcomplete⟩ := h
  cases moves_of_step hstep with
  | refused | begun | deep | finished =>
    exact ⟨⟨hscans, hdepth, hopened, hcomplete⟩, Nat.le_refl _⟩
  | @opened p frames min hroom =>
    have hdepth : p.depth = frames.length := hdepth
    have hinside : Inside tokens p.position { p with depth := p.depth + 1 } frames :=
      ⟨⟨hscans.tokens_eq, hscans.ended, hscans.ne_eof⟩, congrArg (· + 1) hdepth,
        hdepth ▸ Nat.lt_of_not_le hroom, hcomplete, Nat.le_refl _⟩
    exact hinside.goOn _
  | @worked p frames min task =>
    have hinside : Inside tokens p.position p frames :=
      ⟨hscans, hdepth, hopened, hcomplete, Nat.le_refl _⟩
    exact hinside.work task
  | @failed p frame frames e =>
    have hinside : Inside tokens p.position p frames :=
      ⟨hscans, hdepth, hopened, (List.forall_mem_cons.mp hcomplete).2, Nat.le_refl _⟩
    exact hinside.leave _
  | @resumed p frame frames result =>
    have hinside : Inside tokens p.position p frames :=
      ⟨hscans, hdepth, hopened, (List.forall_mem_cons.mp hcomplete).2, Nat.le_refl _⟩
    exact hinside.resume frame.pending result

/-- So the invariant holds along every run. -/
theorem Sound.steps (h : m.Sound tokens) (hsteps : Steps m n) : n.Sound tokens := by
  induction hsteps with
  | refl => exact h
  | tail _ hstep ih => exact (ih.step hstep).1

/-- The invariant holds at the start. -/
theorem sound_start (tokens : List Token) : (start tokens).Sound (Parser.withEnd tokens) := by
  obtain ⟨front, last, -, hwithEnd⟩ := Parser.withEnd_eq_concat tokens
  obtain ⟨p, hp, -, hconsumed, hdepth⟩ := Parser.ofTokens_eq hwithEnd
  refine ⟨⟨Parser.tokens_ofTokens tokens, Parser.ended_ofTokens tokens, ?_⟩, ?_,
    Nat.zero_le _, List.forall_mem_nil _⟩
  · show ∀ token ∈ (Parser.ofTokens tokens).consumed, token.kind ≠ .eof
    rw [hp, hconsumed]
    exact List.forall_mem_nil _
  · show (Parser.ofTokens tokens).depth = 0
    rw [hp, hdepth]

end Runs

end Machine

end Formula
