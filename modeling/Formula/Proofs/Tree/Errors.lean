import Formula.Proofs.Tree.Parsing

/-!
# What the errors of the parser are about

`ParseError.Blames tokens e` says what an error has to do with the tokens: the token that it names
stands among them, and what it says of that token is so. `blames_of_ofTokens` says this of every
error of the parser.

What the readers keep is that they look at no other tokens than the given ones. `Keeps` says so of a
step, whatever it ends with, and has one rule for each thing that the readers are made of.
-/

namespace Formula

namespace Token

/-- Whether a token is a literal, be its text valid or not. -/
def IsLiteral (token : Token) : Prop :=
  token.kind ∈ [TokenKind.number, .decimalNumber, .string, .date, .boolean]

/-- Whether a token has a text and a place. -/
def StandsAt (token : Token) (text : String) (position : Nat) : Prop :=
  token.text = text ∧ token.position = position

end Token

/-- Whether the error is about a token among the given ones, or about all of them. -/
def SyntaxError.Blames (tokens : List Token) : SyntaxError → Prop
  | parenthesisMismatch expected found =>
    Parse.countKind .leftParen tokens = expected ∧ Parse.countKind .rightParen tokens = found ∧
      expected ≠ found
  | unrecognizedToken text position =>
    ∃ token ∈ tokens, token.StandsAt text position ∧ token.kind = .identifier
  | unknownFunction name position =>
    ∃ token ∈ tokens, token.StandsAt name position ∧ token.kind = .identifier ∧
      Function.find? name = none
  | missingOperand operator position =>
    ∃ token ∈ tokens, token.StandsAt operator position ∧ token.kind ∈ [.operator, .identifier]
  | unexpectedToken text position =>
    ∃ token ∈ tokens, token.StandsAt text position ∧ token.kind ∉ [.eof, .identifier]
  | unexpectedEnd => ∃ token ∈ tokens, token.kind = .eof
  | invalidLiteral text position =>
    ∃ token ∈ tokens, token.StandsAt text position ∧ token.IsLiteral ∧ token.value? = none
  | tooDeep limit => limit = maxDepth

/-- Whether the error is about a token among the given ones, or about all of them, or about a call
with a number of arguments that its function refuses. -/
def ParseError.Blames (tokens : List Token) : ParseError → Prop
  | structural e => e.Blames tokens
  | arity e => e.function.arity.accepts e.found = false

/-- Whether only tokens among the given ones are left to be read. -/
def Parser.Within (p : Parser) (tokens : List Token) : Prop :=
  ∀ token ∈ p.current :: p.following, token ∈ tokens

/-- Advancing stays within the tokens. -/
theorem Parser.Within.advance {p : Parser} {tokens : List Token} (h : p.Within tokens) :
    p.advance.Within tokens := by
  unfold Parser.advance
  split
  · exact h
  · rename_i next rest hfollowing
    split
    · exact h
    · intro token htoken
      apply h token
      rw [hfollowing]
      exact List.mem_cons_of_mem _ htoken

/-- Whether a step keeps to the given tokens and blames none but them. -/
def Keeps {α : Type} (tokens : List Token) (step : Parse α) : Prop :=
  ∀ p, p.Within tokens → Runs step p (fun _ q => q.Within tokens) (fun e _ => e.Blames tokens)

namespace Keeps

section Steps

variable {α β : Type} {tokens : List Token}

/-- Returning something keeps within the tokens. -/
theorem pure (a : α) : Keeps tokens (Pure.pure a : Parse α) := fun _ hp => hp

/-- Failing does if the error blames one of them. -/
theorem fail {e : SyntaxError} (h : e.Blames tokens) : Keeps tokens (Parse.fail e : Parse α) :=
  fun _ _ => h

/-- Steps do if both do. -/
theorem bind {step : Parse α} {next : α → Parse β} (h : Keeps tokens step)
    (hnext : ∀ a, Keeps tokens (next a)) : Keeps tokens (step >>= next) := by
  intro p hp
  apply runs_bind (h p hp)
  intro a q hq
  exact hnext a q hq

/-- What follows a consumed token may rely on it being one of the given ones. -/
theorem advance_bind {p : Parser} (hp : p.Within tokens) {next : Token → Parse α}
    (h : p.current ∈ tokens → Keeps tokens (next p.current)) :
    Runs (Parse.advance >>= next) p (fun _ q => q.Within tokens) (fun e _ => e.Blames tokens) :=
  h (hp p.current List.mem_cons_self) p.advance hp.advance

/-- The error for an unexpected token blames the current one. -/
theorem unexpected : Keeps tokens (Parse.unexpected : Parse α) := by
  intro p hp
  apply runs_get_bind
  have hcurrent : p.current ∈ tokens := hp p.current List.mem_cons_self
  show p.unexpected.Blames tokens
  unfold Parser.unexpected
  split
  · rename_i hkind
    exact ⟨p.current, hcurrent, hkind⟩
  · rename_i hkind
    exact ⟨p.current, hcurrent, ⟨rfl, rfl⟩, hkind⟩
  · rename_i heof hidentifier
    refine ⟨p.current, hcurrent, ⟨rfl, rfl⟩, ?_⟩
    rw [List.mem_pair, not_or]
    exact ⟨heof, hidentifier⟩

/-- Expecting a token blames the current one if it is of another kind. -/
theorem expect (kind : TokenKind) : Keeps tokens (Parse.expect kind) := by
  intro p hp
  apply runs_get_bind
  split
  · exact hp.advance
  · exact unexpected p hp

/-- Opening an expression keeps within the tokens if its body does. -/
theorem opening {body : Parse α} (h : Keeps tokens body) : Keeps tokens (Parse.opening body) := by
  intro p hp
  apply runs_opening
  exact h _ hp

/-- The height of a node blames none of them. -/
theorem nodeHeight (child : Nat) : Keeps tokens (Parse.nodeHeight child) := by
  have hdeep : (SyntaxError.tooDeep maxDepth).Blames tokens := rfl
  unfold Parse.nodeHeight
  split
  · exact fail hdeep
  · exact pure _

end Steps

/-! ## Readers of the parts of an expression -/

section Readers

variable {tokens : List Token} {inner : Precedence → Parse Parsed}

/-- An invalid literal is a token with that text. -/
theorem literal {p : Parser} (hp : p.Within tokens) (hliteral : p.current.IsLiteral) :
    Runs (Parse.literal p.current.value?) p (fun _ q => q.Within tokens)
      (fun e _ => e.Blames tokens) := by
  apply runs_get_bind
  cases hvalue : p.current.value? with
  | none => exact ⟨p.current, hp _ List.mem_cons_self, ⟨rfl, rfl⟩, hliteral, hvalue⟩
  | some value => exact hp.advance

/-- An operand that is missing is blamed on its operator. -/
theorem operand (h : ∀ min, Keeps tokens (inner min)) {operator : Token}
    (hmissing : (Parse.missingOperand operator).Blames tokens) (min : Precedence) :
    Keeps tokens (Parse.operand inner operator min) := by
  intro p hp
  apply runs_get_bind
  split
  · exact hmissing
  · exact hmissing
  · exact hmissing
  · exact h min p hp

/-- Arguments keep within the tokens if each of them does. -/
theorem arguments (h : ∀ min, Keeps tokens (inner min)) (count : Nat) :
    Keeps tokens (Parse.arguments inner count) := by
  induction count with
  | zero => exact pure _
  | succ count ih =>
    apply (h .lowest).bind
    rintro ⟨argument, height⟩ p hp
    apply runs_get_bind
    split
    · refine (ih.bind fun _ => ?_) p.advance hp.advance
      exact pure _
    · exact hp

/-- The end of a call of which the arguments have been read. -/
theorem closing (f : Function) (result : List Tree × Nat) : Keeps tokens (do
    let _ ← Parse.expect .rightParen
    match f.checkArity result.1.length with
    | .error e => throw (.arity e)
    | .ok () => return (.call f result.1, ← Parse.nodeHeight result.2) : Parse Parsed) := by
  apply (expect .rightParen).bind
  intro _
  unfold Function.checkArity
  by_cases harity : f.arity.accepts result.1.length = true
  · rw [if_pos harity]
    apply (nodeHeight result.2).bind
    intro _
    exact pure _
  · rw [if_neg harity]
    intro p _
    exact Bool.eq_false_iff.mpr harity

/-- An unknown function is blamed on its name. -/
theorem call (h : ∀ min, Keeps tokens (inner min)) {p : Parser} (hp : p.Within tokens)
    (hname : p.current.kind = .identifier) :
    Runs (Parse.call inner) p (fun _ q => q.Within tokens) (fun e _ => e.Blames tokens) := by
  apply advance_bind hp
  intro hcurrent
  split
  · rename_i hfind
    exact fail ⟨p.current, hcurrent, ⟨rfl, rfl⟩, hname, hfind⟩
  · rename_i f hfind
    apply (expect .leftParen).bind
    intro _ p hp
    apply runs_get_bind
    dsimp only
    split
    · exact closing f ([], 0) p hp
    · exact ((arguments h _).bind (closing f)) p hp

/-- A prefix operation keeps within the tokens if its operand does. -/
theorem prefixOperation (h : ∀ min, Keeps tokens (inner min)) {p : Parser} (hp : p.Within tokens)
    (hkind : p.current.kind ∈ [.operator, .identifier]) :
    Runs (Parse.prefixOperation inner) p (fun _ q => q.Within tokens)
      (fun e _ => e.Blames tokens) := by
  have hmissing : (Parse.missingOperand p.current).Blames tokens :=
    ⟨p.current, hp p.current List.mem_cons_self, ⟨rfl, rfl⟩, hkind⟩
  apply runs_get_bind
  split
  · rename_i op _
    refine advance_bind hp fun _ => ?_
    apply (operand h hmissing .unary).bind
    rintro ⟨tree, height⟩
    dsimp only
    split
    · exact fail hmissing
    · apply (nodeHeight height).bind
      intro _
      exact pure _
  · split
    · exact fail hmissing p hp
    · exact unexpected p hp

/-- So does whatever operand there is. -/
theorem primary (h : ∀ min, Keeps tokens (inner min)) : Keeps tokens (Parse.primary inner) := by
  intro p hp
  apply runs_get_bind
  have hliteral : ∀ kind ∈ [TokenKind.number, .decimalNumber, .string, .date, .boolean],
      p.current.kind = kind → ∀ value, p.current.value? = value →
      Runs (Parse.literal value) p (fun _ q => q.Within tokens) (fun e _ => e.Blames tokens) := by
    rintro kind hmem rfl value rfl
    exact literal hp hmem
  dsimp only
  split <;> rename_i hkind
  case h_1 | h_2 | h_3 | h_4 | h_5 =>
    refine hliteral _ (by decide) hkind _ ?_
    rw [Token.value?, hkind]
  case h_6 => exact hp.advance
  case h_7 =>
    refine advance_bind hp fun _ => ?_
    apply (h .lowest).bind
    intro _
    apply (expect .rightParen).bind
    intro _
    exact pure _
  case h_8 =>
    split
    · exact call h hp hkind
    · exact prefixOperation h hp (by simp [hkind])
  case h_9 => exact prefixOperation h hp (by simp [hkind])
  all_goals exact unexpected p hp

/-- So do the operators behind it. -/
theorem chainTail (h : ∀ min, Keeps tokens (inner min)) (min : Precedence) (count : Nat)
    (left : Parsed) : Keeps tokens (Parse.chainTail inner min count left) := by
  induction count generalizing left with
  | zero => exact pure _
  | succ count ih =>
    obtain ⟨left, height⟩ := left
    intro p hp
    apply runs_get_bind
    split
    · exact hp
    · rename_i op hop
      have hmissing : (Parse.missingOperand p.current).Blames tokens :=
        ⟨p.current, hp p.current List.mem_cons_self, ⟨rfl, rfl⟩, p.kind_of_infixOperator? hop⟩
      split
      · exact hp
      · refine advance_bind hp fun _ => ?_
        apply (operand h hmissing _).bind
        rintro ⟨right, rightHeight⟩
        apply (nodeHeight _).bind
        intro _
        split
        · exact fail hmissing
        · exact ih _

/-- So does a chain of both. -/
theorem chain (h : ∀ min, Keeps tokens (inner min)) (min : Precedence) :
    Keeps tokens (Parse.chain inner min) := by
  apply (primary h).bind
  intro left p hp
  apply runs_get_bind
  exact chainTail h min _ left p hp

end Readers

/-- Whatever is read, errors blame one of the tokens. -/
theorem expression {tokens : List Token} (levels : Nat) (min : Precedence) :
    Keeps tokens (Parse.expression levels min) := by
  have hdeep : (SyntaxError.tooDeep maxDepth).Blames tokens := rfl
  induction levels generalizing min with
  | zero => exact fail hdeep
  | succ levels ih =>
    intro p hp
    apply runs_get_bind
    split
    · exact hdeep
    · exact (chain ih min).opening p hp

end Keeps

/-- Every error of the parser is about the tokens that it was given, with an end behind them. -/
theorem blames_of_ofTokens {tokens : List Token} {e : ParseError}
    (h : Tree.ofTokens tokens = .error e) : e.Blames (Parser.withEnd tokens) := by
  obtain ⟨front, last, -, hwithEnd⟩ := Parser.withEnd_eq_concat tokens
  obtain ⟨p, hp, hremaining, -⟩ := Parser.ofTokens_eq hwithEnd
  have htokens : p.tokens = Parser.withEnd tokens := hp ▸ Parser.tokens_ofTokens tokens
  have hwithin : p.Within (Parser.withEnd tokens) := by
    intro token htoken
    rw [hwithEnd, ← hremaining]
    exact htoken
  have hruns : Runs Parse.whole p (fun _ _ => True)
      (fun e _ => e.Blames (Parser.withEnd tokens)) := by
    apply runs_get_bind
    rw [htokens]
    dsimp only
    split
    · rename_i hcount
      exact ⟨rfl, rfl, hcount⟩
    · apply runs_bind (Keeps.expression maxDepth .lowest p hwithin)
      rintro ⟨tree, height⟩ q hq
      apply runs_get_bind
      split
      · exact trivial
      · have hunexpected : Keeps (Parser.withEnd tokens) (Parse.unexpected : Parse Tree) :=
          .unexpected
        exact hunexpected q hq
  unfold Tree.ofTokens at h
  rw [hp] at h
  unfold Runs at hruns
  rcases hrun : Parse.whole.run p with ⟨e' | tree, q⟩
  · rw [hrun] at h hruns
    cases h
    exact hruns
  · rw [hrun] at h
    cases h

end Formula
