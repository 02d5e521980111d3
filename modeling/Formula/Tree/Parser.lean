import Formula.Token
import Formula.Value
import Formula.Calendar.Literal
import Formula.Number.Power

/-!
# Trees from tokens

The parser climbs precedences. `chain` reads an operand and then, as long as the next token is an
infix operator that binds at least as tightly as it is asked for, that operator and its right
operand; `primary` reads a literal, a reference, a group, a call or a prefix operation. Every reader
of a part takes the reader of a whole expression, `inner`, as an argument, and `expression` ties the
knot: level `n + 1` reads its parts with level `n`, and `maxDepth` levels are all there are.

A token that spells both a prefix and an infix operator is told apart by the token before it, in
`fixityAfter`. Next to the level, which only bounds the recursion, the parser counts the expressions
that are open in its own state, and it carries the height of every tree it has read, which is
limited as well.

An end is added to tokens that lack one, at the place behind the last token. Places are machine words,
so that this place need not exist; `Overflow` says what becomes of the sum then.
-/

namespace Formula

open NaturalPower

/-- What is wrong with the order of the tokens. -/
inductive SyntaxError where
  /-- The numbers of opening and of closing parentheses differ. -/
  | parenthesisMismatch (expected found : Nat)
  /-- A bare word that is neither a function nor an operator. -/
  | unrecognizedToken (text : String) (position : Nat)
  | unknownFunction (name : String) (position : Nat)
  | missingOperand (operator : String) (position : Nat)
  | unexpectedToken (text : String) (position : Nat)
  | unexpectedEnd
  | invalidLiteral (text : String) (position : Nat)
  /-- Expressions nest too deeply, or the tree grows too high. -/
  | tooDeep (limit : Nat)
  deriving DecidableEq

/-- The ways in which parsing fails. -/
inductive ParseError where
  | structural (e : SyntaxError)
  | arity (e : ArityError)
  deriving DecidableEq

/-- The message for a syntax error. -/
def SyntaxError.message : SyntaxError → String
  | parenthesisMismatch expected found =>
    "mismatched parentheses: expected " ++ expected.repr ++ ", found " ++ found.repr ++
      " closing ')'"
  | unrecognizedToken text position =>
    "Unrecognised token '" ++ text ++ "' at position " ++ position.repr
  | unknownFunction name position =>
    "Unrecognised function '" ++ name ++ "' at position " ++ position.repr
  | missingOperand operator position =>
    "operator '" ++ operator ++ "' at position " ++ position.repr ++ " is missing an operand"
  | unexpectedToken text position => "unexpected '" ++ text ++ "' at position " ++ position.repr
  | unexpectedEnd => "unexpected end of expression"
  | invalidLiteral text position =>
    "invalid literal '" ++ text ++ "' at position " ++ position.repr
  | tooDeep limit => "expression nests deeper than " ++ limit.repr ++ " levels"

/-- The message for a parse error. -/
def ParseError.message : ParseError → String
  | structural e => e.message
  | arity e => e.message

/-- Where an operator stands that follows a given token: between two operands if an operand ends
there, and otherwise before one. -/
def fixityAfter (previous : Option Token) : Fixity :=
  if previous.any Token.endsOperand then .between else .before

/-- The operator that a text spells behind a given token. -/
def matchToken (text : String) (previous : Option Token) : Option Operator :=
  Operator.find? text (fixityAfter previous)

/-- How many expressions may be open at a time, and how high a tree may grow. -/
def maxDepth : Nat := 256

/-! ## Sums of places -/

/-- What becomes of a sum that is too large for a machine word: the program stops, or the sum wraps
around. Which one it is, is settled when the program is built. -/
inductive Overflow where
  | stops
  | wraps
  deriving DecidableEq

/-- The number of places that a machine word tells apart. -/
def wordSize : Nat := 2 ^ (64 : Nat)

/-- The sum of two machine words, if the program goes on. -/
def Overflow.add? (overflow : Overflow) (a b : Nat) : Option Nat :=
  if a + b < wordSize then some (a + b)
  else
    match overflow with
    | .stops => none
    | .wraps => some ((a + b) % wordSize)

/-! ## The state of the parser -/

/-- A place in a list of tokens, with the tokens already consumed (nearest first), and the number of
expressions that are open. -/
structure Parser where
  consumed : List Token
  current : Token
  following : List Token
  depth : Nat

namespace Parser

/-- A list of tokens with an end, if the program goes on: an end is added behind the last token if
that is something else. -/
def withEnd? (overflow : Overflow) (tokens : List Token) : Option (List Token) :=
  match tokens.getLast? with
  | none => some [Token.eof 0]
  | some last =>
    if last.kind = .eof then some tokens
    else
      (overflow.add? last.position last.text.length).map fun place => tokens ++ [Token.eof place]

/-- The list of tokens with an end, where sums wrap around. -/
def withEnd (tokens : List Token) : List Token :=
  match tokens.getLast? with
  | none => [Token.eof 0]
  | some last =>
    if last.kind = .eof then tokens
    else tokens ++ [Token.eof ((last.position + last.text.length) % wordSize)]

/-- The parser in front of tokens that have an end. -/
def inFrontOf : List Token → Parser
  | [] => ⟨[], Token.eof 0, [], 0⟩
  | current :: following => ⟨[], current, following, 0⟩

/-- The parser in front of a list of tokens, if the program goes on. -/
def ofTokens? (overflow : Overflow) (tokens : List Token) : Option Parser :=
  (withEnd? overflow tokens).map inFrontOf

/-- The parser in front of a list of tokens, where sums wrap around. -/
def ofTokens (tokens : List Token) : Parser := inFrontOf (withEnd tokens)

/-- All tokens, consumed or not. -/
def tokens (p : Parser) : List Token := p.consumed.reverse ++ p.current :: p.following

/-- The token consumed last. -/
def previous (p : Parser) : Option Token := p.consumed.head?

/-- The kind of the token behind the current one. -/
def nextKind (p : Parser) : TokenKind := (p.following.head?.map Token.kind).getD .eof

/-- The parser behind the current token; an end is never passed. -/
def advance (p : Parser) : Parser :=
  match p.following with
  | [] => p
  | next :: rest =>
    if p.current.kind = .eof then p
    else { p with consumed := p.current :: p.consumed, current := next, following := rest }

/-- The error for a current token that cannot stand where it does. -/
def unexpected (p : Parser) : SyntaxError :=
  match p.current.kind with
  | .eof => .unexpectedEnd
  | .identifier => .unrecognizedToken p.current.text p.current.position
  | _ => .unexpectedToken p.current.text p.current.position

/-- The infix operator that is the current token. -/
def infixOperator? (p : Parser) : Option Operator :=
  match p.current.kind with
  | .operator | .identifier =>
    (matchToken p.current.text p.previous).filter (·.fixity = .between)
  | _ => none

/-- Whether the current name starts a call. A prefix operator in front of a parenthesis does not,
unless a function has the same name. -/
def startsCall (p : Parser) : Bool :=
  p.nextKind == .leftParen &&
    ((Function.find? p.current.text).isSome || (Operator.find? p.current.text .before).isNone)

end Parser

/-- A step of the parser: it moves on or fails, and leaves a state in either case. -/
abbrev Parse := ExceptT ParseError (StateM Parser)

/-- A tree and its height. -/
abbrev Parsed := Tree × Nat

namespace Parse

/-- Fails with a syntax error. -/
def fail {α : Type} (e : SyntaxError) : Parse α := throw (.structural e)

/-- Fails because the current token cannot stand where it does. -/
def unexpected {α : Type} : Parse α := do fail (← get).unexpected

/-- Consumes the current token and returns it. -/
def advance : Parse Token := do
  let p ← get
  set p.advance
  return p.current

/-- Consumes the current token, which has to be of the given kind. -/
def expect (kind : TokenKind) : Parse Token := do
  if (← get).current.kind = kind then advance else unexpected

/-- The error for an operator without operand. -/
def missingOperand (token : Token) : SyntaxError := .missingOperand token.text token.position

/-- Counts one more open expression while `body` runs. -/
def opening {α : Type} (body : Parse α) : Parse α :=
  ExceptT.mk fun p =>
    let (result, p) := body.run { p with depth := p.depth + 1 }
    (result, { p with depth := p.depth - 1 })

/-- The height of a node over parts of which the tallest has height `child`. -/
def nodeHeight (child : Nat) : Parse Nat :=
  if child + 1 > maxDepth then fail (.tooDeep maxDepth) else return child + 1

/-- The literal that the current token denotes. -/
def literal (value : Option Value) : Parse Parsed := do
  let token := (← get).current
  match value with
  | none => fail (.invalidLiteral token.text token.position)
  | some value =>
    let _ ← advance
    return (.literal value, 1)

/-- The operand of an operator that was just consumed. -/
def operand (inner : Precedence → Parse Parsed) (operator : Token) (min : Precedence) :
    Parse Parsed := do
  match (← get).current.kind with
  | .eof | .rightParen | .comma => fail (missingOperand operator)
  | _ => inner min

/-- The arguments of a call up to the closing parenthesis, at least one and at most `count`, and the
height of the tallest. -/
def arguments (inner : Precedence → Parse Parsed) : (count : Nat) → Parse (List Tree × Nat)
  | 0 => return ([], 0)
  | count + 1 => do
    let (argument, height) ← inner .lowest
    if (← get).current.kind = .comma then
      let _ ← advance
      let (rest, restHeight) ← arguments inner count
      return (argument :: rest, max height restHeight)
    else return ([argument], height)

/-- A call, whose name is the current token. -/
def call (inner : Precedence → Parse Parsed) : Parse Parsed := do
  let name ← advance
  match Function.find? name.text with
  | none => fail (.unknownFunction name.text name.position)
  | some function =>
    let _ ← expect .leftParen
    let p ← get
    let (arguments, height) ←
      if p.current.kind = .rightParen then pure ([], 0)
      else arguments inner (p.following.length + 1)
    let _ ← expect .rightParen
    match function.checkArity arguments.length with
    | .error e => throw (.arity e)
    | .ok () => return (.call function arguments, ← nodeHeight height)

/-- A prefix operation, whose operator is the current token. -/
def prefixOperation (inner : Precedence → Parse Parsed) : Parse Parsed := do
  let p ← get
  match (matchToken p.current.text p.previous).filter (·.fixity = .before) with
  | some op =>
    let token ← advance
    let (operand, height) ← operand inner token .unary
    match op.build? [operand] with
    | none => fail (missingOperand token)
    | some tree => return (tree, ← nodeHeight height)
  | none =>
    if p.current.kind = .operator || Operator.isSpelling p.current.text then
      fail (missingOperand p.current)
    else unexpected

/-- A literal, reference, group, call or prefix operation. -/
def primary (inner : Precedence → Parse Parsed) : Parse Parsed := do
  let p ← get
  let token := p.current
  match token.kind with
  | .number => literal ((Integer.read? token.text.toList).map .integer)
  | .decimalNumber => literal ((Decimal.read? token.text.toList).map .decimal)
  | .string => literal (some (.string token.text))
  | .date => literal ((Calendar.read? token.text.toList).map .dateTime)
  | .boolean => literal (some (.boolean (token.text.toList.map Char.toLower == "true".toList)))
  | .reference =>
    let _ ← advance
    return (.reference token.text, 1)
  | .leftParen =>
    let _ ← advance
    let inner ← inner .lowest
    let _ ← expect .rightParen
    return inner
  | .identifier => if p.startsCall then call inner else prefixOperation inner
  | .operator => prefixOperation inner
  | .rightParen | .comma | .eof => unexpected

/-- What follows the left operand `left`: at most `count` infix operators that bind at least as
tightly as `min`, with their right operands. -/
def chainTail (inner : Precedence → Parse Parsed) (min : Precedence) :
    (count : Nat) → Parsed → Parse Parsed
  | 0, left => return left
  | count + 1, (left, height) => do
    match (← get).infixOperator? with
    | none => return (left, height)
    | some op =>
      if op.precedence.rank < min.rank then return (left, height)
      else
        let token ← advance
        let tighter := match op.associativity with
          | .left => op.precedence.tighter
          | .right => op.precedence
        let (right, rightHeight) ← operand inner token tighter
        let height ← nodeHeight (max height rightHeight)
        match op.build? [left, right] with
        | none => fail (missingOperand token)
        | some tree => chainTail inner min count (tree, height)

/-- Operands joined by infix operators that bind at least as tightly as `min`. -/
def chain (inner : Precedence → Parse Parsed) (min : Precedence) : Parse Parsed := do
  let left ← primary inner
  chainTail inner min ((← get).following.length + 1) left

/-- An expression in at most the given number of levels. -/
def expression : (levels : Nat) → Precedence → Parse Parsed
  | 0, _ => fail (.tooDeep maxDepth)
  | levels + 1, min => do
    if (← get).depth ≥ maxDepth then fail (.tooDeep maxDepth)
    else opening (chain (expression levels) min)

/-- The number of tokens of a kind. -/
def countKind (kind : TokenKind) (tokens : List Token) : Nat :=
  tokens.countP (·.kind = kind)

/-- One expression that takes up all tokens. -/
def whole : Parse Tree := do
  let tokens := (← get).tokens
  let expected := countKind .leftParen tokens
  let found := countKind .rightParen tokens
  if expected ≠ found then fail (.parenthesisMismatch expected found)
  else
    let (tree, _) ← expression maxDepth .lowest
    if (← get).current.kind = .eof then return tree else unexpected

end Parse

/-- The tree that a list of tokens forms, if the program goes on. -/
def Tree.parse? (overflow : Overflow) (tokens : List Token) : Option (Except ParseError Tree) :=
  (Parser.ofTokens? overflow tokens).map fun p => (Parse.whole.run p).1

/-- The tree that a list of tokens forms, where sums wrap around. It is the same wherever the program
goes on, so in particular for the tokens of a source (`parse?_of_tokenize`). -/
def Tree.ofTokens (tokens : List Token) : Except ParseError Tree :=
  (Parse.whole.run (Parser.ofTokens tokens)).1

end Formula
