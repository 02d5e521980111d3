/-!
# Tokens

A token is a lexeme of a formula with its literal text resolved and the place where it started,
counted in characters.
-/

namespace Formula

/-- The categories of tokens. -/
inductive TokenKind where
  /-- A bare word: the name of a function, or an operator such as `mod`. -/
  | identifier
  /-- A literal of digits only. -/
  | number
  /-- A literal of digits with a point. -/
  | decimalNumber
  /-- A text in single quotes; the token holds it without quotes and with escapes resolved. -/
  | string
  /-- A date between number signs; the token holds what stands between them. -/
  | date
  /-- `true` or `false`. -/
  | boolean
  /-- An operator sign. -/
  | operator
  | leftParen
  | rightParen
  | comma
  /-- A name in square brackets; the token holds the name. -/
  | reference
  /-- The end of the input. -/
  | eof
  deriving DecidableEq, Repr

/-- A lexeme with its resolved text and its place. -/
structure Token where
  kind : TokenKind
  text : String
  position : Nat
  deriving DecidableEq, Repr

namespace Token

/-- The token at the end of an input. -/
def eof (position : Nat) : Token := ⟨.eof, "", position⟩

/-- Whether an operand ends with this token, so that an operator behind it stands between two. -/
def endsOperand (token : Token) : Bool :=
  match token.kind with
  | .number | .decimalNumber | .string | .date | .boolean | .reference | .rightParen => true
  | .identifier | .operator | .leftParen | .comma | .eof => false

end Token

end Formula
