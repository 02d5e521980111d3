import Formula.Text.LetterCase

/-!
# Operators

An operator stands before one operand or between two, binds with one of twelve strengths and has one
or two spellings. `Operator.find?` is the table: it finds the operator that a text spells at a given
place, in whatever letter case. The same spelling can be two operators, one for each place, as with
`-`.
-/

namespace Formula

/-- Operators with one operand. -/
inductive UnaryOp where
  | negate | plus | not
  deriving DecidableEq, Repr

/-- Operators with two operands. -/
inductive BinaryOp where
  | add | subtract | multiply | divide | modulus
  | equal | notEqual | lessThan | greaterThan | lessEqual | greaterEqual
  | and | or
  | bitAnd | bitOr | bitXor | shiftLeft | shiftRight
  deriving DecidableEq, Repr

/-- An operator with one operand or with two. -/
inductive Operator where
  | unary (op : UnaryOp)
  | binary (op : BinaryOp)
  deriving DecidableEq, Repr

/-- Where an operator stands: before its operand, or between its operands. -/
inductive Fixity where
  | before | between
  deriving DecidableEq, Repr

/-- How tightly an operator binds, from the loosest level to the tightest. -/
inductive Precedence where
  | lowest | or | and | bitOr | bitXor | bitAnd
  | equality | relational | shift | additive | multiplicative | unary
  deriving DecidableEq, Repr

/-- Which of two neighbouring operators of one level takes the operand between them. -/
inductive Associativity where
  | left | right
  deriving DecidableEq, Repr

namespace Precedence

/-- All levels, loosest first. -/
def all : List Precedence :=
  [.lowest, .or, .and, .bitOr, .bitXor, .bitAnd, .equality, .relational, .shift, .additive,
    .multiplicative, .unary]

/-- The place of a level among all levels. -/
def rank : Precedence → Nat
  | lowest => 0
  | or => 1
  | and => 2
  | bitOr => 3
  | bitXor => 4
  | bitAnd => 5
  | equality => 6
  | relational => 7
  | shift => 8
  | additive => 9
  | multiplicative => 10
  | unary => 11

/-- The next tighter level; there is none above `unary`. -/
def tighter : Precedence → Precedence
  | lowest => or
  | or => and
  | and => bitOr
  | bitOr => bitXor
  | bitXor => bitAnd
  | bitAnd => equality
  | equality => relational
  | relational => shift
  | shift => additive
  | additive => multiplicative
  | multiplicative | unary => unary

/-- The order of two levels, the tighter one being greater. -/
def compare (a b : Precedence) : Ordering := Ord.compare a.rank b.rank

/-- The name of a level. -/
def name : Precedence → String
  | lowest => "Lowest"
  | or => "Or"
  | and => "And"
  | bitOr => "BitwiseOr"
  | bitXor => "BitwiseXor"
  | bitAnd => "BitwiseAnd"
  | equality => "Equality"
  | relational => "Relational"
  | shift => "Shift"
  | additive => "Additive"
  | multiplicative => "Multiplicative"
  | unary => "Unary"

/-- Each precedence has a rank of its own. -/
theorem rank_injective {a b : Precedence} (h : a.rank = b.rank) : a = b := by
  cases a <;> cases b <;> simp_all [rank]

/-- The next tighter precedence has the next rank, up to that of the prefix operators. -/
theorem rank_tighter (p : Precedence) : p.tighter.rank = min (p.rank + 1) unary.rank := by
  cases p <;> rfl

end Precedence

/-- The sign of a unary operator. -/
def UnaryOp.symbol : UnaryOp → String
  | negate => "-"
  | plus => "+"
  | not => "!"

/-- The sign of a binary operator. -/
def BinaryOp.symbol : BinaryOp → String
  | add => "+"
  | subtract => "-"
  | multiply => "*"
  | divide => "/"
  | modulus => "%"
  | equal => "=="
  | notEqual => "!="
  | lessThan => "<"
  | greaterThan => ">"
  | lessEqual => "<="
  | greaterEqual => ">="
  | and => "&&"
  | or => "||"
  | bitAnd => "&"
  | bitOr => "|"
  | bitXor => "^"
  | shiftLeft => "<<"
  | shiftRight => ">>"

/-- How tightly a binary operator binds. -/
def BinaryOp.precedence : BinaryOp → Precedence
  | multiply | divide | modulus => .multiplicative
  | add | subtract => .additive
  | shiftLeft | shiftRight => .shift
  | lessThan | greaterThan | lessEqual | greaterEqual => .relational
  | equal | notEqual => .equality
  | bitAnd => .bitAnd
  | bitXor => .bitXor
  | bitOr => .bitOr
  | and => .and
  | or => .or

namespace Operator

/-- All operators. -/
def all : List Operator :=
  [binary .add, unary .plus, binary .subtract, unary .negate, binary .multiply, binary .divide,
    binary .modulus, binary .equal, binary .notEqual, binary .lessThan, binary .greaterThan,
    binary .lessEqual, binary .greaterEqual, binary .and, binary .or, unary .not, binary .bitAnd,
    binary .bitOr, binary .bitXor, binary .shiftLeft, binary .shiftRight]

/-- The primary spelling, which is always a sign. -/
def symbol : Operator → String
  | unary op => op.symbol
  | binary op => op.symbol

/-- The further spellings. -/
def alternatives : Operator → List String
  | unary .not => ["not"]
  | binary .modulus => ["mod"]
  | binary .equal => ["="]
  | binary .notEqual => ["<>"]
  | binary .and => ["and"]
  | binary .or => ["or"]
  | _ => []

/-- All spellings, the primary one first. -/
def spellings (op : Operator) : List String := op.symbol :: op.alternatives

/-- Where the operator stands. -/
def fixity : Operator → Fixity
  | unary _ => .before
  | binary _ => .between

/-- How tightly the operator binds. -/
def precedence : Operator → Precedence
  | unary _ => .unary
  | binary op => op.precedence

/-- Operators of one level are applied from left to right. -/
def associativity (_ : Operator) : Associativity := .left

/-- The number of operands. -/
def arity (op : Operator) : Nat :=
  match op.fixity with
  | .before => 1
  | .between => 2

/-- The name of an operator. -/
def name : Operator → String
  | unary .negate => "Negate"
  | unary .plus => "UnaryPlus"
  | unary .not => "Not"
  | binary .add => "Add"
  | binary .subtract => "Subtract"
  | binary .multiply => "Multiply"
  | binary .divide => "Divide"
  | binary .modulus => "Modulus"
  | binary .equal => "Equal"
  | binary .notEqual => "NotEqual"
  | binary .lessThan => "LessThan"
  | binary .greaterThan => "GreaterThan"
  | binary .lessEqual => "LessEqual"
  | binary .greaterEqual => "GreaterEqual"
  | binary .and => "And"
  | binary .or => "Or"
  | binary .bitAnd => "BitwiseAnd"
  | binary .bitOr => "BitwiseOr"
  | binary .bitXor => "BitwiseXor"
  | binary .shiftLeft => "LeftShift"
  | binary .shiftRight => "RightShift"

/-- The operator that a text spells at a place, ignoring letter case. -/
def find? (text : String) (fixity : Fixity) : Option Operator :=
  let folded := Text.lowercase text
  all.find? fun op => op.fixity == fixity && op.spellings.contains folded

/-- Whether a text spells an operator, wherever it stands. -/
def isSpelling (text : String) : Bool :=
  (find? text .before).isSome || (find? text .between).isSome

/-- The list of operators is complete. -/
theorem mem_all (op : Operator) : op ∈ all := by
  rcases op with op | op <;> cases op <;> decide

/-- An operator is only found at a place where it can stand. -/
theorem fixity_of_find? {text : String} {fixity : Fixity} {op : Operator}
    (h : find? text fixity = some op) : op.fixity = fixity := by
  have := List.find?_some h
  simp only [Bool.and_eq_true, beq_iff_eq] at this
  exact this.1

end Operator

end Formula
