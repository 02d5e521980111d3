import Formula.Value

/-!
# What can go wrong in an evaluation

Errors are given by their causes; `EvalError.message` has all their wording.
-/

namespace Formula

/-- What a function finds wrong with its arguments. -/
inductive ArgumentFault where
  /-- There are `found` arguments, which the function does not accept. -/
  | count (found : Nat)
  | notNumeric (kind : Kind)
  | notString (kind : Kind)
  /-- The number of places to round to is not an integer from 0 to 28. -/
  | places (given : Value)
  /-- The start or length of a part is not an integer from 0 on. -/
  | bounds (start length : Value)
  /-- A part reaches beyond the end of a string. -/
  | range (start stop length : Nat)

/-- The ways in which an evaluation fails. -/
inductive EvalError where
  | unresolvedVariable (name : String)
  /-- A binary operator does not accept operands of these kinds together. -/
  | typeMismatch (operator : String) (left right : Kind)
  /-- A unary or logical operator does not accept an operand of this kind. -/
  | invalidOperand (operator : String) (operand : Kind)
  | invalidArgument (function : Function) (fault : ArgumentFault)
  /-- A function is not defined at a number, or at a number together with a base. -/
  | domain (function : Function) (x : Double) (base : Option Double)
  | divisionByZero
  | overflow (operator : String)
  /-- Variables bound to expressions lead too deeply into each other. -/
  | nestingTooDeep (name : String) (limit : Nat)
  /-- The tree is too high, nested expressions included. -/
  | tooDeep (limit : Nat)

/-- What is wrong with the arguments of a function, behind its name. -/
def ArgumentFault.message (function : Function) : ArgumentFault → String
  | count found =>
    "expects " ++ function.arity.text ++ " argument(s), got " ++ found.repr
  | notNumeric kind => "expects a numeric argument, got '" ++ kind.name ++ "'"
  | notString kind => "expects a string argument, got '" ++ kind.name ++ "'"
  | places given => "expects a digit count between 0 and 28, got " ++ given.text
  | bounds start length =>
    "expects a non-negative integer start and length, got " ++ start.text ++ " and " ++ length.text
  | range start stop length =>
    "range " ++ start.repr ++ ".." ++ stop.repr ++ " is outside a string of length " ++ length.repr

/-- The message for an evaluation error. -/
def EvalError.message : EvalError → String
  | unresolvedVariable name => "variable '" ++ name ++ "' is not defined"
  | typeMismatch operator left right =>
    "Operator '" ++ operator ++ "' can't be applied to operands of types '" ++ left.name ++
      "' and '" ++ right.name ++ "'"
  | invalidOperand operator operand =>
    "Operator '" ++ operator ++ "' can't be applied to an operand of type '" ++ operand.name ++ "'"
  | invalidArgument function fault => function.name ++ "() " ++ fault.message function
  | domain function x base =>
    function.name ++ "() is undefined for " ++ x.text ++
      match base with
      | none => ""
      | some base => " in base " ++ base.text
  | divisionByZero => "division by zero"
  | overflow operator => "arithmetic overflow in '" ++ operator ++ "'"
  | nestingTooDeep name limit =>
    "variable '" ++ name ++ "' nests expressions deeper than " ++ limit.repr ++ " levels"
  | tooDeep limit => "evaluation descends deeper than " ++ limit.repr ++ " levels"

end Formula
