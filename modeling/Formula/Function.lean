import Formula.Text.LetterCase

/-!
# Functions

The names of the built-in functions and the numbers of arguments they take. What the functions
compute is in `Formula.Function.Call`.
-/

namespace Formula

/-- The built-in functions. -/
inductive Function where
  | abs | acos | asin | atan | average | ceiling | concat | contains | cos | count | endsWith | exp
  | floor | oneOf | length | log | log10 | max | min | pow | round | sign | sin | sqrt | startsWith
  | substring | sum | tan | truncate
  deriving DecidableEq, Repr

/-- The numbers of arguments that a function accepts. -/
inductive Arity where
  | exactly (count : Nat)
  | atLeast (count : Nat)
  deriving DecidableEq, Repr

/-- A call with a number of arguments that its function does not accept. -/
structure ArityError where
  function : Function
  found : Nat
  deriving DecidableEq

namespace Arity

/-- Whether a number of arguments is accepted. -/
def accepts : Arity → Nat → Bool
  | exactly n, count => count == n
  | atLeast n, count => n ≤ count

/-- The text of an arity: the count, with a plus if it is a lower bound. -/
def text : Arity → String
  | exactly n => n.repr
  | atLeast n => n.repr ++ "+"

/-- What a function of this arity asks for. -/
def requirement : Arity → String
  | exactly n => "takes only " ++ n.repr
  | atLeast n => "expects at least " ++ n.repr

end Arity

namespace Function

/-- All functions, in the alphabetical order of their names. -/
def all : List Function :=
  [abs, acos, asin, atan, average, ceiling, concat, contains, cos, count, endsWith, exp, floor,
    oneOf, length, log, log10, max, min, pow, round, sign, sin, sqrt, startsWith, substring, sum,
    tan, truncate]

/-- The name of a function as messages show it. -/
def name : Function → String
  | abs => "Abs"
  | acos => "Acos"
  | asin => "Asin"
  | atan => "Atan"
  | average => "Average"
  | ceiling => "Ceiling"
  | concat => "Concat"
  | contains => "Contains"
  | cos => "Cos"
  | count => "Count"
  | endsWith => "EndsWith"
  | exp => "Exp"
  | floor => "Floor"
  | oneOf => "In"
  | length => "Length"
  | log => "Log"
  | log10 => "Log10"
  | max => "Max"
  | min => "Min"
  | pow => "Pow"
  | round => "Round"
  | sign => "Sign"
  | sin => "Sin"
  | sqrt => "Sqrt"
  | startsWith => "StartsWith"
  | substring => "Substring"
  | sum => "Sum"
  | tan => "Tan"
  | truncate => "Truncate"

/-- The numbers of arguments that a function accepts. -/
def arity : Function → Arity
  | average | concat | count | max | min | sum => .atLeast 1
  | oneOf => .atLeast 2
  | contains | endsWith | log | pow | round | startsWith => .exactly 2
  | substring => .exactly 3
  | abs | acos | asin | atan | ceiling | cos | exp | floor | length | log10 | sign | sin | sqrt
  | tan | truncate => .exactly 1

/-- Accepts a number of arguments, or says that it is wrong. -/
def checkArity (f : Function) (count : Nat) : Except ArityError Unit :=
  if f.arity.accepts count then .ok () else .error ⟨f, count⟩

/-- The function with a given name, ignoring letter case. -/
def find? (name : String) : Option Function :=
  let folded := Text.lowercase name
  all.find? fun f => Text.lowercase f.name == folded

/-- The list of functions is complete. -/
theorem mem_all (f : Function) : f ∈ all := by cases f <;> decide

end Function

/-- The message for a wrong number of arguments. -/
def ArityError.message (e : ArityError) : String :=
  e.function.name ++ "() " ++ e.function.arity.requirement ++ " argument(s)"

end Formula
