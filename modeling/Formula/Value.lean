import Formula.Function
import Formula.Operator
import Formula.Number.Decimal.Text
import Formula.Number.Double.Text
import Formula.Number.Integer
import Formula.Calendar.DateTime

/-!
# Values and expression trees

Values come in seven kinds. Three of them are numbers, and a value may also be a whole expression,
which a variable bound to it stands for. Expressions in turn are trees whose leaves are values and
variables, so the two are defined together.

Two expressions are one value only if they are the same object: an `Expression` carries a serial
number, given by whoever reads it from its source, and equality looks at nothing else.
-/

namespace Formula

mutual

/-- A value of the formula language. -/
inductive Value where
  | integer (n : Int64)
  | decimal (d : Decimal)
  | double (x : Double)
  | string (s : String)
  | boolean (b : Bool)
  | dateTime (t : DateTime)
  | expression (e : Expression)

/-- A formula that was read: its source, its tree and the number that tells it from all others. -/
inductive Expression where
  | mk (source : String) (tree : Tree) (serial : Nat)

/-- The tree of a formula. -/
inductive Tree where
  | literal (value : Value)
  | reference (name : String)
  | unary (op : UnaryOp) (operand : Tree)
  | binary (op : BinaryOp) (left right : Tree)
  | call (function : Function) (arguments : List Tree)

end

instance : Inhabited Value := ⟨.boolean false⟩

instance : Inhabited Tree := ⟨.literal default⟩

namespace Expression

/-- The text the expression was read from. -/
def source : Expression → String
  | mk source _ _ => source

/-- The tree of the expression. -/
def tree : Expression → Tree
  | mk _ tree _ => tree

/-- The number of the expression. -/
def serial : Expression → Nat
  | mk _ _ serial => serial

end Expression

/-- The kinds of values. -/
inductive Kind where
  | integer | decimal | double | string | boolean | dateTime | expression
  deriving DecidableEq, Repr

/-- The name of a kind as messages show it. -/
def Kind.name : Kind → String
  | integer => "integer"
  | decimal => "decimal"
  | double => "double"
  | string => "string"
  | boolean => "boolean"
  | dateTime => "datetime"
  | expression => "expression"

/-- Whether values of the kind are numbers. -/
def Kind.isNumeric : Kind → Bool
  | integer | decimal | double => true
  | string | boolean | dateTime | expression => false

namespace Value

/-- The kind of a value. -/
def kind : Value → Kind
  | integer _ => .integer
  | decimal _ => .decimal
  | double _ => .double
  | string _ => .string
  | boolean _ => .boolean
  | dateTime _ => .dateTime
  | expression _ => .expression

/-- Whether the value is a number. -/
def isNumeric (v : Value) : Bool := v.kind.isNumeric

/-- The double nearest a number. -/
def toDouble? : Value → Option Double
  | integer n => some (Double.ofInt n.toInt)
  | decimal d => some d.toDouble
  | double x => some x
  | _ => none

/-- The integer that the value is. -/
def toInteger? : Value → Option Int64
  | integer n => some n
  | _ => none

/-- The truth value that the value is. -/
def toBoolean? : Value → Option Bool
  | boolean b => some b
  | _ => none

/-- The string that the value is. -/
def toString? : Value → Option String
  | string s => some s
  | _ => none

/-- The text of a value, as concatenation shows it. -/
def text : Value → String
  | integer n => Integer.text n
  | decimal d => d.text
  | double x => x.text
  | string s => s
  | boolean b => if b then "true" else "false"
  | dateTime t => t.text
  | expression e => e.source

/-- Equality within one kind: of the numbers, texts and times, and of expressions as objects. -/
def same : Value → Value → Bool
  | integer a, integer b => a == b
  | decimal a, decimal b => a.numEq b
  | double a, double b => a.numEq b
  | string a, string b => a == b
  | boolean a, boolean b => a == b
  | dateTime a, dateTime b => a == b
  | expression a, expression b => a.serial == b.serial
  | _, _ => false

instance : BEq Value := ⟨same⟩

end Value

/-- The tree of an operator over its operands, if there are as many as it takes. -/
def Operator.build? : Operator → List Tree → Option Tree
  | unary op, [operand] => some (.unary op operand)
  | binary op, [left, right] => some (.binary op left right)
  | _, _ => none

/-- The height of a tree; a leaf has height one. -/
def Tree.height : Tree → Nat
  | literal _ | reference _ => 1
  | unary _ operand => operand.height + 1
  | binary _ left right => max left.height right.height + 1
  | call _ arguments => heightAll arguments + 1
where
  /-- The height of the tallest of several trees. -/
  heightAll : List Tree → Nat
    | [] => 0
    | tree :: rest => max tree.height (heightAll rest)

end Formula
