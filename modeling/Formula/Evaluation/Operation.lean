import Formula.Evaluation.Error

/-!
# Operators on values

Numbers of different kinds are brought to one kind before they meet. There are two ways to do so:

* `promote?`, for `-`, `*`, `/` and `%`, turns an integer into the kind of the other side and does
  not let a decimal meet a double;
* `widen?`, for `+` and the comparisons, also lets a double become a decimal. Where the double has
  no decimal, the decimal becomes a double.

Everything else about an operator is decided by the kind of the pair that comes out.
-/

namespace Formula

/-- The decimal of an integer. -/
def Decimal.ofInteger (n : Int64) : Decimal :=
  ⟨n.toInt < 0, n.toInt.natAbs, 0, by
    have hlo := n.le_toInt
    have hhi := n.toInt_lt
    unfold mantissaBound
    omega, Nat.zero_le _⟩

/-- The double nearest an integer. -/
def Double.ofInteger (n : Int64) : Double := Double.ofInt n.toInt

/-- Two numbers of one kind. -/
inductive NumericPair where
  | integers (a b : Int64)
  | decimals (a b : Decimal)
  | doubles (a b : Double)

namespace Value

/-- Two numbers brought to one kind, where only integers may change theirs. -/
def promote? : Value → Value → Option NumericPair
  | integer a, integer b => some (.integers a b)
  | decimal a, decimal b => some (.decimals a b)
  | double a, double b => some (.doubles a b)
  | integer a, decimal b => some (.decimals (.ofInteger a) b)
  | decimal a, integer b => some (.decimals a (.ofInteger b))
  | integer a, double b => some (.doubles (.ofInteger a) b)
  | double a, integer b => some (.doubles a (.ofInteger b))
  | _, _ => none

/-- Two numbers brought to one kind, where a double that meets a decimal becomes a decimal if it
can. -/
def widen? : Value → Value → Option NumericPair
  | decimal a, double b =>
    some (match Decimal.ofDouble? b with
      | some b => .decimals a b
      | none => .doubles a.toDouble b)
  | double a, decimal b =>
    some (match Decimal.ofDouble? a with
      | some a => .decimals a b
      | none => .doubles a b.toDouble)
  | left, right => promote? left right

/-- The value of an operation that may be out of range. -/
def orOverflow {α : Type} (operator : String) (make : α → Value) :
    Option α → Except EvalError Value
  | some result => .ok (make result)
  | none => .error (.overflow operator)

/-- The error for operands that do not go together. -/
def mismatch (op : BinaryOp) (left right : Value) : EvalError :=
  .typeMismatch op.symbol left.kind right.kind

/-- Whether a value is a string. -/
def isString (v : Value) : Bool := v.kind = .string

/-- The sum: a concatenation of texts if one side is a string, and otherwise a sum of numbers. -/
def add (left right : Value) : Except EvalError Value :=
  if left.isString || right.isString then .ok (string (left.text ++ right.text))
  else match widen? left right with
    | some (.integers a b) => orOverflow "+" integer (Integer.add? a b)
    | some (.decimals a b) => orOverflow "+" decimal (a.add? b)
    | some (.doubles a b) => .ok (double (a.add b))
    | none => .error (mismatch .add left right)

/-- The difference. -/
def subtract (left right : Value) : Except EvalError Value :=
  match promote? left right with
  | some (.integers a b) => orOverflow "-" integer (Integer.sub? a b)
  | some (.decimals a b) => orOverflow "-" decimal (a.sub? b)
  | some (.doubles a b) => .ok (double (a.sub b))
  | none => .error (mismatch .subtract left right)

/-- The product. -/
def multiply (left right : Value) : Except EvalError Value :=
  match promote? left right with
  | some (.integers a b) => orOverflow "*" integer (Integer.mul? a b)
  | some (.decimals a b) => orOverflow "*" decimal (a.mul? b)
  | some (.doubles a b) => .ok (double (a.mul b))
  | none => .error (mismatch .multiply left right)

/-- The quotient; that of two integers is a double, so it never loses a fraction. -/
def divide (left right : Value) : Except EvalError Value :=
  match promote? left right with
  | some (.integers a b) => .ok (double ((Double.ofInteger a).div (.ofInteger b)))
  | some (.decimals a b) =>
    if b.isZero then .error .divisionByZero else orOverflow "/" decimal (a.div? b)
  | some (.doubles a b) => .ok (double (a.div b))
  | none => .error (mismatch .divide left right)

/-- The remainder of the division truncated toward zero. -/
def modulus (left right : Value) : Except EvalError Value :=
  match promote? left right with
  | some (.integers a b) =>
    if b = 0 then .error .divisionByZero else orOverflow "%" integer (Integer.rem? a b)
  | some (.decimals a b) =>
    if b.isZero then .error .divisionByZero else orOverflow "%" decimal (a.rem? b)
  | some (.doubles a b) => .ok (double (a.rem b))
  | none => .error (mismatch .modulus left right)

/-- The order of two values of one domain, which are the numbers, the strings, the truth values and
the times: none for values of different domains, and `some none` where a NaN is compared. -/
def compare? : Value → Value → Option (Option Ordering)
  | string a, string b => some (some (Ord.compare a b))
  | boolean a, boolean b => some (some (Ord.compare a b))
  | dateTime a, dateTime b => some (some (a.compare b))
  | left, right =>
    (widen? left right).map fun
      | .integers a b => some (Ord.compare a.toInt b.toInt)
      | .decimals a b => some (a.compare b)
      | .doubles a b => a.compare? b

/-- The order of two values, given the operator that asks for it. -/
def compare (op : BinaryOp) (left right : Value) : Except EvalError (Option Ordering) :=
  match compare? left right with
  | some ordering => .ok ordering
  | none => .error (mismatch op left right)

end Value

/-- Whether a comparison holds between values in the given order. -/
def BinaryOp.holds (op : BinaryOp) (ordering : Option Ordering) : Bool :=
  match op with
  | equal => ordering == some .eq
  | notEqual => ordering != some .eq
  | lessThan => ordering == some .lt
  | greaterThan => ordering == some .gt
  | lessEqual => ordering == some .lt || ordering == some .eq
  | greaterEqual => ordering == some .gt || ordering == some .eq
  | _ => false

namespace Value

/-- A comparison of two values. -/
def relate (op : BinaryOp) (left right : Value) : Except EvalError Value :=
  (compare op left right).map fun ordering => boolean (op.holds ordering)

/-- An operation on the bits of two integers. -/
def onBits (op : BinaryOp) (f : Int64 → Int64 → Option Int64) :
    Value → Value → Except EvalError Value
  | integer a, integer b => orOverflow op.symbol integer (f a b)
  | left, right => .error (mismatch op left right)

/-- A logical operation on two truth values. -/
def onTruth (op : BinaryOp) (f : Bool → Bool → Bool) : Value → Value → Except EvalError Value
  | boolean a, boolean b => .ok (boolean (f a b))
  | left, right => .error (mismatch op left right)

end Value

/-- The value of a unary operator. -/
def UnaryOp.apply (op : UnaryOp) (operand : Value) : Except EvalError Value :=
  match op, operand with
  | negate, .integer n => Value.orOverflow "-" .integer (Integer.neg? n)
  | negate, .decimal d => .ok (.decimal d.neg)
  | negate, .double x => .ok (.double x.neg)
  | plus, .integer n => .ok (.integer n)
  | plus, .decimal d => .ok (.decimal d)
  | plus, .double x => .ok (.double x)
  | not, .boolean b => .ok (.boolean !b)
  | op, operand => .error (.invalidOperand op.symbol operand.kind)

/-- The value of a binary operator over the values of both operands. -/
def BinaryOp.apply (op : BinaryOp) (left right : Value) : Except EvalError Value :=
  match op with
  | add => left.add right
  | subtract => left.subtract right
  | multiply => left.multiply right
  | divide => left.divide right
  | modulus => left.modulus right
  | equal | notEqual | lessThan | greaterThan | lessEqual | greaterEqual =>
    Value.relate op left right
  | and => Value.onTruth op (· && ·) left right
  | or => Value.onTruth op (· || ·) left right
  | bitAnd => Value.onBits op (fun a b => some (a &&& b)) left right
  | bitOr => Value.onBits op (fun a b => some (a ||| b)) left right
  | bitXor => Value.onBits op (fun a b => some (a ^^^ b)) left right
  | shiftLeft => Value.onBits op Integer.shiftLeft? left right
  | shiftRight => Value.onBits op Integer.shiftRight? left right

end Formula
