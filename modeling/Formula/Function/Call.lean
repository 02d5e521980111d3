import Formula.Evaluation.Operation
import Formula.Number.Double.Elementary

/-!
# What the functions compute

`Function.call` applies a function to the values of its arguments. It refuses a wrong number of
arguments first; then every function looks at its arguments from left to right.

The string functions see a string as a sequence of characters, so all lengths and positions count
characters.
-/

namespace Formula

/-- Whether `part` occurs in a text. -/
def Text.hasPart (part : List Char) : List Char → Bool
  | [] => part.isEmpty
  | c :: rest => part.isPrefixOf (c :: rest) || hasPart part rest

/-- `x` rounded to `places` decimal places, a half going to the even neighbour; if `x` is too large
to be scaled it is returned as it is. -/
def Double.roundTo (x : Double) (places : Nat) : Double :=
  let factor := (Double.ofInt 10).powNat places
  let scaled := x.mul factor
  if scaled.isFinite then scaled.nearestWhole.div factor else x

/-- The sign of a number as -1, 0 or 1. -/
def Decimal.sign (a : Decimal) : Int64 := if a.isZero then 0 else if a.negative then -1 else 1

/-- The sign of a number other than NaN as -1, 0 or 1. -/
def Double.sign (x : Double) : Int64 := if x.isZero then 0 else if x.isNegative then -1 else 1

namespace Function

/-- The error for an argument that is no number. -/
def notNumeric (f : Function) (v : Value) : EvalError := .invalidArgument f (.notNumeric v.kind)

/-- The number that an argument is, as a double. -/
def number (f : Function) (v : Value) : Except EvalError Double :=
  match v.toDouble? with
  | some x => .ok x
  | none => .error (f.notNumeric v)

/-- The characters of an argument that is a string. -/
def chars (f : Function) (v : Value) : Except EvalError (List Char) :=
  match v.toString? with
  | some s => .ok s.toList
  | none => .error (.invalidArgument f (.notString v.kind))

/-! ## Numbers -/

/-- A function of one number that is defined everywhere. -/
def overDoubles (f : Function) (compute : Double → Double) (v : Value) : Except EvalError Value :=
  (f.number v).map fun x => .double (compute x)

/-- A function of one number that is defined where `inside` holds. -/
def within (f : Function) (inside : Double → Bool) (compute : Double → Double) (v : Value) :
    Except EvalError Value := do
  let x ← f.number v
  if inside x then return .double (compute x) else throw (.domain f x none)

/-- Whether a number lies between -1 and 1. -/
def inUnitInterval (x : Double) : Bool :=
  (x.compare? (.ofInt (-1))).any (· ≠ .lt) && (x.compare? (.ofInt 1)).any (· ≠ .gt)

/-- Whether a number is zero or below. -/
def isNotPositive (x : Double) : Bool := x.isNegative || x.isZero

/-- The magnitude. -/
def absOf : Value → Except EvalError Value
  | .integer n => Value.orOverflow "Abs" .integer (Integer.abs? n)
  | .decimal d => .ok (.decimal d.abs)
  | .double x => .ok (.double x.abs)
  | v => .error (abs.notNumeric v)

/-- A rounding to a whole number, which keeps the kind. -/
def wholeOf (f : Function) (decimal : Decimal → Decimal) (double : Double → Double) :
    Value → Except EvalError Value
  | .integer n => .ok (.integer n)
  | .decimal d => .ok (.decimal (decimal d))
  | .double x => .ok (.double (double x))
  | v => .error (f.notNumeric v)

/-- The number of places to round to. -/
def placesOf (v : Value) : Except EvalError Nat :=
  match v with
  | .integer n =>
    if 0 ≤ n ∧ n ≤ 28 then .ok n.toInt.toNat else .error (.invalidArgument round (.places v))
  | _ => .error (.invalidArgument round (.places v))

/-- A rounding to a number of places; the places are looked at first. -/
def roundOf (v places : Value) : Except EvalError Value := do
  let places ← placesOf places
  wholeOf round (·.roundTo places) (·.roundTo places) v

/-- The sign; NaN has none. -/
def signOf : Value → Except EvalError Value
  | .integer n => .ok (.integer (if n = 0 then 0 else if n < 0 then -1 else 1))
  | .decimal d => .ok (.integer d.sign)
  | .double x => if x.isNaN then .error (.domain sign x none) else .ok (.integer x.sign)
  | v => .error (sign.notNumeric v)

/-- The logarithm of a number to a base. -/
def logOf (v base : Value) : Except EvalError Value := do
  let x ← log.number v
  let base ← log.number base
  if isNotPositive x || isNotPositive base || base.numEq (.ofInt 1) then
    throw (.domain log x (some base))
  else return .double (x.ln.div base.ln)

/-- The power of a number. -/
def powOf (v exponent : Value) : Except EvalError Value := do
  let x ← pow.number v
  return .double (x.pow (← pow.number exponent))

/-! ## Aggregates -/

/-- The mean of several numbers, as a double. -/
def averageOf (args : List Value) : Except EvalError Value := do
  let total ← args.foldlM
    (fun (total : Double) v => return total.add (← average.number v)) (Double.ofInt 0)
  return .double (total.div (.ofInt args.length))

/-- The sum of several numbers from the left, starting with the integer zero. -/
def sumOf (args : List Value) : Except EvalError Value :=
  args.foldlM
    (fun total v => if v.isNumeric then total.add v else .error (sum.notNumeric v)) (.integer 0)

/-- The first of several values that no other one is beyond, as the comparison `op` sees it. -/
def extremeOf (op : BinaryOp) (first : Value) (rest : List Value) : Except EvalError Value :=
  rest.foldlM
    (fun best v => return if op.holds (← Value.compare op v best) then v else best) first

/-- Whether a value equals one of several others; values that cannot be compared are not equal. -/
def isOneOf (v : Value) (others : List Value) : Bool :=
  others.any fun other => v.compare? other == some (some .eq)

/-! ## Strings -/

/-- The concatenation of the texts of several values. -/
def concatOf (args : List Value) : String := String.join (args.map Value.text)

/-- A test of two strings. -/
def testOf (f : Function) (test : List Char → List Char → Bool) (v w : Value) :
    Except EvalError Value := do
  let s ← f.chars v
  return .boolean (test s (← f.chars w))

/-- The part of a string from a start on with a given length. -/
def substringOf (v start length : Value) : Except EvalError Value := do
  let s ← substring.chars v
  match start.toInteger?, length.toInteger? with
  | some i, some n =>
    if 0 ≤ i ∧ 0 ≤ n then
      let i := i.toInt.toNat
      let n := n.toInt.toNat
      if s.length < i + n then throw (.invalidArgument substring (.range i (i + n) s.length))
      else return .string (String.ofList ((s.drop i).take n))
    else throw (.invalidArgument substring (.bounds start length))
  | _, _ => throw (.invalidArgument substring (.bounds start length))

/-! ## Calls -/

/-- The value of a function over as many arguments as it accepts. -/
def apply (f : Function) (args : List Value) : Except EvalError Value :=
  match f, args with
  | abs, [v] => absOf v
  | ceiling, [v] => wholeOf f Decimal.ceiling Double.ceiling v
  | floor, [v] => wholeOf f Decimal.floor Double.floor v
  | truncate, [v] => wholeOf f Decimal.truncate Double.truncate v
  | round, [v, places] => roundOf v places
  | sign, [v] => signOf v
  | acos, [v] => within f inUnitInterval Double.acos v
  | asin, [v] => within f inUnitInterval Double.asin v
  | atan, [v] => overDoubles f Double.atan v
  | cos, [v] => overDoubles f Double.cos v
  | sin, [v] => overDoubles f Double.sin v
  | tan, [v] => overDoubles f Double.tan v
  | exp, [v] => overDoubles f Double.exp v
  | sqrt, [v] => within f (fun x => !x.isNegative) Double.sqrt v
  | log10, [v] => within f (fun x => !isNotPositive x) Double.log10 v
  | log, [v, base] => logOf v base
  | pow, [v, exponent] => powOf v exponent
  | average, args => averageOf args
  | sum, args => sumOf args
  | count, args => .ok (.integer (Int64.ofNat args.length))
  | max, first :: rest => extremeOf .greaterThan first rest
  | min, first :: rest => extremeOf .lessThan first rest
  | oneOf, v :: others => .ok (.boolean (isOneOf v others))
  | length, [v] => (f.chars v).map fun s => .integer (Int64.ofNat s.length)
  | concat, args => .ok (.string (concatOf args))
  | contains, [v, w] => testOf f (fun s t => Text.hasPart t s) v w
  | startsWith, [v, w] => testOf f (fun s t => t.isPrefixOf s) v w
  | endsWith, [v, w] => testOf f (fun s t => t.isSuffixOf s) v w
  | substring, [v, start, size] => substringOf v start size
  | f, args => .error (.invalidArgument f (.count args.length))

/-- The value of a function over its arguments. -/
def call (f : Function) (args : List Value) : Except EvalError Value :=
  if f.arity.accepts args.length then f.apply args
  else .error (.invalidArgument f (.count args.length))

/-- A function without a greatest number of arguments gets all that are given, if they are enough.
-/
theorem call_of_atLeast {f : Function} {args : List Value} {count : Nat}
    (harity : f.arity = .atLeast count) (hcount : count ≤ args.length) :
    f.call args = f.apply args := by
  have haccepts : f.arity.accepts args.length = true := by
    rw [harity]
    exact decide_eq_true hcount
  exact if_pos haccepts

end Function

end Formula
