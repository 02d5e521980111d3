import Formula.Number.Decimal
import Formula.Text.Digits

/-!
# The text of a decimal

A decimal is written with all its places, and a negative zero with its sign. It is read from an
optional sign, digits and at most one point, in which underscores may stand anywhere behind the
first digit. The point may come first or last, but there has to be a digit. An exponent may follow,
which moves the point.

Digits behind the point that do not fit any more are rounded off: the first of them decides, a five
going up, and the others have no weight. Before the point they are an error. An underscore where no
place is left is told apart by the length of the mantissa, see `Reading.read?`.
-/

namespace Formula.Decimal

open NaturalPower

/-- The text of a decimal. -/
def text (a : Decimal) : String :=
  String.ofList ((if a.negative then ['-'] else []) ++
    Text.positional (Text.digitsOfNat a.mantissa) (-a.scale))

/-! ## Reading digits -/

/-- What the reader knows so far. -/
structure Reading where
  mantissa : Nat
  scale : Nat
  pointSeen : Bool
  digitSeen : Bool
  /-- Whether an underscore has been passed over since the last digit. -/
  separated : Bool

namespace Reading

/-- The state before the first character. -/
def start : Reading := ⟨0, 0, false, false, false⟩

/-- The state after another digit, which fits. -/
def push (state : Reading) (digit : Nat) : Reading :=
  { state with
    mantissa := 10 * state.mantissa + digit
    scale := if state.pointSeen then state.scale + 1 else state.scale
    digitSeen := true
    separated := false }

/-- Whether no place is left. An underscore that is passed over opens one more. -/
def isFull (state : Reading) : Bool :=
  state.pointSeen && maxScale ≤ state.scale && !state.separated

/-- Whether another digit fits. -/
def hasRoom (state : Reading) (digit : Nat) : Bool :=
  !state.isFull && 10 * state.mantissa + digit < mantissaBound

/-- A mantissa below this bound is well within 64 bits, whatever digit comes next. -/
def wideBound : Nat := (2 ^ (64 : Nat) - 1) / 10 - 255

/-- Whether the mantissa was past `wideBound` already before its last digit. -/
def isWide (state : Reading) : Bool := wideBound ≤ state.mantissa / 10

/-- The mantissa and scale that are left when the first digit that does not fit is rounded off. If
rounding up leaves the bounds, one more place is given up. -/
def roundOff? (state : Reading) (digit : Nat) : Option (Nat × Nat) :=
  if digit < 5 then some (state.mantissa, state.scale)
  else if state.mantissa + 1 < mantissaBound then some (state.mantissa + 1, state.scale)
  else if state.scale = 0 then none
  else some ((state.mantissa + 5) / 10, state.scale - 1)

/-- What is left when `digit` does not fit and `rest` follows it: digits and underscores, which
count no more. -/
def cut? (state : Reading) (digit : Nat) (rest : List Char) : Option (Nat × Nat) :=
  if rest.all fun c => Text.isDigit c || c == '_' then state.roundOff? digit else none

/-- The mantissa and scale of an unsigned text. Where no place is left an underscore is passed over
in a wide mantissa; in others it counts as a zero. -/
def read? (state : Reading) : List Char → Option (Nat × Nat)
  | [] => if state.digitSeen then some (state.mantissa, state.scale) else none
  | c :: rest =>
    if Text.isDigit c then
      if state.hasRoom (Text.digitValue c) then read? (state.push (Text.digitValue c)) rest
      else if state.pointSeen then state.cut? (Text.digitValue c) rest
      else none
    else if c == '_' then
      if state.isFull && !state.isWide then state.cut? 0 rest
      else if state.digitSeen then read? { state with separated := true } rest
      else none
    else if c == '.' then
      if state.pointSeen then none else read? { state with pointSeen := true } rest
    else none

end Reading

/-- The decimal of a sign and an unsigned text. A zero has no sign. Places are counted modulo
`maxScale + 1`, which matters only behind an underscore. -/
def readSigned? (negative : Bool) (text : List Char) : Option Decimal := do
  let (mantissa, scale) ← Reading.start.read? text
  ofParts? (negative && mantissa ≠ 0) mantissa (scale % (maxScale + 1))

/-- The decimal of a text without exponent. -/
def readPlain? : List Char → Option Decimal
  | '-' :: rest => readSigned? true rest
  | '+' :: rest => readSigned? false rest
  | rest => readSigned? false rest

/-! ## Reading exponents -/

/-- `a` divided by `10 ^ n`, for an `n` up to `maxScale`. Places beyond that are rounded off, a half
going away from zero. -/
def lower? (a : Decimal) (n : Nat) : Option Decimal :=
  if maxScale < n then none
  else if a.scale + n ≤ maxScale then ofParts? a.negative a.mantissa (a.scale + n)
  else ofParts? a.negative (divHalfUp a.mantissa (10 ^ (a.scale + n - maxScale))) maxScale

/-- `a` multiplied by `10 ^ n`, for an `n` up to `maxScale`, if it stays within the bounds. Places
are given up first, and zeros are put behind the digits when no place is left. -/
def raise? (a : Decimal) (n : Nat) : Option Decimal :=
  if maxScale < n then none
  else ofParts? a.negative (a.mantissa * 10 ^ (n - a.scale)) (a.scale - n)

/-- The number of a run of digits, which a plus sign may precede. -/
def magnitude? (text : List Char) : Option Nat :=
  let digits := match text with
    | '+' :: rest => rest
    | rest => rest
  if digits ≠ [] ∧ digits.all Text.isDigit then some (Text.natOfDigits digits) else none

/-- Whether a character announces an exponent. -/
def isMark (c : Char) : Bool := c == 'e' || c == 'E'

/-- The decimal that a text denotes. -/
def read? (text : List Char) : Option Decimal := do
  let a ← readPlain? (text.takeWhile fun c => !isMark c)
  match text.dropWhile fun c => !isMark c with
  | _ :: '-' :: digits => a.lower? (← magnitude? digits)
  | _ :: digits => a.raise? (← magnitude? digits)
  | [] => return a

end Formula.Decimal
