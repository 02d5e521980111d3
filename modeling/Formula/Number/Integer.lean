import Formula.Text.Digits

/-!
# 64-bit integers

Integers are signed 64-bit words. Arithmetic is done on whole numbers and checked by
`Integer.ofInt?`, so that a result out of range is reported and never wraps. The shifts are the
exception: `shiftLeft?` drops the bits that leave the word, and both shifts need a count between 0
and 63.
-/

namespace Formula.Integer

/-- The word that holds a whole number, if it is in range. -/
def ofInt? (n : Int) : Option Int64 :=
  if Int64.minValue.toInt ≤ n ∧ n ≤ Int64.maxValue.toInt then some (Int64.ofInt n) else none

/-- The sum, if it is in range. -/
def add? (a b : Int64) : Option Int64 := ofInt? (a.toInt + b.toInt)

/-- The difference, if it is in range. -/
def sub? (a b : Int64) : Option Int64 := ofInt? (a.toInt - b.toInt)

/-- The product, if it is in range. -/
def mul? (a b : Int64) : Option Int64 := ofInt? (a.toInt * b.toInt)

/-- The negation, if it is in range. -/
def neg? (a : Int64) : Option Int64 := ofInt? (-a.toInt)

/-- The magnitude, if it is in range. -/
def abs? (a : Int64) : Option Int64 := ofInt? a.toInt.natAbs

/-- The remainder of the division truncated toward zero by a nonzero word, if the quotient is in
range. -/
def rem? (a b : Int64) : Option Int64 := do
  let _ ← ofInt? (a.toInt.tdiv b.toInt)
  ofInt? (a.toInt.tmod b.toInt)

/-- `a` shifted up, for a count between 0 and 63; bits that leave the word are lost. -/
def shiftLeft? (a count : Int64) : Option Int64 :=
  if 0 ≤ count ∧ count < 64 then some (a <<< count) else none

/-- `a` shifted down with its sign, for a count between 0 and 63. -/
def shiftRight? (a count : Int64) : Option Int64 :=
  if 0 ≤ count ∧ count < 64 then some (a >>> count) else none

/-- The text of a word. -/
def text (a : Int64) : String := a.toInt.repr

/-- The word of a sign and a run of digits, if there are digits and the number is in range. -/
def readSigned? (negative : Bool) (digits : List Char) : Option Int64 :=
  if digits ≠ [] ∧ digits.all Text.isDigit then
    ofInt? (if negative then -Text.natOfDigits digits else Text.natOfDigits digits)
  else none

/-- The word that a text of digits with an optional sign denotes. -/
def read? : List Char → Option Int64
  | '-' :: rest => readSigned? true rest
  | '+' :: rest => readSigned? false rest
  | rest => readSigned? false rest

end Formula.Integer
