/-!
# Decimal digits

Reading and writing natural numbers in base ten, and setting a decimal point.
-/

namespace Formula.Text

/-- Whether `c` is one of the ten ASCII digits. -/
def isDigit (c : Char) : Bool := '0' ≤ c && c ≤ '9'

/-- The value of a digit. -/
def digitValue (c : Char) : Nat := c.toNat - '0'.toNat

/-- The number that a run of digits denotes. -/
def natOfDigits (digits : List Char) : Nat :=
  digits.foldl (fun value c => 10 * value + digitValue c) 0

/-- The digits of a number, without leading zeros. -/
def digitsOfNat (n : Nat) : List Char := Nat.toDigits 10 n

/-- `digits` with zeros in front, so that there are at least `width`. -/
def padLeft (width : Nat) (digits : List Char) : List Char :=
  List.replicate (width - digits.length) '0' ++ digits

/-- The number `digits · 10 ^ exponent` in positional notation, with at least one digit before the
point and as many digits behind it as the exponent asks for. -/
def positional (digits : List Char) : (exponent : Int) → List Char
  | .ofNat e => digits ++ List.replicate e '0'
  | .negSucc e =>
    let padded := padLeft (e + 2) digits
    padded.take (padded.length - (e + 1)) ++ '.' :: padded.drop (padded.length - (e + 1))

end Formula.Text
