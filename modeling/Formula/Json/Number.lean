import Formula.Json
import Formula.Text.Digits

/-!
# The numbers of JSON

What a number denotes, given its sign, the digits before and behind its point and its exponent. An
integer is a number without point and exponent that a 64-bit word holds and that is not minus zero.

Any other number is a double, but not always the nearest one. Its digits are gathered into a
significand as long as a 64-bit word holds it, and the rest is dropped. The significand is rounded
to a double and then multiplied or divided by a power of ten, which is itself a double, so the last
bit may be off. A number is invalid if that makes it infinite.
-/

namespace Formula.Json

open NaturalPower

/-! ## Significands -/

/-- The number `± significand · 10 ^ exponent`. -/
structure Numeral where
  negative : Bool
  significand : Nat
  exponent : Int

/-- The significand with as many of the digits behind it as a 64-bit word holds, and the digits that
are left then. -/
def gather (significand : Nat) : List Char → Nat × List Char
  | [] => (significand, [])
  | c :: rest =>
    let next := 10 * significand + Text.digitValue c
    if next < 2 ^ (64 : Nat) then gather next rest else (significand, c :: rest)

/-- The numeral of the digits before and behind a point. A digit before the point that is dropped
counts in the exponent, and so does one behind the point that is not. -/
def Numeral.ofDigits (negative : Bool) (whole fraction : List Char) (exponent : Int) : Numeral :=
  let (significand, dropped) := gather 0 whole
  let (significand, ignored) := gather significand fraction
  ⟨negative, significand, exponent + dropped.length + ignored.length - fraction.length⟩

/-! ## Doubles -/

/-- The exponent of the largest power of ten that is a finite double. -/
def maxPower : Nat := 308

/-- The double nearest `10 ^ n`. -/
def powerOfTen (n : Nat) : Double := Double.ofScientific false 1 n

/-- `10 ^ n` times a double that is not negative. -/
def scaleUp (x : Double) (n : Nat) : Double :=
  if n ≤ maxPower then x.mul (powerOfTen n)
  else if x.isZero then x
  else .infinity false

/-- A significand divided by `10 ^ n`, in two steps if there is no such power. What is left of a
significand after two full steps is zero. -/
def scaleDown (x : Double) (n : Nat) : Double :=
  if n ≤ maxPower then x.div (powerOfTen n)
  else if n ≤ 2 * maxPower then (x.div (powerOfTen maxPower)).div (powerOfTen (n - maxPower))
  else Double.zero false

/-- The double of a numeral. -/
def Numeral.toDouble (a : Numeral) : Double :=
  let x := Double.ofInt a.significand
  let x := match a.exponent with
    | .ofNat n => scaleUp x n
    | .negSucc n => scaleDown x (n + 1)
  if a.negative then x.neg else x

/-! ## Values -/

/-- The value of a number. The digits behind the point are missing if there is no point, and so is
the exponent. -/
def number? (negative : Bool) (whole : List Char) (fraction : Option (List Char))
    (exponent : Option Int) : Option Scalar :=
  let magnitude := Text.natOfDigits whole
  let signed : Int := if negative then -magnitude else magnitude
  if fraction.isNone && exponent.isNone && isWordSized signed && !(negative && magnitude == 0) then
    some (.integer signed)
  else
    let x := (Numeral.ofDigits negative whole (fraction.getD []) (exponent.getD 0)).toDouble
    if x.isFinite then some (.double x) else none

end Formula.Json
