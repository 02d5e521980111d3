import Formula.Number.Double
import Formula.Number.Fixed

/-!
# Elementary functions of doubles

Each function returns the double nearest the exact result. The special cases come first: NaN and the
infinities, zeros whose sign is kept, and the points where the result is known exactly. Everything
else is computed in fixed point and rounded by `ofFixed`.
-/

namespace Formula.Double

/-- The double nearest the number that a fixed-point approximation stands for. -/
def ofFixed (a : Int) : Double :=
  round (a < 0) (Fixed.significant a.natAbs * one) Fixed.one.natAbs

/-- A finite double in fixed point. -/
def toFixed (negative : Bool) (units : Nat) : Int := signedUnits negative units * Fixed.one / one

/-- The square root; a negative number has none, and a zero is returned with its sign. The integer
root has over five hundred bits, so one further bit that tells whether it is exact decides every
rounding. -/
def sqrt : Double → Double
  | nan => nan
  | infinity negative => if negative then nan else infinity false
  | finite negative units h =>
    if units = 0 then finite negative units h
    else if negative then nan
    else
      let root := Fixed.natSqrt (units * one)
      round false (2 * root + if root * root = units * one then 0 else 1) 2

/-- The exponential function, given the exponent in fixed point. Beyond 800 the result is out of
range on either side. -/
def expOfFixed (negative : Bool) (a : Int) : Double :=
  if a > 800 * Fixed.one then infinity negative
  else if a < -800 * Fixed.one then zero negative
  else if negative then (ofFixed (Fixed.exp a)).neg else ofFixed (Fixed.exp a)

/-- The exponential function. -/
def exp : Double → Double
  | nan => nan
  | infinity negative => if negative then zero false else infinity false
  | finite negative units _ => expOfFixed false (toFixed negative units)

/-- A logarithm whose base has the natural logarithm `base` in fixed point. -/
def logBase (base : Int) : Double → Double
  | nan => nan
  | infinity negative => if negative then nan else infinity false
  | finite negative units _ =>
    if units = 0 then infinity true
    else if negative then nan
    else if units = one then zero false
    else ofFixed (Fixed.div (Fixed.logOf units 1074) base)

/-- The natural logarithm. -/
def ln : Double → Double := logBase Fixed.one

/-- The decimal logarithm. -/
def log10 : Double → Double := logBase Fixed.log10

/-- A circular function: undefined at the infinities, `atZero` on zeros, and otherwise given by
the angle of the magnitude and the sign. -/
def circular (atZero : Double → Double) (f : Bool → Fixed.Angle → Int) : Double → Double
  | nan | infinity _ => nan
  | finite negative units h =>
    if units = 0 then atZero (finite negative units h)
    else ofFixed (f negative (Fixed.Angle.ofRatio units 1074))

/-- The sine. -/
def sin : Double → Double :=
  circular id fun negative angle => if negative then -angle.sin else angle.sin

/-- The cosine. -/
def cos : Double → Double := circular (fun _ => ofInt 1) fun _ angle => angle.cos

/-- The tangent. -/
def tan : Double → Double :=
  circular id fun negative angle =>
    if negative then -Fixed.div angle.sin angle.cos else Fixed.div angle.sin angle.cos

/-- The inverse tangent. -/
def atan : Double → Double
  | nan => nan
  | infinity negative => ofFixed (if negative then -(Fixed.pi / 2) else Fixed.pi / 2)
  | finite negative units h =>
    if units = 0 then finite negative units h
    else
      let angle := Fixed.arctan (toFixed false units)
      ofFixed (if negative then -angle else angle)

/-- The inverse sine, defined between -1 and 1. -/
def asin : Double → Double
  | nan | infinity _ => nan
  | finite negative units h =>
    if units = 0 then finite negative units h
    else if one < units then nan
    else
      let x := toFixed false units
      let angle := if units = one then Fixed.pi / 2
        else Fixed.arctan (Fixed.div x (Fixed.sqrt (Fixed.one - Fixed.mul x x)))
      ofFixed (if negative then -angle else angle)

/-- The inverse cosine, defined between -1 and 1, as twice the inverse tangent of
`√((1 - x) / (1 + x))`. -/
def acos : Double → Double
  | nan | infinity _ => nan
  | finite negative units _ =>
    if one < units then nan
    else if units = one ∧ negative then ofFixed Fixed.pi
    else
      let x := toFixed negative units
      ofFixed (2 * Fixed.arctan (Fixed.sqrt (Fixed.div (Fixed.one - x) (Fixed.one + x))))

/-! ## Powers -/

/-- Whether a number of units is a whole number. -/
def isWhole (units : Nat) : Bool := units % one == 0

/-- Whether a number of units is an odd whole number. -/
def isOdd (units : Nat) : Bool := isWhole units && units / one % 2 == 1

/-- The power of a base by an infinite exponent. -/
def powInfinity (base : Double) (towardZero : Bool) : Double :=
  match base.abs.compare? (ofInt 1) with
  | none => nan
  | some .eq => ofInt 1
  | some .lt => if towardZero then infinity false else zero false
  | some .gt => if towardZero then zero false else infinity false

/-- The power of a base by an exponent. Anything to the power zero is one, and so is one to any
power; a negative base needs a whole exponent, and the result is then negative for an odd one. -/
def pow (base exponent : Double) : Double :=
  if exponent.isZero || base.numEq (ofInt 1) then ofInt 1
  else match base, exponent with
    | nan, _ | _, nan => nan
    | base, infinity negative => powInfinity base negative
    | infinity negative, finite down units _ =>
      let sign := negative && isOdd units
      if down then zero sign else infinity sign
    | finite negative units _, finite down places _ =>
      let sign := negative && isOdd places
      if units = 0 then (if down then infinity sign else zero sign)
      else if negative && !isWhole places then nan
      else expOfFixed sign (Fixed.logOf units 1074 * signedUnits down places / one)

end Formula.Double
