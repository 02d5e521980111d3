import Formula.Number.Rounding

/-!
# Fixed-point approximations of the elementary functions

A real number is approximated here by an integer count of `2 ^ -1600`. That many places leave more
than five hundred significant bits even of the smallest double, so the few last places lost to
truncated series never reach the 192 bits that `significant` keeps. Two roundings are harmless: the
values on which a rounding to 53 bits turns have at most 54 significant bits, and rounding to 192
bits first restores such a value whenever it is the exact result.

Every series is summed from its last term inwards, so that each step is one multiplication by the
running sum and one division by a small integer.
-/

namespace Formula.Fixed

open NaturalPower

/-- The number of binary places. -/
def places : Nat := 1600

/-- One in fixed point. -/
def one : Int := 2 ^ places

/-- The product of two fixed-point numbers. -/
def mul (a b : Int) : Int := a * b / one

/-- The quotient of two fixed-point numbers. -/
def div (a b : Int) : Int := a * one / b

/-- Newton's iteration for the square root of `n`, started above it and stopped when it no longer
falls. -/
def sqrtFrom (n : Nat) : Nat → Nat → Nat
  | 0, x => x
  | steps + 1, x => if (x + n / x) / 2 < x then sqrtFrom n steps ((x + n / x) / 2) else x

/-- The integer part of the square root of `n`. -/
def natSqrt (n : Nat) : Nat := sqrtFrom n (n.log2 + 2) (2 ^ (n.log2 / 2 + 1))

/-- The square root of a nonnegative fixed-point number. -/
def sqrt (a : Int) : Int := natSqrt (a * one).toNat

/-- `Σ (sign · w) ^ j / (2 j + 1)` over `terms` terms from `j = k` on, with the power taken from `k`
on: the common tail of the series of the inverse tangents, in units of `unit`. -/
def inverseTail (unit w : Int) : Nat → Nat → Int
  | 0, _ => 0
  | terms + 1, k => unit / (2 * k + 1 : Nat) + w * inverseTail unit w terms (k + 1) / unit

/-- The inverse tangent of `t` in units of `unit`, for `t` well below one. -/
def arctanSeries (unit : Int) (terms : Nat) (t : Int) : Int :=
  t * inverseTail unit (-(t * t / unit)) terms 0 / unit

/-- `π` in units of `unit`, by Machin's formula. -/
def piOf (unit : Int) (terms : Nat) : Int :=
  16 * arctanSeries unit terms (unit / 5) - 4 * arctanSeries unit terms (unit / 239)

/-- `π` in fixed point. -/
def pi : Int := piOf one 384

/-! ## Exponential and logarithm -/

/-- The logarithm of a ratio `(1 + z) / (1 - z)`, for `z` up to a third. -/
def logOfRatio (z : Int) : Int := 2 * mul z (inverseTail one (mul z z) 512 0)

/-- The natural logarithm of two. -/
def log2 : Int := logOfRatio (one / 3)

/-- The natural logarithm of ten. -/
def log10 : Int := 3 * log2 + logOfRatio (one / 9)

/-- The natural logarithm of `num / 2 ^ scale`, for a positive `num`: the power of two in it, and
the logarithm of what remains between one and two. -/
def logOf (num scale : Nat) : Int :=
  let rest : Int := num * one / 2 ^ num.log2
  ((num.log2 : Int) - scale) * log2 + logOfRatio (div (rest - one) (rest + one))

/-- `1 + r / k · (1 + r / (k + 1) · ⋯)` over `terms` terms. -/
def expTail (r : Int) : Nat → Nat → Int
  | 0, _ => one
  | terms + 1, k => one + mul r (expTail r terms (k + 1)) / (k : Int)

/-- The exponential of a fixed-point number: halvings of two taken out to the nearest power. -/
def exp (a : Int) : Int :=
  let power := (2 * a + log2) / (2 * log2)
  let base := expTail (a - power * log2) 256 1
  match power with
  | .ofNat n => base * 2 ^ n
  | .negSucc n => base / 2 ^ (n + 1)

/-! ## Circular functions -/

/-- `1 - w / ((k + 1) (k + 2)) · (1 - w / ((k + 3) (k + 4)) · ⋯)` over `terms` terms. -/
def circularTail (w : Int) : Nat → Nat → Int
  | 0, _ => one
  | terms + 1, k =>
    one - mul w (circularTail w terms (k + 2)) / ((k + 1) * (k + 2) : Nat)

/-- The sine of an angle of at most an eighth of a turn. -/
def sinSeries (r : Int) : Int := mul r (circularTail (mul r r) 160 1)

/-- The cosine of an angle of at most an eighth of a turn. -/
def cosSeries (r : Int) : Int := circularTail (mul r r) 160 0

/-- An angle split into a number of quarter turns, of which only the remainder by four is kept, and
a rest of at most an eighth of a turn. -/
structure Angle where
  quarters : Int
  rest : Int

/-- The angle of `num / 2 ^ scale` radians, for `scale` at most 2800; `π` is taken to 2800 places,
so that the rest is exact to `places` even after many turns. -/
def Angle.ofRatio (num scale : Nat) : Angle :=
  let unit : Int := 2 ^ (2800 : Nat)
  let quarter := piOf unit 640 / 2
  let radians : Int := num * 2 ^ (2800 - scale)
  let quarters := (2 * radians + quarter) / (2 * quarter)
  ⟨quarters % 4, (radians - quarters * quarter) / 2 ^ (2800 - places)⟩

/-- The sine of an angle. -/
def Angle.sin (angle : Angle) : Int :=
  if angle.quarters = 0 then sinSeries angle.rest
  else if angle.quarters = 1 then cosSeries angle.rest
  else if angle.quarters = 2 then -sinSeries angle.rest
  else -cosSeries angle.rest

/-- The cosine of an angle. -/
def Angle.cos (angle : Angle) : Int := Angle.sin ⟨(angle.quarters + 1) % 4, angle.rest⟩

/-- The inverse tangent of `t`, for `0 ≤ t ≤ 1`; the angle is halved `halvings` times first. -/
def arctanHalving : Nat → Int → Int
  | 0, t => arctanSeries one 256 t
  | halvings + 1, t => 2 * arctanHalving halvings (div t (one + sqrt (one + mul t t)))

/-- The inverse tangent of a nonnegative fixed-point number. -/
def arctan (t : Int) : Int :=
  if t ≤ one then arctanHalving 3 t else pi / 2 - arctanHalving 3 (div one t)

/-! ## The bits that are kept -/

/-- `n` rounded to its 192 leading bits. -/
def significant (n : Nat) : Nat :=
  let exponent := n.log2 + 1 - 192
  divHalfEven n (2 ^ exponent) * 2 ^ exponent

end Formula.Fixed
