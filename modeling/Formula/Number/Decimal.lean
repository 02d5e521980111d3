import Formula.Number.Double

/-!
# Fixed-point decimals

A decimal is a sign, a mantissa below `2 ^ 96` and a scale of at most 28: the number
`± mantissa / 10 ^ scale`. The scale is kept, so that `1.50` and `1.5` are different decimals of one
value, and so is the sign of a zero.

A result that needs a larger mantissa or more places is rounded by `Decimal.fit?`: half to even, at
the largest scale that makes the mantissa fit. If not even scale 0 does, the operation overflows.
-/

namespace Formula

open NaturalPower

/-- Mantissas are below this bound. -/
def Decimal.mantissaBound : Nat := 2 ^ (96 : Nat)

/-- The largest scale. -/
def Decimal.maxScale : Nat := 28

/-- The decimal `± mantissa / 10 ^ scale`. -/
structure Decimal where
  negative : Bool
  mantissa : Nat
  scale : Nat
  mantissa_lt : mantissa < Decimal.mantissaBound
  scale_le : scale ≤ Decimal.maxScale
  deriving DecidableEq

namespace Decimal

/-- The decimal with the given parts, if they are within the bounds. -/
def ofParts? (negative : Bool) (mantissa scale : Nat) : Option Decimal :=
  if h : mantissa < mantissaBound ∧ scale ≤ maxScale then
    some ⟨negative, mantissa, scale, h.1, h.2⟩
  else none

/-- Plain zero. -/
def zero : Decimal := ⟨false, 0, 0, by decide, by decide⟩

/-- Whether the number is zero, of either sign and any scale. -/
def isZero (a : Decimal) : Bool := a.mantissa == 0

/-- The mantissa with its sign. -/
def signedMantissa (a : Decimal) : Int := if a.negative then -a.mantissa else a.mantissa

/-! ## Order

Two decimals are compared by cross multiplication, so neither the scale nor the sign of a zero
counts. -/

/-- The order of the values. -/
def compare (a b : Decimal) : Ordering :=
  Ord.compare (a.signedMantissa * 10 ^ b.scale) (b.signedMantissa * 10 ^ a.scale)

/-- Equality of the values. -/
def numEq (a b : Decimal) : Bool := a.compare b == .eq

/-! ## Rounding to the bounds -/

/-- The decimal nearest `± num / den` at the largest scale up to `scale` at which it fits. A zero
has no sign. -/
def fit? (negative : Bool) (num den : Nat) : (scale : Nat) → Option Decimal
  | 0 => ofParts? (negative && divHalfEven num den ≠ 0) (divHalfEven num den) 0
  | scale + 1 =>
    let mantissa := divHalfEven (num * 10 ^ (scale + 1)) den
    match ofParts? (negative && mantissa ≠ 0) mantissa (scale + 1) with
    | some a => some a
    | none => fit? negative num den scale

/-- `a` without the zeros at the end of its places; at most `steps` of them. -/
def trimZeros : (steps : Nat) → Decimal → Decimal
  | 0, a => a
  | steps + 1, a =>
    if a.scale ≠ 0 ∧ a.mantissa % 10 = 0 then
      trimZeros steps ⟨a.negative, a.mantissa / 10, a.scale - 1,
        Nat.lt_of_le_of_lt (Nat.div_le_self _ _) a.mantissa_lt,
        Nat.le_trans (Nat.sub_le _ _) a.scale_le⟩
    else a

/-- `a` with as few places as its value needs; a zero loses its sign. -/
def normalize (a : Decimal) : Decimal := if a.isZero then zero else trimZeros a.scale a

/-! ## Arithmetic -/

/-- The number of the opposite sign; zeros change sign too. -/
def neg (a : Decimal) : Decimal := { a with negative := !a.negative }

/-- The magnitude. -/
def abs (a : Decimal) : Decimal := { a with negative := false }

/-- The sum of two nonzero decimals, at the larger of the two scales if that fits. -/
def addAligned? (a b : Decimal) : Option Decimal :=
  let scale := max a.scale b.scale
  let sum := a.signedMantissa * 10 ^ (scale - a.scale) + b.signedMantissa * 10 ^ (scale - b.scale)
  fit? (sum < 0) sum.natAbs (10 ^ scale) scale

/-- The sum. When a side is zero the other one is returned as it is. -/
def add? (a b : Decimal) : Option Decimal :=
  if a.isZero then some b else if b.isZero then some a else addAligned? a b

/-- The difference. When the right side is zero the left one is returned as it is, unless it is
zero too: then the right one is. When only the left side is zero the right one is negated. -/
def sub? (a b : Decimal) : Option Decimal :=
  if a.isZero then some (if b.isZero then b else b.neg)
  else if b.isZero then some a
  else addAligned? a b.neg

/-- The product, at the sum of the scales if that fits; a zero factor gives plain zero. -/
def mul? (a b : Decimal) : Option Decimal :=
  if a.isZero || b.isZero then some zero
  else
    fit? (a.negative ^^ b.negative) (a.mantissa * b.mantissa) (10 ^ (a.scale + b.scale))
      (min (a.scale + b.scale) maxScale)

/-- The quotient by a nonzero decimal. Where the mantissas divide evenly the scale is the difference
of the scales, or 0; elsewhere as many places are taken as fit, without zeros at the end. -/
def div? (a b : Decimal) : Option Decimal :=
  let negative := a.negative ^^ b.negative
  if a.isZero then some zero
  else if a.mantissa % b.mantissa = 0 then
    ofParts? negative (a.mantissa / b.mantissa * 10 ^ (b.scale - a.scale)) (a.scale - b.scale)
  else
    (fit? negative (a.mantissa * 10 ^ b.scale) (b.mantissa * 10 ^ a.scale) maxScale).map
      fun q => trimZeros q.scale q

/-- The remainder of the division truncated toward zero by a nonzero decimal. A dividend of smaller
magnitude is returned as it is, and one of equal magnitude leaves plain zero. -/
def rem? (a b : Decimal) : Option Decimal :=
  if a.isZero then some zero
  else match a.abs.compare b.abs with
    | .eq => some zero
    | .lt => some a
    | .gt =>
      let scale := max a.scale b.scale
      let rest := (a.mantissa * 10 ^ (scale - a.scale)) % (b.mantissa * 10 ^ (scale - b.scale))
      ofParts? (a.negative && rest ≠ 0) rest scale

/-! ## Rounding to places -/

/-- Dropping digits keeps a mantissa within its bound. -/
theorem div_lt_mantissaBound (a : Decimal) (k : Nat) : a.mantissa / k < mantissaBound :=
  Nat.lt_of_le_of_lt (Nat.div_le_self _ _) a.mantissa_lt

/-- The whole number next to zero; a result of zero keeps its sign. -/
def truncate (a : Decimal) : Decimal :=
  ⟨a.negative, a.mantissa / 10 ^ a.scale, 0, a.div_lt_mantissaBound _, Nat.zero_le _⟩

/-- Whether the decimal has digits other than zero behind the point. -/
def hasFraction (a : Decimal) : Bool := a.mantissa % 10 ^ a.scale ≠ 0

/-- The whole part of a decimal with a fraction leaves room for one more. -/
theorem succ_div_lt_mantissaBound {a : Decimal} (h : a.hasFraction = true) :
    a.mantissa / 10 ^ a.scale + 1 < mantissaBound := by
  have hne : a.mantissa % 10 ^ a.scale ≠ 0 := by simpa [hasFraction] using h
  have hscale : a.scale ≠ 0 := by
    intro h0
    rw [h0] at hne
    exact hne (Nat.mod_one _)
  have hten : 10 ≤ 10 ^ a.scale := Nat.le_self_pow hscale 10
  have hdiv : a.mantissa / 10 ^ a.scale ≤ a.mantissa / 10 := Nat.div_le_div_left hten (by decide)
  have hlt := a.mantissa_lt
  unfold mantissaBound at *
  omega

/-- The whole number next in the direction away from zero; a result of zero keeps its sign. -/
def awayFromZero (a : Decimal) : Decimal :=
  if h : a.hasFraction = true then
    ⟨a.negative, a.mantissa / 10 ^ a.scale + 1, 0, succ_div_lt_mantissaBound h, Nat.zero_le _⟩
  else a.truncate

/-- The largest whole number not above. -/
def floor (a : Decimal) : Decimal := if a.negative then a.awayFromZero else a.truncate

/-- The smallest whole number not below. -/
def ceiling (a : Decimal) : Decimal := if a.negative then a.truncate else a.awayFromZero

/-- `a` rounded to at most `places` places, a half going to the even neighbour. A nonzero number
that is rounded to zero loses its sign. -/
def roundTo (a : Decimal) (places : Nat) : Decimal :=
  if h : places < a.scale then
    let mantissa := divHalfEven a.mantissa (10 ^ (a.scale - places))
    have hbound : mantissa < mantissaBound := by
      have hten : 10 ≤ 10 ^ (a.scale - places) := Nat.le_self_pow (by omega) 10
      have hdiv : a.mantissa / 10 ^ (a.scale - places) ≤ a.mantissa / 10 :=
        Nat.div_le_div_left hten (by decide)
      have hle : mantissa ≤ _ := divHalfEven_le a.mantissa (10 ^ (a.scale - places))
      have hlt := a.mantissa_lt
      unfold mantissaBound at *
      omega
    ⟨a.negative && (a.isZero || mantissa ≠ 0), mantissa, places, hbound,
      Nat.le_trans (Nat.le_of_lt h) a.scale_le⟩
  else a

/-! ## Conversions -/

/-- The decimal of a whole number, if it is within the bounds. -/
def ofInt? (n : Int) : Option Decimal := ofParts? (n < 0) n.natAbs 0

/-- The double nearest the value. A zero keeps its sign only if it has places. -/
def toDouble (a : Decimal) : Double :=
  Double.round (a.negative && !(a.isZero && a.scale == 0)) (a.mantissa * Double.one) (10 ^ a.scale)

/-- The decimal at the largest scale up to `scale` whose mantissa, rounded half up, has at most 52
bits; at scale 0 any mantissa will do. -/
def ofUnits? (negative : Bool) (units : Nat) : (scale : Nat) → Option Decimal
  | 0 => ofParts? negative (divHalfUp units Double.one) 0
  | scale + 1 =>
    let mantissa := divHalfUp (units * 10 ^ (scale + 1)) Double.one
    if mantissa < 2 ^ (52 : Nat) then ofParts? negative mantissa (scale + 1)
    else ofUnits? negative units scale

/-- The decimal that stands for a double: its leading fifteen or sixteen digits without zeros at the
end, with the sign kept also on zero. NaN, the infinities and magnitudes from `2 ^ 96` on have
none. -/
def ofDouble? : Double → Option Decimal
  | .nan | .infinity _ => none
  | .finite negative units _ =>
    if units < mantissaBound * Double.one then
      (ofUnits? negative units maxScale).map fun a => trimZeros a.scale a
    else none

end Decimal

end Formula
