import Formula.Number.Rounding

/-!
# Double precision numbers

A double is NaN, an infinity, or a finite number with its sign. The magnitude of a finite double is
a whole number of *units*, a unit being `2 ^ -1074`, the smallest positive double. The counts that
occur are the `Representable` ones: below `2 ^ 2098`, with all their significant bits within 53
places. A zero keeps its sign, and there is one NaN.

All arithmetic goes through `Double.round`, which takes an exact quotient of units to the nearest
double. Its grid is spaced by `2 ^ (log₂ q - 52)` units around a quotient `q`, a half goes to the
even multiple, and a result of `2 ^ 2098` units or more is an infinity; `aligned_nearestUnits` is
the fact that the grid point it picks is representable.
-/

namespace Formula

open NaturalPower

/-- The number of units in one. -/
@[irreducible] def Double.one : Nat := 2 ^ (1074 : Nat)

/-- The number of units from which on a magnitude is infinite. -/
@[irreducible] def Double.overflow : Nat := 2 ^ (2098 : Nat)

/-- The number 1 is this many units. -/
theorem Double.one_eq : Double.one = 2 ^ (1074 : Nat) := by unfold Double.one; rfl

/-- The first number beyond all finite doubles is this many units. -/
theorem Double.overflow_eq : Double.overflow = 2 ^ (2098 : Nat) := by unfold Double.overflow; rfl

/-- The magnitudes of finite doubles: small enough, and with at most 53 significant bits. -/
def Double.Representable (units : Nat) : Prop :=
  units < Double.overflow ∧ 2 ^ (units.log2 - 52) ∣ units

instance (units : Nat) : Decidable (Double.Representable units) := by
  unfold Double.Representable; infer_instance

/-- A double precision number; a finite one is `± units · 2 ^ -1074`. -/
inductive Double where
  | nan
  | infinity (negative : Bool)
  | finite (negative : Bool) (units : Nat) (representable : Double.Representable units)
  deriving DecidableEq

namespace Double

/-! ## Rounding to the nearest double -/

/-- The multiple of the grid spacing that is nearest to `num / den` units. -/
def nearestUnits (num den : Nat) : Nat :=
  let exponent := (num / den).log2 - 52
  divHalfEven num (den * 2 ^ exponent) * 2 ^ exponent

/-- A multiple of at most `2 ^ 53` grid spacings has at most 53 significant bits. -/
theorem aligned_mul_pow {n e : Nat} (h : n ≤ 2 ^ (53 : Nat)) :
    2 ^ ((n * 2 ^ e).log2 - 52) ∣ n * 2 ^ e := by
  by_cases hn : n = 0
  · simp [hn]
  have hpos : n * 2 ^ e ≠ 0 := Nat.mul_ne_zero hn (Nat.ne_of_gt (Nat.pow_pos (by decide)))
  rcases Nat.lt_or_eq_of_le h with hlt | rfl
  · have hlog : (n * 2 ^ e).log2 < 53 + e := by
      rw [Nat.log2_lt hpos, Nat.pow_add]
      exact Nat.mul_lt_mul_of_pos_right hlt (Nat.pow_pos (by decide))
    exact Nat.dvd_trans (Nat.pow_dvd_pow 2 (by omega)) (Nat.dvd_mul_left _ _)
  · rw [← Nat.pow_add, Nat.log2_two_pow]
    exact Nat.pow_dvd_pow 2 (by omega)

/-- A quotient that is scaled to 53 bits has no more of them after rounding. -/
theorem divHalfEven_scaled_le (num den : Nat) :
    divHalfEven num (den * 2 ^ ((num / den).log2 - 52)) ≤ 2 ^ (53 : Nat) := by
  refine Nat.le_trans (divHalfEven_le _ _) ?_
  rw [← Nat.div_div_eq_div_mul]
  refine Nat.succ_le_of_lt ?_
  rw [Nat.div_lt_iff_lt_mul (Nat.pow_pos (by decide)), ← Nat.pow_add]
  refine Nat.lt_of_lt_of_le Nat.lt_log2_self (Nat.pow_le_pow_right (by decide) (by omega))

/-- The nearest multiple of the grid spacing has at most 53 significant bits. -/
theorem aligned_nearestUnits (num den : Nat) :
    2 ^ ((nearestUnits num den).log2 - 52) ∣ nearestUnits num den :=
  aligned_mul_pow (divHalfEven_scaled_le num den)

/-- A representable number of units is its own nearest neighbour. -/
theorem nearestUnits_mul_left {units den : Nat} (hden : 0 < den)
    (h : 2 ^ (units.log2 - 52) ∣ units) : nearestUnits (units * den) den = units := by
  obtain ⟨n, hn⟩ := h
  unfold nearestUnits
  rw [Nat.mul_div_cancel _ hden]
  have hsplit : units * den = n * (den * 2 ^ (units.log2 - 52)) := by
    conv => lhs; rw [hn]
    simp only [Nat.mul_comm, Nat.mul_left_comm]
  simp only []
  rw [hsplit, divHalfEven_mul_left (Nat.mul_pos hden (Nat.pow_pos (by decide))), Nat.mul_comm n]
  exact hn.symm

/-- The double nearest `± num / den` units. -/
def round (negative : Bool) (num den : Nat) : Double :=
  if h : nearestUnits num den < overflow then
    finite negative (nearestUnits num den) ⟨h, aligned_nearestUnits num den⟩
  else infinity negative

/-- A number that is a double already is rounded to itself. -/
theorem round_of_representable {units den : Nat} (negative : Bool) (hden : 0 < den)
    (h : Representable units) : round negative (units * den) den = finite negative units h := by
  unfold round
  have heq := nearestUnits_mul_left hden h.2
  simp only [heq]
  rw [dif_pos h.1]

/-- Zero with the given sign. -/
def zero (negative : Bool) : Double := round negative 0 1

/-- The double nearest an exact number of units; `zeroNegative` is the sign of an exact zero. -/
def ofUnits (zeroNegative : Bool) (units : Int) : Double :=
  if units = 0 then zero zeroNegative else round (units < 0) units.natAbs 1

/-- The double nearest an integer. -/
def ofInt (n : Int) : Double := ofUnits false (n * (one : Int))

/-- The double nearest `± mantissa · 10 ^ exponent`. -/
def ofScientific (negative : Bool) (mantissa : Nat) (exponent : Int) : Double :=
  match exponent with
  | .ofNat e => round negative (mantissa * 10 ^ e * one) 1
  | .negSucc e => round negative (mantissa * one) (10 ^ (e + 1))

/-- The double whose interchange format is `bits`: a sign bit, eleven exponent bits and 52 fraction
bits. -/
def ofBits (bits : UInt64) : Double :=
  let negative := bits.toNat / 2 ^ (63 : Nat) % 2 == 1
  let exponent := bits.toNat / 2 ^ (52 : Nat) % 2 ^ (11 : Nat)
  let fraction := bits.toNat % 2 ^ (52 : Nat)
  if exponent = 2047 then
    if fraction = 0 then infinity negative else nan
  else if exponent = 0 then round negative fraction 1
  else round negative ((2 ^ (52 : Nat) + fraction) * 2 ^ (exponent - 1)) 1

/-! ## Tests and order -/

def isNaN : Double → Bool
  | nan => true
  | _ => false

def isFinite : Double → Bool
  | finite .. => true
  | _ => false

/-- The units of a finite double with their sign. -/
def signedUnits (negative : Bool) (units : Nat) : Int := if negative then -units else units

/-- The place of a double on the number line, in units; NaN has none. -/
def rank : Double → Option Int
  | nan => none
  | infinity negative => some (signedUnits negative overflow)
  | finite negative units _ => some (signedUnits negative units)

/-- The order of two doubles; a NaN is not comparable, and both zeros are equal. -/
def compare? (a b : Double) : Option Ordering := do return compare (← a.rank) (← b.rank)

/-- Equality of the numbers: both zeros are equal and NaN equals nothing. -/
def numEq (a b : Double) : Bool := a.compare? b == some .eq

/-- Whether the number lies below zero. -/
def isNegative (a : Double) : Bool := a.compare? (zero false) == some .lt

/-- Whether the number is zero, of either sign. -/
def isZero (a : Double) : Bool := a.numEq (zero false)

/-! ## Arithmetic -/

/-- The number of the opposite sign. -/
def neg : Double → Double
  | nan => nan
  | infinity negative => infinity (!negative)
  | finite negative units h => finite (!negative) units h

/-- The magnitude. -/
def abs : Double → Double
  | nan => nan
  | infinity _ => infinity false
  | finite _ units h => finite false units h

/-- The sum; an exact zero is positive unless both sides are negative zeros. -/
def add : Double → Double → Double
  | nan, _ | _, nan => nan
  | infinity a, infinity b => if a = b then infinity a else nan
  | infinity a, finite .. => infinity a
  | finite .., infinity b => infinity b
  | finite a m _, finite b n _ => ofUnits (a && b) (signedUnits a m + signedUnits b n)

/-- The difference. -/
def sub (a b : Double) : Double := a.add b.neg

/-- The product. -/
def mul : Double → Double → Double
  | nan, _ | _, nan => nan
  | infinity a, infinity b => infinity (a ^^ b)
  | infinity a, finite b n _ => if n = 0 then nan else infinity (a ^^ b)
  | finite a m _, infinity b => if m = 0 then nan else infinity (a ^^ b)
  | finite a m _, finite b n _ => round (a ^^ b) (m * n) one

/-- The quotient; only zero divided by zero and infinity divided by infinity have none. -/
def div : Double → Double → Double
  | nan, _ | _, nan => nan
  | infinity _, infinity _ => nan
  | infinity a, finite b _ _ => infinity (a ^^ b)
  | finite a _ _, infinity b => zero (a ^^ b)
  | finite a m _, finite b n _ =>
    if n = 0 then (if m = 0 then nan else infinity (a ^^ b)) else round (a ^^ b) (m * one) n

/-- The remainder of the division truncated toward zero, with the sign of the dividend. -/
def rem : Double → Double → Double
  | nan, _ | _, nan | infinity _, _ => nan
  | finite a m h, infinity _ => finite a m h
  | finite a m _, finite _ n _ => if n = 0 then nan else round a (m % n) 1

/-- A rounding to whole numbers, given by what it does to a sign and a number of units. -/
def toWhole (whole : Bool → Nat → Nat) : Double → Double
  | nan => nan
  | infinity negative => infinity negative
  | finite negative units _ => round negative (whole negative units * one) 1

/-- The whole number next to zero. -/
def truncate : Double → Double := toWhole fun _ units => units / one

/-- The largest whole number not above. -/
def floor : Double → Double :=
  toWhole fun negative units => if negative then (units + one - 1) / one else units / one

/-- The smallest whole number not below. -/
def ceiling : Double → Double :=
  toWhole fun negative units => if negative then units / one else (units + one - 1) / one

/-- The nearest whole number, a half going to the even one. -/
def nearestWhole : Double → Double := toWhole fun _ units => divHalfEven units one

/-- The power with a natural exponent, by repeated squaring of the rounded base. -/
def powNat (base : Double) (exponent : Nat) : Double := go base exponent (ofInt 1)
where
  /-- Multiplies `acc` by `base` to the power `n`, halving `n` at every step. -/
  go (base : Double) (n : Nat) (acc : Double) : Double :=
    let acc := if n % 2 = 1 then acc.mul base else acc
    if h : n / 2 = 0 then acc else go (base.mul base) (n / 2) acc
  termination_by n
  decreasing_by omega

end Double

end Formula
