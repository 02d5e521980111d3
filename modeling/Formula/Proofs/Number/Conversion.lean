import Formula.Number.Decimal
import Formula.Proofs.Number.Nearest
import Mathlib.Tactic.NormNum

/-!
# Doubles as decimals and decimals as doubles

A double that meets a decimal is taken for the decimal of its leading digits. That does not keep the
number, but it keeps the order of any two doubles (`value_le_of_ofDouble?`), and it does not move a
double past an integer (`le_value_of_ofDouble?`). The doubles that have no such decimal lie beyond
all decimals, and those that have one leave a gap before them (`ofDouble?_cases`).

The number of places that are kept depends on the double: it is the largest at which the digits make
less than `2 ^ 52`. So a greater double may keep fewer places, and `leading` is compared at two
different scales. What helps is that `2 ^ 52` ends in a six: digits that are too many by one place
make at least a tenth of it, rounded up, when that place is dropped.
-/

namespace Formula

open NaturalPower

/-! ## Rounding half up -/

section

variable {num den n : Nat}

/-- Rounding half up keeps the order. -/
theorem divHalfUp_le_divHalfUp {num' : Nat} (h : num ≤ num') :
    divHalfUp num den ≤ divHalfUp num' den := by
  unfold divHalfUp
  exact Nat.div_le_div_right (by omega)

/-- It does not go below an integer that the quotient has reached. -/
theorem le_divHalfUp (hden : 0 < den) (h : n * den ≤ num) : n ≤ divHalfUp num den := by
  unfold divHalfUp
  rw [Nat.le_div_iff_mul_le (by omega)]
  linarith

/-- Nor beyond an integer that it has not passed. -/
theorem divHalfUp_le (hden : 0 < den) (h : num ≤ n * den) : divHalfUp num den ≤ n := by
  unfold divHalfUp
  rw [← Nat.lt_succ_iff, Nat.div_lt_iff_lt_mul (by omega)]
  linarith

/-- Dropping a place leaves at least the bound if the digits reached it before. -/
theorem bound_le_ten_mul_divHalfUp (hden : 0 < den)
    (h : 2 ^ (52 : Nat) ≤ divHalfUp (num * 10) den) :
    2 ^ (52 : Nat) ≤ 10 * divHalfUp num den := by
  have htenth : 450359962737050 ≤ divHalfUp num den := by
    unfold divHalfUp at h ⊢
    rw [Nat.le_div_iff_mul_le (by omega)] at h ⊢
    omega
  omega

end

namespace Decimal

open Double (one)

/-! ## The leading digits -/

/-- The mantissa and scale of the decimal for a number of units, from a scale downwards. -/
def leading (units : Nat) : (scale : Nat) → Nat × Nat
  | 0 => (divHalfUp units one, 0)
  | scale + 1 =>
    if divHalfUp (units * 10 ^ (scale + 1)) one < 2 ^ (52 : Nat) then
      (divHalfUp (units * 10 ^ (scale + 1)) one, scale + 1)
    else leading units scale

/-- The number that the leading digits denote. -/
def leadingValue (units scale : Nat) : ℚ := (leading units scale).1 / 10 ^ (leading units scale).2

/-- Without places, the leading digits are the number rounded half up. -/
theorem leadingValue_zero (units : Nat) : leadingValue units 0 = divHalfUp units one := by
  unfold leadingValue leading
  rw [pow_zero, div_one]

/-- If the digits at a scale are few enough, they are the leading ones. -/
theorem leadingValue_of_lt {units scale : Nat}
    (h : divHalfUp (units * 10 ^ (scale + 1)) one < 2 ^ (52 : Nat)) :
    leadingValue units (scale + 1) =
      divHalfUp (units * 10 ^ (scale + 1)) one / 10 ^ (scale + 1) := by
  unfold leadingValue leading
  rw [if_pos h]

/-- Otherwise one place is given up. -/
theorem leadingValue_of_le {units scale : Nat}
    (h : 2 ^ (52 : Nat) ≤ divHalfUp (units * 10 ^ (scale + 1)) one) :
    leadingValue units (scale + 1) = leadingValue units scale := by
  unfold leadingValue
  rw [leading, if_neg (Nat.not_lt.mpr h)]

/-- The leading digits do not fall below an integer that the number has reached. -/
theorem le_leadingValue {units n : Nat} (h : n * one ≤ units) (scale : Nat) :
    (n : ℚ) ≤ leadingValue units scale := by
  induction scale with
  | zero =>
    rw [leadingValue_zero]
    exact_mod_cast le_divHalfUp Double.one_pos h
  | succ scale ih =>
    rcases Nat.lt_or_ge (divHalfUp (units * 10 ^ (scale + 1)) one) (2 ^ (52 : Nat)) with hlt | hge
    · rw [leadingValue_of_lt hlt, le_div_iff₀ (by positivity)]
      have hle : n * 10 ^ (scale + 1) ≤ divHalfUp (units * 10 ^ (scale + 1)) one :=
        le_divHalfUp Double.one_pos (by rw [Nat.mul_right_comm]; exact Nat.mul_le_mul_right _ h)
      exact_mod_cast hle
    · rw [leadingValue_of_le hge]
      exact ih

/-- Nor do they exceed one that it has not passed. -/
theorem leadingValue_le {units n : Nat} (h : units ≤ n * one) (scale : Nat) :
    leadingValue units scale ≤ n := by
  induction scale with
  | zero =>
    rw [leadingValue_zero]
    exact_mod_cast divHalfUp_le Double.one_pos h
  | succ scale ih =>
    rcases Nat.lt_or_ge (divHalfUp (units * 10 ^ (scale + 1)) one) (2 ^ (52 : Nat)) with hlt | hge
    · rw [leadingValue_of_lt hlt, div_le_iff₀ (by positivity)]
      have hle : divHalfUp (units * 10 ^ (scale + 1)) one ≤ n * 10 ^ (scale + 1) :=
        divHalfUp_le Double.one_pos (by rw [Nat.mul_right_comm]; exact Nat.mul_le_mul_right _ h)
      exact_mod_cast hle
    · rw [leadingValue_of_le hge]
      exact ih

/-- Digits that are too many with one more place are still many without it. -/
theorem bound_le_divHalfUp {units scale : Nat}
    (h : 2 ^ (52 : Nat) ≤ divHalfUp (units * 10 ^ (scale + 1)) one) :
    (2 ^ (52 : Nat) : ℚ) / 10 ^ (scale + 1) ≤ divHalfUp (units * 10 ^ scale) one / 10 ^ scale := by
  have hplace : units * 10 ^ (scale + 1) = units * 10 ^ scale * 10 := by
    rw [Nat.pow_succ, Nat.mul_assoc]
  rw [hplace] at h
  have hten : (2 ^ (52 : Nat) : ℚ) ≤ 10 * divHalfUp (units * 10 ^ scale) one := by
    exact_mod_cast bound_le_ten_mul_divHalfUp Double.one_pos h
  rw [pow_succ' _ scale, div_mul_eq_div_div]
  exact div_le_div_of_nonneg_right (by linarith) (by positivity)

/-- Digits that are too many at a scale leave a number with as many as are allowed. -/
theorem bound_le_leadingValue {units scale : Nat}
    (h : 2 ^ (52 : Nat) ≤ divHalfUp (units * 10 ^ (scale + 1)) one) :
    (2 ^ (52 : Nat) : ℚ) / 10 ^ (scale + 1) ≤ leadingValue units scale := by
  induction scale with
  | zero =>
    have hbound := bound_le_divHalfUp h
    rwa [Nat.pow_zero, Nat.mul_one, pow_zero, div_one, ← leadingValue_zero] at hbound
  | succ scale ih =>
    rcases Nat.lt_or_ge (divHalfUp (units * 10 ^ (scale + 1)) one) (2 ^ (52 : Nat)) with hlt | hge
    · rw [leadingValue_of_lt hlt]
      exact bound_le_divHalfUp h
    · rw [leadingValue_of_le hge]
      refine le_trans ?_ (ih hge)
      exact div_le_div_of_nonneg_left (by positivity) (by positivity)
        (pow_le_pow_right₀ (by norm_num) (Nat.le_succ _))

/-- The leading digits keep the order. -/
theorem leadingValue_mono {units units' : Nat} (h : units ≤ units') (scale : Nat) :
    leadingValue units scale ≤ leadingValue units' scale := by
  induction scale with
  | zero =>
    rw [leadingValue_zero, leadingValue_zero]
    exact_mod_cast divHalfUp_le_divHalfUp h
  | succ scale ih =>
    have hmono : divHalfUp (units * 10 ^ (scale + 1)) one ≤
        divHalfUp (units' * 10 ^ (scale + 1)) one :=
      divHalfUp_le_divHalfUp (Nat.mul_le_mul_right _ h)
    rcases Nat.lt_or_ge (divHalfUp (units' * 10 ^ (scale + 1)) one) (2 ^ (52 : Nat))
      with hlt' | hge'
    · rw [leadingValue_of_lt (Nat.lt_of_le_of_lt hmono hlt'), leadingValue_of_lt hlt']
      exact div_le_div_of_nonneg_right (by exact_mod_cast hmono) (by positivity)
    · rw [leadingValue_of_le hge']
      rcases Nat.lt_or_ge (divHalfUp (units * 10 ^ (scale + 1)) one) (2 ^ (52 : Nat)) with hlt | hge
      · -- the smaller number keeps one place more, but its digits stay below the bound
        rw [leadingValue_of_lt hlt]
        refine le_trans ?_ (bound_le_leadingValue hge')
        exact div_le_div_of_nonneg_right (by exact_mod_cast hlt.le) (by positivity)
      · rw [leadingValue_of_le hge]
        exact ih

/-! ## The number of a decimal -/

/-- The number that a decimal is. -/
def value (a : Decimal) : ℚ := signed a.negative (a.mantissa / 10 ^ a.scale)

/-- The mantissa is the number, scaled by its places. -/
theorem signedMantissa_eq (a : Decimal) : (a.signedMantissa : ℚ) = a.value * 10 ^ a.scale := by
  have hscale : (10 ^ a.scale : ℚ) ≠ 0 := by positivity
  unfold signedMantissa value
  cases a.negative with
  | false =>
    rw [signed_false, div_mul_cancel₀ _ hscale]
    exact Int.cast_natCast a.mantissa
  | true =>
    rw [signed_true, neg_mul, div_mul_cancel₀ _ hscale]
    show ((-a.mantissa : Int) : ℚ) = -a.mantissa
    rw [Int.cast_neg, Int.cast_natCast]

/-- Decimals are compared by their numbers. -/
theorem compare_eq (a b : Decimal) : a.compare b = cmp a.value b.value := by
  have hscale : (0 : ℚ) < 10 ^ a.scale * 10 ^ b.scale := by positivity
  have hleft : ((a.signedMantissa * 10 ^ b.scale : Int) : ℚ) =
      a.value * (10 ^ a.scale * 10 ^ b.scale) := by
    push_cast
    rw [signedMantissa_eq, mul_assoc]
  have hright : ((b.signedMantissa * 10 ^ a.scale : Int) : ℚ) =
      b.value * (10 ^ a.scale * 10 ^ b.scale) := by
    push_cast
    rw [signedMantissa_eq, mul_assoc, mul_comm (10 ^ b.scale : ℚ)]
  unfold compare
  rw [← cmp_eq_compare, ← (Int.cast_strictMono (R := ℚ)).cmp_map_eq, hleft, hright]
  exact (strictMono_mul_right_of_pos hscale).cmp_map_eq _ _

/-- The double that a decimal is converted to is the one next to it. -/
theorem isNearest_toDouble (a : Decimal) : a.toDouble.IsNearest a.value := by
  have hone := Double.cast_one_pos.ne'
  refine ⟨_, _, _, Nat.pow_pos (by decide), rfl, ?_⟩
  unfold value isZero
  push_cast
  rw [mul_div_mul_right _ _ hone]
  -- the sign only differs where it makes no difference
  by_cases hzero : a.mantissa = 0
  · rw [hzero, Nat.cast_zero, zero_div, signed_zero, signed_zero]
  · rw [beq_false_of_ne hzero, Bool.false_and, Bool.not_false, Bool.and_true]

/-- Removing zeros at the end does not change the number. -/
theorem value_trimZeros (steps : Nat) (a : Decimal) : (trimZeros steps a).value = a.value := by
  induction steps generalizing a with
  | zero => rfl
  | succ steps ih =>
    unfold trimZeros
    split
    · rename_i h
      obtain ⟨scale, hscale⟩ := Nat.exists_eq_succ_of_ne_zero h.1
      have hmantissa : (a.mantissa : ℚ) = (a.mantissa / 10 : Nat) * 10 := by
        exact_mod_cast (Nat.div_mul_cancel (Nat.dvd_of_mod_eq_zero h.2)).symm
      rw [ih]
      show signed a.negative ((a.mantissa / 10 : Nat) / 10 ^ (a.scale - 1)) =
        signed a.negative (a.mantissa / 10 ^ a.scale)
      rw [hmantissa, hscale, pow_succ, mul_div_mul_right _ _ (by norm_num)]
      rfl
    · rfl

/-! ## The decimal of a double -/

/-- The greatest double that has a decimal; it is an integer. -/
def lastWhole : Nat := 2 ^ (96 : Nat) - 2 ^ (43 : Nat)

/-- All decimals lie below the first number that is no finite double. -/
theorem bound_lt_overflow : mantissaBound * one < Double.overflow := by
  have h := @Double.representable_mul_one 1 96 (by decide) (by decide)
  rw [Nat.one_mul] at h
  exact h.1

/-- A double below the bound of decimals is at most the last whole one below it. -/
theorem units_le_of_representable {units : Nat} (h : Double.Representable units)
    (hlt : units < mantissaBound * one) : units ≤ lastWhole * one := by
  have hone := Double.one_eq
  generalize 1074 = e at hone
  rw [hone, mantissaBound, ← Nat.pow_add] at hlt
  rw [hone, lastWhole]
  by_cases hlog : units.log2 < 95 + e
  · calc units
      _ ≤ 2 ^ (95 + e) := (Nat.lt_of_lt_of_le Nat.lt_log2_self
          (Nat.pow_le_pow_right (by decide) hlog)).le
      _ = 2 ^ (95 : Nat) * 2 ^ e := Nat.pow_add 2 95 e
      _ ≤ (2 ^ (96 : Nat) - 2 ^ (43 : Nat)) * 2 ^ e := Nat.mul_le_mul_right _ (by decide)
  · -- in the last binade below the bound, the doubles are `2 ^ 43` apart
    obtain ⟨k, rfl⟩ : 2 ^ (43 + e) ∣ units :=
      Nat.dvd_trans (Nat.pow_dvd_pow 2 (by omega)) h.2
    have hk : k < 2 ^ (53 : Nat) := by
      rw [show 96 + e = 43 + e + 53 by omega, Nat.pow_add 2 (43 + e) 53] at hlt
      exact Nat.lt_of_mul_lt_mul_left hlt
    calc 2 ^ (43 + e) * k
      _ ≤ 2 ^ (43 + e) * (2 ^ (53 : Nat) - 1) := Nat.mul_le_mul_left _ (by omega)
      _ = 2 ^ (43 : Nat) * (2 ^ (53 : Nat) - 1) * 2 ^ e := by rw [Nat.pow_add, Nat.mul_right_comm]
      _ = (2 ^ (96 : Nat) - 2 ^ (43 : Nat)) * 2 ^ e := rfl

/-- A magnitude whose whole part fits has a decimal, made of its leading digits. -/
theorem exists_ofUnits? {units scale : Nat} (negative : Bool) (hscale : scale ≤ maxScale)
    (hunits : divHalfUp units one < mantissaBound) :
    ∃ a, ofUnits? negative units scale = some a ∧
      a.value = signed negative (leadingValue units scale) := by
  induction scale with
  | zero =>
    refine ⟨⟨negative, divHalfUp units one, 0, hunits, hscale⟩, ?_, ?_⟩
    · rw [ofUnits?, ofParts?, dif_pos ⟨hunits, hscale⟩]
    · rw [leadingValue_zero, value, pow_zero, div_one]
  | succ scale ih =>
    rcases Nat.lt_or_ge (divHalfUp (units * 10 ^ (scale + 1)) one) (2 ^ (52 : Nat)) with hlt | hge
    · have hmantissa : divHalfUp (units * 10 ^ (scale + 1)) one < mantissaBound :=
        Nat.lt_trans hlt (by decide)
      refine ⟨⟨negative, _, scale + 1, hmantissa, hscale⟩, ?_, ?_⟩
      · rw [ofUnits?, if_pos hlt, ofParts?, dif_pos ⟨hmantissa, hscale⟩]
      · rw [leadingValue_of_lt hlt, value]
    · rw [leadingValue_of_le hge, ofUnits?, if_neg (Nat.not_lt.mpr hge)]
      exact ih (Nat.le_of_succ_le hscale)

variable {x y : Double} {p s : ℚ} {a b : Decimal}

/-- A double has a decimal, made of its leading digits, exactly if it is not beyond all decimals. -/
theorem ofDouble?_cases (hp : x.place? = some p) :
    (∃ (negative : Bool) (units : Nat) (a : Decimal), ofDouble? x = some a ∧
      units ≤ lastWhole * one ∧ p = signed negative (units / one) ∧
      a.value = signed negative (leadingValue units maxScale)) ∨
    (ofDouble? x = none ∧ (mantissaBound : ℚ) ≤ |p|) := by
  have hone := Double.cast_one_pos
  cases x with
  | nan => exact nomatch hp
  | infinity negative =>
    rw [Double.place?_infinity] at hp
    cases hp
    refine .inr ⟨rfl, ?_⟩
    rw [abs_signed negative (by positivity), le_div_iff₀ hone]
    exact_mod_cast bound_lt_overflow.le
  | finite negative units h =>
    rw [Double.place?_finite] at hp
    cases hp
    by_cases hlt : units < mantissaBound * one
    · have hle := units_le_of_representable h hlt
      have hwhole : divHalfUp units one < mantissaBound :=
        Nat.lt_of_le_of_lt (divHalfUp_le Double.one_pos hle) (by decide)
      obtain ⟨a, ha, hvalue⟩ := exists_ofUnits? negative (Nat.le_refl maxScale) hwhole
      refine .inl ⟨negative, units, trimZeros a.scale a, ?_, hle, rfl, ?_⟩
      · rw [ofDouble?, if_pos hlt, ha]
        rfl
      · rw [value_trimZeros, hvalue]
    · refine .inr ⟨by rw [ofDouble?, if_neg hlt], ?_⟩
      rw [abs_signed negative (by positivity), le_div_iff₀ hone]
      exact_mod_cast Nat.not_lt.mp hlt

/-- An integer with few significant bits is a double, of either sign. -/
theorem exists_place_of_aligned (negative : Bool) {n k e : Nat} (hn : n = k * 2 ^ e)
    (hk : k ≤ 2 ^ (53 : Nat)) (he : e ≤ 512) :
    ∃ x : Double, x.place? = some (signed negative n) := by
  have hone := Double.cast_one_pos
  refine ⟨.finite negative (n * one) (hn ▸ Double.representable_mul_one hk he), ?_⟩
  rw [Double.place?_finite, Nat.cast_mul, mul_div_cancel_right₀ _ hone.ne']

/-- The greatest double that has a decimal is a double, of either sign. -/
theorem exists_place_lastWhole (negative : Bool) :
    ∃ x : Double, x.place? = some (signed negative lastWhole) :=
  exists_place_of_aligned negative
    (show lastWhole = (2 ^ (53 : Nat) - 1) * 2 ^ (43 : Nat) by decide) (by decide) (by decide)

/-- Leading digits have no sign. -/
theorem leadingValue_nonneg (units scale : Nat) : 0 ≤ leadingValue units scale := by
  unfold leadingValue
  positivity

/-- Zero has the leading digits of zero. -/
theorem leadingValue_eq_zero {units : Nat} (h : (units / one : ℚ) = 0) (scale : Nat) :
    leadingValue units scale = 0 := by
  have hone := Double.cast_one_pos
  have hunits : units = 0 := by
    rw [div_eq_zero_iff, or_iff_left hone.ne'] at h
    exact_mod_cast h
  have hle : leadingValue units scale ≤ (0 : Nat) :=
    leadingValue_le (by rw [hunits, Nat.zero_mul]) scale
  exact le_antisymm (by exact_mod_cast hle) (leadingValue_nonneg units scale)

/-- What is known of the decimal of a double. -/
theorem ofDouble?_eq_some (ha : ofDouble? x = some a) (hp : x.place? = some p) :
    ∃ (negative : Bool) (units : Nat), units ≤ lastWhole * one ∧
      p = signed negative (units / one) ∧
      a.value = signed negative (leadingValue units maxScale) := by
  rcases ofDouble?_cases hp with ⟨negative, units, a', ha', hle, heq, hvalue⟩ | ⟨hnone, -⟩
  · cases ha.symm.trans ha'
    exact ⟨negative, units, hle, heq, hvalue⟩
  · exact nomatch ha.symm.trans hnone

/-- The decimals of two doubles are in the order of the doubles. -/
theorem value_le_of_ofDouble? (ha : ofDouble? x = some a) (hb : ofDouble? y = some b)
    (hp : x.place? = some p) (hs : y.place? = some s) (h : p ≤ s) : a.value ≤ b.value := by
  have hone := Double.cast_one_pos
  obtain ⟨negative, units, -, rfl, hvalue⟩ := ofDouble?_eq_some ha hp
  obtain ⟨negative', units', -, rfl, hvalue'⟩ := ofDouble?_eq_some hb hs
  have hmono : ∀ {m n : Nat}, (m / one : ℚ) ≤ n / one →
      leadingValue m maxScale ≤ leadingValue n maxScale := fun hle =>
    leadingValue_mono (by exact_mod_cast (div_le_div_iff_of_pos_right hone).mp hle) maxScale
  rw [hvalue, hvalue']
  exact signed_le_signed (by positivity) (by positivity) (leadingValue_nonneg _ _)
    (leadingValue_nonneg _ _) hmono hmono (leadingValue_eq_zero · maxScale)
    (leadingValue_eq_zero · maxScale) h

section

variable {n : Int}

/-- The leading digits are not below an integer that the double is not below. -/
theorem cast_le_leadingValue {m units : Nat} (h : (m : ℚ) ≤ units / one) :
    (m : ℚ) ≤ leadingValue units maxScale := by
  have hone := Double.cast_one_pos
  rw [le_div_iff₀ hone] at h
  exact le_leadingValue (by exact_mod_cast h) maxScale

/-- Nor are they above an integer that the double is not above. -/
theorem leadingValue_le_cast {m units : Nat} (h : (units / one : ℚ) ≤ m) :
    leadingValue units maxScale ≤ m := by
  have hone := Double.cast_one_pos
  rw [div_le_iff₀ hone] at h
  exact leadingValue_le (by exact_mod_cast h) maxScale

/-- A double that is not below an integer is not moved below it. -/
theorem le_value_of_ofDouble? (ha : ofDouble? x = some a) (hp : x.place? = some p)
    (h : n ≤ p) : n ≤ a.value := by
  obtain ⟨negative, units, -, rfl, hvalue⟩ := ofDouble?_eq_some ha hp
  rw [← signed_natAbs n] at h ⊢
  rw [hvalue]
  exact signed_le_signed (by positivity) (by positivity) (by positivity) (leadingValue_nonneg _ _)
    cast_le_leadingValue leadingValue_le_cast id (leadingValue_eq_zero · maxScale) h

/-- A double that is not above an integer is not moved above it. -/
theorem value_le_of_ofDouble?_of_le (ha : ofDouble? x = some a) (hp : x.place? = some p)
    (h : p ≤ n) : a.value ≤ n := by
  obtain ⟨negative, units, -, rfl, hvalue⟩ := ofDouble?_eq_some ha hp
  rw [← signed_natAbs n] at h ⊢
  rw [hvalue]
  exact signed_le_signed (by positivity) (by positivity) (leadingValue_nonneg _ _) (by positivity)
    leadingValue_le_cast cast_le_leadingValue (leadingValue_eq_zero · maxScale) id h

end

/-! ## A decimal beside a double -/

/-- Whether a decimal is at most a double, as the two are compared: by the decimal of the double if
it has one, else by the double of the decimal. -/
def AtMost (a : Decimal) (x : Double) : Prop :=
  (∃ b, ofDouble? x = some b ∧ a.value ≤ b.value) ∨
    (ofDouble? x = none ∧ ∃ p s, a.toDouble.place? = some p ∧ x.place? = some s ∧ p ≤ s)

/-- Whether a decimal is at least a double, as the two are compared. -/
def AtLeast (a : Decimal) (x : Double) : Prop :=
  (∃ b, ofDouble? x = some b ∧ b.value ≤ a.value) ∨
    (ofDouble? x = none ∧ ∃ p s, a.toDouble.place? = some p ∧ x.place? = some s ∧ s ≤ p)

/-- Where the double has a decimal, the two decimals are compared. -/
theorem atMost_iff_value_le (h : ofDouble? x = some b) : a.AtMost x ↔ a.value ≤ b.value := by
  unfold AtMost
  simp [h]

/-- Where it has none, the two doubles are compared. -/
theorem atMost_iff_place_le (h : ofDouble? x = none) (ht : a.toDouble.place? = some p)
    (hp : x.place? = some s) : a.AtMost x ↔ p ≤ s := by
  unfold AtMost
  simp [h, ht, hp]

/-- The same holds of the other direction, for decimals. -/
theorem atLeast_iff_value_le (h : ofDouble? x = some b) : a.AtLeast x ↔ b.value ≤ a.value := by
  unfold AtLeast
  simp [h]

/-- And for doubles. -/
theorem atLeast_iff_place_le (h : ofDouble? x = none) (ht : a.toDouble.place? = some p)
    (hp : x.place? = some s) : a.AtLeast x ↔ s ≤ p := by
  unfold AtLeast
  simp [h, ht, hp]

/-- A decimal lies below the bound of its mantissa. -/
theorem abs_value_lt (a : Decimal) : |a.value| < mantissaBound := by
  have hscale : (1 : ℚ) ≤ 10 ^ a.scale := one_le_pow₀ (by norm_num)
  rw [value, abs_signed a.negative (by positivity)]
  refine lt_of_le_of_lt (div_le_self (by positivity) hscale) ?_
  exact_mod_cast a.mantissa_lt

/-- The greatest double that has a decimal lies below that bound as well. -/
theorem lastWhole_lt : (lastWhole : ℚ) < mantissaBound := by
  exact_mod_cast show lastWhole < mantissaBound by decide

/-- A double that has a decimal is not beyond the greatest one that has. -/
theorem abs_place_le (ha : ofDouble? x = some a) (hp : x.place? = some p) : |p| ≤ lastWhole := by
  have hone := Double.cast_one_pos
  obtain ⟨negative, units, hle, rfl, -⟩ := ofDouble?_eq_some ha hp
  rw [abs_signed negative (by positivity), div_le_iff₀ hone]
  exact_mod_cast hle

/-- A double that has no decimal is beyond all decimals on one side. -/
theorem place_of_ofDouble?_eq_none (hx : ofDouble? x = none) (hp : x.place? = some p) :
    mantissaBound ≤ p ∨ p ≤ -mantissaBound := by
  rcases ofDouble?_cases hp with ⟨-, -, a, ha, -⟩ | ⟨-, hle⟩
  · exact nomatch ha.symm.trans hx
  · exact (le_abs.mp hle).imp_right le_neg_of_le_neg

/-- The decimal of a double is not beyond the greatest double that has one. -/
theorem abs_value_le (ha : ofDouble? x = some a) (hp : x.place? = some p) :
    |a.value| ≤ lastWhole := by
  obtain ⟨hlower, hupper⟩ := abs_le.mp (abs_place_le ha hp)
  rw [abs_le]
  constructor
  · have hle : ((-lastWhole : Int) : ℚ) ≤ a.value :=
      le_value_of_ofDouble? ha hp (by push_cast; exact hlower)
    push_cast at hle
    exact hle
  · have hle : a.value ≤ ((lastWhole : Int) : ℚ) :=
      value_le_of_ofDouble?_of_le ha hp (by push_cast; exact hupper)
    push_cast at hle
    exact hle

/-- A decimal up to that integer stays below the doubles beyond all decimals. -/
theorem place_toDouble_lt (hp : a.toDouble.place? = some p) (h : a.value ≤ lastWhole) :
    p < mantissaBound := by
  obtain ⟨y, hy⟩ := exists_place_lastWhole false
  exact lt_of_le_of_lt (a.isNearest_toDouble.place_le_of_le hp hy h) lastWhole_lt

/-- A decimal down to its negation stays above the doubles below all decimals. -/
theorem lt_place_toDouble (hp : a.toDouble.place? = some p) (h : -lastWhole ≤ a.value) :
    -mantissaBound < p := by
  obtain ⟨y, hy⟩ := exists_place_lastWhole true
  exact lt_of_lt_of_le (neg_lt_neg lastWhole_lt) (a.isNearest_toDouble.le_place_of_le hp hy h)

/-- A smaller decimal is at most a larger double. -/
theorem AtMost.mono (h : a.AtMost x) (hb : b.value ≤ a.value) (hp : x.place? = some p)
    (hs : y.place? = some s) (hle : p ≤ s) : b.AtMost y := by
  have hlast := lastWhole_lt
  obtain ⟨t, ht⟩ := a.isNearest_toDouble.exists_place
  obtain ⟨t', ht'⟩ := b.isNearest_toDouble.exists_place
  have htt : t' ≤ t := b.isNearest_toDouble.place_le a.isNearest_toDouble ht' ht hb
  cases hx : ofDouble? x with
  | some c =>
    rw [atMost_iff_value_le hx] at h
    cases hy : ofDouble? y with
    | some d =>
      rw [atMost_iff_value_le hy]
      exact hb.trans (h.trans (value_le_of_ofDouble? hx hy hp hs hle))
    | none =>
      -- the larger double lies above all decimals
      rw [atMost_iff_place_le hy ht' hs]
      have hplace := abs_le.mp (abs_place_le hx hp)
      have hvalue := abs_lt.mp b.abs_value_lt
      apply b.isNearest_toDouble.place_le_of_le ht' hs
      rcases place_of_ofDouble?_eq_none hy hs with hs | hs <;> linarith
  | none =>
    rw [atMost_iff_place_le hx ht hp] at h
    cases hy : ofDouble? y with
    | some d =>
      -- the smaller double lies below all decimals, and so does the one next to the decimal
      rw [atMost_iff_value_le hy]
      by_contra hlt
      have hplace := abs_le.mp (abs_place_le hy hs)
      have hvalue := abs_le.mp (abs_value_le hy hs)
      have hgap := lt_place_toDouble ht' (by linarith)
      rcases place_of_ofDouble?_eq_none hx hp with hp | hp <;> linarith
    | none =>
      rw [atMost_iff_place_le hy ht' hs]
      exact htt.trans (h.trans hle)

/-- A larger decimal is at least a smaller double. -/
theorem AtLeast.mono (h : a.AtLeast x) (hb : a.value ≤ b.value) (hp : x.place? = some p)
    (hs : y.place? = some s) (hle : s ≤ p) : b.AtLeast y := by
  have hlast := lastWhole_lt
  obtain ⟨t, ht⟩ := a.isNearest_toDouble.exists_place
  obtain ⟨t', ht'⟩ := b.isNearest_toDouble.exists_place
  have htt : t ≤ t' := a.isNearest_toDouble.place_le b.isNearest_toDouble ht ht' hb
  cases hx : ofDouble? x with
  | some c =>
    rw [atLeast_iff_value_le hx] at h
    cases hy : ofDouble? y with
    | some d =>
      rw [atLeast_iff_value_le hy]
      exact (value_le_of_ofDouble? hy hx hs hp hle).trans (h.trans hb)
    | none =>
      rw [atLeast_iff_place_le hy ht' hs]
      have hplace := abs_le.mp (abs_place_le hx hp)
      have hvalue := abs_lt.mp b.abs_value_lt
      apply b.isNearest_toDouble.le_place_of_le ht' hs
      rcases place_of_ofDouble?_eq_none hy hs with hs | hs <;> linarith
  | none =>
    rw [atLeast_iff_place_le hx ht hp] at h
    cases hy : ofDouble? y with
    | some d =>
      rw [atLeast_iff_value_le hy]
      by_contra hlt
      have hplace := abs_le.mp (abs_place_le hy hs)
      have hvalue := abs_le.mp (abs_value_le hy hs)
      have hgap := place_toDouble_lt ht' (by linarith)
      rcases place_of_ofDouble?_eq_none hx hp with hp | hp <;> linarith
    | none =>
      rw [atLeast_iff_place_le hy ht' hs]
      exact hle.trans (h.trans htt)

/-! ## An integer beside a double -/

section

variable {n : Int}

/-- A decimal that an integer keeps from being above a double is at most that double. -/
theorem atMost_of_le (ha : a.value ≤ n) (hp : x.place? = some p) (h : n ≤ p) : a.AtMost x := by
  cases hx : ofDouble? x with
  | some b =>
    rw [atMost_iff_value_le hx]
    exact ha.trans (le_value_of_ofDouble? hx hp h)
  | none =>
    obtain ⟨t, ht⟩ := a.isNearest_toDouble.exists_place
    rw [atMost_iff_place_le hx ht hp]
    exact a.isNearest_toDouble.place_le_of_le ht hp (ha.trans h)

/-- A decimal that an integer keeps from being below a double is at least that double. -/
theorem atLeast_of_le (ha : n ≤ a.value) (hp : x.place? = some p) (h : p ≤ n) : a.AtLeast x := by
  cases hx : ofDouble? x with
  | some b =>
    rw [atLeast_iff_value_le hx]
    exact (value_le_of_ofDouble?_of_le hx hp h).trans ha
  | none =>
    obtain ⟨t, ht⟩ := a.isNearest_toDouble.exists_place
    rw [atLeast_iff_place_le hx ht hp]
    exact a.isNearest_toDouble.le_place_of_le ht hp (h.trans ha)

/-- A double between an integer and a decimal keeps them in order. -/
theorem AtLeast.le_value (h : a.AtLeast x) (hn : |(n : ℚ)| ≤ lastWhole) (hp : x.place? = some p)
    (hle : n ≤ p) : n ≤ a.value := by
  have hlast := lastWhole_lt
  have hn := abs_le.mp hn
  cases hx : ofDouble? x with
  | some b =>
    rw [atLeast_iff_value_le hx] at h
    exact (le_value_of_ofDouble? hx hp hle).trans h
  | none =>
    obtain ⟨t, ht⟩ := a.isNearest_toDouble.exists_place
    rw [atLeast_iff_place_le hx ht hp] at h
    by_contra hlt
    have hgap := place_toDouble_lt ht (by linarith)
    rcases place_of_ofDouble?_eq_none hx hp with hp | hp <;> linarith

/-- A decimal that is at most a double is at most every integer of this size that is not below the
double. -/
theorem AtMost.value_le (h : a.AtMost x) (hn : |(n : ℚ)| ≤ lastWhole) (hp : x.place? = some p)
    (hle : p ≤ n) : a.value ≤ n := by
  have hlast := lastWhole_lt
  have hn := abs_le.mp hn
  cases hx : ofDouble? x with
  | some b =>
    rw [atMost_iff_value_le hx] at h
    exact h.trans (value_le_of_ofDouble?_of_le hx hp hle)
  | none =>
    obtain ⟨t, ht⟩ := a.isNearest_toDouble.exists_place
    rw [atMost_iff_place_le hx ht hp] at h
    by_contra hlt
    have hgap := lt_place_toDouble ht (by linarith)
    rcases place_of_ofDouble?_eq_none hx hp with hp | hp <;> linarith

end

end Decimal

end Formula
