import Formula.Number.Double
import Mathlib.Algebra.Order.Field.Rat
import Mathlib.Tactic.FieldSimp
import Mathlib.Tactic.Linarith
import Mathlib.Tactic.Positivity
import Mathlib.Tactic.Ring

/-!
# Rounding to doubles and the order

The double next to a number is never greater than the double next to a greater number
(`IsNearest.place_le`), and a double is the one next to itself (`isNearest_place`). Both together
place the rounded number: it is on the same side of every double as the number itself, or meets it.
No double is nearer to a number than the one next to it (`IsNearest.abs_sub_le`).

Numbers are rational here and doubles have places among them. The infinities do too: each stands
where the first double beyond the finite ones would be, as it does in `Double.rank`.
-/

namespace Formula

open NaturalPower

/-! ## Signs -/

/-- The number with a sign and a magnitude. -/
def signed (negative : Bool) (magnitude : ℚ) : ℚ := if negative then -magnitude else magnitude

/-- Without a sign a number is itself. -/
@[simp] theorem signed_false (a : ℚ) : signed false a = a := rfl

/-- With a sign it is its negation. -/
@[simp] theorem signed_true (a : ℚ) : signed true a = -a := rfl

/-- The sign of zero makes no difference. -/
@[simp] theorem signed_zero (negative : Bool) : signed negative 0 = 0 := by
  cases negative with
  | false => rfl
  | true => exact neg_zero

/-- The sign does not change how far a number is from zero. -/
theorem abs_signed (negative : Bool) {a : ℚ} (h : 0 ≤ a) : |signed negative a| = a := by
  cases negative with
  | false => exact abs_of_nonneg h
  | true => exact (abs_neg a).trans (abs_of_nonneg h)

/-- What keeps the order of two magnitudes, and keeps zeros, keeps the order of the numbers with
these magnitudes. -/
theorem signed_le_signed {negative negative' : Bool} {a b a' b' : ℚ} (ha : 0 ≤ a) (hb : 0 ≤ b)
    (ha' : 0 ≤ a') (hb' : 0 ≤ b') (hle : a ≤ b → a' ≤ b') (hge : b ≤ a → b' ≤ a')
    (hzero : a = 0 → a' = 0) (hzero' : b = 0 → b' = 0) (h : signed negative a ≤ signed negative' b) :
    signed negative a' ≤ signed negative' b' := by
  cases negative with
  | false =>
    rw [signed_false] at h ⊢
    cases negative' with
    | false => exact hle h
    | true =>
      -- a number that is not negative is at most one that is not positive, so both are zero
      rw [signed_true] at h ⊢
      rw [hzero (by linarith), hzero' (by linarith), neg_zero]
  | true =>
    rw [signed_true] at h ⊢
    cases negative' with
    | false =>
      rw [signed_false]
      linarith
    | true =>
      rw [signed_true] at h ⊢
      exact neg_le_neg (hge (neg_le_neg_iff.mp h))

/-- The sign of a quotient is that of its numerator. -/
theorem signed_div (negative : Bool) (a b : ℚ) : signed negative a / b = signed negative (a / b) := by
  cases negative with
  | false => rfl
  | true => exact neg_div b a

/-- An integer is its magnitude with its sign. -/
theorem signed_natAbs (n : Int) : signed (decide (n < 0)) n.natAbs = n := by
  by_cases h : n < 0
  · rw [decide_eq_true h, signed_true, Nat.cast_natAbs, abs_of_neg h, Int.cast_neg, neg_neg]
  · rw [decide_eq_false h, signed_false, Nat.cast_natAbs, abs_of_nonneg (not_lt.mp h)]

/-- Numbers of one sign are as far apart as their magnitudes. -/
theorem abs_signed_sub (negative : Bool) (a b : ℚ) :
    |signed negative a - signed negative b| = |a - b| := by
  cases negative with
  | false => rfl
  | true => rw [signed_true, signed_true, neg_sub_neg, abs_sub_comm]

/-- Numbers of different signs are apart by the sum of their magnitudes. -/
theorem abs_signed_sub_not (negative : Bool) {a b : ℚ} (ha : 0 ≤ a) (hb : 0 ≤ b) :
    |signed negative a - signed (!negative) b| = a + b := by
  cases negative with
  | false =>
    rw [Bool.not_false, signed_false, signed_true, sub_neg_eq_add, abs_of_nonneg (by linarith)]
  | true =>
    rw [Bool.not_true, signed_false, signed_true, ← neg_add', abs_neg, abs_of_nonneg (by linarith)]

/-! ## Quotients of different denominators -/

section

variable {num den num' den' : Nat}

/-- Quotients are in the order of the crosswise products. -/
theorem div_le_div_of_mul_le (hden : 0 < den) (hden' : 0 < den') (h : num * den' ≤ num' * den) :
    num / den ≤ num' / den' := by
  rw [Nat.le_div_iff_mul_le hden']
  apply Nat.le_of_mul_le_mul_right _ hden
  calc num / den * den' * den = num / den * den * den' := Nat.mul_right_comm _ _ _
    _ ≤ num * den' := Nat.mul_le_mul_right _ (Nat.div_mul_le_self num den)
    _ ≤ num' * den := h

/-- Rounding to an integer keeps the order. -/
theorem divHalfEven_le_divHalfEven (hden : 0 < den) (hden' : 0 < den')
    (h : num * den' ≤ num' * den) : divHalfEven num den ≤ divHalfEven num' den' := by
  have hquotient := div_le_div_of_mul_le hden hden' h
  have hup := divHalfEven_le num den
  have hdown := le_divHalfEven num' den'
  rcases Nat.lt_or_eq_of_le hquotient with hlt | heq
  · omega
  · -- within one step, the remainders decide
    have hrest : num % den * den' ≤ num' % den' * den := by
      have hnum := Nat.div_add_mod' num den
      have hnum' := Nat.div_add_mod' num' den'
      rw [← heq] at hnum'
      rw [← hnum, ← hnum'] at h
      linarith
    have hhalf : den < 2 * (num % den) → den' < 2 * (num' % den') := fun hmore => by
      apply Nat.lt_of_mul_lt_mul_right (a := den)
      have := Nat.mul_lt_mul_of_pos_right hmore hden'
      linarith
    have htie : 2 * (num % den) = den → den' ≤ 2 * (num' % den') := fun hmore => by
      apply Nat.le_of_mul_le_mul_right _ hden
      have := congrArg (· * den') hmore
      linarith
    unfold divHalfEven
    split <;> split <;> omega

end

/-- No multiple of the grid spacing is nearer to a quotient than the one it is rounded to. -/
theorem natAbs_sub_divHalfEven_le {num den : Nat} (hden : 0 < den) (k : Nat) :
    (num - divHalfEven num den * den : Int).natAbs ≤ (num - k * den : Int).natAbs := by
  obtain ⟨hup, hdown⟩ := @two_mul_divHalfEven_le num den hden
  have hhalf : 2 * (num - divHalfEven num den * den : Int).natAbs ≤ den := by
    have hcast : ((divHalfEven num den * den : Nat) : Int) = divHalfEven num den * den := by
      push_cast
      rfl
    omega
  by_cases heq : k = divHalfEven num den
  · rw [heq]
  · -- two different multiples lie a whole spacing apart, and the one is within half a spacing
    have hstep : (1 : Int) ≤ ((k : Int) - divHalfEven num den).natAbs := by omega
    have hapart : den ≤ ((k - divHalfEven num den : Int) * den).natAbs := by
      rw [Int.natAbs_mul, Int.natAbs_natCast]
      exact Nat.le_mul_of_pos_left _ (by omega)
    have hsplit : ((k - divHalfEven num den : Int) * den) = k * den - divHalfEven num den * den :=
      Int.sub_mul _ _ _
    omega

namespace Double

section

variable {num den num' den' : Nat}

/-- A greater number has at least as many bits. -/
theorem log2_le_log2 {m n : Nat} (h : m ≤ n) : m.log2 ≤ n.log2 := by
  by_cases hm : m = 0
  · rw [hm]
    exact Nat.zero_le _
  · rw [Nat.le_log2 (by omega)]
    exact Nat.le_trans (Nat.log2_self_le hm) h

/-- Rounding to the grid of doubles keeps the order, also where the grid gets wider. -/
theorem nearestUnits_le_nearestUnits (hden : 0 < den) (hden' : 0 < den')
    (h : num * den' ≤ num' * den) : nearestUnits num den ≤ nearestUnits num' den' := by
  have hlog := log2_le_log2 (div_le_div_of_mul_le hden hden' h)
  unfold nearestUnits
  generalize he : (num / den).log2 - 52 = e
  generalize he' : (num' / den').log2 - 52 = e'
  rcases Nat.lt_or_eq_of_le (show e ≤ e' by omega) with hlt | rfl
  · -- the left side is at most the first point of the wider grid, the right side at least
    have hpoint : 2 ^ (52 : Nat) ≤ num' / (den' * 2 ^ e') := by
      rw [← Nat.div_div_eq_div_mul, Nat.le_div_iff_mul_le (Nat.two_pow_pos _), ← Nat.pow_add]
      have hlarge : (num' / den').log2 ≠ 0 := by omega
      have hne : num' / den' ≠ 0 := fun hzero => hlarge (by rw [hzero, Nat.log2_zero])
      refine Nat.le_trans (Nat.pow_le_pow_right (by decide) ?_) (Nat.log2_self_le hne)
      omega
    calc divHalfEven num (den * 2 ^ e) * 2 ^ e
      _ ≤ 2 ^ (53 : Nat) * 2 ^ e := Nat.mul_le_mul_right _ (he ▸ divHalfEven_scaled_le num den)
      _ = 2 ^ (52 : Nat) * 2 ^ (e + 1) := by rw [Nat.pow_succ' (n := e), ← Nat.mul_assoc]
      _ ≤ 2 ^ (52 : Nat) * 2 ^ e' := Nat.mul_le_mul_left _ (Nat.pow_le_pow_right (by decide) hlt)
      _ ≤ num' / (den' * 2 ^ e') * 2 ^ e' := Nat.mul_le_mul_right _ hpoint
      _ ≤ divHalfEven num' (den' * 2 ^ e') * 2 ^ e' := Nat.mul_le_mul_right _ (le_divHalfEven _ _)
  · apply Nat.mul_le_mul_right
    apply divHalfEven_le_divHalfEven (Nat.mul_pos hden (Nat.two_pow_pos e))
      (Nat.mul_pos hden' (Nat.two_pow_pos e))
    rw [← Nat.mul_assoc, ← Nat.mul_assoc]
    exact Nat.mul_le_mul_right _ h

/-- Equal quotients are rounded to the same double. -/
theorem round_eq_round (negative : Bool) (hden : 0 < den) (hden' : 0 < den')
    (h : num * den' = num' * den) : round negative num den = round negative num' den' := by
  have hunits : nearestUnits num den = nearestUnits num' den' :=
    Nat.le_antisymm (nearestUnits_le_nearestUnits hden hden' (Nat.le_of_eq h))
      (nearestUnits_le_nearestUnits hden' hden (Nat.le_of_eq h.symm))
  unfold round
  simp only [hunits]

end

/-! ## Representable magnitudes -/

section

variable {m k : Nat}

/-- A whole number below `2 ^ 53`, times a power of two. -/
theorem representable_mul_one (hm : m ≤ 2 ^ (53 : Nat)) (hk : k ≤ 512) :
    Representable (m * 2 ^ k * one) := by
  have hone := one_eq
  have hoverflow := overflow_eq
  generalize he : 1074 = e at hone
  generalize he' : 2098 = e' at hoverflow
  rw [hone, Nat.mul_assoc, ← Nat.pow_add]
  refine ⟨?_, aligned_mul_pow hm⟩
  calc m * 2 ^ (k + e) ≤ 2 ^ (53 : Nat) * 2 ^ (k + e) := Nat.mul_le_mul_right _ hm
    _ = 2 ^ (53 + (k + e)) := (Nat.pow_add ..).symm
    _ < 2 ^ e' := Nat.pow_lt_pow_right (by decide) (by omega)
    _ = overflow := hoverflow.symm

/-- A number of at most 53 bits is a double. -/
theorem representable_natCast (hm : m ≤ 2 ^ (53 : Nat)) : Representable (m * one) := by
  have h := @representable_mul_one m 0 hm (by decide)
  rwa [Nat.pow_zero, Nat.mul_one] at h

/-- Zero is a double. -/
theorem representable_zero : Representable 0 := by
  have h := representable_natCast (Nat.zero_le (2 ^ (53 : Nat)))
  rwa [Nat.zero_mul] at h

/-- Units of a double are rounded to it. -/
theorem round_units (negative : Bool) {units : Nat} (h : Representable units) :
    round negative units 1 = finite negative units h := by
  have hround := round_of_representable negative Nat.one_pos h
  rwa [Nat.mul_one] at hround

end

/-! ## Places -/

/-- The number 1 has units. -/
theorem one_pos : 0 < one := by
  rw [one_eq]
  positivity

/-- So it has as a rational number. -/
theorem cast_one_pos : (0 : ℚ) < one := by exact_mod_cast one_pos

/-- The place of a double on the number line. -/
def place? (x : Double) : Option ℚ := x.rank.map fun (units : Int) => (units : ℚ) / one

/-- Whether a double is the one next to a number: the one to which the number is rounded, and than
which none is nearer (`IsNearest.abs_sub_le`). -/
def IsNearest (x : Double) (q : ℚ) : Prop :=
  ∃ (negative : Bool) (num den : Nat), 0 < den ∧ x = round negative num den ∧
    q = signed negative (num / (den * one))

/-- A double is at the place of its rank. -/
theorem place?_of_rank {x : Double} {negative : Bool} {units : Nat}
    (h : x.rank = some (signedUnits negative units)) :
    x.place? = some (signed negative (units / one)) := by
  unfold place?
  rw [h, Option.map_some, ← signed_div]
  cases negative with
  | false => rfl
  | true =>
    show some (((-units : Int) : ℚ) / one) = _
    rw [Int.cast_neg, Int.cast_natCast]
    rfl

/-- A finite double is at its units, with its sign. -/
theorem place?_finite (negative : Bool) (units : Nat) (h : Representable units) :
    (finite negative units h).place? = some (signed negative (units / one)) :=
  place?_of_rank rfl

/-- An infinity is at the first number that is no finite double. -/
theorem place?_infinity (negative : Bool) :
    (infinity negative).place? = some (signed negative (overflow / one)) :=
  place?_of_rank rfl

/-- A rounded number is at the nearest units, or at the infinity beyond them. -/
theorem place?_round (negative : Bool) (num den : Nat) : (round negative num den).place? =
    some (signed negative ((min (nearestUnits num den) overflow : Nat) / one)) := by
  unfold round
  split
  · rename_i h
    rw [Nat.min_eq_left (Nat.le_of_lt h)]
    exact place?_finite negative _ _
  · rename_i h
    rw [Nat.min_eq_right (Nat.le_of_not_lt h)]
    exact place?_infinity negative

/-- Zero is rounded to zero. -/
theorem nearestUnits_zero {den : Nat} (hden : 0 < den) : nearestUnits 0 den = 0 := by
  have hzero := nearestUnits_mul_left hden (Nat.dvd_zero (2 ^ ((0 : Nat).log2 - 52)))
  rwa [Nat.zero_mul] at hzero

variable {x y : Double} {p q r s : ℚ}

/-- A nearest double has a place. -/
theorem IsNearest.exists_place (h : IsNearest x q) : ∃ p, x.place? = some p := by
  obtain ⟨negative, num, den, -, rfl, -⟩ := h
  exact ⟨_, place?_round negative num den⟩

/-- Rounding keeps the order of magnitudes. -/
theorem nearest_le_nearest {num den num' den' : Nat} (hden : 0 < den) (hden' : 0 < den')
    (h : (num / (den * one) : ℚ) ≤ num' / (den' * one)) :
    ((min (nearestUnits num den) overflow : Nat) / one : ℚ) ≤
      (min (nearestUnits num' den') overflow : Nat) / one := by
  have hone := cast_one_pos
  have hcross : num * den' ≤ num' * den := by
    rw [div_le_div_iff₀ (by positivity) (by positivity)] at h
    apply Nat.le_of_mul_le_mul_right _ one_pos
    have h : num * (den' * one) ≤ num' * (den * one) := by exact_mod_cast h
    linarith
  have hmono := nearestUnits_le_nearestUnits hden hden' hcross
  exact div_le_div_of_nonneg_right (by exact_mod_cast min_le_min_right overflow hmono) hone.le

/-- The double next to zero is zero. -/
theorem nearest_eq_zero {num den : Nat} (hden : 0 < den) (h : (num / (den * one) : ℚ) = 0) :
    ((min (nearestUnits num den) overflow : Nat) / one : ℚ) = 0 := by
  have hone := cast_one_pos
  have hnum : (num : ℚ) = 0 := by
    rcases div_eq_zero_iff.mp h with hnum | hden'
    · exact hnum
    · exact absurd hden' (by positivity)
  rw [Nat.cast_eq_zero.mp hnum, nearestUnits_zero hden, Nat.zero_min, Nat.cast_zero, zero_div]

/-- Rounding keeps the order. -/
theorem IsNearest.place_le (hx : IsNearest x q) (hy : IsNearest y r) (hp : x.place? = some p)
    (hs : y.place? = some s) (h : q ≤ r) : p ≤ s := by
  obtain ⟨negative, num, den, hden, rfl, rfl⟩ := hx
  obtain ⟨negative', num', den', hden', rfl, rfl⟩ := hy
  rw [place?_round] at hp hs
  cases hp
  cases hs
  exact signed_le_signed (by positivity) (by positivity) (by positivity) (by positivity)
    (nearest_le_nearest hden hden') (nearest_le_nearest hden' hden) (nearest_eq_zero hden)
    (nearest_eq_zero hden') h

/-- The first number that is no finite double has as few significant bits as one. -/
theorem aligned_overflow : 2 ^ (overflow.log2 - 52) ∣ overflow := by
  have h := overflow_eq
  generalize 2098 = e at h
  rw [h, ← Nat.one_mul (2 ^ e)]
  exact aligned_mul_pow (by decide)

/-- A double is the one next to its own place. -/
theorem isNearest_place (hp : x.place? = some p) : IsNearest x p := by
  cases x with
  | nan => exact nomatch hp
  | infinity negative =>
    rw [place?_infinity] at hp
    cases hp
    refine ⟨negative, overflow * 1, 1, Nat.one_pos, ?_, ?_⟩
    · unfold round
      rw [dif_neg]
      rw [nearestUnits_mul_left Nat.one_pos aligned_overflow]
      exact Nat.lt_irrefl _
    · rw [Nat.cast_one, one_mul, Nat.mul_one]
  | finite negative units h =>
    rw [place?_finite] at hp
    cases hp
    refine ⟨negative, units, 1, Nat.one_pos, (round_units negative h).symm, ?_⟩
    rw [Nat.cast_one, one_mul]

/-- A number that is not above a double is not rounded above it. -/
theorem IsNearest.place_le_of_le (hx : IsNearest x q) (hp : x.place? = some p)
    (hs : y.place? = some s) (h : q ≤ s) : p ≤ s :=
  hx.place_le (isNearest_place hs) hp hs h

/-- A number that is not below a double is not rounded below it. -/
theorem IsNearest.le_place_of_le (hx : IsNearest x q) (hp : x.place? = some p)
    (hs : y.place? = some s) (h : s ≤ q) : s ≤ p :=
  (isNearest_place hs).place_le hx hs hp h

/-- Doubles are compared by their places. -/
theorem compare?_eq (x y : Double) :
    x.compare? y = (x.place?.bind fun p => y.place?.map fun s => cmp p s) := by
  have hone := cast_one_pos
  unfold compare? place?
  cases x.rank with
  | none => rfl
  | some units =>
    cases y.rank with
    | none => rfl
    | some units' =>
      have hmono : StrictMono fun (units : Int) => (units : ℚ) / one :=
        (Int.cast_strictMono (R := ℚ)).div_const hone
      show some (compare units units') = some (cmp ((units : ℚ) / one) ((units' : ℚ) / one))
      rw [hmono.cmp_map_eq, cmp_eq_compare]

/-- The double that an integer is converted to is the one next to it. -/
theorem isNearest_ofInt (n : Int) : IsNearest (ofInt n) n := by
  have hone := cast_one_pos.ne'
  unfold ofInt ofUnits
  split
  · rename_i hzero
    rcases Int.mul_eq_zero.mp hzero with rfl | hone'
    · exact ⟨false, 0, 1, Nat.one_pos, rfl, by simp⟩
    · exact absurd (by exact_mod_cast hone') one_pos.ne'
  · refine ⟨_, _, 1, Nat.one_pos, rfl, ?_⟩
    rw [Nat.cast_one, one_mul, ← signed_div, signed_natAbs, Int.cast_mul, Int.cast_natCast,
      mul_div_cancel_right₀ _ hone]

/-- A whole number is rounded to a whole number: either the number is a point of the grid, or all
points of the grid are whole numbers. -/
theorem one_dvd_nearestUnits (n : Nat) : one ∣ nearestUnits (n * one) 1 := by
  have hone := one_eq
  generalize 1074 = e at hone
  by_cases hfine : (n * one).log2 - 52 ≤ e
  · have hgrid : 2 ^ ((n * one).log2 - 52) ∣ one := by
      conv => rhs; rw [hone]
      exact Nat.pow_dvd_pow 2 hfine
    have hunits := nearestUnits_mul_left Nat.one_pos (Nat.dvd_trans hgrid (Nat.dvd_mul_left one n))
    rw [Nat.mul_one] at hunits
    rw [hunits]
    exact Nat.dvd_mul_left one n
  · unfold nearestUnits
    dsimp only
    rw [Nat.div_one]
    refine Nat.dvd_trans ?_ (Nat.dvd_mul_left _ _)
    conv => lhs; rw [hone]
    exact Nat.pow_dvd_pow 2 (Nat.le_of_not_le hfine)

/-- The magnitude of the infinities is a whole number. -/
theorem one_dvd_overflow : one ∣ overflow := by
  have hone := one_eq
  have hoverflow := overflow_eq
  generalize he : 1074 = e at hone
  generalize he' : 2098 = e' at hoverflow
  rw [hone, hoverflow]
  exact Nat.pow_dvd_pow 2 (by omega)

/-- The double next to an integer is at an integer. -/
theorem exists_place_ofInt (n : Int) : ∃ k : Int, (ofInt n).place? = some (k : ℚ) := by
  have hone := cast_one_pos.ne'
  obtain ⟨negative, hround⟩ : ∃ negative, ofInt n = round negative (n.natAbs * one) 1 := by
    unfold ofInt ofUnits
    split
    · rename_i hzero
      have hnat : n.natAbs * one = 0 := by rw [← Int.natAbs_natCast one, ← Int.natAbs_mul, hzero]; rfl
      exact ⟨false, by rw [hnat]; rfl⟩
    · exact ⟨_, by rw [Int.natAbs_mul, Int.natAbs_natCast]⟩
  obtain ⟨m, hm⟩ : one ∣ min (nearestUnits (n.natAbs * one) 1) overflow := by
    rcases Nat.le_total (nearestUnits (n.natAbs * one) 1) overflow with hle | hle
    · rw [Nat.min_eq_left hle]
      exact one_dvd_nearestUnits n.natAbs
    · rw [Nat.min_eq_right hle]
      exact one_dvd_overflow
  rw [hround, place?_round, hm, Nat.cast_mul, mul_div_cancel_left₀ _ hone]
  cases negative with
  | false => exact ⟨m, rfl⟩
  | true => exact ⟨-m, by rw [signed_true]; push_cast; rfl⟩

/-! ## Distances -/

/-- No representable magnitude is nearer to a quotient than the one it is rounded to. -/
theorem natAbs_sub_nearestUnits_le {num den units : Nat} (hden : 0 < den)
    (h : 2 ^ (units.log2 - 52) ∣ units) :
    (num - nearestUnits num den * den : Int).natAbs ≤ (num - units * den : Int).natAbs := by
  unfold nearestUnits
  dsimp only
  generalize he : (num / den).log2 - 52 = e
  have hgrid : 0 < den * 2 ^ e := Nat.mul_pos hden (Nat.two_pow_pos e)
  have hmul : ∀ k, ((k * 2 ^ e : Nat) * den : Int) = k * (den * 2 ^ e : Nat) := by
    intro k
    push_cast
    ring
  have hnearest := @natAbs_sub_divHalfEven_le num (den * 2 ^ e) hgrid
  rw [hmul]
  by_cases hwide : e ≤ units.log2 - 52
  · -- the magnitude is on the grid
    obtain ⟨k, rfl⟩ := Nat.dvd_trans (Nat.pow_dvd_pow 2 hwide) h
    rw [Nat.mul_comm (2 ^ e) k, hmul]
    exact hnearest k
  · -- the grid is wider than the magnitudes are there, so that they lie below one of its points
    have hlog : (num / den).log2 = 52 + e := by omega
    have hne : num / den ≠ 0 := fun hzero => by
      rw [hzero, Nat.log2_zero] at hlog
      omega
    have hpoint : 2 ^ (52 : Nat) * (den * 2 ^ e) ≤ num := by
      have hle : 2 ^ (52 + e) ≤ num / den := hlog ▸ Nat.log2_self_le hne
      rw [Nat.le_div_iff_mul_le hden] at hle
      calc 2 ^ (52 : Nat) * (den * 2 ^ e) = 2 ^ (52 + e) * den := by rw [Nat.pow_add]; ring
        _ ≤ num := hle
    have hbelow : units * den ≤ 2 ^ (52 : Nat) * (den * 2 ^ e) := by
      have hlt : units < 2 ^ (52 + e) := by
        by_cases hzero : units = 0
        · rw [hzero]
          exact Nat.two_pow_pos _
        · exact (Nat.log2_lt hzero).mp (by omega)
      calc units * den ≤ 2 ^ (52 + e) * den := Nat.mul_le_mul_right _ hlt.le
        _ = 2 ^ (52 : Nat) * (den * 2 ^ e) := by rw [Nat.pow_add]; ring
    have hcast : (units * den : Int) = (units * den : Nat) := (Int.natCast_mul ..).symm
    have hcast' : ((2 ^ (52 : Nat) : Nat) * (den * 2 ^ e : Nat) : Int) =
        (2 ^ (52 : Nat) * (den * 2 ^ e) : Nat) := (Int.natCast_mul ..).symm
    have hle := hnearest (2 ^ (52 : Nat))
    rw [hcast'] at hle
    rw [hcast]
    omega

/-- Each place is a sign and a magnitude on the grid; an infinity has the least magnitude that no
finite double has. -/
theorem exists_units (hp : x.place? = some p) :
    ∃ (negative : Bool) (units : Nat), 2 ^ (units.log2 - 52) ∣ units ∧ units ≤ overflow ∧
      p = signed negative (units / one) := by
  cases x with
  | nan => exact nomatch hp
  | infinity negative =>
    rw [place?_infinity] at hp
    exact ⟨negative, overflow, aligned_overflow, Nat.le_refl _, (Option.some.inj hp).symm⟩
  | finite negative units h =>
    rw [place?_finite] at hp
    exact ⟨negative, units, h.2, h.1.le, (Option.some.inj hp).symm⟩

/-- What lies between two numbers is not farther away than both. -/
theorem abs_sub_le_of_between {n : ℚ} (hr : s ≤ r) (hn : r ≤ n) (h : |q - n| ≤ |q - s|) :
    |q - r| ≤ |q - s| := by
  rcases le_total q r with hq | hq
  · refine le_trans ?_ h
    rw [abs_of_nonpos (by linarith), abs_of_nonpos (by linarith)]
    linarith
  · rw [abs_of_nonneg (by linarith), abs_of_nonneg (by linarith)]
    linarith

/-- The magnitude that a magnitude is rounded to is no farther away than any other. -/
theorem abs_sub_nearest_le {num den units : Nat} (hden : 0 < den)
    (haligned : 2 ^ (units.log2 - 52) ∣ units) (hunits : units ≤ overflow) :
    |(num / (den * one) : ℚ) - (min (nearestUnits num den) overflow : Nat) / one| ≤
      |(num / (den * one) : ℚ) - units / one| := by
  have hone := cast_one_pos
  have hscale : ∀ n : Nat, (num / (den * one) : ℚ) - n / one =
      ((num - n * den : Int) : ℚ) / (den * one) := by
    intro n
    have hden' : (den : ℚ) ≠ 0 := by positivity
    push_cast
    field_simp
  have hle : |(num / (den * one) : ℚ) - nearestUnits num den / one| ≤
      |(num / (den * one) : ℚ) - units / one| := by
    have h := @natAbs_sub_nearestUnits_le num den units hden haligned
    rw [hscale, hscale, abs_div, abs_div, ← Int.cast_abs, ← Int.cast_abs, ← Nat.cast_natAbs,
      ← Nat.cast_natAbs]
    exact div_le_div_of_nonneg_right (by exact_mod_cast h) (abs_nonneg _)
  rcases Nat.le_total (nearestUnits num den) overflow with hfinite | hinfinite
  · rwa [Nat.min_eq_left hfinite]
  · rw [Nat.min_eq_right hinfinite]
    refine abs_sub_le_of_between ?_ ?_ hle
    · exact div_le_div_of_nonneg_right (by exact_mod_cast hunits) hone.le
    · exact div_le_div_of_nonneg_right (by exact_mod_cast hinfinite) hone.le

/-- No double is nearer to a number than the one next to it. -/
theorem IsNearest.abs_sub_le (hx : IsNearest x q) (hp : x.place? = some p)
    (hs : y.place? = some s) : |q - p| ≤ |q - s| := by
  obtain ⟨negative, num, den, hden, rfl, rfl⟩ := hx
  obtain ⟨negative', units, haligned, hunits, rfl⟩ := exists_units hs
  rw [place?_round] at hp
  cases hp
  have hone := cast_one_pos
  have ha : (0 : ℚ) ≤ num / (den * one) := by positivity
  have hs : (0 : ℚ) ≤ units / one := by positivity
  have hle := @abs_sub_nearest_le num den units hden haligned hunits
  have hzero := @abs_sub_nearest_le num den 0 hden (Nat.dvd_zero _) (Nat.zero_le _)
  rw [Nat.cast_zero, zero_div, sub_zero, abs_of_nonneg ha] at hzero
  rw [abs_signed_sub]
  by_cases hsign : negative' = negative
  · rw [hsign, abs_signed_sub]
    exact hle
  · -- on the other side of zero everything is at least as far away as zero is
    rw [Bool.eq_not_of_ne hsign, abs_signed_sub_not _ ha hs]
    linarith

end Double

end Formula
