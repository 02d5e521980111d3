import Formula.Proofs.Json.Number

/-!
# The values of numbers

A number without exponent is made of a sign and of digits around a point (`Plain`), and its text
determines these parts (`Plain.eq_of_text_eq`) and so its value. The reader takes such a text to an
integer or to a double. `ReadsNearest` says that a double that it gives is the one next to the value.
This does not hold of all texts, since the reader rounds more than once, but of those whose digits
and places are few (`Plain.isNearest_of_exact`).

No number with a few dozens of digits is too large for the reader: whatever it does to the digits,
the numeral that it gathers has a finite double (`Numeral.isFinite_toDouble`).
-/

namespace Formula

open NaturalPower

open Text (natOfDigits isDigit)

/-! ## Doubles within bounds -/

namespace Double

/-- Whether a double is finite, without a sign, and has a magnitude between two others. -/
def Within (low high : Nat) (x : Double) : Prop :=
  ∃ units hunits, x = finite false units hunits ∧ low ≤ units ∧ units ≤ high

variable {low high num den : Nat} {x y : Double}

/-- A double between finite bounds is finite. -/
theorem Within.isFinite (h : x.Within low high) : x.isFinite = true := by
  obtain ⟨units, hunits, rfl, -, -⟩ := h
  rfl

/-- A quotient between representable magnitudes is not rounded beyond them. -/
theorem within_round (hden : 0 < den) (hlow : Representable low) (hhigh : Representable high)
    (hge : low * den ≤ num) (hle : num ≤ high * den) : (round false num den).Within low high := by
  have hbelow : low ≤ nearestUnits num den := by
    rw [← nearestUnits_mul_left hden hlow.2]
    exact nearestUnits_le_nearestUnits hden hden (Nat.mul_le_mul_right den hge)
  have habove : nearestUnits num den ≤ high := by
    rw [← nearestUnits_mul_left hden hhigh.2]
    exact nearestUnits_le_nearestUnits hden hden (Nat.mul_le_mul_right den hle)
  exact ⟨_, _, dif_pos (Nat.lt_of_le_of_lt habove hhigh.1), hbelow, habove⟩

/-- The number 1 is a double. -/
theorem representable_one : Representable one := by
  have h := @representable_natCast 1 (by decide)
  rwa [Nat.one_mul] at h

/-- So are the powers of two, as far as they are needed. -/
theorem representable_two_pow {k : Nat} (hk : k ≤ 512) : Representable (2 ^ k * one) := by
  have h := @representable_mul_one 1 k (by decide) hk
  rwa [Nat.one_mul] at h

/-- A word is rounded to a double no greater than the bound of words. -/
theorem within_ofInt {n : Nat} (h : n < 2 ^ (64 : Nat)) :
    (ofInt n).Within 0 (2 ^ (64 : Nat) * one) := by
  have hround : ofInt n = round false (n * one) 1 := by
    unfold ofInt ofUnits
    rw [← Int.natCast_mul, Int.natAbs_natCast,
      decide_eq_false (Int.not_lt.mpr (Int.natCast_nonneg _))]
    split
    · rename_i hzero
      rw [Int.natCast_eq_zero.mp hzero]
      rfl
    · rfl
  rw [hround]
  refine within_round Nat.one_pos representable_zero (representable_two_pow (by decide)) ?_ ?_
  · rw [Nat.zero_mul]
    exact Nat.zero_le _
  · rw [Nat.mul_one]
    exact Nat.mul_le_mul_right _ h.le

/-- The product with a double that is not below one, and neither of them large. -/
theorem Within.mul (hx : x.Within 0 (2 ^ (64 : Nat) * one))
    (hy : y.Within one (2 ^ (100 : Nat) * one)) :
    (x.mul y).Within 0 (2 ^ (164 : Nat) * one) := by
  obtain ⟨m, hm, rfl, -, hmle⟩ := hx
  obtain ⟨n, hn, rfl, -, hnle⟩ := hy
  refine within_round one_pos representable_zero (representable_two_pow (by decide)) ?_ ?_
  · rw [Nat.zero_mul]
    exact Nat.zero_le _
  · calc m * n ≤ 2 ^ (64 : Nat) * one * (2 ^ (100 : Nat) * one) := Nat.mul_le_mul hmle hnle
      _ = 2 ^ (164 : Nat) * one * one := by rw [show 164 = 64 + 100 from rfl, Nat.pow_add]; ring

/-- The quotient by a double that is not below one. -/
theorem Within.div (hx : x.Within 0 (2 ^ (64 : Nat) * one))
    (hy : y.Within one (2 ^ (100 : Nat) * one)) :
    (x.div y).Within 0 (2 ^ (64 : Nat) * one) := by
  obtain ⟨m, hm, rfl, -, hmle⟩ := hx
  obtain ⟨n, hn, rfl, hnge, -⟩ := hy
  have hpos : 0 < n := Nat.lt_of_lt_of_le one_pos hnge
  have hdiv : (finite false m hm).div (finite false n hn) = round false (m * one) n :=
    if_neg hpos.ne'
  rw [hdiv]
  refine within_round hpos representable_zero (representable_two_pow (by decide)) ?_ ?_
  · rw [Nat.zero_mul]
    exact Nat.zero_le _
  · exact Nat.mul_le_mul hmle hnge

/-- The double of a number of digits behind a point is the one next to it. -/
theorem isNearest_ofScientific_neg (negative : Bool) (significand places : Nat) :
    (ofScientific negative significand (-places)).IsNearest
      (signed negative (significand / 10 ^ places)) := by
  have hone := cast_one_pos.ne'
  cases places with
  | zero =>
    refine ⟨negative, significand * 10 ^ (0 : Nat) * one, 1, Nat.one_pos, rfl, ?_⟩
    rw [Nat.pow_zero, Nat.mul_one, Nat.cast_mul, Nat.cast_one, one_mul,
      mul_div_cancel_right₀ _ hone, pow_zero, div_one]
  | succ places =>
    refine ⟨negative, significand * one, 10 ^ (places + 1), Nat.pow_pos (by decide), rfl, ?_⟩
    rw [Nat.cast_mul, Nat.cast_pow, Nat.cast_ofNat, mul_div_mul_right _ _ hone]

/-- A negated double is as finite as it was. -/
theorem isFinite_neg (x : Double) : x.neg.isFinite = x.isFinite := by
  cases x <;> rfl

end Double

namespace Json

/-- A power of ten that is looked up is between 1 and a power of two. -/
theorem within_powerOfTen {n : Nat} (h : n ≤ 30) :
    (powerOfTen n).Within Double.one (2 ^ (100 : Nat) * Double.one) := by
  have hpower : 10 ^ n ≤ 2 ^ (100 : Nat) :=
    Nat.le_trans (Nat.pow_le_pow_right (by decide) h) (by decide)
  have hround : powerOfTen n = Double.round false (1 * 10 ^ n * Double.one) 1 := rfl
  rw [hround, Nat.one_mul]
  refine Double.within_round Nat.one_pos Double.representable_one
    (Double.representable_two_pow (by decide)) ?_ ?_
  · rw [Nat.mul_one]
    exact Nat.le_mul_of_pos_left _ (Nat.pow_pos (by decide))
  · rw [Nat.mul_one]
    exact Nat.mul_le_mul_right _ hpower

/-! ## Numerals that do not overflow -/

/-- A word holds what is gathered, if it holds what is there before. -/
theorem gather_lt {significand : Nat} (h : significand < 2 ^ (64 : Nat)) (digits : List Char) :
    (gather significand digits).1 < 2 ^ (64 : Nat) ∧
      (gather significand digits).2.length ≤ digits.length := by
  induction digits generalizing significand with
  | nil => exact ⟨h, Nat.le_refl _⟩
  | cons c rest ih =>
    unfold gather
    dsimp only
    split
    · rename_i hnext
      obtain ⟨hlt, hlength⟩ := ih hnext
      exact ⟨hlt, Nat.le_succ_of_le hlength⟩
    · exact ⟨h, Nat.le_refl _⟩

namespace Numeral

/-- A word holds the significand that is gathered, and the exponent is off by no more than the
number of digits. -/
theorem ofDigits_bounds (negative : Bool) (whole fraction : List Char) (exponent : Int) :
    (ofDigits negative whole fraction exponent).significand < 2 ^ (64 : Nat) ∧
      exponent - fraction.length ≤ (ofDigits negative whole fraction exponent).exponent ∧
      (ofDigits negative whole fraction exponent).exponent ≤ exponent + whole.length := by
  obtain ⟨hlt, hlength⟩ := @gather_lt 0 (by decide) whole
  obtain ⟨hlt', hlength'⟩ := gather_lt hlt fraction
  unfold ofDigits
  dsimp only
  omega

/-- A numeral whose exponent is small has a finite double. -/
theorem isFinite_toDouble {a : Numeral} (hword : a.significand < 2 ^ (64 : Nat))
    (hlow : -30 ≤ a.exponent) (hhigh : a.exponent ≤ 30) : a.toDouble.isFinite = true := by
  have hx := Double.within_ofInt hword
  have hfinite : ∀ x : Double, x.isFinite = true →
      (if a.negative = true then x.neg else x).isFinite = true := by
    intro x h
    split
    · rw [Double.isFinite_neg, h]
    · exact h
  refine hfinite _ ?_
  cases hexponent : a.exponent with
  | ofNat n =>
    have hn : n ≤ 30 := by
      rw [hexponent] at hhigh
      exact Int.ofNat_le.mp hhigh
    dsimp only
    rw [scaleUp, if_pos (Nat.le_trans hn (by decide))]
    exact (hx.mul (within_powerOfTen hn)).isFinite
  | negSucc n =>
    have hn : n + 1 ≤ 30 := by omega
    dsimp only
    rw [scaleDown, if_pos (Nat.le_trans hn (by decide))]
    exact (hx.div (within_powerOfTen hn)).isFinite

end Numeral

/-! ## Plain numbers -/

section

variable {whole whole' : List Char}

/-- A number without its sign begins with a digit. -/
theorem exists_numberChars (h : IsWhole whole) (fraction : Option (List Char)) :
    ∃ first rest, numberChars whole fraction none = first :: rest ∧ isDigit first = true := by
  obtain ⟨first, rest, rfl, hdigit⟩ := h.exists_cons
  exact ⟨first, _, rfl, hdigit⟩

/-- The digits in front of the point end where the point is, or the text. -/
theorem numberChars_inj {fraction fraction' : Option (List Char)} (h : IsWhole whole)
    (h' : IsWhole whole')
    (heq : numberChars whole fraction none = numberChars whole' fraction' none) :
    whole = whole' ∧ fraction = fraction' := by
  have hread : ∀ {whole : List Char} (fraction : Option (List Char)), IsWhole whole →
      wholePart? (numberChars whole fraction none) = some (whole, fraction.elim [] ('.' :: ·)) := by
    intro whole fraction h
    rw [numberChars, Option.elim_none, List.append_nil]
    refine wholePart?_append h ?_
    cases fraction with
    | none => exact stops_nil _
    | some digits => exact stops_cons.mpr (by decide)
  have hsame := (hread fraction h).symm.trans (heq ▸ hread fraction' h')
  obtain ⟨hfront, hback⟩ := Prod.mk.inj (Option.some.inj hsame)
  refine ⟨hfront, ?_⟩
  cases fraction with
  | none =>
    cases fraction' with
    | none => rfl
    | some digits => exact absurd hback.symm (List.cons_ne_nil _ _)
  | some digits =>
    cases fraction' with
    | none => exact absurd hback (List.cons_ne_nil _ _)
    | some digits' => exact congrArg some (List.cons.inj hback).2

end

/-- A number without exponent. -/
structure Plain where
  negative : Bool
  whole : List Char
  fraction : Option (List Char)
  isWhole : IsWhole whole
  isFraction : ∀ digits ∈ fraction, digits ≠ [] ∧ ∀ c ∈ digits, isDigit c = true

namespace Plain

/-- The text of a number. -/
def text (a : Plain) : String :=
  String.ofList ((if a.negative then ['-'] else []) ++ numberChars a.whole a.fraction none)

/-- The digits of a number, in front of its point and behind it. -/
def digits (a : Plain) : List Char := a.whole ++ a.fraction.getD []

/-- How many digits stand behind the point. -/
def places (a : Plain) : Nat := (a.fraction.getD []).length

/-- What a number is. -/
def value (a : Plain) : ℚ := signed a.negative (natOfDigits a.digits / 10 ^ a.places)

/-- The numeral that the reader gathers from a number. -/
def numeral (a : Plain) : Numeral :=
  .ofDigits a.negative a.whole (a.fraction.getD []) 0

/-- The digits in front of the point with the sign of the number. -/
def signedWhole (a : Plain) : Int :=
  if a.negative then -natOfDigits a.whole else natOfDigits a.whole

/-- Whether the reader takes a number for an integer. -/
def IsInteger (a : Plain) : Prop :=
  a.fraction = none ∧ isWordSized a.signedWhole = true ∧
    (a.negative = true → natOfDigits a.whole ≠ 0)

variable {a b : Plain} {x : Double}

/-- The text of a number determines its parts. -/
theorem eq_of_text_eq (h : a.text = b.text) : a = b := by
  have hchars := String.ofList_injective h
  obtain ⟨first, others, htext, hdigit⟩ := exists_numberChars a.isWhole a.fraction
  obtain ⟨first', others', htext', hdigit'⟩ := exists_numberChars b.isWhole b.fraction
  have hsign : a.negative = b.negative := by
    rw [htext, htext'] at hchars
    cases ha : a.negative <;> cases hb : b.negative <;> rw [ha, hb] at hchars
    case false.true =>
      rw [(List.cons.inj hchars).1] at hdigit
      exact nomatch hdigit
    case true.false =>
      rw [← (List.cons.inj hchars).1] at hdigit'
      exact nomatch hdigit'
  rw [hsign] at hchars
  obtain ⟨hwhole, hfraction⟩ :=
    numberChars_inj a.isWhole b.isWhole (List.append_cancel_left hchars)
  cases a
  cases b
  cases hsign
  cases hwhole
  cases hfraction
  rfl

/-- What the reader makes of a number. -/
theorem read?_text {scalar : Scalar}
    (h : number? a.negative a.whole a.fraction none = some scalar) :
    read? a.text = some (.scalar scalar) :=
  read?_numberChars a.isWhole a.isFraction h

/-- A text without a point that fits an integer is read as one. -/
theorem read?_of_isInteger (h : a.IsInteger) :
    read? a.text = some (.scalar (.integer a.signedWhole)) := by
  obtain ⟨hfraction, hword, hzero⟩ := h
  have hsign : (a.negative && natOfDigits a.whole == 0) = false := by
    cases hnegative : a.negative with
    | false => rfl
    | true => exact beq_false_of_ne (hzero hnegative)
  apply read?_text
  unfold number?
  dsimp only
  rw [hfraction, hsign, show isWordSized (if a.negative = true then _ else _) = true from hword]
  rfl

/-- Any other text is read as the double of its numeral. -/
theorem read?_of_not_isInteger (h : ¬ a.IsInteger) (hfinite : a.numeral.toDouble.isFinite = true) :
    read? a.text = some (.scalar (.double a.numeral.toDouble)) := by
  apply read?_text
  unfold number?
  dsimp only
  rw [if_neg]
  · exact if_pos hfinite
  · simp only [Bool.and_eq_true]
    rintro ⟨⟨⟨hnone, -⟩, hword⟩, hzero⟩
    refine h ⟨Option.isNone_iff_eq_none.mp hnone, hword, fun hnegative hvalue => ?_⟩
    rw [hnegative, hvalue] at hzero
    exact nomatch hzero

/-- Few digits and places are rounded once, to the double next to the number. -/
theorem isNearest_of_exact (hdigits : natOfDigits a.digits ≤ 2 ^ (53 : Nat))
    (hplaces : a.places ≤ 22) (hread : read? a.text = some (.scalar (.double x))) :
    x.IsNearest a.value := by
  have hword : natOfDigits a.digits < 2 ^ (64 : Nat) := Nat.lt_of_le_of_lt hdigits (by decide)
  have hnumeral : a.numeral = ⟨a.negative, natOfDigits a.digits, -a.places⟩ := by
    rw [numeral, Numeral.ofDigits_of_lt hword, Int.zero_sub]
    rfl
  have hexact : a.numeral.IsExact := by
    rw [hnumeral]
    exact ⟨hdigits, by dsimp only; omega, by dsimp only; omega⟩
  have hdouble : a.numeral.toDouble =
      Double.ofScientific a.negative (natOfDigits a.digits) (-a.places) := by
    rw [Numeral.toDouble_eq hexact, hnumeral]
  by_cases hinteger : a.IsInteger
  · rw [read?_of_isInteger hinteger] at hread
    exact nomatch hread
  · have hfinite : a.numeral.toDouble.isFinite = true := by
      rw [hnumeral]
      exact Numeral.isFinite_toDouble hword (by dsimp only; omega) (by dsimp only; omega)
    rw [read?_of_not_isInteger hinteger hfinite, hdouble] at hread
    cases hread
    exact Double.isNearest_ofScientific_neg ..

end Plain

/-- Whether a double that the reader gives for the text of a number is the one next to the number, so
that no double is nearer to what is written (`Double.IsNearest.abs_sub_le`). -/
def ReadsNearest (text : String) : Prop :=
  ∀ a : Plain, a.text = text →
    ∀ x, read? text = some (.scalar (.double x)) → x.IsNearest a.value

/-- Texts with few digits and places are read as the nearest double. -/
theorem Plain.readsNearest_of_exact {a : Plain} (hdigits : natOfDigits a.digits ≤ 2 ^ (53 : Nat))
    (hplaces : a.places ≤ 22) : ReadsNearest a.text := by
  intro b hb x hread
  rw [eq_of_text_eq hb]
  exact isNearest_of_exact hdigits hplaces hread

end Json

end Formula
