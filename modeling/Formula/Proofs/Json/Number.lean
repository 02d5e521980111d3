import Formula.Proofs.Json.Text
import Formula.Proofs.Number.Nearest
import Mathlib.Tactic.Ring

/-!
# Doubles of JSON read back

The text of a double shows its shortest decimal, and the reader gathers the digits of this text into
a numeral of the same value: `shown` is this numeral, and `exists_parts` says that its parts are
written. The reader rounds the significand and a power of ten to doubles, and then their product or
quotient. Up to `2 ^ 53` and `10 ^ 22` both are doubles themselves, so that only the last step
rounds, and the result is the double nearest the numeral (`Numeral.toDouble_eq`). The shortest
decimal rounds to the double it is made from, so a double that is shown by an exact numeral is read
back (`readsBack_double`).
-/

namespace Formula

open NaturalPower

open Text (natOfDigits digitsOfNat isDigit)

/-! ## Numerals -/

namespace Json

section Numerals

variable {significand : Nat} {exponent : Int} {negative : Bool}

/-- Digits are gathered as long as a word holds their number. -/
theorem gather_of_lt {digits : List Char}
    (h : digits.foldl (fun value c => 10 * value + Text.digitValue c) significand <
      2 ^ (64 : Nat)) :
    gather significand digits =
      (digits.foldl (fun value c => 10 * value + Text.digitValue c) significand, []) := by
  induction digits generalizing significand with
  | nil => rfl
  | cons c rest ih =>
    rw [List.foldl_cons] at h ⊢
    have hnext : 10 * significand + Text.digitValue c < 2 ^ (64 : Nat) := by
      refine Nat.lt_of_le_of_lt ?_ h
      rw [Text.foldl_digits]
      exact Nat.le_add_right_of_le (Nat.le_mul_of_pos_left _ (Nat.pow_pos (by decide)))
    rw [gather, if_pos hnext]
    exact ih h

/-- Digits that fit a word are all kept. -/
theorem Numeral.ofDigits_of_lt {whole fraction : List Char}
    (h : natOfDigits (whole ++ fraction) < 2 ^ (64 : Nat)) :
    Numeral.ofDigits negative whole fraction exponent =
      ⟨negative, natOfDigits (whole ++ fraction), exponent - fraction.length⟩ := by
  have hwhole : gather 0 whole = (natOfDigits whole, []) :=
    gather_of_lt (Nat.lt_of_le_of_lt (Text.natOfDigits_le_append whole fraction) h)
  have happend : fraction.foldl (fun value c => 10 * value + Text.digitValue c)
      (natOfDigits whole) = natOfDigits (whole ++ fraction) := (List.foldl_append ..).symm
  have hfraction : gather (natOfDigits whole) fraction = (natOfDigits (whole ++ fraction), []) := by
    rw [← happend]
    exact gather_of_lt (happend.symm ▸ h)
  rw [Numeral.ofDigits, hwhole]
  dsimp only
  rw [hfraction]
  dsimp only [List.length_nil]
  rw [Int.natCast_zero, Int.add_zero, Int.add_zero]

/-- The parts of a number that denote a numeral, and by which it is no integer. -/
structure Numeral.Parts (a : Numeral) (whole : List Char) (fraction : Option (List Char))
    (exponent : Option Int) : Prop where
  isWhole : IsWhole whole
  isFraction : ∀ digits ∈ fraction, digits ≠ [] ∧ ∀ c ∈ digits, isDigit c = true
  marked : (fraction.isNone && exponent.isNone) = false
  significand : natOfDigits (whole ++ fraction.getD []) = a.significand
  exponent : exponent.getD 0 - (fraction.getD []).length = a.exponent

/-- What is written for a numeral is read as its double. -/
theorem Numeral.Parts.read? {a : Numeral} {whole : List Char} {fraction : Option (List Char)}
    {exponent : Option Int} (h : a.Parts whole fraction exponent)
    (hlt : a.significand < 2 ^ (64 : Nat)) (hfinite : a.toDouble.isFinite = true) :
    Json.read? (String.ofList ((if a.negative then ['-'] else []) ++
      numberChars whole fraction exponent)) = some (.scalar (.double a.toDouble)) := by
  refine read?_numberChars h.isWhole h.isFraction ?_
  have hnumeral : Numeral.ofDigits a.negative whole (fraction.getD []) (exponent.getD 0) = a := by
    rw [Numeral.ofDigits_of_lt (h.significand ▸ hlt), h.significand, h.exponent]
  rw [number?, h.marked, hnumeral, Bool.false_and, Bool.false_and]
  exact if_pos hfinite

end Numerals

end Json

/-! ## Exact numerals -/

namespace Double

variable {m n : Nat}

/-- The sign makes no difference to rounding. -/
theorem neg_round (num den : Nat) : (round false num den).neg = round true num den := by
  unfold round
  split <;> rfl

/-- A sign is kept apart from rounding. -/
theorem ofScientific_eq (negative : Bool) (significand : Nat) (exponent : Int) :
    ofScientific negative significand exponent =
      if negative then (ofScientific false significand exponent).neg
      else ofScientific false significand exponent := by
  cases negative with
  | false => exact (if_neg Bool.false_ne_true).symm
  | true =>
    rw [if_pos rfl]
    cases exponent with
    | ofNat n => exact (neg_round _ _).symm
    | negSucc n => exact (neg_round _ _).symm

/-- A power of ten up to `10 ^ 22` is a double. -/
theorem representable_pow_ten (hn : n ≤ 22) : Representable (10 ^ n * one) := by
  have hfive : 5 ^ n ≤ 2 ^ (53 : Nat) :=
    Nat.le_trans (Nat.pow_le_pow_right (by decide) hn) (by decide)
  have hten : 10 ^ n = 5 ^ n * 2 ^ n := Nat.mul_pow 5 2 n
  rw [hten]
  exact representable_mul_one hfive (by omega)

/-- Zero is zero at any exponent. -/
theorem ofScientific_zero (exponent : Int) :
    ofScientific false 0 exponent = finite false 0 representable_zero := by
  have hround : ∀ den, 0 < den → round false 0 den = finite false 0 representable_zero := by
    intro den hden
    have h := round_of_representable false hden representable_zero
    rwa [Nat.zero_mul] at h
  cases exponent with
  | ofNat e => rw [ofScientific, Nat.zero_mul, Nat.zero_mul, hround 1 Nat.one_pos]
  | negSucc e => rw [ofScientific, Nat.zero_mul, hround _ (Nat.pow_pos (by decide))]

/-- A number of at most 53 bits is a double. -/
theorem ofInt_natCast (hm : m ≤ 2 ^ (53 : Nat)) :
    ofInt m = finite false (m * one) (representable_natCast hm) := by
  have hround := round_units false (representable_natCast hm)
  unfold ofInt ofUnits
  rw [← Int.natCast_mul]
  split
  · rename_i hzero
    rw [← hround, Int.natCast_eq_zero.mp hzero]
    rfl
  · rw [← hround, Int.natAbs_natCast, decide_eq_false (Int.not_lt.mpr (Int.natCast_nonneg _))]

/-- The first powers of ten are doubles. -/
theorem powerOfTen_eq (hn : n ≤ 22) :
    Json.powerOfTen n = finite false (10 ^ n * one) (representable_pow_ten hn) := by
  have hround : Json.powerOfTen n = round false (1 * 10 ^ n * one) 1 := rfl
  rw [hround, Nat.one_mul, round_units false (representable_pow_ten hn)]

/-- Scaling up an exact number by an exact power rounds once. -/
theorem scaleUp_ofInt (hm : m ≤ 2 ^ (53 : Nat)) (hn : n ≤ 22) :
    Json.scaleUp (ofInt m) n = ofScientific false m n := by
  have hpower : n ≤ Json.maxPower := Nat.le_trans hn (by decide)
  rw [Json.scaleUp, if_pos hpower, ofInt_natCast hm, powerOfTen_eq hn]
  refine round_eq_round _ one_pos Nat.one_pos ?_
  ring

/-- So does scaling down. -/
theorem scaleDown_ofInt (hm : m ≤ 2 ^ (53 : Nat)) (hn : n + 1 ≤ 22) :
    Json.scaleDown (ofInt m) (n + 1) = ofScientific false m (.negSucc n) := by
  have hpower : n + 1 ≤ Json.maxPower := Nat.le_trans hn (by decide)
  have hpos : 0 < 10 ^ (n + 1) * one := Nat.mul_pos (Nat.pow_pos (by decide)) one_pos
  rw [Json.scaleDown, if_pos hpower, ofInt_natCast hm, powerOfTen_eq hn]
  refine (if_neg hpos.ne').trans ?_
  refine round_eq_round _ hpos (Nat.pow_pos (by decide)) ?_
  ring

end Double

namespace Json

/-- Whether the significand of a numeral and its power of ten are doubles. -/
structure Numeral.IsExact (a : Numeral) : Prop where
  significand_le : a.significand ≤ 2 ^ (53 : Nat)
  le_exponent : -22 ≤ a.exponent
  exponent_le : a.exponent ≤ 22

/-- An exact numeral is rounded once, to the double next to it. -/
theorem Numeral.toDouble_eq {a : Numeral} (h : a.IsExact) :
    a.toDouble = Double.ofScientific a.negative a.significand a.exponent := by
  obtain ⟨negative, significand, exponent⟩ := a
  obtain ⟨hs, hlow, hhigh⟩ := h
  dsimp only at hs hlow hhigh ⊢
  rw [Numeral.toDouble, Double.ofScientific_eq]
  cases exponent with
  | ofNat n =>
    have hn : n ≤ 22 := Int.ofNat_le.mp hhigh
    dsimp only
    rw [Double.scaleUp_ofInt hs hn]
    rfl
  | negSucc n =>
    have hn : n + 1 ≤ 22 := by omega
    dsimp only
    rw [Double.scaleDown_ofInt hs hn]

/-! ## The text of a double -/

open Double (Scientific)

/-- The numeral that the text of a decimal shows. A whole number in positional notation has a zero
behind its point. -/
def shown (negative : Bool) (a : Scientific) : Numeral :=
  if 0 ≤ a.exponent ∧ a.pointPlace ≤ 16 then
    ⟨negative, a.digits * 10 ^ (a.exponent.toNat + 1), -1⟩
  else ⟨negative, a.digits, a.exponent⟩

/-- The numeral that is shown has the sign of the double. -/
theorem shown_negative (negative : Bool) (a : Scientific) :
    (shown negative a).negative = negative := by
  unfold shown
  split <;> rfl

/-- The digits are counted in their text. -/
theorem digitCount_eq (n : Nat) : Double.digitCount n = (digitsOfNat n).length := by
  rw [Double.digitCount, ← String.length_toList, Nat.toList_repr]
  rfl

variable {a : Scientific} {negative : Bool}

/-- A zero behind the point marks a whole number. -/
theorem parts_whole {e : Nat} (hexponent : a.exponent = e) (hzero : a.digits = 0 → e = 0)
    (hplace : a.pointPlace ≤ 16) :
    (shown negative a).Parts (digitsOfNat a.digits ++ List.replicate e '0') (some ['0']) none := by
  have hshown : shown negative a = ⟨negative, a.digits * 10 ^ (e + 1), -1⟩ := by
    rw [shown, hexponent, if_pos ⟨Int.natCast_nonneg e, hplace⟩, Int.toNat_natCast]
  rw [hshown, ← Text.digitsOfNat_mul_pow e hzero]
  refine ⟨isWhole_digitsOfNat _, ?_, rfl, ?_, rfl⟩
  · rintro _ ⟨⟩
    exact ⟨List.cons_ne_nil _ _, List.forall_mem_singleton.mpr rfl⟩
  · show natOfDigits (digitsOfNat (a.digits * 10 ^ e) ++ ['0']) = a.digits * 10 ^ (e + 1)
    rw [Text.natOfDigits_append, Text.natOfDigits_digitsOfNat, Nat.pow_succ', Nat.mul_left_comm]
    rfl

/-- The digits behind a point are as many as the exponent asks for. -/
theorem parts_places {k : Nat} {front back : List Char} (hexponent : a.exponent = .negSucc k)
    (hdigits : front ++ back = Text.padLeft (k + 2) (digitsOfNat a.digits)) (hne : front ≠ [])
    (hlength : back.length = k + 1) : (shown negative a).Parts front (some back) none := by
  have hshown : shown negative a = ⟨negative, a.digits, .negSucc k⟩ := by
    rw [shown, hexponent, if_neg fun h => absurd h.1 (by omega)]
  have hall : ∀ c ∈ front ++ back, isDigit c = true := by
    rw [hdigits]
    exact Text.isDigit_of_mem_padLeft fun _ => Text.isDigit_of_mem_digitsOfNat
  have hpadded : front ++ back = Text.padLeft (back.length + 1) (digitsOfNat a.digits) := by
    rw [hlength, hdigits]
  rw [hshown]
  refine ⟨isWhole_of_padLeft hpadded hne, ?_, rfl, ?_, ?_⟩
  · rintro _ ⟨⟩
    refine ⟨fun hnil => ?_, fun c hc => hall c (List.mem_append_right _ hc)⟩
    rw [hnil] at hlength
    exact Nat.succ_ne_zero k hlength.symm
  · show natOfDigits (front ++ back) = a.digits
    rw [hdigits, Text.natOfDigits_padLeft, Text.natOfDigits_digitsOfNat]
  · show (0 : Int) - back.length = .negSucc k
    omega

/-- With an exponent one digit stands before the point, and the others, if any, behind it. -/
theorem parts_exponent {first : Char} {rest : List Char}
    (hplace : ¬ (-5 < a.pointPlace ∧ a.pointPlace ≤ 16))
    (hdigits : digitsOfNat a.digits = first :: rest) :
    (shown negative a).Parts [first] (if rest = [] then none else some rest)
      (some (a.pointPlace - 1)) := by
  have hcount : a.pointPlace = rest.length + 1 + a.exponent := by
    rw [Scientific.pointPlace, digitCount_eq, hdigits, List.length_cons]
    rfl
  have hshown : shown negative a = ⟨negative, a.digits, a.exponent⟩ := by
    rw [shown, if_neg fun h => hplace ⟨by omega, h.2⟩]
  have hfraction : (if rest = [] then none else some rest).getD [] = rest := by
    split
    · rename_i hnil
      exact hnil.symm
    · rfl
  rw [hshown]
  refine ⟨isWhole_front (List.cons_ne_nil _ _) ⟨rest, hdigits.symm⟩, ?_, ?_, ?_, ?_⟩
  · intro digits hmem
    split at hmem
    · exact nomatch hmem
    · rename_i hne
      obtain rfl := Option.mem_some.mp hmem
      exact ⟨hne, fun c hc => Text.isDigit_of_mem_digitsOfNat (hdigits ▸ List.mem_cons_of_mem _ hc)⟩
  · exact Bool.and_false _
  · rw [hfraction]
    show natOfDigits (first :: rest) = a.digits
    rw [← hdigits, Text.natOfDigits_digitsOfNat]
  · rw [hfraction]
    show a.pointPlace - 1 - rest.length = a.exponent
    omega

/-- The text of an exponent, character by character. -/
theorem toList_exponentText (a : Scientific) :
    a.exponentText.toList = exponentChars (a.pointPlace - 1) := by
  unfold Scientific.exponentText
  cases a.pointPlace - 1 with
  | ofNat e =>
    dsimp only
    rw [String.toList_append, Nat.toList_repr]
    rfl
  | negSucc e =>
    dsimp only
    rw [String.toList_append, Nat.toList_repr]
    rfl

/-- The text of the digits has a point behind the first one if there are more. -/
theorem toList_mantissaText {first : Char} {rest : List Char}
    (h : digitsOfNat a.digits = first :: rest) : a.mantissaText.toList =
      [first] ++ (if rest = [] then none else some rest).elim [] ('.' :: ·) := by
  rw [Scientific.mantissaText, h]
  cases rest with
  | nil => exact String.toList_singleton first
  | cons c rest =>
    show (first.toString ++ "." ++ String.ofList (c :: rest)).toList = _
    rw [String.toList_append, String.toList_append, String.toList_ofList (l := c :: rest),
      show first.toString.toList = [first] from String.toList_singleton first]
    rfl

/-- The text of a decimal consists of the parts of the numeral that it shows. -/
theorem exists_parts (negative : Bool) (hzero : a.digits = 0 → a.exponent = 0) :
    ∃ whole fraction exponent, a.jsonText.toList = numberChars whole fraction exponent ∧
      (shown negative a).Parts whole fraction exponent := by
  by_cases hplace : -5 < a.pointPlace ∧ a.pointPlace ≤ 16
  · rw [Scientific.jsonText, if_pos hplace, Scientific.positional, String.toList_append,
      String.toList_ofList]
    cases hexponent : a.exponent with
    | ofNat e =>
      refine ⟨_, _, _, ?_, parts_whole hexponent (fun h => ?_) hplace.2⟩
      · rw [if_pos (show 0 ≤ Int.ofNat e from Int.natCast_nonneg e)]
        rfl
      · exact Int.ofNat_eq_zero.mp (hexponent.symm.trans (hzero h))
    | negSucc k =>
      obtain ⟨front, back, htext, hdigits, hne, hlength⟩ :=
        Text.exists_positional (digitsOfNat a.digits) (Nat.succ_pos k)
      refine ⟨front, some back, none, ?_, parts_places hexponent hdigits hne hlength⟩
      rw [if_neg (by omega)]
      have htext : Text.positional (digitsOfNat a.digits) (.negSucc k) = front ++ '.' :: back := htext
      rw [htext, numberChars, Option.elim_some, Option.elim_none, List.append_nil]
      exact List.append_nil _
  · obtain ⟨first, rest, hdigits⟩ := List.exists_cons_of_ne_nil (Text.digitsOfNat_ne_nil a.digits)
    refine ⟨_, _, _, ?_, parts_exponent hplace hdigits⟩
    rw [Scientific.jsonText, if_neg hplace, String.toList_append, toList_mantissaText hdigits,
      toList_exponentText, List.append_assoc]
    rfl

/-! ## Doubles -/

/-- The decimal that is shown for a magnitude. -/
def decimal (units : Nat) : Scientific := if units = 0 then ⟨0, 0⟩ else Double.shortest .even units

/-- The decimal that is shown for a magnitude rounds to it. -/
theorem reads_decimal {units : Nat} (h : Double.Representable units) :
    (decimal units).Reads units := by
  unfold decimal
  split
  · rename_i hzero
    subst hzero
    exact ⟨h, Double.ofScientific_zero 0⟩
  · exact Double.reads_shortest .even h

/-- The shortest decimal of zero has no exponent. -/
theorem exponent_decimal {units : Nat} (h : Double.Representable units)
    (hzero : (decimal units).digits = 0) : (decimal units).exponent = 0 := by
  have hunits : units = 0 := by
    obtain ⟨h', hreads⟩ := reads_decimal h
    rw [hzero, Double.ofScientific_zero] at hreads
    injection hreads with _ hunits
    exact hunits.symm
  rw [decimal, if_pos hunits]

/-- The numeral that is shown denotes the decimal. -/
theorem ofScientific_shown (negative : Bool) (a : Scientific) :
    Double.ofScientific negative (shown negative a).significand (shown negative a).exponent =
      Double.ofScientific negative a.digits a.exponent := by
  unfold shown
  split
  · rename_i h
    obtain ⟨e, he⟩ := Int.eq_ofNat_of_zero_le h.1
    rw [he]
    refine Double.round_eq_round _ (Nat.pow_pos (by decide)) Nat.one_pos ?_
    rw [Int.toNat_natCast]
    ring
  · rfl

/-- The text of a double is that of its decimal behind its sign. -/
theorem jsonText_finite (negative : Bool) {units : Nat} (h : Double.Representable units) :
    (Double.finite negative units h).jsonText =
      String.ofList (if negative then ['-'] else []) ++ (decimal units).jsonText := by
  have hsign : Double.signText negative = String.ofList (if negative then ['-'] else []) := by
    cases negative <;> rfl
  rw [Double.jsonText, hsign, decimal]
  split <;> rfl

/-- A double is read back as the double of the numeral that is shown for it. -/
theorem read?_jsonText {units : Nat} (h : Double.Representable units)
    (hword : (shown negative (decimal units)).significand < 2 ^ (64 : Nat))
    (hfinite : (shown negative (decimal units)).toDouble.isFinite = true) :
    read? (Double.finite negative units h).jsonText =
      some (.scalar (.double (shown negative (decimal units)).toDouble)) := by
  obtain ⟨whole, fraction, exponent, htext, hparts⟩ := exists_parts negative (exponent_decimal h)
  have hchars : (Double.finite negative units h).jsonText =
      String.ofList ((if negative then ['-'] else []) ++ numberChars whole fraction exponent) := by
    apply String.toList_injective
    rw [jsonText_finite, String.toList_append, String.toList_ofList, String.toList_ofList, htext]
  have hread := hparts.read? hword hfinite
  rw [shown_negative] at hread
  rw [hchars, hread]

/-- A double comes back from JSON if the numeral that is shown for it is exact. -/
theorem readsBack_double {units : Nat} {h : Double.Representable units}
    (hexact : (shown negative (decimal units)).IsExact) :
    (Scalar.double (.finite negative units h)).ReadsBack := by
  have hdouble : (shown negative (decimal units)).toDouble = .finite negative units h := by
    obtain ⟨h', hreads⟩ := reads_decimal h
    rw [Numeral.toDouble_eq hexact, shown_negative, ofScientific_shown, Double.ofScientific_eq,
      hreads]
    cases negative <;> rfl
  have hword : (shown negative (decimal units)).significand < 2 ^ (64 : Nat) :=
    Nat.lt_of_le_of_lt hexact.significand_le (by decide)
  have hread := read?_jsonText h hword (hdouble ▸ rfl)
  rwa [hdouble] at hread

/-- The text of `2 ^ 53 - 1` shows a significand that is no double, and a neighbour is read. -/
example : (shown false (decimal ((2 ^ (53 : Nat) - 1) * Double.one))).toDouble =
    Double.ofInt (2 ^ (53 : Nat) - 2) := by decide +kernel

end Json

end Formula
