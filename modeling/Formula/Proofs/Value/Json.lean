import Formula.Proofs.Json.Rounding
import Formula.Proofs.Number.Conversion
import Formula.Proofs.Number.Text
import Formula.Value.Json

/-!
# Values that come back from JSON

A value that is written as JSON need not come back as it is: a decimal becomes a number without a
scale, and a time or an expression becomes a string. `Value.ComesBack` says what each value comes
back as, and `Value.ofJson_toJson` that it does.

For a decimal this rests on the number that its digits spell (`Decimal.Spells`), after the zeros at
the end are gone. Then there are no places left exactly if the decimal is whole
(`Decimal.normalize_of_value_eq`), and what JSON makes of it is what the reader makes of its text
(`Decimal.read?_text_normalize`). The reader's own errors are left to the reader: the text has to be
one of which it makes the nearest double (`Json.ReadsNearest`).
-/

namespace Formula

open NaturalPower

namespace Decimal

variable {a : Decimal}

/-! ## Decimals without zeros at the end -/

/-- No zero is left at the end of the places. -/
theorem trimZeros_spec {steps : Nat} (h : a.scale ≤ steps) :
    (trimZeros steps a).scale = 0 ∨ (trimZeros steps a).mantissa % 10 ≠ 0 := by
  induction steps generalizing a with
  | zero => exact .inl (Nat.le_zero.mp h)
  | succ steps ih =>
    unfold trimZeros
    split
    · exact ih (Nat.sub_le_of_le_add h)
    · rename_i hnot
      rcases Nat.eq_zero_or_pos a.scale with hzero | hpos
      · exact .inl hzero
      · exact .inr fun hlast => hnot ⟨hpos.ne', hlast⟩

/-- A decimal is zero exactly if its mantissa is. -/
theorem value_eq_zero_iff : a.value = 0 ↔ a.mantissa = 0 := by
  have hscale : (10 ^ a.scale : ℚ) ≠ 0 := by positivity
  have habs : |a.value| = a.mantissa / 10 ^ a.scale := abs_signed _ (by positivity)
  rw [← abs_eq_zero, habs, div_eq_zero_iff, or_iff_left hscale, Nat.cast_eq_zero]

/-- Without the zeros at the end a decimal is the same number. -/
theorem value_normalize (a : Decimal) : a.normalize.value = a.value := by
  unfold normalize
  split
  · rename_i hzero
    have hvalue : a.value = 0 := value_eq_zero_iff.mpr (beq_iff_eq.mp hzero)
    rw [hvalue]
    exact value_eq_zero_iff.mpr rfl
  · exact value_trimZeros a.scale a

/-- A zero has lost its sign. -/
theorem normalize_negative (h : a.normalize.negative = true) : a.normalize.mantissa ≠ 0 := by
  intro hmantissa
  have hvalue : a.value = 0 := (value_normalize a).symm.trans (value_eq_zero_iff.mpr hmantissa)
  have hzero : a.isZero = true := beq_iff_eq.mpr (value_eq_zero_iff.mp hvalue)
  rw [normalize, if_pos hzero] at h
  exact nomatch h

/-- A whole number has no places left. -/
theorem normalize_of_value_eq {z : Int} (h : a.value = z) :
    a.normalize.scale = 0 ∧ a.normalize.signedMantissa = z := by
  have hmantissa := signedMantissa_eq a.normalize
  rw [value_normalize, h] at hmantissa
  have hscale : a.normalize.scale = 0 := by
    have hspec : a.normalize.scale = 0 ∨ a.normalize.mantissa % 10 ≠ 0 := by
      unfold normalize
      split
      · exact .inl rfl
      · exact trimZeros_spec (Nat.le_refl _)
    rcases hspec with hzero | hlast
    · exact hzero
    · -- with places the digits would end in a zero
      by_contra hne
      obtain ⟨scale, hscale⟩ := Nat.exists_eq_succ_of_ne_zero hne
      have hinteger : a.normalize.signedMantissa = z * 10 ^ scale * 10 := by
        rw [hscale, pow_succ, ← mul_assoc] at hmantissa
        exact_mod_cast hmantissa
      unfold signedMantissa at hinteger
      split at hinteger <;> omega
  refine ⟨hscale, ?_⟩
  rw [hscale, pow_zero, mul_one] at hmantissa
  exact_mod_cast hmantissa

/-! ## Decimals as numbers of JSON -/

/-- Whether a number of JSON has the sign, the digits and the places of a decimal. -/
structure Spells (a : Decimal) (b : Json.Plain) : Prop where
  text : b.text = a.text
  negative : b.negative = a.negative
  digits : Text.natOfDigits b.digits = a.mantissa
  places : b.places = a.scale
  fraction : b.fraction = none ↔ a.scale = 0
  numeral : b.numeral = a.toNumeral
  length_le : b.whole.length ≤ 30

/-- A mantissa has at most 29 digits. -/
theorem length_digitsOfNat_mantissa (a : Decimal) : (Text.digitsOfNat a.mantissa).length ≤ 29 :=
  Text.length_digitsOfNat_le (by decide) (Nat.lt_trans a.mantissa_lt (by decide))

/-- The text of a decimal without places is that of a whole number. -/
theorem exists_spells_of_scale_eq_zero (hzero : a.scale = 0) : ∃ b, a.Spells b := by
  have hlength := length_digitsOfNat_mantissa a
  have hwhole := Json.isWhole_digitsOfNat a.mantissa
  have hpad : Text.padLeft (a.scale + 1) (Text.digitsOfNat a.mantissa) =
      Text.digitsOfNat a.mantissa := by
    have hne := List.length_pos_of_ne_nil (Text.digitsOfNat_ne_nil a.mantissa)
    rw [Text.padLeft, show a.scale + 1 - (Text.digitsOfNat a.mantissa).length = 0 by omega]
    rfl
  have hnone : ∀ digits ∈ (none : Option (List Char)), digits ≠ [] ∧
      ∀ c ∈ digits, Text.isDigit c = true := fun _ h => absurd h (Option.not_mem_none _)
  refine ⟨⟨a.negative, Text.digitsOfNat a.mantissa, none, hwhole, hnone⟩, ?_, rfl, ?_, hzero.symm,
    iff_of_true rfl hzero, ?_, ?_⟩
  · rw [Json.Plain.text, text, positional_of_scale_eq_zero hzero, Json.numberChars]
    simp only [Option.elim_none, List.append_nil]
  · rw [Json.Plain.digits, Option.getD_none, List.append_nil, Text.natOfDigits_digitsOfNat]
  · rw [Json.Plain.numeral, toNumeral, hpad, hzero, Nat.sub_zero]
    dsimp only
    rw [List.take_length, List.drop_length]
    rfl
  · dsimp only
    omega

/-- The text of a decimal with places is that of a number with a point. -/
theorem exists_spells_of_scale_pos (hpos : 0 < a.scale) : ∃ b, a.Spells b := by
  have hlength := length_digitsOfNat_mantissa a
  obtain ⟨front, back, htext, hdigits, hne, hback⟩ :=
    Text.exists_positional (Text.digitsOfNat a.mantissa) hpos
  have hpadded : front ++ back =
      Text.padLeft (back.length + 1) (Text.digitsOfNat a.mantissa) := by rw [hback, hdigits]
  have hall : ∀ c ∈ front ++ back, Text.isDigit c = true := by
    rw [hdigits]
    exact Text.isDigit_of_mem_padLeft fun _ => Text.isDigit_of_mem_digitsOfNat
  have hbackNe : back ≠ [] := List.ne_nil_of_length_pos (hback ▸ hpos)
  refine ⟨⟨a.negative, front, some back, Json.isWhole_of_padLeft hpadded hne, ?_⟩, ?_, rfl, ?_,
    hback, iff_of_false (Option.some_ne_none _) hpos.ne', ?_, ?_⟩
  · rintro _ ⟨⟩
    exact ⟨hbackNe, fun c hc => hall c (List.mem_append_right _ hc)⟩
  · rw [Json.Plain.text, text, htext, Json.numberChars]
    simp only [Option.elim_some, Option.elim_none, List.append_nil]
  · rw [Json.Plain.digits, Option.getD_some, hdigits, Text.natOfDigits_padLeft,
      Text.natOfDigits_digitsOfNat]
  · have hsplit : (front ++ back).length - a.scale = front.length := by
      rw [List.length_append, hback, Nat.add_sub_cancel]
    rw [Json.Plain.numeral, toNumeral, ← hdigits, hsplit]
    dsimp only
    rw [List.take_left, List.drop_left]
    rfl
  · have htotal := congrArg List.length hdigits
    rw [List.length_append, Text.length_padLeft, hback] at htotal
    dsimp only
    omega

/-- The text of a decimal is that of a number. -/
theorem exists_spells (a : Decimal) : ∃ b, a.Spells b := by
  rcases Nat.eq_zero_or_pos a.scale with hzero | hpos
  · exact exists_spells_of_scale_eq_zero hzero
  · exact exists_spells_of_scale_pos hpos

section

variable {b : Json.Plain}

/-- A number that spells a decimal denotes it. -/
theorem Spells.value (h : a.Spells b) : b.value = a.value := by
  rw [Json.Plain.value, h.negative, h.digits, h.places, Decimal.value]

/-- The double that it is read as is finite. -/
theorem Spells.isFinite (h : a.Spells b) : a.toNumeral.toDouble.isFinite = true := by
  obtain ⟨hword, hlow, hhigh⟩ := Json.Numeral.ofDigits_bounds b.negative b.whole
    (b.fraction.getD []) 0
  rw [show Json.Numeral.ofDigits .. = a.toNumeral from h.numeral] at hword hlow hhigh
  have hplaces : (b.fraction.getD []).length ≤ 28 := Nat.le_trans (Nat.le_of_eq h.places) a.scale_le
  have hlength := h.length_le
  exact Json.Numeral.isFinite_toDouble hword (by omega) (by omega)

/-- Without places the digits in front of the point are all that there are. -/
theorem Spells.signedWhole (h : a.Spells b) (hscale : a.scale = 0) :
    b.signedWhole = a.signedMantissa ∧ Text.natOfDigits b.whole = a.mantissa := by
  have hwhole : Text.natOfDigits b.whole = a.mantissa := by
    rw [← h.digits, Json.Plain.digits, h.fraction.mpr hscale, Option.getD_none, List.append_nil]
  rw [Json.Plain.signedWhole, hwhole, h.negative, signedMantissa]
  exact ⟨rfl, rfl⟩

/-- It is read as an integer exactly if there are no places and it fits. -/
theorem Spells.isInteger_iff (h : a.Spells b) (hzero : a.negative = true → a.mantissa ≠ 0) :
    b.IsInteger ↔ a.scale = 0 ∧ Json.isWordSized a.signedMantissa = true := by
  constructor
  · rintro ⟨hnone, hword, -⟩
    have hscale := h.fraction.mp hnone
    exact ⟨hscale, (h.signedWhole hscale).1 ▸ hword⟩
  · rintro ⟨hscale, hword⟩
    obtain ⟨hsigned, hwhole⟩ := h.signedWhole hscale
    refine ⟨h.fraction.mpr hscale, hsigned.symm ▸ hword, fun hnegative => ?_⟩
    rw [hwhole]
    exact hzero (h.negative ▸ hnegative)

end

/-- What a decimal is as JSON is what the reader makes of its text. -/
theorem read?_text_normalize (a : Decimal) :
    Json.read? a.normalize.text = some (.scalar a.toJson) := by
  obtain ⟨b, hb⟩ := exists_spells a.normalize
  have hinteger := hb.isInteger_iff normalize_negative
  rw [← hb.text]
  by_cases h : a.normalize.scale = 0 ∧ Json.isWordSized a.normalize.signedMantissa = true
  · rw [show a.toJson = _ from if_pos h, Json.Plain.read?_of_isInteger (hinteger.mpr h),
      (hb.signedWhole h.1).1]
  · have hfinite : b.numeral.toDouble.isFinite = true := hb.numeral ▸ hb.isFinite
    rw [show a.toJson = _ from if_neg h,
      Json.Plain.read?_of_not_isInteger (fun h' => h (hinteger.mp h')) hfinite, hb.numeral]

/-- A text with few digits and places is one of which the reader makes the nearest double. -/
theorem readsNearest_text (hdigits : a.mantissa ≤ 2 ^ (53 : Nat)) (hplaces : a.scale ≤ 22) :
    Json.ReadsNearest a.text := by
  obtain ⟨b, hb⟩ := exists_spells a
  rw [← hb.text]
  exact Json.Plain.readsNearest_of_exact (hb.digits.symm ▸ hdigits) (hb.places.symm ▸ hplaces)

end Decimal

/-! ## Values -/

namespace Value

/-- What a value comes back as when it is written as JSON and read again. A decimal that is whole
and fits into a word becomes an integer, whatever its scale is, and any other one the double next to
it: no double is nearer to the decimal (`Double.IsNearest.abs_sub_le`). -/
inductive ComesBack : Value → Except UnsupportedJson Value → Prop where
  | integer (n : Int64) : ComesBack (.integer n) (.ok (.integer n))
  | boolean (b : Bool) : ComesBack (.boolean b) (.ok (.boolean b))
  | string (s : String) : ComesBack (.string s) (.ok (.string s))
  | finite {x : Double} (hfinite : x.isFinite = true) : ComesBack (.double x) (.ok (.double x))
  | unwritten {x : Double} (hfinite : x.isFinite = false) : ComesBack (.double x) (.error .null)
  | whole {d : Decimal} {n : Int64} (hvalue : d.value = n.toInt) :
    ComesBack (.decimal d) (.ok (.integer n))
  | rounded {d : Decimal} {x : Double} (hvalue : ∀ n : Int64, d.value ≠ n.toInt)
    (hnearest : x.IsNearest d.value) : ComesBack (.decimal d) (.ok (.double x))
  | dateTime (t : DateTime) : ComesBack (.dateTime t) (.ok (.string t.isoText))
  | expression (e : Expression) : ComesBack (.expression e) (.ok (.string e.source))

/-- An integer is the value of its scalar. -/
theorem ofScalar_toInt (n : Int64) : ofScalar (.integer n.toInt) = .ok (.integer n) := by
  rw [ofScalar, Integer.ofInt?_toInt]

/-- A whole decimal in the range of the integers. -/
theorem toJson_of_value_eq {d : Decimal} {n : Int64} (h : d.value = n.toInt) :
    d.toJson = .integer n.toInt := by
  obtain ⟨hscale, hmantissa⟩ := Decimal.normalize_of_value_eq h
  have hword := Json.isWordSized_toInt n
  rw [← hmantissa] at hword ⊢
  exact if_pos ⟨hscale, hword⟩

/-- Any other decimal, whether JSON has an integer for it or not. -/
theorem exists_ofScalar_toJson {d : Decimal} (h : ∀ n : Int64, d.value ≠ n.toInt)
    (hround : Json.ReadsNearest d.normalize.text) :
    ∃ x, ofScalar d.toJson = .ok (.double x) ∧ x.IsNearest d.value := by
  by_cases hinteger : d.normalize.scale = 0 ∧ Json.isWordSized d.normalize.signedMantissa = true
  · -- an integer of JSON that no signed word holds
    have hvalue : d.value = d.normalize.signedMantissa := by
      rw [Decimal.signedMantissa_eq, Decimal.value_normalize, hinteger.1, pow_zero, mul_one]
    have hnone : Integer.ofInt? d.normalize.signedMantissa = none := by
      cases hsome : Integer.ofInt? d.normalize.signedMantissa with
      | none => rfl
      | some n => exact absurd (hvalue.trans (by rw [Integer.toInt_of_ofInt? hsome])) (h n)
    refine ⟨Double.ofInt d.normalize.signedMantissa, ?_, hvalue ▸ Double.isNearest_ofInt _⟩
    rw [show d.toJson = _ from if_pos hinteger, ofScalar, hnone]
  · have hdouble : d.toJson = .double d.normalize.toNumeral.toDouble := if_neg hinteger
    obtain ⟨b, hb⟩ := Decimal.exists_spells d.normalize
    refine ⟨d.normalize.toNumeral.toDouble, by rw [hdouble, ofScalar], ?_⟩
    rw [← Decimal.value_normalize, ← hb.value]
    refine hround b hb.text _ ?_
    rw [Decimal.read?_text_normalize, hdouble]

/-- Every value comes back from JSON as `ComesBack` says, a decimal as long as the reader makes the
nearest double of its text without the zeros at the end. -/
theorem ofJson_toJson (v : Value)
    (hround : ∀ d, v = .decimal d → Json.ReadsNearest d.normalize.text) :
    v.ComesBack (ofJson (.scalar v.toJson)) := by
  cases v with
  | integer n =>
    rw [ofJson, toJson, ofScalar_toInt]
    exact .integer n
  | decimal d =>
    rw [ofJson, toJson]
    by_cases hwhole : ∃ n : Int64, d.value = n.toInt
    · obtain ⟨n, hn⟩ := hwhole
      rw [toJson_of_value_eq hn, ofScalar_toInt]
      exact .whole hn
    · have hnone : ∀ n : Int64, d.value ≠ n.toInt := fun n hn => hwhole ⟨n, hn⟩
      obtain ⟨x, hx, hnearest⟩ := exists_ofScalar_toJson hnone (hround d rfl)
      rw [hx]
      exact .rounded hnone hnearest
  | double x =>
    rw [ofJson, toJson]
    cases hfinite : x.isFinite with
    | true => exact .finite hfinite
    | false => exact .unwritten hfinite
  | string s => exact .string s
  | boolean b => exact .boolean b
  | dateTime t => exact .dateTime t
  | expression e => exact .expression e

/-- The decimal 13.50 comes back as the double 13.5, and -11.00 as an integer. -/
theorem ofJson_toJson_price :
    ComesBack (.decimal ⟨false, 1350, 2, by decide, by decide⟩)
      (.ok (.double (Double.ofScientific false 135 (-1)))) ∧
    ComesBack (.decimal ⟨true, 1100, 2, by decide, by decide⟩) (.ok (.integer (-11))) := by
  have hround : ∀ d : Decimal, d.normalize.mantissa ≤ 2 ^ (53 : Nat) → d.normalize.scale ≤ 22 →
      ∀ d', Value.decimal d = .decimal d' → Json.ReadsNearest d'.normalize.text := by
    rintro d hdigits hplaces _ ⟨⟩
    exact Decimal.readsNearest_text hdigits hplaces
  constructor
  · have hjson : Decimal.toJson ⟨false, 1350, 2, by decide, by decide⟩ =
        .double (Double.ofScientific false 135 (-1)) := by decide +kernel
    have hback := ofJson_toJson _ (hround ⟨false, 1350, 2, by decide, by decide⟩
      (by decide) (by decide))
    rwa [toJson, hjson] at hback
  · have hjson : Decimal.toJson ⟨true, 1100, 2, by decide, by decide⟩ =
        .integer (-11 : Int64).toInt := by decide +kernel
    have hback := ofJson_toJson _ (hround ⟨true, 1100, 2, by decide, by decide⟩
      (by decide) (by decide))
    rwa [toJson, hjson, ofJson, ofScalar_toInt] at hback

end Value

end Formula
