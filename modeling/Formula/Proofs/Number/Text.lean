import Formula.Proofs.Text.Digits
import Formula.Number.Integer
import Formula.Number.Decimal.Text
import Mathlib.Data.List.TakeWhile

/-!
# Numbers read back from their text

A word is read back from its text, and a decimal from its text with all its places, unless it is a
zero with a sign. The reader of decimals goes through the digits one by one; `Reading.pushAll` is
its state after several of them, as long as every one fits. The places of a number below one need
not fit, since what is left over is rounded off (`Reading.IsFraction`).
-/

namespace Formula

open NaturalPower

/-! ## Words -/

/-- What an integer denotes is that integer. -/
theorem Integer.ofInt?_toInt (n : Int64) : Integer.ofInt? n.toInt = some n := by
  rw [ofInt?, if_pos ⟨n.minValue_le_toInt, n.toInt_le⟩, Int64.ofInt_toInt]

/-- A number that is an integer is denoted by it. -/
theorem Integer.toInt_of_ofInt? {k : Int} {n : Int64} (h : Integer.ofInt? k = some n) :
    n.toInt = k := by
  unfold Integer.ofInt? at h
  split at h
  · rename_i hrange
    cases h
    exact Int64.toInt_ofInt_of_le hrange.1 (Int.lt_of_le_of_lt hrange.2 (by decide))
  · exact nomatch h

/-- Digits that denote an integer are read as it. -/
theorem Integer.readSigned?_digits {digits : List Char} {n : Int64} (hne : digits ≠ [])
    (hdigits : ∀ c ∈ digits, Text.isDigit c = true) (h : (Text.natOfDigits digits : Int) = n.toInt) :
    Integer.readSigned? false digits = some n := by
  have hall : digits.all Text.isDigit = true := List.all_eq_true.mpr hdigits
  rw [readSigned?, if_pos ⟨hne, hall⟩, if_neg (by decide), h, ofInt?_toInt]

/-- A text that starts with a digit has no sign. -/
theorem Integer.read?_of_isDigit {c : Char} {rest : List Char} (h : Text.isDigit c = true) :
    Integer.read? (c :: rest) = Integer.readSigned? false (c :: rest) := by
  refine Integer.read?.eq_3 _ ?_ ?_
  all_goals
    rintro tail heq
    cases heq
    exact nomatch h

/-- A word that is not negative is read back from its digits. -/
theorem Integer.read?_digitsOfNat {n : Int64} (h : 0 ≤ n.toInt) :
    Integer.read? (Text.digitsOfNat n.toInt.toNat) = some n := by
  have hne := Text.digitsOfNat_ne_nil n.toInt.toNat
  have hdigits : ∀ c ∈ Text.digitsOfNat n.toInt.toNat, Text.isDigit c = true :=
    fun c => Text.isDigit_of_mem_digitsOfNat
  have hvalue : (Text.natOfDigits (Text.digitsOfNat n.toInt.toNat) : Int) = n.toInt := by
    rw [Text.natOfDigits_digitsOfNat, Int.toNat_of_nonneg h]
  cases hcons : Text.digitsOfNat n.toInt.toNat with
  | nil => exact absurd hcons hne
  | cons c rest =>
    rw [Integer.read?_of_isDigit (hdigits c (hcons ▸ List.mem_cons_self)), ← hcons]
    exact readSigned?_digits hne hdigits hvalue

/-- A run of digits is read as a word exactly if the number is in range. -/
theorem Integer.isSome_read?_iff {digits : List Char} (hne : digits ≠ [])
    (hdigits : ∀ c ∈ digits, Text.isDigit c = true) :
    (Integer.read? digits).isSome ↔ Text.natOfDigits digits < 2 ^ (63 : Nat) := by
  have hall : digits.all Text.isDigit = true := List.all_eq_true.mpr hdigits
  have hmin : Int64.minValue.toInt = -2 ^ (63 : Nat) := rfl
  have hmax : Int64.maxValue.toInt = 2 ^ (63 : Nat) - 1 := rfl
  obtain ⟨c, rest, rfl⟩ := List.exists_cons_of_ne_nil hne
  rw [Integer.read?_of_isDigit (hdigits c List.mem_cons_self), readSigned?, if_pos ⟨hne, hall⟩,
    if_neg (by decide), ofInt?]
  split
  · rename_i hrange
    simp only [Option.isSome_some, true_iff]
    omega
  · rename_i hrange
    simp only [Option.isSome_none, Bool.false_eq_true, false_iff]
    omega

/-- The text of an integer that is not negative is its digits. -/
theorem Integer.toList_text {n : Int64} (h : 0 ≤ n.toInt) :
    (Integer.text n).toList = Text.digitsOfNat n.toInt.toNat := by
  obtain ⟨k, hk⟩ := Int.eq_ofNat_of_zero_le h
  rw [Integer.text, hk]
  exact Nat.toList_repr

/-! ## Decimals -/

namespace Decimal

namespace Reading

/-- The state after several digits, which fit. -/
def pushAll (state : Reading) (digits : List Char) : Reading :=
  digits.foldl (fun state c => state.push (Text.digitValue c)) state

variable {state : Reading} {digits : List Char}

/-- Digits are appended to the mantissa. -/
theorem pushAll_mantissa : (state.pushAll digits).mantissa =
    10 ^ digits.length * state.mantissa + Text.natOfDigits digits := by
  rw [← Text.foldl_digits]
  induction digits generalizing state with
  | nil => rfl
  | cons c digits ih => exact ih

/-- They do not bring a point. -/
theorem pushAll_pointSeen : (state.pushAll digits).pointSeen = state.pointSeen := by
  induction digits generalizing state with
  | nil => rfl
  | cons c digits ih => exact ih

/-- Behind a point, each of them is one place. -/
theorem pushAll_scale : (state.pushAll digits).scale =
    if state.pointSeen then state.scale + digits.length else state.scale := by
  induction digits generalizing state with
  | nil => simp [pushAll]
  | cons c digits ih =>
    have hstep : (state.pushAll (c :: digits)).scale =
        ((state.push (Text.digitValue c)).pushAll digits).scale := rfl
    rw [hstep, ih]
    unfold push
    split <;> simp only [List.length_cons]
    omega

/-- One of them is enough for a number. -/
theorem pushAll_digitSeen (h : digits ≠ [] ∨ state.digitSeen = true) :
    (state.pushAll digits).digitSeen = true := by
  induction digits generalizing state with
  | nil => exact h.resolve_left fun hne => hne rfl
  | cons c digits ih => exact ih (.inr rfl)

/-- Digits are read one by one as long as the mantissa and the places stay within the bounds. -/
theorem read?_pushAll {rest : List Char} (hdigits : ∀ c ∈ digits, Text.isDigit c = true)
    (hmantissa : (state.pushAll digits).mantissa < mantissaBound)
    (hscale : (state.pushAll digits).scale ≤ maxScale) :
    state.read? (digits ++ rest) = (state.pushAll digits).read? rest := by
  induction digits generalizing state with
  | nil => rfl
  | cons c digits ih =>
    obtain ⟨hc, hdigits⟩ := List.forall_mem_cons.mp hdigits
    -- mantissa and places only grow, so their bounds at the end are bounds on the way
    have hroom : state.hasRoom (Text.digitValue c) = true := by
      have hfull : state.isFull = false := by
        rw [pushAll_scale, List.length_cons] at hscale
        unfold isFull
        cases hpoint : state.pointSeen with
        | false => rfl
        | true =>
          rw [hpoint, if_pos rfl] at hscale
          have hplace : ¬ maxScale ≤ state.scale := by omega
          rw [decide_eq_false hplace]
          rfl
      have hpush : (state.push (Text.digitValue c)).mantissa ≤
          ((state.push (Text.digitValue c)).pushAll digits).mantissa := by
        rw [pushAll_mantissa]
        exact Nat.le_add_right_of_le (Nat.le_mul_of_pos_left _ (Nat.pow_pos (by decide)))
      have hbound : 10 * state.mantissa + Text.digitValue c < mantissaBound :=
        Nat.lt_of_le_of_lt hpush hmantissa
      rw [hasRoom, hfull, decide_eq_true hbound]
      rfl
    rw [List.cons_append, read?, if_pos hc, if_pos hroom]
    exact ih hdigits hmantissa hscale

/-- Digits without a point denote their number. -/
theorem read?_digits (hne : digits ≠ []) (hdigits : ∀ c ∈ digits, Text.isDigit c = true)
    (hbound : Text.natOfDigits digits < mantissaBound) :
    start.read? digits = some (Text.natOfDigits digits, 0) := by
  have hmantissa : (start.pushAll digits).mantissa = Text.natOfDigits digits := by
    rw [pushAll_mantissa]
    exact Nat.zero_add _
  have hscale : (start.pushAll digits).scale = 0 := pushAll_scale
  have hrun := @read?_pushAll start digits [] hdigits (by omega) (by omega)
  rw [List.append_nil] at hrun
  rw [hrun, read?, if_pos (pushAll_digitSeen (.inl hne)), hmantissa, hscale]

/-- Digits with a point between them denote the number of all of them, the places being counted
behind the point. -/
theorem read?_point {front back : List Char} (hne : front ≠ [])
    (hdigits : ∀ c ∈ front ++ back, Text.isDigit c = true)
    (hbound : Text.natOfDigits (front ++ back) < mantissaBound) (hplaces : back.length ≤ maxScale) :
    start.read? (front ++ '.' :: back) = some (Text.natOfDigits (front ++ back), back.length) := by
  rw [List.forall_mem_append] at hdigits
  -- the state in front of the point, and the one behind it
  have hfront : (start.pushAll front).mantissa = Text.natOfDigits front := by
    rw [pushAll_mantissa]
    exact Nat.zero_add _
  have hscale : (start.pushAll front).scale = 0 := pushAll_scale
  obtain ⟨behind, hbehind⟩ : ∃ behind, behind = { start.pushAll front with pointSeen := true } :=
    ⟨_, rfl⟩
  have hpoint : (start.pushAll front).read? ('.' :: back) = behind.read? back := by
    rw [read?, if_neg (by decide), if_neg (by decide), if_pos (by decide), pushAll_pointSeen,
      hbehind]
    rfl
  have hmantissa : (behind.pushAll back).mantissa = Text.natOfDigits (front ++ back) := by
    rw [pushAll_mantissa, Text.natOfDigits_append, hbehind]
    exact congrArg (10 ^ back.length * · + Text.natOfDigits back) hfront
  have hback : (behind.pushAll back).scale = back.length := by
    rw [pushAll_scale, hbehind, if_pos rfl]
    show (start.pushAll front).scale + back.length = _
    rw [hscale, Nat.zero_add]
  have hseen : (behind.pushAll back).digitSeen = true := by
    refine pushAll_digitSeen (.inr ?_)
    rw [hbehind]
    exact pushAll_digitSeen (.inl hne)
  have hle := Text.natOfDigits_le_append front back
  have hrun := @read?_pushAll behind back [] hdigits.2 (by omega) (by omega)
  rw [List.append_nil] at hrun
  rw [read?_pushAll hdigits.1 (by omega) (by omega), hpoint, hrun, read?, if_pos hseen, hmantissa,
    hback]

/-- Whether a state stands behind the point of a number below one. -/
structure IsFraction (state : Reading) : Prop where
  pointSeen : state.pointSeen = true
  digitSeen : state.digitSeen = true
  separated : state.separated = false
  mantissa_lt : state.mantissa < 10 ^ state.scale
  scale_le : state.scale ≤ maxScale

/-- A power of ten for as many places as there can be is within the bound of mantissas. -/
theorem pow_scale_lt {scale : Nat} (h : scale ≤ maxScale) : 10 ^ scale < mantissaBound :=
  Nat.lt_of_le_of_lt (Nat.pow_le_pow_right (by decide) h) (by decide)

/-- Another place leaves a number below one. -/
theorem IsFraction.push (h : state.IsFraction) {digit : Nat} (hdigit : digit ≤ 9)
    (hroom : state.scale < maxScale) : (state.push digit).IsFraction := by
  have hmantissa := h.mantissa_lt
  have hscale : (state.push digit).scale = state.scale + 1 := if_pos h.pointSeen
  refine ⟨h.pointSeen, rfl, rfl, ?_, hscale ▸ hroom⟩
  rw [hscale, Nat.pow_succ]
  show 10 * state.mantissa + digit < _
  omega

/-- Behind the point of a number below one any digits can be read: what does not fit any more is
rounded off. -/
theorem IsFraction.exists_read? (h : state.IsFraction)
    (hdigits : ∀ c ∈ digits, Text.isDigit c = true) :
    ∃ mantissa scale, state.read? digits = some (mantissa, scale) ∧ mantissa < mantissaBound ∧
      scale ≤ maxScale := by
  induction digits generalizing state with
  | nil =>
    refine ⟨state.mantissa, state.scale, if_pos h.digitSeen, ?_, h.scale_le⟩
    exact Nat.lt_trans h.mantissa_lt (pow_scale_lt h.scale_le)
  | cons c rest ih =>
    obtain ⟨hc, hrest⟩ := List.forall_mem_cons.mp hdigits
    rw [read?, if_pos hc]
    rcases Nat.lt_or_eq_of_le h.scale_le with hlt | hfull
    · have hpush := h.push (Text.digitValue_le hc) hlt
      have hbound : 10 * state.mantissa + Text.digitValue c < mantissaBound :=
        Nat.lt_trans hpush.mantissa_lt (pow_scale_lt hpush.scale_le)
      have hroom : state.hasRoom (Text.digitValue c) = true := by
        rw [hasRoom, isFull, decide_eq_false (Nat.not_le_of_lt hlt), decide_eq_true hbound,
          Bool.and_false]
        rfl
      rw [if_pos hroom]
      exact ih hpush hrest
    · -- no place is left, and rounding up stays within the bounds of the mantissa
      have hroom : state.hasRoom (Text.digitValue c) = false := by
        rw [hasRoom, isFull, h.pointSeen, h.separated, hfull]
        rfl
      have hall : (rest.all fun c => Text.isDigit c || c == '_') = true :=
        List.all_eq_true.mpr fun d hd => by rw [hrest d hd, Bool.true_or]
      have hbound : state.mantissa + 1 < mantissaBound :=
        Nat.lt_of_le_of_lt h.mantissa_lt (pow_scale_lt h.scale_le)
      rw [hroom, if_neg Bool.false_ne_true, if_pos h.pointSeen, cut?, if_pos hall, roundOff?,
        if_pos hbound]
      split
      · exact ⟨_, _, rfl, Nat.lt_of_succ_lt hbound, h.scale_le⟩
      · exact ⟨_, _, rfl, hbound, h.scale_le⟩

end Reading

/-! ### Texts -/

/-- Without places the digits are those of the mantissa. -/
theorem positional_of_scale_eq_zero {a : Decimal} (h : a.scale = 0) :
    Text.positional (Text.digitsOfNat a.mantissa) (-a.scale) = Text.digitsOfNat a.mantissa := by
  rw [h]
  exact List.append_nil _

/-- With places they stand around a point. -/
theorem positional_of_scale_pos {a : Decimal} (h : 0 < a.scale) :
    ∃ front back, Text.positional (Text.digitsOfNat a.mantissa) (-a.scale) = front ++ '.' :: back ∧
      front ≠ [] ∧ (∀ c ∈ front ++ back, Text.isDigit c = true) ∧
      Text.natOfDigits (front ++ back) = a.mantissa ∧ back.length = a.scale := by
  obtain ⟨front, back, htext, hpadded, hne, hlength⟩ :=
    Text.exists_positional (Text.digitsOfNat a.mantissa) h
  refine ⟨front, back, htext, hne, ?_, ?_, hlength⟩
  · rw [hpadded]
    exact Text.isDigit_of_mem_padLeft fun c => Text.isDigit_of_mem_digitsOfNat
  · rw [hpadded, Text.natOfDigits_padLeft, Text.natOfDigits_digitsOfNat]

/-- The text of a decimal without its sign consists of digits and at most a point, and starts with a
digit. -/
theorem positional_chars (a : Decimal) :
    (∀ c ∈ Text.positional (Text.digitsOfNat a.mantissa) (-a.scale),
      Text.isDigit c = true ∨ c = '.') ∧
    ∃ c rest, Text.positional (Text.digitsOfNat a.mantissa) (-a.scale) = c :: rest ∧
      Text.isDigit c = true := by
  rcases Nat.eq_zero_or_pos a.scale with hzero | hpos
  · obtain ⟨c, rest, hcons⟩ := List.exists_cons_of_ne_nil (Text.digitsOfNat_ne_nil a.mantissa)
    have hdigits : ∀ c ∈ Text.digitsOfNat a.mantissa, Text.isDigit c = true :=
      fun c => Text.isDigit_of_mem_digitsOfNat
    rw [positional_of_scale_eq_zero hzero]
    exact ⟨fun c hc => .inl (hdigits c hc), c, rest, hcons, hdigits c (hcons ▸ List.mem_cons_self)⟩
  · obtain ⟨front, back, htext, hne, hdigits, -, -⟩ := positional_of_scale_pos hpos
    obtain ⟨c, rest, rfl⟩ := List.exists_cons_of_ne_nil hne
    rw [htext]
    refine ⟨fun d hd => ?_, c, rest ++ '.' :: back, rfl, hdigits c List.mem_cons_self⟩
    rcases List.mem_append.mp hd with hd | hd
    · exact .inl (hdigits d (List.mem_append_left _ hd))
    · rcases List.mem_cons.mp hd with rfl | hd
      · exact .inr rfl
      · exact .inl (hdigits d (List.mem_append_right _ hd))

/-- The digits of a decimal with their point are read back. -/
theorem reading_text (a : Decimal) :
    Reading.start.read? (Text.positional (Text.digitsOfNat a.mantissa) (-a.scale)) =
      some (a.mantissa, a.scale) := by
  rcases Nat.eq_zero_or_pos a.scale with hzero | hpos
  · have hvalue := Text.natOfDigits_digitsOfNat a.mantissa
    rw [positional_of_scale_eq_zero hzero, Reading.read?_digits (Text.digitsOfNat_ne_nil _)
      (fun c => Text.isDigit_of_mem_digitsOfNat)
      (Nat.lt_of_le_of_lt (Nat.le_of_eq hvalue) a.mantissa_lt), hvalue, hzero]
  · obtain ⟨front, back, htext, hne, hdigits, hvalue, hlength⟩ := positional_of_scale_pos hpos
    rw [htext, Reading.read?_point hne hdigits (hvalue ▸ a.mantissa_lt) (hlength ▸ a.scale_le),
      hvalue, hlength]

/-- A sign and the digits of a decimal are read back, unless the sign is that of a zero. -/
theorem readSigned?_positional {a : Decimal} (h : a.negative = true → a.mantissa ≠ 0) :
    readSigned? a.negative (Text.positional (Text.digitsOfNat a.mantissa) (-a.scale)) = some a := by
  have hsign : (a.negative && decide (a.mantissa ≠ 0)) = a.negative := by
    cases hnegative : a.negative with
    | false => rfl
    | true => exact decide_eq_true (h hnegative)
  have hplaces : a.scale % (maxScale + 1) = a.scale :=
    Nat.mod_eq_of_lt (Nat.lt_succ_of_le a.scale_le)
  rw [readSigned?, reading_text]
  show ofParts? (a.negative && decide (a.mantissa ≠ 0)) a.mantissa (a.scale % (maxScale + 1)) = _
  rw [hsign, hplaces, ofParts?, dif_pos ⟨a.mantissa_lt, a.scale_le⟩]

/-- A text without an exponent mark has no exponent. -/
theorem read?_of_not_isMark {text : List Char} (h : ∀ c ∈ text, isMark c = false) :
    read? text = readPlain? text := by
  have hplain : ∀ c ∈ text, (!isMark c) = true := fun c hc => by rw [h c hc]; rfl
  rw [read?, List.takeWhile_eq_self_iff.mpr hplain, List.dropWhile_eq_nil_iff.mpr hplain]
  cases readPlain? text <;> rfl

/-- No digit is the mark of an exponent. -/
theorem isMark_eq_false_of_isDigit {c : Char} (h : Text.isDigit c = true) : isMark c = false := by
  rw [Bool.eq_false_iff]
  intro hmark
  rw [isMark, Bool.or_eq_true, beq_iff_eq, beq_iff_eq] at hmark
  rcases hmark with rfl | rfl <;> exact nomatch h

/-- A text that starts with a digit has no sign. -/
theorem readPlain?_of_isDigit {c : Char} {rest : List Char} (h : Text.isDigit c = true) :
    readPlain? (c :: rest) = readSigned? false (c :: rest) := by
  refine readPlain?.eq_3 _ ?_ ?_
  all_goals
    rintro tail heq
    cases heq
    exact nomatch h

/-- A decimal without sign is read back from its digits. -/
theorem read?_positional {a : Decimal} (h : a.negative = false) :
    read? (Text.positional (Text.digitsOfNat a.mantissa) (-a.scale)) = some a := by
  have hsigned := @readSigned?_positional a (fun hnegative => nomatch h.symm.trans hnegative)
  rw [h] at hsigned
  obtain ⟨hall, hhead⟩ := positional_chars a
  have hunmarked : ∀ c ∈ Text.positional (Text.digitsOfNat a.mantissa) (-a.scale),
      isMark c = false := by
    intro c hc
    rcases hall c hc with hdigit | rfl
    · exact isMark_eq_false_of_isDigit hdigit
    · rfl
  obtain ⟨c, rest, hcons, hc⟩ := hhead
  rw [read?_of_not_isMark hunmarked, hcons, readPlain?_of_isDigit hc, ← hcons, hsigned]

/-- A point with digits behind it always denotes a number if a zero stands in front of it. -/
theorem isSome_read?_fraction {places : List Char} (h : ∀ c ∈ places, Text.isDigit c = true) :
    (read? ('0' :: '.' :: places)).isSome := by
  have hunmarked : ∀ c ∈ '0' :: '.' :: places, isMark c = false :=
    List.forall_mem_cons.mpr ⟨rfl, List.forall_mem_cons.mpr
      ⟨rfl, fun c hc => isMark_eq_false_of_isDigit (h c hc)⟩⟩
  have hfraction : (Reading.mk 0 0 true true false).IsFraction :=
    ⟨rfl, rfl, rfl, Nat.one_pos, Nat.zero_le _⟩
  obtain ⟨mantissa, scale, hread, hmantissa, hscale⟩ := hfraction.exists_read? h
  have hstart : Reading.start.read? ('0' :: '.' :: places) = some (mantissa, scale) := hread
  have hplaces : scale % (maxScale + 1) = scale := Nat.mod_eq_of_lt (Nat.lt_succ_of_le hscale)
  rw [read?_of_not_isMark hunmarked, readPlain?_of_isDigit rfl, readSigned?, hstart]
  show (ofParts? (false && decide (mantissa ≠ 0)) mantissa (scale % (maxScale + 1))).isSome
  rw [hplaces, ofParts?, dif_pos ⟨hmantissa, hscale⟩]
  rfl

end Decimal

end Formula
