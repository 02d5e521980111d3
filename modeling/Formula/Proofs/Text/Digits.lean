import Formula.Number.Power
import Formula.Text.Digits

/-!
# Digits read back

`natOfDigits` undoes `digitsOfNat`, also behind zeros and around a point.
-/

namespace Formula.Text

open NaturalPower

variable {digits : List Char} {n width : Nat}

/-- The digits of the standard library are digits. -/
theorem isDigit_eq_true_of_isDigit {c : Char} (h : c.isDigit = true) : isDigit c = true := by
  rw [Char.isDigit, Bool.and_eq_true, decide_eq_true_eq, decide_eq_true_eq] at h
  rw [isDigit, Bool.and_eq_true, decide_eq_true_eq, decide_eq_true_eq]
  exact h

/-- The number of some digits, with others in front that denote `high`. -/
theorem foldl_digits (high : Nat) :
    digits.foldl (fun value c => 10 * value + digitValue c) high =
      10 ^ digits.length * high + natOfDigits digits := by
  have h := @Nat.ofDigitChars_eq_ofDigitChars_zero digits high
  rw [Nat.ofDigitChars_eq_foldl, Nat.ofDigitChars_eq_foldl] at h
  exact h

/-- Digits that are appended shift the number by as many places. -/
theorem natOfDigits_append {front back : List Char} :
    natOfDigits (front ++ back) = 10 ^ back.length * natOfDigits front + natOfDigits back := by
  rw [natOfDigits, List.foldl_append, foldl_digits]
  rfl

/-- Digits that are appended do not make a number smaller. -/
theorem natOfDigits_le_append (front back : List Char) :
    natOfDigits front ≤ natOfDigits (front ++ back) := by
  rw [natOfDigits_append]
  exact Nat.le_add_right_of_le (Nat.le_mul_of_pos_left _ (Nat.pow_pos (by decide)))

/-- The digits of a number denote it. -/
theorem natOfDigits_digitsOfNat (n : Nat) : natOfDigits (digitsOfNat n) = n := by
  have h := @Nat.ofDigitChars_ten_toDigits n
  rw [Nat.ofDigitChars_eq_foldl] at h
  exact h

/-- The digits of a number are digits. -/
theorem isDigit_of_mem_digitsOfNat {c : Char} (h : c ∈ digitsOfNat n) : isDigit c = true :=
  isDigit_eq_true_of_isDigit (Nat.isDigit_of_mem_toDigits (by decide) (by decide) h)

/-- Every number has digits. -/
theorem digitsOfNat_ne_nil (n : Nat) : digitsOfNat n ≠ [] := Nat.toDigits_ne_nil

/-- A number below a power of ten has at most that many digits. -/
theorem length_digitsOfNat_le {k : Nat} (hk : 0 < k) (h : n < 10 ^ k) :
    (digitsOfNat n).length ≤ k :=
  (Nat.length_toDigits_le_iff (by decide) hk).mpr h

/-- A digit is worth nine at most. -/
theorem digitValue_le {c : Char} (h : isDigit c = true) : digitValue c ≤ 9 := by
  rw [isDigit, Bool.and_eq_true, decide_eq_true_eq, decide_eq_true_eq] at h
  exact Nat.sub_le_sub_right h.2 _

/-- Some digits denote less than the power of ten for as many. -/
theorem natOfDigits_lt (h : ∀ c ∈ digits, isDigit c = true) :
    natOfDigits digits < 10 ^ digits.length := by
  induction digits with
  | nil => decide
  | cons c rest ih =>
    obtain ⟨hc, hrest⟩ := List.forall_mem_cons.mp h
    have hcons : natOfDigits (c :: rest) = 10 ^ rest.length * digitValue c + natOfDigits rest := by
      rw [natOfDigits, List.foldl_cons, foldl_digits, Nat.mul_zero, Nat.zero_add]
    calc natOfDigits (c :: rest)
        = 10 ^ rest.length * digitValue c + natOfDigits rest := hcons
      _ < 10 ^ rest.length * digitValue c + 10 ^ rest.length := Nat.add_lt_add_left (ih hrest) _
      _ = 10 ^ rest.length * (digitValue c + 1) := rfl
      _ ≤ 10 ^ rest.length * 10 := Nat.mul_le_mul_left _ (Nat.succ_le_succ (digitValue_le hc))
      _ = 10 ^ (c :: rest).length := rfl

/-- No number but zero begins with a zero. -/
theorem eq_nil_of_digitsOfNat {rest : List Char} (h : digitsOfNat n = '0' :: rest) : rest = [] := by
  have hrest : ∀ c ∈ rest, isDigit c = true := fun c hc =>
    isDigit_of_mem_digitsOfNat (h ▸ List.mem_cons_of_mem _ hc)
  have hvalue : n = natOfDigits rest := by
    rw [← natOfDigits_digitsOfNat n, h]
    rfl
  have hlt : n < 10 ^ rest.length := hvalue ▸ natOfDigits_lt hrest
  cases rest with
  | nil => rfl
  | cons c others =>
    have hlength := length_digitsOfNat_le (Nat.succ_pos _) hlt
    rw [h] at hlength
    exact absurd hlength (Nat.not_succ_le_self _)

/-- Zeros behind a number multiply it. -/
theorem digitsOfNat_mul_pow (k : Nat) (h : n = 0 → k = 0) :
    digitsOfNat (n * 10 ^ k) = digitsOfNat n ++ List.replicate k '0' := by
  induction k with
  | zero => rw [Nat.pow_zero, Nat.mul_one, List.replicate_zero, List.append_nil]
  | succ k ih =>
    have hn : n ≠ 0 := fun hzero => Nat.succ_ne_zero k (h hzero)
    have hpos : 0 < n * 10 ^ k := Nat.mul_pos (Nat.pos_of_ne_zero hn) (Nat.pow_pos (by decide))
    have hdigit : digitsOfNat (n * 10 ^ k) ++ digitsOfNat 0 = digitsOfNat (10 * (n * 10 ^ k) + 0) :=
      Nat.toDigits_append_toDigits (by decide) hpos (by decide)
    rw [Nat.add_zero, Nat.mul_left_comm, ← Nat.pow_succ'] at hdigit
    rw [← hdigit, ih fun hzero => absurd hzero hn, List.replicate_succ', ← List.append_assoc]
    rfl

/-! ## Zeros in front -/

/-- Zeros are added up to the width, and none beyond it. -/
theorem length_padLeft : (padLeft width digits).length = max width digits.length := by
  rw [padLeft, List.length_append, List.length_replicate]
  omega

/-- Zeros in front do not change the number. -/
theorem natOfDigits_padLeft : natOfDigits (padLeft width digits) = natOfDigits digits := by
  have hzeros : ∀ k, natOfDigits (List.replicate k '0') = 0 := by
    intro k
    have h := @Nat.ofDigitChars_replicate_zero 10 0 k
    rw [Nat.ofDigitChars_eq_foldl] at h
    exact h
  rw [padLeft, natOfDigits_append, hzeros, Nat.mul_zero, Nat.zero_add]

/-- Digits with zeros in front are digits. -/
theorem isDigit_of_mem_padLeft (h : ∀ c ∈ digits, isDigit c = true) :
    ∀ c ∈ padLeft width digits, isDigit c = true := by
  rw [padLeft, List.forall_mem_append]
  refine ⟨fun c hc => ?_, h⟩
  rw [List.eq_of_mem_replicate hc]
  rfl

/-! ## Digits around a point -/

/-- The point splits the padded digits, with at least one before it. -/
theorem exists_positional (digits : List Char) {places : Nat} (h : 0 < places) :
    ∃ front back, positional digits (-places) = front ++ '.' :: back ∧
      front ++ back = padLeft (places + 1) digits ∧ front ≠ [] ∧ back.length = places := by
  obtain ⟨k, rfl⟩ := Nat.exists_eq_add_one.mpr h
  have hlength := @length_padLeft digits (k + 2)
  refine ⟨(padLeft (k + 2) digits).take ((padLeft (k + 2) digits).length - (k + 1)),
    (padLeft (k + 2) digits).drop ((padLeft (k + 2) digits).length - (k + 1)), rfl,
    List.take_append_drop _ _, ?_, ?_⟩
  · intro hnil
    have := congrArg List.length hnil
    rw [List.length_take, List.length_nil] at this
    omega
  · rw [List.length_drop]
    omega

end Formula.Text
