import Formula.Proofs.Evaluation.Integers

/-!
# Remainders of integers

The remainder of two words always fits into a word, since it is smaller than the divisor. Yet it is
only handed out if the quotient fits as well, and there is one pair of words whose quotient does
not: the least word divided by -1 (`fits_tdiv_iff`). `modulus_integers` says what the operator comes
to for every pair.
-/

namespace Formula

open NaturalPower

namespace Integer

/-- Whether `r` is what the division of `a` by `b` leaves if the quotient is truncated toward zero:
smaller than the divisor, and on the side of zero where `a` is. -/
def IsRemainder (a b r : Int) : Prop :=
  ∃ q, a = b * q + r ∧ r.natAbs < b.natAbs ∧ (r = 0 ∨ r.sign = a.sign)

/-- The truncated remainder satisfies what defines a remainder. -/
theorem isRemainder_tmod (a : Int) {b : Int} (hb : b ≠ 0) : IsRemainder a b (a.tmod b) := by
  refine ⟨a.tdiv b, (Int.mul_tdiv_add_tmod a b).symm, ?_, ?_⟩
  · rw [Int.natAbs_tmod]
    exact Nat.mod_lt _ (Int.natAbs_pos.mpr hb)
  · have hsign := Int.sign_tmod a b
    split at hsign
    · exact .inl (Int.sign_eq_zero_iff_zero.mp hsign)
    · exact .inr hsign

section

variable {a b : Int}

/-- A remainder of integers that fit does so as well. -/
theorem fits_tmod (hb : Fits b) (hne : b ≠ 0) : Fits (a.tmod b) := by
  have hlt : (a.tmod b).natAbs < b.natAbs := by
    rw [Int.natAbs_tmod]
    exact Nat.mod_lt _ (Int.natAbs_pos.mpr hne)
  unfold Fits at hb ⊢
  omega

/-- Only the least word has a quotient that does not fit, and only by -1. -/
theorem fits_tdiv_iff (ha : Fits a) (hne : b ≠ 0) :
    Fits (a.tdiv b) ↔ ¬ (a = -2 ^ (63 : Nat) ∧ b = -1) := by
  have hquotient : (a.tdiv b).natAbs = a.natAbs / b.natAbs := Int.natAbs_tdiv a b
  unfold Fits at ha ⊢
  by_cases hone : b.natAbs = 1
  · -- the quotient is the dividend, with or without its sign turned
    rcases Int.natAbs_eq_iff.mp hone with rfl | rfl
    · rw [Int.natCast_one, Int.tdiv_one]
      omega
    · rw [Int.natCast_one, Int.tdiv_neg, Int.tdiv_one]
      omega
  · -- any other divisor at least halves the dividend
    have hhalf : a.natAbs / b.natAbs ≤ a.natAbs / 2 :=
      Nat.div_le_div_left (by omega) (by decide)
    omega

end

/-- A number in the range is an integer. -/
theorem exists_ofInt? {z : Int} (h : Fits z) : ∃ n : Int64, ofInt? z = some n ∧ n.toInt = z := by
  cases hword : ofInt? z with
  | none => exact absurd h (ofInt?_eq_none_iff.mp hword)
  | some n => exact ⟨n, rfl, toInt_of_ofInt? hword⟩

/-- The remainder by a word other than zero is handed out if the quotient fits. -/
theorem rem?_cases (a : Int64) {b : Int64} (hne : b.toInt ≠ 0) :
    ((a.toInt = -2 ^ (63 : Nat) ∧ b.toInt = -1) ∧ rem? a b = none) ∨
    (¬ (a.toInt = -2 ^ (63 : Nat) ∧ b.toInt = -1) ∧
      ∃ r : Int64, rem? a b = some r ∧ r.toInt = a.toInt.tmod b.toInt) := by
  have hquotient := fits_tdiv_iff (fits_toInt a) hne
  by_cases hleast : a.toInt = -2 ^ (63 : Nat) ∧ b.toInt = -1
  · have hnone : ofInt? (a.toInt.tdiv b.toInt) = none :=
      ofInt?_eq_none_iff.mpr fun h => hquotient.mp h hleast
    refine .inl ⟨hleast, ?_⟩
    rw [rem?, hnone]
    rfl
  · obtain ⟨q, hq, -⟩ := exists_ofInt? (hquotient.mpr hleast)
    obtain ⟨r, hr, htoInt⟩ := exists_ofInt? (@fits_tmod a.toInt b.toInt (fits_toInt b) hne)
    refine .inr ⟨hleast, r, ?_, htoInt⟩
    rw [rem?, hq, hr]
    rfl

end Integer

/-- The remainder of two integers fails for a divisor of zero, and overflows for the least integer
and a divisor of -1, whose quotient is no integer of the language. For every other pair it is the
integer that the truncated division leaves. -/
theorem modulus_integers (a b : Int64) :
    (b = 0 ∧ BinaryOp.modulus.apply (.integer a) (.integer b) = .error .divisionByZero) ∨
    ((a = Int64.minValue ∧ b = -1) ∧
      BinaryOp.modulus.apply (.integer a) (.integer b) = .error (.overflow "%")) ∨
    ((b ≠ 0 ∧ ¬ (a = Int64.minValue ∧ b = -1)) ∧
      ∃ r : Int64, BinaryOp.modulus.apply (.integer a) (.integer b) = .ok (.integer r) ∧
        r.toInt = a.toInt.tmod b.toInt ∧ Integer.IsRemainder a.toInt b.toInt r.toInt) := by
  have hresult : BinaryOp.modulus.apply (.integer a) (.integer b) =
      if b = 0 then .error .divisionByZero
      else Value.orOverflow "%" .integer (Integer.rem? a b) := rfl
  by_cases hzero : b = 0
  · rw [if_pos hzero] at hresult
    exact .inl ⟨hzero, hresult⟩
  · rw [if_neg hzero] at hresult
    have hne : b.toInt ≠ 0 := fun h => hzero (Int64.toInt_inj.mp h)
    have hleast : (a = Int64.minValue ∧ b = -1) ↔ (a.toInt = -2 ^ (63 : Nat) ∧ b.toInt = -1) :=
      and_congr Int64.toInt_inj.symm Int64.toInt_inj.symm
    rw [hleast, hresult]
    rcases Integer.rem?_cases a hne with ⟨hpair, hnone⟩ | ⟨hpair, r, hsome, hr⟩
    · rw [hnone]
      exact .inr (.inl ⟨hpair, rfl⟩)
    · rw [hsome]
      refine .inr (.inr ⟨⟨hzero, hpair⟩, r, rfl, hr, ?_⟩)
      rw [hr]
      exact Integer.isRemainder_tmod a.toInt hne

/-- The least integer has a remainder by -1, which is zero, and the operator overflows all the
same. -/
theorem modulus_least : Integer.IsRemainder Int64.minValue.toInt (-1 : Int64).toInt 0 ∧
    BinaryOp.modulus.apply (.integer Int64.minValue) (.integer (-1)) = .error (.overflow "%") :=
  ⟨Integer.isRemainder_tmod Int64.minValue.toInt (by decide), rfl⟩

end Formula
